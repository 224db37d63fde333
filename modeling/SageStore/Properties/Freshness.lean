import SageStore.Foundation.Replica
import SageStore.Properties.LogIns

/-!
# When what a tab shows is up to date

A tab requests its lists when it is opened, and the model that owns a table requests its list again
when a row of it was created, edited or deleted by the client itself. Nothing tells a client of what
others do, and a receipt tells of the order only, not of the stocks it raises. So a tab of the owner
is up to date (`tabs_up_to_date`) while nobody else changes the table, the client posts no receipt
if it is about stocks, nothing of the client's is lost, and its replies are delivered in the order
in which they were sent: once nothing of the client's is under way, the tab shows the table as the
server has it. A reply that is overtaken by a later one would replace a newer list by an older one.

The tables are those that a model owns (`ModelName.owner`), and neither the log, which every request
writes, nor the lines of orders, which are listed for one order. A tab that shows a table its model
does not own, as the contacts in the view of sales, is not told of changes.

The client keeps a `Network.Replica` of the listing, for as long as a tab of its owner is open.
-/

namespace SageStore

open Bytes Program BusinessLogic

variable {e : Enforcement} {p : Platform} {J : Json} {url : QUrl} {sha256 : Sha256}
  {t : TableName} {m : ModelName}

/-! ### What signals bring -/

/-- The list of a resource that comes with a signal. -/
def ApiSignal.carries (t : TableName) : ApiSignal → Option (List (Entity t))
  | .resource s =>
    match s.list? with
    | some ⟨t', xs⟩ => if h : t' = t then some (h ▸ xs) else none
    | none => none
  | _ => none

/-- The signal makes the model that manages the resource request its list again. -/
def ApiSignal.Announces (t : TableName) : ApiSignal → Prop
  | .resource s => s.changed? = some t
  | .purchaseReceiptPosted => t = .purchaseOrder
  | _ => False

/-- The signal of a listing carries the list. -/
theorem carries_listSignal (t : TableName) (xs : List (Entity t)) :
    (ApiSignal.resource (ApiManager.listSignal t xs)).carries t = some xs := by
  unfold ApiSignal.carries
  simp only [list?_listSignal, dif_pos]

theorem list?_of_carries {signal : ApiSignal} {xs : List (Entity t)}
    (h : signal.carries t = some xs) :
    ∃ s, signal = .resource s ∧ s.list? = some ⟨t, xs⟩ := by
  cases signal with
  | resource s =>
    unfold ApiSignal.carries at h
    dsimp only at h
    split at h
    · next t' ys hs =>
      split at h
      · next heq =>
        subst heq
        obtain rfl := Option.some.inj h
        exact ⟨s, rfl, hs⟩
      · cases h
    · cases h
  | _ => cases h

/-- A signal about a change brings no list. -/
theorem list?_of_changed? {s : Signal} (h : s.changed? = some t) : s.list? = none := by
  cases s with
  | created => rfl
  | edited => rfl
  | deleted => rfl
  | _ => cases h

namespace Client

variable {client : Client}

/-- A model that keeps a list shows the one that a signal brings, and else the one before. -/
theorem lists_onSignal (hkeeps : t ∈ m.keeps) {model : Model}
    (hmodel : client.models m = some model) (signal : ApiSignal) :
    ∃ model', (client.onSignal signal).1.models m = some model' ∧
      model'.lists t = (signal.carries t).getD (model.lists t) := by
  by_cases hcarries : ∃ xs, signal.carries t = some xs
  · obtain ⟨xs, hxs⟩ := hcarries
    obtain ⟨s, rfl, hs⟩ := list?_of_carries hxs
    have honList : (client.onSignal (.resource s)).1 = client.onList t xs := by
      unfold onSignal
      simp only [hs]
    refine ⟨Model.onList m t xs model, ?_, ?_⟩
    · rw [honList]
      exact congrArg (Option.map (Model.onList m t xs)) hmodel
    · rw [hxs]
      exact Model.lists_onList_self hkeeps xs model
  -- no other signal changes the list
  obtain ⟨f, hheard, hf⟩ := models_onSignal client m signal
  rw [hmodel] at hf
  refine ⟨f model, hf, ?_⟩
  rw [Option.eq_none_iff_forall_not_mem.mpr fun xs hxs => hcarries ⟨xs, hxs⟩]
  cases hheard with
  | list s t' entities hs =>
    refine Model.lists_onList_of_ne (fun ht => hcarries ?_) m entities model
    subst ht
    refine ⟨entities, ?_⟩
    unfold ApiSignal.carries
    simp only [hs, dif_pos]
  | _ => rfl

/-- A change that is announced makes the client request the list. -/
theorem list_mem_onSignal (ht : t ∉ [.log, .salesOrderRecord, .purchaseOrderRecord])
    (hm : ModelName.owner t = some m) {model : Model} (hmodel : client.models m = some model)
    {signal : ApiSignal} (hannounces : signal.Announces t) :
    ClientRequest.list t ∈ (client.onSignal signal).2 := by
  cases signal with
  | resource s =>
    have hchanged : s.changed? = some t := hannounces
    have honSignal : (client.onSignal (.resource s)).2 = model.onChanged t := by
      unfold onSignal
      simp only [list?_of_changed? hchanged, hchanged, onChanged, hm, Option.bind_some, hmodel]
    rw [honSignal]
    cases t with
    | log => exact absurd (by decide) ht
    | salesOrderRecord => exact absurd (by decide) ht
    | purchaseOrderRecord => exact absurd (by decide) ht
    | _ => exact List.mem_cons_self
  | purchaseReceiptPosted =>
    obtain rfl : t = .purchaseOrder := hannounces
    obtain rfl : ModelName.purchaseModel = m := Option.some.inj hm
    unfold onSignal
    simp only [hmodel]
    exact List.mem_append_left _ List.mem_cons_self
  | _ => exact hannounces.elim

/-! ### Tabs -/

/-- A model that is ensured opens no tab. -/
theorem tabs_ensureModel (m : ModelName) : (client.ensureModel m).tabs = client.tabs := by
  unfold ensureModel
  split <;> rfl

theorem isSome_ensureModel (m : ModelName) : ((client.ensureModel m).models m).isSome := by
  unfold ensureModel
  split
  · next model hmodel => exact Option.isSome_of_eq_some hmodel
  · dsimp only
    rw [Function.update_self]
    rfl

/-- A tab that an action opens has its model, and its lists are requested. -/
theorem mem_tabs_act {a : Action} {view : View} (h : view ∈ (client.act sha256 a).1.tabs) :
    view ∈ client.tabs ∨ ((client.act sha256 a).1.models view.model).isSome ∧
      (client.act sha256 a).2 = view.fetches := by
  cases a with
  | openView view' =>
    unfold act at h ⊢
    dsimp only at h ⊢
    split at h
    · next hauth =>
      rw [if_pos hauth]
      unfold openView at h ⊢
      dsimp only at h ⊢
      split at h
      · rw [tabs_ensureModel] at h
        exact Or.inl h
      · -- the tab is a new one, behind those that were open
        next htab =>
        rw [if_neg htab]
        rcases List.mem_append.mp h with h | h
        · rw [tabs_ensureModel] at h
          exact Or.inl h
        · obtain rfl := List.mem_singleton.mp h
          exact Or.inr ⟨isSome_ensureModel _, rfl⟩
    · exact Or.inl h
  | closeTab view' => exact Or.inl (List.mem_of_mem_erase h)
  | fetchOrderRecords k orderId =>
    unfold act at h
    dsimp only at h
    split at h <;> exact Or.inl h
  | _ => exact Or.inl h

/-- Every tab has its model. -/
def TabsHaveModels (client : Client) : Prop :=
  ∀ view ∈ client.tabs, (client.models view.model).isSome

/-- A tab of the model is open that shows the list of a resource. -/
def Watches (client : Client) (m : ModelName) (t : TableName) : Prop :=
  ∃ view ∈ client.tabs, view.model = m ∧ ClientRequest.list t ∈ view.fetches

/-- What a model shows of a resource. -/
def listOf (client : Client) (m : ModelName) (t : TableName) : List (Entity t) :=
  match client.models m with
  | none => []
  | some model => model.lists t

/-- A tab is opened together with its model. -/
theorem TabsHaveModels.act (h : client.TabsHaveModels) (a : Action) :
    (client.act sha256 a).1.TabsHaveModels := by
  intro view hview
  rcases mem_tabs_act hview with hview | ⟨hsome, -⟩
  · exact isSome_models_act a (h view hview)
  · exact hsome

theorem TabsHaveModels.onSignal (h : client.TabsHaveModels) (signal : ApiSignal) :
    (client.onSignal signal).1.TabsHaveModels := by
  intro view hview
  rw [tabs_onSignal] at hview
  rw [isSome_models_onSignal]
  exact h view hview

/-- A tab that is open shows a model. -/
theorem Watches.exists_model (hwatches : client.Watches m t) (h : client.TabsHaveModels) :
    ∃ model, client.models m = some model := by
  obtain ⟨view, hview, rfl, -⟩ := hwatches
  exact Option.isSome_iff_exists.mp (h view hview)

theorem listOf_of_some {model : Model} (h : client.models m = some model) :
    client.listOf m t = model.lists t := by
  unfold listOf
  rw [h]

/-- A client that begins to watch a list requests it, and else the list stays. -/
theorem watches_act (h : client.TabsHaveModels) (a : Action)
    (hwatches : (client.act sha256 a).1.Watches m t) :
    client.Watches m t ∧ (client.act sha256 a).1.listOf m t = client.listOf m t ∨
      ClientRequest.list t ∈ (client.act sha256 a).2 := by
  obtain ⟨view, hview, hmodel, hfetches⟩ := hwatches
  rcases mem_tabs_act hview with hview | ⟨-, hsends⟩
  · refine Or.inl ⟨⟨view, hview, hmodel, hfetches⟩, ?_⟩
    obtain ⟨model, hsome⟩ := Watches.exists_model ⟨view, hview, hmodel, hfetches⟩ h
    rw [listOf_of_some hsome]
    rcases models_act sha256 client m a with
      heq | ⟨hnone, -⟩ | ⟨_, orderId, model', -, -, hmodel', heq⟩
    · exact listOf_of_some (heq.trans hsome)
    · exact absurd (hsome.symm.trans hnone) (Option.some_ne_none model)
    · obtain rfl := Option.some.inj (hmodel'.symm.trans hsome)
      rw [listOf_of_some heq]
  · exact Or.inr (hsends ▸ hfetches)

end Client

/-! ### What changes a table -/

/-- A listing does not depend on other tables. -/
theorem shown_congr {d d' : Db e} (h : d t = d' t) (resourceId : Bytes) :
    shown p resourceId d t = shown p resourceId d' t := by
  have hrows : listedRows p resourceId d t = listedRows p resourceId d' t := by
    cases t <;> simp only [listedRows, h]
  rw [shown, hrows, shown]

/-- Only the lines of orders are listed by order. -/
theorem shown_eq (ht : t ∉ [.log, .salesOrderRecord, .purchaseOrderRecord]) (resourceId : Bytes)
    (d : Db e) : shown p resourceId d t = shown p [] d t := by
  cases t with
  | salesOrderRecord => exact absurd (by decide) ht
  | purchaseOrderRecord => exact absurd (by decide) ht
  | _ => rfl

/-- A table is changed by accepted requests about it, and by receipts. -/
theorem changes {now : UtcTime} {req : RequestData} {faults : List (Option Exception)} {d d' : Db e}
    {reply : ResponseData} (h : Step p now req faults d reply d')
    (ht : t ∉ [.log, .salesOrderRecord, .purchaseOrderRecord]) (hne : d' t ≠ d t) :
    Answers req d reply ∧ req.method ≠ utf8 "GET" ∧
      (req.Addresses t ∨ req.PostsReceipt ∧ (t = .inventory ∨ t = .purchaseOrder)) := by
  simp only [List.mem_cons, not_or] at ht
  obtain ⟨hlog, hsale, hpurchase, -⟩ := ht
  cases h with
  | rejected ex hreply hex heq => exact absurd (heq ▸ rfl) hne
  | aborted ex hreply hfault habort => exact absurd (habort.eq_of_ne hsale hpurchase) hne
  | @accepted d₁ hans heffect haudit =>
    -- the audit writes the log only, so the task has changed the table
    rw [haudit.eq_of_ne hlog] at hne
    refine ⟨hans, ?_⟩
    have haddr {t' : TableName} (h : req.Addresses t') (hothers : t ≠ t' → d₁ t = d t) :
        req.Addresses t := by
      by_cases heq : t = t'
      · exact heq ▸ h
      · exact absurd (hothers heq) hne
    cases heffect with
    | read => exact absurd rfl hne
    | insert t' x h hmethod hguard hutf8 hok =>
      exact ⟨by rw [hmethod]; decide, Or.inl (haddr h (Database.put_of_ne hok))⟩
    | update t' x h hmethod hid hguard hutf8 hok =>
      exact ⟨by rw [hmethod]; decide, Or.inl (haddr h (Database.put_of_ne hok))⟩
    | delete t' h hmethod hid hguard hok =>
      exact ⟨by rw [hmethod]; decide, Or.inl (haddr h (Database.put_of_ne hok))⟩
    | deleteSaleOrder h hmethod hhas herase hok =>
      refine ⟨by rw [hmethod]; decide, Or.inl (haddr h fun horder => ?_)⟩
      exact (Database.put_of_ne hok horder).trans (herase.others t hsale)
    | deletePurchaseOrder h hmethod hopen herase hok =>
      refine ⟨by rw [hmethod]; decide, Or.inl (haddr h fun horder => ?_)⟩
      exact (Database.put_of_ne hok horder).trans (herase.others t hpurchase)
    | receive hpost hreceives =>
      refine ⟨by rw [hpost.2.2]; decide, Or.inr ⟨hpost, ?_⟩⟩
      -- a receipt leaves all other tables
      by_contra hnot
      obtain ⟨hstock, horder⟩ := not_or.mp hnot
      exact hne (hreceives.others t hstock horder)

/-! ### What a client hears -/

section Hears

variable {r : SentRequest J url} {w : Circumstances} {s : Session (Db e) Exception}

theorem method_of_verb {method : Method} (h : NetworkService.verb method ≠ utf8 "GET") :
    method ≠ .get := by
  rintro rfl
  exact h rfl

/-- **The client hears of its own changes.** -/
theorem onOutcome_announces (hJ : J.RoundTrips) (hvalid : WellFormed s.store ∧ TextsUtf8 s.store)
    (ht : t ∉ [.log, .salesOrderRecord, .purchaseOrderRecord])
    (hstock : t = .inventory → r.request.endpoint ≠ .receipts)
    (hne : ((httpServer p J e).step s ⟨w.now, r.http, w.faults⟩).2.store t ≠ s.store t) :
    ∃ signal, ApiManager.onOutcome J r.request
      ((httpServer p J e).step s ⟨w.now, r.http, w.faults⟩).1 = some signal ∧
        signal.Announces t := by
  rw [step_sent hJ] at hne ⊢
  have hstep := (executeTask_spec p w.now (r.request.task url) { s with faults := w.faults }
    hvalid.1).2
  obtain ⟨hans, hmethod, hwhy⟩ := changes hstep ht hne
  -- the reply to a change is plain text and without error, so its handler is called
  have hutf8 : (replyAt p w (r.request.task url) s).dataset.IsUtf8 :=
    (hans.isUtf8 hvalid.2).mpr fun hlog => absurd hlog.2 hmethod
  have honOutcome : ApiManager.onOutcome J r.request
      (HttpTransaction.doResponse J (replyAt p w (r.request.task url) s)) =
        ApiManager.handler r.request.endpoint r.request.method
          (replyAt p w (r.request.task url) s).dataset := by
    rw [ApiManager.onOutcome, onNetworkReply_doResponse hJ hutf8]
    exact ApiManager.handleReply_of_no_error hans.no_error
  rw [honOutcome]
  rcases hwhy with haddr | ⟨hpost, htable⟩
  · -- a change of the table itself is announced to the models of the table
    have hlog : t ≠ .log := fun h => ht (h ▸ List.mem_cons_self)
    have hget : r.request.method ≠ .get := method_of_verb hmethod
    rw [endpoint_of_addresses url _ haddr]
    generalize r.request.method = method at hget
    cases method with
    | get => exact absurd rfl hget
    | post =>
      exact ⟨.resource (.created t), by simp [ApiManager.handler, ApiManager.handle, hlog], rfl⟩
    | put =>
      exact ⟨.resource (.edited t), by simp [ApiManager.handler, ApiManager.handle, hlog], rfl⟩
    | del =>
      exact ⟨.resource (.deleted t), by simp [ApiManager.handler, ApiManager.handle, hlog], rfl⟩
  · -- a receipt is announced to the orders, and not to the stocks
    have hend := endpoint_of_postsReceipt url _ hpost
    have horder : t = .purchaseOrder := htable.resolve_left fun h => hstock h hend
    have hmethod : r.request.method = .post := by
      have hverb := hpost.2.2
      rw [task_method] at hverb
      generalize r.request.method = method at hverb
      cases method with
      | post => rfl
      | _ => exact absurd hverb (by decide)
    rw [hend, hmethod]
    exact ⟨.purchaseReceiptPosted, rfl, horder⟩

/-- **A list that is requested while no call fails arrives.** -/
theorem carries_onOutcome (hJ : J.RoundTrips) (hvalid : WellFormed s.store ∧ TextsUtf8 s.store)
    (ht : t ∉ [.log, .salesOrderRecord, .purchaseOrderRecord])
    (hend : r.request.endpoint = .resource t) (hmethod : r.request.method = .get)
    (hcalm : w.faults = []) :
    (ApiManager.onOutcome J r.request
      ((httpServer p J e).step s ⟨w.now, r.http, w.faults⟩).1).bind (ApiSignal.carries t) =
        some (shown p [] ((httpServer p J e).step s ⟨w.now, r.http, w.faults⟩).2.store t) := by
  rw [step_sent hJ]
  dsimp only
  have haddr := task_addresses url _ hend
  have hverb : (r.request.task url).method = utf8 "GET" := by
    rw [task_method, hmethod]
    rfl
  have hstep := (executeTask_spec p w.now (r.request.task url) { s with faults := w.faults }
    hvalid.1).2
  -- a listing changes nothing, so it shows what is there before and after
  have hsame : (executeTask p w.now (r.request.task url) { s with faults := w.faults }).2.store t =
      s.store t := by
    by_contra hne
    exact (changes hstep ht hne).2.1 hverb
  have hreply : ∃ xs, replyAt p w (r.request.task url) s = listing (listColumns t) xs := by
    rw [replyAt, hcalm]
    exact ⟨_, get_reply p w.now haddr hverb s.store s.snapshot⟩
  have herror : utf8 "error" ∉ (replyAt p w (r.request.task url) s).dataset := by
    obtain ⟨xs, hxs⟩ := hreply
    rw [hxs]
    exact fun h => error_notMem_listColumns t (mem_listing.mp h)
  obtain ⟨-, hans, -⟩ := hstep.of_no_error herror
  have hutf8 : (replyAt p w (r.request.task url) s).dataset.IsUtf8 := by
    refine (hans.isUtf8 hvalid.2).mpr fun hlog => absurd ?_ ht
    rw [haddr.unique hlog.1]
    exact List.mem_cons_self
  rw [ApiManager.onOutcome, onNetworkReply_doResponse hJ hutf8, Option.bind_some,
    ApiManager.handleReply_of_no_error herror, hend, hmethod, handler_get haddr hverb w s herror,
    Option.bind_some, carries_listSignal, shown_eq ht, shown_congr hsame]

/-- Nothing else brings a list. -/
theorem asks_of_carries (hJ : J.RoundTrips) (hvalid : WellFormed s.store) {xs : List (Entity t)}
    (h : (ApiManager.onOutcome J r.request
      ((httpServer p J e).step s ⟨w.now, r.http, w.faults⟩).1).bind (ApiSignal.carries t) =
        some xs) : r.request.endpoint = .resource t ∧ r.request.method = .get := by
  obtain ⟨signal, hsignal, hcarries⟩ := Option.bind_eq_some_iff.mp h
  obtain ⟨signal, rfl, hlist⟩ := list?_of_carries hcarries
  have hanswer : (system p J url .ofSetup e).Answer (· = s) r
      ((httpServer p J e).step s ⟨w.now, r.http, w.faults⟩).1 := Or.inr ⟨s, w, rfl, rfl⟩
  rcases onOutcome_cases hJ (fun _ h => h ▸ hvalid) hanswer hsignal with
    ⟨message, heq⟩ | ⟨s', w', -, -, hhandles⟩
  · obtain rfl := ApiSignal.resource.inj heq
    cases hlist
  · obtain ⟨hend, hmethod, -⟩ := asks_of_handles hhandles hlist
    exact ⟨hend, hmethod⟩

end Hears

/-! ### The tab as a replica -/

/-- A list that is requested is asked for. -/
theorem exists_asks {x : Client × List ClientRequest} (h : ClientRequest.list t ∈ x.2) :
    ∃ r ∈ (Client.send J url x).2, r.request.endpoint = .resource t ∧ r.request.method = .get := by
  obtain ⟨r, hr, hlist⟩ :=
    List.mem_map.mp (mem_map_send.mpr ⟨h, Dataset.isUtf8_empty⟩)
  exact ⟨r, hr, by rw [hlist]; exact ⟨rfl, rfl⟩⟩

/-- What a tab of the owner `m` shows of the table `t`, as a copy of its listing. -/
def tabReplica (p : Platform) (J : Json) (url : QUrl) (sha256 : Sha256) (e : Enforcement)
    (ht : t ∉ [.log, .salesOrderRecord, .purchaseOrderRecord])
    (hm : ModelName.owner t = some m) :
    (system p J url sha256 e).Replica (List (Entity t)) where
  view s := shown p [] s.store t
  held client := client.listOf m t
  Sound := Client.TabsHaveModels
  Keeps client := client.Watches m t
  Asks r := r.request.endpoint = .resource t ∧ r.request.method = .get
  carried r b := (ApiManager.onOutcome J r.request b).bind (ApiSignal.carries t)
  Announces r b := ∃ signal, ApiManager.onOutcome J r.request b = some signal ∧ signal.Announces t
  sound_init _ h := absurd h List.not_mem_nil
  sound_act a h := h.act a
  sound_receive {client r b} h := by
    show ((Client.exchange J url sha256).receive client r b).1.TabsHaveModels
    unfold Client.exchange
    dsimp only
    split
    · exact h
    · exact h.onSignal _
  held_act a h hkeeps := (Client.watches_act h a hkeeps).imp_right exists_asks
  keeps_receive {client r b} h := by
    change ((Client.exchange J url sha256).receive client r b).1.Watches m t at h
    unfold Client.exchange at h
    dsimp only at h
    split at h
    · exact h
    · obtain ⟨view, hview, hshows⟩ := h
      exact ⟨view, Client.tabs_onSignal _ ▸ hview, hshows⟩
  held_receive {client r b} h hkeeps := by
    show ((Client.exchange J url sha256).receive client r b).1.listOf m t = _
    obtain ⟨model, hmodel⟩ := hkeeps.exists_model h
    unfold Client.exchange
    dsimp only
    cases ApiManager.onOutcome J r.request b with
    | none => rfl
    | some signal =>
      obtain ⟨model', hmodel', hlists⟩ :=
        Client.lists_onSignal (ModelName.mem_keeps_of_owner hm) hmodel signal
      show (client.onSignal signal).1.listOf m t = _
      rw [Client.listOf_of_some hmodel', hlists, Client.listOf_of_some hmodel]
      rfl
  asks_again {client r b} h hkeeps := by
    rintro ⟨signal, hsignal, hannounces⟩
    obtain ⟨model, hmodel⟩ := hkeeps.exists_model h
    show ∃ r' ∈ ((Client.exchange J url sha256).receive client r b).2, _
    unfold Client.exchange
    simp only [hsignal]
    exact exists_asks (Client.list_mem_onSignal ht hm hmodel hannounces)

/-- A step in which nobody but the client `c` changes the table `t`, its list is read for the
client while no call fails, the client posts no receipt if the table is that of the stocks, and
nothing of the client's is lost. Of the replies to the client, the one delivered is the oldest, so
that they arrive in the order in which the requests were executed. -/
def Calm {κ : Type} (p : Platform) (c : κ) (t : TableName)
    (s : Network.State κ (Session (Db e) Exception) Client (SentRequest J url) HttpOutcome) :
    Network.Input κ HttpEvent Action Circumstances → Prop
  | .act _ _ => True
  | .execute i w => ∀ c' r, s.requests[i]? = some (c', r) →
    (c' = c → (r.request.endpoint = .resource t → r.request.method = .get → w.faults = []) ∧
      (t = .inventory → r.request.endpoint ≠ .receipts)) ∧
    (c' ≠ c → ((httpServer p J e).step s.server ⟨w.now, r.http, w.faults⟩).2.store t =
      s.server.store t)
  | .loseRequest i => ∀ r, s.requests[i]? ≠ some (c, r)
  | .loseReply i => ∀ x, s.replies[i]? ≠ some (c, x)
  | .deliver i => ∀ x, s.replies[i]? = some (c, x) → ∀ j < i, ∀ y, s.replies[j]? ≠ some (c, y)
  | .other ev => ((httpServer p J e).step s.server ev).2.store t = s.server.store t

/-- A calm step is a quiet one. -/
theorem quiet_of_calm {κ : Type} [DecidableEq κ] {c : κ} (hJ : J.RoundTrips)
    (ht : t ∉ [.log, .salesOrderRecord, .purchaseOrderRecord])
    (hm : ModelName.owner t = some m) (is : List (Network.Input κ HttpEvent Action Circumstances))
    (i : Network.Input κ HttpEvent Action Circumstances)
    (hcalm : Calm p c t ((system p J url sha256 e).after is) i) :
    (tabReplica p J url sha256 e ht hm).Quiet c ((system p J url sha256 e).after is) i := by
  have hvalid := httpServer_valid (Network.server_reachable (N := system p J url sha256 e) is)
  generalize (system p J url sha256 e).after is = s at hcalm hvalid ⊢
  cases i with
  | act => trivial
  | loseRequest i => exact hcalm
  | loseReply i => exact hcalm
  | deliver i => exact hcalm
  | other ev => exact shown_congr hcalm []
  | execute i w =>
    intro c' r hr
    obtain ⟨hown, hothers⟩ := hcalm c' r hr
    refine ⟨?_, fun hc hasks => ?_, fun hc hasks => ?_⟩
    · by_cases hsame :
        ((httpServer p J e).step s.server ⟨w.now, r.http, w.faults⟩).2.store t = s.server.store t
      · exact Or.inl (shown_congr hsame [])
      · have hc : c' = c := by_contra fun hc => hsame (hothers hc)
        exact Or.inr ⟨hc, onOutcome_announces hJ hvalid ht (hown hc).2 hsame⟩
    · exact carries_onOutcome hJ hvalid ht hasks.1 hasks.2 ((hown hc).1 hasks.1 hasks.2)
    · exact Option.eq_none_iff_forall_not_mem.mpr fun xs hxs =>
        hasks (asks_of_carries hJ hvalid.1 hxs)

/-- **What an open tab shows is up to date.** Take a table that the model `m` owns, but the log and
the lines of orders, and any run after which the client has no tab of that model open, or has just
requested the list; and any calm continuation of it, in which the client's replies arrive in the
order of their execution. Once nothing of the client's is under way, every tab of the model that is
open and shows the table shows it as the server has it. -/
theorem tabs_up_to_date {κ : Type} [DecidableEq κ] (hJ : J.RoundTrips) (p : Platform) (url : QUrl)
    (sha256 : Sha256) (e : Enforcement)
    (is js : List (Network.Input κ HttpEvent Action Circumstances)) (c : κ)
    (ht : t ∉ [.log, .salesOrderRecord, .purchaseOrderRecord])
    (hm : ModelName.owner t = some m)
    (hstart : ¬ (((system p J url sha256 e).after is).client c).Watches m t ∨
      ∃ r, (c, r) ∈ ((system p J url sha256 e).after is).requests ∧
        r.request = ClientRequest.list t)
    (hcalm : ((system p J url sha256 e).machine κ).Along (Calm p c t)
      ((system p J url sha256 e).after is) js)
    (hrequests : ∀ r, (c, r) ∉ ((system p J url sha256 e).after (is ++ js)).requests)
    (hreplies : ∀ x, (c, x) ∉ ((system p J url sha256 e).after (is ++ js)).replies)
    (hwatches : (((system p J url sha256 e).after (is ++ js)).client c).Watches m t) :
    ∃ model, (((system p J url sha256 e).after (is ++ js)).client c).models m = some model ∧
      model.lists t = shown p [] ((system p J url sha256 e).after (is ++ js)).server.store t := by
  have hfresh :
      (tabReplica p J url sha256 e ht hm).Fresh c ((system p J url sha256 e).after is) := by
    intro hkeeps
    -- a tab that is open already has its list on the way
    obtain ⟨r, hr, hlist⟩ := hstart.resolve_left (not_not.mpr hkeeps)
    have hasks : r.request.endpoint = .resource t ∧ r.request.method = .get := by
      rw [hlist]
      exact ⟨rfl, rfl⟩
    exact Or.inr (Or.inl ⟨r, hr, hasks⟩)
  have hsettled : (((system p J url sha256 e).after (is ++ js)).client c).listOf m t =
      shown p [] ((system p J url sha256 e).after (is ++ js)).server.store t :=
    (hfresh.run (quiet_of_calm hJ ht hm) hcalm).settled hwatches hrequests hreplies
  obtain ⟨model, hmodel⟩ := hwatches.exists_model
    ((tabReplica p J url sha256 e ht hm).sound_after (is ++ js) c)
  exact ⟨model, hmodel, (Client.listOf_of_some hmodel).symm.trans hsettled⟩

/-- The administrator opens the contacts and adds one. -/
def newContactRun : List (Network.Input Unit HttpEvent Action Circumstances) :=
  [.act () (.openView .managementView), .execute 0 ⟨noon, []⟩, .execute 0 ⟨noon, []⟩,
    .execute 0 ⟨noon, []⟩, .deliver 0, .deliver 0, .deliver 0,
    .act () (.createEntity .contact ⟨[], "Ann", "Customer", "ann@example.com", "1"⟩),
    .execute 0 ⟨noon, []⟩, .deliver 0, .execute 0 ⟨noon, []⟩, .deliver 0]

/-- The new contact is shown. -/
theorem tabs_up_to_date_contact : ∃ model,
    (((system .plain .arrays .percent .ofSetup .full).after (loginRun ++ newContactRun)).client
      ()).models .managementModel = some model ∧
    model.lists .contact = shown .plain [] ((system .plain .arrays .percent .ofSetup .full).after
      (loginRun ++ newContactRun)).server.store .contact := by
  have hexecute : ∀ (s : Network.State Unit (Session (Db .full) Exception) Client
      (SentRequest .arrays .percent) HttpOutcome) i,
      Calm .plain () .contact s (.execute i ⟨noon, []⟩) :=
    fun s i c' r _ => ⟨fun _ => ⟨fun _ _ => rfl, fun h => by cases h⟩, fun hc => absurd rfl hc⟩
  have hdeliver : ∀ (s : Network.State Unit (Session (Db .full) Exception) Client
      (SentRequest .arrays .percent) HttpOutcome), Calm .plain () .contact s (.deliver 0) :=
    fun s x _ j hj => absurd hj (Nat.not_lt_zero j)
  -- what is under way at the end is computed in the system without HTTP
  have hmatches := (taskRefinement Json.arrays_roundTrips .plain .percent .ofSetup .full).run
    (loginRun ++ newContactRun)
  have hrequests := congrArg List.length hmatches.requests
  have hreplies := congrArg List.length hmatches.replies
  rw [List.length_map] at hrequests hreplies
  refine tabs_up_to_date Json.arrays_roundTrips .plain .percent .ofSetup .full loginRun
    newContactRun () (by decide) rfl (Or.inl ?_)
    ⟨trivial, hexecute _ _, hexecute _ _, hexecute _ _, hdeliver _, hdeliver _, hdeliver _, trivial,
      hexecute _ _, hdeliver _, hexecute _ _, hdeliver _, trivial⟩ (fun r hr => ?_)
    (fun x hx => ?_) ?_
  · rintro ⟨view, hview, -⟩
    have htabs : (((system .plain .arrays .percent .ofSetup .full).after loginRun).client ()).tabs =
        [] := by
      rw [client_after Json.arrays_roundTrips]
      decide +kernel
    exact absurd (htabs ▸ hview) List.not_mem_nil
  · refine absurd (List.length_pos_of_mem hr) ?_
    rw [← hrequests]
    decide +kernel
  · refine absurd (List.length_pos_of_mem hx) ?_
    rw [← hreplies]
    decide +kernel
  · have htabs : (((system .plain .arrays .percent .ofSetup .full).after
        (loginRun ++ newContactRun)).client ()).tabs = [.managementView] := by
      rw [client_after Json.arrays_roundTrips]
      decide +kernel
    exact ⟨.managementView, htabs ▸ List.mem_cons_self, rfl, List.mem_cons_self⟩

end SageStore
