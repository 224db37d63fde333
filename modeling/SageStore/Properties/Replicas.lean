import SageStore.Properties.TaskSystem

/-!
# The lists that clients show

In every run of the server with any number of clients, whatever is executed, lost or delivered in
which order, and whichever calls to the database fail, the lists of one resource that the models
of a client show are the listing of it at one state that the server went through, the same in
every model, except for those that were created since and show nothing yet. The sales figures of
the analytics are those that the server had at one state, and so are the inventory figures; the two
are requested apart, and their states can differ (`models_coherent`).

A list is never put together from several states, and no list is cut short by a failing call. The
models hold what the last list signal brought, so the invariant is checked against one signal.
-/

namespace SageStore

open Bytes Program BusinessLogic

variable {e : Enforcement} {p : Platform} {J : Json} {url : QUrl} {sha256 : Sha256}

namespace Client

/-- What the models of a client show, if the server went through the states of `V`. -/
structure Coherent (p : Platform) (V : Session (Db e) Exception → Prop) (client : Client) :
    Prop where
  /-- Of each resource there is one listing, from one state, and every model that keeps the
  resource shows it, or nothing yet. -/
  lists : ∀ t, ∃ entities : List (Entity t),
    (entities = [] ∨ ∃ s resourceId, V s ∧ entities = shown p resourceId s.store t) ∧
      ∀ m model, client.models m = some model → t ∈ m.keeps →
        model.lists t = entities ∨ model.lists t = []
  /-- The sales figures are those of one state, if there are any. -/
  salesMetrics : ∀ m model, client.models m = some model →
    model.salesMetrics = Model.empty.salesMetrics ∨
      ∃ s, V s ∧ model.salesMetrics = figures (AnalyticsModule.getSalesAnalytics p) s
  /-- The inventory figures are those of one state, which need not be that of the sales figures. -/
  inventoryMetrics : ∀ m model, client.models m = some model →
    model.inventoryMetrics = Model.empty.inventoryMetrics ∨
      ∃ s, V s ∧ model.inventoryMetrics = figures (AnalyticsModule.getInventoryAnalytics p) s

variable {V V' : Session (Db e) Exception → Prop} {client client' : Client}

/-- What is shown of a visited state stays so. -/
theorem Coherent.mono (h : client.Coherent p V) (hV : ∀ s, V s → V' s) :
    client.Coherent p V' where
  lists t := by
    obtain ⟨entities, hfrom, hmodels⟩ := h.lists t
    refine ⟨entities, hfrom.imp_right ?_, hmodels⟩
    rintro ⟨s, resourceId, hs, heq⟩
    exact ⟨s, resourceId, hV s hs, heq⟩
  salesMetrics m model hmodel :=
    (h.salesMetrics m model hmodel).imp_right fun ⟨s, hs, heq⟩ => ⟨s, hV s hs, heq⟩
  inventoryMetrics m model hmodel :=
    (h.inventoryMetrics m model hmodel).imp_right fun ⟨s, hs, heq⟩ => ⟨s, hV s hs, heq⟩

theorem coherent_start (p : Platform) (V : Session (Db e) Exception → Prop) :
    start.Coherent p V where
  lists t := ⟨[], Or.inl rfl, fun m model h => by cases h⟩
  salesMetrics m model h := by cases h
  inventoryMetrics m model h := by cases h

/-- Models that were just created show nothing, and the order whose lines a model is to keep is
not shown. -/
theorem Coherent.of_models (h : client.Coherent p V)
    (hmodels : ∀ m model', client'.models m = some model' → model' = Model.empty ∨
      ∃ model orderId, client.models m = some model ∧
        model' = { model with lastOrderId := orderId }) :
    client'.Coherent p V where
  lists t := by
    obtain ⟨entities, hfrom, hshow⟩ := h.lists t
    refine ⟨entities, hfrom, fun m model' hmodel' hkeeps => ?_⟩
    rcases hmodels m model' hmodel' with rfl | ⟨model, orderId, hmodel, rfl⟩
    · exact Or.inr rfl
    · exact hshow m model hmodel hkeeps
  salesMetrics m model' hmodel' := by
    rcases hmodels m model' hmodel' with rfl | ⟨model, orderId, hmodel, rfl⟩
    · exact Or.inl rfl
    · exact h.salesMetrics m model hmodel
  inventoryMetrics m model' hmodel' := by
    rcases hmodels m model' hmodel' with rfl | ⟨model, orderId, hmodel, rfl⟩
    · exact Or.inl rfl
    · exact h.inventoryMetrics m model hmodel

/-- Actions change no list that is kept. -/
theorem Coherent.act (h : client.Coherent p V) (a : Action) :
    (client.act sha256 a).1.Coherent p V := by
  refine h.of_models fun m model' hmodel' => ?_
  rcases models_act sha256 client m a with
    heq | ⟨-, heq, -⟩ | ⟨_, orderId, model, -, -, hmodel, heq⟩
  · exact Or.inr ⟨model', model'.lastOrderId, heq ▸ hmodel', rfl⟩
  · exact Or.inl (Option.some.inj (heq.symm.trans hmodel')).symm
  · exact Or.inr ⟨model, orderId, hmodel, (Option.some.inj (heq.symm.trans hmodel')).symm⟩

/-- What a signal may bring: a listing or figures from a state of `V`. -/
structure Brings (p : Platform) (V : Session (Db e) Exception → Prop) (signal : ApiSignal) :
    Prop where
  list : ∀ s t entities, signal = .resource s → s.list? = some ⟨t, entities⟩ →
    ∃ s resourceId, V s ∧ entities = shown p resourceId s.store t
  salesMetrics : ∀ metrics, signal = .salesAnalyticsReady metrics →
    ∃ s, V s ∧ metrics = figures (AnalyticsModule.getSalesAnalytics p) s
  inventoryMetrics : ∀ metrics, signal = .inventoryAnalyticsReady metrics →
    ∃ s, V s ∧ metrics = figures (AnalyticsModule.getInventoryAnalytics p) s

/-- A list signal replaces the list of its resource in every model that keeps it. -/
theorem Coherent.lists_onSignal (h : client.Coherent p V) {signal : ApiSignal}
    (hsignal : Brings p V signal) (t : TableName) : ∃ entities : List (Entity t),
      (entities = [] ∨ ∃ s resourceId, V s ∧ entities = shown p resourceId s.store t) ∧
        ∀ m model', (client.onSignal signal).1.models m = some model' → t ∈ m.keeps →
          model'.lists t = entities ∨ model'.lists t = [] := by
  by_cases hlist : ∃ s entities, signal = .resource s ∧ s.list? = some ⟨t, entities⟩
  · obtain ⟨s, entities, rfl, hs⟩ := hlist
    refine ⟨entities, Or.inr (hsignal.list s t entities rfl hs), fun m model' hmodel' hkeeps => ?_⟩
    have honList : (client.onSignal (.resource s)).1 = client.onList t entities := by
      unfold Client.onSignal
      simp only [hs]
    rw [honList] at hmodel'
    obtain ⟨model, -, rfl⟩ := Option.map_eq_some_iff.mp hmodel'
    exact Or.inl (Model.lists_onList_self hkeeps entities model)
  -- the lists of the resource stay
  obtain ⟨entities, hfrom, hshow⟩ := h.lists t
  refine ⟨entities, hfrom, fun m model' hmodel' hkeeps => ?_⟩
  obtain ⟨f, hheard, hf⟩ := models_onSignal client m signal
  rw [hf] at hmodel'
  obtain ⟨model, hmodel, rfl⟩ := Option.map_eq_some_iff.mp hmodel'
  have hlists : (f model).lists t = model.lists t := by
    cases hheard with
    | list s t' entities' hs =>
      refine Model.lists_onList_of_ne (fun ht => hlist ?_) m entities' model
      subst ht
      exact ⟨s, entities', rfl, hs⟩
    | _ => rfl
  rw [hlists]
  exact hshow m model hmodel hkeeps

/-- A signal brings what the server held. -/
theorem Coherent.onSignal (h : client.Coherent p V) {signal : ApiSignal}
    (hsignal : Brings p V signal) : (client.onSignal signal).1.Coherent p V where
  lists := h.lists_onSignal hsignal
  salesMetrics m model' hmodel' := by
    obtain ⟨f, hheard, hf⟩ := models_onSignal client m signal
    rw [hf] at hmodel'
    obtain ⟨model, hmodel, rfl⟩ := Option.map_eq_some_iff.mp hmodel'
    cases hheard with
    | salesMetrics metrics => exact Or.inr (hsignal.salesMetrics metrics rfl)
    | list s t entities hs =>
      rw [Model.onList_eq]
      exact h.salesMetrics m model hmodel
    | _ => exact h.salesMetrics m model hmodel
  inventoryMetrics m model' hmodel' := by
    obtain ⟨f, hheard, hf⟩ := models_onSignal client m signal
    rw [hf] at hmodel'
    obtain ⟨model, hmodel, rfl⟩ := Option.map_eq_some_iff.mp hmodel'
    cases hheard with
    | inventoryMetrics metrics => exact Or.inr (hsignal.inventoryMetrics metrics rfl)
    | list s t entities hs =>
      rw [Model.onList_eq]
      exact h.inventoryMetrics m model hmodel
    | _ => exact h.inventoryMetrics m model hmodel

end Client

/-- Coherence is an invariant of the client, whatever the others do. -/
theorem coherent_rule (hJ : J.RoundTrips) :
    (system p J url sha256 e).ClientRule (fun V _ client => client.Coherent p V)
      fun _ _ _ => True := by
  refine Network.ClientRule.of_invariant (system p J url sha256 e) (fun hV h => h.mono hV)
    (Client.coherent_start p) (fun a h => h.act a) fun {V client r b} hV h hb => ?_
  show ((Client.exchange J url sha256).receive client r b).1.Coherent p V
  unfold Client.exchange
  dsimp only
  split
  · exact h
  · next signal hsignal =>
    have hwf := wellFormed_of_reachable hV
    obtain ⟨hsales, hinventory⟩ := onOutcome_metrics hJ hwf hb hsignal
    refine h.onSignal ⟨?_, hsales, hinventory⟩
    rintro s t entities rfl hlist
    obtain ⟨s', hs', hentities⟩ := onOutcome_list hJ hwf hb hsignal hlist
    exact ⟨s', _, hs', hentities⟩

/-- **What a client shows.** In every run, with any number of clients and in any order of
execution and delivery, each resource has one listing, taken at one state that the server went
through, that every model of a client shows which keeps the resource; a model that shows another
list shows none. The sales figures of the analytics are those of one such state, and the inventory
figures are those of one, which may be another. -/
theorem models_coherent {κ : Type} [DecidableEq κ] (hJ : J.RoundTrips) (p : Platform) (url : QUrl)
    (sha256 : Sha256) (e : Enforcement)
    (is : List (Network.Input κ HttpEvent Action Circumstances)) (c : κ) :
    (((system p J url sha256 e).after is).client c).Coherent p
      ((system p J url sha256 e).Visited is) :=
  ((coherent_rule hJ).holds is).client c

/-- The administrator has opened the view of contacts, and been sent their list. -/
def contactsRun : List (Network.Input Unit HttpEvent Action Circumstances) :=
  loginRun ++ [.act () (.openView .managementView), .execute 0 ⟨noon, []⟩, .deliver 0]

theorem models_coherent_contacts :
    (((system .plain .arrays .percent .ofSetup .full).after contactsRun).client ()).Coherent .plain
      ((system .plain .arrays .percent .ofSetup .full).Visited contactsRun) :=
  models_coherent Json.arrays_roundTrips .plain .percent .ofSetup .full contactsRun ()

end SageStore
