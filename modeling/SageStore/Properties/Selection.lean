import SageStore.Client.OrdersModel
import SageStore.Properties.Listings

/-!
# The lines of the selected order

A model of orders keeps the lines of the reply that was delivered last (`model_history`). When
nothing is in flight these are the lines of the order requested last exactly if that reply
answers a request for lines equal to them (`lines_converge_iff`); replies in the order of the
requests do so (`lines_converge_of_inOrder`), others need not.
-/

namespace SageStore

open Bytes Exchange

variable {e : Enforcement}

/-- The lines of an order in a database. -/
def OrderKind.lines : OrderKind → Platform → Bytes → Db e → List OrderRecord
  | .sales, p, orderId, d => (listedRows p orderId d .salesOrderRecord).map fun r =>
      salesOrderRecordRepository.fromCurrentRow r.1 r.2
  | .purchase, p, orderId, d => (listedRows p orderId d .purchaseOrderRecord).map fun r =>
      purchaseOrderRecordRepository.fromCurrentRow r.1 r.2

/-- The lines that arrive with a reply are those of the order that was asked for. -/
theorem OrderKind.orderRecordsList_reply (k : OrderKind) (p : Platform) (now : UtcTime)
    (orderId : Bytes) (d : Db e) :
    (ApiManager.handleResponse k.records .get (k.reply p now orderId d)).bind
      k.orderRecordsList = some (k.lines p orderId d) := by
  have hreply := @get_reply e p now (k.getOrderRecords orderId) k.records ⟨rfl, rfl⟩ rfl d none
  rw [OrderKind.reply, hreply, handleResponse_listing]
  cases k with
  | sales => exact congrArg some (List.map_map)
  | purchase => exact congrArg some (List.map_map)

/-- A reply replaces the lines by those of the order that was asked for. -/
theorem OrderKind.onReply_reply (k : OrderKind) (p : Platform) (now : UtcTime)
    (model : OrdersModel) (orderId : Bytes) (d : Db e) :
    k.onReply model (k.reply p now orderId d) =
      model.onOrderRecordsList (k.lines p orderId d) := by
  rw [OrderKind.onReply, k.orderRecordsList_reply]

/-- The deliveries of a run are replies of a server with the database `d`. -/
def FromServer (d : Db e) : Exchange.Event OrdersModel.Call (Db e) → Prop
  | .act _ => True
  | .deliver _ d' => d' = d

section Runs

variable (k : OrderKind) (p : Platform) (now : UtcTime) (d : Db e)
  {es : List (Exchange.Event OrdersModel.Call (Db e))}

/-- **The lines of a model.** After a run with one database, the last order is the one requested
last, and the lines are those of the order answered last. -/
theorem model_history (hes : ∀ ev ∈ es, FromServer d ev) :
    ((k.machine p now e).run (k.machine p now e).init es).1.lastOrderId =
        (sent ((k.machine p now e).history (k.machine p now e).init es)).getLast?.getD [] ∧
      ((k.machine p now e).run (k.machine p now e).init es).1.orderRecords =
        (answered ((k.machine p now e).history (k.machine p now e).init es)).getLast?.elim []
          fun o => k.lines p o d := by
  refine Machine.history_induction_of_forall (M := k.machine p now e)
    (P := fun h (s : OrdersModel × List Bytes) => s.1.lastOrderId = (sent h).getLast?.getD [] ∧
      s.1.orderRecords = (answered h).getLast?.elim [] fun o => k.lines p o d) ⟨rfl, rfl⟩ ?_ hes
  rintro h s ev hev ⟨hlast, hrecords⟩
  rw [sent_append_singleton, answered_append_singleton]
  obtain ⟨a, rfl, heq⟩ | ⟨i, d', -, -, heq⟩ | ⟨i, d', rfl, hi, heq⟩ :=
    (k.model p now e).step_cases s ev
  · rw [OrderKind.machine, heq]
    cases a with
    | fetchOrderRecords orderId =>
      refine ⟨?_, ?_⟩
      · show orderId = (sent h ++ [orderId]).getLast?.getD []
        rw [List.getLast?_append_of_ne_nil _ (List.cons_ne_nil _ _)]
        rfl
      · show s.1.orderRecords = (answered h ++ []).getLast?.elim [] _
        rw [List.append_nil]
        exact hrecords
    | refreshCurrentRecords =>
      refine ⟨?_, ?_⟩
      · show s.1.lastOrderId =
          (sent h ++ if s.1.lastOrderId = [] then [] else [s.1.lastOrderId]).getLast?.getD []
        by_cases hempty : s.1.lastOrderId = []
        · rw [if_pos hempty, List.append_nil]
          exact hlast
        · rw [if_neg hempty, List.getLast?_append_of_ne_nil _ (List.cons_ne_nil _ _)]
          rfl
      · show s.1.orderRecords = (answered h ++ []).getLast?.elim [] _
        rw [List.append_nil]
        exact hrecords
  · rw [OrderKind.machine, heq]
    show s.1.lastOrderId = (sent h ++ []).getLast?.getD [] ∧
      s.1.orderRecords = (answered h ++ []).getLast?.elim [] _
    rw [List.append_nil, List.append_nil]
    exact ⟨hlast, hrecords⟩
  · have hd : d' = d := hev
    subst hd
    rw [OrderKind.machine, heq]
    show (k.onReply s.1 (k.reply p now s.2[i] d')).lastOrderId =
        (sent h ++ []).getLast?.getD [] ∧
      (k.onReply s.1 (k.reply p now s.2[i] d')).orderRecords =
        (answered h ++ [s.2[i]]).getLast?.elim [] _
    -- the reply replaces the lines, whichever order was requested last
    rw [k.onReply_reply, List.append_nil,
      List.getLast?_append_of_ne_nil _ (List.cons_ne_nil _ _)]
    exact ⟨hlast, rfl⟩

/-- **The lines of the selected order.** When nothing is in flight, a model remembers the order
that was requested last, and has its lines exactly if the reply that was delivered last answers
a request for lines equal to them. -/
theorem lines_converge_iff (hes : ∀ ev ∈ es, FromServer d ev) {model : OrdersModel}
    (hrun : (k.machine p now e).run (k.machine p now e).init es = (model, []))
    {orderId : Bytes}
    (hlast : (sent ((k.machine p now e).history (k.machine p now e).init es)).getLast? =
      some orderId) :
    model.lastOrderId = orderId ∧
      (model.orderRecords = k.lines p orderId d ↔
        ∃ a, (answered ((k.machine p now e).history (k.machine p now e).init es)).getLast? =
          some a ∧ k.lines p a d = k.lines p orderId d) := by
  have hhistory := model_history k p now d hes
  rw [hrun, hlast] at hhistory
  obtain ⟨horder, hrecords⟩ := hhistory
  refine ⟨horder, ?_⟩
  -- every request was answered, so there is a last answer
  have hperm := (k.model p now e).sent_perm es
  have hnone : ((k.model p now e).machine.run (k.model p now e).machine.init es).2 = [] :=
    congrArg Prod.snd hrun
  rw [hnone, List.append_nil] at hperm
  have hne : answered ((k.machine p now e).history (k.machine p now e).init es) ≠ [] := by
    intro hnil
    have hsent : sent ((k.machine p now e).history (k.machine p now e).init es) = [] :=
      List.Perm.eq_nil (hnil ▸ hperm)
    rw [hsent] at hlast
    cases hlast
  obtain ⟨a, ha⟩ := Option.ne_none_iff_exists'.mp (mt List.getLast?_eq_none_iff.mp hne)
  rw [ha] at hrecords ⊢
  have hrecords : model.orderRecords = k.lines p a d := hrecords
  rw [hrecords]
  constructor
  · intro heq
    exact ⟨a, rfl, heq⟩
  · rintro ⟨a', ha', heq⟩
    rwa [Option.some.inj ha']

/-- Replies in the order of their requests leave the lines of the selected order. -/
theorem lines_converge_of_inOrder (hes : ∀ ev ∈ es, FromServer d ev)
    (hinOrder : ∀ ev ∈ es, ev.InOrder) {model : OrdersModel}
    (hrun : (k.machine p now e).run (k.machine p now e).init es = (model, []))
    {orderId : Bytes}
    (hlast : (sent ((k.machine p now e).history (k.machine p now e).init es)).getLast? =
      some orderId) :
    model.orderRecords = k.lines p orderId d := by
  have hhistory := model_history k p now d hes
  have hsent := (k.model p now e).sent_eq_of_inOrder hinOrder
  have hnone : ((k.model p now e).machine.run (k.model p now e).machine.init es).2 = [] :=
    congrArg Prod.snd hrun
  rw [hnone, List.append_nil] at hsent
  -- with nothing in flight the last request that was sent is the last that was answered
  have hanswered : (answered ((k.machine p now e).history (k.machine p now e).init es)).getLast? =
      some orderId := hsent ▸ hlast
  rw [hrun, hanswered] at hhistory
  exact hhistory.2

end Runs

/-! ### Two selections -/

/-- The database after a second sales order, without lines, is added to the initial setup. -/
def secondOrder : Db .full :=
  ((server .plain .full).step (server .plain .full).init
    (.plain "sales" "orders" "POST" "" [("date", "2024-02-20"), ("userId", "1"),
      ("contactId", "1"), ("employeeId", "1"), ("status", "Draft")])).2.store

/-- The first order is selected and then the second, and the replies are delivered in the order
`is`. -/
def twoSelections (is : List ℕ) : List (Exchange.Event OrdersModel.Call (Db .full)) :=
  [.act (.fetchOrderRecords (utf8 "1")), .act (.fetchOrderRecords (utf8 "2"))] ++
    is.map fun i => .deliver i secondOrder

theorem twoSelections_fromServer (is : List ℕ) :
    ∀ ev ∈ twoSelections is, FromServer secondOrder ev := by
  intro ev hev
  rcases List.mem_append.mp hev with hev | hev
  · rcases List.mem_cons.mp hev with rfl | hev
    · trivial
    · rw [List.mem_singleton.mp hev]
      trivial
  · obtain ⟨i, -, rfl⟩ := List.mem_map.mp hev
    exact rfl

/-- The replies arrive in the order of the requests. -/
theorem lines_converge_iff_inOrder :
    ((OrderKind.machine .sales .plain noon .full).run
      (OrderKind.machine .sales .plain noon .full).init (twoSelections [0, 0])).1.orderRecords =
      OrderKind.lines .sales .plain (utf8 "2") secondOrder :=
  (lines_converge_iff .sales .plain noon secondOrder (twoSelections_fromServer [0, 0])
    (Prod.ext rfl (by decide +kernel)) (by decide +kernel)).2.mpr
      ⟨utf8 "2", by decide +kernel, rfl⟩

/-- The reply for the first order arrives after the one for the second. -/
theorem lines_of_unselected_order :
    ¬ ∀ (k : OrderKind) (p : Platform) (now : UtcTime) (d : Db .full)
      (es : List (Exchange.Event OrdersModel.Call (Db .full))), (∀ ev ∈ es, FromServer d ev) →
      ∀ (model : OrdersModel) (orderId : Bytes),
        (k.machine p now .full).run (k.machine p now .full).init es = (model, []) →
        (sent ((k.machine p now .full).history (k.machine p now .full).init es)).getLast? =
          some orderId →
        model.orderRecords = k.lines p orderId d := by
  intro h
  have hlines := h .sales .plain noon secondOrder (twoSelections [1, 0])
    (twoSelections_fromServer [1, 0]) _ (utf8 "2") (Prod.ext rfl (by decide +kernel))
    (by decide +kernel)
  -- the second order has no lines, the first has one
  have hcount := congrArg List.length hlines
  revert hcount
  decide +kernel

end SageStore
