import SageStore.Server.Modules.Receipts

/-!
# `PurchaseModule` serves its requests

Orders and lines are written only under an order that is open. A line is edited under two
open orders: the one it belongs to and the one it is moved to.
-/

namespace SageStore

open Bytes Program

variable {e : Enforcement}

namespace PurchaseModule

variable {p : Platform} {req : RequestData} {d : Db e} {request : Dataset} {resourceId : Bytes}

/-! ### Orders -/

/-- The order that is built has one of the four statuses. -/
theorem buildOrder_spec (p : Platform) :
    Yields Exception.IsUtf8 (buildOrder request resourceId) fun x => x.id = resourceId ∧
      (ManualStatus x.status ∨ x.status = utf8 "Received") ∧
      (request.IsUtf8 → RowIsUtf8 .purchaseOrder (PurchaseOrder.row p x)) := by
  refine getRequiredDatasetValue_spec.bind fun date hdate => ?_
  refine getRequiredPositiveInteger_spec.bind fun userId huser => ?_
  refine getRequiredPositiveInteger_spec.bind fun supplierId hsupplier => ?_
  refine getRequiredDatasetValue_spec.bind fun status _ => ?_
  refine normalizeOrderStatus_spec.bind fun normalized hnormalized => ?_
  refine Yields.pure ⟨rfl, hnormalized, fun hds => ⟨?_, ?_, ?_, ?_⟩⟩
  · exact (p.sqlite.numeric_renders _).isUtf8 (hdate.1 ▸ hds.field _).cstr
  · exact p.isUtf8_cell (huser.1 ▸ hds.field _)
  · exact p.isUtf8_cell (hsupplier.1 ▸ hds.field _)
  -- the status is one of three literals, whatever the request holds
  · refine IsUtf8.cstr ?_
    dsimp only
    rcases hnormalized with (rfl | rfl) | rfl <;> exact .utf8 _

/-- An order that passes is not received. -/
theorem ensureOrderCanBeStored_spec (order : PurchaseOrder) :
    Reads Exception.IsUtf8 d (ensureOrderCanBeStored p order)
      fun _ => order.status ≠ utf8 "Received" := by
  refine (reads_lift (ensureOrderStatusCanBeSetManually_spec order)).bindReads fun _ h => ?_
  refine (ensureEntityExists_spec userRepository .id _ _ _).bindReads fun _ _ => ?_
  exact (ensureEntityExists_spec supplierRepository .id _ _ _).mono fun _ _ => h

/-- An order that passes the checks is stored with a status given by hand. -/
theorem manualStatus_row {x : PurchaseOrder} (p : Platform)
    (h : ManualStatus x.status ∨ x.status = utf8 "Received")
    (hne : x.status ≠ utf8 "Received") : ManualStatus (PurchaseOrder.row p x).status := by
  have : (PurchaseOrder.row p x).status = x.status := cstr_status h
  rw [this]
  exact h.resolve_right hne

theorem getOrders_spec (haddr : req.Addresses .purchaseOrder)
    (hmethod : req.method = utf8 "GET") : Serves p req d getOrders :=
  listing_spec purchaseOrderRepository _ haddr hmethod (by decide) (getAll_mem _) (by decide)
    fun i y hy => by
      obtain ⟨h1, h2, h3, h4⟩ := hy
      simp [purchaseOrderRepository, h1, h2, h3, h4]

/-- An order is never added as received. -/
theorem addOrder_spec (haddr : req.Addresses .purchaseOrder)
    (hmethod : req.method = utf8 "POST") :
    Atomic Exception.IsUtf8 d (addOrder p req.dataset) fun _ d' => Accepts p req d d' := by
  refine (reads_lift (buildOrder_spec p)).bindAtomic fun x hx => ?_
  refine (ensureOrderCanBeStored_spec x).bindAtomic fun _ hne => ?_
  exact add_accepts _ x haddr hmethod (manualStatus_row p hx.2.1 hne) hx.2.2

/-- An order is edited only while it is not received, and not into a received one. -/
theorem editOrder_spec (haddr : req.Addresses .purchaseOrder)
    (hmethod : req.method = utf8 "PUT") :
    Atomic Exception.IsUtf8 d (editOrder p req.dataset req.resourceId)
      fun _ d' => Accepts p req d d' := by
  refine (reads_lift ensureResourceId_spec).bindAtomic fun _ hid => ?_
  refine (getOrderById_spec req.resourceId).bindAtomic fun order horder => ?_
  obtain ⟨o, ho, hkey, rfl⟩ := horder
  refine (reads_lift (ensureOrderIsNotReceived_spec _ _)).bindAtomic fun _ hopen => ?_
  refine (reads_lift (buildOrder_spec p)).bindAtomic fun x hx => ?_
  refine (ensureOrderCanBeStored_spec x).bindAtomic fun _ hne => ?_
  exact update_accepts _ x haddr hmethod hx.1 hid
    ⟨⟨o, ho, hkey, hopen⟩, manualStatus_row p hx.2.1 hne⟩ fun _ => hx.2.2

/-- An order is deleted after its lines, one statement at a time: a fault leaves what was done. -/
theorem deleteOrder_spec (haddr : req.Addresses .purchaseOrder)
    (hmethod : req.method = utf8 "DELETE") :
    Outcome Exception.IsUtf8 d (deleteOrder p req.resourceId)
      (fun _ d' => Accepts p req d d') (Aborted p req d) := by
  refine (reads_lift ensureResourceId_spec).bind fun _ _ => ?_
  refine (getOrderById_spec req.resourceId).bind fun order horder => ?_
  obtain ⟨o, ho, hkey, rfl⟩ := horder
  refine (reads_lift (ensureOrderIsNotReceived_spec _ _)).bind fun _ hopen => ?_
  have hopen : IsOpen d (p.cell req.resourceId) := ⟨o, ho, hkey, hopen⟩
  refine Outcome.mono (eraseOrder_spec purchaseOrderRecordRepository OrderRecordRow.orderId
    purchaseOrderRepository (fun _ _ => rfl) (by simp [references]) (by simp [references]))
    ?_ ?_
  -- cut short, the order stays open and has lost only lines of its own
  · rintro _ d' ⟨d₁, herase, hd'⟩
    exact ⟨.empty (by rw [hmethod]; decide),
      .deletePurchaseOrder haddr hmethod hopen herase hd'⟩
  · rintro d' ⟨gone, hgone, herase⟩
    exact .deletePurchaseOrder gone haddr hmethod hopen hgone herase

/-! ### Lines -/

theorem getOrderRecords_spec (haddr : req.Addresses .purchaseOrderRecord)
    (hmethod : req.method = utf8 "GET") : Serves p req d (getOrderRecords p req.resourceId) := by
  refine listing_spec purchaseOrderRecordRepository orderRecordColumns haddr hmethod (by decide) ?_
    (by decide) fun i y hy => ?_
  · exact Reads.ite (fun _ => getAll_mem _) fun _ => (getByField_mem _ _ _).mono
      fun xs hxs y hy => (hxs y hy).imp fun i hi => ⟨hi.1, hi.2.2⟩
  · obtain ⟨h1, h2, h3, h4⟩ := hy
    simp [orderRecordColumns, purchaseOrderRecordRepository, OrderRecord.fromCurrentRow, h1, h2,
      h3, h4]

/-- A line is added to an order that is not received. -/
theorem addOrderRecord_spec (haddr : req.Addresses .purchaseOrderRecord)
    (hmethod : req.method = utf8 "POST") :
    Atomic Exception.IsUtf8 d (addOrderRecord p req.dataset)
      fun _ d' => Accepts p req d d' := by
  refine (reads_lift (buildOrderRecordOf_spec p)).bindAtomic fun x hx => ?_
  refine (getOrderById_spec x.orderId).bindAtomic fun order horder => ?_
  obtain ⟨o, ho, hkey, rfl⟩ := horder
  refine (reads_lift (ensureOrderIsNotReceived_spec _ _)).bindAtomic fun _ hopen => ?_
  refine (ensureEntityExists_spec productTypeRepository .id _ _ _).bindAtomic fun _ _ => ?_
  exact add_accepts _ x haddr hmethod
    ⟨⟨o, ho, hkey, hopen⟩, hx.2.1, hx.2.2.1, hx.2.2.2.1⟩ hx.2.2.2.2

/-- The line looked up is the one row with the key looked up. -/
theorem getOrderRecordById_spec (resourceId : Bytes) :
    Reads Exception.IsUtf8 d (getOrderRecordById p resourceId) fun entry =>
      resourceId ≠ [] ∧ ∃ r ∈ (d .purchaseOrderRecord).rows,
        Cell.int r.1 = p.cell resourceId ∧ entry = OrderRecord.fromCurrentRow r.1 r.2 := by
  refine (ensureExisting_spec purchaseOrderRecordRepository _ _ _ _).bindReads fun _ hex => ?_
  refine (getByField_spec purchaseOrderRecordRepository _ _).bindReads fun entries hentries => ?_
  cases entries with
  | nil => exact Reads.throw ⟨.utf8 _, .utf8 _⟩
  | cons entry rest =>
    obtain ⟨r, hr, rfl⟩ := List.mem_map.mp (hentries ▸ List.mem_cons_self)
    exact Reads.pure ⟨hex.1, r, (mem_matching.mp hr).1, (mem_matching.mp hr).2, rfl⟩

/-- The order a stored line is read back with is the order it is stored with. -/
theorem cell_orderId (hwf : WellFormed d) {r : ℕ × OrderRecordRow}
    (hr : r ∈ (d .purchaseOrderRecord).rows) :
    p.cell (OrderRecord.fromCurrentRow r.1 r.2).orderId = r.2.orderId := by
  obtain ⟨n, hn, hlt⟩ := (hwf.lines r hr).1
  simp [OrderRecord.fromCurrentRow, hn, p.cell_decimal hlt]

/-- A line is edited if neither its order nor the order that it is moved to is received. -/
theorem editOrderRecord_spec (hwf : WellFormed d) (haddr : req.Addresses .purchaseOrderRecord)
    (hmethod : req.method = utf8 "PUT") :
    Atomic Exception.IsUtf8 d (editOrderRecord p req.dataset req.resourceId)
      fun _ d' => Accepts p req d d' := by
  refine (getOrderRecordById_spec req.resourceId).bindAtomic fun entry hentry => ?_
  obtain ⟨hid, r, hr, hrkey, rfl⟩ := hentry
  refine (reads_lift (buildOrderRecordOf_spec p)).bindAtomic fun x hx => ?_
  -- the order the line belongs to
  refine (getOrderById_spec _).bindAtomic fun order horder => ?_
  obtain ⟨o, ho, hokey, rfl⟩ := horder
  refine (reads_lift (ensureOrderIsNotReceived_spec _ _)).bindAtomic fun _ hopen => ?_
  -- the order it is moved to
  refine (getOrderById_spec _).bindAtomic fun target htarget => ?_
  obtain ⟨o', ho', hokey', rfl⟩ := htarget
  refine (reads_lift (ensureOrderIsNotReceived_spec _ _)).bindAtomic fun _ hopen' => ?_
  refine (ensureEntityExists_spec productTypeRepository .id _ _ _).bindAtomic fun _ _ => ?_
  exact update_accepts _ x haddr hmethod hx.1 hid
    ⟨⟨r, hr, hrkey, o, ho, hokey.trans (cell_orderId hwf hr), hopen⟩,
      ⟨o', ho', hokey', hopen'⟩, hx.2.1, hx.2.2.1, hx.2.2.2.1⟩ fun _ => hx.2.2.2.2

/-- A line is deleted if its order is not received. -/
theorem deleteOrderRecord_spec (hwf : WellFormed d)
    (haddr : req.Addresses .purchaseOrderRecord) (hmethod : req.method = utf8 "DELETE") :
    Atomic Exception.IsUtf8 d (deleteOrderRecord p req.resourceId)
      fun _ d' => Accepts p req d d' := by
  refine (getOrderRecordById_spec req.resourceId).bindAtomic fun entry hentry => ?_
  obtain ⟨hid, r, hr, hrkey, rfl⟩ := hentry
  refine (getOrderById_spec _).bindAtomic fun order horder => ?_
  obtain ⟨o, ho, hokey, rfl⟩ := horder
  refine (reads_lift (ensureOrderIsNotReceived_spec _ _)).bindAtomic fun _ hopen => ?_
  exact delete_accepts _ haddr hmethod hid
    ⟨r, hr, hrkey, o, ho, hokey.trans (cell_orderId hwf hr), hopen⟩

/-! ### Dispatch -/

/-- **The module serves its requests**: an accepted one has its effect, and a rejected one none. -/
theorem executeTask_spec (hwf : WellFormed d) (hmodule : req.module = utf8 "purchase") :
    Serves p req d (executeTask p req) := by
  refine Outcome.ite (fun hsub => ?_) fun _ => Outcome.ite (fun hsub => ?_) fun _ =>
    Outcome.ite (fun hsub => Outcome.ite (fun hmethod => ?_) fun _ =>
      Outcome.throw ⟨.utf8 _, .utf8 _⟩) fun _ => Outcome.throw ⟨.utf8 _, .utf8 _⟩
  · have haddr : req.Addresses .purchaseOrder := ⟨hmodule, hsub⟩
    exact dispatchMethod_spec (getOrders_spec haddr)
      (fun h => (addOrder_spec haddr h).outcome) (fun h => (editOrder_spec haddr h).outcome)
      fun h => deleteOrder_spec haddr h
  · have haddr : req.Addresses .purchaseOrderRecord := ⟨hmodule, hsub⟩
    exact dispatchMethod_spec (getOrderRecords_spec haddr)
      (fun h => (addOrderRecord_spec haddr h).outcome)
      (fun h => (editOrderRecord_spec hwf haddr h).outcome)
      fun h => (deleteOrderRecord_spec hwf haddr h).outcome
  · exact Outcome.bindPure (receiveOrder_spec hwf ⟨hmodule, hsub, hmethod⟩).outcome

end PurchaseModule

end SageStore
