import SageStore.Server.Steps

/-!
# What an accepted write of a line writes

`Effect` says that a request that adds or edits a line writes some line under a guard. Here
is which one: the line that `buildOrderRecord` builds from the fields of the request
(`lineWritten`). So what the checks of the fields establish holds of the stored line, and an
accepted request has passed them all.
-/

namespace SageStore

open Bytes Program BusinessLogic

variable {e : Enforcement} {p : Platform} {now : UtcTime} {req : RequestData} {d : Db e}

/-- The tables of lines. -/
def lineTables : List TableName := [.salesOrderRecord, .purchaseOrderRecord]

/-- The request adds a line, or edits one. -/
def RequestData.WritesLine (req : RequestData) : Prop :=
  (∃ t ∈ lineTables, req.Addresses t) ∧ (req.method = utf8 "POST" ∨ req.method = utf8 "PUT")

instance (req : RequestData) : Decidable req.WritesLine :=
  inferInstanceAs (Decidable ((∃ t ∈ lineTables, req.Addresses t) ∧ _))

/-- The line that the fields of the request describe is written. -/
def LineWritten (p : Platform) (request : Dataset) (T T' : Table OrderRecordRow) : Prop :=
  ∃ (component : String) (resourceId : Bytes) (x : OrderRecord),
    buildOrderRecordOf component p request resourceId = .ok x ∧
      T.Puts (OrderRecord.row p x) T'

section Written

variable {component : String} {request : Dataset} {resourceId : Bytes} {x : OrderRecord}
  {T T' : Table OrderRecordRow}

theorem LineWritten.insert (hx : buildOrderRecordOf component p request resourceId = .ok x)
    (h : T' = T.insert (OrderRecord.row p x)) : LineWritten p request T T' :=
  ⟨component, resourceId, x, hx, h ▸ Table.puts_insert T _⟩

theorem LineWritten.update {key : Cell}
    (hx : buildOrderRecordOf component p request resourceId = .ok x) (hhas : T.Has key)
    (h : T' = T.update key (OrderRecord.row p x)) : LineWritten p request T T' :=
  ⟨component, resourceId, x, hx, h ▸ Table.puts_update hhas _⟩

end Written

/-! ### The fields of a line -/

/-- A number field holds a text that `std::stod` reads. -/
theorem getRequiredNumber_reads {request : Dataset} {key component : String} :
    Yields Exception.IsUtf8 (getRequiredNumber p request key component) fun v =>
      v = getOptionalDatasetValue request key ∧ ∃ x, p.doubles.stod v = some x := by
  refine getRequiredDatasetValue_spec.bind fun v hv => ?_
  split
  · next x hx => exact Yields.pure ⟨hv.1, x, hx⟩
  · exact Yields.throw ⟨.utf8 _, .append (.utf8 _) (.utf8 _)⟩

/-- The quantity and the price of a line that was built are fields of the request. -/
theorem buildOrderRecordOf_fields {component : String} {request : Dataset} {resourceId : Bytes}
    {x : OrderRecord} (h : buildOrderRecordOf component p request resourceId = .ok x) :
    (x.quantity = getOptionalDatasetValue request "quantity" ∧ isDigits x.quantity = true ∧
        digitsValue x.quantity < 2 ^ 63 ∧ x.quantity ≠ utf8 "0") ∧
      x.price = getOptionalDatasetValue request "price" ∧
        ∃ v, p.doubles.stod x.price = some v := by
  have hbuild : Yields Exception.IsUtf8 (buildOrderRecordOf component p request resourceId)
      fun x => (x.quantity = getOptionalDatasetValue request "quantity" ∧
          isDigits x.quantity = true ∧ digitsValue x.quantity < 2 ^ 63 ∧
          x.quantity ≠ utf8 "0") ∧
        x.price = getOptionalDatasetValue request "price" ∧
          ∃ v, p.doubles.stod x.price = some v := by
    refine getRequiredPositiveInteger_spec.bind fun orderId _ => ?_
    refine getRequiredPositiveInteger_spec.bind fun productTypeId _ => ?_
    refine getRequiredPositiveInteger_spec.bind fun quantity hquantity => ?_
    refine getRequiredNumber_reads.bind fun price hprice => ?_
    exact Yields.pure ⟨hquantity, hprice⟩
  exact hbuild.ok h

/-! ### The handlers -/

/-- A line that is added is the one that the request builds. -/
theorem SalesModule.addOrderRecord_writes (request : Dataset) :
    Atomic Exception.IsUtf8 d (SalesModule.addOrderRecord p request) fun _ d' => ∃ x,
      SalesModule.buildOrderRecord p request [] = .ok x ∧
        d' .salesOrderRecord = (d .salesOrderRecord).insert (OrderRecord.row p x) := by
  have hbuild := @buildOrderRecordOf_spec p "SalesModule" request []
  refine (reads_lift (Yields.eq_ok hbuild)).bindAtomic fun x hx => ?_
  refine (ensureRecordReferences_spec x).bindAtomic fun _ _ => ?_
  exact (add_spec salesOrderRecordRepository x).mono fun _ d' hok =>
    ⟨x, hx, Database.put_self hok⟩

/-- A line that is edited becomes the one that the request builds. -/
theorem SalesModule.editOrderRecord_writes (request : Dataset) (resourceId : Bytes) :
    Atomic Exception.IsUtf8 d (SalesModule.editOrderRecord p request resourceId) fun _ d' => ∃ x,
      SalesModule.buildOrderRecord p request resourceId = .ok x ∧
        (d .salesOrderRecord).Has (p.cell resourceId) ∧ d' .salesOrderRecord =
          (d .salesOrderRecord).update (p.cell resourceId) (OrderRecord.row p x) := by
  have hbuild := @buildOrderRecordOf_spec p "SalesModule" request resourceId
  refine (ensureExisting_spec _ _ _ _ _).bindAtomic fun _ hex => ?_
  refine (reads_lift (Yields.eq_ok hbuild)).bindAtomic fun x hx => ?_
  refine (ensureRecordReferences_spec x).bindAtomic fun _ _ => ?_
  refine (update_spec salesOrderRecordRepository x).mono fun _ d' hok => ⟨x, hx, hex.2, ?_⟩
  -- the line that is replaced is the one that was looked up
  have hid : salesOrderRecordRepository.id x = resourceId := (hbuild.ok hx).1
  rw [Database.put_self hok, hid]
  rfl

theorem PurchaseModule.addOrderRecord_writes (request : Dataset) :
    Atomic Exception.IsUtf8 d (PurchaseModule.addOrderRecord p request) fun _ d' => ∃ x,
      PurchaseModule.buildOrderRecord p request [] = .ok x ∧
        d' .purchaseOrderRecord = (d .purchaseOrderRecord).insert (OrderRecord.row p x) := by
  have hbuild := @buildOrderRecordOf_spec p "PurchaseModule" request []
  refine (reads_lift (Yields.eq_ok hbuild)).bindAtomic fun x hx => ?_
  refine (getOrderById_spec x.orderId).bindAtomic fun order _ => ?_
  refine (reads_lift (ensureOrderIsNotReceived_spec _ _)).bindAtomic fun _ _ => ?_
  refine (ensureEntityExists_spec productTypeRepository .id _ _ _).bindAtomic fun _ _ => ?_
  exact (add_spec purchaseOrderRecordRepository x).mono fun _ d' hok =>
    ⟨x, hx, Database.put_self hok⟩

theorem PurchaseModule.editOrderRecord_writes (request : Dataset) (resourceId : Bytes) :
    Atomic Exception.IsUtf8 d (PurchaseModule.editOrderRecord p request resourceId) fun _ d' =>
      ∃ x, PurchaseModule.buildOrderRecord p request resourceId = .ok x ∧
        (d .purchaseOrderRecord).Has (p.cell resourceId) ∧ d' .purchaseOrderRecord =
          (d .purchaseOrderRecord).update (p.cell resourceId) (OrderRecord.row p x) := by
  have hbuild := @buildOrderRecordOf_spec p "PurchaseModule" request resourceId
  refine (getOrderRecordById_spec resourceId).bindAtomic fun entry hentry => ?_
  obtain ⟨-, r, hr, hkey, -⟩ := hentry
  refine (reads_lift (Yields.eq_ok hbuild)).bindAtomic fun x hx => ?_
  refine (getOrderById_spec _).bindAtomic fun order _ => ?_
  refine (reads_lift (ensureOrderIsNotReceived_spec _ _)).bindAtomic fun _ _ => ?_
  refine (getOrderById_spec _).bindAtomic fun target _ => ?_
  refine (reads_lift (ensureOrderIsNotReceived_spec _ _)).bindAtomic fun _ _ => ?_
  refine (ensureEntityExists_spec productTypeRepository .id _ _ _).bindAtomic fun _ _ => ?_
  refine (update_spec purchaseOrderRecordRepository x).mono fun _ d' hok =>
    ⟨x, hx, ⟨r, hr, hkey⟩, ?_⟩
  have hid : purchaseOrderRecordRepository.id x = resourceId := (hbuild.ok hx).1
  rw [Database.put_self hok, hid]
  rfl

/-! ### The server -/

/-- What an accepted request has done is what its module did, and then its audit entry. -/
theorem executeTask_audits {E : Exception → Prop} {W : ResponseData → Db e → Prop}
    {A : Db e → Prop} {s : Session (Db e) Exception}
    (h : Outcome E s.store (moduleTask p req) W A)
    (hreply : utf8 "error" ∉ (executeTask p now req s).1.dataset) :
    ∃ d₁ faults, W (executeTask p now req s).1 d₁ ∧
      Audits p now req faults d₁ (executeTask p now req s).2.store := by
  have h := h s rfl
  unfold executeTask at hreply ⊢
  dsimp only at hreply ⊢
  rw [exec_bind] at hreply ⊢
  match hrun : (moduleTask p req : Task e ResponseData).exec s with
  | (.ok reply, s₁) =>
    rw [hrun] at h
    obtain ⟨s', hwrite, -, haudit⟩ := writeAudit_spec p now req s₁
    simp only [exec_bind, hwrite]
    exact ⟨s₁.store, s₁.faults, h.2, haudit⟩
  | (.error ex, s') =>
    rw [hrun] at hreply
    exact absurd (error_mem_errorReply ex) hreply

/-- What an accepted request has done is what its module did, except in the log. -/
theorem executeTask_accepted {E : Exception → Prop} {W : ResponseData → Db e → Prop}
    {A : Db e → Prop} {s : Session (Db e) Exception}
    (h : Outcome E s.store (moduleTask p req) W A)
    (hreply : utf8 "error" ∉ (executeTask p now req s).1.dataset) :
    ∃ d₁, W (executeTask p now req s).1 d₁ ∧
      ∀ t, t ≠ .log → (executeTask p now req s).2.store t = d₁ t := by
  -- the audit entry comes after, and goes to the log
  obtain ⟨d₁, faults, hW, haudit⟩ := executeTask_audits h hreply
  exact ⟨d₁, hW, fun t ht => haudit.eq_of_ne ht⟩

/-- A method that adds or edits neither lists nor deletes. -/
theorem write_ne {method : Bytes} (h : method = utf8 "POST" ∨ method = utf8 "PUT") :
    method ≠ utf8 "GET" ∧ method ≠ utf8 "DELETE" := by
  rcases h with rfl | rfl <;> decide

/-- A dispatch of a method that adds or edits. -/
theorem dispatchMethod_write {component : String} {method : Bytes} {get : Task e ResponseData}
    {post put delete : Task e Unit} {W : Db e → Prop}
    (hmethod : method = utf8 "POST" ∨ method = utf8 "PUT")
    (hpost : method = utf8 "POST" → Atomic Exception.IsUtf8 d post fun _ => W)
    (hput : method = utf8 "PUT" → Atomic Exception.IsUtf8 d put fun _ => W) :
    Outcome Exception.IsUtf8 d (dispatchMethod component method get post put delete)
      (fun _ => W) fun _ => False := by
  -- two of the four branches are those of other methods
  exact dispatchMethod_spec (fun h => absurd h (write_ne hmethod).1) hpost hput
    fun h => absurd h (write_ne hmethod).2

/-- **An accepted write of a line** writes the line that the fields of the request describe;
the other table of lines is left alone. -/
theorem lineWritten {s : Session (Db e) Exception} (h : req.WritesLine)
    (hreply : utf8 "error" ∉ (executeTask p now req s).1.dataset) :
    (req.Addresses .salesOrderRecord ∧ LineWritten p req.dataset (s.store .salesOrderRecord)
        ((executeTask p now req s).2.store .salesOrderRecord)) ∨
      req.Addresses .purchaseOrderRecord ∧
        LineWritten p req.dataset (s.store .purchaseOrderRecord)
          ((executeTask p now req s).2.store .purchaseOrderRecord) := by
  obtain ⟨⟨t, ht, haddr⟩, hmethod⟩ := h
  simp only [lineTables, List.mem_cons, List.not_mem_nil, or_false] at ht
  rcases ht with rfl | rfl
  -- what the module writes is still there after the audit
  · have hwrite : Outcome Exception.IsUtf8 s.store (moduleTask p req)
        (fun _ d' => LineWritten p req.dataset (s.store .salesOrderRecord)
          (d' .salesOrderRecord)) fun _ => False := by
      have hsub : req.submodule = utf8 "order-records" := haddr.2
      rw [moduleTask_sales p haddr.1, SalesModule.executeTask,
        if_neg (by rw [hsub]; decide), if_pos hsub]
      refine dispatchMethod_write hmethod (fun _ => ?_) fun _ => ?_
      · refine (SalesModule.addOrderRecord_writes _).mono ?_
        rintro _ d' ⟨x, hx, hput⟩
        exact .insert hx hput
      · refine (SalesModule.editOrderRecord_writes _ _).mono ?_
        rintro _ d' ⟨x, hx, hhas, hput⟩
        exact .update hx hhas hput
    obtain ⟨d₁, hwritten, hsame⟩ := executeTask_accepted hwrite hreply
    exact Or.inl ⟨haddr, by rwa [hsame _ (by decide)]⟩
  · have hwrite : Outcome Exception.IsUtf8 s.store (moduleTask p req)
        (fun _ d' => LineWritten p req.dataset (s.store .purchaseOrderRecord)
          (d' .purchaseOrderRecord)) fun _ => False := by
      have hsub : req.submodule = utf8 "order-records" := haddr.2
      rw [moduleTask_purchase p haddr.1, PurchaseModule.executeTask,
        if_neg (by rw [hsub]; decide), if_pos hsub]
      refine dispatchMethod_write hmethod (fun _ => ?_) fun _ => ?_
      · refine (PurchaseModule.addOrderRecord_writes _).mono ?_
        rintro _ d' ⟨x, hx, hput⟩
        exact .insert hx hput
      · refine (PurchaseModule.editOrderRecord_writes _ _).mono ?_
        rintro _ d' ⟨x, hx, hhas, hput⟩
        exact .update hx hhas hput
    obtain ⟨d₁, hwritten, hsame⟩ := executeTask_accepted hwrite hreply
    exact Or.inr ⟨haddr, by rwa [hsame _ (by decide)]⟩

end SageStore
