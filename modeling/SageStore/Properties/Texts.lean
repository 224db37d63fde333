import SageStore.Properties.Audit
import SageStore.Properties.Listings
import SageStore.Server.TextWrites

/-!
# Texts in the database

A text goes to SQLite as a NUL-terminated string, and comes back as one. The checks of the
handlers look at the whole text, NULs included. So a text comes back as it was written if and
only if it holds no NUL; and a field that must not be empty is stored as empty if its text
begins with one (`texts_survive_iff`).

What a request writes is said by `Writes`: the text columns of the row it creates or edits, the
status of the order it receives, and the action of its audit entry. What comes back is said of
the next listing of the table (`Returns`).
-/

namespace SageStore

open Bytes Program BusinessLogic

variable {e : Enforcement} {p : Platform} {now : UtcTime} {req : RequestData}
  {faults : List (Option Exception)} {d d' : Db e}

/-! ### What is written -/

/-- The request writes `text` into the column `c` of the row of `t` with key `i`. -/
inductive Writes (p : Platform) (req : RequestData) (d d' : Db e) :
    (t : TableName) → ℕ → TextColumn t → Bytes → Prop
  | created (t : TableName) (c : TextColumn t) : req.Addresses t → req.method = utf8 "POST" →
    c ∈ textColumns t → Writes p req d d' t ((d t).seq + 1) c (c.written req.dataset)
  | edited (t : TableName) (i : ℕ) (c : TextColumn t) : req.Addresses t →
    req.method = utf8 "PUT" → (d t).Has (.int i) → Cell.int i = p.cell req.resourceId →
    c ∈ textColumns t → Writes p req d d' t i c (c.written req.dataset)
  | received (i : ℕ) (c : TextColumn .purchaseOrder) : req.PostsReceipt →
    Cell.int i = p.cell (getOptionalDatasetValue req.dataset "id") →
    c ∈ textColumns .purchaseOrder → Writes p req d d' .purchaseOrder i c (utf8 "Received")
  | audited (c : TextColumn .log) : IsAudited req →
    (d' .log).Has (.int ((d .log).seq + 1 : ℕ)) → c ∈ textColumns .log →
    Writes p req d d' .log ((d .log).seq + 1) c (buildAuditAction req)

/-- Some row holds the text up to its first NUL; and a text that is required was not empty. -/
def IsStored (d' : Db e) {t : TableName} (i : ℕ) (c : TextColumn t) (text : Bytes) : Prop :=
  c ∈ textColumns t ∧ (c.required = true → text ≠ []) ∧
    ∃ x, (i, x) ∈ (d' t).rows ∧ c.stored x = cstr text

theorem buildAuditAction_ne_nil (req : RequestData) : buildAuditAction req ≠ [] := by
  have hslash : utf8 "/" ≠ [] := by decide
  unfold buildAuditAction
  dsimp only
  split <;> simp [hslash]

/-- The audit entry stores the action. -/
theorem BusinessLogic.Audits.isStored {d₁ : Db e} (h : Audits p now req faults d₁ d')
    (hlog : d₁ .log = d .log) (hhas : (d' .log).Has (.int ((d .log).seq + 1 : ℕ)))
    {c : TextColumn .log} (hc : c ∈ textColumns .log) :
    IsStored d' ((d .log).seq + 1) c (buildAuditAction req) := by
  -- the key is new, so a log that has it is not the old one
  have hnot : ¬ (d .log).Has (.int ((d .log).seq + 1 : ℕ)) := by
    rintro ⟨r, hr, hkey⟩
    have hle := (d .log).le_seq r hr
    have heq : r.1 = (d .log).seq + 1 := by exact_mod_cast Cell.int.inj hkey
    omega
  have hsame (heq : d' = d₁) : d' .log = d .log := by rw [heq, hlog]
  refine ⟨hc, fun _ => buildAuditAction_ne_nil req, ?_⟩
  cases h with
  | none _ heq => exact absurd (hsame heq ▸ hhas) hnot
  | lost _ _ heq => exact absurd (hsame heq ▸ hhas) hnot
  | written _ hok =>
    have hinsert := Database.put_self hok
    rw [hlog] at hinsert
    rw [hinsert]
    refine ⟨_, Table.mem_insert.mpr (Or.inr rfl), ?_⟩
    obtain rfl := List.mem_singleton.mp hc
    rfl

/-- **What a request writes is stored**, up to the first NUL. -/
theorem Writes.isStored {s : Session (Db .full) Exception} (hs : (server p .full).Reachable s)
    {ev : Event} (hmethod : ev.request.method = utf8 "POST" ∨ ev.request.method = utf8 "PUT")
    (hreply : utf8 "error" ∉ ((server p .full).step s ev).1.dataset) {t : TableName} {i : ℕ}
    {c : TextColumn t} {text : Bytes}
    (h : Writes p ev.request s.store ((server p .full).step s ev).2.store t i c text) :
    IsStored ((server p .full).step s ev).2.store i c text := by
  cases h with
  | created t c haddr hpost hc =>
    obtain ⟨x, hx, hwrite⟩ := textsWritten (s := { s with faults := ev.faults }) haddr
      hmethod hreply
    -- a `POST` inserts the row
    obtain ⟨-, hinsert⟩ := hwrite.resolve_right fun h =>
      absurd (hpost.symm.trans h.1) (by decide)
    refine ⟨hc, (hx c hc).2, x, ?_, (hx c hc).1⟩
    exact hinsert ▸ Table.mem_insert.mpr (Or.inr rfl)
  | edited t i c haddr hput hhas hkey hc =>
    obtain ⟨x, hx, hwrite⟩ := textsWritten (s := { s with faults := ev.faults }) haddr
      hmethod hreply
    -- a `PUT` updates the row with the key, which was there
    obtain ⟨-, hupdate⟩ := hwrite.resolve_left fun h =>
      absurd (hput.symm.trans h.1) (by decide)
    refine ⟨hc, (hx c hc).2, x, ?_, (hx c hc).1⟩
    exact hupdate ▸ Table.mem_update.mpr (Or.inr ⟨hkey, rfl, hkey ▸ hhas⟩)
  | received i c hpost hkey hc =>
    obtain ⟨d₁, -, heffect, haudit⟩ := (Server.step_spec hs ev).of_no_error hreply
    obtain ⟨o, ho, horder, -, hreceived⟩ := (heffect.receives hpost).received
    -- the receipt writes the status, which is the one text column of the table
    refine ⟨hc, fun _ => by decide, ?_⟩
    rw [haudit.eq_of_ne (by decide), hreceived]
    refine ⟨_, Table.mem_update.mpr (Or.inr ⟨hkey, rfl, o, ho, horder⟩), ?_⟩
    obtain rfl := List.mem_singleton.mp hc
    rfl
  | audited c haudited hhas hc =>
    obtain ⟨d₁, -, heffect, haudit⟩ := (Server.step_spec hs ev).of_no_error hreply
    exact haudit.isStored (heffect.log_eq haudited.2) hhas hc

/-! ### What comes back -/

/-- The next listing of `t` returns `text` under `key` for the row with key `i`. -/
def Returns (p : Platform) (s : Session (Db .full) Exception) (now : UtcTime) (t : TableName)
    (i : ℕ) (key : String) (text : Bytes) : Prop :=
  let reply := ((server p .full).step s ⟨now, listRequest t "", []⟩).1.dataset
  ∃ j : ℕ, (column reply "id")[j]? = some (decimal i) ∧ (column reply key)[j]? = some text

/-- Every text column is listed under its key. -/
theorem exists_listColumn {t : TableName} {c : TextColumn t} (hc : c ∈ textColumns t) :
    ∃ f, (c.key, f) ∈ listColumns t ∧ ∀ i x, f (entityOf t i x) = c.stored x := by
  cases t <;>
    simp only [textColumns, TextColumn.field, List.mem_cons, List.not_mem_nil, or_false] at hc
  case role => subst hc; exact ⟨Role.name, by simp [listColumns], fun _ _ => rfl⟩
  case user => subst hc; exact ⟨User.username, by simp [listColumns], fun _ _ => rfl⟩
  case log => subst hc; exact ⟨Log.action, by simp [listColumns], fun _ _ => rfl⟩
  case contact =>
    rcases hc with rfl | rfl | rfl | rfl
    · exact ⟨Contact.name, by simp [listColumns], fun _ _ => rfl⟩
    · exact ⟨Contact.type, by simp [listColumns], fun _ _ => rfl⟩
    · exact ⟨Contact.email, by simp [listColumns], fun _ _ => rfl⟩
    · exact ⟨Contact.phone, by simp [listColumns], fun _ _ => rfl⟩
  case employee | supplier =>
    rcases hc with rfl | rfl | rfl | rfl
    · exact ⟨Party.name, by simp [listColumns, ManagementModule.partyColumns], fun _ _ => rfl⟩
    · exact ⟨Party.number, by simp [listColumns, ManagementModule.partyColumns], fun _ _ => rfl⟩
    · exact ⟨Party.email, by simp [listColumns, ManagementModule.partyColumns], fun _ _ => rfl⟩
    · exact ⟨Party.address, by simp [listColumns, ManagementModule.partyColumns], fun _ _ => rfl⟩
  case suppliersProductInfo =>
    subst hc; exact ⟨SuppliersProductInfo.code, by simp [listColumns], fun _ _ => rfl⟩
  case productType =>
    rcases hc with rfl | rfl | rfl | rfl | rfl
    · exact ⟨ProductType.code, by simp [listColumns], fun _ _ => rfl⟩
    · exact ⟨ProductType.barcode, by simp [listColumns], fun _ _ => rfl⟩
    · exact ⟨ProductType.name, by simp [listColumns], fun _ _ => rfl⟩
    · exact ⟨ProductType.description, by simp [listColumns], fun _ _ => rfl⟩
    · exact ⟨ProductType.unit, by simp [listColumns], fun _ _ => rfl⟩
  case saleOrder => subst hc; exact ⟨SaleOrder.status, by simp [listColumns], fun _ _ => rfl⟩
  case purchaseOrder =>
    subst hc; exact ⟨PurchaseOrder.status, by simp [listColumns], fun _ _ => rfl⟩

/-- Every listing has the keys of the rows. -/
theorem exists_idColumn (t : TableName) :
    ∃ f, ("id", f) ∈ listColumns t ∧ ∀ i x, f (entityOf t i x) = decimal i := by
  cases t <;> exact ⟨_, List.mem_cons_self, fun _ _ => rfl⟩

/-- What a listing returns for a row is what the row stores. -/
theorem returns_iff {s : Session (Db .full) Exception} {t : TableName} {i : ℕ} {x : Row t}
    (hx : (i, x) ∈ (s.store t).rows) {c : TextColumn t} (hc : c ∈ textColumns t)
    {text : Bytes} : Returns p s now t i c.key text ↔ text = c.stored x := by
  obtain ⟨f, hf, hstored⟩ := exists_listColumn hc
  obtain ⟨g, hg, hkey⟩ := exists_idColumn t
  -- the columns of the listing, row by row
  have hreply : ((server p .full).step s ⟨now, listRequest t "", []⟩).1 =
      listing (listColumns t) ((s.store t).rows.map fun r => entityOf t r.1 r.2) := by
    refine (get_reply p now ⟨rfl, rfl⟩ rfl s.store s.snapshot).trans ?_
    cases t <;> rfl
  have hids : column (listing (listColumns t) ((s.store t).rows.map fun r =>
      entityOf t r.1 r.2)).dataset "id" = (s.store t).rows.map fun r => decimal r.1 := by
    rw [column_listing (nodup_listColumns t) hg, List.map_map]
    exact List.map_congr_left fun r _ => hkey r.1 r.2
  have htexts : column (listing (listColumns t) ((s.store t).rows.map fun r =>
      entityOf t r.1 r.2)).dataset c.key = (s.store t).rows.map fun r => c.stored r.2 := by
    rw [column_listing (nodup_listColumns t) hf, List.map_map]
    exact List.map_congr_left fun r _ => hstored r.1 r.2
  unfold Returns
  dsimp only
  rw [hreply, hids, htexts]
  simp only [List.getElem?_map, Option.map_eq_some_iff]
  constructor
  · rintro ⟨j, ⟨r, hr, hri⟩, r', hr', rfl⟩
    -- the row listed at that place is the one with the key
    obtain rfl : r = r' := Option.some.inj (hr.symm.trans hr')
    obtain rfl := Table.eq_of_mem (List.mem_of_getElem? hr) hx (decimal_inj.mp hri)
    rfl
  · rintro rfl
    obtain ⟨j, hj⟩ := List.mem_iff_getElem?.mp hx
    exact ⟨j, ⟨(i, x), hj, rfl⟩, (i, x), hj, rfl⟩

/-! ### The texts that survive -/

/-- The text is returned as it was written, and not as empty if it is required. -/
def Survives (p : Platform) (s : Session (Db .full) Exception) (now : UtcTime) {t : TableName}
    (i : ℕ) (c : TextColumn t) (text : Bytes) : Prop :=
  Returns p s now t i c.key text ∧ (c.required = true → ¬ Returns p s now t i c.key [])

/-- A text is cut to nothing if it is empty or begins with NUL. -/
theorem cstr_eq_nil_iff {t : Bytes} (h : t ≠ []) : cstr t = [] ↔ t.head? = some 0 := by
  cases t with
  | nil => exact absurd rfl h
  | cons b t =>
    unfold cstr
    by_cases hb : b = 0
    · simp [hb]
    · simp [hb]

/-- A stored text survives exactly if it holds no NUL. -/
theorem IsStored.survives_iff {s : Session (Db .full) Exception} {t : TableName} {i : ℕ}
    {c : TextColumn t} {text : Bytes} (h : IsStored s.store i c text) :
    (Survives p s now i c text ↔ (0 : UInt8) ∉ text) ∧
      (c.required = true → (Returns p s now t i c.key [] ↔ text.head? = some 0)) := by
  obtain ⟨hc, hrequired, x, hx, hstored⟩ := h
  constructor
  · unfold Survives
    rw [returns_iff hx hc, returns_iff hx hc, hstored]
    constructor
    · rintro ⟨htext, -⟩
      exact cstr_eq_self_iff.mp htext.symm
    · intro h0
      rw [cstr_eq_self h0]
      exact ⟨rfl, fun h => (hrequired h).symm⟩
  · intro h
    rw [returns_iff hx hc, hstored, eq_comm, cstr_eq_nil_iff (hrequired h)]

/-- **Which texts survive storage.** In every reachable state, for every accepted `POST` or
`PUT`: the texts that it writes are all returned unchanged by the next listing, and those that
are required not as empty, if and only if none of them holds a NUL. And a required text is
returned as empty if and only if it begins with a NUL. -/
theorem texts_survive_iff (p : Platform) {s : Session (Db .full) Exception}
    (hs : (server p .full).Reachable s) (ev : Event) (now : UtcTime)
    (hmethod : ev.request.method = utf8 "POST" ∨ ev.request.method = utf8 "PUT")
    (hreply : utf8 "error" ∉ ((server p .full).step s ev).1.dataset) :
    let s' := ((server p .full).step s ev).2
    ((∀ t i (c : TextColumn t) text, Writes p ev.request s.store s'.store t i c text →
        Survives p s' now i c text) ↔
      ∀ t i (c : TextColumn t) text, Writes p ev.request s.store s'.store t i c text →
        (0 : UInt8) ∉ text) ∧
    ∀ t i (c : TextColumn t) text, Writes p ev.request s.store s'.store t i c text →
      c.required = true → (Returns p s' now t i c.key [] ↔ text.head? = some 0) := by
  intro s'
  have hstored : ∀ t i (c : TextColumn t) text,
      Writes p ev.request s.store s'.store t i c text → IsStored s'.store i c text :=
    fun t i c text h => h.isStored hs hmethod hreply
  constructor
  · constructor
    · intro h t i c text hw
      exact (hstored t i c text hw).survives_iff.1.mp (h t i c text hw)
    · intro h t i c text hw
      exact (hstored t i c text hw).survives_iff.1.mpr (h t i c text hw)
  · intro t i c text hw
    exact (hstored t i c text hw).survives_iff.2

/-- A new contact whose name begins with a NUL. -/
def postHiddenContact : Event :=
  .plain "management" "contacts" "POST" ""
    [("name", "\x00Ada"), ("type", "Customer"), ("email", "ada@example.com"), ("phone", "1"),
      ("userId", "1")]

/-- The column of the names of contacts. -/
def contactName : TextColumn .contact := .field "name" ContactRow.name true

/-- The name of the new contact is required, and is returned as empty. -/
theorem texts_survive_iff_contact :
    Returns .plain ((server .plain .full).step (server .plain .full).init postHiddenContact).2 noon
      .contact 2 "name" [] := by
  have hwrites : Writes .plain postHiddenContact.request (server .plain .full).init.store
      ((server .plain .full).step (server .plain .full).init postHiddenContact).2.store .contact 2
      contactName (utf8 "\x00Ada") :=
    .created .contact contactName ⟨rfl, rfl⟩ rfl List.mem_cons_self
  have hiff := (texts_survive_iff .plain (server .plain .full).reachable_init postHiddenContact
    noon (Or.inl rfl) (by decide +kernel)).2 _ _ _ _ hwrites rfl
  exact hiff.mpr (by decide)

/-- The new contact is accepted, and what it writes does not survive. -/
theorem hiddenContact_lost :
    let s := (server .plain .full).init
    let s' := ((server .plain .full).step s postHiddenContact).2
    (server .plain .full).Reachable s ∧ postHiddenContact.request.method = utf8 "POST" ∧
    utf8 "error" ∉ ((server .plain .full).step s postHiddenContact).1.dataset ∧
    ¬ ∀ t i (c : TextColumn t) text,
      Writes .plain postHiddenContact.request s.store s'.store t i c text →
        Survives .plain s' noon i c text := by
  intro s s'
  have hs : (server .plain .full).Reachable s := (server .plain .full).reachable_init
  have hreply : utf8 "error" ∉ ((server .plain .full).step s postHiddenContact).1.dataset := by
    decide +kernel
  refine ⟨hs, rfl, hreply, fun h => ?_⟩
  have hwrites : Writes .plain postHiddenContact.request s.store s'.store .contact 2 contactName
      (utf8 "\x00Ada") :=
    .created .contact contactName ⟨rfl, rfl⟩ rfl List.mem_cons_self
  -- the name holds a NUL, so it is not returned as it was written
  have hstored := hwrites.isStored hs (Or.inl rfl) hreply
  exact absurd (hstored.survives_iff.1.mp (h _ _ _ _ hwrites)) (by decide)

end SageStore
