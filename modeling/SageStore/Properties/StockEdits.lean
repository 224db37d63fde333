import SageStore.Client.StocksView
import SageStore.Properties.Listings
import SageStore.Properties.Uniqueness
import SageStore.Server.LineWrites

/-!
# Receipts and edits of stock rows

An edit of a stock row sends the whole row as its client loaded it, and the server stores it
without asking what became of the row since. So a receipt between the load and the edit is
lost: the quantity of a row is the one that the last accepted edit carries, which the row had
when it was loaded, plus what the receipts after that edit carry (`stock_after_edits`).
-/

namespace SageStore

open Bytes Program BusinessLogic

variable {e : Enforcement} {p : Platform} {now : UtcTime} {d d' : Db e}

/-! ### The row of a product -/

/-- The stock of a product that has a row is the quantity of the row. -/
theorem stockOf_of_mem (hdistinct : (d .inventory).Distinct InventoryRow.productTypeId)
    {r : ℕ × InventoryRow} (hr : r ∈ (d .inventory).rows) {n : ℕ}
    (hn : r.2.productTypeId = .int n) : stockOf d n = r.2.quantityAvailable.toInt := by
  have hfound : (stockRow (d .inventory) n).isSome :=
    List.find?_isSome.mpr ⟨r, hr, decide_eq_true hn⟩
  obtain ⟨r', hr'⟩ := Option.isSome_iff_exists.mp hfound
  obtain ⟨hmem, hproduct⟩ := stockRow_some hr'
  have hkey : r'.1 = r.1 := hdistinct r' hmem r hr (hproduct.trans hn.symm)
  obtain rfl := Table.eq_of_mem hmem hr hkey
  rw [stockOf_eq, hr']
  rfl

/-- A posting keeps the rows, with their keys and their products. -/
theorem Posting.exists_mem_apply (employee : Cell) {T : Table InventoryRow} {m : Posting}
    (hfinds : m.Finds T) {r : ℕ × InventoryRow} (hr : r ∈ T.rows) :
    ∃ x, (r.1, x) ∈ (m.apply employee T).rows ∧ x.productTypeId = r.2.productTypeId := by
  obtain ⟨product, row, quantity⟩ := m
  cases row with
  | none => exact ⟨r.2, Table.mem_insert.mpr (Or.inl hr), rfl⟩
  | some i =>
    obtain ⟨found, hfound, rfl⟩ := hfinds
    obtain ⟨hmem, hproduct⟩ := stockRow_some hfound
    by_cases hkey : Cell.int r.1 = .int found.1
    · -- the row is the one that is replaced
      obtain rfl := Table.eq_of_mem_of_key hr hmem hkey rfl
      exact ⟨_, Table.mem_update_self hr _, hproduct.symm⟩
    · exact ⟨r.2, Table.mem_update.mpr (Or.inl ⟨hr, hkey⟩), rfl⟩

/-- Postings keep every row, with a new quantity where they meet it. -/
theorem exists_mem_postings (employee : Cell) (plan : List Posting) {T : Table InventoryRow}
    (hnodup : (plan.map Posting.product).Nodup) (hfinds : ∀ m ∈ plan, m.Finds T)
    {r : ℕ × InventoryRow} (hr : r ∈ T.rows) :
    ∃ x, (r.1, x) ∈ (plan.foldl (Posting.apply employee) T).rows ∧
      x.productTypeId = r.2.productTypeId := by
  induction plan generalizing T r with
  | nil => exact ⟨r.2, hr, rfl⟩
  | cons m plan ih =>
    obtain ⟨hnotin, hnodup⟩ := List.nodup_cons.mp hnodup
    have hm := hfinds m List.mem_cons_self
    obtain ⟨x, hx, hproduct⟩ := Posting.exists_mem_apply employee hm hr
    have hlater : ∀ m' ∈ plan, m'.Finds (m.apply employee T) := by
      intro m' hm'
      refine hm.apply (hfinds m' (List.mem_cons_of_mem _ hm')) fun heq => hnotin ?_
      exact heq ▸ List.mem_map_of_mem hm'
    obtain ⟨y, hy, hsame⟩ := ih hnodup hlater hx
    exact ⟨y, hy, hsame.trans hproduct⟩

/-- A receipt raises the quantity of the row of a product by what the order's lines carry. -/
theorem Receives.stock_row {order : Cell} (h : Receives p d order d')
    (hdistinct : (d .inventory).Distinct InventoryRow.productTypeId)
    (hdistinct' : (d' .inventory).Distinct InventoryRow.productTypeId)
    {r : ℕ × InventoryRow} (hr : r ∈ (d .inventory).rows) {n : ℕ}
    (hn : r.2.productTypeId = .int n) :
    ∃ x, (r.1, x) ∈ (d' .inventory).rows ∧ x.productTypeId = .int n ∧
      x.quantityAvailable.toInt =
        r.2.quantityAvailable.toInt + carried (purchaseLines d order) n := by
  obtain ⟨employee, plan, hplan, hstock⟩ := h.stock
  obtain ⟨x, hx, hproduct⟩ :=
    exists_mem_postings (.int employee) plan hplan.nodup hplan.finds hr
  rw [← hstock] at hx
  have hx' : x.productTypeId = .int n := hproduct.trans hn
  have hafter : stockOf d' n = x.quantityAvailable.toInt := stockOf_of_mem hdistinct' hx hx'
  refine ⟨x, hx, hx', ?_⟩
  rw [← hafter, h.stockOf_eq, stockOf_of_mem hdistinct hr hn]

/-! ### What the server does with receipts and edits -/

/-- A receipt is rejected, and nothing is changed, or the order is received. -/
theorem receipt_step {s : Session (Db e) Exception} (hs : (server p e).Reachable s)
    (now : UtcTime) (faults : List (Option Exception)) (dataset : Dataset) :
    let ev : Event := ⟨now, ApiManager.postPurchaseReceipt dataset, faults⟩
    (utf8 "error" ∈ ((server p e).step s ev).1.dataset ∧
        ((server p e).step s ev).2.store = s.store) ∨
      utf8 "error" ∉ ((server p e).step s ev).1.dataset ∧ ∃ d₁,
        Receives p s.store (p.cell (getOptionalDatasetValue dataset "id")) d₁ ∧
          ((server p e).step s ev).2.store .inventory = d₁ .inventory := by
  intro ev
  have hpost : ev.request.PostsReceipt := ⟨rfl, rfl, rfl⟩
  -- only a deletion is cut short, and a receipt is posted
  cases Server.step_spec hs ev with
  | rejected ex hreply hex heq =>
    rw [hreply]
    exact Or.inl ⟨error_mem_errorReply ex, heq⟩
  | aborted ex hreply hfault habort =>
    exact absurd (hpost.2.2.symm.trans habort.isDelete) (by decide)
  | @accepted d₁ hans heffect haudit =>
    exact Or.inr ⟨hans.no_error, d₁, heffect.receives hpost, haudit.eq_of_ne (by decide)⟩

/-- The stock that the fields of the request describe replaces the addressed row. -/
def StockWritten (p : Platform) (request : Dataset) (resourceId : Bytes)
    (T T' : Table InventoryRow) : Prop :=
  T.Has (p.cell resourceId) ∧ ∃ employee, T' = T.update (p.cell resourceId)
    ⟨p.cell (getOptionalDatasetValue request "productTypeId"),
      p.cell (getOptionalDatasetValue request "quantityAvailable"), employee⟩

/-- The fields of a stock row are those of the request. -/
theorem InventoryModule.buildStock_fields (request : Dataset) (resourceId : Bytes) :
    Yields Exception.IsUtf8 (buildStock request resourceId) fun x => x.id = resourceId ∧
      x.productTypeId = getOptionalDatasetValue request "productTypeId" ∧
        x.quantityAvailable = getOptionalDatasetValue request "quantityAvailable" := by
  refine getRequiredDatasetValue_spec.bind fun productTypeId hproduct => ?_
  refine getRequiredNonNegativeInteger_spec.bind fun quantity hquantity => ?_
  refine getRequiredPositiveInteger_spec.bind fun employeeId _ => ?_
  exact Yields.pure ⟨rfl, hproduct.1, hquantity.1⟩

/-- An accepted edit has written the row that the request builds. -/
theorem InventoryModule.editStock_writes (request : Dataset) (resourceId : Bytes) :
    Atomic Exception.IsUtf8 d (InventoryModule.editStock p request resourceId) fun _ d' =>
      StockWritten p request resourceId (d .inventory) (d' .inventory) := by
  refine (ensureExisting_spec _ _ _ _ _).bindAtomic fun _ hex => ?_
  refine (reads_lift (buildStock_fields request resourceId)).bindAtomic fun x hx => ?_
  refine (ensureEntityExists_spec productTypeRepository .id _ _ _).bindAtomic fun _ _ => ?_
  refine (getByField_spec inventoryRepository _ _).bindAtomic fun stocks _ => ?_
  refine Outcome.ite (fun _ => Outcome.throw ⟨.utf8 _, .utf8 _⟩) fun _ => ?_
  refine (update_spec inventoryRepository x).mono fun _ d' hok => ⟨hex.2, p.cell x.employeeId, ?_⟩
  have hid : inventoryRepository.id x = resourceId := hx.1
  rw [Database.put_self hok, hid, ← hx.2.1, ← hx.2.2]
  rfl

/-- An edit of a stock is rejected, and nothing is changed, or its row is replaced. -/
theorem editStock_step {s : Session (Db e) Exception} (hs : (server p e).Reachable s)
    (now : UtcTime) (faults : List (Option Exception)) (stock : Inventory) :
    let ev : Event := ⟨now, ApiManager.editStock stock, faults⟩
    (utf8 "error" ∈ ((server p e).step s ev).1.dataset ∧
        ((server p e).step s ev).2.store = s.store) ∨
      utf8 "error" ∉ ((server p e).step s ev).1.dataset ∧
        (s.store .inventory).Has (p.cell stock.id) ∧ ∃ employee,
          ((server p e).step s ev).2.store .inventory =
            (s.store .inventory).update (p.cell stock.id)
              ⟨p.cell stock.productTypeId, p.cell stock.quantityAvailable, employee⟩ := by
  intro ev
  have hput : ev.request.method = utf8 "PUT" := rfl
  -- what a rejected edit leaves is read off `Step`; what an accepted one writes, off the handler
  by_cases hreply : utf8 "error" ∈ ((server p e).step s ev).1.dataset
  · have hmethod : ev.request.method ≠ utf8 "DELETE" := by
      rw [hput]
      decide
    exact Or.inl ⟨hreply, (Server.step_spec hs ev).unchanged_of_error hmethod hreply⟩
  · have hwrite : Outcome Exception.IsUtf8 s.store (moduleTask p ev.request)
        (fun _ d' => StockWritten p ev.request.dataset ev.request.resourceId
          (s.store .inventory) (d' .inventory)) fun _ => False := by
      have hsub : ev.request.submodule = utf8 "stocks" := rfl
      rw [moduleTask_inventory p rfl, InventoryModule.executeTask,
        if_neg (by rw [hsub]; decide), if_pos hsub]
      exact dispatchMethod_spec (fun h => absurd (hput.symm.trans h) (by decide))
        (fun h => absurd (hput.symm.trans h) (by decide))
        (fun _ => InventoryModule.editStock_writes _ _)
        fun h => absurd (hput.symm.trans h) (by decide)
    obtain ⟨d₁, ⟨hhas, employee, hwritten⟩, hsame⟩ :=
      executeTask_accepted (s := { s with faults := faults }) hwrite hreply
    have hinventory : ((server p e).step s ev).2.store .inventory = d₁ .inventory :=
      hsame .inventory (by decide)
    exact Or.inr ⟨hreply, hhas, employee, hinventory.trans hwritten⟩

/-! ### One step of the clients and the server -/

namespace Stocks

/-- What a change of the server makes of the quantity of the row `key`, which holds `product`. -/
def settle (key product : ℕ) (quantity : ℤ) : StockChange → ℤ
  | .none => quantity
  | .received lines => quantity + carried lines product
  | .edited stock => if stock.id = decimal key then digitsValue stock.quantityAvailable
      else quantity

/-- A stock as it was loaded from the row `r`, up to its employee. -/
structure LoadedFrom (r : ℕ × InventoryRow) (stock : Inventory) : Prop where
  id : stock.id = decimal r.1
  productTypeId : stock.productTypeId = r.2.productTypeId.toText
  quantityAvailable : stock.quantityAvailable = r.2.quantityAvailable.toText

/-- The stock names a row of the table and its product, and carries a count. -/
def NamesRow (T : Table InventoryRow) (stock : Inventory) : Prop :=
  ∃ r ∈ T.rows, stock.id = decimal r.1 ∧ stock.productTypeId = r.2.productTypeId.toText ∧
    ∃ q < 2 ^ 63, stock.quantityAvailable = decimal q

/-- An edit replaces the row that its stock names, by the quantity that it carries, and leaves
the other rows. -/
theorem row_update (p : Platform) {d : Db e} (hwf : WellFormed d) {stock : Inventory}
    (hstock : NamesRow (d .inventory) stock) (employee : Cell) {r : ℕ × InventoryRow}
    (hr : r ∈ (d .inventory).rows) {n : ℕ} (hn : r.2.productTypeId = .int n) :
    ∃ x, (r.1, x) ∈ ((d .inventory).update (p.cell stock.id)
        ⟨p.cell stock.productTypeId, p.cell stock.quantityAvailable, employee⟩).rows ∧
      x.productTypeId = .int n ∧ x.quantityAvailable.toInt =
        settle r.1 n r.2.quantityAvailable.toInt (.edited stock) := by
  obtain ⟨named, hnamed, hid, hproduct, q, hlt, hq⟩ := hstock
  obtain ⟨⟨m, hm, hmlt⟩, -⟩ := hwf.stocks named hnamed
  -- the cells that are written are the ones the texts of the stock were read from
  rw [hid, hproduct, hm, hq, p.cell_key hnamed, p.cell_decimal hlt, Cell.toText_int,
    ofInt_natCast, p.cell_decimal hmlt]
  by_cases hkey : r.1 = named.1
  · -- the row is the one that the stock names, so the products agree
    obtain rfl := Table.eq_of_mem hr hnamed hkey
    refine ⟨_, Table.mem_update_self hr _, hm.symm.trans hn, ?_⟩
    rw [settle, if_pos hid, hq, digitsValue_decimal]
    rfl
  · have hne : stock.id ≠ decimal r.1 := fun heq =>
      hkey (decimal_inj.mp (heq.symm.trans hid))
    refine ⟨r.2, Table.mem_update.mpr (Or.inl ⟨hr, fun heq => hkey ?_⟩), hn, ?_⟩
    · exact Int.ofNat_inj.mp (Cell.int.inj heq)
    · rw [settle, if_neg hne]

variable {qt : Qt} {s : Stocks e}

/-- The server takes receipts and edits one at a time. -/
theorem reachable_step (qt : Qt) (hs : (server p e).Reachable s.session) (i : Input) :
    (server p e).Reachable (step qt p s i).2.session := by
  cases i with
  | postReceipt now faults dataset => exact hs.step _
  | getStocks client now => exact hs
  | stocksList j =>
    rw [step]
    split <;> exact hs
  | editEmployee client row text => exact hs
  | editStock j now faults =>
    rw [step]
    split
    · exact hs
    · exact hs.step _

/-- **One step**: the row of a product keeps its key and its product, and its quantity changes as
the server says. -/
theorem row_step (qt : Qt) (hs : (server p e).Reachable s.session)
    (hedits : ∀ stock ∈ s.edits, NamesRow (s.session.store .inventory) stock) (i : Input)
    {r : ℕ × InventoryRow} (hr : r ∈ (s.session.store .inventory).rows) {n : ℕ}
    (hn : r.2.productTypeId = .int n) :
    ∃ x, (r.1, x) ∈ ((step qt p s i).2.session.store .inventory).rows ∧
      x.productTypeId = .int n ∧ x.quantityAvailable.toInt =
        settle r.1 n r.2.quantityAvailable.toInt (step qt p s i).1 := by
  have hs' := reachable_step qt hs i
  cases i with
  | postReceipt now faults dataset =>
    show ∃ x, (r.1, x) ∈ (((server p e).step s.session _).2.store .inventory).rows ∧ _ ∧
      _ = settle r.1 n _ (if utf8 "error" ∈ ((server p e).step s.session _).1.dataset then .none
        else _)
    obtain ⟨hreply, heq⟩ | ⟨hreply, d₁, hreceives, heq⟩ := receipt_step hs now faults dataset
    · rw [if_pos hreply, heq]
      exact ⟨r.2, hr, hn, rfl⟩
    · -- one row a product, before and after, so the ledger of the product is the row's
      have hdistinct : (((server p e).step s.session _).2.store .inventory).Distinct _ :=
        Server.stock_products hs'
      rw [heq] at hdistinct
      rw [if_neg hreply, heq]
      exact hreceives.stock_row (Server.stock_products hs) hdistinct hr hn
  | getStocks client now => exact ⟨r.2, hr, hn, rfl⟩
  | stocksList j =>
    rw [step]
    split <;> exact ⟨r.2, hr, hn, rfl⟩
  | editEmployee client row text => exact ⟨r.2, hr, hn, rfl⟩
  | editStock j now faults =>
    rw [step]
    split
    · exact ⟨r.2, hr, hn, rfl⟩
    · next stock hstock =>
      -- the stock names the row or another one; `row_update` treats both
      have hnames := hedits stock (List.mem_of_getElem? hstock)
      dsimp only
      obtain ⟨hreply, heq⟩ | ⟨hreply, -, employee, heq⟩ := editStock_step hs now faults stock
      · rw [if_pos hreply, heq]
        exact ⟨r.2, hr, hn, rfl⟩
      · rw [if_neg hreply, heq]
        exact row_update p (Server.wellFormed hs).1 hnames employee hr hn

/-! ### What the clients send -/

/-- A client has the stock in its table, or it is on its way to a client or to the server. -/
def Holds (s : Stocks e) (stock : Inventory) : Prop :=
  (∃ client, stock ∈ s.views client) ∨ (∃ l ∈ s.lists, stock ∈ l.2) ∨ stock ∈ s.edits

theorem stocksOf_eq (p : Platform) (now : UtcTime) (d : Db e) :
    stocksOf p now d = some ((d .inventory).rows.map fun r =>
      inventoryRepository.fromCurrentRow r.1 r.2) := by
  have hreply := @get_reply e p now ApiManager.getStocks .inventory ⟨rfl, rfl⟩ rfl d none
  rw [stocksOf, hreply, handleResponse_listing]
  exact congrArg some (List.map_map)

/-- An employee's edit keeps the product and the quantity of its row, in the table and in the
stock that is sent. -/
theorem onItemChanged_employee (qt : Qt) {rows : List Inventory} (row : ℕ) (text : Bytes)
    {P : Inventory → Prop} (hrows : ∀ stock ∈ rows, P stock)
    (hemployee : ∀ stock value, P stock → P { stock with employeeId := value })
    (htrimmed : ∀ stock, P stock → qt.trimmed stock.quantityAvailable = stock.quantityAvailable) :
    (∀ stock ∈ (StocksView.onItemChanged qt rows row .employee text).1, P stock) ∧
      ∀ stock ∈ (StocksView.onItemChanged qt rows row .employee text).2.toList, P stock := by
  have hnone : (∀ stock ∈ rows, P stock) ∧ ∀ stock ∈ (none : Option Inventory).toList, P stock :=
    ⟨hrows, fun _ h => absurd h List.not_mem_nil⟩
  rw [StocksView.onItemChanged]
  split
  · exact hnone
  · next stock hstock =>
    dsimp only
    -- a text that is not valid, or is the one shown, changes nothing and sends nothing
    split
    · exact hnone
    split
    · exact hnone
    have hedited := hemployee stock (qt.trimmed text) (hrows stock (List.mem_of_getElem? hstock))
    constructor
    · intro stock' hmem
      rcases List.mem_or_eq_of_mem_set hmem with hmem | rfl
      · exact hrows stock' hmem
      · exact hedited
    · rw [StocksView.persistRow]
      dsimp only
      split
      · exact hnone.2
      · intro stock' hmem
        rw [Option.toList_some, List.mem_singleton] at hmem
        subst hmem
        -- the quantity is trimmed before it is sent, which does not change it
        have hquantity := htrimmed _ hedited
        have hsent := hemployee _ (qt.trimmed (qt.trimmed text)) hedited
        rwa [← hquantity] at hsent

/-- A table after one table was filled: the new rows, or those it had. -/
theorem mem_update_views {views : ℕ → List Inventory} {client client' : ℕ}
    {rows : List Inventory} {stock : Inventory}
    (h : stock ∈ Function.update views client rows client') :
    stock ∈ rows ∨ stock ∈ views client' := by
  by_cases hclient : client' = client
  · subst hclient
    rw [Function.update_self] at h
    exact Or.inl h
  · rw [Function.update_of_ne hclient] at h
    exact Or.inr h

/-- What holds of the rows of the server, whoever its employee is, holds of the stocks of the
clients after a step if it did before. -/
theorem holds_step (qt : Qt) (p : Platform) {P : Inventory → Prop} (i : Input)
    (hholds : ∀ stock, s.Holds stock → P stock)
    (hserver : ∀ r ∈ (s.session.store .inventory).rows,
      P (inventoryRepository.fromCurrentRow r.1 r.2))
    (hemployee : ∀ stock value, P stock → P { stock with employeeId := value })
    (htrimmed : ∀ stock, P stock → qt.trimmed stock.quantityAvailable = stock.quantityAvailable) :
    ∀ stock, (step qt p s i).2.Holds stock → P stock := by
  cases i with
  | postReceipt now faults dataset => exact hholds
  | getStocks client now =>
    rintro stock (hview | ⟨l, hl, hmem⟩ | hedit)
    · exact hholds stock (Or.inl hview)
    · rcases List.mem_append.mp hl with hl | hl
      · exact hholds stock (Or.inr (Or.inl ⟨l, hl, hmem⟩))
      · -- the new list is made of the rows of the server
        rw [stocksOf_eq, Option.map_some, Option.toList_some, List.mem_singleton] at hl
        subst hl
        obtain ⟨r, hr, rfl⟩ := List.mem_map.mp hmem
        exact hserver r hr
    · exact hholds stock (Or.inr (Or.inr hedit))
  | stocksList j =>
    rw [step]
    split
    · exact hholds
    · next l hl =>
      have hlist := List.mem_of_getElem? hl
      -- the list that arrives becomes the table of its client
      rintro stock (⟨client, hmem⟩ | ⟨l', hl', hmem⟩ | hedit)
      · rcases mem_update_views hmem with hmem | hmem
        · exact hholds stock (Or.inr (Or.inl ⟨l, hlist, hmem⟩))
        · exact hholds stock (Or.inl ⟨client, hmem⟩)
      · exact hholds stock (Or.inr (Or.inl ⟨l', List.mem_of_mem_eraseIdx hl', hmem⟩))
      · exact hholds stock (Or.inr (Or.inr hedit))
  | editEmployee client row text =>
    obtain ⟨hrows, hsent⟩ := onItemChanged_employee qt row text
      (fun stock hmem => hholds stock (Or.inl ⟨client, hmem⟩)) hemployee htrimmed
    rintro stock (⟨client', hmem⟩ | hlist | hedit)
    · rcases mem_update_views hmem with hmem | hmem
      · exact hrows stock hmem
      · exact hholds stock (Or.inl ⟨client', hmem⟩)
    · exact hholds stock (Or.inr (Or.inl hlist))
    · rcases List.mem_append.mp hedit with hedit | hedit
      · exact hholds stock (Or.inr (Or.inr hedit))
      · exact hsent stock hedit
  | editStock j now faults =>
    rw [step]
    split
    · exact hholds
    · rintro stock (hview | hlist | hedit)
      · exact hholds stock (Or.inl hview)
      · exact hholds stock (Or.inr (Or.inl hlist))
      · exact hholds stock (Or.inr (Or.inr (List.mem_of_mem_eraseIdx hedit)))

/-! ### Runs -/

/-- How much of a product a change of the server has brought. -/
def brings (product : ℕ) : StockChange → ℤ
  | .received lines => carried lines product
  | _ => 0

/-- How much of a product the receipts among the changes have brought. -/
def received (product : ℕ) (changes : List StockChange) : ℤ :=
  (changes.map (brings product)).sum

/-- None of the changes is an edit of the row `key`. -/
def Unedited (key : ℕ) (changes : List StockChange) : Prop :=
  ∀ stock, .edited stock ∈ changes → stock.id ≠ decimal key

/-- What was received adds up over the changes. -/
theorem received_append (product : ℕ) (cs cs' : List StockChange) :
    received product (cs ++ cs') = received product cs + received product cs' := by
  rw [received, List.map_append, List.sum_append]
  rfl

theorem Unedited.append {key : ℕ} {cs : List StockChange} (h : Unedited key cs)
    {c : StockChange} (hc : ∀ stock, c = .edited stock → stock.id ≠ decimal key) :
    Unedited key (cs ++ [c]) := by
  intro stock hmem
  rcases List.mem_append.mp hmem with hmem | hmem
  · exact h stock hmem
  · exact hc stock (List.mem_singleton.mp hmem).symm

/-- A change that is no edit of the row adds what it brings. -/
theorem settle_of_ne {key product : ℕ} {quantity : ℤ} {c : StockChange}
    (hc : ∀ stock, c = .edited stock → stock.id ≠ decimal key) :
    settle key product quantity c = quantity + received product [c] := by
  have hbrings : received product [c] = brings product c := List.sum_singleton
  rw [hbrings]
  cases c with
  | none => exact (add_zero quantity).symm
  | received lines => rfl
  | edited stock =>
    rw [settle, if_neg (hc stock rfl)]
    exact (add_zero quantity).symm

/-- The stock that an accepted edit stores was on its way to the server. -/
theorem mem_edits_of_step {i : Input} {stock : Inventory}
    (h : (step qt p s i).1 = .edited stock) : stock ∈ s.edits := by
  cases i with
  | postReceipt now faults dataset =>
    have h : (if utf8 "error" ∈ ((server p e).step s.session _).1.dataset then StockChange.none
      else .received _) = .edited stock := h
    split at h <;> cases h
  | getStocks client now => cases h
  | stocksList j =>
    rw [step] at h
    split at h <;> cases h
  | editEmployee client row text => cases h
  | editStock j now faults =>
    -- the server takes the edit at `j` from those in flight, and stores it or refuses it
    rw [step] at h
    split at h
    · cases h
    · next stock' hstock' =>
      dsimp only at h
      split at h
      · cases h
      · rw [← StockChange.edited.inj h]
        exact List.mem_of_getElem? hstock'

section Runs

variable (qt : Qt) (p : Platform) (s₀ : Session (Db e) Exception)

/-- The clients and the server after a run from `s₀`. -/
def after (is : List Input) : Stocks e := (machine qt p s₀).run (machine qt p s₀).init is

/-- The stock rows of the server after a run. -/
def stocksAfter (is : List Input) : Table InventoryRow :=
  (after qt p s₀ is).session.store .inventory

/-- The changes of the server in a run, in their order. -/
def changes (is : List Input) : List StockChange :=
  ((machine qt p s₀).history (machine qt p s₀).init is).map Prod.snd

/-- The stock was loaded from a row of the server in the course of a run. -/
def Loaded (is : List Input) (stock : Inventory) : Prop :=
  ∃ is', is' <+: is ∧ ∃ r ∈ (stocksAfter qt p s₀ is').rows, LoadedFrom r stock

/-- The states of a run: the rows of the server keep their keys and products, and the stocks of
the clients were loaded from them. -/
structure Runs (is : List Input) : Prop where
  reachable : ∀ is', is' <+: is → (server p e).Reachable (after qt p s₀ is').session
  kept : ∀ is', is' <+: is → ∀ r ∈ (stocksAfter qt p s₀ is').rows,
    ∃ x, (r.1, x) ∈ (stocksAfter qt p s₀ is).rows ∧ x.productTypeId = r.2.productTypeId
  loaded : ∀ stock, (after qt p s₀ is).Holds stock → Loaded qt p s₀ is stock

variable {qt p s₀} {is : List Input}

theorem after_append (i : Input) :
    after qt p s₀ (is ++ [i]) = (step qt p (after qt p s₀ is) i).2 :=
  (machine qt p s₀).run_append _ _ _

theorem changes_append (i : Input) :
    changes qt p s₀ (is ++ [i]) =
      changes qt p s₀ is ++ [(step qt p (after qt p s₀ is) i).1] := by
  rw [changes, Machine.history_append, List.map_append]
  rfl

theorem length_changes : (changes qt p s₀ is).length = is.length := by
  induction is using List.reverseRecOn with
  | nil => rfl
  | append_singleton is i ih => rw [changes_append, List.length_append, List.length_append, ih]; rfl

/-- What was loaded once was also loaded in a longer run. -/
theorem Loaded.mono {is' : List Input} {stock : Inventory} (h : Loaded qt p s₀ is stock)
    (his : is <+: is') : Loaded qt p s₀ is' stock := by
  obtain ⟨js, hjs, hr⟩ := h
  exact ⟨js, hjs.trans his, hr⟩

/-- A loaded stock carries a count. -/
theorem Loaded.count
    (hreachable : ∀ is', is' <+: is → (server p e).Reachable (after qt p s₀ is').session)
    {stock : Inventory} (h : Loaded qt p s₀ is stock) :
    ∃ q < 2 ^ 63, stock.quantityAvailable = decimal q := by
  obtain ⟨is', his, r, hr, hfrom⟩ := h
  obtain ⟨-, q, hq, hlt⟩ := (Server.wellFormed (hreachable is' his)).1.stocks r hr
  refine ⟨q, hlt, ?_⟩
  rw [hfrom.quantityAvailable, hq, Cell.toText_int, ofInt_natCast]

theorem Loaded.trimmed
    (hreachable : ∀ is', is' <+: is → (server p e).Reachable (after qt p s₀ is').session)
    {stock : Inventory} (h : Loaded qt p s₀ is stock) :
    qt.trimmed stock.quantityAvailable = stock.quantityAvailable := by
  obtain ⟨q, -, hq⟩ := h.count hreachable
  rw [hq]
  exact qt.trimmed_digits _ (isDigits_decimal q)

/-- The edits on their way to the server name its rows. -/
theorem Runs.namesRow (h : Runs qt p s₀ is) :
    ∀ stock ∈ (after qt p s₀ is).edits, NamesRow (stocksAfter qt p s₀ is) stock := by
  intro stock hstock
  have hloaded := h.loaded stock (Or.inr (Or.inr hstock))
  obtain ⟨q, hlt, hq⟩ := hloaded.count h.reachable
  obtain ⟨is', his, r, hr, hfrom⟩ := hloaded
  obtain ⟨x, hx, hproduct⟩ := h.kept is' his r hr
  exact ⟨_, hx, hfrom.id, hfrom.productTypeId.trans (by rw [hproduct]), q, hlt, hq⟩

/-- An edit on its way to the server carries the quantity that its row had when its stock was
loaded. -/
theorem Runs.edited (h : Runs qt p s₀ is) {stock : Inventory} {key : ℕ}
    (hstock : stock ∈ (after qt p s₀ is).edits) (hid : stock.id = decimal key) :
    ∃ is' y, is' <+: is ∧ (key, y) ∈ (stocksAfter qt p s₀ is').rows ∧
      stock.quantityAvailable = y.quantityAvailable.toText ∧
      (digitsValue stock.quantityAvailable : ℤ) = y.quantityAvailable.toInt := by
  obtain ⟨is', his, ⟨key', y⟩, hy, hfrom⟩ := h.loaded stock (Or.inr (Or.inr hstock))
  obtain rfl : key' = key := decimal_inj.mp (hfrom.id.symm.trans hid)
  obtain ⟨-, q, hq, -⟩ := (Server.wellFormed (h.reachable is' his)).1.stocks _ hy
  have hq : y.quantityAvailable = .int q := hq
  refine ⟨is', y, his, hy, hfrom.quantityAvailable, ?_⟩
  -- the text of a count denotes that count
  rw [hfrom.quantityAvailable, hq, Cell.toText_int, ofInt_natCast, digitsValue_decimal]
  rfl

/-- Every run of the view and the server has these properties. -/
theorem runs (hs : (server p e).Reachable s₀) (is : List Input) : Runs qt p s₀ is := by
  induction is using List.reverseRecOn with
  | nil =>
    constructor
    · intro is' his
      rw [List.prefix_nil.mp his]
      exact hs
    · intro is' his r hr
      rw [List.prefix_nil.mp his] at hr
      exact ⟨r.2, hr, rfl⟩
    · rintro stock (⟨client, hmem⟩ | ⟨l, hl, -⟩ | hedit)
      · cases hmem
      · cases hl
      · cases hedit
  | append_singleton is i ih =>
    -- a prefix of the longer run is the run itself, or a prefix of the shorter one
    have hreach := ih.reachable is (List.prefix_refl is)
    have hreach' : (server p e).Reachable (after qt p s₀ (is ++ [i])).session := by
      rw [after_append]
      exact reachable_step qt hreach i
    have hreachable : ∀ is', is' <+: is ++ [i] →
        (server p e).Reachable (after qt p s₀ is').session := by
      intro is' his
      obtain rfl | his := List.prefix_concat_iff.mp his
      · exact hreach'
      · exact ih.reachable is' his
    refine ⟨hreachable, ?_, ?_⟩
    · intro is' his r hr
      obtain rfl | his := List.prefix_concat_iff.mp his
      · exact ⟨r.2, hr, rfl⟩
      · -- the row was kept up to the last input, and the last input keeps it
        obtain ⟨x, hx, hproduct⟩ := ih.kept is' his r hr
        obtain ⟨n, hn, -⟩ := ((Server.wellFormed hreach).1.stocks _ hx).1
        obtain ⟨y, hy, hsame, -⟩ := row_step qt hreach ih.namesRow i hx hn
        refine ⟨y, ?_, hsame.trans (hn.symm.trans hproduct)⟩
        rw [stocksAfter, after_append]
        exact hy
    · rw [after_append]
      refine holds_step qt p i (fun stock h => (ih.loaded stock h).mono (List.prefix_append _ _))
        ?_ ?_ fun stock h => h.trimmed hreachable
      · -- a list that is sent now has the rows of now
        intro r hr
        exact ⟨is, List.prefix_append _ _, r, hr, rfl, rfl, rfl⟩
      · -- a stock stays loaded from its row whatever its employee becomes
        rintro stock value ⟨is', his, r, hr, hfrom⟩
        exact ⟨is', his, r, hr, hfrom.id, hfrom.productTypeId, hfrom.quantityAvailable⟩

/-- **Receipts and edits of a stock row.** After a run from a reachable state, in which clients
load the stocks and change employees while receipts arrive, a stock row has the quantity that the
last accepted edit of it carries, which it had when it was loaded, plus what the receipts after
that edit have brought of its product; without an accepted edit it has its first quantity plus
what all receipts have brought. -/
theorem stock_after_edits (qt : Qt) (p : Platform) {s₀ : Session (Db e) Exception}
    (hs : (server p e).Reachable s₀) {r : ℕ × InventoryRow}
    (hr : r ∈ (s₀.store .inventory).rows) (is : List Input) :
    ∃ n : ℕ, r.2.productTypeId = .int n ∧
      ∃ x, (r.1, x) ∈ (stocksAfter qt p s₀ is).rows ∧ x.productTypeId = .int n ∧
        ((Unedited r.1 (changes qt p s₀ is) ∧ x.quantityAvailable.toInt =
            r.2.quantityAvailable.toInt + received n (changes qt p s₀ is)) ∨
          ∃ cs stock cs', changes qt p s₀ is = cs ++ .edited stock :: cs' ∧
            stock.id = decimal r.1 ∧ Unedited r.1 cs' ∧
            ∃ is' y, is' <+: is ∧ is'.length ≤ cs.length ∧
              (r.1, y) ∈ (stocksAfter qt p s₀ is').rows ∧
              stock.quantityAvailable = y.quantityAvailable.toText ∧
              x.quantityAvailable.toInt = y.quantityAvailable.toInt + received n cs') := by
  obtain ⟨n, hn, -⟩ := ((Server.wellFormed hs).1.stocks _ hr).1
  refine ⟨n, hn, ?_⟩
  -- by induction on the run, from its end: the last change decides which edit is the last
  induction is using List.reverseRecOn with
  | nil =>
    refine ⟨r.2, hr, hn, Or.inl ⟨fun stock hmem => absurd hmem List.not_mem_nil, ?_⟩⟩
    exact (add_zero _).symm
  | append_singleton is i ih =>
    obtain ⟨x, hx, hproduct, hquantity⟩ := ih
    have hruns : Runs qt p s₀ is := runs hs is
    have hreach := hruns.reachable is (List.prefix_refl is)
    obtain ⟨x', hx', hproduct', hsettle⟩ := row_step qt hreach hruns.namesRow i hx hproduct
    generalize hc : (step qt p (after qt p s₀ is) i).1 = c at hsettle
    have hchanges : changes qt p s₀ (is ++ [i]) = changes qt p s₀ is ++ [c] := by
      rw [changes_append, hc]
    rw [stocksAfter, after_append]
    refine ⟨x', hx', hproduct', ?_⟩
    by_cases hedit : ∃ stock, c = .edited stock ∧ stock.id = decimal r.1
    · -- the edit carries the quantity that the row had when its stock was loaded
      obtain ⟨stock, rfl, hid⟩ := hedit
      obtain ⟨is', y, his, hy, hcarried, hvalue⟩ := hruns.edited (mem_edits_of_step hc) hid
      refine Or.inr ⟨changes qt p s₀ is, stock, [], hchanges, hid,
        fun _ hmem => absurd hmem List.not_mem_nil, is', y,
        his.trans (List.prefix_append _ _), ?_, hy, hcarried, ?_⟩
      · rw [length_changes]
        exact his.length_le
      · rw [hsettle, settle, if_pos hid, hvalue]
        exact (add_zero _).symm
    · -- any other change adds what it brings
      have hne : ∀ stock, c = .edited stock → stock.id ≠ decimal r.1 :=
        fun stock hstock hid => hedit ⟨stock, hstock, hid⟩
      rw [settle_of_ne hne] at hsettle
      rcases hquantity with ⟨hunedited, heq⟩ | ⟨cs, stock, cs', hsplit, hid, hunedited, is', y,
        his, hlength, hy, hcarried, heq⟩
      -- either to the first quantity, or to the one of the last edit
      · refine Or.inl ⟨hchanges ▸ hunedited.append hne, ?_⟩
        rw [hsettle, heq, hchanges, received_append, add_assoc]
      · refine Or.inr ⟨cs, stock, cs' ++ [c], ?_, hid, hunedited.append hne, is', y,
          his.trans (List.prefix_append _ _), hlength, hy, hcarried, ?_⟩
        · rw [hchanges, hsplit, List.append_assoc, List.cons_append]
        · rw [hsettle, heq, received_append, add_assoc]

end Runs

/-! ### A receipt between a load and an edit -/

/-- The initial state after a second employee was added. -/
def twoEmployees : Session (Db .full) Exception :=
  (server .plain .full).run (server .plain .full).init
    [.plain "management" "employees" "POST" "" [("name", "Jane Doe"), ("number", "1"),
      ("email", "jane@example.com"), ("address", "2 Main St")]]

/-- A client loads the stocks and changes the employee of the first row, and in between the first
order, which has a line of one unit, is received. -/
def receiptBeforeEdit : List Input :=
  [.getStocks 0 noon, .stocksList 0, .postReceipt noon [] receiptOfFirstOrder.request.dataset,
    .editEmployee 0 0 (utf8 "2"), .editStock 0 noon []]

/-- The stock row of the initial setup. -/
def firstStock : ℕ × InventoryRow := (1, ⟨.int 1, .int 0, .int 1⟩)

/-- The row has the quantity with which it was loaded; nothing was received since its edit. -/
theorem stock_after_edits_receiptBeforeEdit :
    ∃ n : ℕ, firstStock.2.productTypeId = .int n ∧
      ∃ x, (firstStock.1, x) ∈
          (stocksAfter .plain .plain twoEmployees receiptBeforeEdit).rows ∧
        x.productTypeId = .int n ∧
        ((Unedited firstStock.1 (changes .plain .plain twoEmployees receiptBeforeEdit) ∧
            x.quantityAvailable.toInt = firstStock.2.quantityAvailable.toInt +
              received n (changes .plain .plain twoEmployees receiptBeforeEdit)) ∨
          ∃ cs stock cs', changes .plain .plain twoEmployees receiptBeforeEdit =
              cs ++ .edited stock :: cs' ∧
            stock.id = decimal firstStock.1 ∧ Unedited firstStock.1 cs' ∧
            ∃ is' y, is' <+: receiptBeforeEdit ∧ is'.length ≤ cs.length ∧
              (firstStock.1, y) ∈ (stocksAfter .plain .plain twoEmployees is').rows ∧
              stock.quantityAvailable = y.quantityAvailable.toText ∧
              x.quantityAvailable.toInt = y.quantityAvailable.toInt + received n cs') :=
  stock_after_edits .plain .plain ⟨_, rfl⟩ (by decide +kernel) receiptBeforeEdit

/-- The unit that was received is not in the stock after the edit. -/
theorem receipt_lost :
    ¬ ∀ (qt : Qt) (p : Platform) (s₀ : Session (Db .full) Exception),
      (server p .full).Reachable s₀ → ∀ r ∈ (s₀.store .inventory).rows, ∀ n : ℕ,
        r.2.productTypeId = .int n → ∀ is : List Input,
          ∃ x, (r.1, x) ∈ (stocksAfter qt p s₀ is).rows ∧
            x.quantityAvailable.toInt =
              r.2.quantityAvailable.toInt + received n (changes qt p s₀ is) := by
  intro h
  obtain ⟨x, hx, hquantity⟩ := h .plain .plain twoEmployees ⟨_, rfl⟩ firstStock
    (by decide +kernel) 1 rfl receiptBeforeEdit
  have hrows : ∀ r ∈ (stocksAfter .plain .plain twoEmployees receiptBeforeEdit).rows,
      r.2.quantityAvailable.toInt = 0 := by decide +kernel
  have hreceived : received 1 (changes .plain .plain twoEmployees receiptBeforeEdit) = 1 := by
    decide +kernel
  rw [hrows _ hx, hreceived] at hquantity
  exact absurd hquantity (by decide)

end Stocks

end SageStore
