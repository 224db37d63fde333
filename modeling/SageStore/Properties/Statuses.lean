import SageStore.Client.Statuses
import SageStore.Properties.Figures
import SageStore.Properties.PurchaseOrders

/-!
# Statuses on the two sides

The server and the views normalise statuses by functions of their own. The purchase statuses
that the server stores are read the same by all of them, so the figures about purchase orders
count the receipts (`purchase_statuses_agree`).

A sales order is stored with any status. The server compares it letter by letter and takes
`Issued` for `Invoiced`; the views ignore the case of letters, trim the white space of Unicode,
and do not know `Issued`. So the two sides class an order alike exactly if its status is spelled
in a way they share, or in one that neither knows (`sales_classes_agree_iff`).
-/

namespace SageStore

open Bytes Program BusinessLogic

variable {e : Enforcement} {qt : Qt}

/-- The rule's own name for its status, or the translation of it. -/
def StatusRule.Spells (rule : StatusRule) (t : Bytes) : Prop :=
  t = utf8 rule.status ∨ t = utf8 rule.translation

instance (rule : StatusRule) (t : Bytes) : Decidable (rule.Spells t) :=
  inferInstanceAs (Decidable (_ ∨ _))

/-! ### Sales orders -/

/-- The classes of sales orders that are counted, and the rest. -/
inductive SalesClass where
  | draft
  | confirmed
  | invoiced
  | other
deriving DecidableEq

/-- The class of an order with a normalised status. -/
def salesClass (normalized : Bytes) : SalesClass :=
  if normalized = utf8 "Draft" then .draft
  else if normalized = utf8 "Confirmed" then .confirmed
  else if normalized = utf8 "Invoiced" then .invoiced
  else .other

theorem salesClass_eq_draft {t : Bytes} : salesClass t = .draft ↔ t = utf8 "Draft" := by
  unfold salesClass
  split_ifs with h1 h2 h3 <;> simp [h1]

theorem salesClass_eq_confirmed {t : Bytes} : salesClass t = .confirmed ↔ t = utf8 "Confirmed" := by
  unfold salesClass
  split_ifs with h1 h2 h3
  · exact iff_of_false (by decide) (h1 ▸ by decide)
  all_goals simp [h2]

theorem salesClass_eq_invoiced {t : Bytes} : salesClass t = .invoiced ↔ t = utf8 "Invoiced" := by
  unfold salesClass
  split_ifs with h1 h2 h3
  · exact iff_of_false (by decide) (h1 ▸ by decide)
  · exact iff_of_false (by decide) (h2 ▸ by decide)
  all_goals simp [h3]

/-- The key under which the server reports how many orders a class has. -/
def SalesClass.counter : SalesClass → Option String
  | .draft => some "draftOrders"
  | .confirmed => some "confirmedOrders"
  | .invoiced => some "invoicedOrders"
  | .other => none

/-- How many of some orders a side puts into a class. -/
def countClass (normalize : Bytes → Bytes) (c : SalesClass) (orders : List SaleOrder) : ℕ :=
  orders.countP fun order => salesClass (normalize order.status) = c

/-- The rules of the views for sales statuses. -/
def salesRules : List StatusRule := [.draft, .confirmed, .invoiced]

/-- A status both sides know, or neither: it is not `Issued`, and if a view recognises it, it is
spelled as the server spells it, with nothing but ASCII white space around it. -/
def SpelledAlike (qt : Qt) (status : Bytes) : Prop :=
  trim status ≠ utf8 "Issued" ∧
    ((∃ rule ∈ salesRules, rule.Recognizes qt (qt.trimmed status)) →
      ∃ rule ∈ salesRules, rule.Spells (trim status))

/-- A spelling of a status is normalized to the status. -/
theorem normalizeSalesStatus_of_spells {rule : StatusRule} (hrule : rule ∈ salesRules)
    {status : Bytes} (h : rule.Spells (trim status)) :
    AnalyticsModule.normalizeSalesStatus status = utf8 rule.status := by
  simp only [salesRules, List.mem_cons, List.not_mem_nil, or_false] at hrule
  unfold AnalyticsModule.normalizeSalesStatus AnalyticsModule.trimValue
  rcases hrule with rfl | rfl | rfl <;> rcases h with h | h <;> rw [h] <;> decide

/-- Any other text is kept, trimmed. -/
theorem normalizeSalesStatus_of_not {status : Bytes}
    (h : ¬ ∃ rule ∈ salesRules, rule.Spells (trim status)) (hissued : trim status ≠ utf8 "Issued") :
    AnalyticsModule.normalizeSalesStatus status = trim status := by
  have hno (rule : StatusRule) (hrule : rule ∈ salesRules) : ¬ rule.Spells (trim status) :=
    fun hspells => h ⟨rule, hrule, hspells⟩
  have hdraft := not_or.mp (hno .draft (by decide))
  have hconfirmed := not_or.mp (hno .confirmed (by decide))
  have hinvoiced := not_or.mp (hno .invoiced (by decide))
  refine (if_neg (not_or.mpr hdraft)).trans ((if_neg (not_or.mpr hconfirmed)).trans ?_)
  exact if_neg (not_or.mpr ⟨hinvoiced.1, not_or.mpr ⟨hissued, hinvoiced.2⟩⟩)

/-- A text that no rule spells is in none of the classes. -/
theorem salesClass_other {t : Bytes} (h : ¬ ∃ rule ∈ salesRules, rule.Spells t) :
    salesClass t = .other := by
  have hno (rule : StatusRule) (hrule : rule ∈ salesRules) : t ≠ utf8 rule.status :=
    fun heq => h ⟨rule, hrule, Or.inl heq⟩
  refine (if_neg (hno .draft (by decide))).trans ?_
  exact (if_neg (hno .confirmed (by decide))).trans (if_neg (hno .invoiced (by decide)))

/-- The server counts `Issued` with the invoiced orders. -/
theorem normalizeSalesStatus_issued {status : Bytes} (h : trim status = utf8 "Issued") :
    AnalyticsModule.normalizeSalesStatus status = utf8 "Invoiced" := by
  unfold AnalyticsModule.normalizeSalesStatus AnalyticsModule.trimValue
  rw [h]
  decide

/-- The views do not know `Issued`. -/
theorem not_recognizes_issued (hqt : qt.Documented) {rule : StatusRule}
    (hrule : rule ∈ salesRules) : ¬ rule.Recognizes qt (utf8 "Issued") := by
  rintro (⟨name, hname, hsame⟩ | hsame)
  · rw [hqt.equalsIgnoringCase_iff _ _ (disjoint_salesRules.plain rule hrule name hname)] at hsame
    exact absurd hsame ((by decide : ∀ rule ∈ salesRules, ∀ name ∈ rule.names,
      (utf8 "Issued").map toLower ≠ (utf8 name).map toLower) rule hrule name hname)
  · exact absurd hsame ((by decide : ∀ rule ∈ salesRules,
      utf8 "Issued" ≠ utf8 rule.translation) rule hrule)

/-- A text that the server spells a status with is recognised by the views. -/
theorem StatusRule.Spells.recognizes {rules : List StatusRule}
    (hdisjoint : StatusRule.Disjoint rules) (hqt : qt.Documented) {rule : StatusRule}
    (hrule : rule ∈ rules) (hname : rule.status ∈ rule.names) {t : Bytes} (h : rule.Spells t) :
    rule.Recognizes qt t := by
  rcases h with rfl | rfl
  · exact Or.inl ⟨_, hname,
      (hqt.equalsIgnoringCase_iff _ _ (hdisjoint.plain rule hrule _ hname)).mpr rfl⟩
  · exact Or.inr rfl

/-- A spelling of the server, with ASCII white space around it, is recognised by the views. -/
theorem StatusRule.Spells.recognizes_trimmed {rules : List StatusRule}
    (hdisjoint : StatusRule.Disjoint rules) (hqt : qt.Documented) {rule : StatusRule}
    (hrule : rule ∈ rules) (hname : rule.status ∈ rule.names)
    (htight : Qt.IsTight rule.status.toList ∧ Qt.IsTight rule.translation.toList)
    {status : Bytes} (h : rule.Spells (trim status)) :
    rule.Recognizes qt (qt.trimmed status) := by
  refine Spells.recognizes hdisjoint hqt hrule hname ?_
  rcases h with h | h
  · exact Or.inl (hqt.trimmed_of_trim h htight.1)
  · exact Or.inr (hqt.trimmed_of_trim h htight.2)

/-- **The classes of one status.** -/
theorem salesClass_eq_iff (hqt : qt.Documented) (status : Bytes) :
    salesClass (AnalyticsModule.normalizeSalesStatus status) =
      salesClass (SalesView.canonicalSalesStatus qt status) ↔ SpelledAlike qt status := by
  have hclass : ∀ rule ∈ salesRules, salesClass (utf8 rule.status) ≠ .other := by decide
  have hissued : ¬ ∃ rule ∈ salesRules, rule.Spells (utf8 "Issued") := by decide
  have hnames : ∀ rule ∈ salesRules, rule.status ∈ rule.names := by decide
  by_cases hspells : ∃ rule ∈ salesRules, rule.Spells (trim status)
  · -- both sides know the spelling
    obtain ⟨rule, hrule, hspelled⟩ := hspells
    have hrecognized : rule.Recognizes qt (qt.trimmed status) :=
      hspelled.recognizes_trimmed disjoint_salesRules hqt hrule
        (hnames rule hrule)
        ((by decide : ∀ rule ∈ salesRules, Qt.IsTight rule.status.toList ∧
          Qt.IsTight rule.translation.toList) rule hrule)
    rw [normalizeSalesStatus_of_spells hrule hspelled, SalesView.canonicalSalesStatus,
      canonicalBy_eq disjoint_salesRules hqt hrule hrecognized]
    exact iff_of_true rfl ⟨fun heq => hissued ⟨rule, hrule, heq ▸ hspelled⟩,
      fun _ => ⟨rule, hrule, hspelled⟩⟩
  by_cases hknown : ∃ rule ∈ salesRules, rule.Recognizes qt (qt.trimmed status)
  · -- only the views know it, unless it is `Issued`, which they do not
    obtain ⟨rule, hrule, hrecognized⟩ := hknown
    have hview : SalesView.canonicalSalesStatus qt status = utf8 rule.status :=
      canonicalBy_eq disjoint_salesRules hqt hrule hrecognized
    have hne : trim status ≠ utf8 "Issued" := by
      intro heq
      rw [hqt.trimmed_of_trim heq (by decide)] at hrecognized
      exact not_recognizes_issued hqt hrule hrecognized
    rw [normalizeSalesStatus_of_not hspells hne, salesClass_other hspells, hview]
    exact iff_of_false (hclass rule hrule).symm fun h => hspells (h.2 ⟨rule, hrule, hrecognized⟩)
  · -- the views do not know it
    have hview : SalesView.canonicalSalesStatus qt status = qt.trimmed status :=
      canonicalBy_of_not fun rule hrule hrecognized => hknown ⟨rule, hrule, hrecognized⟩
    have hother : salesClass (qt.trimmed status) = .other := by
      refine salesClass_other fun ⟨rule, hrule, hspelled⟩ => hknown ⟨rule, hrule, ?_⟩
      exact hspelled.recognizes disjoint_salesRules hqt hrule (hnames rule hrule)
    rw [hview, hother]
    by_cases heq : trim status = utf8 "Issued"
    · rw [normalizeSalesStatus_issued heq]
      exact iff_of_false (by decide) fun h => h.1 heq
    · rw [normalizeSalesStatus_of_not hspells heq, salesClass_other hspells]
      exact iff_of_true rfl ⟨heq, fun hrecognized => absurd hrecognized hknown⟩

/-- The orders of a database, as they are read back. -/
def saleOrders (d : Db e) : List SaleOrder :=
  (d .saleOrder).rows.map fun r => saleOrderRepository.fromCurrentRow r.1 r.2

/-- What the server reports about a class of orders. -/
theorem column_salesAnalytics (p : Platform) (now : UtcTime) {req : RequestData}
    (hreq : req.AsksFor "sales") (d : Db e) (snap : Option (Db e)) {c : SalesClass} {key : String}
    (hkey : c.counter = some key) :
    column (executeTask p now req ⟨d, snap, []⟩).1.dataset key =
      [decimal (countClass AnalyticsModule.normalizeSalesStatus c (saleOrders d))] := by
  obtain ⟨module, submodule, method, resourceId, dataset⟩ := req
  obtain ⟨rfl, rfl, rfl⟩ :
    module = utf8 "analytics" ∧ submodule = utf8 "sales" ∧ method = utf8 "GET" := hreq
  unfold countClass
  cases c with
  | draft =>
    obtain rfl : "draftOrders" = key := Option.some.inj hkey
    simp only [salesClass_eq_draft]
    exact column_record (by dsimp only [List.map]; decide) (List.mem_of_getElem? (i := 8) rfl)
  | confirmed =>
    obtain rfl : "confirmedOrders" = key := Option.some.inj hkey
    simp only [salesClass_eq_confirmed]
    exact column_record (by dsimp only [List.map]; decide) (List.mem_of_getElem? (i := 9) rfl)
  | invoiced =>
    obtain rfl : "invoicedOrders" = key := Option.some.inj hkey
    simp only [salesClass_eq_invoiced]
    exact column_record (by dsimp only [List.map]; decide) (List.mem_of_getElem? (i := 10) rfl)
  | other => cases hkey

/-- **Classes of sales orders.** The two views class every status alike. The server and the views
do so exactly if the status is spelled alike; so where all stored statuses are, the figures of
the server are those of the views. -/
theorem sales_classes_agree_iff (hqt : qt.Documented) :
    (∀ status, salesClass (SalesView.canonicalSalesStatus qt status) =
        salesClass (AnalyticsView.canonicalSalesStatus qt status) ∧
      (salesClass (AnalyticsModule.normalizeSalesStatus status) =
        salesClass (SalesView.canonicalSalesStatus qt status) ↔ SpelledAlike qt status)) ∧
    ∀ (p : Platform) (now : UtcTime) (req : RequestData), req.AsksFor "sales" →
      ∀ (d : Db e) (snap : Option (Db e)),
      (∀ r ∈ (d .saleOrder).rows, SpelledAlike qt r.2.status) →
        ∀ c key, SalesClass.counter c = some key →
          column (executeTask p now req ⟨d, snap, []⟩).1.dataset key =
              [decimal (countClass (SalesView.canonicalSalesStatus qt) c (saleOrders d))] ∧
            column (executeTask p now req ⟨d, snap, []⟩).1.dataset key =
              [decimal (countClass (AnalyticsView.canonicalSalesStatus qt) c (saleOrders d))] := by
  have hviews (status : Bytes) := AnalyticsView.canonicalSalesStatus_eq hqt status
  refine ⟨fun status => ⟨by rw [hviews], salesClass_eq_iff hqt status⟩, ?_⟩
  intro p now req hreq d snap hspelled c key hkey
  -- the two sides count order by order, and each order has a stored status
  have hcount : countClass AnalyticsModule.normalizeSalesStatus c (saleOrders d) =
      countClass (SalesView.canonicalSalesStatus qt) c (saleOrders d) := by
    refine List.countP_congr fun order horder => ?_
    obtain ⟨r, hr, rfl⟩ := List.mem_map.mp horder
    have hclass := (salesClass_eq_iff hqt _).mpr (hspelled r hr)
    change decide (salesClass (AnalyticsModule.normalizeSalesStatus r.2.status) = c) = true ↔
      decide (salesClass (SalesView.canonicalSalesStatus qt r.2.status) = c) = true
    rw [hclass]
  rw [column_salesAnalytics p now hreq d snap hkey, hcount]
  rw [show AnalyticsView.canonicalSalesStatus qt = SalesView.canonicalSalesStatus qt from
    funext hviews]
  exact ⟨rfl, rfl⟩

/-- The request for the figures about sales. -/
def salesAnalyticsRequest : RequestData :=
  ⟨utf8 "analytics", utf8 "sales", utf8 "GET", [], ∅⟩

/-- The fields of a sales order with this status. -/
def salesOrder (status : String) : List (String × String) :=
  [("date", "2024-02-19"), ("userId", "1"), ("contactId", "1"), ("employeeId", "1"),
    ("status", status)]

/-- The state with four orders, of each class that is counted. -/
def classedOrders : Session (Db .full) Exception :=
  (server .plain .full).run (server .plain .full).init
    [.plain "sales" "orders" "PUT" "1" (salesOrder "Invoiced"),
      .plain "sales" "orders" "POST" "" (salesOrder "Чернетка"),
      .plain "sales" "orders" "POST" "" (salesOrder "Confirmed"),
      .plain "sales" "orders" "POST" "" (salesOrder "Invoiced")]

/-- A draft is one on both sides under its Ukrainian name, and both count two invoiced orders. -/
theorem sales_classes_agree_iff_classed :
    (salesClass (AnalyticsModule.normalizeSalesStatus (utf8 "Чернетка")) =
      salesClass (SalesView.canonicalSalesStatus .plain (utf8 "Чернетка")) ↔
        SpelledAlike .plain (utf8 "Чернетка")) ∧
    column (executeTask .plain noon salesAnalyticsRequest ⟨classedOrders.store, none, []⟩).1.dataset
      "invoicedOrders" =
        [decimal (countClass (SalesView.canonicalSalesStatus .plain) .invoiced
          (saleOrders classedOrders.store))] ∧
    countClass (SalesView.canonicalSalesStatus .plain) .invoiced (saleOrders classedOrders.store) =
      2 := by
  have h := sales_classes_agree_iff (e := .full) Qt.plain_documented
  have hspelled : ∀ r ∈ (classedOrders.store .saleOrder).rows, SpelledAlike .plain r.2.status := by
    have hstatus : ∀ r ∈ (classedOrders.store .saleOrder).rows,
        r.2.status ∈ [utf8 "Invoiced", utf8 "Чернетка", utf8 "Confirmed"] := by decide +kernel
    intro r hr
    have hmem := hstatus r hr
    generalize r.2.status = status at hmem
    simp only [List.mem_cons, List.not_mem_nil, or_false] at hmem
    rcases hmem with rfl | rfl | rfl
    all_goals constructor <;> decide +kernel
  exact ⟨(h.1 _).2,
    (h.2 .plain noon salesAnalyticsRequest ⟨rfl, rfl, rfl⟩ _ none hspelled .invoiced _ rfl).1,
    by decide +kernel⟩

/-- The state in which the order of the initial setup is `Issued`. -/
def orderIssued : Session (Db .full) Exception :=
  (server .plain .full).run (server .plain .full).init
    [.plain "sales" "orders" "PUT" "1" [("date", "2024-02-19"), ("userId", "1"),
      ("contactId", "1"), ("employeeId", "1"), ("status", "Issued")]]

/-- The server counts that order as invoiced, and the views do not. -/
theorem issued_not_alike :
    (server .plain .full).Reachable orderIssued ∧
      salesClass (AnalyticsModule.normalizeSalesStatus (utf8 "Issued")) = .invoiced ∧
      salesClass (SalesView.canonicalSalesStatus .plain (utf8 "Issued")) = .other ∧
      column (executeTask .plain noon salesAnalyticsRequest orderIssued).1.dataset
        "invoicedOrders" = [utf8 "1"] ∧
      countClass (SalesView.canonicalSalesStatus .plain) .invoiced
        (saleOrders orderIssued.store) = 0 :=
  ⟨⟨_, rfl⟩, by decide, by decide, by decide +kernel, by decide +kernel⟩

/-! ### Purchase orders -/

/-- The rules of the views for purchase statuses. -/
def purchaseRules : List StatusRule := [.draft, .ordered, .received]

/-- A status that the server accepts is spelled as one of the statuses, or is `Pending`, which
is `Ordered`. -/
theorem normalizeOrderStatus_cases {status c : Bytes}
    (h : PurchaseModule.normalizeOrderStatus status = .ok c) :
    ∃ rule ∈ purchaseRules, c = utf8 rule.status ∧
      (rule.Spells (trim status) ∨ rule = .ordered ∧ trim status = utf8 "Pending") := by
  unfold PurchaseModule.normalizeOrderStatus PurchaseModule.trimStatus at h
  dsimp only at h
  split at h
  · next hdraft =>
    exact ⟨.draft, by decide, (Except.ok.inj h).symm, Or.inl hdraft⟩
  split at h
  · next hordered =>
    refine ⟨.ordered, by decide, (Except.ok.inj h).symm, ?_⟩
    rcases hordered with heq | heq | heq
    · exact Or.inl (Or.inl heq)
    · exact Or.inr ⟨rfl, heq⟩
    · exact Or.inl (Or.inr heq)
  split at h
  · next hreceived =>
    exact ⟨.received, by decide, (Except.ok.inj h).symm, Or.inl hreceived⟩
  · cases h

/-- What the server accepts as a status, its figures and the views read as that status. -/
theorem purchaseStatus_eq (hqt : qt.Documented) {status c : Bytes}
    (h : PurchaseModule.normalizeOrderStatus status = .ok c) :
    AnalyticsModule.normalizePurchaseStatus status = c ∧
      PurchaseView.canonicalStatus qt status = c ∧
        AnalyticsView.canonicalPurchaseStatus qt status = c := by
  obtain ⟨rule, hrule, rfl, hspelled⟩ := normalizeOrderStatus_cases h
  have hrecognized : rule.Recognizes qt (qt.trimmed status) := by
    rcases hspelled with hspelled | ⟨rfl, hpending⟩
    · exact hspelled.recognizes_trimmed disjoint_purchaseRules hqt hrule
        ((by decide : ∀ rule ∈ purchaseRules, rule.status ∈ rule.names) rule hrule)
        ((by decide : ∀ rule ∈ purchaseRules, Qt.IsTight rule.status.toList ∧
          Qt.IsTight rule.translation.toList) rule hrule)
    · -- `Pending` is a name of `Ordered` for the views too
      rw [hqt.trimmed_of_trim hpending (by decide)]
      exact Or.inl ⟨"Pending", by decide, (hqt.equalsIgnoringCase_iff _ _ (by decide)).mpr rfl⟩
  have hview : PurchaseView.canonicalStatus qt status = utf8 rule.status :=
    canonicalBy_eq disjoint_purchaseRules hqt hrule hrecognized
  refine ⟨?_, hview, (AnalyticsView.canonicalPurchaseStatus_eq hqt status).trans hview⟩
  -- the figures of the server use a chain of their own, with the same spellings
  unfold AnalyticsModule.normalizePurchaseStatus AnalyticsModule.trimValue
  simp only [purchaseRules, List.mem_cons, List.not_mem_nil, or_false] at hrule
  rcases hspelled with hspelled | ⟨rfl, hpending⟩
  · rcases hrule with rfl | rfl | rfl <;> rcases hspelled with heq | heq <;> rw [heq] <;> decide
  · rw [hpending]
    decide

/-- The orders that were received in a history, by their keys. -/
def receivedOrders (p : Platform) (h : List (Event × ResponseData)) : List Cell :=
  (h.filter fun x => x.1.request.PostsReceipt ∧ utf8 "error" ∉ x.2.dataset).map fun x =>
    p.cell (getOptionalDatasetValue x.1.request.dataset "id")

/-- The received orders are those of the receipts in the history. -/
theorem mem_receivedOrders {p : Platform} {h : List (Event × ResponseData)} {order : Cell} :
    order ∈ receivedOrders p h ↔ ∃ x ∈ h, IsReceiptOf p order x := by
  unfold receivedOrders IsReceiptOf
  simp only [List.mem_map, List.mem_filter, decide_eq_true_eq]
  constructor
  · rintro ⟨x, ⟨hx, hpost, hreply⟩, hkey⟩
    exact ⟨x, hx, hpost, hkey, hreply⟩
  · rintro ⟨x, hx, hpost, hkey, hreply⟩
    exact ⟨x, ⟨hx, hpost, hreply⟩, hkey⟩

/-- A receipt has succeeded on the orders that are received, and on no others. -/
theorem mem_receivedOrders_run {p : Platform} {evs : List Event} {order : Cell} :
    order ∈ receivedOrders p ((server p .full).history (server p .full).init evs) ↔
      IsReceived ((server p .full).run (server p .full).init evs).store order := by
  have hcount := countP_receipts (p := p) (e := .full) evs order
  rw [mem_receivedOrders]
  constructor
  · rintro ⟨x, hx, hreceipt⟩
    by_contra hnot
    rw [if_neg hnot, List.countP_eq_zero] at hcount
    exact hcount x hx (decide_eq_true hreceipt)
  · intro hreceived
    rw [if_pos hreceived] at hcount
    obtain ⟨x, hx, hreceipt⟩ := List.countP_pos_iff.mp (hcount ▸ Nat.one_pos)
    exact ⟨x, hx, of_decide_eq_true hreceipt⟩

/-- What the server reports about purchase orders. -/
theorem column_inventoryAnalytics (p : Platform) (now : UtcTime) {req : RequestData}
    (hreq : req.AsksFor "inventory") (d : Db e) (snap : Option (Db e)) {received : ℕ}
    (hreceived : (d .purchaseOrder).rows.countP (fun o =>
      AnalyticsModule.normalizePurchaseStatus o.2.status = utf8 "Received") = received) :
    column (executeTask p now req ⟨d, snap, []⟩).1.dataset "receivedPurchaseOrders" =
        [decimal received] ∧
      column (executeTask p now req ⟨d, snap, []⟩).1.dataset "openPurchaseOrders" =
        [decimal ((d .purchaseOrder).rows.length - received)] := by
  obtain ⟨module, submodule, method, resourceId, dataset⟩ := req
  obtain ⟨rfl, rfl, rfl⟩ :
    module = utf8 "analytics" ∧ submodule = utf8 "inventory" ∧ method = utf8 "GET" := hreq
  -- the code subtracts signed numbers, and the difference is not negative
  have hle : received ≤ (d .purchaseOrder).rows.length := hreceived ▸ List.countP_le_length
  have hcount : ((d .purchaseOrder).rows.map fun r =>
      purchaseOrderRepository.fromCurrentRow r.1 r.2).countP (fun x =>
        AnalyticsModule.normalizePurchaseStatus x.status = utf8 "Received") = received :=
    List.countP_map.trans hreceived
  have hopen : ofInt (((d .purchaseOrder).rows.map fun r =>
      purchaseOrderRepository.fromCurrentRow r.1 r.2).length - (received : ℤ)) =
        decimal ((d .purchaseOrder).rows.length - received) := by
    rw [List.length_map, ← Nat.cast_sub hle, ofInt_natCast]
  constructor
  · rw [← hcount]
    exact column_record (by dsimp only [List.map]; decide) (List.mem_of_getElem? (i := 7) rfl)
  · rw [← hopen, ← hcount]
    exact column_record (by dsimp only [List.map]; decide) (List.mem_of_getElem? (i := 6) rfl)

/-- **The receipts are counted.** The orders that the server's figures take for received are
those on which a receipt has succeeded. -/
theorem countP_received (p : Platform) (evs : List Event) :
    (((server p .full).run (server p .full).init evs).store .purchaseOrder).rows.countP (fun o =>
        AnalyticsModule.normalizePurchaseStatus o.2.status = utf8 "Received") =
      (receivedOrders p ((server p .full).history (server p .full).init evs)).dedup.length := by
  set d := ((server p .full).run (server p .full).init evs).store with hd
  have hknown : StatusesKnown d := Server.statusesKnown ⟨evs, rfl⟩
  have hstatus : ∀ o ∈ (d .purchaseOrder).rows,
      AnalyticsModule.normalizePurchaseStatus o.2.status = o.2.status := fun o ho =>
    (purchaseStatus_eq Qt.plain_documented
      (PurchaseModule.normalizeOrderStatus_self (hknown o ho))).1
  -- the keys of the received orders, against those of the receipts
  let keys : List Cell :=
    ((d .purchaseOrder).rows.filter fun o => o.2.status = utf8 "Received").map fun o => .int o.1
  have hcount : (d .purchaseOrder).rows.countP (fun o =>
      AnalyticsModule.normalizePurchaseStatus o.2.status = utf8 "Received") = keys.length := by
    rw [List.length_map, ← List.countP_eq_length_filter]
    exact List.countP_congr fun o ho => by rw [hstatus o ho]
  have hmem (order : Cell) : order ∈ keys ↔ IsReceived d order := by
    simp only [keys, List.mem_map, List.mem_filter, decide_eq_true_eq, IsReceived]
    constructor
    · rintro ⟨o, ⟨ho, hst⟩, hkey⟩
      exact ⟨o, ho, hkey, hst⟩
    · rintro ⟨o, ho, hkey, hst⟩
      exact ⟨o, ⟨ho, hst⟩, hkey⟩
  have hnodup : keys.Nodup := by
    have hsub := (List.filter_sublist (l := (d .purchaseOrder).rows)
      (p := fun o => o.2.status = utf8 "Received")).map Prod.fst
    have hinj : Function.Injective fun i : ℕ => Cell.int i := fun i j h =>
      Int.ofNat.inj (Cell.int.inj h)
    have hkeys := List.Nodup.map hinj (((d .purchaseOrder).sorted.sublist hsub).imp Nat.ne_of_lt)
    rwa [List.map_map] at hkeys
  rw [hcount]
  refine List.Perm.length_eq ((List.perm_ext_iff_of_nodup hnodup (List.nodup_dedup _)).mpr ?_)
  exact fun order => by rw [hmem, List.mem_dedup, mem_receivedOrders_run]

/-- **Purchase statuses.** What the server accepts as a status is read as the same status by its
figures and by both views, and all of them leave that status alone. So after every run the
figures report as received the orders on which a receipt has succeeded, and all other orders as
open. -/
theorem purchase_statuses_agree (hqt : qt.Documented) :
    (∀ status c, PurchaseModule.normalizeOrderStatus status = .ok c →
      (AnalyticsModule.normalizePurchaseStatus status = c ∧
        PurchaseView.canonicalStatus qt status = c ∧
          AnalyticsView.canonicalPurchaseStatus qt status = c) ∧
      PurchaseModule.normalizeOrderStatus c = .ok c ∧
        AnalyticsModule.normalizePurchaseStatus c = c ∧
          PurchaseView.canonicalStatus qt c = c ∧
            AnalyticsView.canonicalPurchaseStatus qt c = c) ∧
    ∀ (p : Platform) (evs : List Event) (now : UtcTime) (req : RequestData),
      req.AsksFor "inventory" →
        let M := server p .full
        let figures := (M.step (M.run M.init evs) ⟨now, req, []⟩).1.dataset
        ∃ received open' : ℕ,
          column figures "receivedPurchaseOrders" = [decimal received] ∧
          column figures "openPurchaseOrders" = [decimal open'] ∧
          received = (receivedOrders p (M.history M.init evs)).dedup.length ∧
          open' + received = ((M.run M.init evs).store .purchaseOrder).rows.length := by
  refine ⟨fun status c h => ?_, fun p evs now req hreq => ?_⟩
  · -- what the server makes of a status is one of the three it stores
    have hself : PurchaseModule.normalizeOrderStatus c = .ok c := by
      obtain ⟨rule, hrule, rfl, -⟩ := normalizeOrderStatus_cases h
      exact (by decide : ∀ rule ∈ purchaseRules,
        PurchaseModule.normalizeOrderStatus (utf8 rule.status) = .ok (utf8 rule.status)) rule hrule
    exact ⟨purchaseStatus_eq hqt h, hself, purchaseStatus_eq hqt hself⟩
  · -- the orders that are counted as received are those of the receipts in the history
    intro M figures
    have hfigures := column_inventoryAnalytics p now hreq (M.run M.init evs).store
      (M.run M.init evs).snapshot (countP_received p evs)
    refine ⟨_, _, hfigures.1, hfigures.2, rfl, Nat.sub_add_cancel ?_⟩
    exact countP_received p evs ▸ List.countP_le_length

/-- Spaces, letter case and the synonym of `Ordered`; and after the receipt of the one order of
the initial setup, that order is counted as received. -/
theorem purchase_statuses_agree_firstOrder :
    (PurchaseModule.normalizeOrderStatus (utf8 " Pending\n") = .ok (utf8 "Ordered") ∧
      PurchaseView.canonicalStatus .plain (utf8 " Pending\n") = utf8 "Ordered") ∧
    ∃ received open' : ℕ,
      column ((server .plain .full).step firstOrderReceived
        ⟨noon, inventoryAnalyticsRequest, []⟩).1.dataset "receivedPurchaseOrders" =
          [decimal received] ∧
      column ((server .plain .full).step firstOrderReceived
        ⟨noon, inventoryAnalyticsRequest, []⟩).1.dataset "openPurchaseOrders" = [decimal open'] ∧
      received = (receivedOrders .plain ((server .plain .full).history (server .plain .full).init
        [receiptOfFirstOrder])).dedup.length ∧
      open' + received = (firstOrderReceived.store .purchaseOrder).rows.length := by
  have h := purchase_statuses_agree Qt.plain_documented
  have hpending : PurchaseModule.normalizeOrderStatus (utf8 " Pending\n") =
      .ok (utf8 "Ordered") := by decide
  refine ⟨⟨hpending, (h.1 _ _ hpending).1.2.1⟩, ?_⟩
  unfold firstOrderReceived
  exact h.2 .plain [receiptOfFirstOrder] noon inventoryAnalyticsRequest ⟨rfl, rfl, rfl⟩

end SageStore
