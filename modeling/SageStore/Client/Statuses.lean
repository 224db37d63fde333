import SageStore.Client.Qt

/-!
# Statuses in the views

The views show the status of an order under a canonical name. Each file of the client has its
own normaliser: a list of rules, tried in order, each of which recognises some English names in
any letter case and one Ukrainian name. A status that no rule recognises is left as it is, but
for the white space around it.
-/

namespace SageStore

open Bytes

/-- The canonical status a rule gives, the names it recognises in any letter case, and the
translation it recognises. -/
structure StatusRule where
  status : String
  names : List String
  translation : String
deriving DecidableEq

/-- The rule recognises a text without white space around it. -/
def StatusRule.Recognizes (qt : Qt) (rule : StatusRule) (normalized : Bytes) : Prop :=
  (∃ name ∈ rule.names, qt.equalsIgnoringCase normalized (utf8 name) = true) ∨
    normalized = utf8 rule.translation

instance (qt : Qt) (rule : StatusRule) (normalized : Bytes) :
    Decidable (rule.Recognizes qt normalized) :=
  inferInstanceAs (Decidable (_ ∨ _))

/-- The status that the first rule to recognise a text gives it. -/
def canonicalBy (qt : Qt) (rules : List StatusRule) (status : Bytes) : Bytes :=
  let normalized := qt.trimmed status
  match rules.find? fun rule => rule.Recognizes qt normalized with
  | some rule => utf8 rule.status
  | none => normalized

namespace StatusRule

def draft : StatusRule := ⟨"Draft", ["Draft"], "Чернетка"⟩
def confirmed : StatusRule := ⟨"Confirmed", ["Confirmed"], "Підтверджено"⟩
def invoiced : StatusRule := ⟨"Invoiced", ["Invoiced"], "Виставлено рахунок"⟩
def ordered : StatusRule := ⟨"Ordered", ["Ordered", "Pending"], "Замовлено"⟩
def received : StatusRule := ⟨"Received", ["Received"], "Отримано"⟩

end StatusRule

namespace SalesView

def canonicalSalesStatus (qt : Qt) : Bytes → Bytes :=
  canonicalBy qt [.draft, .confirmed, .invoiced]

end SalesView

namespace PurchaseView

def canonicalStatus (qt : Qt) : Bytes → Bytes :=
  canonicalBy qt [.draft, .ordered, .received]

end PurchaseView

namespace AnalyticsView

def canonicalSalesStatus (qt : Qt) : Bytes → Bytes :=
  canonicalBy qt [.invoiced, .confirmed, .draft]

def canonicalPurchaseStatus (qt : Qt) : Bytes → Bytes :=
  canonicalBy qt [.received, .ordered, .draft]

end AnalyticsView

/-! ### At most one rule recognises a text -/

section

variable {qt : Qt} {rules : List StatusRule} {rule : StatusRule} {status : Bytes}

/-- The names of a rule as they are compared, in lower case. -/
def StatusRule.lowerNames (rule : StatusRule) : List Bytes :=
  rule.names.map fun name => (utf8 name).map toLower

/-- Rules that can be told apart: the case of no name is ambiguous, and no name or translation
is one of another rule. -/
structure StatusRule.Disjoint (rules : List StatusRule) : Prop where
  plain : ∀ rule ∈ rules, ∀ name ∈ rule.names, (utf8 name).all Qt.isPlainLetter = true
  names : ∀ rule ∈ rules, ∀ rule' ∈ rules,
    (∃ name ∈ rule.lowerNames, name ∈ rule'.lowerNames) → rule = rule'
  mixed : ∀ rule ∈ rules, ∀ rule' ∈ rules,
    (utf8 rule.translation).map toLower ∈ rule'.lowerNames → rule = rule'
  translations : ∀ rule ∈ rules, ∀ rule' ∈ rules,
    utf8 rule.translation = utf8 rule'.translation → rule = rule'

/-- At most one of disjoint rules recognizes a text. -/
theorem StatusRule.Disjoint.eq_of_recognizes (h : StatusRule.Disjoint rules)
    (hqt : qt.Documented) {rule rule' : StatusRule} (hrule : rule ∈ rules)
    (hrule' : rule' ∈ rules) {t : Bytes} (ht : rule.Recognizes qt t)
    (ht' : rule'.Recognizes qt t) : rule = rule' := by
  -- a name that is recognised is the text in lower case
  have hlower {rule : StatusRule} (hrule : rule ∈ rules)
      (hname : ∃ name ∈ rule.names, qt.equalsIgnoringCase t (utf8 name) = true) :
      t.map toLower ∈ rule.lowerNames := by
    obtain ⟨name, hname, heq⟩ := hname
    rw [(hqt.equalsIgnoringCase_iff t _ (h.plain rule hrule name hname)).mp heq]
    exact List.mem_map_of_mem hname
  rcases ht with hname | rfl
  · rcases ht' with hname' | rfl
    · exact h.names rule hrule rule' hrule' ⟨_, hlower hrule hname, hlower hrule' hname'⟩
    · exact (h.mixed rule' hrule' rule hrule (hlower hrule hname)).symm
  · rcases ht' with hname' | heq
    · exact h.mixed rule hrule rule' hrule' (hlower hrule' hname')
    · exact h.translations rule hrule rule' hrule' heq

/-- The rule that recognises a text gives its status, wherever it stands. -/
theorem canonicalBy_eq (h : StatusRule.Disjoint rules) (hqt : qt.Documented)
    (hrule : rule ∈ rules) (hstatus : rule.Recognizes qt (qt.trimmed status)) :
    canonicalBy qt rules status = utf8 rule.status := by
  rw [canonicalBy]
  cases hfind : rules.find? fun rule => rule.Recognizes qt (qt.trimmed status) with
  | none => exact absurd (decide_eq_true hstatus) (List.find?_eq_none.mp hfind rule hrule)
  | some rule' =>
    have hrule' := List.mem_of_find?_eq_some hfind
    have hfound : rule'.Recognizes qt (qt.trimmed status) := by
      simpa using List.find?_some hfind
    rw [h.eq_of_recognizes hqt hrule' hrule hfound hstatus]

/-- A text that no rule recognises is trimmed. -/
theorem canonicalBy_of_not (h : ∀ rule ∈ rules, ¬ rule.Recognizes qt (qt.trimmed status)) :
    canonicalBy qt rules status = qt.trimmed status := by
  have hnone : rules.find? (fun rule => rule.Recognizes qt (qt.trimmed status)) = none :=
    List.find?_eq_none.mpr fun rule hrule => by simpa using h rule hrule
  rw [canonicalBy, hnone]

/-- The order in which rules that can be told apart are tried does not matter. -/
theorem canonicalBy_congr {rules' : List StatusRule} (h : StatusRule.Disjoint rules)
    (h' : StatusRule.Disjoint rules') (hqt : qt.Documented)
    (hsame : ∀ rule, rule ∈ rules ↔ rule ∈ rules') :
    canonicalBy qt rules status = canonicalBy qt rules' status := by
  by_cases hsome : ∃ rule ∈ rules, rule.Recognizes qt (qt.trimmed status)
  · obtain ⟨rule, hrule, hstatus⟩ := hsome
    rw [canonicalBy_eq h hqt hrule hstatus,
      canonicalBy_eq h' hqt ((hsame rule).mp hrule) hstatus]
  · have hnone : ∀ rule ∈ rules, ¬ rule.Recognizes qt (qt.trimmed status) :=
      fun rule hrule hstatus => hsome ⟨rule, hrule, hstatus⟩
    rw [canonicalBy_of_not hnone,
      canonicalBy_of_not fun rule hrule => hnone rule ((hsame rule).mpr hrule)]

end

/-! ### The rules of the client -/

/-- No text is recognized as two statuses of a sales order. -/
theorem disjoint_salesRules : StatusRule.Disjoint [.draft, .confirmed, .invoiced] where
  plain := by decide
  names := by decide
  mixed := by decide
  translations := by decide

/-- No text is recognized as two statuses of a purchase order. -/
theorem disjoint_purchaseRules : StatusRule.Disjoint [.draft, .ordered, .received] where
  plain := by decide
  names := by decide
  mixed := by decide
  translations := by decide

/-- Rules that can be told apart can be in another order. -/
theorem StatusRule.Disjoint.of_mem {rules rules' : List StatusRule}
    (h : StatusRule.Disjoint rules) (hsub : ∀ rule ∈ rules', rule ∈ rules) :
    StatusRule.Disjoint rules' where
  plain rule hrule := h.plain rule (hsub rule hrule)
  names rule hrule rule' hrule' := h.names rule (hsub rule hrule) rule' (hsub rule' hrule')
  mixed rule hrule rule' hrule' := h.mixed rule (hsub rule hrule) rule' (hsub rule' hrule')
  translations rule hrule rule' hrule' :=
    h.translations rule (hsub rule hrule) rule' (hsub rule' hrule')

variable {qt : Qt}

/-- The two normalisers of sales statuses are one function. -/
theorem AnalyticsView.canonicalSalesStatus_eq (hqt : qt.Documented) (status : Bytes) :
    AnalyticsView.canonicalSalesStatus qt status = SalesView.canonicalSalesStatus qt status :=
  canonicalBy_congr (disjoint_salesRules.of_mem (by decide)) disjoint_salesRules hqt
    (by simp; grind)

/-- The two normalisers of purchase statuses are one function. -/
theorem AnalyticsView.canonicalPurchaseStatus_eq (hqt : qt.Documented) (status : Bytes) :
    AnalyticsView.canonicalPurchaseStatus qt status = PurchaseView.canonicalStatus qt status :=
  canonicalBy_congr (disjoint_purchaseRules.of_mem (by decide)) disjoint_purchaseRules hqt
    (by simp; grind)

end SageStore
