import Mathlib.Algebra.Group.Nat.Defs
import Mathlib.Data.Int.Notation
import Mathlib.Data.List.Basic
import Mathlib.Logic.Function.Basic

/-!
# Statements with parameters over one table

The texts of `SELECT` and `UPDATE` statements, and what they do to the rows of a table: a text is
cut into tokens and read as a `Statement`, names are looked up in the definition of the table,
and parameters are bound in the order in which they occur.

A row gives every column its value. What a value is, how a bound text is stored in a column and
how it compares with the value of one is the engine's matter (`Engine`); the fields state what
the rules below need of it.

The rules follow the two statements. A `SELECT` returns the columns it lists of the rows that meet
its condition (`execute_select`). An `UPDATE` rewrites the rows that meet its condition
(`execute_update`), and a rewritten row holds in every assigned column what its parameter is
stored as, and is the same in every other (`assign_apply`).
-/

namespace Sql

/-- A word of a statement: a keyword, or the name of a table or of a column. -/
abbrev Name := List Char

/-! ### Statements -/

inductive Expression where
  /-- `?` -/
  | parameter
  /-- `NULLIF(?, 'text')` -/
  | nullIf (text : List Char)
deriving DecidableEq

/-- A statement, with the column its condition `WHERE column = ?` is about, if it has one. -/
inductive Statement where
  | select (columns : List Name) (table : Name) (filter : Option Name)
  | update (table : Name) (assignments : List (Name × Expression)) (filter : Option Name)
deriving DecidableEq

namespace Statement

def table : Statement → Name
  | .select _ table _ => table
  | .update table _ _ => table

def filter : Statement → Option Name
  | .select _ _ filter => filter
  | .update _ _ filter => filter

/-- The columns that are returned or assigned. -/
def columns : Statement → List Name
  | .select columns _ _ => columns
  | .update _ assignments _ => assignments.map Prod.fst

/-- The number of parameters. -/
def parameters : Statement → ℕ
  | .select _ _ filter => filter.toList.length
  | .update _ assignments filter => assignments.length + filter.toList.length

end Statement

/-! ### Reading a text -/

inductive Token where
  | word (w : Name)
  | symbol (c : Char)
  | literal (t : List Char)
deriving DecidableEq

def isWordChar (c : Char) : Bool := c.isAlphanum || c == '_'

/-- The letters of a word that has ended. -/
def endWord (w : Name) : List Token := if w.isEmpty then [] else [.word w]

/-- The tokens of a text, after the letters `w` of a word, or inside a literal that has begun. -/
def scan : Name → Option (List Char) → List Char → Option (List Token)
  | w, none, [] => some (endWord w)
  | _, some _, [] => none
  | w, some t, c :: cs =>
    if c = '\'' then (scan [] none cs).map (.literal t :: ·) else scan w (some (t ++ [c])) cs
  | w, none, c :: cs =>
    if isWordChar c then scan (w ++ [c]) none cs
    else if c = '\'' then (scan [] (some []) cs).map (endWord w ++ ·)
    else if c.isWhitespace then (scan [] none cs).map (endWord w ++ ·)
    else (scan [] none cs).map (endWord w ++ .symbol c :: ·)

/-- Items with commas between them, at most as many as the number says, and what follows. -/
def commaSeparated {α : Type} (item : List Token → Option (α × List Token)) :
    ℕ → List Token → Option (List α × List Token)
  | 0, _ => none
  | n + 1, ts =>
    (item ts).bind fun a =>
      match a.2 with
      | .symbol ',' :: rest => (commaSeparated item n rest).map fun r => (a.1 :: r.1, r.2)
      | rest => some ([a.1], rest)

def columnName : List Token → Option (Name × List Token)
  | .word w :: ts => some (w, ts)
  | _ => none

/-- `column = ?` or `column = NULLIF(?, 'text')`. -/
def assignment : List Token → Option ((Name × Expression) × List Token)
  | .word c :: .symbol '=' :: .symbol '?' :: ts => some ((c, .parameter), ts)
  | .word c :: .symbol '=' :: .word f :: .symbol '(' :: .symbol '?' :: .symbol ',' ::
      .literal t :: .symbol ')' :: ts =>
    if f = "NULLIF".toList then some ((c, .nullIf t), ts) else none
  | _ => none

/-- The end of a statement, with its condition. -/
def condition : List Token → Option (Option Name)
  | [] => some none
  | [.symbol ';'] => some none
  | [.word w, .word c, .symbol '=', .symbol '?'] =>
    if w = "WHERE".toList then some (some c) else none
  | [.word w, .word c, .symbol '=', .symbol '?', .symbol ';'] =>
    if w = "WHERE".toList then some (some c) else none
  | _ => none

/-- What follows `SELECT`. -/
def selectStatement (ts : List Token) : Option Statement :=
  (commaSeparated columnName ts.length ts).bind fun r =>
    match r.2 with
    | .word f :: .word t :: rest =>
      if f = "FROM".toList then (condition rest).map (.select r.1 t) else none
    | _ => none

/-- What follows `UPDATE`. -/
def updateStatement : List Token → Option Statement
  | .word t :: .word s :: ts =>
    if s = "SET".toList then
      (commaSeparated assignment ts.length ts).bind fun r => (condition r.2).map (.update t r.1)
    else none
  | _ => none

def statement : List Token → Option Statement
  | .word k :: ts =>
    if k = "SELECT".toList then selectStatement ts
    else if k = "UPDATE".toList then updateStatement ts
    else none
  | _ => none

/-- The statement a text is. -/
def parse (text : List Char) : Option Statement := (scan [] none text).bind statement

/-! ### The tokens of a statement -/

/-- The tokens of some items, with commas between them. -/
def separated {α : Type} (tokens : α → List Token) : List α → List Token
  | [] => []
  | [a] => tokens a
  | a :: b :: rest => tokens a ++ .symbol ',' :: separated tokens (b :: rest)

def Expression.tokens : Expression → List Token
  | .parameter => [.symbol '?']
  | .nullIf t =>
    [.word "NULLIF".toList, .symbol '(', .symbol '?', .symbol ',', .literal t, .symbol ')']

def columnTokens (c : Name) : List Token := [.word c]

def assignmentTokens (a : Name × Expression) : List Token :=
  .word a.1 :: .symbol '=' :: a.2.tokens

def conditionTokens : Option Name → List Token
  | none => [.symbol ';']
  | some c => [.word "WHERE".toList, .word c, .symbol '=', .symbol '?', .symbol ';']

def Statement.tokens : Statement → List Token
  | .select columns t filter =>
    .word "SELECT".toList :: separated columnTokens columns ++
      .word "FROM".toList :: .word t :: conditionTokens filter
  | .update t assignments filter =>
    .word "UPDATE".toList :: .word t :: .word "SET".toList ::
      separated assignmentTokens assignments ++ conditionTokens filter

/-- Items with commas between them are read back, if no comma follows them. -/
theorem commaSeparated_separated {α : Type} {item : List Token → Option (α × List Token)}
    {tokens : α → List Token} (hitem : ∀ a rest, item (tokens a ++ rest) = some (a, rest))
    {rest : List Token} (hrest : rest.head? ≠ some (.symbol ',')) {items : List α}
    (hne : items ≠ []) {n : ℕ} (hn : items.length ≤ n) :
    commaSeparated item n (separated tokens items ++ rest) = some (items, rest) := by
  induction items generalizing n with
  | nil => exact absurd rfl hne
  | cons a items ih =>
    obtain ⟨n, rfl⟩ : ∃ m, n = m + 1 := ⟨n - 1, by simp at hn; omega⟩
    cases items with
    | nil =>
      rw [separated, commaSeparated, hitem, Option.bind_some]
      split
      · next h => simp only at h; simp [h] at hrest
      · rfl
    | cons b items =>
      have hmore := ih (List.cons_ne_nil b items) (Nat.le_of_succ_le_succ hn)
      rw [separated, List.append_assoc, commaSeparated, hitem, Option.bind_some]
      -- the comma after the first item is followed by the others
      change (commaSeparated item n (separated tokens (b :: items) ++ rest)).map
        (fun r => (a :: r.1, r.2)) = _
      rw [hmore]
      rfl

theorem length_le_separated {α : Type} {tokens : α → List Token}
    (h : ∀ a, 0 < (tokens a).length) (items : List α) :
    items.length ≤ (separated tokens items).length := by
  induction items with
  | nil => exact Nat.le_refl 0
  | cons a items ih =>
    have ha := h a
    cases items with
    | nil => exact ha
    | cons b items =>
      rw [separated, List.length_append]
      simp only [List.length_cons] at ih ⊢
      omega

/-- What is written as a condition is read as that condition. -/
theorem condition_tokens (filter : Option Name) :
    condition (conditionTokens filter) = some filter := by
  cases filter with
  | none => rfl
  | some c =>
    change (if "WHERE".toList = "WHERE".toList then some (some c) else none) = _
    exact if_pos rfl

/-- What is written as an assignment is read as that assignment. -/
theorem assignment_tokens (a : Name × Expression) (rest : List Token) :
    assignment (assignmentTokens a ++ rest) = some (a, rest) := by
  obtain ⟨c, x⟩ := a
  cases x with
  | parameter => rfl
  | nullIf t =>
    change (if "NULLIF".toList = "NULLIF".toList then some ((c, Expression.nullIf t), rest)
      else none) = _
    exact if_pos rfl

theorem statement_select (ts : List Token) :
    statement (.word "SELECT".toList :: ts) = selectStatement ts := by
  rw [statement, if_pos rfl]

theorem statement_update (ts : List Token) :
    statement (.word "UPDATE".toList :: ts) = updateStatement ts := by
  rw [statement, if_neg (by decide +kernel), if_pos rfl]

/-- **The tokens of a statement are read back as the statement.** -/
theorem statement_tokens {s : Statement} (h : s.columns ≠ []) : statement s.tokens = some s := by
  cases s with
  | select columns t filter =>
    let rest : List Token := .word "FROM".toList :: .word t :: conditionTokens filter
    let ts := separated columnTokens columns ++ rest
    -- there are tokens enough for the columns to be read one by one
    have hlen : columns.length ≤ ts.length := by
      have := @length_le_separated _ columnTokens (fun _ => Nat.zero_lt_one) columns
      simp only [ts, List.length_append]
      omega
    have hcolumns : commaSeparated columnName ts.length ts = some (columns, rest) :=
      commaSeparated_separated (fun _ _ => rfl) (by simp [rest]) h hlen
    change statement (.word "SELECT".toList :: ts) = _
    rw [statement_select, selectStatement, hcolumns, Option.bind_some]
    change (if "FROM".toList = "FROM".toList then (condition (conditionTokens filter)).map _
      else none) = _
    rw [if_pos rfl, condition_tokens]
    rfl
  | update t assignments filter =>
    let ts := separated assignmentTokens assignments ++ conditionTokens filter
    have hne : assignments ≠ [] := fun hnil => h (by rw [hnil]; rfl)
    have hlen : assignments.length ≤ ts.length := by
      have := @length_le_separated _ assignmentTokens (fun _ => Nat.succ_pos _) assignments
      simp only [ts, List.length_append]
      omega
    have hcomma : (conditionTokens filter).head? ≠ some (.symbol ',') := by
      cases filter <;> simp [conditionTokens]
    have hassignments : commaSeparated assignment ts.length ts =
        some (assignments, conditionTokens filter) :=
      commaSeparated_separated assignment_tokens hcomma hne hlen
    change statement (.word "UPDATE".toList :: .word t :: .word "SET".toList :: ts) = _
    rw [statement_update, updateStatement, if_pos rfl, hassignments, Option.bind_some,
      condition_tokens]
    rfl

/-- A text with the tokens of a statement is the statement. -/
theorem parse_of_scan {text : List Char} {s : Statement} (h : scan [] none text = some s.tokens)
    (hne : s.columns ≠ []) : parse text = some s := by
  rw [parse, h, Option.bind_some, statement_tokens hne]

/-! ### Scanning in parts -/

/-- A blank ends the word before it: what follows is scanned afresh. -/
theorem scan_blank {w : Name} {l : Option (List Char)} {text : List Char} {ts : List Token}
    (h : scan w l text = some ts) (rest : List Char) :
    scan w l (text ++ ' ' :: rest) = (scan [] none rest).map (ts ++ ·) := by
  -- the cases are those of the scanner: the end, a string literal, and the characters outside one
  fun_induction scan w l text generalizing ts with
  | case1 w =>
    obtain rfl := Option.some.inj h
    rfl
  | case2 => cases h
  | case3 w t cs ih =>
    obtain ⟨more, hmore, rfl⟩ := Option.map_eq_some_iff.mp h
    rw [List.cons_append, scan, if_pos rfl, ih hmore, Option.map_map]
    rfl
  | case4 w t c cs hc ih =>
    rw [List.cons_append, scan, if_neg hc, ih h]
  | case5 w c cs hc ih =>
    rw [List.cons_append, scan, if_pos hc, ih h]
  | case6 w cs hc ih =>
    obtain ⟨more, hmore, rfl⟩ := Option.map_eq_some_iff.mp h
    rw [List.cons_append, scan, if_neg hc, if_pos rfl, ih hmore, Option.map_map]
    exact congrArg (Option.map · _) (funext fun _ => (List.append_assoc _ _ _).symm)
  | case7 w c cs hc hquote hspace ih =>
    obtain ⟨more, hmore, rfl⟩ := Option.map_eq_some_iff.mp h
    rw [List.cons_append, scan, if_neg hc, if_neg hquote, if_pos hspace, ih hmore, Option.map_map]
    exact congrArg (Option.map · _) (funext fun _ => (List.append_assoc _ _ _).symm)
  | case8 w c cs hc hquote hspace ih =>
    obtain ⟨more, hmore, rfl⟩ := Option.map_eq_some_iff.mp h
    rw [List.cons_append, scan, if_neg hc, if_neg hquote, if_neg hspace, ih hmore, Option.map_map]
    refine congrArg (Option.map · _) (funext fun _ => ?_)
    simp

/-- A text that ends in a blank is scanned by itself. -/
theorem scan_append {text : List Char} {ts : List Token} (hend : text.getLast? = some ' ')
    (h : scan [] none text.dropLast = some ts) (rest : List Char) :
    scan [] none (text ++ rest) = (scan [] none rest).map (ts ++ ·) := by
  obtain ⟨front, rfl⟩ : ∃ front, text = front ++ [' '] := List.getLast?_eq_some_iff.mp hend
  rw [List.dropLast_concat] at h
  rw [List.append_assoc]
  exact scan_blank h rest

/-- The letters of a word are scanned as one word. -/
theorem scan_word {f : Name} (h : ∀ c ∈ f, isWordChar c = true) (w : Name) :
    scan w none f = some (endWord (w ++ f)) := by
  induction f generalizing w with
  | nil => rw [scan, List.append_nil]
  | cons c f ih =>
    rw [scan, if_pos (h c List.mem_cons_self), ih (fun d hd => h d (List.mem_cons_of_mem c hd)),
      List.append_assoc]
    rfl

/-! ### Values -/

/-- The affinity of a column. -/
inductive Affinity where
  | integer
  | text
  | numeric
  | real
deriving DecidableEq

/-- An engine: texts `T` are bound to parameters, and values `V` are in the columns. -/
structure Engine (T V : Type) where
  null : V
  int : ℤ → V
  literal : List Char → T
  /-- What a text is stored as in a column. -/
  store : Affinity → T → V
  /-- Whether the value of a column is equal to a text, for `column = ?`. -/
  equals : Affinity → V → T → Bool
  /-- The text a value is read as. -/
  text : V → T
  text_null : text null = literal []
  text_store_empty : ∀ a, text (store a (literal [])) = literal []
  text_int : ∀ n, text (int n) ≠ literal []
  /-- Comparison converts a text as storage does. The least number of 64 bits is left out, which a
  text for it is compared with, but not stored as. -/
  store_of_equals : ∀ n t, n.natAbs < 2 ^ 63 → equals .integer (int n) t = true →
    store .integer t = int n

/-- The values of a row. -/
abbrev Row (V : Type) := Name → V

structure TableDef (V : Type) where
  name : Name
  columns : List (Name × Affinity)
  /-- Whether the constraints of the schema let the table have these rows. -/
  admits : List (Row V) → Bool

namespace TableDef

variable {V : Type} (d : TableDef V)

def affinity (c : Name) : Affinity := (d.columns.lookup c).getD .text

def Declares (c : Name) : Prop := c ∈ d.columns.map Prod.fst

instance (c : Name) : Decidable (d.Declares c) :=
  inferInstanceAs (Decidable (c ∈ d.columns.map Prod.fst))

/-- A statement about this table and its columns. -/
def Fits (s : Statement) : Prop :=
  s.table = d.name ∧ (∀ c ∈ s.columns, d.Declares c) ∧ ∀ c ∈ s.filter, d.Declares c

instance (s : Statement) : Decidable (d.Fits s) :=
  inferInstanceAs (Decidable (_ ∧ _ ∧ _))

end TableDef

/-- An entry is found under its name, if no other has it. -/
theorem lookup_of_mem {α : Type} {entries : List (Name × α)}
    (h : (entries.map Prod.fst).Nodup) {a : Name × α} (ha : a ∈ entries) :
    entries.lookup a.1 = some a.2 := by
  induction entries with
  | nil => cases ha
  | cons b entries ih =>
    obtain ⟨hb, hnodup⟩ := List.nodup_cons.mp h
    rcases List.mem_cons.mp ha with rfl | ha
    · exact List.lookup_cons_self
    · have hne : (a.1 == b.1) = false :=
        beq_eq_false_iff_ne.mpr fun heq => hb (heq ▸ List.mem_map_of_mem ha)
      rw [List.lookup_cons, hne]
      exact ih hnodup ha

/-- Values are found under their names. -/
theorem map_lookup_zip {α : Type} (d : α) {names : List Name} {values : List α}
    (hnodup : names.Nodup) (hlen : names.length = values.length) :
    names.map (fun c => ((names.zip values).lookup c).getD d) = values := by
  induction names generalizing values with
  | nil => exact (List.length_eq_zero_iff.mp hlen.symm).symm
  | cons c names ih =>
    obtain _ | ⟨v, values⟩ := values
    · cases hlen
    obtain ⟨hc, hnodup⟩ := List.nodup_cons.mp hnodup
    rw [List.zip_cons_cons, List.map_cons, List.lookup_cons, beq_self_eq_true]
    -- the other names are not the first
    have hrest : names.map (fun b => ((((c, v) :: names.zip values).lookup b).getD d)) =
        names.map fun b => ((names.zip values).lookup b).getD d := by
      refine List.map_congr_left fun b hb => ?_
      have hne : (b == c) = false := beq_eq_false_iff_ne.mpr fun h => hc (h ▸ hb)
      rw [List.lookup_cons, hne]
    rw [hrest, ih hnodup (Nat.succ.inj hlen)]
    rfl

/-! ### Execution -/

/-- Where the execution of a text fails. -/
inductive Failure where
  | prepare
  | bind
  | constraint
deriving DecidableEq

section Execution

variable {T V : Type} [DecidableEq T] (E : Engine T V) (d : TableDef V)

/-- A row meets the condition, with the text that is bound to its parameter. -/
def holds : Option Name → Option T → Row V → Bool
  | none, _, _ => true
  | some _, none, _ => false
  | some c, some t, row => E.equals (d.affinity c) (row c) t

/-- What an expression is stored as. -/
def value (a : Affinity) : Expression → Option T → V
  | _, none => E.null
  | .parameter, some t => E.store a t
  | .nullIf l, some t => if t = E.literal l then E.null else E.store a t

/-- The row after the assignments, which take the parameters in their order. -/
def assign : List (Name × Expression) → List T → Row V → Row V
  | [], _, row => row
  | a :: rest, params, row =>
    assign rest params.tail
      (Function.update row a.1 (value E (d.affinity a.1) a.2 params.head?))

/-- Execute a statement: the rows it returns, and the rows it leaves in the table. -/
def run (rows : List (Row V)) (params : List T) :
    Statement → Except Failure (List (List V) × List (Row V))
  | .select columns _ filter =>
    .ok ((rows.filter (holds E d filter params.head?)).map fun row => columns.map row, rows)
  | .update _ assignments filter =>
    let updated := rows.map fun row =>
      if holds E d filter params[assignments.length]? row then
        assign E d assignments params row
      else row
    if d.admits updated then .ok ([], updated) else .error .constraint

/-- Prepare a text, bind the parameters and execute it. -/
def execute (rows : List (Row V)) (text : List Char) (params : List T) :
    Except Failure (List (List V) × List (Row V)) :=
  match parse text with
  | none => .error .prepare
  | some s =>
    if d.Fits s then
      if params.length ≤ s.parameters then run E d rows params s else .error .bind
    else .error .prepare

variable {E d} {rows : List (Row V)} {text : List Char} {params : List T}

theorem execute_of_parse_none (h : parse text = none) :
    execute E d rows text params = .error .prepare := by
  rw [execute, h]

/-- A text that is a statement about the table is run. -/
theorem execute_of_parse {s : Statement} (h : parse text = some s) (hfits : d.Fits s)
    (hparams : params.length ≤ s.parameters) :
    execute E d rows text params = run E d rows params s := by
  rw [execute, h]
  dsimp only
  rw [if_pos hfits, if_pos hparams]

/-- **`SELECT`.** The columns that are listed, of every row. -/
theorem execute_select {columns : List Name} {t : Name}
    (h : parse text = some (.select columns t none)) (hfits : d.Fits (.select columns t none)) :
    execute E d rows text [] = .ok (rows.map fun row => columns.map row, rows) := by
  rw [execute_of_parse h hfits (Nat.zero_le _), run]
  have hall : rows.filter (holds E d none ([] : List T).head?) = rows :=
    List.filter_eq_self.mpr fun _ _ => rfl
  rw [hall]

/-- **`SELECT … WHERE`.** The columns that are listed, of every row that is equal to the
parameter in the column of the condition. -/
theorem execute_select_where {columns : List Name} {t c : Name} {v : T}
    (h : parse text = some (.select columns t (some c)))
    (hfits : d.Fits (.select columns t (some c))) :
    execute E d rows text [v] =
      .ok ((rows.filter fun row => E.equals (d.affinity c) (row c) v).map fun row =>
        columns.map row, rows) := by
  have hcount : [v].length ≤ (Statement.select columns t (some c)).parameters := Nat.le_refl 1
  rw [execute_of_parse h hfits hcount, run]
  rfl

/-- **`UPDATE … WHERE`.** The rows that are equal to the last parameter in the column of the
condition are assigned to, and the table keeps its rows if its constraints refuse that. -/
theorem execute_update {assignments : List (Name × Expression)} {t c : Name} {v : T}
    (h : parse text = some (.update t assignments (some c)))
    (hfits : d.Fits (.update t assignments (some c))) (hlen : params.length = assignments.length) :
    execute E d rows text (params ++ [v]) =
      let updated := rows.map fun row =>
        if E.equals (d.affinity c) (row c) v then assign E d assignments (params ++ [v]) row
        else row
      if d.admits updated then .ok ([], updated) else .error .constraint := by
  have hcount : (params ++ [v]).length ≤ (Statement.update t assignments (some c)).parameters := by
    simp [Statement.parameters, hlen]
  have hlast : (params ++ [v])[assignments.length]? = some v := by
    rw [← hlen, List.getElem?_concat_length]
  rw [execute_of_parse h hfits hcount, run, hlast]
  rfl

/-- **A row that is assigned to.** If no column is assigned twice, then each that is assigned
holds its own value, and the others are as they were. -/
theorem assign_apply {assignments : List (Name × Expression)} (g : Name → T) (more : List T)
    (h : (assignments.map Prod.fst).Nodup) (row : Row V) (c : Name) :
    assign E d assignments (assignments.map (fun a => g a.1) ++ more) row c =
      (assignments.lookup c).elim (row c) fun x => value E (d.affinity c) x (some (g c)) := by
  -- the first assignment is kept by the others, since none of them is to its column
  induction assignments generalizing row with
  | nil => rfl
  | cons a rest ih =>
    rw [List.map_cons, List.nodup_cons] at h
    rw [assign, List.map_cons, List.cons_append, List.tail_cons, List.head?_cons, ih h.2]
    by_cases hc : c = a.1
    · subst hc
      have hnone : rest.lookup a.1 = none := by
        rw [List.lookup_eq_none_iff]
        intro b hb
        simpa using fun heq : a.1 = b.1 => h.1 (heq ▸ List.mem_map_of_mem hb)
      rw [hnone, Option.elim_none, Function.update_self, List.lookup_cons, beq_self_eq_true]
      rfl
    · have hskip : (a :: rest).lookup c = rest.lookup c := by
        rw [List.lookup_cons, beq_eq_false_iff_ne.mpr hc]
      rw [hskip, Function.update_of_ne hc]

/-- An empty text that is replaced by NULL is read back as if it were not. -/
theorem text_value {a : Affinity} {x : Expression} {t : T}
    (hx : x = .parameter ∨ x = .nullIf []) :
    E.text (value E a x (some t)) = E.text (E.store a t) := by
  rcases hx with rfl | rfl
  · rfl
  · rw [value]
    split
    · next h => rw [h, E.text_null, E.text_store_empty]
    · rfl

end Execution

end Sql
