import Mathlib.Data.List.Forall2
import SageStore.Common.EntityGenerator

/-!
# The fields of the generated entities

A script written as the one of the database has its `CREATE TABLE` statements between texts of
any other kind, and one clause on a line between the brackets of a statement: first the columns,
then the constraints. The generator takes the word at the front of a line for a column unless the
line begins with `FOREIGN KEY`, and reads a statement up to its first `);`. Each column gives a
constant whose name is that of the column in capital letters, so two columns can share one.

A structure and its codec have one field for each column (`OneFieldPerColumn`) exactly if all
columns and no constraint are read, and no name is declared twice (`parseSqlFile_exact_iff`).
-/

namespace SageStore

open Regex

namespace Python

variable {u : Unicode}

theorem isSpace_of_isLineBreak {c : Char} (h : isLineBreak c = true) : isSpace c = true := by
  simp [isLineBreak, isSpace] at h ⊢
  omega

theorem Unicode.isSpace_of_isWord {c : Char} (h : u.isWord c = true) : isSpace c = false := by
  cases hc : isSpace c with
  | false => rfl
  | true => exact absurd h (u.isWord_of_isSpace c hc ▸ Bool.false_ne_true)

theorem Unicode.isLineBreak_of_isWord {c : Char} (h : u.isWord c = true) :
    isLineBreak c = false := by
  cases hc : isLineBreak c with
  | false => rfl
  | true =>
    exact absurd (u.isSpace_of_isWord h) (isSpace_of_isLineBreak hc ▸ Bool.false_ne_true.symm)

/-! ### Lines -/

theorem splitlines_cons_of_not {c : Char} (hc : isLineBreak c = false) (t : List Char) :
    splitlines (c :: t) = match splitlines t with
      | [] => [[c]]
      | line :: lines => (c :: line) :: lines := by
  have hne : c ≠ '\r' := by
    rintro rfl
    exact absurd hc (by decide)
  rw [splitlines, hc]
  · rfl
  · rintro t' rfl -
    exact hne rfl

/-- A text without line ends is one line, if it is not empty. -/
theorem splitlines_of_not {t : List Char} (ht : ∀ c ∈ t, isLineBreak c = false) :
    splitlines t = if t = [] then [] else [t] := by
  induction t with
  | nil => rfl
  | cons c t ih =>
    rw [splitlines_cons_of_not (ht c List.mem_cons_self),
      ih fun d hd => ht d (List.mem_cons_of_mem _ hd), if_neg (List.cons_ne_nil c t)]
    cases t <;> rfl

/-- A line ends at its break. -/
theorem splitlines_append {l : List Char} (hl : ∀ c ∈ l, isLineBreak c = false) (t : List Char) :
    splitlines (l ++ '\n' :: t) = l :: splitlines t := by
  induction l with
  | nil =>
    rw [List.nil_append, splitlines]
    · rfl
    · exact fun _ h => absurd h (by decide)
  | cons c l ih =>
    rw [List.cons_append, splitlines_cons_of_not (hl c List.mem_cons_self),
      ih fun d hd => hl d (List.mem_cons_of_mem _ hd)]

end Python

namespace EntityGenerator

open Python

variable (u : Unicode)

/-! ### Reading a line -/

/-- The name that is read off a line, if any. -/
def fieldOf (line : List Char) : Option (List Char) :=
  if "FOREIGN KEY".toList.isPrefixOf (strip line) then none
  else (run (fieldPattern u) none line).head?.bind fun m => m.groups[0]?

/-- The fields of a table are read line by line. -/
theorem fieldNames_eq (fields : List Char) :
    fieldNames u fields = (splitlines fields).filterMap (fieldOf u) := by
  unfold fieldNames fieldOf
  dsimp only
  rw [List.filterMap_filter]
  refine List.filterMap_congr fun line _ => ?_
  cases "FOREIGN KEY".toList.isPrefixOf (strip line) <;> rfl

section Line

variable {u} {indent lead rest : List Char}

/-- What the pattern takes behind the word: anything up to a comma or the end. -/
def fieldEnd : Pattern Char :=
  .seq (.manyLazy (· ≠ '\n')) (.alt (.literal ",".toList) (.lineEnd (· = '\n')))

theorem head?_run_fieldEnd (hbreak : ∀ c ∈ rest, isLineBreak c = false) (b : Option Char) :
    ∃ m, (run fieldEnd b rest).head? = some m ∧ m.groups = [] := by
  have hne : run fieldEnd b rest ≠ [] := by
    refine run_lazy_ne_nil (fun c hc => decide_eq_true ?_) fun b' => by simp [run]
    rintro rfl
    exact absurd (hbreak _ hc) (by decide)
  obtain ⟨m, ms, heq⟩ := List.exists_cons_of_ne_nil hne
  have hplain : fieldEnd.IsPlain := ⟨trivial, trivial, trivial⟩
  exact ⟨m, by rw [heq, List.head?_cons], groups_of_isPlain hplain (heq ▸ List.mem_cons_self)⟩

/-- The word is taken whole, for a shorter one does not end where a word ends. -/
theorem head?_run_word (hne : lead ≠ []) (hlead : ∀ c ∈ lead, u.isWord c = true)
    (hrest : ∀ c ∈ rest.head?, u.isWord c = false)
    (hbreak : ∀ c ∈ rest, isLineBreak c = false) (b : Option Char) :
    ∃ m, (run (.seq (.group (.plus u.isWord)) (.seq (.boundary u.isWord) fieldEnd)) b
      (lead ++ rest)).head? = some m ∧ m.groups = [lead] := by
  obtain ⟨ms, hword, hms⟩ := exists_run_plus (b := b) hne hlead hrest
  have hinside : ∀ m ∈ ms.map Match.grouped,
      run (.seq (.boundary u.isWord) fieldEnd) (m.before b) m.rest = [] := by
    intro m hm
    obtain ⟨m', hm', rfl⟩ := List.mem_map.mp hm
    obtain ⟨⟨c, hc, hcw⟩, d, hd, hdw⟩ := hms m' hm'
    change m'.grouped.before b = some d at hd
    refine run_seq_of_nil ?_
    rw [run, Match.grouped_rest, hc, hd]
    exact if_neg (by simp [hcw, hdw])
  -- at the end of the word the assertion holds
  have hend : run (.boundary u.isWord) ((⟨lead, rest, []⟩ : Match Char).grouped.before b) rest =
      [⟨[], rest, []⟩] := by
    obtain ⟨d, hd⟩ : ∃ d, lead.getLast? = some d := ⟨_, List.getLast?_eq_some_getLast hne⟩
    have hdw : u.isWord d = true := hlead d (List.mem_of_getLast? hd)
    refine if_pos ?_
    rw [Match.before, Match.grouped_text, hd, Option.some_or, Option.any_some, hdw]
    cases hc : rest.head? with
    | none => simp
    | some c => simp [hrest c hc]
  obtain ⟨n, hn, hgroups⟩ := head?_run_fieldEnd hbreak
    ((⟨[], rest, []⟩ : Match Char).before ((⟨lead, rest, []⟩ : Match Char).grouped.before b))
  refine ⟨_, head?_run_seq (run_group_of_cons hword) hinside
    (head?_run_seq hend (fun _ h => absurd h List.not_mem_nil) hn), ?_⟩
  rw [Match.append_groups, Match.append_groups, hgroups]
  rfl

/-- A text that starts with a word behind white space: the pattern takes the word. -/
theorem head?_run_fieldPattern (hindent : ∀ c ∈ indent, isSpace c = true) (hne : lead ≠ [])
    (hlead : ∀ c ∈ lead, u.isWord c = true) (hrest : ∀ c ∈ rest.head?, u.isWord c = false)
    (hbreak : ∀ c ∈ rest, isLineBreak c = false) :
    ∃ m, (run (fieldPattern u) none (indent ++ (lead ++ rest))).head? = some m ∧
      m.groups = [lead] := by
  have hstart : run (.lineStart (· = '\n')) none (indent ++ (lead ++ rest)) =
      [⟨[], indent ++ (lead ++ rest), []⟩] := if_pos rfl
  -- white space is taken whole, for a word cannot begin with it
  have hhead : ∀ c ∈ (lead ++ rest).head?, isSpace c = false := by
    obtain ⟨d, lead, rfl⟩ := List.exists_cons_of_ne_nil hne
    rintro c ⟨⟩
    exact Unicode.isSpace_of_isWord (hlead d List.mem_cons_self)
  obtain ⟨ms, hspaces, hms⟩ := exists_run_many (b := none) hindent hhead
  have hnoWord : ∀ m ∈ ms, run (.seq (.group (.plus u.isWord))
      (.seq (.boundary u.isWord) fieldEnd)) (m.before none) m.rest = [] := by
    intro m hm
    obtain ⟨c, hc, hspace⟩ := hms m hm
    refine run_seq_of_nil ?_
    rw [run, run_plus_of_head, List.map_nil]
    intro d hd
    obtain rfl := Option.some.inj (hc.symm.trans hd)
    exact u.isWord_of_isSpace c hspace
  obtain ⟨n, hn, hgroups⟩ := head?_run_word hne hlead hrest hbreak
    ((⟨indent, lead ++ rest, []⟩ : Match Char).before none)
  refine ⟨_, head?_run_seq hstart (fun _ h => absurd h List.not_mem_nil)
    (head?_run_seq hspaces hnoWord hn), ?_⟩
  rw [Match.append_groups, Match.append_groups, hgroups]
  rfl

/-- Nothing is read off an empty line. -/
theorem fieldOf_nil : fieldOf u [] = none := rfl

/-- The first word of a line ends where its letters do. -/
theorem takeWhile_isWord (hlead : ∀ c ∈ lead, u.isWord c = true)
    (hrest : ∀ c ∈ rest.head?, u.isWord c = false) :
    (lead ++ rest).takeWhile u.isWord = lead := by
  have hnil : rest.takeWhile u.isWord = [] := by
    cases rest with
    | nil => rfl
    | cons c rest => exact List.takeWhile_cons_of_neg (by simp [hrest c rfl])
  rw [List.takeWhile_append_of_pos hlead, hnil, List.append_nil]

/-- The letters of ASCII make words. -/
theorem isWord_of_all {t : List Char} (h : t.all fun c => c.isAlphanum && c.toNat < 128) :
    ∀ c ∈ t, u.isWord c = true := by
  intro c hc
  have hascii := List.all_eq_true.mp h c hc
  rw [Bool.and_eq_true, decide_eq_true_iff] at hascii
  rw [u.isWord_ascii c hascii.2, hascii.1, Bool.true_or]

/-- A line that starts with a word is taken for the definition of a column, unless the word is
`FOREIGN`. -/
theorem fieldOf_word (hindent : ∀ c ∈ indent, isSpace c = true) (hne : lead ≠ [])
    (hlead : ∀ c ∈ lead, u.isWord c = true) (hforeign : lead ≠ "FOREIGN".toList)
    (hrest : ∀ c ∈ rest.head?, u.isWord c = false)
    (hbreak : ∀ c ∈ rest, isLineBreak c = false) :
    fieldOf u (indent ++ (lead ++ rest)) = some lead := by
  have hstart : ¬"FOREIGN KEY".toList <+: strip (indent ++ (lead ++ rest)) := by
    intro h
    have hhead : ∀ c ∈ (lead ++ rest).head?, isSpace c = false := by
      obtain ⟨d, lead, rfl⟩ := List.exists_cons_of_ne_nil hne
      rintro c ⟨⟩
      exact Unicode.isSpace_of_isWord (hlead d List.mem_cons_self)
    rw [strip, Cells.strip, List.dropWhile_append_of_pos hindent,
      Cells.dropWhile_eq_self hhead] at h
    -- the first word of the line would be `FOREIGN`
    obtain ⟨t, ht⟩ := h.trans (List.rdropWhile_prefix isSpace _)
    refine hforeign ?_
    rw [← takeWhile_isWord hlead hrest, ← ht]
    have hword : ∀ c ∈ "FOREIGN".toList, u.isWord c = true := isWord_of_all (by decide)
    refine takeWhile_isWord hword ?_
    rintro c ⟨⟩
    exact u.isWord_of_isSpace _ (by decide)
  obtain ⟨m, hm, hgroups⟩ := head?_run_fieldPattern hindent hne hlead hrest hbreak
  rw [fieldOf, if_neg fun h => hstart (List.isPrefixOf_iff_prefix.mp h), hm, Option.bind_some,
    hgroups]
  rfl

/-- A line that starts with `FOREIGN KEY` is passed over. -/
theorem fieldOf_foreignKey (hindent : ∀ c ∈ indent, isSpace c = true) (rest : List Char) :
    fieldOf u (indent ++ ("FOREIGN KEY".toList ++ rest)) = none := by
  have hstrip : strip (indent ++ ("FOREIGN KEY".toList ++ rest)) =
      "FOREIGN KEY".toList ++ rest.rdropWhile isSpace := by
    rw [strip, Cells.strip, List.dropWhile_append_of_pos hindent]
    exact Cells.rdropWhile_append_cons (by decide) "FOREIGN KE".toList rest
  rw [fieldOf, hstrip, if_pos (List.isPrefixOf_iff_prefix.mpr (List.prefix_append _ _))]

end Line

/-! ### Scripts -/

/-- The keyword of a statement. -/
def createTable : List Char := "CREATE TABLE ".toList

/-- The end of a statement. -/
def closing : List Char := ");".toList

/-- A line between the brackets of a statement: white space, what the clause is recognised by,
and its rest.

A line is what `str.splitlines` takes for one. Besides `\n` and `\r` it ends a line at a vertical
tab, a form feed, the separators U+001C to U+001E, U+0085, U+2028 and U+2029; a clause with one of
these in it, say in the text of a default, is not among the lines here. -/
structure Line (lead : List Char) where
  indent : List Char
  rest : List Char
  indent_space : ∀ c ∈ indent, isSpace c = true
  /-- White space that ends no line: no vertical tab or form feed, for instance. -/
  indent_break : ∀ c ∈ indent, isLineBreak c = false
  rest_word : ∀ c ∈ rest.head?, u.isWord c = false
  /-- None of the ends of lines that `str.splitlines` knows. -/
  rest_break : ∀ c ∈ rest, isLineBreak c = false
  /-- There is no statement within a statement. -/
  noStatement : ¬createTable <:+: indent ++ (lead ++ rest)

/-- The definition of a column. -/
structure Column where
  name : List Char
  name_ne : name ≠ []
  name_word : ∀ c ∈ name, u.isWord c = true
  /-- A keyword is no name. -/
  name_ne_foreign : name ≠ "FOREIGN".toList
  line : Line u name

/-- A clause of a statement. -/
inductive Clause where
  | column (c : Column u)
  | foreignKey (line : Line u "FOREIGN KEY".toList)
  | unique (line : Line u "UNIQUE".toList)

variable {u}

def Line.text {lead : List Char} (l : Line u lead) : List Char := l.indent ++ (lead ++ l.rest)

namespace Clause

def text : Clause u → List Char
  | column c => c.line.text
  | foreignKey l => l.text
  | unique l => l.text

def isColumn : Clause u → Bool
  | column _ => true
  | _ => false

def isUnique : Clause u → Bool
  | unique _ => true
  | _ => false

/-- What the generator takes the line for. -/
def fieldName : Clause u → Option (List Char)
  | column c => some c.name
  | foreignKey _ => none
  | unique _ => some "UNIQUE".toList

/-- The end of a statement stands within the line. -/
def closes (c : Clause u) : Bool := closing <:+: c.text

end Clause

variable (u) in
/-- A `CREATE TABLE` statement, with one clause on a line, the constraints behind the columns. -/
structure TableStatement where
  name : List Char
  name_ne : name ≠ []
  name_word : ∀ c ∈ name, u.isWord c = true
  /-- The white space before the bracket. -/
  gap : List Char
  gap_space : ∀ c ∈ gap, isSpace c = true
  columns : List (Column u)
  constraints : List (Clause u)
  isConstraint : ∀ c ∈ constraints, c.isColumn = false

namespace TableStatement

def clauses (t : TableStatement u) : List (Clause u) := t.columns.map .column ++ t.constraints

/-- What stands behind the opening bracket. -/
def body (t : TableStatement u) : List Char :=
  '\n' :: t.clauses.flatMap (fun c => c.text ++ ['\n']) ++ closing

def text (t : TableStatement u) : List Char :=
  createTable ++ (t.name ++ (t.gap ++ '(' :: t.body))

end TableStatement

variable (u) in
/-- A script: the statements that create tables, the text before each, and what follows. -/
structure Script where
  statements : List (List Char × TableStatement u)
  ending : List Char
  names_nodup : (statements.map fun s => s.2.name).Nodup
  other : ∀ s ∈ statements, ¬createTable <:+: s.1
  other_ending : ¬createTable <:+: ending

def Script.text (s : Script u) : List Char :=
  s.statements.flatMap (fun s => s.1 ++ s.2.text) ++ s.ending

/-- The tables of a script and their columns. -/
def Script.tables (s : Script u) : List (List Char × List (List Char)) :=
  s.statements.map fun s => (s.2.name, s.2.columns.map Column.name)

/-! ### The clauses of a statement -/

theorem rightBracket_notMem_of_isWord {t : List Char} (ht : ∀ c ∈ t, u.isWord c = true) :
    ')' ∉ t := by
  intro h
  have := ht _ h
  rw [u.isWord_ascii _ (by decide)] at this
  exact absurd this (by decide)

theorem rightBracket_notMem_of_isSpace {t : List Char} (ht : ∀ c ∈ t, isSpace c = true) :
    ')' ∉ t := fun h => absurd (ht _ h) (by decide)

/-- A line that a statement ends in keeps the front. -/
theorem Line.upTo_text {lead : List Char} (hlead : ')' ∉ lead) (l : Line u lead) :
    upTo closing l.text = l.indent ++ (lead ++ upTo closing l.rest) := by
  have hindent := rightBracket_notMem_of_isSpace l.indent_space
  rw [Line.text, show closing = ')' :: ";".toList from rfl, upTo_append_of_notMem hindent,
    upTo_append_of_notMem hlead]

/-- What a line holds before the end of the statement is still the rest of a line. -/
theorem Line.upTo_rest {lead : List Char} (l : Line u lead) :
    (∀ c ∈ (upTo closing l.rest).head?, u.isWord c = false) ∧
      ∀ c ∈ upTo closing l.rest, isLineBreak c = false := by
  obtain ⟨v, hv⟩ := upTo_isPrefix closing l.rest
  constructor
  · intro c hc
    refine l.rest_word c ?_
    rw [← hv, List.head?_append, Option.mem_def.mp hc]
    rfl
  · exact fun c hc => l.rest_break c (hv ▸ List.mem_append_left v hc)

namespace Clause

theorem isWord_unique : ∀ c ∈ "UNIQUE".toList, u.isWord c = true := isWord_of_all (by decide)

theorem text_break (c : Clause u) : ∀ d ∈ c.text, isLineBreak d = false := by
  have hline {lead : List Char} (hlead : ∀ d ∈ lead, isLineBreak d = false) (l : Line u lead) :
      ∀ d ∈ l.text, isLineBreak d = false := by
    intro d hd
    rcases List.mem_append.mp hd with h | h
    · exact l.indent_break d h
    · exact (List.mem_append.mp h).elim (hlead d) (l.rest_break d)
  cases c with
  | column c => exact hline (fun d hd => Unicode.isLineBreak_of_isWord (c.name_word d hd)) c.line
  | foreignKey l => exact hline (by simp [isLineBreak]) l
  | unique l =>
    exact hline (fun d hd => Unicode.isLineBreak_of_isWord (isWord_unique (u := u) d hd)) l

/-- A clause on its own line is read as its field, or as none. -/
theorem fieldOf_text (c : Clause u) : fieldOf u c.text = c.fieldName := by
  cases c with
  | column c =>
    exact fieldOf_word c.line.indent_space c.name_ne c.name_word c.name_ne_foreign
      c.line.rest_word c.line.rest_break
  | foreignKey l => exact fieldOf_foreignKey l.indent_space l.rest
  | unique l =>
    exact fieldOf_word l.indent_space (by decide) isWord_unique (by decide) l.rest_word
      l.rest_break

/-- A statement that ends within a clause leaves the generator the name. -/
theorem fieldOf_upTo (c : Clause u) : fieldOf u (upTo closing c.text) = c.fieldName := by
  cases c with
  | column c =>
    have hrest := c.line.upTo_rest
    rw [text, c.line.upTo_text (rightBracket_notMem_of_isWord c.name_word)]
    exact fieldOf_word c.line.indent_space c.name_ne c.name_word c.name_ne_foreign hrest.1 hrest.2
  | foreignKey l =>
    rw [text, l.upTo_text (by decide)]
    exact fieldOf_foreignKey l.indent_space _
  | unique l =>
    have hrest := l.upTo_rest
    rw [text, l.upTo_text (by decide)]
    exact fieldOf_word l.indent_space (by decide) isWord_unique (by decide) hrest.1 hrest.2

end Clause

/-- What is read off the lines up to the first end of a statement. -/
theorem filterMap_splitlines_upTo (clauses : List (Clause u)) :
    (splitlines (upTo closing (clauses.flatMap (fun c => c.text ++ ['\n']) ++ closing))).filterMap
      (fieldOf u) = (Cells.through Clause.closes clauses).filterMap Clause.fieldName := by
  induction clauses with
  | nil => rfl
  | cons c clauses ih =>
    rw [List.flatMap_cons, List.append_assoc, List.append_assoc, List.singleton_append,
      upTo_append_cons (by decide) (by decide), Cells.through]
    by_cases hcloses : closing <:+: c.text
    · -- the statement ends within this clause, of which the front is read
      have hbreak : ∀ d ∈ upTo closing c.text, isLineBreak d = false := fun d hd =>
        c.text_break d ((upTo_isPrefix closing c.text).subset hd)
      have hc : c.closes = true := decide_eq_true hcloses
      rw [if_pos hcloses, if_pos hc, splitlines_of_not hbreak, List.filterMap_cons,
        List.filterMap_nil, ← c.fieldOf_upTo]
      split_ifs with hnil
      · rw [hnil, fieldOf_nil]
        rfl
      · rfl
    · rw [if_neg hcloses, if_neg (by rwa [Clause.closes, decide_eq_true_iff]),
        splitlines_append c.text_break, List.filterMap_cons, List.filterMap_cons, ih,
        c.fieldOf_text]

namespace TableStatement

/-- The fields that the generator reads for a table. -/
def readFields (t : TableStatement u) : List (List Char) :=
  (Cells.through Clause.closes t.clauses).filterMap Clause.fieldName

/-- The body of a table statement is read clause by clause, up to the first that closes it. -/
theorem fieldNames_body (t : TableStatement u) :
    fieldNames u (upTo closing t.body) = t.readFields := by
  have hbody : t.body = [] ++ '\n' ::
    (t.clauses.flatMap (fun c => c.text ++ ['\n']) ++ closing) := rfl
  rw [fieldNames_eq, hbody, upTo_append_cons (by decide) (by decide), if_neg (by decide),
    splitlines_append (by simp), List.filterMap_cons, fieldOf_nil, filterMap_splitlines_upTo]
  rfl

end TableStatement

/-! ### Searching a script -/

/-- The part of the pattern behind the name of a table. -/
def tableBody : Pattern Char :=
  .seq (.many isSpace) <| .seq (.literal "(".toList) <|
    .seq (.group (.manyLazy fun _ => true)) (.literal ");".toList)

/-- A text that begins neither with white space nor with the bracket is no such part. -/
theorem run_tableBody_of_not {c : Char} {t : List Char} (hspace : isSpace c = false)
    (hbracket : c ≠ '(') (b : Option Char) : run tableBody b (c :: t) = [] := by
  have hmany : run (.many isSpace) b (c :: t) = [⟨[], c :: t, []⟩] := by
    rw [run, splits_of_head (by rintro d ⟨⟩; exact hspace)]
    rfl
  rw [tableBody, run_seq_of_first hmany fun _ h => absurd h List.not_mem_nil]
  refine List.map_eq_nil_iff.mpr (run_seq_of_nil (run_literal_of_not fun h => ?_))
  exact hbracket (List.cons_prefix_cons.mp h).1.symm

theorem isWord_leftBracket : u.isWord '(' = false := by
  rw [u.isWord_ascii _ (by decide)]
  decide

section Statement

variable {name gap fields rest : List Char}

/-- The word in front of the bracket ends before the white space between the two. -/
theorem isWord_behind_name (hgap : ∀ c ∈ gap, isSpace c = true) :
    ∀ c ∈ (gap ++ '(' :: rest).head?, u.isWord c = false := by
  cases gap with
  | nil =>
    rintro c ⟨⟩
    exact isWord_leftBracket
  | cons d gap =>
    rintro c ⟨⟩
    exact u.isWord_of_isSpace _ (hgap d List.mem_cons_self)

/-- The body of a table statement ends at the first closing bracket and semicolon. -/
theorem head?_run_tableBody (hgap : ∀ c ∈ gap, isSpace c = true)
    (hfields : ∀ u₁ c u₂, fields = u₁ ++ c :: u₂ → ¬closing <+: c :: (u₂ ++ (closing ++ rest)))
    (b : Option Char) :
    ∃ m, (run tableBody b (gap ++ '(' :: (fields ++ (closing ++ rest)))).head? = some m ∧
      m.rest = rest ∧ m.groups = [fields] := by
  obtain ⟨ms, hspaces, hms⟩ := exists_run_many (b := b) (p := isSpace)
    (t := '(' :: (fields ++ (closing ++ rest))) hgap (by rintro c ⟨⟩; decide)
  -- white space that is matched in part is not followed by the bracket
  have hinside : ∀ m ∈ ms, run (.seq (.literal "(".toList)
      (.seq (.group (.manyLazy fun _ => true)) (.literal closing))) (m.before b) m.rest = [] := by
    intro m hm
    obtain ⟨c, hc, hspace⟩ := hms m hm
    obtain ⟨t, ht⟩ : ∃ t, m.rest = c :: t := List.head?_eq_some_iff.mp hc
    refine run_seq_of_nil (run_literal_of_not fun h => ?_)
    rw [ht] at h
    exact absurd ((List.cons_prefix_cons.mp h).1 ▸ hspace) (by decide)
  have hopen (b : Option Char) : run (.literal "(".toList) b
      ('(' :: (fields ++ (closing ++ rest))) = [⟨"(".toList, fields ++ (closing ++ rest), []⟩] :=
    run_literal_append "(".toList _
  have hlazy (b : Option Char) : (run (.seq (.group (.manyLazy fun _ => true))
      (.literal closing)) b (fields ++ (closing ++ rest))).head? =
        some ⟨fields ++ closing, rest, [fields]⟩ := by
    refine head?_run_lazy (m := ⟨closing, rest, []⟩) (fun _ _ => rfl) ?_ ?_
    · exact fun u₁ c u₂ b' heq => run_literal_of_not (hfields u₁ c u₂ heq)
    · rw [run_literal_append]
      rfl
  exact ⟨_, head?_run_seq hspaces hinside
    (head?_run_seq (hopen _) (fun _ h => absurd h List.not_mem_nil) (hlazy _)), rfl, rfl⟩

/-- The pattern of a table takes a statement up to its first end. -/
theorem head?_run_tablePattern (hne : name ≠ []) (hname : ∀ c ∈ name, u.isWord c = true)
    (hgap : ∀ c ∈ gap, isSpace c = true)
    (hfields : ∀ u₁ c u₂, fields = u₁ ++ c :: u₂ → ¬closing <+: c :: (u₂ ++ (closing ++ rest)))
    (b : Option Char) :
    ∃ m, (run (tablePattern u) b
        (createTable ++ (name ++ (gap ++ '(' :: (fields ++ (closing ++ rest)))))).head? = some m ∧
      m.text ≠ [] ∧ m.rest = rest ∧ m.groups = [name, fields] := by
  have hkeyword : run (.literal createTable) b (createTable ++ (name ++ (gap ++ '(' ::
      (fields ++ (closing ++ rest))))) = [⟨createTable, name ++ (gap ++ '(' ::
        (fields ++ (closing ++ rest))), []⟩] := run_literal_append createTable _
  obtain ⟨ms, hword, hms⟩ := exists_run_plus (b := (createTable.getLast?.or b)) hne hname
    (isWord_behind_name hgap)
  -- a shorter name leaves a part of it in front of the rest of the pattern
  have hinside : ∀ m ∈ ms.map Match.grouped,
      run tableBody (m.before (createTable.getLast?.or b)) m.rest = [] := by
    intro m hm
    obtain ⟨m', hm', rfl⟩ := List.mem_map.mp hm
    obtain ⟨⟨c, hc, hcw⟩, -⟩ := hms m' hm'
    obtain ⟨t, ht⟩ : ∃ t, m'.rest = c :: t := List.head?_eq_some_iff.mp hc
    rw [Match.grouped_rest, ht]
    refine run_tableBody_of_not (Unicode.isSpace_of_isWord hcw) ?_ _
    rintro rfl
    exact Bool.false_ne_true (isWord_leftBracket.symm.trans hcw)
  obtain ⟨n, hn, hrest, hgroups⟩ := head?_run_tableBody hgap hfields
    ((⟨name, gap ++ '(' :: (fields ++ (closing ++ rest)), []⟩ : Match Char).grouped.before
      (createTable.getLast?.or b))
  refine ⟨_, head?_run_seq hkeyword (fun _ h => absurd h List.not_mem_nil)
    (head?_run_seq (run_group_of_cons hword) hinside hn), ?_, hrest, ?_⟩
  · have hkeyword_ne : createTable ≠ [] := by decide
    exact List.append_ne_nil_of_left_ne_nil hkeyword_ne _
  · rw [Match.append_groups, Match.append_groups, hgroups]
    rfl

end Statement

/-- Only `CREATE TABLE` starts a table statement. -/
theorem run_tablePattern_of_not {t : List Char} (h : ¬createTable <+: t) (b : Option Char) :
    run (tablePattern u) b t = [] :=
  run_seq_of_nil (run_literal_of_not h)

/-- Where no statement begins, none is found. -/
theorem findall_other {other t : List Char} (hother : ¬createTable <:+: other)
    (ht : t = [] ∨ createTable <+: t) (b : Option Char) :
    findall (tablePattern u) b 0 (other ++ t) =
      findall (tablePattern u) (other.getLast?.or b) 0 t := by
  refine findall_append_of_none fun u₁ c u₂ b' heq => run_tablePattern_of_not (fun h => ?_) b'
  have hnot : ¬createTable <+: c :: u₂ := fun h' =>
    hother (heq ▸ h'.isInfix.trans (List.suffix_append u₁ _).isInfix)
  rcases ht with rfl | ht
  · rw [List.append_nil] at h
    exact hnot h
  · exact hnot (prefix_of_prefix_append (by decide) ht (List.cons_ne_nil c u₂) h)

namespace TableStatement

/-- No statement begins in a clause, and none runs over the end of a line. -/
theorem noStatement_clauses (clauses : List (Clause u)) :
    ¬createTable <:+: clauses.flatMap fun c => c.text ++ ['\n'] := by
  induction clauses with
  | nil => exact fun h => absurd (List.infix_nil.mp h) (by decide)
  | cons c clauses ih =>
    rw [List.flatMap_cons, List.append_assoc, List.singleton_append,
      infix_append_cons_iff (by decide)]
    rintro (h | h)
    · cases c with
      | column c => exact c.line.noStatement h
      | foreignKey l => exact l.noStatement h
      | unique l => exact l.noStatement h
    · exact ih h

/-- No statement begins within another. -/
theorem noStatement_body (t : TableStatement u) {other : List Char}
    (hother : ¬createTable <:+: other) : ¬createTable <:+: t.body ++ other := by
  -- the line break, the bracket and the semicolon are not in the keywords
  have hbody : t.body ++ other = [] ++ '\n' ::
      ((t.clauses.flatMap fun c => c.text ++ ['\n']) ++ ')' :: ([] ++ ';' :: other)) := by
    simp [body, closing]
  rw [hbody, infix_append_cons_iff (by decide), infix_append_cons_iff (by decide),
    infix_append_cons_iff (by decide)]
  rintro (h | h | h | h)
  · exact absurd (List.infix_nil.mp h) (by decide)
  · exact noStatement_clauses t.clauses h
  · exact absurd (List.infix_nil.mp h) (by decide)
  · exact hother h

/-- What a statement leaves to the search that finds it. -/
theorem exists_findall (t : TableStatement u) (more : List Char) (b : Option Char) :
    ∃ m left b', m.groups = [t.name, upTo closing t.body] ∧
      findall (tablePattern u) b 0 (t.text ++ more) =
        m :: findall (tablePattern u) b' 0 (left ++ more) ∧
      (∀ other, ¬createTable <:+: other → ¬createTable <:+: left ++ other) := by
  obtain ⟨v, hbody, hfound, hbefore⟩ := exists_upTo closing t.body
  obtain ⟨left, rfl⟩ := hfound (List.suffix_append _ closing).isInfix
  -- the lazy match cannot end earlier
  have hfields : ∀ u₁ c u₂, upTo closing t.body = u₁ ++ c :: u₂ →
      ¬closing <+: c :: (u₂ ++ (closing ++ (left ++ more))) := by
    intro u₁ c u₂ heq h
    refine hbefore u₁ c u₂ heq (List.prefix_of_prefix_length_le h ?_ ?_)
    · exact ⟨more, by simp⟩
    · simp only [List.length_cons, List.length_append]
      omega
  obtain ⟨m, hm, htext, hrest, hgroups⟩ :=
    head?_run_tablePattern t.name_ne t.name_word t.gap_space hfields b
  refine ⟨m, left, m.before b, hgroups, ?_, fun other hother h => ?_⟩
  · have hsource : t.text ++ more = createTable ++ (t.name ++ (t.gap ++ '(' ::
        (upTo closing t.body ++ (closing ++ (left ++ more))))) := by
      rw [text]
      conv_lhs => rw [hbody]
      simp only [List.append_assoc, List.cons_append]
    rw [hsource, findall_of_head hm htext, hrest]
  · -- what is left of a statement stands before the end of its last bracket
    refine t.noStatement_body hother (h.trans ?_)
    rw [hbody, List.append_assoc, List.append_assoc]
    exact ((List.suffix_append closing _).trans (List.suffix_append _ _)).isInfix

end TableStatement

/-- The search finds the statements of a script, one after another. -/
theorem groups_findall (statements : List (List Char × TableStatement u)) (ending : List Char)
    (hother : ∀ s ∈ statements, ¬createTable <:+: s.1) (hending : ¬createTable <:+: ending)
    (left : List Char)
    (hleft : ∀ other, ¬createTable <:+: other → ¬createTable <:+: left ++ other)
    (b : Option Char) :
    (findall (tablePattern u) b 0
      (left ++ (statements.flatMap (fun s => s.1 ++ s.2.text) ++ ending))).map Match.groups =
      statements.map fun s => [s.2.name, upTo closing s.2.body] := by
  -- `left` is what the statement before has left of itself
  induction statements generalizing left b with
  | nil =>
    have hnone := findall_other (u := u) (hleft ending hending) (.inl rfl) b
    rw [List.append_nil] at hnone
    rw [List.flatMap_nil, List.nil_append, hnone, List.map_nil, findall]
    rfl
  | cons s statements ih =>
    have hs := hother s List.mem_cons_self
    obtain ⟨m, left', b', hgroups, hfind, hleft'⟩ := s.2.exists_findall
      (statements.flatMap (fun s => s.1 ++ s.2.text) ++ ending) ((left ++ s.1).getLast?.or b)
    have hskip := findall_other (u := u) (hleft s.1 hs) (.inr ((List.prefix_append createTable
      _).trans (List.prefix_append s.2.text
        (statements.flatMap (fun s => s.1 ++ s.2.text) ++ ending)))) b
    rw [List.flatMap_cons, List.append_assoc, List.append_assoc, ← List.append_assoc left, hskip,
      hfind, List.map_cons, List.map_cons, hgroups,
      ih (fun s' h => hother s' (List.mem_cons_of_mem _ h)) left' hleft' b']

/-! ### The tables that are read -/

/-- A new key of a dictionary stands last. -/
theorem assign_of_notMem {κ ν : Type} [DecidableEq κ] {key : κ} {items : List (κ × ν)}
    (h : key ∉ items.map Prod.fst) (value : ν) :
    assign key value items = items ++ [(key, value)] := by
  induction items with
  | nil => rfl
  | cons item items ih =>
    rw [List.map_cons, List.mem_cons, not_or] at h
    rw [assign, if_neg fun heq => h.1 heq.symm, ih h.2]
    rfl

/-- Assigning values under new keys appends them in order. -/
theorem foldl_assign {ι κ ν : Type} [DecidableEq κ] (key : ι → κ) (value : ι → ν) (xs : List ι)
    (items : List (κ × ν)) (h : (items.map Prod.fst ++ xs.map key).Nodup) :
    xs.foldl (fun items x => assign (key x) (value x) items) items =
      items ++ xs.map fun x => (key x, value x) := by
  induction xs generalizing items with
  | nil => simp
  | cons x xs ih =>
    have hnew : key x ∉ items.map Prod.fst := fun hmem =>
      (List.nodup_append.mp h).2.2 _ hmem _ List.mem_cons_self rfl
    have hnodup : ((items ++ [(key x, value x)]).map Prod.fst ++ xs.map key).Nodup := by
      simpa using h
    rw [List.foldl_cons, assign_of_notMem hnew, ih _ hnodup, List.append_assoc]
    rfl

/-- A script is read statement by statement. -/
theorem parseSqlFile_text (s : Script u) : parseSqlFile u s.text =
    s.statements.map fun st => (st.2.name, st.2.readFields) := by
  have hgroups := groups_findall s.statements s.ending s.other s.other_ending [] (fun _ h => h) none
  calc parseSqlFile u s.text
      = s.statements.foldl (fun tables st =>
          assign st.2.name (fieldNames u (upTo closing st.2.body)) tables) [] := by
        rw [parseSqlFile, show s.text = [] ++ s.text from rfl, Script.text, hgroups,
          List.foldl_map]
        rfl
    _ = s.statements.map fun st => (st.2.name, fieldNames u (upTo closing st.2.body)) := by
        rw [foldl_assign (fun st : List Char × TableStatement u => st.2.name) _ _ []
          s.names_nodup]
        rfl
    _ = _ := by simp only [TableStatement.fieldNames_body]

namespace TableStatement

/-- No constraint of the statement is read as a column, and every column is read: what is read of
the statement ends with its first `);`. -/
def IsRead (t : TableStatement u) : Prop :=
  (∀ c ∈ Cells.through Clause.closes t.clauses, c.isUnique = false) ∧
    ∀ c ∈ t.columns.dropLast, (Clause.column c).closes = false

theorem through_map_column (columns : List (Column u)) :
    Cells.through Clause.closes (columns.map .column) =
      (Cells.through (fun c => (Clause.column c).closes) columns).map .column := by
  induction columns with
  | nil => rfl
  | cons c columns ih =>
    rw [List.map_cons, Cells.through, Cells.through, ih]
    split <;> rfl

theorem filterMap_column (columns : List (Column u)) :
    (columns.map Clause.column).filterMap Clause.fieldName = columns.map Column.name := by
  rw [List.filterMap_map]
  exact congrFun List.filterMap_eq_map columns

/-- All columns are read exactly if no clause before the last closes the statement. -/
theorem readFields_eq_iff (t : TableStatement u) :
    t.readFields = t.columns.map Column.name ↔ t.IsRead := by
  unfold readFields IsRead clauses
  by_cases hcloses : ∃ c ∈ t.columns.map Clause.column, c.closes = true
  · -- the statement ends with one of its columns
    rw [Cells.through_append_of_exists hcloses, through_map_column, filterMap_column,
      ← Cells.through_eq_self_iff]
    have hstart := Cells.through_prefix (fun c => (Clause.column c).closes) t.columns
    constructor
    · intro h
      refine ⟨fun c hc => ?_, hstart.eq_of_length ?_⟩
      · obtain ⟨c', -, rfl⟩ := List.mem_map.mp hc
        rfl
      · simpa using congrArg List.length h
    · rintro ⟨-, h⟩
      rw [h]
  · -- all columns are read, and some of the constraints, none of which may be `UNIQUE`
    have hopen : ∀ c ∈ t.columns.map Clause.column, c.closes = false := fun c hc =>
      Bool.eq_false_iff.mpr fun h => hcloses ⟨c, hc, h⟩
    rw [Cells.through_append_of_forall hopen, List.filterMap_append, filterMap_column,
      List.append_right_eq_self, List.filterMap_eq_nil_iff]
    constructor
    · intro h
      refine ⟨fun c hc => ?_, fun c hc => ?_⟩
      · rcases List.mem_append.mp hc with hc | hc
        · obtain ⟨c', -, rfl⟩ := List.mem_map.mp hc
          rfl
        · cases c with
          | unique l => exact absurd (h _ hc) (by simp [Clause.fieldName])
          | _ => rfl
      · exact hopen _ (List.mem_map_of_mem ((List.dropLast_sublist _).mem hc))
    · rintro ⟨h, -⟩ c hc
      have hconstraint := t.isConstraint c ((Cells.through_prefix _ _).subset hc)
      have hunique := h c (List.mem_append_right _ hc)
      cases c with
      | column c => exact absurd hconstraint Bool.false_ne_true.symm
      | foreignKey l => rfl
      | unique l => exact absurd hunique Bool.false_ne_true.symm

end TableStatement

/-! ### The fields that are generated -/

/-- The constant of a column: its name in JSON, under the name of a key. -/
def keyDefinition (key column : List Char) : List Char :=
  "    static constexpr const char *".toList ++ key ++ " = \"".toList ++ column ++ "\";".toList

/-- The member of the structure for a column. -/
def fieldDefinition (column : List Char) : List Char :=
  "    std::string ".toList ++ column ++ "\x7b\x7d;".toList

/-- The entry of a column in the list that the structure is turned into. -/
def serialization (table key column : List Char) : List Char :=
  "\x7b".toList ++ table ++ "::".toList ++ key ++ ", u.".toList ++ column ++ "\x7d".toList

/-- The statement that reads the member for a column. -/
def deserialization (table key column : List Char) : List Char :=
  "j.at(".toList ++ table ++ "::".toList ++ key ++ ").get_to(u.".toList ++ column ++ ");".toList

/-- **One field for each column.** The structure of a table has a constant and a member for each
column, and the codec writes and reads each member under its constant; no two names that the
structure declares are the same. -/
def OneFieldPerColumn (e : GeneratedEntity) (table : List Char × List (List Char)) : Prop :=
  ∃ keys : List (List Char), keys.length = table.2.length ∧
    ("TABLE_NAME".toList :: (keys ++ table.2)).Nodup ∧
    e = { structName := table.1
          keyDefinitions := List.zipWith keyDefinition keys table.2
          fieldDefinitions := table.2.map fieldDefinition
          jsonSerialization := List.zipWith (serialization table.1) keys table.2
          jsonDeserialization := List.zipWith (deserialization table.1) keys table.2 }

variable (u) in
/-- The name of the constant of a column. -/
def keyName (column : List Char) : List Char := camelToSnake u column ++ "_KEY".toList

variable (u) in
/-- The names that the structure with these columns declares. -/
def declaredNames (columns : List (List Char)) : List (List Char) :=
  "TABLE_NAME".toList :: (columns.map (keyName u) ++ columns)

/-- What is made of a list and of a list that is made of it is made of the one list. -/
theorem zipWith_map_self {α β γ : Type} (f : β → α → γ) (g : α → β) (xs : List α) :
    List.zipWith f (xs.map g) xs = xs.map fun x => f (g x) x := by
  rw [List.zipWith_map_left, List.zipWith_self]

/-- The end of the name of a key is written together with what follows it. -/
theorem append_key (t name rest : List Char) :
    t ++ (name ++ "_KEY".toList) ++ rest = t ++ name ++ ("_KEY".toList ++ rest) := by
  rw [← List.append_assoc, List.append_assoc (t ++ name)]

/-- The constants are those of the names in capital letters. -/
theorem keyDefinitions_generateEntity (table : List Char × List (List Char)) :
    (generateEntity u table).keyDefinitions =
      List.zipWith keyDefinition (table.2.map (keyName u)) table.2 := by
  rw [zipWith_map_self]
  refine List.map_congr_left fun column _ => ?_
  unfold keyDefinition keyName
  simp only [append_key]
  rfl

/-- A key's definition tells the key. -/
theorem keyDefinition_inj {key key' column : List Char}
    (h : keyDefinition key column = keyDefinition key' column) : key = key' := by
  unfold keyDefinition at h
  have hcolumn := List.append_cancel_right h
  exact List.append_cancel_left (List.append_cancel_right (List.append_cancel_right hcolumn))

/-- The constants that are written tell the names of the keys. -/
theorem zipWith_keyDefinition_inj {keys keys' columns : List (List Char)}
    (hlen : keys.length = columns.length) (hlen' : keys'.length = columns.length)
    (h : List.zipWith keyDefinition keys columns = List.zipWith keyDefinition keys' columns) :
    keys = keys' := by
  induction columns generalizing keys keys' with
  | nil => rw [List.length_eq_zero_iff.mp hlen, List.length_eq_zero_iff.mp hlen']
  | cons column columns ih =>
    match keys, keys' with
    | key :: keys, key' :: keys' =>
      rw [List.zipWith_cons_cons, List.zipWith_cons_cons] at h
      obtain ⟨hkey, hkeys⟩ := List.cons.inj h
      rw [keyDefinition_inj hkey,
        ih (Nat.succ.inj hlen) (Nat.succ.inj hlen') hkeys]

/-- What is generated for a table has one field for each column, exactly if no name is declared
twice. -/
theorem oneFieldPerColumn_iff (table : List Char × List (List Char)) :
    OneFieldPerColumn (generateEntity u table) table ↔ (declaredNames u table.2).Nodup := by
  have hlen : (table.2.map (keyName u)).length = table.2.length := List.length_map _
  constructor
  · rintro ⟨keys, hkeys, hnodup, heq⟩
    have hdefinitions := congrArg GeneratedEntity.keyDefinitions heq
    rw [keyDefinitions_generateEntity] at hdefinitions
    rw [declaredNames, zipWith_keyDefinition_inj hlen hkeys hdefinitions]
    exact hnodup
  · intro hnodup
    refine ⟨_, hlen, hnodup, ?_⟩
    rw [← keyDefinitions_generateEntity, zipWith_map_self, zipWith_map_self]
    unfold serialization deserialization keyName
    simp only [append_key]
    rfl

variable (u) in
/-- **When the generator reads the schema right.** It reads the columns of every table, and nothing
else, and makes one field of each, if and only if no `UNIQUE` clause is among the lines that it
reads, all columns are, and no structure declares a name twice. -/
theorem parseSqlFile_exact_iff (s : Script u) :
    (parseSqlFile u s.text = s.tables ∧
      List.Forall₂ OneFieldPerColumn (generateEntities u (parseSqlFile u s.text)) s.tables) ↔
    ∀ st ∈ s.statements, st.2.IsRead ∧ (declaredNames u (st.2.columns.map Column.name)).Nodup := by
  have hread : parseSqlFile u s.text = s.tables ↔ ∀ st ∈ s.statements, st.2.IsRead := by
    rw [parseSqlFile_text, Script.tables, List.map_inj_left]
    refine forall₂_congr fun st _ => ?_
    rw [Prod.mk.injEq, eq_self, true_and, st.2.readFields_eq_iff]
  have hfields : List.Forall₂ OneFieldPerColumn (generateEntities u s.tables) s.tables ↔
      ∀ st ∈ s.statements, (declaredNames u (st.2.columns.map Column.name)).Nodup := by
    rw [generateEntities, List.forall₂_map_left_iff, List.forall₂_same, Script.tables,
      List.forall_mem_map]
    exact forall₂_congr fun st _ => oneFieldPerColumn_iff _
  rw [forall₂_and, ← hread, ← hfields]
  exact and_congr_right fun heq => by rw [heq]

end EntityGenerator

/-! ### The table of the stock -/

theorem Python.not_isAlphanum_of_isSpace {c : Char} (h : Python.isSpace c = true) :
    (c.isAlphanum || c == '_') = false := by
  have hval : c.val.toNat = c.toNat := rfl
  have hne : c ≠ '_' := by
    rintro rfl
    exact absurd h (by decide)
  have hcodes : c.isAlphanum = ((decide (c.val ≥ 65 ∧ c.val ≤ 90) || c.val ≥ 97 && c.val ≤ 122) ||
      c.val ≥ 48 && c.val ≤ 57) := rfl
  simp [isSpace] at h
  simp [hcodes, UInt32.le_iff_toNat_le, hval, hne]
  omega

/-- Words and letters of ASCII. -/
def Python.Unicode.ascii : Python.Unicode where
  isWord c := c.isAlphanum || c == '_'
  isWord_ascii _ _ := rfl
  isWord_of_isSpace _ h := not_isAlphanum_of_isSpace h
  upper := List.map Char.toUpper

namespace EntityGenerator

open Python

/-- The line of a clause, indented by two blanks. -/
def indented (lead rest : String)
    (hword : rest.toList.head?.all (fun c => !Unicode.ascii.isWord c) = true := by decide +kernel)
    (hbreak : rest.toList.all (fun c => !isLineBreak c) = true := by decide +kernel)
    (hstatement : ¬createTable <:+: "  ".toList ++ (lead.toList ++ rest.toList) := by
      decide +kernel) :
    Line .ascii lead.toList where
  indent := "  ".toList
  rest := rest.toList
  indent_space := by simp [isSpace]
  indent_break := by simp [isLineBreak]
  rest_word := by simpa [Option.all_eq_true] using hword
  rest_break := by simpa using hbreak
  noStatement := hstatement

/-- The statement that creates the table `Inventory`. -/
def inventoryStatement : TableStatement .ascii where
  name := "Inventory".toList
  name_ne := by decide +kernel
  name_word := isWord_of_all (by decide)
  gap := " ".toList
  gap_space := by simp [isSpace]
  columns :=
    [⟨"id".toList, by decide, isWord_of_all (by decide), by decide,
        indented "id" " INTEGER PRIMARY KEY AUTOINCREMENT,"⟩,
      ⟨"productTypeId".toList, by decide, isWord_of_all (by decide), by decide,
        indented "productTypeId" " INTEGER,"⟩,
      ⟨"quantityAvailable".toList, by decide, isWord_of_all (by decide), by decide,
        indented "quantityAvailable" " INTEGER,"⟩,
      ⟨"employeeId".toList, by decide, isWord_of_all (by decide), by decide,
        indented "employeeId" " INTEGER,"⟩]
  constraints :=
    [.unique (indented "UNIQUE" " (productTypeId),"),
      .foreignKey (indented "FOREIGN KEY" " (productTypeId) REFERENCES ProductType(id),"),
      .foreignKey (indented "FOREIGN KEY" " (employeeId) REFERENCES Employee(id)")]
  isConstraint := by simp [Clause.isColumn]

def inventoryScript : Script .ascii where
  statements := [("-- Create Inventory table\n".toList, inventoryStatement)]
  ending := "\n".toList
  names_nodup := by simp
  other := by
    intro s hs
    obtain rfl := List.mem_singleton.mp hs
    decide +kernel
  other_ending := by decide +kernel

example : inventoryScript.text = ["-- Create Inventory table", "CREATE TABLE Inventory (",
    "  id INTEGER PRIMARY KEY AUTOINCREMENT,", "  productTypeId INTEGER,",
    "  quantityAvailable INTEGER,", "  employeeId INTEGER,", "  UNIQUE (productTypeId),",
    "  FOREIGN KEY (productTypeId) REFERENCES ProductType(id),",
    "  FOREIGN KEY (employeeId) REFERENCES Employee(id)", ");"].flatMap
      (fun line => line.toList ++ "\n".toList) := by
  decide +kernel

/-- The stock's own columns are declared once, and two spellings of one name are not. -/
example : (declaredNames .ascii (inventoryStatement.columns.map Column.name)).Nodup ∧
    ¬(declaredNames .ascii ["userId".toList, "user_id".toList]).Nodup := by
  decide +kernel

/-- **A constraint that is read as a column**: `UNIQUE`, in the table of the stock. -/
theorem parseSqlFile_not_exact :
    ¬∀ (u : Unicode) (s : Script u), parseSqlFile u s.text = s.tables ∧
      List.Forall₂ OneFieldPerColumn (generateEntities u (parseSqlFile u s.text)) s.tables := by
  intro h
  have hfields : inventoryStatement.readFields = ["id".toList, "productTypeId".toList,
      "quantityAvailable".toList, "employeeId".toList, "UNIQUE".toList] := by decide +kernel
  have htables := (h .ascii inventoryScript).1
  rw [parseSqlFile_text] at htables
  have hcolumns : inventoryStatement.readFields = inventoryStatement.columns.map Column.name :=
    (Prod.mk.inj (List.cons.inj htables).1).2
  exact absurd (hfields.symm.trans hcolumns) (by decide +kernel)

end EntityGenerator

end SageStore
