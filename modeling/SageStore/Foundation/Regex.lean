import Mathlib.Data.List.Infix

/-!
# Regular expressions with backtracking

A pattern finds in a text, from a place on, a list of matches: all of them, in the order in which
a backtracking matcher tries them, so that the first is the one it returns. The fragment has
greedy and lazy repetition of a class, alternatives, groups and assertions.

When all matches of a pattern but the first leave something on which the next pattern fails, the
two in sequence match as if the first match were the only one (`run_seq_of_first`). A greedy
repetition is such a pattern, if what follows cannot begin with its class (`exists_run_plus`). A
lazy repetition takes what stands before the first place where the next pattern matches
(`head?_run_lazy`).
-/

namespace Regex

variable {α : Type*}

inductive Pattern (α : Type*) where
  | literal (w : List α)
  | one (p : α → Bool)
  /-- As many elements of a class as possible, or fewer. -/
  | many (p : α → Bool)
  /-- As few elements of a class as possible, or more. -/
  | manyLazy (p : α → Bool)
  | lineStart (isBreak : α → Bool)
  | lineEnd (isBreak : α → Bool)
  /-- The end or the start of a word. -/
  | boundary (isWord : α → Bool)
  | group (r : Pattern α)
  | seq (r s : Pattern α)
  | alt (r s : Pattern α)

/-- One or more elements of a class. -/
def Pattern.plus (p : α → Bool) : Pattern α := .seq (.one p) (.many p)

/-- What a match takes, what it leaves, and what its groups took. -/
@[ext]
structure Match (α : Type*) where
  text : List α
  rest : List α
  groups : List (List α)

namespace Match

/-- The element before what is left, when `b` stands before the match. -/
def before (m : Match α) (b : Option α) : Option α := m.text.getLast?.or b

def append (m n : Match α) : Match α := ⟨m.text ++ n.text, n.rest, m.groups ++ n.groups⟩

/-- The match as the text of a group. -/
def grouped (m : Match α) : Match α := { m with groups := m.text :: m.groups }

@[simp] theorem append_text (m n : Match α) : (m.append n).text = m.text ++ n.text := rfl
@[simp] theorem append_rest (m n : Match α) : (m.append n).rest = n.rest := rfl
@[simp] theorem append_groups (m n : Match α) : (m.append n).groups = m.groups ++ n.groups := rfl
@[simp] theorem grouped_text (m : Match α) : m.grouped.text = m.text := rfl
@[simp] theorem grouped_rest (m : Match α) : m.grouped.rest = m.rest := rfl

end Match

/-- The ways to take elements of a class from the front of a text, the shortest first. -/
def splits (p : α → Bool) : List α → List (Match α)
  | [] => [⟨[], [], []⟩]
  | c :: t => ⟨[], c :: t, []⟩ ::
      if p c then (splits p t).map fun m => { m with text := c :: m.text } else []

section

variable [DecidableEq α]

/-- The matches of a pattern in a text that stands behind `b`, the preferred one first. -/
def run : Pattern α → Option α → List α → List (Match α)
  | .literal w, _, t => if w <+: t then [⟨w, t.drop w.length, []⟩] else []
  | .one p, _, t =>
    match t with
    | [] => []
    | c :: t => if p c then [⟨[c], t, []⟩] else []
  | .many p, _, t => (splits p t).reverse
  | .manyLazy p, _, t => splits p t
  | .lineStart isBreak, b, t => if b.all isBreak then [⟨[], t, []⟩] else []
  | .lineEnd isBreak, _, t => if t.head?.all isBreak then [⟨[], t, []⟩] else []
  | .boundary isWord, b, t => if b.any isWord ≠ t.head?.any isWord then [⟨[], t, []⟩] else []
  | .group r, b, t => (run r b t).map Match.grouped
  | .seq r s, b, t => (run r b t).flatMap fun m => (run s (m.before b) m.rest).map m.append
  | .alt r s, b, t => run r b t ++ run s b t

/-- The matches that a search from the left finds, none within another. `skip` elements belong
to the match before. -/
def findall (r : Pattern α) (b : Option α) (skip : ℕ) : List α → List (Match α)
  | [] => (run r b []).head?.toList
  | c :: t =>
    match skip with
    | skip + 1 => findall r (some c) skip t
    | 0 =>
      match (run r b (c :: t)).head? with
      | some m => m :: findall r (some c) (m.text.length - 1) t
      | none => findall r (some c) 0 t

/-- The text with every match of a search replaced. -/
def sub (r : Pattern α) (replacement : Match α → List α) (b : Option α) (skip : ℕ) :
    List α → List α
  | [] => ((run r b []).head?.map replacement).getD []
  | c :: t =>
    match skip with
    | skip + 1 => sub r replacement (some c) skip t
    | 0 =>
      match (run r b (c :: t)).head? with
      | some m => replacement m ++ sub r replacement (some c) (m.text.length - 1) t
      | none => c :: sub r replacement (some c) 0 t

end

/-! ### Repetitions -/

section Splits

variable {p : α → Bool}

theorem exists_splits (p : α → Bool) (t : List α) : ∃ ms, splits p t = ⟨[], t, []⟩ :: ms := by
  cases t with
  | nil => exact ⟨[], rfl⟩
  | cons c t => exact ⟨_, rfl⟩

theorem splits_of_head {t : List α} (ht : ∀ c ∈ t.head?, p c = false) :
    splits p t = [⟨[], t, []⟩] := by
  cases t with
  | nil => rfl
  | cons c t => simp [splits, ht c rfl]

/-- Elements of the class are taken one by one, before what follows is looked at. -/
theorem splits_append {u : List α} (hu : ∀ c ∈ u, p c = true) (v : List α) :
    ∃ ms, splits p (u ++ v) =
        ms ++ (splits p v).map (fun m => { m with text := u ++ m.text }) ∧
      ∀ m ∈ ms, ∃ u₁ c u₂, u = u₁ ++ c :: u₂ ∧ m = ⟨u₁, c :: (u₂ ++ v), []⟩ := by
  induction u with
  | nil => exact ⟨[], by simp, fun _ h => absurd h List.not_mem_nil⟩
  | cons c u ih =>
    obtain ⟨ms, heq, hms⟩ := ih fun d hd => hu d (List.mem_cons_of_mem _ hd)
    refine ⟨⟨[], c :: (u ++ v), []⟩ :: ms.map fun m => { m with text := c :: m.text }, ?_, ?_⟩
    · rw [List.cons_append, splits, if_pos (hu c List.mem_cons_self), heq, List.map_append,
        List.map_map]
      rfl
    · intro m hm
      rcases List.mem_cons.mp hm with rfl | hm
      · exact ⟨[], c, u, rfl, rfl⟩
      · obtain ⟨m', hm', rfl⟩ := List.mem_map.mp hm
        obtain ⟨u₁, d, u₂, rfl, rfl⟩ := hms m' hm'
        exact ⟨c :: u₁, d, u₂, rfl, rfl⟩

/-- Every split divides the text, and all of its first part satisfies the predicate. -/
theorem splits_spec {t : List α} {m : Match α} (h : m ∈ splits p t) :
    m.text ++ m.rest = t ∧ (∀ c ∈ m.text, p c = true) ∧ m.groups = [] := by
  induction t generalizing m with
  | nil =>
    obtain rfl := List.mem_singleton.mp h
    exact ⟨rfl, fun _ h => absurd h List.not_mem_nil, rfl⟩
  | cons c t ih =>
    rcases List.mem_cons.mp h with rfl | h
    · exact ⟨rfl, fun _ h => absurd h List.not_mem_nil, rfl⟩
    · split_ifs at h with hc
      · obtain ⟨m', hm', rfl⟩ := List.mem_map.mp h
        obtain ⟨htext, hall, hgroups⟩ := ih hm'
        exact ⟨congrArg (c :: ·) htext, List.forall_mem_cons.mpr ⟨hc, hall⟩, hgroups⟩
      · exact absurd h List.not_mem_nil

end Splits

/-! ### Matches -/

section Run

variable [DecidableEq α] {p : α → Bool} {r s : Pattern α} {b : Option α} {t : List α}

/-- A match takes and leaves the text it is found in. -/
theorem run_text_rest {m : Match α} (h : m ∈ run r b t) : m.text ++ m.rest = t := by
  -- by induction on the pattern, whose parts are matched in other texts
  induction r generalizing b t m with
  | literal w =>
    unfold run at h
    split_ifs at h with hw
    · obtain rfl := List.mem_singleton.mp h
      exact List.prefix_iff_eq_append.mp hw
    · exact absurd h List.not_mem_nil
  | one p =>
    cases t with
    | nil => exact absurd h List.not_mem_nil
    | cons c t =>
      unfold run at h
      dsimp only at h
      split_ifs at h with hc
      · obtain rfl := List.mem_singleton.mp h
        rfl
      · exact absurd h List.not_mem_nil
  | many p => exact (splits_spec (List.mem_reverse.mp h)).1
  | manyLazy p => exact (splits_spec h).1
  | lineStart isBreak | lineEnd isBreak | boundary isWord =>
    unfold run at h
    split_ifs at h
    · obtain rfl := List.mem_singleton.mp h
      rfl
    · exact absurd h List.not_mem_nil
  | group r ih =>
    obtain ⟨m', hm', rfl⟩ := List.mem_map.mp h
    exact ih (m := m') hm'
  | seq r s ihr ihs =>
    obtain ⟨m₁, hm₁, h⟩ := List.mem_flatMap.mp h
    obtain ⟨m₂, hm₂, rfl⟩ := List.mem_map.mp h
    rw [Match.append_text, Match.append_rest, List.append_assoc, ihs hm₂, ihr hm₁]
  | alt r s ihr ihs => exact (List.mem_append.mp h).elim ihr ihs

/-- The pattern has no groups. -/
def Pattern.IsPlain : Pattern α → Prop
  | .group _ => False
  | .seq r s | .alt r s => r.IsPlain ∧ s.IsPlain
  | _ => True

/-- A pattern without groups captures nothing. -/
theorem groups_of_isPlain (hr : r.IsPlain) {m : Match α} (h : m ∈ run r b t) : m.groups = [] := by
  induction r generalizing b t m with
  | literal | lineStart | lineEnd | boundary =>
    unfold run at h
    split_ifs at h
    · obtain rfl := List.mem_singleton.mp h
      rfl
    · exact absurd h List.not_mem_nil
  | one p =>
    cases t with
    | nil => exact absurd h List.not_mem_nil
    | cons c t =>
      unfold run at h
      dsimp only at h
      split_ifs at h
      · obtain rfl := List.mem_singleton.mp h
        rfl
      · exact absurd h List.not_mem_nil
  | many p => exact (splits_spec (List.mem_reverse.mp h)).2.2
  | manyLazy p => exact (splits_spec h).2.2
  | group r => exact hr.elim
  | seq r s ihr ihs =>
    obtain ⟨m₁, hm₁, h⟩ := List.mem_flatMap.mp h
    obtain ⟨m₂, hm₂, rfl⟩ := List.mem_map.mp h
    rw [Match.append_groups, ihr hr.1 hm₁, ihs hr.2 hm₂, List.append_nil]
  | alt r s ihr ihs => exact (List.mem_append.mp h).elim (ihr hr.1) (ihs hr.2)

theorem run_literal_append (w t : List α) : run (.literal w) b (w ++ t) = [⟨w, t, []⟩] := by
  unfold run
  rw [if_pos (List.prefix_append w t), List.drop_left]

theorem run_literal_of_not {w : List α} (h : ¬w <+: t) : run (.literal w) b t = [] := if_neg h

/-- Where only the first match of `r` leaves something that `s` matches, it decides. -/
theorem run_seq_of_first {m : Match α} {ms : List (Match α)} (hr : run r b t = m :: ms)
    (hs : ∀ m' ∈ ms, run s (m'.before b) m'.rest = []) :
    run (.seq r s) b t = (run s (m.before b) m.rest).map m.append := by
  have hnil : ms.flatMap (fun m' => (run s (m'.before b) m'.rest).map m'.append) = [] :=
    List.flatMap_eq_nil_iff.mpr fun m' hm' => by rw [hs m' hm', List.map_nil]
  rw [run, hr, List.flatMap_cons, hnil, List.append_nil]

/-- The first match of a sequence extends the first match of its head, if only that one can be
continued. -/
theorem head?_run_seq {m n : Match α} {ms : List (Match α)} (hr : run r b t = m :: ms)
    (hs : ∀ m' ∈ ms, run s (m'.before b) m'.rest = [])
    (hn : (run s (m.before b) m.rest).head? = some n) :
    (run (.seq r s) b t).head? = some (m.append n) := by
  rw [run_seq_of_first hr hs, List.head?_map, hn]
  rfl

theorem run_seq_of_nil (hr : run r b t = []) : run (.seq r s) b t = [] := by
  rw [run, hr, List.flatMap_nil]

/-- A match before which another element of the class could have been taken. -/
def StopsShort (p : α → Bool) (m : Match α) : Prop := ∃ c, m.rest.head? = some c ∧ p c = true

/-- The preferred match of a greedy repetition takes all there is. -/
theorem exists_run_many {u : List α} (hu : ∀ c ∈ u, p c = true)
    (ht : ∀ c ∈ t.head?, p c = false) :
    ∃ ms, run (.many p) b (u ++ t) = ⟨u, t, []⟩ :: ms ∧ ∀ m ∈ ms, StopsShort p m := by
  obtain ⟨ms, heq, hms⟩ := splits_append hu t
  refine ⟨ms.reverse, ?_, fun m hm => ?_⟩
  · rw [run, heq, splits_of_head ht, List.reverse_append]
    simp
  · obtain ⟨u₁, c, u₂, rfl, rfl⟩ := hms m (List.mem_reverse.mp hm)
    exact ⟨c, rfl, hu c (by simp)⟩

theorem run_plus_cons {c : α} (hc : p c = true) (t : List α) : run (.plus p) b (c :: t) =
    (run (.many p) (some c) t).map fun m => { m with text := c :: m.text } := by
  have hone : run (.one p) b (c :: t) = [⟨[c], t, []⟩] := if_pos hc
  rw [Pattern.plus, run_seq_of_first hone fun _ h => absurd h List.not_mem_nil]
  rfl

theorem run_plus_of_head (ht : ∀ c ∈ t.head?, p c = false) : run (.plus p) b t = [] := by
  refine run_seq_of_nil ?_
  cases t with
  | nil => rfl
  | cons c t => exact if_neg (by simp [ht c rfl])

/-- A run of characters is matched whole first; every other match stops short of it. -/
theorem exists_run_plus {u : List α} (hne : u ≠ []) (hu : ∀ c ∈ u, p c = true)
    (ht : ∀ c ∈ t.head?, p c = false) :
    ∃ ms, run (.plus p) b (u ++ t) = ⟨u, t, []⟩ :: ms ∧
      ∀ m ∈ ms, StopsShort p m ∧ ∃ c, m.before b = some c ∧ p c = true := by
  obtain ⟨c, u, rfl⟩ := List.exists_cons_of_ne_nil hne
  have hc := hu c List.mem_cons_self
  have hu' : ∀ d ∈ u, p d = true := fun d hd => hu d (List.mem_cons_of_mem _ hd)
  obtain ⟨ms, heq, hms⟩ := exists_run_many (b := some c) hu' ht
  refine ⟨ms.map fun m => { m with text := c :: m.text }, ?_, fun m hm => ?_⟩
  · rw [List.cons_append, run_plus_cons hc, heq]
    rfl
  · obtain ⟨m', hm', rfl⟩ := List.mem_map.mp hm
    refine ⟨hms m' hm', ?_⟩
    -- what stands last in such a match is of the class, as is all of it
    have hmem : m' ∈ splits p (u ++ t) := by
      have : m' ∈ run (.many p) (some c) (u ++ t) := heq ▸ List.mem_cons_of_mem _ hm'
      exact List.mem_reverse.mp this
    have hlast : (c :: m'.text).getLast? = some ((c :: m'.text).getLast (List.cons_ne_nil _ _)) :=
      List.getLast?_eq_some_getLast _
    refine ⟨_, by rw [Match.before, hlast, Option.some_or], ?_⟩
    rcases List.mem_cons.mp (List.getLast_mem (List.cons_ne_nil c m'.text)) with h | h
    · rw [h]
      exact hc
    · exact (splits_spec hmem).2.1 _ h

theorem run_group_of_cons {m : Match α} {ms : List (Match α)} (hr : run r b t = m :: ms) :
    run (.group r) b t = m.grouped :: ms.map Match.grouped := by
  rw [run, hr, List.map_cons]

/-- A lazy repetition of elements that can all be taken reaches a place where the next pattern
matches, if it matches at the end. -/
theorem run_lazy_ne_nil {u : List α} (hu : ∀ c ∈ u, p c = true)
    (hs : ∀ b', run s b' [] ≠ []) : run (.seq (.manyLazy p) s) b u ≠ [] := by
  obtain ⟨ms, heq, -⟩ := splits_append hu []
  have hmem : ⟨u, [], []⟩ ∈ splits p u := by
    rw [List.append_nil] at heq
    rw [heq]
    simp [splits]
  intro hnil
  rw [run, run, List.flatMap_eq_nil_iff] at hnil
  exact hs _ (List.map_eq_nil_iff.mp (hnil _ hmem))

/-- A lazy repetition in a group takes what stands before the first place where the next pattern
matches. -/
theorem head?_run_lazy {u v : List α} {m : Match α} (hu : ∀ c ∈ u, p c = true)
    (hbefore : ∀ u₁ c u₂ b', u = u₁ ++ c :: u₂ → run s b' (c :: (u₂ ++ v)) = [])
    (hm : (run s (u.getLast?.or b) v).head? = some m) :
    (run (.seq (.group (.manyLazy p)) s) b (u ++ v)).head? =
      some ⟨u ++ m.text, m.rest, u :: m.groups⟩ := by
  obtain ⟨ms, heq, hms⟩ := splits_append hu v
  obtain ⟨others, hothers⟩ := exists_splits p v
  -- none of the matches that are tried before goes on
  have hnil : (ms.map Match.grouped).flatMap
      (fun m' => (run s (m'.before b) m'.rest).map m'.append) = [] := by
    refine List.flatMap_eq_nil_iff.mpr fun m' hm' => ?_
    obtain ⟨m₀, hm₀, rfl⟩ := List.mem_map.mp hm'
    obtain ⟨u₁, c, u₂, heq, rfl⟩ := hms m₀ hm₀
    rw [Match.grouped_rest, hbefore u₁ c u₂ _ heq, List.map_nil]
  have hfirst : (run s ((⟨u, v, [u]⟩ : Match α).before b) v).head? = some m := hm
  rw [run, run, run, heq, hothers, List.map_append, List.flatMap_append, hnil, List.nil_append,
    List.map_cons, List.map_cons, List.flatMap_cons, List.append_nil, List.head?_append,
    List.head?_map]
  change ((run s ((⟨u, v, [u]⟩ : Match α).before b) v).head?.map _).or _ = _
  rw [hfirst]
  rfl

end Run

/-! ### The first occurrence of a text -/

section UpTo

variable {w : List α}

theorem prefix_append_cons_iff {a : α} (ha : a ∉ w) (u t : List α) :
    w <+: u ++ a :: t ↔ w <+: u := by
  refine ⟨fun h => ?_, fun h => h.trans (List.prefix_append _ _)⟩
  rcases List.prefix_or_prefix_of_prefix h (List.prefix_append u (a :: t)) with h' | ⟨v, rfl⟩
  · exact h'
  · -- what `w` has more than `u` would begin with `a`
    cases v with
    | nil => simp
    | cons d v =>
      have hd := (List.prefix_append_right_inj u).mp h
      obtain ⟨rfl, -⟩ := List.cons_prefix_cons.mp hd
      exact absurd (List.mem_append_right _ List.mem_cons_self) ha

/-- A word without the separator occurs on one side of it. -/
theorem infix_append_cons_iff {a : α} (ha : a ∉ w) (u t : List α) :
    w <:+: u ++ a :: t ↔ w <:+: u ∨ w <:+: t := by
  induction u with
  | nil =>
    rw [List.nil_append, List.infix_cons_iff, List.infix_nil]
    refine or_congr_left ⟨fun h => ?_, fun h => h ▸ List.nil_prefix⟩
    exact List.prefix_nil.mp ((prefix_append_cons_iff ha [] t).mp h)
  | cons c u ih =>
    have hstart := prefix_append_cons_iff ha (c :: u) t
    rw [List.cons_append] at hstart ⊢
    rw [List.infix_cons_iff, List.infix_cons_iff, hstart, ih, or_assoc]

/-- A text whose first element it has only once does not overlap itself: no occurrence runs from
a text into an occurrence right behind it. -/
theorem prefix_of_prefix_append {a : α} {x t : List α} (ha : a ∉ w) (ht : a :: w <+: t)
    (hx : x ≠ []) (h : a :: w <+: x ++ t) : a :: w <+: x := by
  rcases List.prefix_or_prefix_of_prefix h (List.prefix_append x t) with h' | ⟨y, hy⟩
  · exact h'
  · obtain ⟨c, x, rfl⟩ := List.exists_cons_of_ne_nil hx
    have hw : x ++ y = w := List.tail_eq_of_cons_eq hy
    cases y with
    | nil => exact (List.append_nil _).symm.trans hy ▸ List.prefix_rfl
    | cons d y =>
      -- what the occurrence has more than `x` begins what is behind `x`
      rw [← hy] at h
      obtain ⟨t', rfl⟩ := (List.prefix_append_right_inj _).mp h
      obtain ⟨rfl, -⟩ := List.cons_prefix_cons.mp ht
      exact absurd (hw ▸ List.mem_append_right _ List.mem_cons_self) ha

variable [DecidableEq α]

/-- What stands before the first occurrence of `w`. -/
def upTo (w : List α) : List α → List α
  | [] => []
  | c :: t => if w <+: c :: t then [] else c :: upTo w t

/-- `upTo` stops before the first occurrence. -/
theorem exists_upTo (w t : List α) : ∃ v, t = upTo w t ++ v ∧ (w <:+: t → w <+: v) ∧
    ∀ u₁ c u₂, upTo w t = u₁ ++ c :: u₂ → ¬w <+: c :: (u₂ ++ v) := by
  induction t with
  | nil =>
    refine ⟨[], rfl, fun h => List.infix_nil.mp h ▸ List.prefix_rfl, fun u₁ c u₂ heq => ?_⟩
    exact absurd heq (by simp [upTo])
  | cons c t ih =>
    by_cases hw : w <+: c :: t
    · refine ⟨c :: t, by simp [upTo, hw], fun _ => hw, fun u₁ d u₂ heq => ?_⟩
      exact absurd heq (by simp [upTo, hw])
    · obtain ⟨v, ht, hfound, hnone⟩ := ih
      have hcons : upTo w (c :: t) = c :: upTo w t := if_neg hw
      refine ⟨v, ?_, fun h => ?_, fun u₁ d u₂ heq => ?_⟩
      · rw [hcons, List.cons_append, ← ht]
      · exact hfound ((List.infix_cons_iff.mp h).resolve_left hw)
      · -- the first place is the one that was looked at, any other is further on
        rw [hcons] at heq
        cases u₁ with
        | nil =>
          obtain ⟨rfl, rfl⟩ := List.cons.inj heq
          rwa [← ht]
        | cons e u₁ => exact hnone u₁ d u₂ (List.tail_eq_of_cons_eq heq)

theorem upTo_isPrefix (w t : List α) : upTo w t <+: t := by
  obtain ⟨v, ht, -⟩ := exists_upTo w t
  exact ⟨v, ht.symm⟩

/-- No occurrence begins in what does not have the first element. -/
theorem upTo_append_of_notMem {a : α} {u : List α} (hu : a ∉ u) (t : List α) :
    upTo (a :: w) (u ++ t) = u ++ upTo (a :: w) t := by
  induction u with
  | nil => rfl
  | cons c u ih =>
    have hnot : ¬a :: w <+: c :: (u ++ t) := fun h =>
      hu ((List.cons_prefix_cons.mp h).1 ▸ List.mem_cons_self)
    rw [List.cons_append, upTo, if_neg hnot, ih fun h => hu (List.mem_cons_of_mem _ h)]
    rfl

/-- An element that `w` does not have parts the occurrences before from those behind. -/
theorem upTo_append_cons {a : α} (ha : a ∉ w) (hw : w ≠ []) (u t : List α) :
    upTo w (u ++ a :: t) = if w <:+: u then upTo w u else u ++ a :: upTo w t := by
  induction u with
  | nil =>
    have hnot : ¬w <+: [] ++ a :: t := fun h => hw (List.prefix_nil.mp
      ((prefix_append_cons_iff ha [] t).mp h))
    rw [if_neg fun h => hw (List.infix_nil.mp h)]
    exact if_neg hnot
  | cons c u ih =>
    have hstart := prefix_append_cons_iff ha (c :: u) t
    rw [List.cons_append] at hstart ⊢
    rw [upTo, ih]
    by_cases hw' : w <+: c :: u
    · rw [if_pos (hstart.mpr hw'), if_pos hw'.isInfix, upTo, if_pos hw']
    · rw [if_neg fun h => hw' (hstart.mp h)]
      by_cases hu : w <:+: u
      · rw [if_pos hu, if_pos (List.infix_cons hu), upTo, if_neg hw']
      · rw [if_neg hu, if_neg fun h => (List.infix_cons_iff.mp h).elim hw' hu]
        rfl

end UpTo

/-! ### Searching -/

section Findall

variable [DecidableEq α] {r : Pattern α} {b : Option α}

/-- What belongs to the match before is passed over. -/
theorem findall_skip (u t : List α) :
    findall r b u.length (u ++ t) = findall r (u.getLast?.or b) 0 t := by
  induction u generalizing b with
  | nil => cases t <;> rfl
  | cons c u ih =>
    change findall r (some c) u.length (u ++ t) = _
    rw [ih, List.getLast?_cons]
    cases u.getLast? <;> rfl

/-- A match is taken, and the search goes on behind it. -/
theorem findall_of_head {t : List α} {m : Match α} (hm : (run r b t).head? = some m)
    (hne : m.text ≠ []) : findall r b 0 t = m :: findall r (m.before b) 0 m.rest := by
  have htext := run_text_rest (List.mem_of_mem_head? hm)
  obtain ⟨c, u, hu⟩ := List.exists_cons_of_ne_nil hne
  rw [hu] at htext
  subst htext
  have hskip := findall_skip (r := r) (b := some c) u m.rest
  have hbefore : m.before b = u.getLast?.or (some c) := by
    rw [Match.before, hu, List.getLast?_cons]
    cases u.getLast? <;> rfl
  rw [hbefore, ← hskip, List.cons_append, findall]
  rw [List.cons_append] at hm
  rw [hm]
  dsimp only
  rw [hu]
  rfl

/-- Where the pattern matches nowhere, nothing is found. -/
theorem findall_append_of_none {u t : List α}
    (hu : ∀ u₁ c u₂ b', u = u₁ ++ c :: u₂ → run r b' (c :: (u₂ ++ t)) = []) :
    findall r b 0 (u ++ t) = findall r (u.getLast?.or b) 0 t := by
  induction u generalizing b with
  | nil => rfl
  | cons c u ih =>
    have hnone := hu [] c u b rfl
    rw [List.cons_append, findall, hnone]
    change findall r (some c) 0 (u ++ t) = _
    rw [ih fun u₁ d u₂ b' heq => hu (c :: u₁) d u₂ b' (congrArg (c :: ·) heq), List.getLast?_cons]
    cases u.getLast? <;> rfl

end Findall

end Regex
