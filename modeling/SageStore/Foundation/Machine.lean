import Mathlib.Data.List.Induction

/-!
# Deterministic input/output machines

A `Machine` consumes inputs one after another and answers each. Every interleaving of
several clients' inputs is one list of inputs, so a statement about `Machine.run` over all
lists is a statement about all interleavings.

The induction over a run is packaged three times:

* `run_invariant` and `Reachable.invariant` — a predicate every step keeps;
* `Along.invariant` — a predicate kept by the steps that meet a guard, along a run all of
  whose steps meet it;
* `history_induction` and `history_induction_of_forall` — a predicate of the state and of all
  inputs and answers so far, for any inputs and for inputs that meet a guard.
-/

/-- A deterministic machine: an initial state, and a step that answers an input. -/
structure Machine (σ ι ο : Type) where
  init : σ
  step : σ → ι → ο × σ

namespace Machine

variable {σ ι ο : Type} (M : Machine σ ι ο)

/-- The state after the inputs `is`, from `s`. -/
def run (s : σ) (is : List ι) : σ := is.foldl (fun s i => (M.step s i).2) s

/-- The inputs of a run, each with the answer it got. -/
def history (s : σ) : List ι → List (ι × ο)
  | [] => []
  | i :: is => (i, (M.step s i).1) :: history (M.step s i).2 is

/-- A state some list of inputs leads to. -/
def Reachable (s : σ) : Prop := ∃ is, M.run M.init is = s

/-- Every step of the run of `is` from `s` meets the guard `G`, read at the state before
the step. -/
def Along (G : σ → ι → Prop) (s : σ) : List ι → Prop
  | [] => True
  | i :: is => G s i ∧ Along G (M.step s i).2 is

@[simp] theorem run_nil (s : σ) : M.run s [] = s := rfl

@[simp] theorem run_cons (s : σ) (i : ι) (is : List ι) :
    M.run s (i :: is) = M.run (M.step s i).2 is := rfl

/-- A run in two parts is one run. -/
theorem run_append (s : σ) (is js : List ι) :
    M.run s (is ++ js) = M.run (M.run s is) js := List.foldl_append

/-- The history of a run in two parts is that of both. -/
theorem history_append (s : σ) (is js : List ι) :
    M.history s (is ++ js) = M.history s is ++ M.history (M.run s is) js := by
  induction is generalizing s with
  | nil => rfl
  | cons i is ih => simp only [List.cons_append, history, ih, run_cons]

/-- A guard that holds along a run holds along both parts of it. -/
theorem along_append {G : σ → ι → Prop} {s : σ} {is js : List ι} :
    M.Along G s (is ++ js) ↔ M.Along G s is ∧ M.Along G (M.run s is) js := by
  induction is generalizing s with
  | nil => simp [Along]
  | cons i is ih => simp only [List.cons_append, Along, ih, run_cons, and_assoc]

/-- A guard that reads the inputs alone is met along a run of inputs that meet it. -/
theorem along_of_forall {G : ι → Prop} {is : List ι} (h : ∀ i ∈ is, G i) (s : σ) :
    M.Along (fun _ i => G i) s is := by
  induction is generalizing s with
  | nil => trivial
  | cons i is ih =>
    exact ⟨h i List.mem_cons_self, ih (fun j hj => h j (List.mem_cons_of_mem i hj)) _⟩

/-- The guard is met along a run when every prefix leads to a state in which the next input
meets it. -/
theorem along_of_prefixes {G : σ → ι → Prop} {s : σ} {is : List ι}
    (h : ∀ js i, js ++ [i] <+: is → G (M.run s js) i) : M.Along G s is := by
  induction is generalizing s with
  | nil => trivial
  | cons i is ih =>
    refine ⟨h [] i ⟨is, rfl⟩, ih fun js j hjs => ?_⟩
    exact h (i :: js) j (List.cons_prefix_cons.mpr ⟨rfl, hjs⟩)

/-- A guard met along a run is met along its prefixes. -/
theorem along_initial {G : σ → ι → Prop} {s : σ} {is js : List ι} (h : M.Along G s is)
    (hjs : js <+: is) : M.Along G s js := by
  obtain ⟨ks, rfl⟩ := hjs
  exact ((M.along_append).mp h).1

theorem reachable_init : M.Reachable M.init := ⟨[], rfl⟩

variable {M}

/-- What is reached from a reachable state is reachable. -/
theorem Reachable.run {s : σ} (h : M.Reachable s) (is : List ι) : M.Reachable (M.run s is) := by
  obtain ⟨js, rfl⟩ := h
  exact ⟨js ++ is, M.run_append _ js is⟩

theorem Reachable.step {s : σ} (h : M.Reachable s) (i : ι) : M.Reachable (M.step s i).2 :=
  h.run [i]

/-- A predicate every step keeps is kept by every run. -/
theorem run_invariant {I : σ → Prop} (hstep : ∀ s i, I s → I (M.step s i).2) {s : σ} (h : I s)
    (is : List ι) : I (M.run s is) := by
  induction is generalizing s with
  | nil => exact h
  | cons i is ih => exact ih (hstep s i h)

/-- A predicate that holds initially and that every step keeps holds in every reachable
state. -/
theorem Reachable.invariant {I : σ → Prop} (h0 : I M.init)
    (hstep : ∀ s i, I s → I (M.step s i).2) {s : σ} (h : M.Reachable s) : I s := by
  obtain ⟨is, rfl⟩ := h
  exact run_invariant hstep h0 is

/-- A predicate that every guarded step keeps is kept by a run all of whose steps meet the
guard. -/
theorem Along.invariant {G : σ → ι → Prop} {I : σ → Prop}
    (hstep : ∀ s i, I s → G s i → I (M.step s i).2) {s : σ} {is : List ι} (h : I s)
    (hG : M.Along G s is) : I (M.run s is) := by
  induction is generalizing s with
  | nil => exact h
  | cons i is ih => exact ih (hstep s i h hG.1) hG.2

/-- Induction over a run with its history: the predicate holds of the empty history at the
initial state, and appending one input that meets the guard, with its answer, keeps it. -/
theorem history_induction_of_forall {G : ι → Prop} {P : List (ι × ο) → σ → Prop}
    (h0 : P [] M.init)
    (hstep : ∀ h s i, G i → P h s → P (h ++ [(i, (M.step s i).1)]) (M.step s i).2)
    {is : List ι} (hG : ∀ i ∈ is, G i) : P (M.history M.init is) (M.run M.init is) := by
  induction is using List.reverseRecOn with
  | nil => exact h0
  | append_singleton is i ih =>
    rw [history_append, run_append]
    have hprev := ih fun j hj => hG j (List.mem_append_left [i] hj)
    exact hstep _ _ i (hG i (List.mem_append_right is List.mem_cons_self)) hprev

/-- Induction over a run with its history, of any inputs. -/
theorem history_induction {P : List (ι × ο) → σ → Prop} (h0 : P [] M.init)
    (hstep : ∀ h s i, P h s → P (h ++ [(i, (M.step s i).1)]) (M.step s i).2) (is : List ι) :
    P (M.history M.init is) (M.run M.init is) :=
  history_induction_of_forall h0 (fun h s i _ => hstep h s i) fun _ _ => trivial

end Machine
