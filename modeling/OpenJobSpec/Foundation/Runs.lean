import Mathlib.Data.List.Basic

/-! # Runs of a system driven by inputs

A system answers an input with its next state, or has no step for it. A run
applies a list of inputs in order, and an input without a step leaves the state
as it is, so a list of inputs stands for any interleaving of them.
-/
namespace OpenJobSpec.Runs
variable {σ ι : Type*}

def apply (next : σ → ι → Option σ) (s : σ) (i : ι) : σ := (next s i).getD s

def run (next : σ → ι → Option σ) (s : σ) (inputs : List ι) : σ := inputs.foldl (apply next) s

variable {next : σ → ι → Option σ}

theorem run_nil (s : σ) : run next s [] = s := rfl

theorem run_cons (s : σ) (i : ι) (rest : List ι) :
    run next s (i :: rest) = run next (apply next s i) rest := rfl

theorem run_append (s : σ) (before after : List ι) :
    run next s (before ++ after) = run next (run next s before) after :=
  List.foldl_append

/-- What each step preserves, a run preserves. -/
theorem run_invariant (I : σ → Prop) {inputs : List ι} {s : σ} (h : I s)
    (hstep : ∀ s i t, i ∈ inputs → I s → next s i = some t → I t) : I (run next s inputs) := by
  induction inputs generalizing s with
  | nil => exact h
  | cons i rest ih =>
    rw [run_cons]
    apply ih
    · unfold apply
      cases hn : next s i with
      | none => exact h
      | some t => exact hstep s i t List.mem_cons_self h hn
    · intro s j t hj
      exact hstep s j t (List.mem_cons_of_mem i hj)

/-- Every input meets a condition in the state that it is applied to. -/
def Along (C : σ → ι → Prop) (next : σ → ι → Option σ) : σ → List ι → Prop
  | _, [] => True
  | s, i :: rest => C s i ∧ Along C next (apply next s i) rest

theorem Along.of_prefix {C : σ → ι → Prop} {s : σ} {before inputs : List ι}
    (h : Along C next s inputs) (hp : before <+: inputs) : Along C next s before := by
  induction before generalizing s inputs with
  | nil => trivial
  | cons i before ih =>
    obtain ⟨rest, rfl⟩ := hp
    exact ⟨h.1, ih h.2 (List.prefix_append before rest)⟩

theorem along_iff_each {C : σ → ι → Prop} {s : σ} {inputs : List ι} : Along C next s inputs ↔
    ∀ before i, before ++ [i] <+: inputs → C (run next s before) i := by
  induction inputs generalizing s with
  | nil =>
    refine iff_of_true trivial ?_
    intro before i h
    simpa using List.prefix_nil.mp h
  | cons j rest ih =>
    rw [Along, ih]
    constructor
    · rintro ⟨hj, hrest⟩ before i h
      cases before with
      | nil =>
        obtain ⟨rfl, -⟩ := List.cons_prefix_cons.mp h
        exact hj
      | cons k before =>
        obtain ⟨rfl, htail⟩ := List.cons_prefix_cons.mp h
        exact hrest before i htail
    · intro h
      refine ⟨h [] j (List.prefix_append [j] rest), ?_⟩
      intro before i htail
      exact h (j :: before) i (List.cons_prefix_cons.mpr ⟨rfl, htail⟩)

/-- What each step under the condition preserves, a run under the condition preserves. -/
theorem run_invariant_along {C : σ → ι → Prop} (I : σ → Prop)
    (hstep : ∀ s i t, C s i → I s → next s i = some t → I t) {inputs : List ι} {s : σ}
    (hC : Along C next s inputs) (h : I s) : I (run next s inputs) := by
  induction inputs generalizing s with
  | nil => exact h
  | cons i rest ih =>
    rw [run_cons]
    refine ih hC.2 ?_
    unfold apply
    cases hn : next s i with
    | none => exact h
    | some t => exact hstep s i t hC.1 h hn

/-- What follows from a condition and an invariant at each step, follows all along a run. -/
theorem Along.imp {C P : σ → ι → Prop} (I : σ → Prop)
    (hstep : ∀ s i t, C s i → I s → next s i = some t → I t)
    (himp : ∀ s i, C s i → I s → P s i) {inputs : List ι} {s : σ} (hC : Along C next s inputs)
    (h : I s) : Along P next s inputs := by
  induction inputs generalizing s with
  | nil => trivial
  | cons i rest ih =>
    refine ⟨himp s i hC.1 h, ih hC.2 ?_⟩
    unfold apply
    cases hn : next s i with
    | none => exact h
    | some t => exact hstep s i t hC.1 h hn

/-- A property that a step keeps exactly under a condition, a run keeps exactly when every input
meets the condition. -/
theorem run_iff_along {C : σ → ι → Prop} {P : σ → Prop} (I : σ → Prop)
    (hI : ∀ s i t, I s → next s i = some t → I t)
    (hstep : ∀ s i t, I s → next s i = some t → (P t ↔ P s ∧ C s i))
    (hidle : ∀ s i, I s → next s i = none → C s i) {s : σ} (h : I s) (inputs : List ι) :
    P (run next s inputs) ↔ P s ∧ Along C next s inputs := by
  induction inputs generalizing s with
  | nil => exact (and_iff_left trivial).symm
  | cons i rest ih =>
    rw [run_cons, Along, apply]
    cases hn : next s i with
    | none =>
      rw [Option.getD_none, ih h]
      exact and_congr_right fun _ => (and_iff_right (hidle s i h hn)).symm
    | some t =>
      rw [Option.getD_some, ih (hI s i t h hn), hstep s i t h hn, and_assoc]

/-- A property that a step from a state with it keeps exactly under a condition holds all along a
run exactly when every input meets the condition. -/
theorem forall_prefix_iff_along {C : σ → ι → Prop} {P : σ → Prop}
    (hstep : ∀ s i t, P s → next s i = some t → (P t ↔ C s i))
    (hidle : ∀ s i, P s → next s i = none → C s i) (s : σ) (inputs : List ι) :
    (∀ reached, reached <+: inputs → P (run next s reached)) ↔ P s ∧ Along C next s inputs := by
  induction inputs generalizing s with
  | nil =>
    constructor
    · exact fun h => ⟨h [] List.nil_prefix, trivial⟩
    · rintro ⟨hs, _⟩ reached hreached
      rw [List.prefix_nil.mp hreached]
      exact hs
  | cons i rest ih =>
    have hsplit : (∀ reached, reached <+: i :: rest → P (run next s reached)) ↔
        P s ∧ ∀ reached, reached <+: rest → P (run next (apply next s i) reached) := by
      constructor
      · exact fun h => ⟨h [] List.nil_prefix,
          fun reached hreached => h (i :: reached) (List.cons_prefix_cons.mpr ⟨rfl, hreached⟩)⟩
      · rintro ⟨hs, hrest⟩ reached hreached
        cases reached with
        | nil => exact hs
        | cons j reached =>
          obtain ⟨rfl, htail⟩ := List.cons_prefix_cons.mp hreached
          exact hrest reached htail
    rw [hsplit, ih (apply next s i), Along]
    refine and_congr_right fun hs => and_congr_left fun _ => ?_
    unfold apply
    cases hn : next s i with
    | none => exact iff_of_true hs (hidle s i hs hn)
    | some t => exact hstep s i t hs hn

end OpenJobSpec.Runs
