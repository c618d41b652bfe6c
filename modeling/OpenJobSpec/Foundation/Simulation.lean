import Mathlib.Data.List.Basic

/-! # Systems with visible and silent steps

A system reaches a state under a list of labels when its visible steps carry
these labels in order; silent steps are free. A relation that survives every
step of one system, when the other answers with steps of the same label, carries
over to everything that is reached.
-/
namespace OpenJobSpec.Simulation
variable {L S T : Type*}

structure System (L S : Type*) where
  visible : S → L → S → Prop
  silent : S → S → Prop

inductive System.Reaches (sys : System L S) (s : S) : List L → S → Prop
  | refl : Reaches sys s [] s
  | visible {labels : List L} {label : L} {t u : S} :
    Reaches sys s labels t → sys.visible t label u → Reaches sys s (labels ++ [label]) u
  | silent {labels : List L} {t u : S} :
    Reaches sys s labels t → sys.silent t u → Reaches sys s labels u

namespace System
variable {sys : System L S} {s t u : S} {labels more : List L}

theorem Reaches.append (h : sys.Reaches s labels t) (h' : sys.Reaches t more u) :
    sys.Reaches s (labels ++ more) u := by
  induction h' with
  | refl =>
    rw [List.append_nil]
    exact h
  | visible _ hstep ih =>
    rw [← List.append_assoc]
    exact ih.visible hstep
  | silent _ hstep ih => exact ih.silent hstep

theorem Reaches.append_silent (h : sys.Reaches s labels t) (h' : sys.Reaches t [] u) :
    sys.Reaches s labels u := by
  simpa using h.append h'

theorem reaches_visible {label : L} (h : sys.visible s label t) : sys.Reaches s [label] t :=
  Reaches.refl.visible h

theorem reaches_silent (h : sys.silent s t) : sys.Reaches s [] t :=
  Reaches.refl.silent h

end System

/-- What every step preserves holds of everything that is reached. -/
theorem System.Reaches.invariant {sys : System L S} {s t : S} {labels : List L}
    (I : S → Prop) (h : sys.Reaches s labels t) (hs : I s)
    (hvisible : ∀ {a label b}, I a → sys.visible a label b → I b)
    (hsilent : ∀ {a b}, I a → sys.silent a b → I b) : I t := by
  induction h with
  | refl => exact hs
  | visible _ hstep ih => exact hvisible ih hstep
  | silent _ hstep ih => exact hsilent ih hstep

/-- Every step of the first system is answered by steps of the second with the same label. -/
structure Simulates (A : System L S) (B : System L T) (R : S → T → Prop) : Prop where
  visible : ∀ {a b label a'}, R a b → A.visible a label a' →
    ∃ b', B.Reaches b [label] b' ∧ R a' b'
  silent : ∀ {a b a'}, R a b → A.silent a a' → ∃ b', B.Reaches b [] b' ∧ R a' b'

theorem Simulates.reaches {A : System L S} {B : System L T} {R : S → T → Prop}
    (h : Simulates A B R) {a a' : S} {b : T} {labels : List L} (hab : R a b)
    (ha : A.Reaches a labels a') : ∃ b', B.Reaches b labels b' ∧ R a' b' := by
  induction ha with
  | refl => exact ⟨b, .refl, hab⟩
  | visible _ hstep ih =>
    obtain ⟨t, ht, hR⟩ := ih
    obtain ⟨b', hb', hR'⟩ := h.visible hR hstep
    exact ⟨b', ht.append hb', hR'⟩
  | silent _ hstep ih =>
    obtain ⟨t, ht, hR⟩ := ih
    obtain ⟨b', hb', hR'⟩ := h.silent hR hstep
    exact ⟨b', ht.append_silent hb', hR'⟩

end OpenJobSpec.Simulation
