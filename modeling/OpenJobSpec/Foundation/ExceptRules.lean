import Mathlib.Data.List.Forall2

/-! # Rules for computations that may raise -/
namespace OpenJobSpec.ExceptRules
universe u v
variable {ε : Type u} {α β : Type v}

@[simp] theorem ok_bind (a : α) (f : α → Except ε β) : ((Except.ok a : Except ε α) >>= f) = f a :=
  rfl

@[simp] theorem error_bind (e : ε) (f : α → Except ε β) :
    ((Except.error e : Except ε α) >>= f) = .error e := rfl

theorem bind_eq_ok {x : Except ε α} {f : α → Except ε β} {b : β} :
    (x >>= f) = .ok b ↔ ∃ a, x = .ok a ∧ f a = .ok b := by
  cases x with
  | error e => simp
  | ok a => simp

/-- A comprehension succeeds when each of its elements does. -/
theorem mapM_eq_ok {α : Type*} {f : α → Except ε β} {xs : List α} {ys : List β} :
    xs.mapM f = .ok ys ↔ List.Forall₂ (fun x y => f x = .ok y) xs ys := by
  induction xs generalizing ys with
  | nil =>
    rw [List.mapM_nil, List.forall₂_nil_left_iff]
    exact ⟨fun h => by cases h; rfl, fun h => by rw [h]; rfl⟩
  | cons x xs ih =>
    rw [List.mapM_cons, List.forall₂_cons_left_iff, bind_eq_ok]
    constructor
    · rintro ⟨y, hy, hrest⟩
      obtain ⟨tail, htail, hys⟩ := bind_eq_ok.mp hrest
      cases hys
      exact ⟨y, tail, hy, ih.mp htail, rfl⟩
    · rintro ⟨y, tail, hy, htail, rfl⟩
      refine ⟨y, hy, bind_eq_ok.mpr ⟨tail, ih.mpr htail, rfl⟩⟩

/-- Two computations that fail alike, and otherwise end in related values. -/
def Outcome (R : α → α → Prop) : Except ε α → Except ε α → Prop
  | .error e, .error e' => e = e'
  | .ok a, .ok b => R a b
  | _, _ => False

theorem Outcome.refl (x : Except ε α) : Outcome Eq x x := by
  cases x <;> rfl

theorem Outcome.bind {R : α → α → Prop} {Q : β → β → Prop} {x y : Except ε α}
    {f g : α → Except ε β} (h : Outcome R x y) (hfg : ∀ a b, R a b → Outcome Q (f a) (g b)) :
    Outcome Q (x >>= f) (y >>= g) := by
  cases x with
  | error e =>
    cases y with
    | error e' => exact h
    | ok b => exact h.elim
  | ok a =>
    cases y with
    | error e => exact h.elim
    | ok b => exact hfg a b h

/-- What both computations begin with is the same. -/
theorem Outcome.same {Q : β → β → Prop} (x : Except ε α) {f g : α → Except ε β}
    (hfg : ∀ a, Outcome Q (f a) (g a)) : Outcome Q (x >>= f) (x >>= g) :=
  (Outcome.refl x).bind fun a _ hab => hab ▸ hfg a

/-- Every exception that comes out is one that `raises` allows. -/
def OnlyRaises (raises : ε → Prop) (x : Except ε α) : Prop := ∀ e, x = .error e → raises e

theorem OnlyRaises.ok {raises : ε → Prop} (a : α) : OnlyRaises raises (.ok a : Except ε α) := nofun

theorem OnlyRaises.raise {raises : ε → Prop} {e : ε} (he : raises e) :
    OnlyRaises raises (.error e : Except ε α) := fun _ h => Except.error.inj h ▸ he

theorem OnlyRaises.bind {raises : ε → Prop} {x : Except ε α} {f : α → Except ε β}
    (hx : OnlyRaises raises x) (hf : ∀ a, OnlyRaises raises (f a)) :
    OnlyRaises raises (x >>= f) := by
  cases x with
  | error e =>
    intro e' he'
    cases he'
    exact hx e rfl
  | ok a => exact hf a

/-- What a sequence raises is what its first part raises, or what the rest raises after it. -/
theorem onlyRaises_bind_iff {raises : ε → Prop} {x : Except ε α} {f : α → Except ε β} :
    OnlyRaises raises (x >>= f) ↔
      OnlyRaises raises x ∧ ∀ a, x = .ok a → OnlyRaises raises (f a) := by
  cases x with
  | error e =>
    constructor
    · intro h
      refine ⟨fun e' he => ?_, nofun⟩
      cases he
      exact h e rfl
    · rintro ⟨h, -⟩ e' he
      cases he
      exact h e rfl
  | ok a =>
    constructor
    · intro h
      refine ⟨.ok a, fun b hb => ?_⟩
      cases hb
      exact h
    · exact fun h => h.2 a rfl

theorem OnlyRaises.mono {raises allowed : ε → Prop} {x : Except ε α} (hx : OnlyRaises raises x)
    (h : ∀ e, raises e → allowed e) : OnlyRaises allowed x :=
  fun e he => h e (hx e he)

/-- A computation that ends in a value that `returns` allows, or in an exception that `raises`
allows. -/
def Ends (raises : ε → Prop) (returns : α → Prop) : Except ε α → Prop
  | .ok a => returns a
  | .error e => raises e

theorem Ends.bind {raises : ε → Prop} {returns : β → Prop} {x : Except ε α} {f : α → Except ε β}
    (hx : OnlyRaises raises x) (hf : ∀ a, x = .ok a → Ends raises returns (f a)) :
    Ends raises returns (x >>= f) := by
  cases x with
  | error e => exact hx e rfl
  | ok a => exact hf a rfl

/-- A computation that succeeds exactly when `accepts` holds, and otherwise raises what
`raises` allows. -/
structure Decides (raises : ε → Prop) (accepts : Prop) (x : Except ε α) : Prop where
  ok_iff : (∃ a, x = .ok a) ↔ accepts
  error : OnlyRaises raises x

namespace Decides
variable {raises : ε → Prop} {P Q : Prop} {x : Except ε α}

theorem ok (a : α) : Decides raises True (.ok a : Except ε α) :=
  ⟨⟨fun _ => trivial, fun _ => ⟨a, rfl⟩⟩, .ok a⟩

theorem raise {e : ε} (he : raises e) : Decides raises False (.error e : Except ε α) :=
  ⟨⟨nofun, False.elim⟩, .raise he⟩

theorem congr (h : Decides raises P x) (hPQ : P ↔ Q) : Decides raises Q x :=
  ⟨h.ok_iff.trans hPQ, h.error⟩

theorem bind {f : α → Except ε β} (hx : Decides raises P x) (hf : ∀ a, Decides raises Q (f a)) :
    Decides raises (P ∧ Q) (x >>= f) := by
  cases x with
  | error e =>
    refine ⟨⟨nofun, fun ⟨hP, _⟩ => ?_⟩, fun e' h => ?_⟩
    · obtain ⟨a, ha⟩ := hx.ok_iff.mpr hP
      cases ha
    · cases h
      exact hx.error e rfl
  | ok a =>
    have hP : P := hx.ok_iff.mp ⟨a, rfl⟩
    exact ⟨(hf a).ok_iff.trans ⟨fun hQ => ⟨hP, hQ⟩, And.right⟩, (hf a).error⟩

/-- What follows a computation may raise only what it may when that computation succeeds. -/
theorem onlyRaises_bind_iff {f : α → Except ε β} (hx : Decides raises P x)
    (hf : ∀ a, OnlyRaises raises (f a) ↔ Q) : OnlyRaises raises (x >>= f) ↔ (P → Q) := by
  cases x with
  | error e =>
    have hP : ¬ P := fun hP => by
      obtain ⟨a, ha⟩ := hx.ok_iff.mpr hP
      cases ha
    have herror : OnlyRaises raises ((.error e : Except ε α) >>= f) := fun e' h => by
      cases h
      exact hx.error e rfl
    exact iff_of_true herror fun h => absurd h hP
  | ok a =>
    have hP : P := hx.ok_iff.mp ⟨a, rfl⟩
    exact (hf a).trans ⟨fun hQ _ => hQ, fun h => h hP⟩

theorem map (f : α → β) (hx : Decides raises P x) : Decides raises P (x >>= fun a => .ok (f a)) :=
  (hx.bind fun a => ok (f a)).congr (and_iff_left trivial)

end Decides

end OpenJobSpec.ExceptRules
