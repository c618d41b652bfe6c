import Mathlib.Algebra.Order.Group.Nat
import Mathlib.Algebra.Order.Ring.Nat
import Mathlib.Tactic.Ring

/-! # Rounding half to even

A number is rounded to a multiple of a unit. What rounding does to a coarser
quotient is a matter of carries: a finer unit changes it only by a carry through
all of the places in between, a coarser one keeps it only where nothing is lost.
-/
namespace OpenJobSpec.HalfEven
variable {n unit : ℕ}

/-- How often a unit goes into the multiple of it that is nearest to a number. -/
def nearest (n unit : ℕ) : ℕ :=
  let quotient := n / unit
  let rest := n % unit
  if 2 * rest < unit ∨ 2 * rest = unit ∧ quotient % 2 = 0 then quotient else quotient + 1

/-- Past the middle, or at the middle behind an odd quotient. -/
def RoundsUp (n unit : ℕ) : Prop :=
  unit < 2 * (n % unit) ∨ 2 * (n % unit) = unit ∧ n / unit % 2 = 1

theorem nearest_of_roundsUp (h : RoundsUp n unit) : nearest n unit = n / unit + 1 := by
  apply if_neg
  rintro (hbelow | ⟨hmiddle, heven⟩)
  · rcases h with habove | ⟨hmiddle, -⟩ <;> omega
  · rcases h with habove | ⟨-, hodd⟩ <;> omega

theorem nearest_of_not_roundsUp (h : ¬ RoundsUp n unit) : nearest n unit = n / unit := by
  apply if_pos
  obtain ⟨habove, hodd⟩ := not_or.mp h
  rcases Nat.lt_or_eq_of_le (not_lt.mp habove) with hbelow | hmiddle
  · exact .inl hbelow
  · exact .inr ⟨hmiddle, (Nat.mod_two_eq_zero_or_one _).resolve_right fun h => hodd ⟨hmiddle, h⟩⟩

/-- Zeros at the end of both make no difference. -/
theorem nearest_mul {c : ℕ} (hc : 0 < c) : nearest (n * c) (unit * c) = nearest n unit := by
  have hquotient : n * c / (unit * c) = n / unit := Nat.mul_div_mul_right _ _ hc
  have hrest : n * c % (unit * c) = n % unit * c := Nat.mul_mod_mul_right _ _ _
  have hassoc : 2 * (n % unit * c) = 2 * (n % unit) * c := (mul_assoc _ _ _).symm
  unfold nearest
  simp only [hquotient, hrest, hassoc, Nat.mul_lt_mul_right hc, Nat.mul_left_inj hc.ne']

theorem nearest_of_dvd (hunit : 0 < unit) (h : unit ∣ n) : nearest n unit = n / unit := by
  apply nearest_of_not_roundsUp
  rw [RoundsUp, Nat.mod_eq_zero_of_dvd h]
  omega

/-- A number is not rounded past a multiple of the unit. -/
theorem nearest_le {quotient : ℕ} (hunit : 0 < unit) (h : n ≤ quotient * unit) :
    nearest n unit ≤ quotient := by
  have hdiv : n / unit ≤ quotient := Nat.div_le_of_le_mul (h.trans_eq (mul_comm _ _))
  by_cases hup : RoundsUp n unit
  · rw [nearest_of_roundsUp hup]
    have hrest : 0 < n % unit := by
      rw [RoundsUp] at hup
      omega
    have hbelow : unit * (n / unit) < unit * quotient := by
      have hsplit := Nat.div_add_mod n unit
      rw [mul_comm] at h
      omega
    exact Nat.lt_of_mul_lt_mul_left hbelow
  · rw [nearest_of_not_roundsUp hup]
    exact hdiv

/-- A quotient by a coarser unit changes only by a carry. -/
theorem nearest_div_eq_iff {places : ℕ} :
    nearest n unit / places = n / (unit * places) ↔
      ¬ (RoundsUp n unit ∧ places ∣ n / unit + 1) := by
  rw [← Nat.div_div_eq_div_mul]
  by_cases hup : RoundsUp n unit
  · rw [nearest_of_roundsUp hup, Nat.succ_div]
    by_cases hdvd : places ∣ n / unit + 1
    · rw [if_pos hdvd]
      exact iff_of_false (by omega) (not_not.mpr ⟨hup, hdvd⟩)
    · rw [if_neg hdvd]
      exact iff_of_true (Nat.add_zero _) fun h => hdvd h.2
  · rw [nearest_of_not_roundsUp hup]
    exact iff_of_true rfl fun h => hup h.1

/-- A quotient by a finer unit is kept only where it is a multiple of the coarser one. -/
theorem nearest_mul_eq_iff {places : ℕ} (hunit : 0 < unit) (hplaces : 2 < places) :
    nearest n (unit * places) * places = n / unit ↔ places ∣ n / unit := by
  constructor
  · exact fun h => ⟨_, h.symm.trans (mul_comm _ _)⟩
  · rintro ⟨quotient, hquotient⟩
    have hrest : n % (unit * places) = n % unit := by
      rw [Nat.mod_mul, hquotient, Nat.mul_mod_right, mul_zero, add_zero]
    have hlt : n % unit < unit := Nat.mod_lt n hunit
    have hdown : ¬ RoundsUp n (unit * places) := by
      have htwice : 2 * (n % unit) < unit * places := by
        calc 2 * (n % unit) < 2 * unit := by omega
          _ ≤ unit * places := by
            rw [mul_comm]
            exact Nat.mul_le_mul_left unit hplaces.le
      rw [RoundsUp, hrest]
      omega
    rw [nearest_of_not_roundsUp hdown, ← Nat.div_div_eq_div_mul, hquotient,
      Nat.mul_div_cancel_left _ (by omega), mul_comm]

/-- A number under a multiple of the unit is rounded to it when it is near enough. -/
theorem nearest_sub_eq_iff {quotient gap : ℕ} (hgap : 0 < gap) (hle : gap ≤ quotient * unit) :
    nearest (quotient * unit - gap) unit = quotient ↔
      2 * gap < unit ∨ 2 * gap = unit ∧ quotient % 2 = 0 := by
  obtain ⟨before, rfl⟩ : ∃ before, quotient = before + 1 := by
    refine Nat.exists_eq_succ_of_ne_zero ?_
    rintro rfl
    omega
  have hsucc : (before + 1) * unit = before * unit + unit := Nat.succ_mul _ _
  rcases Nat.lt_or_ge gap unit with hnear | hfar
  · -- the number lies between the last two multiples
    have hnumber : (before + 1) * unit - gap = before * unit + (unit - gap) := by omega
    have hdiv : ((before + 1) * unit - gap) / unit = before := by
      rw [hnumber, mul_comm, Nat.mul_add_div (by omega), Nat.div_eq_of_lt (by omega), add_zero]
    have hmod : ((before + 1) * unit - gap) % unit = unit - gap := by
      rw [hnumber, mul_comm, Nat.mul_add_mod, Nat.mod_eq_of_lt (by omega)]
    by_cases hup : RoundsUp ((before + 1) * unit - gap) unit
    · rw [nearest_of_roundsUp hup, hdiv]
      rw [RoundsUp, hdiv, hmod] at hup
      exact iff_of_true rfl (by omega)
    · rw [nearest_of_not_roundsUp hup, hdiv]
      rw [RoundsUp, hdiv, hmod] at hup
      exact iff_of_false (by omega) (by omega)
  · refine iff_of_false ?_ (by omega)
    have hbelow : (before + 1) * unit - gap ≤ before * unit := by omega
    have hdiv : ((before + 1) * unit - gap) / unit ≤ before :=
      Nat.div_le_of_le_mul (hbelow.trans_eq (mul_comm _ _))
    by_cases hup : RoundsUp ((before + 1) * unit - gap) unit
    · rw [nearest_of_roundsUp hup]
      intro heq
      have hlast : ((before + 1) * unit - gap) / unit = before := by omega
      have hmod := Nat.div_add_mod ((before + 1) * unit - gap) unit
      rw [hlast, mul_comm] at hmod
      rw [RoundsUp] at hup
      omega
    · rw [nearest_of_not_roundsUp hup]
      omega

end OpenJobSpec.HalfEven
