import OpenJobSpec.Errors.Hierarchy
import OpenJobSpec.Foundation.PrefixCode
import Mathlib.Data.Nat.Find
import Mathlib.Algebra.Order.Ring.Nat

/-! # Datetimes with zones

A datetime is what a clock on a wall shows, with the zone that the wall is in.
Within one zone datetimes are compared and subtracted as the wall shows them;
from one zone to another they are compared and subtracted as instants.
-/
namespace OpenJobSpec

/-! ## The calendar -/

namespace Calendar

/-- The days before a year, from the first day of year 1. -/
def daysBeforeYear (year : ℕ) : ℕ :=
  (year - 1) * 365 + (year - 1) / 4 - (year - 1) / 100 + (year - 1) / 400

def isLeap (year : ℕ) : Bool := year % 4 = 0 ∧ (year % 100 ≠ 0 ∨ year % 400 = 0)

def daysBeforeMonth (year month : ℕ) : ℕ :=
  [0, 0, 31, 59, 90, 120, 151, 181, 212, 243, 273, 304, 334].getD month 0
    + if 2 < month ∧ isLeap year then 1 else 0

def maxYear : ℕ := 9999

/-- The year of a day, counted from the first day of year 1. -/
def yearOf (day : ℕ) : ℕ := Nat.findGreatest (fun year => daysBeforeYear year ≤ day) maxYear

def monthOf (day : ℕ) : ℕ :=
  Nat.findGreatest
    (fun month => daysBeforeMonth (yearOf day) month ≤ day - daysBeforeYear (yearOf day)) 12

def dayOfMonth (day : ℕ) : ℕ :=
  day - daysBeforeYear (yearOf day) - daysBeforeMonth (yearOf day) (monthOf day) + 1

theorem daysBeforeYear_yearOf (day : ℕ) : daysBeforeYear (yearOf day) ≤ day :=
  Nat.findGreatest_spec (P := fun year => daysBeforeYear year ≤ day) (Nat.zero_le _)
    (Nat.zero_le day)

theorem daysBeforeMonth_monthOf (day : ℕ) :
    daysBeforeMonth (yearOf day) (monthOf day) ≤ day - daysBeforeYear (yearOf day) :=
  Nat.findGreatest_spec
    (P := fun month => daysBeforeMonth (yearOf day) month ≤ day - daysBeforeYear (yearOf day))
    (Nat.zero_le _) (Nat.zero_le _)

/-- A date names one day. -/
theorem day_inj {m n : ℕ} (hyear : yearOf m = yearOf n) (hmonth : monthOf m = monthOf n)
    (hday : dayOfMonth m = dayOfMonth n) : m = n := by
  have hm := daysBeforeYear_yearOf m
  have hn := daysBeforeYear_yearOf n
  have hm' := daysBeforeMonth_monthOf m
  have hn' := daysBeforeMonth_monthOf n
  unfold dayOfMonth at hday
  rw [hyear, hmonth] at hm' hday
  rw [hyear] at hm
  omega

example : (yearOf 738944, monthOf 738944, dayOfMonth 738944) = (2024, 2, 29) := by decide +kernel

end Calendar

/-! ## Text -/

/-- `format(n, "0" + width + "d")`. -/
def zeroPadded (width n : ℕ) : List Char :=
  List.replicate (width - (Nat.toDigits 10 n).length) '0' ++ Nat.toDigits 10 n

theorem zeroPadded_injective {width m n : ℕ} (h : zeroPadded width m = zeroPadded width n) :
    m = n := by
  have hvalue : ∀ k, Nat.ofDigitChars 10 (zeroPadded width k) 0 = k := by
    intro k
    unfold zeroPadded
    rw [Nat.ofDigitChars_append, Nat.ofDigitChars_replicate_zero, Nat.mul_zero,
      Nat.ofDigitChars_ten_toDigits]
  rw [← hvalue m, h, hvalue]

theorem isDigit_zeroPadded (width n : ℕ) : ∀ c ∈ zeroPadded width n, c.isDigit = true := by
  intro c hc
  rcases List.mem_append.mp hc with hc | hc
  · rw [List.eq_of_mem_replicate hc]
    rfl
  · exact Nat.isDigit_of_mem_toDigits (by decide) (by decide) hc

/-- A number is over where a letter that is no digit begins. -/
theorem zeroPadded_append_inj {width m n : ℕ} {x y : List Char}
    (hx : ∀ c ∈ x.head?, c.isDigit = false) (hy : ∀ c ∈ y.head?, c.isDigit = false)
    (h : zeroPadded width m ++ x = zeroPadded width n ++ y) : m = n ∧ x = y := by
  obtain ⟨hnumber, hrest⟩ := PrefixCode.append_inj_of_stop (isDigit_zeroPadded width m)
    (isDigit_zeroPadded width n) hx hy h
  exact ⟨zeroPadded_injective hnumber, hrest⟩

def microsecondChars (microsecond : ℕ) : List Char :=
  if microsecond = 0 then ['Z'] else ['.'] ++ (zeroPadded 6 microsecond ++ ['Z'])

/-- `isoformat()` of a time in UTC, in microseconds since the first of year 1, with a `Z` for its
offset. -/
def isoformatUtc (wall : ℕ) : String :=
  let day := wall / (86400 * 10 ^ 6)
  let second := wall / 10 ^ 6
  String.ofList (zeroPadded 4 (Calendar.yearOf day) ++ (['-']
    ++ (zeroPadded 2 (Calendar.monthOf day) ++ (['-']
    ++ (zeroPadded 2 (Calendar.dayOfMonth day) ++ (['T']
    ++ (zeroPadded 2 (second / 3600 % 24) ++ ([':'] ++ (zeroPadded 2 (second / 60 % 60) ++ ([':']
    ++ (zeroPadded 2 (second % 60) ++ microsecondChars (wall % 10 ^ 6))))))))))))

theorem microsecondChars_head (microsecond : ℕ) :
    ∀ c ∈ (microsecondChars microsecond).head?, c.isDigit = false := by
  unfold microsecondChars
  split <;> simp

theorem microsecondChars_inj {m n : ℕ} (h : microsecondChars m = microsecondChars n) : m = n := by
  unfold microsecondChars at h
  split at h
  next hm =>
    split at h
    next hn => rw [hm, hn]
    next => cases h
  next =>
    split at h
    next => cases h
    next =>
      exact (zeroPadded_append_inj (by simp) (by simp) (List.append_cancel_left h)).1

/-- Times with the same text are the same. -/
theorem isoformatUtc_injective {m n : ℕ} (h : isoformatUtc m = isoformatUtc n) : m = n := by
  have hstop : ∀ (c : Char) (rest : List Char), c.isDigit = false →
      ∀ d ∈ ([c] ++ rest).head?, d.isDigit = false := by
    rintro c rest hc d ⟨rfl⟩
    exact hc
  have h := String.ofList_injective h
  obtain ⟨hyear, h⟩ := zeroPadded_append_inj (hstop _ _ rfl) (hstop _ _ rfl) h
  obtain ⟨hmonth, h⟩ :=
    zeroPadded_append_inj (hstop _ _ rfl) (hstop _ _ rfl) (List.append_cancel_left h)
  obtain ⟨hday, h⟩ :=
    zeroPadded_append_inj (hstop _ _ rfl) (hstop _ _ rfl) (List.append_cancel_left h)
  obtain ⟨hhour, h⟩ :=
    zeroPadded_append_inj (hstop _ _ rfl) (hstop _ _ rfl) (List.append_cancel_left h)
  obtain ⟨hminute, h⟩ :=
    zeroPadded_append_inj (hstop _ _ rfl) (hstop _ _ rfl) (List.append_cancel_left h)
  obtain ⟨hsecond, h⟩ := zeroPadded_append_inj (microsecondChars_head _) (microsecondChars_head _)
    (List.append_cancel_left h)
  have hmicrosecond := microsecondChars_inj h
  have hdays := Calendar.day_inj hyear hmonth hday
  omega

/-! ## Zones

What `tzinfo.utcoffset(value)` is, in microseconds, depends on what the wall shows
and on the fold. -/

/-- The microsecond after the last one of year 9999. -/
def endOfTime : ℕ := Calendar.daysBeforeYear (Calendar.maxYear + 1) * 86400 * 10 ^ 6

/-- A wall that shows a time twice tells by `fold` which of the two it is. -/
structure ZonedDateTime (Zone : Type) where
  /-- microseconds since the first of year 1 -/
  wall : ℕ
  fold : Bool
  zone : Option Zone
  wall_lt : wall < endOfTime

namespace ZonedDateTime
variable {Zone : Type}
variable (offsets : Zone → ℕ → Bool → Option ℤ)
variable (value other : ZonedDateTime Zone)

/-- The offset with the fold turned over, or not. -/
def offsetAt (fold : Bool) : Option ℤ := value.zone.bind fun zone => offsets zone value.wall fold

/-- `value.utcoffset()`. -/
def utcoffset : Option ℤ := value.offsetAt offsets value.fold

/-- The instant that an aware value names. -/
def utc : Option ℤ := (value.utcoffset offsets).map fun offset => value.wall - offset

def foldMatters : Bool := value.offsetAt offsets (!value.fold) ≠ value.utcoffset offsets

variable [DecidableEq Zone]

/-- `value == other`. Across zones no value equals one whose offset depends on its fold. -/
def equals : Bool :=
  if value.zone = other.zone then value.wall = other.wall
  else if value.foldMatters offsets ∨ other.foldMatters offsets then false
  else match value.utc offsets, other.utc offsets with
    | some instant, some instant' => instant = instant'
    | none, none => value.wall = other.wall
    | _, _ => false

/-- `value - other` in microseconds. -/
def sub : Except Exn ℤ :=
  if value.zone = other.zone then .ok (value.wall - other.wall)
  else match value.utc offsets, other.utc offsets with
    | some instant, some instant' => .ok (instant - instant')
    | none, none => .ok (value.wall - other.wall)
    | _, _ => .error
      (.builtin .typeError "can't subtract offset-naive and offset-aware datetimes")

variable {value other} in
/-- Within one zone only what the wall shows counts. -/
theorem equals_of_wall (hzone : value.zone = other.zone) (hwall : value.wall = other.wall) :
    value.equals offsets other = true := by
  unfold equals
  rw [if_pos hzone, decide_eq_true_eq, hwall]

theorem equals_self : value.equals offsets value = true := equals_of_wall offsets rfl rfl

variable {offsets value other}

theorem sub_of_aware (hvalue : (value.utcoffset offsets).isSome)
    (hother : (other.utcoffset offsets).isSome) : ∃ d, value.sub offsets other = .ok d := by
  obtain ⟨offset, hoffset⟩ := Option.isSome_iff_exists.mp hvalue
  obtain ⟨offset', hoffset'⟩ := Option.isSome_iff_exists.mp hother
  unfold sub utc
  rw [hoffset, hoffset']
  split
  · exact ⟨_, rfl⟩
  · exact ⟨_, rfl⟩

end ZonedDateTime

end OpenJobSpec
