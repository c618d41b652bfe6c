import Mathlib.Data.Rat.Defs

/-! # JSON values as the interpreter holds them

`json.loads` keeps integers of any size apart from floats, and an object is a
dictionary in insertion order. Every decoder of the package reads these values,
so the distinction between an integer and a float, and between an absent key
and a key holding null, is kept.
-/
namespace OpenJobSpec

/-- A float that is not finite is still a number to `json.loads`. -/
inductive PyFloat
  | finite (q : ℚ)
  | infinite (negative : Bool)
  | nan
deriving DecidableEq

inductive Json
  | null
  | bool (b : Bool)
  | int (n : ℤ)
  | float (x : PyFloat)
  | str (s : String)
  | array (xs : List Json)
  | object (fields : List (String × Json))

abbrev Fields := List (String × Json)

namespace Json

mutual

/-- Equality is decided by recursion on the value, one case for each shape. -/
def decEq : (a b : Json) → Decidable (a = b)
  | null, b => match b with
    | null => isTrue rfl
    | bool _ | int _ | float _ | str _ | array _ | object _ => isFalse nofun
  | bool x, b => match b with
    | bool y => decidable_of_iff (x = y) (by simp)
    | null | int _ | float _ | str _ | array _ | object _ => isFalse nofun
  | int x, b => match b with
    | int y => decidable_of_iff (x = y) (by simp)
    | null | bool _ | float _ | str _ | array _ | object _ => isFalse nofun
  | float x, b => match b with
    | float y => decidable_of_iff (x = y) (by simp)
    | null | bool _ | int _ | str _ | array _ | object _ => isFalse nofun
  | str x, b => match b with
    | str y => decidable_of_iff (x = y) (by simp)
    | null | bool _ | int _ | float _ | array _ | object _ => isFalse nofun
  | array xs, b => match b with
    | array ys =>
      have := decEqList xs ys
      decidable_of_iff (xs = ys) (by simp)
    | null | bool _ | int _ | float _ | str _ | object _ => isFalse nofun
  | object xs, b => match b with
    | object ys =>
      have := decEqFields xs ys
      decidable_of_iff (xs = ys) (by simp)
    | null | bool _ | int _ | float _ | str _ | array _ => isFalse nofun

def decEqList : (xs ys : List Json) → Decidable (xs = ys)
  | [], ys => match ys with
    | [] => isTrue rfl
    | _ :: _ => isFalse nofun
  | x :: xs, ys => match ys with
    | [] => isFalse nofun
    | y :: ys =>
      have := decEq x y
      have := decEqList xs ys
      decidable_of_iff (x = y ∧ xs = ys) (by simp)

def decEqFields : (xs ys : List (String × Json)) → Decidable (xs = ys)
  | [], ys => match ys with
    | [] => isTrue rfl
    | _ :: _ => isFalse nofun
  | (k, x) :: xs, ys => match ys with
    | [] => isFalse nofun
    | (l, y) :: ys =>
      have := decEq x y
      have := decEqFields xs ys
      decidable_of_iff (k = l ∧ x = y ∧ xs = ys) (by simp [and_assoc])

end

instance : DecidableEq Json := decEq

/-- `type(value).__name__`. -/
def typeName : Json → String
  | null => "NoneType"
  | bool _ => "bool"
  | int _ => "int"
  | float _ => "float"
  | str _ => "str"
  | array _ => "list"
  | object _ => "dict"

/-- `isinstance(value, Mapping)`. -/
def isMapping : Json → Bool
  | object _ => true
  | _ => false

theorem isMapping_iff {v : Json} : v.isMapping = true ↔ ∃ fields, v = object fields := by
  cases v <;> simp [isMapping]

end Json

namespace Fields

/-- `data.get(key, default)`. -/
def get (fields : Fields) (key : String) (default : Json) : Json :=
  (fields.lookup key).getD default

/-- `key in data`. -/
def has (fields : Fields) (key : String) : Bool := (fields.lookup key).isSome

/-- `data[key] = value` keeps the position of a key that is already there. -/
def set (fields : Fields) (key : String) (value : Json) : Fields :=
  if has fields key then
    fields.map (fun entry => if entry.1 = key then (key, value) else entry)
  else fields ++ [(key, value)]

/-- `data.update(other)`. -/
def update (fields other : Fields) : Fields :=
  other.foldl (fun acc entry => set acc entry.1 entry.2) fields

variable {fields : Fields} {key : String}

theorem get_of_lookup {value : Json} (h : fields.lookup key = some value) (default : Json) :
    get fields key default = value := by
  rw [get, h, Option.getD_some]

theorem get_of_lookup_none (h : fields.lookup key = none) (default : Json) :
    get fields key default = default := by
  rw [get, h, Option.getD_none]

theorem lookup_replaced {name : String} (value : Json) (hkey : key ≠ name) (fields : Fields) :
    (fields.map fun entry => if entry.1 = name then (name, value) else entry).lookup key =
      fields.lookup key := by
  induction fields with
  | nil => rfl
  | cons entry rest ih =>
    obtain ⟨k, v⟩ := entry
    rw [List.map_cons]
    by_cases hk : k = name
    · subst hk
      simp only [if_true, List.lookup_cons, beq_false_of_ne hkey, ih]
    · simp only [hk, if_false, List.lookup_cons, ih]

theorem lookup_replaced_self {name : String} (value : Json) (h : (fields.lookup name).isSome) :
    (fields.map fun entry => if entry.1 = name then (name, value) else entry).lookup name =
      some value := by
  induction fields with
  | nil => cases h
  | cons entry rest ih =>
    obtain ⟨k, v⟩ := entry
    rw [List.map_cons]
    by_cases hk : k = name
    · subst hk
      simp only [if_true, List.lookup_cons_self]
    · have hne : (name == k) = false := beq_false_of_ne (Ne.symm hk)
      rw [List.lookup_cons, hne] at h
      simp only [hk, if_false, List.lookup_cons, hne]
      exact ih h

/-- A key that was set is found, and the others are as before. -/
theorem lookup_set (fields : Fields) (name : String) (value : Json) (key : String) :
    (set fields name value).lookup key = if key = name then some value else fields.lookup key := by
  unfold set has
  by_cases hkey : key = name
  · subst hkey
    rw [if_pos rfl]
    split
    next hfound => exact lookup_replaced_self value hfound
    next hfresh =>
      have hnone : fields.lookup key = none :=
        Option.not_isSome_iff_eq_none.mp hfresh
      rw [List.lookup_append, hnone, List.lookup_cons_self]
      rfl
  · rw [if_neg hkey]
    split
    next => exact lookup_replaced value hkey fields
    next =>
      rw [List.lookup_append, List.lookup_cons, beq_false_of_ne hkey, List.lookup_nil]
      cases fields.lookup key <;> rfl

theorem lookup_eq_none_of_not_mem {fields : Fields} (h : key ∉ fields.map Prod.fst) :
    fields.lookup key = none := by
  induction fields with
  | nil => rfl
  | cons entry rest ih =>
    obtain ⟨hne, hrest⟩ := not_or.mp (List.mem_cons.not.mp h)
    rw [show entry = (entry.1, entry.2) from rfl, List.lookup_cons, beq_false_of_ne hne]
    exact ih hrest

/-- The keys of an update are found with their new values, and the others are as before. -/
theorem lookup_update {other : Fields} (fields : Fields) (h : (other.map Prod.fst).Nodup)
    (key : String) :
    (update fields other).lookup key = (other.lookup key).or (fields.lookup key) := by
  induction other generalizing fields with
  | nil => rfl
  | cons entry rest ih =>
    obtain ⟨name, value⟩ := entry
    rw [List.map_cons, List.nodup_cons] at h
    change (update (set fields name value) rest).lookup key = _
    rw [ih _ h.2, lookup_set, List.lookup_cons]
    by_cases hkey : key = name
    · subst hkey
      rw [lookup_eq_none_of_not_mem h.1, if_pos rfl, beq_self_eq_true]
      rfl
    · rw [if_neg hkey, beq_false_of_ne hkey]

end Fields

end OpenJobSpec
