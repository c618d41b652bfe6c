import OpenJobSpec.Python.JsonValue

/-! # Equality of JSON values

A boolean equals the integer that it is, and so the float of the same value. The
comparison is a function of the two values, and it holds when they denote the same,
where neither needs a NaN to be equal to another.
-/
namespace OpenJobSpec.Json

mutual

/-- Booleans as the integers that they are. -/
def numeric : Json → Json
  | null => .null
  | bool b => .int (if b then 1 else 0)
  | int n => .int n
  | float x => .float x
  | str s => .str s
  | array xs => .array (numericItems xs)
  | object fields => .object (numericFields fields)

def numericItems : List Json → List Json
  | [] => []
  | x :: xs => numeric x :: numericItems xs

def numericFields : List (String × Json) → List (String × Json)
  | [] => []
  | (k, v) :: rest => (k, numeric v) :: numericFields rest

end

/-- What `==` compares. -/
def compared (v : Json) : JsonValue := v.numeric.denote

theorem numericItems_eq (xs : List Json) : numericItems xs = xs.map numeric := by
  induction xs with
  | nil => rfl
  | cons x xs ih => rw [numericItems, ih, List.map_cons]

theorem lookup_numericFields (fields : Fields) (key : String) :
    (numericFields fields).lookup key = (fields.lookup key).map numeric := by
  induction fields with
  | nil => rfl
  | cons entry rest ih =>
    obtain ⟨k, v⟩ := entry
    rw [numericFields, List.lookup_cons, List.lookup_cons, ih]
    cases key == k <;> rfl

theorem compared_array (xs : List Json) : (array xs).compared = .array (xs.map compared) := by
  rw [compared, numeric, denote_array, numericItems_eq, List.map_map]
  rfl

theorem compared_object (fields : Fields) :
    (object fields).compared = .object fun key => (fields.lookup key).map compared := by
  rw [compared, numeric, denote_object]
  congr
  funext key
  rw [lookup_numericFields, Option.map_map]
  rfl

theorem compared_array_inj {xs ys : List Json} :
    (array xs).compared = (array ys).compared ↔ xs.map compared = ys.map compared := by
  rw [compared_array, compared_array, JsonValue.array.injEq]

theorem compared_object_inj {fields others : Fields} :
    (object fields).compared = (object others).compared ↔
      ∀ key, (fields.lookup key).map compared = (others.lookup key).map compared := by
  rw [compared_object, compared_object, JsonValue.object.injEq, funext_iff]

theorem compared_str_inj {s t : String} : (str s).compared = (str t).compared ↔ s = t := by
  simp [compared, numeric, denote]

theorem compared_int_inj {m n : ℤ} : (int m).compared = (int n).compared ↔ m = n := by
  simp [compared, numeric, denote]

/-! ## The comparison -/

mutual

/-- No NaN stands in the value. -/
def nanFree : Json → Bool
  | float x => x ≠ .nan
  | array xs => nanFreeItems xs
  | object fields => nanFreeFields fields
  | null | bool _ | int _ | str _ => true

def nanFreeItems : List Json → Bool
  | [] => true
  | x :: xs => nanFree x && nanFreeItems xs

def nanFreeFields : List (String × Json) → Bool
  | [] => true
  | (_, v) :: rest => nanFree v && nanFreeFields rest

end

theorem nanFreeFields_iff (fields : Fields) :
    nanFreeFields fields = true ↔ ∀ entry ∈ fields, entry.2.nanFree = true := by
  induction fields with
  | nil => simp [nanFreeFields]
  | cons entry rest ih =>
    obtain ⟨k, v⟩ := entry
    simp only [nanFreeFields, Bool.and_eq_true, ih, List.forall_mem_cons]

theorem nanFree_of_lookup {fields : Fields} (h : nanFreeFields fields = true) {key : String}
    {v : Json} (hkey : fields.lookup key = some v) : v.nanFree = true := by
  obtain ⟨before, after, rfl, -⟩ := List.lookup_eq_some_iff.mp hkey
  exact (nanFreeFields_iff _).mp h (key, v) (by simp)

theorem compared_ne_nan {b : Json} (h : b.nanFree = true) : b.compared ≠ .number .nan := by
  cases b with
  | float x => simpa [nanFree, compared, numeric, denote] using h
  | _ => simp [compared, numeric, denote]

/-- A boolean is a number here. -/
def number? : Json → Option PyFloat
  | bool b => some (.finite (if b then 1 else 0))
  | int n => some (.finite n)
  | float x => some x
  | null | str _ | array _ | object _ => none

mutual

/-- `a == b`. No NaN equals a value here; in Python it does when both are one object and lie in
lists or dictionaries that are compared. -/
def equals : Json → Json → Bool
  | null, b => b = null
  | bool x, b => b.number? = some (.finite (if x then 1 else 0))
  | int n, b => b.number? = some (.finite n)
  | float x, b => x ≠ .nan && b.number? = some x
  | str s, b => b = str s
  | array xs, b => match b with
    | array ys => equalItems xs ys
    | null | bool _ | int _ | float _ | str _ | object _ => false
  | object fields, b => match b with
    | object others =>
      equalMembers others [] fields && others.all fun entry => (fields.lookup entry.1).isSome
    | null | bool _ | int _ | float _ | str _ | array _ => false

def equalItems : List Json → List Json → Bool
  | [], ys => ys.isEmpty
  | x :: xs, ys => match ys with
    | [] => false
    | y :: ys => equals x y && equalItems xs ys

/-- Each key has an equal value among the others; only the first entry of a key counts. -/
def equalMembers (others : Fields) : List String → List (String × Json) → Bool
  | _, [] => true
  | seen, (k, v) :: rest =>
    (k ∈ seen || match others.lookup k with
      | some w => equals v w
      | none => false) && equalMembers others (k :: seen) rest

end

theorem number?_iff {b : Json} {x : PyFloat} :
    b.number? = some x ↔ b.compared = .number x := by
  cases b with
  | bool b => cases b <;> simp [number?, compared, numeric, denote]
  | _ => simp [number?, compared, numeric, denote]

mutual

theorem equals_iff (a : Json) {b : Json} (hb : b.nanFree = true) :
    a.equals b = true ↔ a.compared = b.compared := by
  cases a with
  | null => cases b <;> simp [equals, compared, numeric, denote]
  | bool x =>
    rw [equals, decide_eq_true_iff, number?_iff, eq_comm]
    cases x <;> rfl
  | int n =>
    rw [equals, decide_eq_true_iff, number?_iff, eq_comm]
    rfl
  | float x =>
    rw [equals, Bool.and_eq_true, decide_eq_true_iff, decide_eq_true_iff, number?_iff]
    refine ⟨fun h => h.2.symm, fun h => ⟨?_, h.symm⟩⟩
    rintro rfl
    exact compared_ne_nan hb h.symm
  | str s => cases b <;> simp [equals, compared, numeric, denote, eq_comm]
  | array xs =>
    cases b with
    | array ys => rw [equals, equalItems_iff xs hb, compared_array_inj]
    | _ => simp [equals, compared, numeric, denote]
  | object fields =>
    cases b with
    | object others =>
      rw [equals, Bool.and_eq_true, equalMembers_iff hb [] fields, compared_object_inj]
      constructor
      · rintro ⟨hmembers, hall⟩ key
        cases hkey : fields.lookup key with
        | some v => exact (hmembers key v hkey List.not_mem_nil).symm
        | none =>
          cases hother : others.lookup key with
          | none => rfl
          | some w =>
            obtain ⟨before, after, rfl, -⟩ := List.lookup_eq_some_iff.mp hother
            have hmem := List.all_eq_true.mp hall (key, w) (by simp)
            rw [hkey] at hmem
            cases hmem
      · intro h
        refine ⟨fun key v hkey _ => ?_, ?_⟩
        · rw [← h key, hkey]
          rfl
        · rw [List.all_eq_true]
          intro entry hentry
          have hfound : (others.lookup entry.1).isSome = true := by
            rw [List.lookup_isSome_iff]
            exact ⟨entry, hentry, by simp⟩
          have hkey := congrArg Option.isSome (h entry.1)
          rw [Option.isSome_map, Option.isSome_map, hfound] at hkey
          exact hkey
    | _ => simp [equals, compared, numeric, denote]

theorem equalItems_iff (xs : List Json) {ys : List Json} (hys : nanFreeItems ys = true) :
    equalItems xs ys = true ↔ xs.map compared = ys.map compared := by
  cases xs with
  | nil => cases ys <;> simp [equalItems]
  | cons x xs =>
    cases ys with
    | nil => simp [equalItems]
    | cons y ys =>
      obtain ⟨hy, hys⟩ := Bool.and_eq_true_iff.mp hys
      simp [equalItems, equals_iff x hy, equalItems_iff xs hys]

theorem equalMembers_iff {others : Fields} (hothers : nanFreeFields others = true)
    (seen : List String) (fields : List (String × Json)) : equalMembers others seen fields = true ↔
      ∀ key v, fields.lookup key = some v → key ∉ seen →
        (others.lookup key).map compared = some v.compared := by
  cases fields with
  | nil => simp [equalMembers]
  | cons entry rest =>
    obtain ⟨k, v⟩ := entry
    rw [equalMembers, Bool.and_eq_true, equalMembers_iff hothers (k :: seen) rest]
    have hfirst : (k ∈ seen || match others.lookup k with
        | some w => equals v w
        | none => false) = true ↔
          (k ∉ seen → (others.lookup k).map compared = some v.compared) := by
      by_cases hk : k ∈ seen
      · simp [hk]
      · cases hw : others.lookup k with
        | none => simp [hk]
        | some w => simp [hk, equals_iff v (nanFree_of_lookup hothers hw), eq_comm]
    rw [hfirst]
    constructor
    · rintro ⟨hhead, hrest⟩ key w hkey hseen
      rw [List.lookup_cons] at hkey
      by_cases heq : key = k
      · subst heq
        simp only [beq_self_eq_true, Option.some.injEq] at hkey
        rw [← hkey]
        exact hhead hseen
      · rw [beq_false_of_ne heq] at hkey
        exact hrest key w hkey (by simp [heq, hseen])
    · intro h
      refine ⟨fun hk => h k v (by simp) hk, fun key w hkey hseen => ?_⟩
      obtain ⟨hne, hseen⟩ := not_or.mp (fun hor => hseen (List.mem_cons.mpr hor))
      refine h key w ?_ hseen
      rw [List.lookup_cons, beq_false_of_ne hne]
      exact hkey

end

end OpenJobSpec.Json
