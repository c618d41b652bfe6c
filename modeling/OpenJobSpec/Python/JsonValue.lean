import OpenJobSpec.Python.Json
import Mathlib.Order.WellFounded

/-! # What a JSON value denotes

Two dictionaries are equal when they hold equal values under the same keys, in
whatever order, and an integer equals the float of the same value. So a value
denotes a tree in which numbers are numbers and an object is a family of values.
No value lies inside itself.
-/
namespace OpenJobSpec

inductive JsonValue
  | null
  | bool (b : Bool)
  | number (x : PyFloat)
  | str (s : String)
  | array (items : List JsonValue)
  | object (member : String → Option JsonValue)

namespace Json

mutual

def denote : Json → JsonValue
  | null => .null
  | bool b => .bool b
  | int n => .number (.finite n)
  | float x => .number x
  | str s => .str s
  | array xs => .array (denoteItems xs)
  | object fields => .object (denoteFields fields)

def denoteItems : List Json → List JsonValue
  | [] => []
  | x :: xs => denote x :: denoteItems xs

def denoteFields : List (String × Json) → String → Option JsonValue
  | [], _ => none
  | (k, v) :: rest, key => if key = k then some (denote v) else denoteFields rest key

end

theorem denoteItems_eq (xs : List Json) : denoteItems xs = xs.map denote := by
  induction xs with
  | nil => rfl
  | cons x xs ih => rw [denoteItems, ih, List.map_cons]

theorem denoteFields_eq (fields : Fields) (key : String) :
    denoteFields fields key = (fields.lookup key).map denote := by
  induction fields with
  | nil => rfl
  | cons entry rest ih =>
    obtain ⟨k, v⟩ := entry
    rw [denoteFields, List.lookup_cons]
    by_cases hk : key = k
    · simp [hk]
    · have hbeq : (key == k) = false := beq_false_of_ne hk
      rw [if_neg hk, hbeq, ih]

theorem denote_object (fields : Fields) :
    (object fields).denote = .object fun key => (fields.lookup key).map denote := by
  rw [denote]
  congr
  funext key
  exact denoteFields_eq fields key

theorem denote_array (xs : List Json) : (array xs).denote = .array (xs.map denote) := by
  rw [denote, denoteItems_eq]

end Json

namespace JsonValue

/-- An item of an array, or a member of an object. -/
inductive Child : JsonValue → JsonValue → Prop
  | item {x : JsonValue} {items : List JsonValue} (h : x ∈ items) : Child x (.array items)
  | member {x : JsonValue} {member : String → Option JsonValue} {key : String}
      (h : member key = some x) : Child x (.object member)

/-- Somewhere below the root of a value. -/
def Inside : JsonValue → JsonValue → Prop := Relation.TransGen Child

theorem child_acc (v : JsonValue) : Acc Child v := by
  refine @JsonValue.rec (Acc Child) (fun items => ∀ x ∈ items, Acc Child x)
    (fun member => ∀ x, member = some x → Acc Child x) ?_ ?_ ?_ ?_ ?_ ?_ ?_ ?_ ?_ ?_ v
  · exact ⟨_, fun _ h => by cases h⟩
  · intro b
    exact ⟨_, fun _ h => by cases h⟩
  · intro x
    exact ⟨_, fun _ h => by cases h⟩
  · intro s
    exact ⟨_, fun _ h => by cases h⟩
  · intro items ih
    refine ⟨_, fun x h => ?_⟩
    cases h with
    | item hx => exact ih x hx
  · intro member ih
    refine ⟨_, fun x h => ?_⟩
    cases h with
    | member hx => exact ih _ x hx
  · intro x hx
    cases hx
  · intro x items hhead htail y hy
    rcases List.mem_cons.mp hy with rfl | hy
    · exact hhead
    · exact htail y hy
  · intro x hx
    cases hx
  · intro x hx y hy
    cases hy
    exact hx

theorem inside_acc (v : JsonValue) : Acc Inside v := (child_acc v).transGen

theorem inside_irrefl (v : JsonValue) : ¬ Inside v v := fun h =>
  (WellFounded.intro inside_acc).irrefl.irrefl v h

theorem Inside.trans {a b c : JsonValue} (hab : Inside a b) (hbc : Inside b c) : Inside a c :=
  Relation.TransGen.trans hab hbc

theorem Child.inside {a b : JsonValue} (h : Child a b) : Inside a b := Relation.TransGen.single h

end JsonValue

end OpenJobSpec
