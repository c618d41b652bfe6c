import OpenJobSpec.Errors.Hierarchy

/-! # Reading a value of unknown shape

Code that expects an object but was handed another JSON value fails with the
interpreter's own exception. Those failures are part of the model.
-/
namespace OpenJobSpec.Json

/-- `value.get(key, default)`. -/
def getMethod (value : Json) (key : String) (default : Json) : Except Exn Json :=
  match value with
  | .object fields => .ok (Fields.get fields key default)
  | other =>
    .error (.builtin .attributeError ("'" ++ other.typeName ++ "' object has no attribute 'get'"))

/-- `value[key]` for a string key. -/
def subscript (value : Json) (key : String) : Except Exn Json :=
  match value with
  | .object fields =>
    match fields.lookup key with
    | some found => .ok found
    | none => .error (.builtin .keyError ("'" ++ key ++ "'"))
  | .array _ => .error (.builtin .typeError "list indices must be integers or slices, not str")
  | .str _ => .error (.builtin .typeError "string indices must be integers, not 'str'")
  | other =>
    .error (.builtin .typeError ("'" ++ other.typeName ++ "' object is not subscriptable"))

/-- The elements a `for` clause visits. -/
def iterate (value : Json) : Except Exn (List Json) :=
  match value with
  | .array xs => .ok xs
  | .str s => .ok (s.toList.map (fun c => .str (String.singleton c)))
  | .object fields => .ok (fields.map (fun entry => .str entry.1))
  | other => .error (.builtin .typeError ("'" ++ other.typeName ++ "' object is not iterable"))

/-- `value[0]`. -/
def first (value : Json) : Except Exn Json :=
  match value with
  | .array (x :: _) => .ok x
  | .array [] => .error (.builtin .indexError "list index out of range")
  | .str s =>
    match s.toList with
    | c :: _ => .ok (.str (String.singleton c))
    | [] => .error (.builtin .indexError "string index out of range")
  | .object _ => .error (.builtin .keyError "0")
  | other =>
    .error (.builtin .typeError ("'" ++ other.typeName ++ "' object is not subscriptable"))

/-- `bool(value)`. -/
def truthy : Json → Bool
  | .null => false
  | .bool b => b
  | .int n => n ≠ 0
  | .float x => x ≠ .finite 0
  | .str s => s ≠ ""
  | .array xs => ¬ xs.isEmpty
  | .object fields => ¬ fields.isEmpty

/-- `value or other`. -/
def orElse (value other : Json) : Json := if value.truthy then value else other

theorem getMethod_object (fields : Fields) (key : String) (default : Json) :
    getMethod (.object fields) key default = .ok (Fields.get fields key default) := rfl

theorem getMethod_not_mapping {value : Json} (key : String) (default : Json)
    (h : value.isMapping = false) :
    ∃ message, getMethod value key default = .error (.builtin .attributeError message) := by
  cases value with
  | object fields => simp [isMapping] at h
  | null | bool _ | int _ | float _ | str _ | array _ => exact ⟨_, rfl⟩

end OpenJobSpec.Json
