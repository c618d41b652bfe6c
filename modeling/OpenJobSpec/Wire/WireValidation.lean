import OpenJobSpec.Errors.Hierarchy
import OpenJobSpec.Python.Number
import OpenJobSpec.Python.TextReader
import OpenJobSpec.Python.Text

/-! # Path-aware decoding for OJS wire objects

Every method reads one field and names the field's path in the error it raises.
A key that is absent takes the default, a key that holds null does not.
-/
namespace OpenJobSpec

structure WireDecoder where
  data : Fields
  path : String

namespace WireDecoder

def invalid (path expected : String) (value : Json) : Exn :=
  .validation ("invalid wire value at " ++ path ++ ": expected " ++ expected ++ ", got "
    ++ value.typeName)

def required (path : String) : Exn :=
  .validation ("invalid wire value at " ++ path ++ ": field is required")

def object (value : Json) (path : String) : Except Exn WireDecoder :=
  match value with
  | .object fields => .ok ⟨fields, path⟩
  | other => .error (invalid path "object" other)

variable (d : WireDecoder)

def fieldPath (field : String) : String := d.path ++ "." ++ field

def value (field : String) (default : Json) : Json := Fields.get d.data field default

def requiredString (field : String) : Except Exn String :=
  match d.data.lookup field with
  | none => .error (required (d.fieldPath field))
  | some (.str s) => .ok s
  | some other => .error (invalid (d.fieldPath field) "string" other)

def string (field : String) (default : Option String) : Except Exn (Option String) :=
  match d.data.lookup field with
  | none => .ok default
  | some .null => .ok none
  | some (.str s) => .ok (some s)
  | some other => .error (invalid (d.fieldPath field) "string" other)

def integer (field : String) (default : Option ℤ) : Except Exn (Option ℤ) :=
  match d.data.lookup field with
  | none => .ok default
  | some .null => .ok none
  | some (.int n) => .ok (some n)
  | some other => .error (invalid (d.fieldPath field) "integer" other)

def number (field : String) (default : PyFloat) : Except Exn PyFloat :=
  match d.data.lookup field with
  | none => .ok default
  | some (.int n) => PyFloat.ofInt n
  | some (.float x) => .ok x
  | some other => .error (invalid (d.fieldPath field) "number" other)

def array (field : String) (default : List Json) : Except Exn (List Json) :=
  match d.data.lookup field with
  | none => .ok default
  | some (.array xs) => .ok xs
  | some other => .error (invalid (d.fieldPath field) "array" other)

def strings (path : String) : ℕ → List Json → Except Exn (List String)
  | _, [] => .ok []
  | index, .str s :: rest => do
    let tail ← strings path (index + 1) rest
    return s :: tail
  | index, other :: _ => .error (invalid (path ++ "[" ++ toString index ++ "]") "string" other)

def stringArray (field : String) (default : List String) : Except Exn (List String) := do
  let values ← d.array field (default.map .str)
  strings (d.fieldPath field) 0 values

def mapping (field : String) (default : Fields) : Except Exn Fields := do
  let decoder ← object (d.value field (.object default)) (d.fieldPath field)
  return decoder.data

def optionalMapping (field : String) : Except Exn (Option Fields) :=
  match d.value field .null with
  | .null => .ok none
  | other => do
    let decoder ← object other (d.fieldPath field)
    return some decoder.data

/-- The text of a timestamp with a `Z` suffix replaced by an offset. -/
def normalizeTimestamp (text : String) : String :=
  if "Z".toList.isSuffixOf text.toList then
    String.ofList (text.toList.take (text.toList.length - 1)) ++ "+00:00"
  else text

def parseDatetime (reader : TextReader) (text path : String) : Except Exn DateTime :=
  match reader.fromIsoformat (normalizeTimestamp text) with
  | some t => .ok t
  | none => .error (.validation ("invalid wire value at " ++ path
      ++ ": malformed ISO 8601 timestamp " ++ Text.repr text))

def datetime (reader : TextReader) (field : String) : Except Exn (Option DateTime) :=
  match d.data.lookup field with
  | none => .ok none
  | some .null => .ok none
  | some (.str s) => (parseDatetime reader s (d.fieldPath field)).map some
  | some other => .error (invalid (d.fieldPath field) "ISO 8601 timestamp" other)

/-! ## What is read of a value of the right type -/

theorem strings_texts (path : String) (index : ℕ) (texts : List String) :
    strings path index (texts.map .str) = .ok texts := by
  induction texts generalizing index with
  | nil => rfl
  | cons text rest ih =>
    rw [List.map_cons, strings, ih]
    rfl

section Reads
variable {d : WireDecoder} {field : String}

theorem optionalMapping_eq {policy : Option Fields}
    (h : d.data.lookup field = policy.map .object) : d.optionalMapping field = .ok policy := by
  unfold optionalMapping value Fields.get
  rw [h]
  cases policy <;> rfl

theorem string_eq {default : Option String} {text : String}
    (h : d.data.lookup field = some (.str text)) : d.string field default = .ok (some text) := by
  unfold string
  rw [h]

theorem requiredString_eq {text : String} (h : d.data.lookup field = some (.str text)) :
    d.requiredString field = .ok text := by
  unfold requiredString
  rw [h]

theorem integer_eq {default : Option ℤ} {n : Option ℤ} (h : d.data.lookup field = n.map .int) :
    d.integer field default = .ok (n.or default) := by
  unfold integer
  rw [h]
  cases n <;> rfl

theorem array_eq {default items : List Json} (h : d.data.lookup field = some (.array items)) :
    d.array field default = .ok items := by
  unfold array
  rw [h]

theorem stringArray_eq {default texts : List String}
    (h : d.data.lookup field = some (.array (texts.map .str))) :
    d.stringArray field default = .ok texts := by
  unfold stringArray
  rw [array_eq h]
  exact strings_texts _ _ texts

theorem mapping_eq {default fields : Fields} (h : d.data.lookup field = some (.object fields)) :
    d.mapping field default = .ok fields := by
  unfold mapping value
  rw [Fields.get_of_lookup h]
  rfl

end Reads

end WireDecoder

end OpenJobSpec
