import Mathlib
import OpenJobSpec.Grpc.ProjectedJob

/-! # Integers lost by the canonical JSON mapping

A message is the tree of its fields, each with the part of its descriptor that
matters here: whether it is an integer, how wide, and whether it is repeated, a map
or a message. `MessageToDict` prints a 64-bit integer as a text, and the walk of
`_normalize_integer_fields` down the same tree restores it.
-/
namespace OpenJobSpec.Grpc

mutual

/-- A field that is printed. The values of other types, of maps of them and of the other well-known
types stand for themselves in print. -/
inductive ProtoField
  | integer (wide : Bool) (n : ℤ)
  | integers (wide : Bool) (ns : List ℤ)
  | integerMap (wide : Bool) (entries : List (String × ℤ))
  | messageMap (entries : ProtoEntries)
  | wrapper (wide : Bool) (n : ℤ)
  | other (printed : Json)
  | struct (printed : Fields)
  | value (printed : Json)
  | values (printed : List Json)
  | message (m : ProtoMessage)
  | messages (ms : ProtoMessages)

/-- The fields of a message in the order of its descriptor. -/
inductive ProtoMessage
  | nil
  | absent (name : String) (rest : ProtoMessage)
  | present (name : String) (field : ProtoField) (rest : ProtoMessage)

inductive ProtoMessages
  | nil
  | cons (m : ProtoMessage) (rest : ProtoMessages)

inductive ProtoEntries
  | nil
  | cons (key : String) (m : ProtoMessage) (rest : ProtoEntries)

end

/-- `json_format` prints an integer of 64 bits as a text. -/
def printInteger (wide : Bool) (n : ℤ) : Json := if wide then .str n.repr else .int n

mutual

/-- A field in print, where `integer` prints an integer that is wide or not. What lies in a map of
messages or in a wrapper is always printed by `json_format`. -/
def ProtoField.printWith (integer : Bool → ℤ → Json) : ProtoField → Json
  | .integer wide n => integer wide n
  | .integers wide ns => .array (ns.map (integer wide))
  | .integerMap wide entries => .object (entries.map fun entry => (entry.1, integer wide entry.2))
  | .messageMap entries => .object entries.printEntries
  | .wrapper wide n => printInteger wide n
  | .other printed => printed
  | .struct printed => .object printed
  | .value printed => printed
  | .values printed => .array printed
  | .message m => .object (m.printFields integer)
  | .messages ms => .array (ms.printEach integer)

def ProtoMessage.printFields (integer : Bool → ℤ → Json) : ProtoMessage → Fields
  | .nil => []
  | .absent _ rest => rest.printFields integer
  | .present name field rest => (name, field.printWith integer) :: rest.printFields integer

def ProtoMessages.printEach (integer : Bool → ℤ → Json) : ProtoMessages → List Json
  | .nil => []
  | .cons m rest => .object (m.printFields integer) :: rest.printEach integer

def ProtoEntries.printEntries : ProtoEntries → Fields
  | .nil => []
  | .cons key m rest => (key, .object (m.printFields printInteger)) :: rest.printEntries

end

/-- `MessageToDict(message, preserving_proto_field_name=True)`. -/
def ProtoMessage.toDict (m : ProtoMessage) : Fields := m.printFields printInteger

/-- The message with its integers as integers, but for those in maps of messages and in wrappers. -/
def ProtoMessage.native (m : ProtoMessage) : Fields := m.printFields fun _ n => .int n

def toIntegers : Json → Json
  | .array items => .array (items.map toInteger)
  | value => value

def toIntegerValues : Json → Json
  | .object entries => .object (entries.map fun entry => (entry.1, toInteger entry.2))
  | value => value

mutual

/-- What `_normalize_integer_fields` does with the value under the name of the field. -/
def ProtoField.normalize : ProtoField → Json → Json
  | .integer _ _ => toInteger
  | .integers _ _ => toIntegers
  | .integerMap _ _ => toIntegerValues
  -- a map whose values are no integers is passed over, and so is a wrapper, printed as no object
  | .messageMap _ | .wrapper _ _ | .other _ => id
  | .struct _ => normalizeMessage structIntegers
  | .value _ => normalizeMessage valueIntegers
  | .values _ => normalizeMessages valueIntegers
  | .message m => normalizeMessage m.descriptor
  | .messages ms => fun value =>
    match value with
    | .array items => .array (ms.normalizeEach items)
    | value => value

/-- The walk over the fields of a message. -/
def ProtoMessage.descriptor : ProtoMessage → List (String × (Json → Json))
  | .nil => []
  | .absent name rest => (name, id) :: rest.descriptor
  | .present name field rest => (name, field.normalize) :: rest.descriptor

/-- `zip(repeated, value)`. -/
def ProtoMessages.normalizeEach : ProtoMessages → List Json → List Json
  | .nil, items => items
  | .cons _ _, [] => []
  | .cons m rest, item :: items => normalizeMessage m.descriptor item :: rest.normalizeEach items

end

/-- `_normalize_integer_fields(message, data)`. -/
def normalizeIntegerFields (m : ProtoMessage) (data : Fields) : Fields :=
  normalizeFields m.descriptor data

def ProtoMessage.names : ProtoMessage → List String
  | .nil => []
  | .absent name rest => name :: rest.names
  | .present name _ rest => name :: rest.names

mutual

/-- The names of a descriptor are different. -/
def ProtoField.Distinct : ProtoField → Prop
  | .message m => m.Distinct
  | .messages ms => ms.Distinct
  | _ => True

def ProtoMessage.Distinct : ProtoMessage → Prop
  | .nil => True
  | .absent name rest => name ∉ rest.names ∧ rest.Distinct
  | .present name field rest => name ∉ rest.names ∧ field.Distinct ∧ rest.Distinct

def ProtoMessages.Distinct : ProtoMessages → Prop
  | .nil => True
  | .cons m rest => m.Distinct ∧ rest.Distinct

end

/-! ## What the walk restores -/

theorem toInteger_print (wide : Bool) (n : ℤ) : toInteger (printInteger wide n) = .int n := by
  cases wide with
  | false => rfl
  | true =>
    change toInteger (.str n.repr) = .int n
    rw [toInteger, Int.toInt?_repr]

theorem normalize_null (field : ProtoField) : field.normalize .null = .null := by
  cases field <;> rfl

theorem normalizeFields_cons {descriptor : List (String × (Json → Json))} {name : String}
    {normalize : Json → Json} (hlookup : descriptor.lookup name = some normalize)
    (hnull : normalize .null = .null) (value : Json) (rest : Fields) :
    normalizeFields descriptor ((name, value) :: rest) =
      (name, normalize value) :: normalizeFields descriptor rest := by
  rw [normalizeFields, List.map_cons]
  congr 1
  rw [hlookup]
  cases value with
  | null => exact congrArg (Prod.mk name) hnull.symm
  | _ => rfl

theorem normalizeMessage_struct (fields : Fields) :
    normalizeMessage structIntegers (.object fields) = .object fields := normalizeMessage_nil _

mutual

/-- The walk over a tree restores the integers of the tree however they were printed, so long as
`int` reads them, and leaves the rest of the print as it is. -/
theorem normalize_printWith {integer : Bool → ℤ → Json}
    (hinteger : ∀ wide n, toInteger (integer wide n) = .int n) (field : ProtoField)
    (h : field.Distinct) :
    field.normalize (field.printWith integer) = field.printWith fun _ n => .int n :=
  match field, h with
  | .integer wide n, _ => hinteger wide n
  | .integers wide ns, _ => by
    change Json.array ((ns.map (integer wide)).map toInteger) = .array (ns.map .int)
    rw [List.map_map]
    exact congrArg Json.array (List.map_congr_left fun n _ => hinteger wide n)
  | .integerMap wide entries, _ => by
    change Json.object ((entries.map fun entry => (entry.1, integer wide entry.2)).map
      fun entry => (entry.1, toInteger entry.2)) =
        .object (entries.map fun entry => (entry.1, .int entry.2))
    rw [List.map_map]
    exact congrArg Json.object (List.map_congr_left fun entry _ =>
      congrArg (Prod.mk entry.1) (hinteger wide entry.2))
  | .messageMap entries, _ => rfl
  | .wrapper wide n, _ => rfl
  | .other printed, _ => rfl
  | .struct printed, _ => normalizeMessage_struct printed
  | .value printed, _ => normalizeMessage_value printed
  | .values printed, _ => normalizeMessages_eq_self fun item _ => normalizeMessage_value item
  | .message m, h => congrArg Json.object (normalizeFields_printFields hinteger m h fun _ _ => rfl)
  | .messages ms, h => congrArg Json.array (normalizeEach_printEach hinteger ms h)

theorem normalizeFields_printFields {integer : Bool → ℤ → Json}
    (hinteger : ∀ wide n, toInteger (integer wide n) = .int n) (m : ProtoMessage)
    (h : m.Distinct) {descriptor : List (String × (Json → Json))}
    (hdescriptor : ∀ name ∈ m.names, descriptor.lookup name = m.descriptor.lookup name) :
    normalizeFields descriptor (m.printFields integer) = m.printFields fun _ n => .int n :=
  match m, h with
  | .nil, _ => rfl
  | .absent name rest, h => by
    refine normalizeFields_printFields hinteger rest h.2 fun other hother => ?_
    have hne : other ≠ name := fun heq => h.1 (heq ▸ hother)
    rw [hdescriptor other (List.mem_cons_of_mem _ hother), ProtoMessage.descriptor,
      List.lookup_cons, beq_false_of_ne hne]
  | .present name field rest, h => by
    have hlookup : descriptor.lookup name = some field.normalize := by
      rw [hdescriptor name List.mem_cons_self, ProtoMessage.descriptor, List.lookup_cons_self]
    have hrest : normalizeFields descriptor (rest.printFields integer) =
        rest.printFields fun _ n => .int n := by
      refine normalizeFields_printFields hinteger rest h.2.2 fun other hother => ?_
      have hne : other ≠ name := fun heq => h.1 (heq ▸ hother)
      rw [hdescriptor other (List.mem_cons_of_mem _ hother), ProtoMessage.descriptor,
        List.lookup_cons, beq_false_of_ne hne]
    rw [ProtoMessage.printFields, normalizeFields_cons hlookup (normalize_null field), hrest,
      normalize_printWith hinteger field h.2.1]
    rfl

theorem normalizeEach_printEach {integer : Bool → ℤ → Json}
    (hinteger : ∀ wide n, toInteger (integer wide n) = .int n) (ms : ProtoMessages)
    (h : ms.Distinct) :
    ms.normalizeEach (ms.printEach integer) = ms.printEach fun _ n => .int n :=
  match ms, h with
  | .nil, _ => rfl
  | .cons m rest, h => by
    change normalizeMessage m.descriptor (.object (m.printFields integer)) ::
      rest.normalizeEach (rest.printEach integer) = _
    rw [normalizeEach_printEach hinteger rest h.2]
    change Json.object (normalizeFields m.descriptor (m.printFields integer)) :: _ = _
    rw [normalizeFields_printFields hinteger m h.1 fun _ _ => rfl]
    rfl

end

/-- After the walk a printed message holds its integers as integers, at every depth and of every
width, and all else, maps of messages and wrappers with it, as it was printed; a second walk changes
nothing. -/
theorem integers_restored (m : ProtoMessage) (h : m.Distinct) :
    normalizeIntegerFields m m.toDict = m.native ∧
      normalizeIntegerFields m m.native = m.native :=
  ⟨normalizeFields_printFields toInteger_print m h fun _ _ => rfl,
    normalizeFields_printFields (fun _ _ => rfl) m h fun _ _ => rfl⟩

/-- A counter of 64 bits below a repeated message, beside a map of integers, and the same message in
a map. -/
theorem integers_restored_below :
    let counters := ProtoMessage.present "active" (.integer true (-5)) (.absent "dead" .nil)
    let m := ProtoMessage.present "queues" (.messages (.cons counters .nil))
      (.present "sizes" (.integerMap true [("7", 9223372036854775807)])
        (.present "named" (.messageMap (.cons "a" counters .nil)) .nil))
    normalizeIntegerFields m m.toDict = [("queues", .array [.object [("active", .int (-5))]]),
      ("sizes", .object [("7", .int 9223372036854775807)]),
      ("named", .object [("a", .object [("active", .str "-5")])])] := by
  intro counters m
  exact (integers_restored m ⟨by decide, ⟨⟨by decide, trivial, by decide, trivial⟩, trivial⟩,
    by decide, trivial, by decide, trivial, trivial⟩).1

end OpenJobSpec.Grpc
