import OpenJobSpec.Errors.Hierarchy
import OpenJobSpec.Python.Decimal
import OpenJobSpec.Python.Text
import OpenJobSpec.Wire.WireValidation

/-! # Durations in protobuf's JSON mapping

Which characters are decimal digits, and which instant a timestamp names, is
for the standard library to say.
-/
namespace OpenJobSpec.Grpc

def decimalDuration (seconds : Decimal) : String := seconds.fixed ++ "s"

def millisecondsToDuration (milliseconds : ℤ) : Except Exn String :=
  if milliseconds < 0 then
    .error (.builtin .valueError "duration milliseconds must be non-negative")
  else .ok (decimalDuration (Decimal.rounded ⟨milliseconds.toNat, -3⟩))

/-! ## ISO 8601 durations -/

structure IsoDuration where
  days : ℕ
  hours : ℕ
  minutes : ℕ
  seconds : Decimal
deriving DecidableEq

variable (digit : Char → Option ℕ)

/-- The leading digits of a text, and the text after them. -/
def spanDigits : List Char → List ℕ × List Char
  | [] => ([], [])
  | c :: rest =>
    match digit c with
    | some n => (n :: (spanDigits rest).1, (spanDigits rest).2)
    | none => ([], c :: rest)

def numeral (digits : List ℕ) : ℕ := digits.foldl (fun n d => n * 10 + d) 0

/-- `(?:(\d+)U)?` for a unit: an absent component is zero. -/
def component (unit : Char) (text : List Char) : ℕ × List Char :=
  match spanDigits digit text with
  | (d :: ds, c :: rest) => if c = unit then (numeral (d :: ds), rest) else (0, text)
  | _ => (0, text)

/-- `(?:(\d+(?:\.\d+)?)S)?` -/
def secondsComponent (text : List Char) : Decimal × List Char :=
  match spanDigits digit text with
  | (d :: ds, 'S' :: rest) => (⟨numeral (d :: ds), 0⟩, rest)
  | (d :: ds, '.' :: fraction) =>
    match spanDigits digit fraction with
    | (f :: fs, 'S' :: rest) =>
      (⟨numeral (d :: ds ++ f :: fs), -((f :: fs).length : ℤ)⟩, rest)
    | _ => (⟨0, 0⟩, text)
  | _ => (⟨0, 0⟩, text)

/-- `_ISO_DURATION.fullmatch`. -/
def parseIsoDuration (value : String) : Option IsoDuration :=
  match value.toList with
  | 'P' :: afterP =>
    let (days, rest) := component digit 'D' afterP
    match rest with
    | [] => some ⟨days, 0, 0, ⟨0, 0⟩⟩
    | 'T' :: time =>
      let (hours, time) := component digit 'H' time
      let (minutes, time) := component digit 'M' time
      let (seconds, time) := secondsComponent digit time
      if time = [] then some ⟨days, hours, minutes, seconds⟩ else none
    | _ => none
  | _ => none

def IsoDuration.total (d : IsoDuration) : Decimal :=
  (((Decimal.mul ⟨d.days, 0⟩ ⟨86400, 0⟩).add (.mul ⟨d.hours, 0⟩ ⟨3600, 0⟩)).add
    (.mul ⟨d.minutes, 0⟩ ⟨60, 0⟩)).add d.seconds

def isoDurationToProtobuf (value : String) : Except Exn String :=
  match parseIsoDuration digit value with
  | none => .error (.builtin .valueError ("invalid ISO 8601 duration: " ++ Text.repr value))
  | some duration => .ok (decimalDuration duration.total)

/-! ## Durations of messages -/

/-- The groups of a match: a sign, the seconds, and the digits after the point. -/
structure ProtoDuration where
  negative : Bool
  seconds : ℕ
  fraction : Decimal
deriving DecidableEq

/-- `-?` -/
def optionalMinus : List Char → Bool × List Char
  | '-' :: rest => (true, rest)
  | text => (false, text)

/-- `_PROTO_DURATION.fullmatch`. -/
def matchProtoDuration (value : String) : Option ProtoDuration :=
  let (negative, text) := optionalMinus value.toList
  match spanDigits digit text with
  | (d :: ds, ['s']) => some ⟨negative, numeral (d :: ds), ⟨0, 0⟩⟩
  | (d :: ds, '.' :: fraction) =>
    match spanDigits digit fraction with
    | (f :: fs, ['s']) =>
      if (f :: fs).length ≤ 9 then
        some ⟨negative, numeral (d :: ds), ⟨numeral (f :: fs), -((f :: fs).length : ℤ)⟩⟩
      else none
    | _ => none
  | _ => none

/-- `seconds + fraction`, as its sign and its size: the fraction is taken off negative seconds. -/
def ProtoDuration.sum (m : ProtoDuration) : Bool × Decimal :=
  if m.negative ∧ m.seconds ≠ 0 then
    (true, Decimal.rounded ⟨m.seconds * 10 ^ (-m.fraction.exponent).toNat - m.fraction.coefficient,
      m.fraction.exponent⟩)
  else (false, .add ⟨m.seconds, 0⟩ m.fraction)

/-- A sum that overflows by itself makes a product that does. -/
def durationToMilliseconds (value : String) : Except Exn ℤ :=
  match matchProtoDuration digit value with
  | none => .error (.builtin .valueError ("invalid protobuf duration: " ++ Text.repr value))
  | some m =>
    let (negative, seconds) := m.sum
    let product := seconds.mul ⟨1000, 0⟩
    if product.Overflows then .error (.other "Overflow" "[<class 'decimal.Overflow'>]")
    else .ok (if negative then -(product.toInt : ℤ) else product.toInt)

/-- `sys.get_int_max_str_digits()`, where nobody has set it. -/
def maxStrDigits : ℕ := 4300

/-- `str(n)`. -/
def strInt (n : ℕ) : Except Exn String :=
  if maxStrDigits ≤ Nat.log 10 n then
    .error (.builtin .valueError ("Exceeds the limit (" ++ toString maxStrDigits
      ++ " digits) for integer string conversion; "
      ++ "use sys.set_int_max_str_digits() to increase the limit"))
  else .ok (toString n)

def protobufDurationToIso (value : String) : Except Exn String := do
  let milliseconds ← durationToMilliseconds digit value
  let seconds := Decimal.rounded ⟨milliseconds.natAbs, -3⟩
  let sign := if milliseconds < 0 then "-" else ""
  if seconds.IsIntegral then
    let digits ← strInt seconds.toInt
    return "PT" ++ sign ++ digits ++ "S"
  return "PT" ++ sign ++ seconds.fixed ++ "S"

/-! ## Expiry -/

structure Clock where
  /-- `datetime.fromisoformat(text)` in microseconds since the epoch, in UTC when it is naive -/
  instant : String → Option ℤ
  /-- `Decimal(str(seconds))` for a number of microseconds too large for exact seconds -/
  farSeconds : ℕ → Decimal

/-- The microseconds in `2 ** 33` seconds. -/
def exactMicroseconds : ℕ := 2 ^ 33 * 10 ^ 6

/-- `Decimal(str(total_seconds))`: below that bound a float of seconds is nearer to its own
microsecond than to another, so its shortest text ends there. -/
def secondsDecimal (clock : Clock) (microseconds : ℕ) : Decimal :=
  if microseconds < exactMicroseconds then ⟨microseconds, -6⟩ else clock.farSeconds microseconds

def expiryToTtl (clock : Clock) (now : ℤ) (expiresAt : String) : Except Exn String :=
  let normalized := WireDecoder.normalizeTimestamp expiresAt
  match clock.instant normalized with
  | none => .error (.builtin .valueError ("Invalid isoformat string: " ++ Text.repr normalized))
  | some expiry => .ok (decimalDuration (secondsDecimal clock (expiry - now).toNat))

end OpenJobSpec.Grpc
