import OpenJobSpec.Grpc.ProtobufTime
import OpenJobSpec.Python.DecimalText

/-! # Backoff of the server-side retry policy

The intervals are ISO 8601 durations of the pattern that the protobuf mapping
has too, here with a line break allowed after them. Arithmetic is exact but for
the conversions that can fail.
-/
namespace OpenJobSpec.Retry
open Grpc
variable (digit : Char → Option ℕ)

/-- `$` matches before a line break that ends the text. -/
def withoutFinalNewline (text : String) : String :=
  if text.toList.getLast? = some '\n' then String.ofList text.toList.dropLast else text

/-- The match of a duration, as its components. -/
def matchDuration (text : String) : Option IsoDuration :=
  parseIsoDuration digit (withoutFinalNewline text)

/-- The part of a duration that is computed with integers. -/
def wholeSeconds (d : IsoDuration) : ℕ := d.days * 86400 + d.hours * 3600 + d.minutes * 60

/-- The lengths of the groups of days, hours and minutes of a matched text: what each component
takes of it, without its letter. -/
def groupLengths (text : String) : List ℕ :=
  match text.toList with
  | 'P' :: afterP =>
    let date := (component digit 'D' afterP).2
    let time := date.tail
    let afterHours := (component digit 'H' time).2
    let afterMinutes := (component digit 'M' afterHours).2
    [afterP.length - date.length - 1, time.length - afterHours.length - 1,
      afterHours.length - afterMinutes.length - 1]
  | _ => []

/-- `int(text)` of the first of these groups that has too many digits for it. -/
def digitLimit (lengths : List ℕ) : Except Exn Unit :=
  match lengths.find? (fun n => maxStrDigits < n) with
  | none => .ok ()
  | some n => .error (.builtin .valueError ("Exceeds the limit (" ++ toString maxStrDigits
      ++ " digits) for integer string conversion: value has " ++ toString n
      ++ " digits; use sys.set_int_max_str_digits() to increase the limit"))

def parseIso8601Duration (duration : String) : Except Exn ℚ :=
  match matchDuration digit duration with
  | none => .error (.builtin .valueError ("Invalid ISO 8601 duration: " ++ Text.repr duration))
  | some d => do
    digitLimit (groupLengths digit (withoutFinalNewline duration))
    let whole ← Number.toFloat (.int (wholeSeconds d))
    return whole + d.seconds.value

/-- The members of a retry policy that `delay_for_attempt` reads, with the types that they are
declared with. -/
structure BackoffPolicy where
  initialInterval : String := "PT1S"
  backoffCoefficient : Number := .float 2
  maxInterval : String := "PT5M"
  jitter : Bool := true

/-- `random.uniform(low, high)`, from a draw of `random.random()`. -/
def uniform (random low high : ℚ) : ℚ := low + (high - low) * random

def BackoffPolicy.delayForAttempt (policy : BackoffPolicy) (random : ℚ) (attempt : ℤ) :
    Except Exn ℚ := do
  let initial ← parseIso8601Duration digit policy.initialInterval
  let maxDelay ← parseIso8601Duration digit policy.maxInterval
  let power ← policy.backoffCoefficient.pow (attempt - 1)
  let factor ← power.toFloat
  let delay := min (initial * factor) maxDelay
  return if policy.jitter then min (delay * uniform random (1 / 2) (3 / 2)) maxDelay else delay

end OpenJobSpec.Retry
