import OpenJobSpec.Python.Json

/-! # Text parsers of the standard library

The parsers are one parameter of the model. Each returns `none` where the
interpreter raises the exception that every caller in the package catches.
-/
namespace OpenJobSpec

/-- A `datetime`; a naive one has no offset from UTC. -/
structure DateTime where
  year : ℕ
  month : ℕ
  day : ℕ
  hour : ℕ
  minute : ℕ
  second : ℕ
  microsecond : ℕ
  utcOffsetSeconds : Option ℤ
deriving DecidableEq

structure TextReader where
  /-- `float(text)` -/
  float : String → Option PyFloat
  /-- `int(text)` -/
  int : String → Option ℤ
  /-- `parsedate_to_datetime(text)` as POSIX seconds; a date without a zone is read as UTC. -/
  httpDate : String → Option ℚ
  /-- `datetime.fromisoformat(text)` -/
  fromIsoformat : String → Option DateTime
  /-- `datetime.now(UTC)` as POSIX seconds -/
  now : ℚ

/-- No text is a number or a date. -/
def refusingReader : TextReader where
  float _ := none
  int _ := none
  httpDate _ := none
  fromIsoformat _ := none
  now := 0

end OpenJobSpec
