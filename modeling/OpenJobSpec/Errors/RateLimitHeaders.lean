import OpenJobSpec.Errors.Hierarchy
import OpenJobSpec.Python.Text
import OpenJobSpec.Python.TextReader
import Mathlib.Algebra.Order.Ring.Rat

/-! # Standard HTTP rate-limit response headers -/
namespace OpenJobSpec

/-- A multi-dictionary of headers, in the order received. -/
abbrev Headers := List (String × String)

namespace Headers

def named (headers : Headers) (name : String) : Headers :=
  headers.filter (fun h => Text.casefold h.1 = Text.casefold name)

/-- Lookup ignores the case of names and joins repeated headers. -/
def get (headers : Headers) (name : String) : Option String :=
  if (headers.named name).isEmpty then none
  else some (Text.join ", " ((headers.named name).map (·.2)))

/-- `headers.update(other)`: a header of `other` replaces every one of its name. -/
def update (headers other : Headers) : Headers :=
  headers.filter (fun h => (other.named h.1).isEmpty) ++ other

theorem named_congr (headers : Headers) {name name' : String}
    (h : Text.casefold name = Text.casefold name') : headers.named name = headers.named name' := by
  simp only [named, h]

/-- A name that the update has is looked up there alone. -/
theorem named_update_of_ne_nil (headers : Headers) {other : Headers} {name : String}
    (h : other.named name ≠ []) : (headers.update other).named name = other.named name := by
  have hf : named (headers.filter (fun a => (named other a.1).isEmpty)) name = [] := by
    simp only [named, List.filter_filter, List.filter_eq_nil_iff]
    intro a _ ha
    simp only [Bool.and_eq_true, decide_eq_true_eq, List.isEmpty_iff] at ha
    exact h ((named_congr other ha.1).symm.trans ha.2)
  simp only [named, update, List.filter_append] at hf ⊢
  rw [hf, List.nil_append]

theorem named_update_of_eq_nil (headers : Headers) {other : Headers} {name : String}
    (h : other.named name = []) : (headers.update other).named name = headers.named name := by
  have hf : named (headers.filter (fun a => (named other a.1).isEmpty)) name =
      named headers name := by
    unfold named
    rw [List.filter_filter]
    apply List.filter_congr
    intro a _
    by_cases ha : Text.casefold a.1 = Text.casefold name
    · have hn : (named other a.1).isEmpty = true := by rw [named_congr other ha, h]; rfl
      unfold named at hn
      rw [hn, Bool.and_true]
    · simp [ha]
  simp only [named, update, List.filter_append] at hf h ⊢
  rw [hf, h, List.append_nil]

theorem get_congr {headers headers' : Headers} {name : String}
    (h : headers.named name = headers'.named name) : headers.get name = headers'.get name := by
  simp only [get, h]

end Headers

namespace Errors

def parseRetryAfter (reader : TextReader) : Option String → Option ℚ
  | none => none
  | some value =>
    match reader.float value with
    | some (.finite seconds) => some (max 0 seconds)
    | some (.infinite _) => none
    | some .nan => none
    | none => (reader.httpDate value).map (fun retryAt => max 0 (retryAt - reader.now))

def parseInt (reader : TextReader) (value : Option String) : Option ℤ :=
  value.bind reader.int

def parseRateLimitHeaders (reader : TextReader) (headers : Headers) : Option RateLimitInfo :=
  if headers.isEmpty then none
  else
    let retryAfter := parseRetryAfter reader (headers.get "Retry-After")
    let limit := parseInt reader (headers.get "X-RateLimit-Limit")
    let remaining := parseInt reader (headers.get "X-RateLimit-Remaining")
    let reset := parseInt reader (headers.get "X-RateLimit-Reset")
    if limit.isNone && remaining.isNone && reset.isNone && retryAfter.isNone then none
    else some ⟨limit, remaining, reset, retryAfter⟩

end Errors

end OpenJobSpec
