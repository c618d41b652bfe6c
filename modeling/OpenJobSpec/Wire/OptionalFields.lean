import OpenJobSpec.Wire.JobAcceptance

/-! # A field of the job that is null, and one that is absent

A default is applied in two places: the decoder's, for a key that is missing,
and the one after `or`, for a value that is null or falsy. The two agree for
every optional field but one.
-/
namespace OpenJobSpec

/-- `{k: v for k, v in data.items() if k != key}`. -/
def Fields.remove (fields : Fields) (key : String) : Fields :=
  fields.filter fun entry => entry.1 ≠ key

theorem Fields.lookup_remove (fields : Fields) (name key : String) :
    (remove fields name).lookup key = if key = name then none else fields.lookup key := by
  induction fields with
  | nil => simp [remove]
  | cons entry rest ih =>
    obtain ⟨k, v⟩ := entry
    rw [remove] at ih ⊢
    by_cases hk : k = name
    · rw [List.filter_cons_of_neg (by simp [hk]), ih, List.lookup_cons]
      by_cases hkey : key = name
      · rw [if_pos hkey, if_pos hkey]
      · rw [if_neg hkey, if_neg hkey, beq_false_of_ne (hk ▸ hkey)]
    · rw [List.filter_cons_of_pos (by simp [hk]), List.lookup_cons, List.lookup_cons, ih]
      by_cases hkey : key = k
      · subst hkey
        rw [beq_self_eq_true, if_neg hk, if_neg hk]
      · rw [beq_false_of_ne hkey]

inductive IntegerField
  | priority
  | attempt
  | maxAttempts
  | timeoutMs
deriving DecidableEq

namespace IntegerField

def name : IntegerField → String
  | priority => "priority"
  | attempt => "attempt"
  | maxAttempts => "max_attempts"
  | timeoutMs => "timeout_ms"

def read : IntegerField → Job → Option ℤ
  | priority, job => some job.priority
  | attempt, job => some job.attempt
  | maxAttempts, job => some job.maxAttempts
  | timeoutMs, job => job.timeoutMs

def write : IntegerField → ℤ → Job → Job
  | priority, n, job => { job with priority := n }
  | attempt, n, job => { job with attempt := n }
  | maxAttempts, n, job => { job with maxAttempts := n }
  | timeoutMs, n, job => { job with timeoutMs := some n }

theorem read_write (f : IntegerField) (n : ℤ) (job : Job) : f.read (f.write n job) = some n := by
  cases f <;> rfl

end IntegerField

inductive OptionalField
  | state
  | queue
  | integer (f : IntegerField)
deriving DecidableEq

namespace OptionalField

def name : OptionalField → String
  | state => "state"
  | queue => "queue"
  | integer f => f.name

/-- What null makes of the job that has the field's default. -/
def ofNull : OptionalField → Job → Job
  | integer .maxAttempts, job => { job with maxAttempts := 0 }
  | _, job => job

end OptionalField

open ExceptRules

namespace WireDecoder
variable (data : Fields) (path name : String)

section Others
variable {name} {field : String} (h : field ≠ name) (given : Json)
include h

/-- A field that is neither removed nor set is found as before. -/
theorem lookup_other :
    (Fields.set data name given).lookup field = (Fields.remove data name).lookup field := by
  rw [Fields.lookup_set, Fields.lookup_remove, if_neg h, if_neg h]

theorem value_other (default : Json) :
    value ⟨Fields.set data name given, path⟩ field default =
      value ⟨Fields.remove data name, path⟩ field default := by
  rw [value, value, Fields.get, Fields.get, lookup_other data h]

theorem requiredString_other :
    requiredString ⟨Fields.set data name given, path⟩ field =
      requiredString ⟨Fields.remove data name, path⟩ field := by
  rw [requiredString, requiredString, lookup_other data h]
  rfl

theorem string_other (default : Option String) :
    string ⟨Fields.set data name given, path⟩ field default =
      string ⟨Fields.remove data name, path⟩ field default := by
  rw [string, string, lookup_other data h]
  rfl

theorem integer_other (default : Option ℤ) :
    integer ⟨Fields.set data name given, path⟩ field default =
      integer ⟨Fields.remove data name, path⟩ field default := by
  rw [integer, integer, lookup_other data h]
  rfl

theorem array_other (default : List Json) :
    array ⟨Fields.set data name given, path⟩ field default =
      array ⟨Fields.remove data name, path⟩ field default := by
  rw [array, array, lookup_other data h]
  rfl

theorem stringArray_other (default : List String) :
    stringArray ⟨Fields.set data name given, path⟩ field default =
      stringArray ⟨Fields.remove data name, path⟩ field default := by
  rw [stringArray, stringArray, array_other data path h]
  rfl

theorem mapping_other (default : Fields) :
    mapping ⟨Fields.set data name given, path⟩ field default =
      mapping ⟨Fields.remove data name, path⟩ field default := by
  rw [mapping, mapping, value_other data path h]
  rfl

theorem optionalMapping_other :
    optionalMapping ⟨Fields.set data name given, path⟩ field =
      optionalMapping ⟨Fields.remove data name, path⟩ field := by
  rw [optionalMapping, optionalMapping, value_other data path h]
  rfl

theorem datetime_other (reader : TextReader) :
    datetime ⟨Fields.set data name given, path⟩ reader field =
      datetime ⟨Fields.remove data name, path⟩ reader field := by
  rw [datetime, datetime, lookup_other data h]
  rfl

end Others

section Given

theorem lookup_set_self (value : Json) : (Fields.set data name value).lookup name = some value := by
  rw [Fields.lookup_set, if_pos rfl]

theorem lookup_remove_self : (Fields.remove data name).lookup name = none := by
  rw [Fields.lookup_remove, if_pos rfl]

theorem string_null (default : Option String) :
    string ⟨Fields.set data name .null, path⟩ name default = .ok none := by
  rw [string, lookup_set_self]

theorem string_removed (default : Option String) :
    string ⟨Fields.remove data name, path⟩ name default = .ok default := by
  rw [string, lookup_remove_self]

theorem integer_null (default : Option ℤ) :
    integer ⟨Fields.set data name .null, path⟩ name default = .ok none := by
  rw [integer, lookup_set_self]

theorem integer_given (n : ℤ) (default : Option ℤ) :
    integer ⟨Fields.set data name (.int n), path⟩ name default = .ok (some n) := by
  rw [integer, lookup_set_self]

theorem integer_removed (default : Option ℤ) :
    integer ⟨Fields.remove data name, path⟩ name default = .ok default := by
  rw [integer, lookup_remove_self]

end Given

end WireDecoder

namespace Job
variable (reader : TextReader) (data : Fields)

section Others
variable {name : String} (given : Json)

theorem uniqueField_other (h : "unique" ≠ name) (path : String) :
    uniqueField ⟨Fields.set data name given, path⟩ =
      uniqueField ⟨Fields.remove data name, path⟩ := by
  rw [uniqueField, uniqueField, WireDecoder.optionalMapping_other data path h]

theorem stateField_other (h : "state" ≠ name) (path : String) :
    stateField ⟨Fields.set data name given, path⟩ = stateField ⟨Fields.remove data name, path⟩ := by
  rw [stateField, stateField, WireDecoder.string_other data path h]

theorem errorsField_other (h : "errors" ≠ name) (path : String) :
    errorsField ⟨Fields.set data name given, path⟩ =
      errorsField ⟨Fields.remove data name, path⟩ := by
  rw [errorsField, errorsField, WireDecoder.array_other data path h]

end Others

theorem stateField_null (path : String) :
    stateField ⟨Fields.set data "state" .null, path⟩ =
      stateField ⟨Fields.remove data "state", path⟩ := by
  rw [stateField, stateField, WireDecoder.string_null, WireDecoder.string_removed]
  rfl

theorem set_integer (f : IntegerField) (n : ℤ) :
    fromDict reader (.object (Fields.set data f.name (.int n))) =
      f.write n <$> fromDict reader (.object (Fields.remove data f.name)) := by
  rw [fromDict_eq, fromDict_eq]
  cases f
  all_goals
    simp (disch := decide) only [IntegerField.name, WireDecoder.integer_given,
      WireDecoder.integer_removed,
      WireDecoder.value_other, WireDecoder.requiredString_other, WireDecoder.string_other,
      WireDecoder.integer_other, WireDecoder.array_other, WireDecoder.stringArray_other,
      WireDecoder.mapping_other, WireDecoder.optionalMapping_other, WireDecoder.datetime_other,
      uniqueField_other, stateField_other, errorsField_other, ok_bind, map_bind]
    rfl

theorem set_null (f : OptionalField) :
    fromDict reader (.object (Fields.set data f.name .null)) =
      f.ofNull <$> fromDict reader (.object (Fields.remove data f.name)) := by
  rw [fromDict_eq, fromDict_eq]
  rcases f with _ | _ | (_ | _ | _ | _)
  all_goals
    simp (disch := decide) only [OptionalField.name, IntegerField.name, WireDecoder.integer_null,
      WireDecoder.integer_removed, WireDecoder.string_null, WireDecoder.string_removed,
      WireDecoder.value_other, WireDecoder.requiredString_other, WireDecoder.string_other,
      WireDecoder.integer_other, WireDecoder.array_other, WireDecoder.stringArray_other,
      WireDecoder.mapping_other, WireDecoder.optionalMapping_other, WireDecoder.datetime_other,
      uniqueField_other, stateField_other, stateField_null, errorsField_other, ok_bind, map_bind]
    rfl

/-- The decoder's default for a missing number of attempts. -/
theorem remove_maxAttempts :
    fromDict reader (.object (Fields.remove data "max_attempts")) =
      IntegerField.maxAttempts.write 3 <$>
        fromDict reader (.object (Fields.remove data "max_attempts")) := by
  rw [fromDict_eq]
  simp only [WireDecoder.integer_removed, ok_bind, map_bind]
  rfl

theorem maxAttempts_of_removed {job : Job}
    (h : fromDict reader (.object (Fields.remove data "max_attempts")) = .ok job) :
    job.maxAttempts = 3 := by
  have hwritten := remove_maxAttempts reader data
  rw [h] at hwritten
  rw [Except.ok.inj hwritten]
  rfl

/-- Null in an optional field means that the field is absent, except for the number of attempts,
and an integer there is what the job holds. -/
theorem null_means_absent_iff (f : OptionalField) {job : Job}
    (h : fromDict reader (.object (Fields.remove data f.name)) = .ok job) :
    (fromDict reader (.object (Fields.set data f.name .null)) = .ok job ↔
        f ≠ .integer .maxAttempts) ∧
      ∀ field, f = .integer field → ∀ n, ∃ given,
        fromDict reader (.object (Fields.set data f.name (.int n))) = .ok given ∧
        field.read given = some n := by
  refine ⟨?_, fun field hf n => ⟨field.write n job, ?_, field.read_write n job⟩⟩
  · rw [set_null, h]
    by_cases hf : f = .integer .maxAttempts
    · subst hf
      have hthree := maxAttempts_of_removed reader data h
      refine iff_of_false (fun hnull => ?_) (not_not.mpr rfl)
      have hzero : 0 = job.maxAttempts := congrArg Job.maxAttempts (Except.ok.inj hnull)
      exact absurd (hzero.trans hthree) (by decide)
    · refine iff_of_true ?_ hf
      rcases f with _ | _ | (_ | _ | _ | _)
      case integer.maxAttempts => exact absurd rfl hf
      all_goals rfl
  · subst hf
    exact (set_integer reader data field n).trans (congrArg _ h)

def nullAttempts : Fields :=
  [("id", .str "j-1"), ("type", .str "email.send"), ("max_attempts", .null)]

theorem nullAttempts_attempt :
    (fromDict refusingReader (.object (Fields.set nullAttempts "attempt" .null)) =
        .ok { id := "j-1", type := "email.send", state := .available, maxAttempts := 0 } ↔
      OptionalField.integer .attempt ≠ .integer .maxAttempts) ∧
      ∀ field, OptionalField.integer .attempt = .integer field → ∀ n, ∃ given,
        fromDict refusingReader (.object (Fields.set nullAttempts "attempt" (.int n))) =
          .ok given ∧ field.read given = some n :=
  null_means_absent_iff refusingReader nullAttempts (.integer .attempt) rfl

theorem null_attempts_not_absent :
    ∃ job, fromDict refusingReader (.object (Fields.remove nullAttempts "max_attempts")) = .ok job ∧
      fromDict refusingReader (.object (Fields.set nullAttempts "max_attempts" .null)) ≠ .ok job :=
  ⟨{ id := "j-1", type := "email.send", state := .available, maxAttempts := 3 }, rfl,
    by decide +kernel⟩

end Job

end OpenJobSpec
