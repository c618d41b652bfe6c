import OpenJobSpec.Wire.JobRequest
import Mathlib.Computability.RegularExpressions

/-! # Validation of an enqueue request

A full match of a pattern is membership in its language, which the derivatives
of the regular expression decide.
-/
namespace OpenJobSpec.Client
open RegularExpression

def charClass (characters : List Char) : RegularExpression Char :=
  characters.foldr (fun c r => char c + r) 0

def lowerLetters : List Char := "abcdefghijklmnopqrstuvwxyz".toList

def digits : List Char := "0123456789".toList

def typeSegment : RegularExpression Char :=
  charClass lowerLetters * star (charClass (lowerLetters ++ digits ++ ['_']))

/-- `^[a-z][a-z0-9_]*(\.[a-z][a-z0-9_]*)*$` -/
def typePattern : RegularExpression Char := typeSegment * star (char '.' * typeSegment)

def queueCharacter : RegularExpression Char := charClass (lowerLetters ++ digits)

/-- `^[a-z0-9]([a-z0-9]*[-.]?[a-z0-9]+)*$` -/
def queuePattern : RegularExpression Char :=
  queueCharacter *
    star (star queueCharacter * (1 + charClass ['-', '.']) * (queueCharacter * star queueCharacter))

def fullmatch (pattern : RegularExpression Char) (text : String) : Bool :=
  pattern.rmatch text.toList

def maxTypeLength : ℕ := 255

def maxQueueLength : ℕ := 128

def validateRequest (request : JobRequest) : Except Exn Unit :=
  let jobType := request.type
  let queue := request.queue
  if jobType = "" ∨ Text.strip jobType = "" then .error (.validation "job_type must not be empty")
  else if jobType.length > maxTypeLength then
    .error (.validation ("job_type must not exceed " ++ toString maxTypeLength
      ++ " characters, got " ++ toString jobType.length))
  else if fullmatch typePattern jobType = false then
    .error (.validation ("invalid job_type " ++ Text.repr jobType
      ++ ": must match pattern ^[a-z][a-z0-9_]*(\\.[a-z][a-z0-9_]*)*$"))
  else if queue = "" ∨ Text.strip queue = "" then .error (.validation "queue must not be empty")
  else if queue.length > maxQueueLength then
    .error (.validation ("queue must not exceed " ++ toString maxQueueLength
      ++ " characters, got " ++ toString queue.length))
  else if fullmatch queuePattern queue = false then
    .error (.validation ("invalid queue " ++ Text.repr queue
      ++ ": must match pattern ^[a-z0-9][a-z0-9\\-.]*$"))
  else .ok ()

theorem matches_of_validateRequest {request : JobRequest} (h : validateRequest request = .ok ()) :
    request.type.toList ∈ typePattern.matches' ∧ request.queue.toList ∈ queuePattern.matches' := by
  unfold validateRequest at h
  dsimp only at h
  split_ifs at h with _ _ htype _ _ hqueue
  simp only [Bool.not_eq_false] at htype hqueue
  exact ⟨(rmatch_iff_matches' _ _).mp htype, (rmatch_iff_matches' _ _).mp hqueue⟩

example : validateRequest { type := "email.send" } = .ok () := by decide +kernel

end OpenJobSpec.Client
