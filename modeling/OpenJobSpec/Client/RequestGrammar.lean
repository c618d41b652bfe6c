import OpenJobSpec.Foundation.WordLanguages
import OpenJobSpec.Client.RequestValidation
import Mathlib.Data.List.TakeWhile

/-! # The grammar of job types and queue names

What the two patterns and the checks around them accept, said without a
pattern. The queue pattern splits a name in many ways; the names themselves are
those whose separators stand one at a time between other characters.
-/
namespace OpenJobSpec.Client
open Computability RegularExpression WordLanguages

/-- A lower-case letter, then lower-case letters, digits and underscores. -/
def TypeSegment (segment : List Char) : Prop :=
  ∃ c rest, segment = c :: rest ∧ c.isLower ∧ ∀ d ∈ rest, d.isLower ∨ d.isDigit ∨ d = '_'

structure TypeGrammar (type : String) : Prop where
  length : type.length ≤ 255
  segments : ∃ segments, segments ≠ [] ∧ (∀ segment ∈ segments, TypeSegment segment) ∧
    type.toList = ['.'].intercalate segments

def LetterOrDigit (c : Char) : Prop := c.isLower ∨ c.isDigit

def QueueSeparator (c : Char) : Prop := c = '-' ∨ c = '.'

structure QueueGrammar (queue : String) : Prop where
  nonempty : 1 ≤ queue.length
  length : queue.length ≤ 128
  characters : ∀ c ∈ queue.toList, LetterOrDigit c ∨ QueueSeparator c
  first : ∀ c ∈ queue.toList.head?, LetterOrDigit c
  last : ∀ c ∈ queue.toList.getLast?, LetterOrDigit c
  apart : queue.toList.IsChain fun c d => ¬ (QueueSeparator c ∧ QueueSeparator d)

/-! ## Character classes -/

theorem matches_charClass (characters : List Char) :
    (charClass characters).matches' = oneOf (· ∈ characters) := by
  ext x
  induction characters with
  | nil =>
    constructor
    · exact fun h => absurd h (Language.notMem_zero x)
    · rintro ⟨a, ha, -⟩
      cases ha
  | cons c characters ih =>
    rw [charClass, List.foldr_cons, matches'_add, Language.mem_add, ← charClass, ih, matches'_char]
    constructor
    · rintro (rfl | ⟨a, ha, rfl⟩)
      · exact ⟨c, List.mem_cons_self, rfl⟩
      · exact ⟨a, List.mem_cons_of_mem c ha, rfl⟩
    · rintro ⟨a, ha, rfl⟩
      rcases List.mem_cons.mp ha with rfl | ha
      · exact .inl rfl
      · exact .inr ⟨a, ha, rfl⟩

/-- A range of character codes that a list has all of. -/
theorem mem_of_range {characters : List Char} {first count : ℕ}
    (hall : ∀ n < count, Char.ofNat (first + n) ∈ characters) {c : Char} (hlow : first ≤ c.toNat)
    (hhigh : c.toNat < first + count) : c ∈ characters := by
  have hmem := hall (c.toNat - first) (by omega)
  rwa [Nat.add_sub_cancel' hlow, Char.ofNat_toNat] at hmem

theorem mem_lowerLetters {c : Char} : c ∈ lowerLetters ↔ c.isLower = true := by
  constructor
  · have hall : lowerLetters.all Char.isLower = true := by decide +kernel
    exact List.all_eq_true.mp hall c
  · intro h
    have hrange : 97 ≤ c.toNat ∧ c.toNat ≤ 122 := by
      have hletter : (c.val ≥ 'a'.val && c.val ≤ 'z'.val) = true := h
      simpa [UInt32.le_iff_toNat_le] using hletter
    have hall : ∀ n < 26, Char.ofNat (97 + n) ∈ lowerLetters := by decide +kernel
    exact mem_of_range hall hrange.1 (by omega)

theorem mem_digits {c : Char} : c ∈ digits ↔ c.isDigit = true := by
  constructor
  · have hall : digits.all Char.isDigit = true := by decide +kernel
    exact List.all_eq_true.mp hall c
  · intro h
    have hrange : 48 ≤ c.toNat ∧ c.toNat ≤ 57 := by
      simpa [Char.isDigit, UInt32.le_iff_toNat_le] using h
    have hall : ∀ n < 10, Char.ofNat (48 + n) ∈ digits := by decide +kernel
    exact mem_of_range hall hrange.1 (by omega)

theorem letterOrDigit_not_separator {c : Char} (h : LetterOrDigit c) : ¬ QueueSeparator c := by
  have hhyphen : ¬ LetterOrDigit '-' := by
    rintro (h | h)
    · cases h
    · cases h
  have hdot : ¬ LetterOrDigit '.' := by
    rintro (h | h)
    · cases h
    · cases h
  rintro (rfl | rfl)
  · exact hhyphen h
  · exact hdot h

theorem matches_queueCharacter : queueCharacter.matches' = oneOf LetterOrDigit := by
  rw [queueCharacter, matches_charClass]
  congr 1
  funext c
  rw [List.mem_append, mem_lowerLetters, mem_digits, LetterOrDigit]

/-! ## The two patterns -/

theorem mem_typeSegment {x : List Char} : x ∈ typeSegment.matches' ↔ TypeSegment x := by
  rw [typeSegment, matches'_mul, matches'_star, matches_charClass, matches_charClass,
    cons_mem_oneOf_mul]
  simp only [mem_kstar_oneOf, List.mem_append, mem_lowerLetters, mem_digits, List.mem_singleton,
    or_assoc, TypeSegment]

theorem mem_typePattern {x : List Char} :
    x ∈ typePattern.matches' ↔ ∃ segments, segments ≠ [] ∧
      (∀ segment ∈ segments, TypeSegment segment) ∧ x = ['.'].intercalate segments := by
  have hdot : (char '.' : RegularExpression Char).matches' = oneOf (· = '.') := by
    rw [matches'_char]
    ext x
    constructor
    · rintro rfl
      exact ⟨'.', rfl, rfl⟩
    · rintro ⟨_, rfl, rfl⟩
      rfl
  rw [typePattern, matches'_mul, matches'_star, matches'_mul, hdot, mem_separated]
  simp only [mem_typeSegment]

theorem mem_queuePattern {x : List Char} :
    x ∈ queuePattern.matches' ↔ x ≠ [] ∧ Interspersed LetterOrDigit QueueSeparator x := by
  have hseparator : (charClass ['-', '.']).matches' = oneOf QueueSeparator := by
    rw [matches_charClass]
    congr 1
    funext c
    simp [QueueSeparator]
  have hpattern : queuePattern.matches' =
      oneOf LetterOrDigit * (group LetterOrDigit QueueSeparator)∗ := by
    simp only [queuePattern, matches'_mul, matches'_star, matches'_add, matches'_epsilon,
      matches_queueCharacter, hseparator, group]
  rw [hpattern]
  exact mem_letter_groups fun c => letterOrDigit_not_separator

/-! ## The checks around them -/

theorem isSpace_of_letterOrDigit {c : Char} (h : LetterOrDigit c) : Text.isSpace c = false := by
  have hall : (lowerLetters ++ digits).all (fun c => !Text.isSpace c) = true := by decide +kernel
  have hmem : c ∈ lowerLetters ++ digits := by
    rw [List.mem_append, mem_lowerLetters, mem_digits]
    exact h
  simpa using List.all_eq_true.mp hall c hmem

/-- A text that begins with a letter or a digit is not blank. -/
theorem strip_ne_empty {text : String} {c : Char} {rest : List Char}
    (htext : text.toList = c :: rest) (h : LetterOrDigit c) : Text.strip text ≠ "" := by
  intro hempty
  have hspace := isSpace_of_letterOrDigit h
  have hstripped : ((c :: rest).reverse.dropWhile Text.isSpace).reverse = [] := by
    have htrimmed := congrArg String.toList hempty
    rwa [Text.strip, String.toList_ofList, htext, List.dropWhile_cons_of_neg (by simp [hspace])]
      at htrimmed
  have hblank := List.dropWhile_eq_nil_iff.mp (List.reverse_eq_nil_iff.mp hstripped)
  have hc := hblank c (by simp)
  rw [hspace] at hc
  cases hc

theorem typeGrammar_not_blank {type : String} (h : TypeGrammar type) :
    ¬ (type = "" ∨ Text.strip type = "") := by
  obtain ⟨segments, hne, hsegments, htype⟩ := h.segments
  cases segments with
  | nil => exact absurd rfl hne
  | cons first segments =>
    obtain ⟨c, rest, rfl, hc, -⟩ := hsegments first List.mem_cons_self
    have hfirst : ∃ tail, type.toList = c :: tail := by
      cases segments with
      | nil => exact ⟨rest, by rw [htype, List.intercalate_singleton]⟩
      | cons second segments => exact ⟨_, by rw [htype, List.intercalate_cons_cons]; rfl⟩
    obtain ⟨tail, htail⟩ := hfirst
    rintro (rfl | hblank)
    · cases htail
    · exact strip_ne_empty htail (.inl hc) hblank

theorem queueGrammar_not_blank {queue : String} (h : QueueGrammar queue) :
    ¬ (queue = "" ∨ Text.strip queue = "") := by
  cases hqueue : queue.toList with
  | nil =>
    have hlength := h.nonempty
    rw [← String.length_toList, hqueue] at hlength
    cases hlength
  | cons c rest =>
    have hc : LetterOrDigit c := h.first c (by rw [hqueue]; rfl)
    rintro (rfl | hblank)
    · cases hqueue
    · exact strip_ne_empty hqueue hc hblank

theorem fullmatch_typePattern {type : String} (h : TypeGrammar type) :
    fullmatch typePattern type = true :=
  (rmatch_iff_matches' _ _).mpr (mem_typePattern.mpr h.segments)

theorem fullmatch_queuePattern {queue : String} (h : QueueGrammar queue) :
    fullmatch queuePattern queue = true := by
  apply (rmatch_iff_matches' _ _).mpr
  apply mem_queuePattern.mpr
  refine ⟨fun hnil => ?_, h.characters, h.first, h.last, h.apart⟩
  have hlength := h.nonempty
  rw [← String.length_toList, hnil] at hlength
  cases hlength

/-- A request is accepted exactly when its type and its queue are in the grammar. -/
theorem validateRequest_iff (request : JobRequest) :
    validateRequest request = .ok () ↔ TypeGrammar request.type ∧ QueueGrammar request.queue := by
  constructor
  · intro h
    obtain ⟨htype, hqueue⟩ := matches_of_validateRequest h
    have hlengths : request.type.length ≤ 255 ∧ request.queue.length ≤ 128 := by
      unfold validateRequest at h
      dsimp only at h
      split_ifs at h with _ htype _ _ hqueue
      exact ⟨not_lt.mp htype, not_lt.mp hqueue⟩
    obtain ⟨hne, hletters, hfirst, hlast, hapart⟩ := mem_queuePattern.mp hqueue
    have hnonempty : 1 ≤ request.queue.length := by
      rw [← String.length_toList]
      exact List.length_pos_iff.mpr hne
    exact ⟨⟨hlengths.1, mem_typePattern.mp htype⟩,
      ⟨hnonempty, hlengths.2, hletters, hfirst, hlast, hapart⟩⟩
  · rintro ⟨htype, hqueue⟩
    have hmatch := fullmatch_typePattern htype
    have hqmatch := fullmatch_queuePattern hqueue
    have hlength : ¬ request.type.length > maxTypeLength := not_lt.mpr htype.length
    have hqlength : ¬ request.queue.length > maxQueueLength := not_lt.mpr hqueue.length
    unfold validateRequest
    dsimp only
    rw [if_neg (typeGrammar_not_blank htype), if_neg hlength,
      if_neg (by simp [hmatch]), if_neg (queueGrammar_not_blank hqueue),
      if_neg hqlength, if_neg (by simp [hqmatch])]

end OpenJobSpec.Client
