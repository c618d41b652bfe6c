import Mathlib.Algebra.Order.Group.Nat
import Mathlib.Data.List.Basic
import Mathlib.Data.List.TakeWhile

/-! # Paths of URLs

A path is a list of segments, each behind a slash. Removing dot segments and
cutting a query off never makes a path longer, so a text that is as long as the
path that it resolves to is that path.
-/
namespace OpenJobSpec.UrlPath

abbrev Segment := List Char

def oneDot : Segment := ['.']
def twoDots : Segment := ['.', '.']

/-- Neither `.` nor `..`. -/
def Regular (s : Segment) : Prop := s ≠ oneDot ∧ s ≠ twoDots

instance (s : Segment) : Decidable (Regular s) := inferInstanceAs (Decidable (_ ∧ _))

/-- The segments that are left, behind those of the output so far, which come last first; a dot
segment at the end leaves an empty one. -/
def removeDots (out : List Segment) : List Segment → List Segment
  | [] => out.reverse
  | [s] =>
    if s = oneDot then ([] :: out).reverse
    else if s = twoDots then ([] :: out.tail).reverse
    else (s :: out).reverse
  | s :: next :: rest =>
    if s = oneDot then removeDots out (next :: rest)
    else if s = twoDots then removeDots out.tail (next :: rest)
    else removeDots (s :: out) (next :: rest)

/-- The path of a URL: what comes before its query and its fragment. -/
def component (url : List Char) : List Char := url.takeWhile fun c => !(c == '?' || c == '#')

/-- The segments of an absolute path, without dot segments. -/
def resolve : List Char → Option (List Segment)
  | '/' :: rest => some (removeDots [] ((component rest).splitOn '/'))
  | _ => none

def joined (segments : List Segment) : List Char := segments.flatMap fun s => '/' :: s

/-! ## Lengths -/

def weight : List Segment → ℕ
  | [] => 0
  | s :: rest => s.length + 1 + weight rest

@[simp] theorem weight_nil : weight [] = 0 := rfl

@[simp] theorem weight_cons (s : Segment) (rest : List Segment) :
    weight (s :: rest) = s.length + 1 + weight rest := rfl

theorem weight_append (before after : List Segment) :
    weight (before ++ after) = weight before + weight after := by
  induction before with
  | nil => simp
  | cons s before ih =>
    rw [List.cons_append, weight_cons, ih, weight_cons]
    omega

theorem weight_reverse (segments : List Segment) : weight segments.reverse = weight segments := by
  induction segments with
  | nil => rfl
  | cons s rest ih =>
    rw [List.reverse_cons, weight_append, ih, weight_cons, weight_cons, weight_nil]
    omega

theorem length_joined (segments : List Segment) : (joined segments).length = weight segments := by
  induction segments with
  | nil => rfl
  | cons s rest ih =>
    rw [joined, List.flatMap_cons, List.length_append, ← joined, ih, weight_cons, List.length_cons]

theorem weight_tail_le (segments : List Segment) : weight segments.tail ≤ weight segments := by
  cases segments with
  | nil => exact le_rfl
  | cons s rest => simp

theorem removeDots_of_regular {segments : List Segment} (h : ∀ s ∈ segments, Regular s)
    (out : List Segment) : removeDots out segments = out.reverse ++ segments := by
  fun_induction removeDots out segments with
  | case1 out => rw [List.append_nil]
  | case2 out => exact absurd rfl (h _ List.mem_cons_self).1
  | case3 out => exact absurd rfl (h _ List.mem_cons_self).2
  | case4 out s => rw [List.reverse_cons]
  | case5 out s next rest => exact absurd rfl (h _ List.mem_cons_self).1
  | case6 out s next rest => exact absurd rfl (h _ List.mem_cons_self).2
  | case7 out s next rest _ _ ih =>
    rw [ih fun s hs => h s (List.mem_cons_of_mem _ hs), List.reverse_cons, List.append_assoc]
    rfl

/-- Dot segments are removed, so a path without any stays as long as it was and no other does. -/
theorem weight_removeDots (out segments : List Segment) :
    weight (removeDots out segments) ≤ weight out + weight segments ∧
      (weight out + weight segments ≤ weight (removeDots out segments) →
        ∀ s ∈ segments, Regular s) := by
  have htail := weight_tail_le
  fun_induction removeDots out segments with
  | case1 out => exact ⟨(weight_reverse out).le, fun _ => List.forall_mem_nil _⟩
  | case2 out =>
    simp only [weight_reverse, weight_cons, weight_nil, List.length_nil, oneDot, List.length_cons]
    exact ⟨by omega, by omega⟩
  | case3 out =>
    have hout := htail out
    simp only [weight_reverse, weight_cons, weight_nil, List.length_nil, twoDots, List.length_cons]
    exact ⟨by omega, by omega⟩
  | case4 out s hone htwo =>
    simp only [weight_reverse, weight_cons, weight_nil]
    exact ⟨by omega, fun _ => List.forall_mem_singleton.mpr ⟨hone, htwo⟩⟩
  | case5 out next rest ih =>
    rw [weight_cons oneDot]
    exact ⟨by omega, by omega⟩
  | case6 out next rest _ ih =>
    have hout := htail out
    rw [weight_cons twoDots]
    exact ⟨by omega, by omega⟩
  | case7 out s next rest hone htwo ih =>
    rw [weight_cons s] at ih
    rw [weight_cons s]
    refine ⟨by omega, fun hle => ?_⟩
    exact List.forall_mem_cons.mpr ⟨⟨hone, htwo⟩, ih.2 (by omega)⟩

/-! ## Resolving -/

theorem joined_append (before after : List Segment) :
    joined (before ++ after) = joined before ++ joined after := List.flatMap_append

theorem joined_eq_intercalate {segments : List Segment} (hne : segments ≠ []) :
    joined segments = '/' :: ['/'].intercalate segments := by
  induction segments with
  | nil => exact absurd rfl hne
  | cons s rest ih =>
    cases rest with
    | nil => simp [joined]
    | cons next rest =>
      rw [joined, List.flatMap_cons, ← joined, ih (List.cons_ne_nil next rest)]
      simp

theorem joined_splitOn (text : List Char) : joined (text.splitOn '/') = '/' :: text := by
  rw [joined_eq_intercalate (List.splitOn_ne_nil _ _), List.intercalate_splitOn]

theorem mem_joined {segments : List Segment} {c : Char} (h : c ∈ joined segments) :
    c = '/' ∨ ∃ s ∈ segments, c ∈ s := by
  obtain ⟨s, hs, hc⟩ := List.mem_flatMap.mp h
  rcases List.mem_cons.mp hc with rfl | hc
  · exact .inl rfl
  · exact .inr ⟨s, hs, hc⟩

/-- No slash, and nothing that ends a path. -/
def Clean (s : Segment) : Prop := ∀ c ∈ s, c ≠ '/' ∧ c ≠ '?' ∧ c ≠ '#'

theorem resolve_joined {segments : List Segment} (hne : segments ≠ [])
    (hclean : ∀ s ∈ segments, Clean s) (hregular : ∀ s ∈ segments, Regular s) :
    resolve (joined segments) = some segments := by
  have htext := joined_eq_intercalate hne
  have hcomponent : component (['/'].intercalate segments) = ['/'].intercalate segments := by
    refine List.takeWhile_eq_self_iff.mpr fun c hc => ?_
    have hmem : c ∈ joined segments := by
      rw [htext]
      exact List.mem_cons_of_mem _ hc
    rcases mem_joined hmem with rfl | ⟨s, hs, hcs⟩
    · rfl
    · obtain ⟨-, hquery, hfragment⟩ := hclean s hs c hcs
      simp [hquery, hfragment]
  have hsplit := List.splitOn_intercalate '/' (fun s hs hc => (hclean s hs '/' hc).1 rfl) hne
  rw [htext, resolve, hcomponent, hsplit, removeDots_of_regular hregular]
  rfl

/-- A text that is no longer than the path that it resolves to. -/
theorem eq_joined_of_resolve {text : List Char} {segments : List Segment}
    (h : resolve text = some segments) (hle : text.length ≤ weight segments) :
    text = joined segments ∧ ∀ s ∈ segments, Regular s := by
  unfold resolve at h
  split at h
  next rest =>
    cases h
    have hcut : (component rest).length ≤ rest.length := (List.takeWhile_prefix _).length_le
    have hjoined := length_joined ((component rest).splitOn '/')
    rw [joined_splitOn, List.length_cons] at hjoined
    obtain ⟨hshort, hkept⟩ := weight_removeDots [] ((component rest).splitOn '/')
    rw [weight_nil, zero_add] at hshort hkept
    rw [List.length_cons] at hle
    have hregular := hkept (by omega)
    have hlength : (component rest).length = rest.length := by omega
    have hsame : component rest = rest := (List.takeWhile_prefix _).eq_of_length hlength
    rw [removeDots_of_regular hregular, List.reverse_nil, List.nil_append, joined_splitOn, hsame]
    rw [hsame] at hregular
    exact ⟨rfl, hregular⟩
  next => cases h

/-- Where a segment is resolved to one that is no shorter, it is that segment. -/
theorem eq_of_resolve_segment {before after : List Segment} {s t : Segment}
    (h : resolve (joined (before ++ s :: after)) = some (before ++ t :: after))
    (hle : s.length ≤ t.length) : s = t ∧ Regular s := by
  have hweight : (joined (before ++ s :: after)).length ≤ weight (before ++ t :: after) := by
    rw [length_joined, weight_append, weight_append, weight_cons, weight_cons]
    omega
  obtain ⟨hsame, hregular⟩ := eq_joined_of_resolve h hweight
  have hst : s = t := by
    rw [joined_append, joined_append] at hsame
    have htails := List.append_cancel_left hsame
    rw [joined, joined, List.flatMap_cons, List.flatMap_cons] at htails
    exact (List.cons.inj (List.append_cancel_right htails)).2
  refine ⟨hst, ?_⟩
  rw [hst]
  exact hregular t (List.mem_append_right _ List.mem_cons_self)

/-! ## Percent-encoding -/

/-- Letters, digits, and the other characters that stand for themselves in a segment. -/
def isPlain (c : Char) : Bool := c.isAlphanum || "-._~!$&'()*+,;=:@".toList.contains c

def hexValue (c : Char) : Option ℕ :=
  if c.isDigit then some (c.toNat - 48)
  else if 'A' ≤ c ∧ c ≤ 'F' then some (c.toNat - 55)
  else if 'a' ≤ c ∧ c ≤ 'f' then some (c.toNat - 87)
  else none

/-- The bytes of a segment that is percent-encoded. -/
def decode : Segment → Option (List UInt8)
  | [] => some []
  | '%' :: high :: low :: rest => do
    let high ← hexValue high
    let low ← hexValue low
    let bytes ← decode rest
    return UInt8.ofNat (high * 16 + low) :: bytes
  | c :: rest =>
    if isPlain c then do
      let bytes ← decode rest
      return UInt8.ofNat c.toNat :: bytes
    else none

def upperHexDigit (n : ℕ) : Char := if n < 10 then Char.ofNat (48 + n) else Char.ofNat (55 + n)

/-- A byte as its character where that is safe, and as an escape elsewhere. -/
def encodeByte (safe : Char → Bool) (byte : UInt8) : List Char :=
  let c := Char.ofNat byte.toNat
  if safe c then [c] else ['%', upperHexDigit (byte.toNat / 16), upperHexDigit (byte.toNat % 16)]

def encode (safe : Char → Bool) (bytes : List UInt8) : Segment := bytes.flatMap (encodeByte safe)

theorem not_isPlain_percent : isPlain '%' = false := by decide

theorem decode_cons {c : Char} (hc : isPlain c = true) (rest : List Char) :
    decode (c :: rest) = (decode rest).map (UInt8.ofNat c.toNat :: ·) := by
  have hpercent : c ≠ '%' := by
    rintro rfl
    cases not_isPlain_percent.symm.trans hc
  rw [decode.eq_3 c rest fun high low more h => absurd h hpercent, if_pos hc]
  cases decode rest <;> rfl

/-- No byte takes less than one character, and an escaped one takes more. -/
theorem decode_length {s : Segment} {bytes : List UInt8} (h : decode s = some bytes) :
    bytes.length ≤ s.length ∧ (s.length ≤ bytes.length → s.all isPlain = true) := by
  fun_induction decode s generalizing bytes with
  | case1 =>
    cases h
    exact ⟨le_rfl, fun _ => rfl⟩
  | case2 high low rest ih =>
    simp only [Option.bind_eq_bind, Option.bind_eq_some_iff, Option.pure_def, Option.some.injEq]
      at h
    obtain ⟨_, -, _, -, bytes, hrest, rfl⟩ := h
    obtain ⟨hle, -⟩ := ih hrest
    simp only [List.length_cons]
    exact ⟨by omega, by omega⟩
  | case3 c rest _ hplain ih =>
    simp only [Option.bind_eq_bind, Option.bind_eq_some_iff, Option.pure_def, Option.some.injEq]
      at h
    obtain ⟨bytes, hrest, rfl⟩ := h
    obtain ⟨hle, hall⟩ := ih hrest
    simp only [List.length_cons, List.all_cons, hplain, Bool.true_and]
    exact ⟨by omega, fun h => hall (by omega)⟩
  | case4 => cases h

theorem decode_plain {s : Segment} (h : s.all isPlain = true) :
    decode s = some (s.map fun c => UInt8.ofNat c.toNat) := by
  induction s with
  | nil => rfl
  | cons c rest ih =>
    rw [List.all_cons, Bool.and_eq_true] at h
    rw [decode_cons h.1, ih h.2]
    rfl

section Encode
variable {safe : Char → Bool}

theorem upperHexDigit_value : ∀ n < 16, hexValue (upperHexDigit n) = some n := by decide

theorem upperHexDigit_clean :
    ∀ n < 16, upperHexDigit n ≠ '/' ∧ upperHexDigit n ≠ '?' ∧ upperHexDigit n ≠ '#' := by
  decide

theorem toNat_ofNat (byte : UInt8) : (Char.ofNat byte.toNat).toNat = byte.toNat := by
  have hvalid : byte.toNat.isValidChar := .inl (byte.toNat_lt.trans (by decide))
  rw [Char.ofNat, dif_pos hvalid]
  rfl

theorem decode_encode (hsafe : ∀ c, safe c = true → isPlain c = true) (bytes : List UInt8) :
    decode (encode safe bytes) = some bytes := by
  induction bytes with
  | nil => rfl
  | cons byte bytes ih =>
    have hlt : byte.toNat < 256 := byte.toNat_lt
    rw [encode, List.flatMap_cons, ← encode, encodeByte]
    split
    next hc =>
      rw [List.singleton_append, decode_cons (hsafe _ hc), ih, toNat_ofNat]
      simp
    next =>
      rw [List.cons_append, List.cons_append, List.cons_append, List.nil_append, decode,
        upperHexDigit_value _ (by omega), upperHexDigit_value _ (by omega), ih]
      have hparts : byte.toNat / 16 * 16 + byte.toNat % 16 = byte.toNat := by omega
      change some (UInt8.ofNat (byte.toNat / 16 * 16 + byte.toNat % 16) :: bytes) = _
      rw [hparts, UInt8.ofNat_toNat]

theorem isPlain_clean {c : Char} (h : isPlain c = true) : c ≠ '/' ∧ c ≠ '?' ∧ c ≠ '#' := by
  refine ⟨?_, ?_, ?_⟩
  all_goals
    rintro rfl
    exact absurd h (by decide)

theorem clean_of_plain {s : Segment} (h : s.all isPlain = true) : Clean s := fun c hc =>
  isPlain_clean (List.all_eq_true.mp h c hc)

theorem clean_encode (hsafe : ∀ c, safe c = true → isPlain c = true) (bytes : List UInt8) :
    Clean (encode safe bytes) := by
  intro c hc
  obtain ⟨byte, -, hc⟩ := List.mem_flatMap.mp hc
  have hlt : byte.toNat < 256 := byte.toNat_lt
  rw [encodeByte] at hc
  split at hc
  next hsafe' =>
    rw [List.mem_singleton.mp hc]
    exact isPlain_clean (hsafe _ hsafe')
  next =>
    rw [List.mem_cons, List.mem_cons, List.mem_singleton] at hc
    rcases hc with rfl | rfl | rfl
    · decide
    · exact upperHexDigit_clean _ (by omega)
    · exact upperHexDigit_clean _ (by omega)

end Encode

end OpenJobSpec.UrlPath
