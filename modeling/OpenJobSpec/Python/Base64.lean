import OpenJobSpec.Errors.Hierarchy
import OpenJobSpec.Python.Access

/-! # Base64 as the standard library does it

Decoding is lenient: characters outside the alphabet are skipped, and a pad is
looked at only where a group of four can end. Each digit carries six bits; the
decoder keeps the bits that have not made a byte yet.
-/
namespace OpenJobSpec

abbrev Bytes := List UInt8

namespace Base64

def digitChar (d : ℕ) : Char :=
  Char.ofNat (if d < 26 then 65 + d else if d < 52 then 71 + d else if d < 62 then d - 4
    else if d = 62 then 43 else 47)

def digitValue (c : Char) : Option ℕ :=
  let n := c.toNat
  if 65 ≤ n ∧ n ≤ 90 then some (n - 65)
  else if 97 ≤ n ∧ n ≤ 122 then some (n - 71)
  else if 48 ≤ n ∧ n ≤ 57 then some (n + 4)
  else if n = 43 then some 62
  else if n = 47 then some 63
  else none

/-- `base64.b64encode(data)`. -/
def encodeChars : Bytes → List Char
  | [] => []
  | [a] => [digitChar (a.toNat / 4), digitChar (a.toNat % 4 * 16), '=', '=']
  | [a, b] =>
    [digitChar (a.toNat / 4), digitChar (a.toNat % 4 * 16 + b.toNat / 16),
      digitChar (b.toNat % 16 * 4), '=']
  | a :: b :: c :: rest =>
    digitChar (a.toNat / 4) :: digitChar (a.toNat % 4 * 16 + b.toNat / 16)
      :: digitChar (b.toNat % 16 * 4 + c.toNat / 64) :: digitChar (c.toNat % 64)
      :: encodeChars rest

def b64encode (data : Bytes) : String := String.ofList (encodeChars data)

structure Decoder where
  quadPos : ℕ := 0
  leftchar : ℕ := 0
  pads : ℕ := 0
  data : Bytes := []

/-- One digit: a byte is complete on every digit of a group but the first. -/
def Decoder.push (s : Decoder) (d : ℕ) : Decoder :=
  match s.quadPos with
  | 0 => ⟨1, d, 0, s.data⟩
  | 1 => ⟨2, d % 16, 0, s.data ++ [UInt8.ofNat (s.leftchar * 4 + d / 16)]⟩
  | 2 => ⟨3, d % 4, 0, s.data ++ [UInt8.ofNat (s.leftchar * 16 + d / 4)]⟩
  | _ => ⟨0, 0, 0, s.data ++ [UInt8.ofNat (s.leftchar * 64 + d)]⟩

/-- The end of the text inside a group is an error. -/
def Decoder.finish (s : Decoder) : Except Exn Bytes :=
  if s.quadPos = 0 then .ok s.data
  else if s.quadPos = 1 then
    .error (.builtin .valueError ("Invalid base64-encoded string: number of data characters ("
      ++ toString (s.data.length / 3 * 4 + 1) ++ ") cannot be 1 more than a multiple of 4"))
  else .error (.builtin .valueError "Incorrect padding")

def decodeFrom (s : Decoder) : List Char → Except Exn Bytes
  | [] => s.finish
  | c :: rest =>
    if c = '=' then
      if 2 ≤ s.quadPos then
        if 4 ≤ s.quadPos + (s.pads + 1) then .ok s.data
        else decodeFrom { s with pads := s.pads + 1 } rest
      else decodeFrom s rest
    else
      match digitValue c with
      | none => decodeFrom s rest
      | some d => decodeFrom (s.push d) rest

/-- `base64.b64decode(text)` of a string. -/
def decodeText (text : String) : Except Exn Bytes :=
  if text.toList.all (fun c => c.toNat < 128) then decodeFrom {} text.toList
  else .error (.builtin .valueError "string argument should contain only ASCII characters")

/-- `base64.b64decode(value)` of a value that a JSON text held. -/
def b64decode : Json → Except Exn Bytes
  | .str text => decodeText text
  | other =>
    .error (.builtin .typeError
      ("argument should be a bytes-like object or ASCII string, not '" ++ other.typeName ++ "'"))

theorem digitChar_ne_pad {d : ℕ} (h : d < 64) : digitChar d ≠ '=' := by
  have hall : ∀ d : Fin 64, digitChar d.val ≠ '=' := by decide
  exact hall ⟨d, h⟩

theorem digitValue_digitChar {d : ℕ} (h : d < 64) : digitValue (digitChar d) = some d := by
  have hall : ∀ d : Fin 64, digitValue (digitChar d.val) = some d.val := by decide
  exact hall ⟨d, h⟩

theorem digitChar_ascii {d : ℕ} (h : d < 64) : (digitChar d).toNat < 128 := by
  have hall : ∀ d : Fin 64, (digitChar d.val).toNat < 128 := by decide
  exact hall ⟨d, h⟩

theorem decodeFrom_digit (s : Decoder) {d : ℕ} (h : d < 64) (rest : List Char) :
    decodeFrom s (digitChar d :: rest) = decodeFrom (s.push d) rest := by
  rw [decodeFrom, if_neg (digitChar_ne_pad h), digitValue_digitChar h]

theorem ofNat_eq {n : ℕ} {b : UInt8} (h : n = b.toNat) : UInt8.ofNat n = b := by
  rw [h, UInt8.ofNat_toNat]

/-- Decoding takes the digits of some bytes back to them. -/
theorem decodeFrom_encodeChars (data done : Bytes) :
    decodeFrom ⟨0, 0, 0, done⟩ (encodeChars data) = .ok (done ++ data) := by
  induction data using encodeChars.induct generalizing done with
  | case1 => simp [encodeChars, decodeFrom, Decoder.finish]
  | case2 a =>
    have ha := a.toNat_lt
    have hbyte : UInt8.ofNat (a.toNat / 4 * 4 + a.toNat % 4 * 16 / 16) = a := ofNat_eq (by omega)
    rw [encodeChars, decodeFrom_digit _ (by omega), decodeFrom_digit _ (by omega)]
    simp only [decodeFrom, Decoder.push, hbyte]
    simp
  | case3 a b =>
    have ha := a.toNat_lt
    have hb := b.toNat_lt
    have hfirst : UInt8.ofNat (a.toNat / 4 * 4 + (a.toNat % 4 * 16 + b.toNat / 16) / 16) = a :=
      ofNat_eq (by omega)
    have hsecond : UInt8.ofNat
        ((a.toNat % 4 * 16 + b.toNat / 16) % 16 * 16 + b.toNat % 16 * 4 / 4) = b :=
      ofNat_eq (by omega)
    rw [encodeChars, decodeFrom_digit _ (by omega), decodeFrom_digit _ (by omega),
      decodeFrom_digit _ (by omega)]
    simp only [decodeFrom, Decoder.push, hfirst, hsecond]
    simp
  | case4 a b c rest ih =>
    have ha := a.toNat_lt
    have hb := b.toNat_lt
    have hc := c.toNat_lt
    have hfirst : UInt8.ofNat (a.toNat / 4 * 4 + (a.toNat % 4 * 16 + b.toNat / 16) / 16) = a :=
      ofNat_eq (by omega)
    have hsecond : UInt8.ofNat ((a.toNat % 4 * 16 + b.toNat / 16) % 16 * 16
        + (b.toNat % 16 * 4 + c.toNat / 64) / 4) = b := ofNat_eq (by omega)
    have hthird : UInt8.ofNat
        ((b.toNat % 16 * 4 + c.toNat / 64) % 4 * 64 + c.toNat % 64) = c := ofNat_eq (by omega)
    rw [encodeChars, decodeFrom_digit _ (by omega), decodeFrom_digit _ (by omega),
      decodeFrom_digit _ (by omega), decodeFrom_digit _ (by omega)]
    simp only [Decoder.push, hfirst, hsecond, hthird]
    rw [ih]
    simp

theorem encodeChars_ascii (data : Bytes) :
    (encodeChars data).all (fun c => c.toNat < 128) = true := by
  induction data using encodeChars.induct with
  | case1 => rfl
  | case2 a =>
    have ha := a.toNat_lt
    simp [encodeChars, digitChar_ascii (show a.toNat / 4 < 64 by omega),
      digitChar_ascii (show a.toNat % 4 * 16 < 64 by omega)]
  | case3 a b =>
    have ha := a.toNat_lt
    have hb := b.toNat_lt
    simp [encodeChars, digitChar_ascii (show a.toNat / 4 < 64 by omega),
      digitChar_ascii (show a.toNat % 4 * 16 + b.toNat / 16 < 64 by omega),
      digitChar_ascii (show b.toNat % 16 * 4 < 64 by omega)]
  | case4 a b c rest ih =>
    have ha := a.toNat_lt
    have hb := b.toNat_lt
    have hc := c.toNat_lt
    rw [encodeChars]
    simp [digitChar_ascii (show a.toNat / 4 < 64 by omega),
      digitChar_ascii (show a.toNat % 4 * 16 + b.toNat / 16 < 64 by omega),
      digitChar_ascii (show b.toNat % 16 * 4 + c.toNat / 64 < 64 by omega),
      digitChar_ascii (show c.toNat % 64 < 64 by omega), ih]

/-- Base64 is lossless. -/
theorem decodeText_b64encode (data : Bytes) : decodeText (b64encode data) = .ok data := by
  rw [decodeText, b64encode, String.toList_ofList, if_pos (encodeChars_ascii data)]
  exact decodeFrom_encodeChars data []

theorem length_le_encodeChars (data : Bytes) : data.length ≤ (encodeChars data).length := by
  induction data using encodeChars.induct with
  | case1 => simp [encodeChars]
  | case2 a => simp [encodeChars]
  | case3 a b => simp [encodeChars]
  | case4 a b c rest ih =>
    simp only [encodeChars, List.length_cons]
    omega

/-- An encoded text is at least as long as the data. -/
theorem length_le_b64encode (data : Bytes) : data.length ≤ (b64encode data).length := by
  rw [b64encode, String.length_ofList]
  exact length_le_encodeChars data

theorem push_length_le (s : Decoder) (d : ℕ) : (s.push d).data.length ≤ s.data.length + 1 := by
  unfold Decoder.push
  split <;> simp

theorem decodeFrom_length_le {s : Decoder} {chars : List Char} {data : Bytes}
    (h : decodeFrom s chars = .ok data) : data.length ≤ s.data.length + chars.length := by
  induction chars generalizing s with
  | nil =>
    rw [decodeFrom, Decoder.finish] at h
    split at h
    · cases h
      exact Nat.le_add_right _ _
    · split at h <;> cases h
  | cons c rest ih =>
    rw [decodeFrom] at h
    rw [List.length_cons]
    split at h
    · split at h
      · split at h
        · cases h
          exact Nat.le_add_right _ _
        · exact (ih h).trans (Nat.add_le_add_left (Nat.le_succ _) _)
      · exact (ih h).trans (Nat.add_le_add_left (Nat.le_succ _) _)
    · split at h
      · exact (ih h).trans (Nat.add_le_add_left (Nat.le_succ _) _)
      next d _ =>
        have := ih h
        have := push_length_le s d
        omega

/-- Decoded data is no longer than its text. -/
theorem decodeText_length_le {text : String} {data : Bytes} (h : decodeText text = .ok data) :
    data.length ≤ text.length := by
  unfold decodeText at h
  split at h
  · have hle := decodeFrom_length_le h
    rwa [List.length_nil, Nat.zero_add, String.length_toList] at hle
  · cases h

end Base64

end OpenJobSpec
