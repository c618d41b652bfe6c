import OpenJobSpec.Python.Base64
import Mathlib.Data.List.Basic

/-! # Texts of code points

A text may hold half of a surrogate pair on its own. Such a text can be compared
and printed, but it has no bytes.
-/
namespace OpenJobSpec

/-- A code point: a character, or one of the 2048 surrogates. -/
inductive PyChar
  | scalar (c : Char)
  | surrogate (n : Fin 2048)
deriving DecidableEq

abbrev PyText := List PyChar

namespace PyText

def ofString (text : String) : PyText := text.toList.map .scalar

instance : Coe String PyText := ⟨ofString⟩

theorem ofString_injective {s t : String} (h : ofString s = ofString t) : s = t :=
  String.toList_injective ((List.map_inj_right fun _ _ => PyChar.scalar.inj).mp h)

def isAscii : PyChar → Bool
  | .scalar c => c.toNat < 128
  | .surrogate _ => false

def isScalar : PyChar → Bool
  | .scalar _ => true
  | .surrogate _ => false

@[simp] theorem isScalar_scalar (c : Char) : isScalar (.scalar c) = true := rfl

/-- The characters of a text, surrogates left out. -/
def scalars (text : PyText) : List Char :=
  text.filterMap fun
    | .scalar c => some c
    | .surrogate _ => none

/-- `text.encode()`; of the error only the reason is kept. -/
def encode (text : PyText) : Except Exn Bytes :=
  if text.all isScalar then .ok (String.ofList text.scalars).toUTF8.data.toList
  else .error (.other "UnicodeEncodeError" "surrogates not allowed")

theorem map_scalars {text : PyText} (h : text.all isScalar = true) :
    text.scalars.map PyChar.scalar = text := by
  induction text with
  | nil => rfl
  | cons c rest ih =>
    rw [List.all_cons, Bool.and_eq_true] at h
    cases c with
    | scalar c => exact congrArg (PyChar.scalar c :: ·) (ih h.2)
    | surrogate n => cases h.1

/-- The bytes of a text determine it. -/
theorem encode_inj {s t : PyText} {bytes : Bytes} (hs : encode s = .ok bytes)
    (ht : encode t = .ok bytes) : s = t := by
  unfold encode at hs ht
  split at hs
  next hall =>
    split at ht
    next hall' =>
      have hbytes := (Except.ok.inj hs).trans (Except.ok.inj ht).symm
      have htexts := String.toByteArray_inj.mp (ByteArray.ext (Array.toList_inj.mp hbytes))
      rw [← map_scalars hall, String.ofList_injective htexts, map_scalars hall']
    next => cases ht
  next => cases hs

theorem encode_scalars (x : List Char) :
    encode (x.map .scalar) = .ok (x.flatMap String.utf8EncodeChar) := by
  have hall : (x.map PyChar.scalar).all isScalar = true := by
    rw [List.all_map]
    exact List.all_eq_true.mpr fun _ _ => rfl
  have hscalars : scalars (x.map .scalar) = x := by
    rw [scalars, List.filterMap_map]
    exact List.filterMap_some
  rw [encode, if_pos hall, hscalars, String.toUTF8_eq_toByteArray, String.toByteArray_ofList,
    List.utf8Encode, List.toList_data_toByteArray]

/-- A character takes at least one byte. -/
theorem length_le_encode (x : List Char) : x.length ≤ (x.flatMap String.utf8EncodeChar).length := by
  induction x with
  | nil => exact le_rfl
  | cons c x ih =>
    have hpos : 0 < (String.utf8EncodeChar c).length :=
      List.length_pos_iff.mpr String.utf8EncodeChar_ne_nil
    rw [List.flatMap_cons, List.length_append, List.length_cons]
    omega

theorem encode_ascii {x : List Char} (h : ∀ c ∈ x, c.toNat < 128) :
    encode (x.map .scalar) = .ok (x.map fun c => UInt8.ofNat c.toNat) := by
  rw [encode_scalars, List.map_eq_flatMap]
  refine congrArg Except.ok (List.flatMap_congr fun c hc => ?_)
  rw [String.utf8EncodeChar_eq_singleton]
  · rfl
  · rw [Char.utf8Size_eq_one_iff]
    exact UInt32.le_iff_toNat_le.mpr (Nat.le_of_lt_succ (h c hc))

theorem encode_of_scalar {text : PyText} (h : text.all isScalar = true) :
    ∃ bytes, encode text = .ok bytes := ⟨_, if_pos h⟩

theorem all_isScalar_ofString (text : String) : (ofString text).all isScalar = true := by
  unfold ofString
  rw [List.all_map]
  exact List.all_eq_true.mpr fun _ _ => rfl

theorem isScalar_of_isAscii {c : PyChar} (h : isAscii c = true) : isScalar c = true := by
  cases c with
  | scalar c => rfl
  | surrogate n => cases h

end PyText

end OpenJobSpec
