import OpenJobSpec.Foundation.PrefixCode
import OpenJobSpec.Python.PyText
import OpenJobSpec.Python.Text
import Mathlib.Data.List.Sort

/-! # The canonical JSON text of a dictionary

`json.dumps` with sorted keys, no blanks and code points past ASCII as they are,
for dictionaries of texts, of nothing and of dictionaries of texts. The text
determines what lies under each key.
-/
namespace OpenJobSpec.JsonText
open PrefixCode

/-! ## Texts -/

def escapeChar (c : Char) : List Char :=
  if c = '"' then ['\\', '"']
  else if c = '\\' then ['\\', '\\']
  else if c = '\n' then ['\\', 'n']
  else if c = '\r' then ['\\', 'r']
  else if c = '\t' then ['\\', 't']
  else if c = Char.ofNat 8 then ['\\', 'b']
  else if c = Char.ofNat 12 then ['\\', 'f']
  else if c.toNat < 32 then
    ['\\', 'u', '0', '0', Text.hexDigit (c.toNat / 16), Text.hexDigit (c.toNat % 16)]
  else [c]

def escape : PyChar → PyText
  | .scalar c => (escapeChar c).map .scalar
  | .surrogate n => [.surrogate n]

/-- A text in quotation marks. -/
def quote (text : PyText) : PyText := [.scalar '"'] ++ (text.flatMap escape ++ [.scalar '"'])

def hexValue (c : Char) : ℕ := if c.toNat < 58 then c.toNat - 48 else c.toNat - 87

/-- The character after a backslash that stands for another. -/
def unescape (c : Char) : Char :=
  if c = 'n' then '\n' else if c = 'r' then '\r' else if c = 't' then '\t'
  else if c = 'b' then Char.ofNat 8 else if c = 'f' then Char.ofNat 12 else c

/-- The first character inside a quoted text. -/
def readChar : List Char → Option (Char × List Char)
  | [] => none
  | '\\' :: 'u' :: _ :: _ :: h :: l :: rest =>
    some (Char.ofNat (hexValue h * 16 + hexValue l), rest)
  | '\\' :: c :: rest => some (unescape c, rest)
  | c :: rest => some (c, rest)

theorem hexValue_hexDigit : ∀ n < 16, hexValue (Text.hexDigit n) = n := by decide

theorem readChar_plain {c : Char} (h : c ≠ '\\') (rest : List Char) :
    readChar (c :: rest) = some (c, rest) := by
  unfold readChar
  split
  next heq => cases heq
  next heq => exact absurd (List.cons.inj heq).1 h
  next heq => exact absurd (List.cons.inj heq).1 h
  next heq =>
    obtain ⟨rfl, rfl⟩ := List.cons.inj heq
    rfl

theorem readChar_escapeChar (c : Char) (rest : List Char) :
    readChar (escapeChar c ++ rest) = some (c, rest) := by
  unfold escapeChar
  split_ifs with hquote hbackslash hn hr ht hb hf hcontrol
  · rw [hquote]
    rfl
  · rw [hbackslash]
    rfl
  · rw [hn]
    rfl
  · rw [hr]
    rfl
  · rw [ht]
    rfl
  · rw [hb]
    rfl
  · rw [hf]
    rfl
  · have hvalue : hexValue (Text.hexDigit (c.toNat / 16)) * 16 +
        hexValue (Text.hexDigit (c.toNat % 16)) = c.toNat := by
      rw [hexValue_hexDigit _ (by omega), hexValue_hexDigit _ (by omega)]
      omega
    change some (Char.ofNat (hexValue (Text.hexDigit (c.toNat / 16)) * 16 +
      hexValue (Text.hexDigit (c.toNat % 16))), rest) = some (c, rest)
    rw [hvalue, Char.ofNat_toNat]
  · exact readChar_plain hbackslash rest

theorem escapeChar_selfEnding : SelfEnding escapeChar := by
  intro c d x y h
  have hread := congrArg readChar h
  rw [readChar_escapeChar, readChar_escapeChar] at hread
  exact Prod.mk.inj (Option.some.inj hread)

theorem escapeChar_head (c : Char) : ∃ d rest, escapeChar c = d :: rest ∧ d ≠ '"' := by
  unfold escapeChar
  split_ifs with hquote
  case neg => exact ⟨c, [], rfl, hquote⟩
  all_goals exact ⟨_, _, rfl, by decide⟩

theorem escape_selfEnding : SelfEnding escape := by
  intro c d x y h
  cases c with
  | scalar c =>
    cases d with
    | scalar d =>
      have hscalars := escapeChar_selfEnding.map (g := PyChar.scalar) fun _ _ => PyChar.scalar.inj
      obtain ⟨hcd, hxy⟩ := hscalars c d x y h
      exact ⟨by rw [hcd], hxy⟩
    | surrogate n =>
      obtain ⟨e, rest, he, -⟩ := escapeChar_head c
      rw [escape, he] at h
      cases (List.cons.inj h).1
  | surrogate m =>
    cases d with
    | scalar d =>
      obtain ⟨e, rest, he, -⟩ := escapeChar_head d
      rw [escape, escape, he] at h
      cases (List.cons.inj h).1
    | surrogate n =>
      obtain ⟨hmn, hxy⟩ := List.cons.inj h
      exact ⟨hmn, hxy⟩

theorem escape_head (c : PyChar) : ∃ d rest, escape c = d :: rest ∧ d ≠ .scalar '"' := by
  cases c with
  | scalar c =>
    obtain ⟨d, rest, hd, hne⟩ := escapeChar_head c
    exact ⟨.scalar d, rest.map .scalar, by rw [escape, hd, List.map_cons],
      fun heq => hne (PyChar.scalar.inj heq)⟩
  | surrogate n => exact ⟨_, _, rfl, nofun⟩

theorem quote_selfEnding : SelfEnding quote :=
  (escape_selfEnding.sequence escape_head).after [.scalar '"']

/-! ## Dictionaries -/

section Objects
variable {α : Type} (value : α → PyText)

def memberChars (entry : String × α) : PyText :=
  quote entry.1 ++ [.scalar ':'] ++ value entry.2

def objectChars : List (String × α) → PyText
  | [] => [.scalar '{', .scalar '}']
  | entry :: rest =>
    [.scalar '{'] ++ memberChars value entry
      ++ (rest.flatMap (fun next => [.scalar ','] ++ memberChars value next) ++ [.scalar '}'])

variable {value}

theorem memberChars_selfEnding (hvalue : SelfEnding value) : SelfEnding (memberChars value) := by
  intro a b x y h
  unfold memberChars at h
  simp only [List.append_assoc] at h
  obtain ⟨hkey, h⟩ := quote_selfEnding _ _ _ _ h
  obtain ⟨hval, hxy⟩ := hvalue _ _ _ _ (List.append_cancel_left h)
  exact ⟨Prod.ext (PyText.ofString_injective hkey) hval, hxy⟩

theorem objectChars_selfEnding (hvalue : SelfEnding value) : SelfEnding (objectChars value) := by
  have hmember := memberChars_selfEnding hvalue
  have hcomma (entry : String × α) : ∃ c rest,
      [.scalar ','] ++ memberChars value entry = c :: rest ∧ c ≠ .scalar '}' :=
    ⟨_, _, rfl, by decide⟩
  have hmore := (hmember.after [.scalar ',']).sequence hcomma
  intro a b x y h
  cases a with
  | nil =>
    cases b with
    | nil => exact ⟨rfl, List.append_cancel_left h⟩
    | cons entry rest => exact absurd (List.cons.inj (List.cons.inj h).2).1 (by decide)
  | cons entry rest =>
    cases b with
    | nil => exact absurd (List.cons.inj (List.cons.inj h).2).1 (by decide)
    | cons entry' rest' =>
      unfold objectChars at h
      simp only [List.append_assoc] at h
      obtain ⟨hentry, h⟩ := hmember _ _ _ _ (List.append_cancel_left h)
      obtain ⟨hrest, hxy⟩ := hmore rest rest' x y (by simpa only [List.append_assoc] using h)
      exact ⟨by rw [hentry, hrest], hxy⟩

/-! ## Sorted keys -/

def sortKeys (members : List (String × α)) : List (String × α) :=
  members.insertionSort fun a b => a.1 ≤ b.1

theorem lookup_orderedInsert (entry : String × α) (members : List (String × α)) (key : String) :
    (members.orderedInsert (fun a b => a.1 ≤ b.1) entry).lookup key =
      (entry :: members).lookup key := by
  induction members with
  | nil => rfl
  | cons first rest ih =>
    rw [List.orderedInsert_cons]
    split
    next => rfl
    next hle =>
      have hne : entry.1 ≠ first.1 := fun heq => hle (heq ▸ String.le_refl _)
      rw [List.lookup_cons, ih, List.lookup_cons, List.lookup_cons, List.lookup_cons]
      by_cases hkey : key = entry.1
      · subst hkey
        simp [beq_false_of_ne hne]
      · rw [beq_false_of_ne hkey]

/-- Sorting leaves what lies under a key as it is. -/
theorem lookup_sortKeys (members : List (String × α)) (key : String) :
    (sortKeys members).lookup key = members.lookup key := by
  induction members with
  | nil => rfl
  | cons entry rest ih =>
    unfold sortKeys at ih ⊢
    rw [List.insertionSort_cons, lookup_orderedInsert, List.lookup_cons, ih, List.lookup_cons]

end Objects

inductive PayloadValue
  | null
  | text (value : PyText)
  | object (members : List (String × PyText))
deriving DecidableEq

namespace PayloadValue

def chars : PayloadValue → PyText
  | null => PyText.ofString "null"
  | text value => quote value
  | object members => objectChars quote members

def sorted : PayloadValue → PayloadValue
  | object members => object (sortKeys members)
  | other => other

theorem objectChars_head {α : Type} (value : α → PyText) (members : List (String × α)) :
    ∃ rest, objectChars value members = .scalar '{' :: rest := by
  cases members with
  | nil => exact ⟨_, rfl⟩
  | cons entry rest => exact ⟨_, rfl⟩

theorem chars_selfEnding : SelfEnding chars := by
  intro a b x y h
  cases a with
  | null =>
    cases b with
    | null => exact ⟨rfl, List.append_cancel_left h⟩
    | text value => exact absurd (List.cons.inj h).1 (by decide)
    | object members =>
      obtain ⟨rest, hrest⟩ := objectChars_head quote members
      rw [chars, chars, hrest] at h
      exact absurd (List.cons.inj h).1 (by decide)
  | text value =>
    cases b with
    | null => exact absurd (List.cons.inj h).1 (by decide)
    | text value' =>
      obtain ⟨hvalue, hxy⟩ := quote_selfEnding _ _ _ _ h
      exact ⟨by rw [hvalue], hxy⟩
    | object members =>
      obtain ⟨rest, hrest⟩ := objectChars_head quote members
      rw [chars, chars, hrest] at h
      exact absurd (List.cons.inj h).1 (by decide)
  | object members =>
    obtain ⟨rest, hrest⟩ := objectChars_head quote members
    cases b with
    | null =>
      rw [chars, chars, hrest] at h
      exact absurd (List.cons.inj h).1 (by decide)
    | text value =>
      rw [chars, chars, hrest] at h
      exact absurd (List.cons.inj h).1 (by decide)
    | object members' =>
      obtain ⟨hmembers, hxy⟩ := objectChars_selfEnding quote_selfEnding _ _ _ _ h
      exact ⟨by rw [hmembers], hxy⟩

end PayloadValue

/-- `json.dumps(payload, sort_keys=True, separators=(",", ":"), ensure_ascii=False)`. -/
def dumps (payload : List (String × PayloadValue)) : PyText :=
  objectChars PayloadValue.chars
    (sortKeys (payload.map fun entry => (entry.1, entry.2.sorted)))

theorem lookup_mapped {α β : Type} (f : α → β) (members : List (String × α)) (key : String) :
    (members.map fun entry => (entry.1, f entry.2)).lookup key = (members.lookup key).map f := by
  induction members with
  | nil => rfl
  | cons entry rest ih =>
    rw [List.map_cons, List.lookup_cons, List.lookup_cons, ih]
    cases key == entry.1 <;> rfl

/-- Dictionaries of equal texts hold equal values under every key. -/
theorem lookup_eq_of_dumps {payload payload' : List (String × PayloadValue)}
    (h : dumps payload = dumps payload') (key : String) :
    (payload.lookup key).map PayloadValue.sorted =
      (payload'.lookup key).map PayloadValue.sorted := by
  have hsorted := (objectChars_selfEnding PayloadValue.chars_selfEnding).injective h
  rw [← lookup_mapped, ← lookup_mapped, ← lookup_sortKeys, hsorted, lookup_sortKeys]

/-! ## Texts without surrogates -/

theorem all_isScalar_quote (text : PyText) :
    (quote text).all PyText.isScalar = text.all PyText.isScalar := by
  have hescape : ∀ c, (escape c).all PyText.isScalar = PyText.isScalar c := by
    intro c
    cases c with
    | scalar c =>
      rw [escape, List.all_map]
      exact List.all_eq_true.mpr fun _ _ => rfl
    | surrogate n => rfl
  unfold quote
  rw [List.all_append, List.all_append, List.all_flatMap]
  simp only [hescape]
  simp

theorem all_isScalar_objectChars {α : Type} (value : α → PyText) (members : List (String × α)) :
    (objectChars value members).all PyText.isScalar =
      members.all fun entry => (value entry.2).all PyText.isScalar := by
  have hmember : ∀ entry, (memberChars value entry).all PyText.isScalar =
      (value entry.2).all PyText.isScalar := by
    intro entry
    unfold memberChars
    rw [List.all_append, List.all_append, all_isScalar_quote, PyText.all_isScalar_ofString]
    rfl
  cases members with
  | nil => rfl
  | cons entry rest =>
    unfold objectChars
    simp only [List.all_append, List.all_flatMap, hmember, List.all_cons, List.all_nil]
    simp

theorem all_sortKeys {α : Type} (p : String × α → Bool) (members : List (String × α)) :
    (sortKeys members).all p = members.all p :=
  (List.perm_insertionSort _ members).all_eq

namespace PayloadValue

def isScalar : PayloadValue → Bool
  | null => true
  | text value => value.all PyText.isScalar
  | object members => members.all fun entry => entry.2.all PyText.isScalar

theorem all_isScalar_chars (value : PayloadValue) :
    value.sorted.chars.all PyText.isScalar = value.isScalar := by
  cases value with
  | null => rfl
  | text value => exact all_isScalar_quote value
  | object members =>
    rw [sorted, chars, all_isScalar_objectChars, all_sortKeys]
    simp only [all_isScalar_quote]
    rfl

end PayloadValue

theorem all_isScalar_dumps (payload : List (String × PayloadValue)) :
    (dumps payload).all PyText.isScalar = payload.all fun entry => entry.2.isScalar := by
  unfold dumps
  rw [all_isScalar_objectChars, all_sortKeys, List.all_map]
  congr 1
  funext entry
  exact PayloadValue.all_isScalar_chars entry.2

end OpenJobSpec.JsonText
