import Mathlib.Data.List.Infix
import Mathlib.Data.Nat.Notation

/-! # String operations of the interpreter on code points

Case mappings are exact wherever they can be observed here: the package only
compares mapped text with fixed ASCII words, so what matters is which characters
map into ASCII. A character that stays outside ASCII is left as it is.
-/
namespace OpenJobSpec.Text

/-- Uppercase expansion of one character, one to three characters long. -/
def upperChar (c : Char) : List Char :=
  if c.toNat < 128 then [c.toUpper]
  else match c.toNat with
    | 0xdf => ['S', 'S']
    | 0x131 => ['I']
    | 0x17f => ['S']
    | 0xfb00 => ['F', 'F']
    | 0xfb01 => ['F', 'I']
    | 0xfb02 => ['F', 'L']
    | 0xfb03 => ['F', 'F', 'I']
    | 0xfb04 => ['F', 'F', 'L']
    | 0xfb05 => ['S', 'T']
    | 0xfb06 => ['S', 'T']
    | _ => [c]

/-- Case folding of one character, one to three characters long. -/
def casefoldChar (c : Char) : List Char :=
  if c.toNat < 128 then [c.toLower]
  else match c.toNat with
    | 0xdf => ['s', 's']
    | 0x17f => ['s']
    | 0x1e9e => ['s', 's']
    | 0x212a => ['k']
    | 0xfb00 => ['f', 'f']
    | 0xfb01 => ['f', 'i']
    | 0xfb02 => ['f', 'l']
    | 0xfb03 => ['f', 'f', 'i']
    | 0xfb04 => ['f', 'f', 'l']
    | 0xfb05 => ['s', 't']
    | 0xfb06 => ['s', 't']
    | _ => [c]

/-- `text.upper()`. -/
def upper (text : String) : String := String.ofList (text.toList.flatMap upperChar)

/-- `text.casefold()`. -/
def casefold (text : String) : String := String.ofList (text.toList.flatMap casefoldChar)

/-- Lowercase expansion of one character. -/
def lowerChar (c : Char) : List Char :=
  if c.toNat < 128 then [c.toLower]
  else match c.toNat with
    | 0x130 => ['i', Char.ofNat 0x307]
    | 0x212a => ['k']
    | _ => [c]

/-- `text.lower()`. -/
def lower (text : String) : String := String.ofList (text.toList.flatMap lowerChar)

/-- `text.removeprefix(start)`. -/
def removeprefix (start text : String) : String :=
  if start.toList.isPrefixOf text.toList then String.ofList (text.toList.drop start.length)
  else text

def hasInfix (needle : List Char) : List Char → Bool
  | [] => needle.isEmpty
  | c :: cs => needle.isPrefixOf (c :: cs) || hasInfix needle cs

/-- `needle in text`. -/
def contains (needle text : String) : Bool := hasInfix needle.toList text.toList

def isSpace (c : Char) : Bool :=
  let n := c.toNat
  (9 ≤ n && n ≤ 13) || (28 ≤ n && n ≤ 32) || n == 0x85 || n == 0xa0 || n == 0x1680
    || (0x2000 ≤ n && n ≤ 0x200a) || n == 0x2028 || n == 0x2029 || n == 0x202f || n == 0x205f
    || n == 0x3000

/-- `text.strip()`. -/
def strip (text : String) : String :=
  String.ofList ((text.toList.dropWhile isSpace).reverse.dropWhile isSpace).reverse

def hexDigit (n : ℕ) : Char := Char.ofNat (if n < 10 then 48 + n else 87 + n)

/-- One character inside a quoted representation. Characters past ASCII stand for themselves. -/
def reprChar (quote c : Char) : List Char :=
  if c = quote ∨ c = '\\' then ['\\', c]
  else if c = '\n' then ['\\', 'n']
  else if c = '\r' then ['\\', 'r']
  else if c = '\t' then ['\\', 't']
  else if c.toNat < 32 ∨ c.toNat = 127 then
    ['\\', 'x', hexDigit (c.toNat / 16), hexDigit (c.toNat % 16)]
  else [c]

/-- `repr(text)`: double quotes only around text with a single quote and no double quote. -/
def repr (text : String) : String :=
  let quote := if text.toList.contains '\'' ∧ ¬ text.toList.contains '"' then '"' else '\''
  String.ofList ([quote] ++ text.toList.flatMap (reprChar quote) ++ [quote])

/-- `text.partition(separator)`: the text before the first separator, whether there is one, and
the text after it. -/
def partition (separator : Char) (text : String) : String × Bool × String :=
  let rest := text.toList.dropWhile (· ≠ separator)
  (String.ofList (text.toList.takeWhile (· ≠ separator)), ¬ rest.isEmpty, String.ofList rest.tail)

/-- `text.rstrip(c)` for one character. -/
def rstrip (c : Char) (text : String) : String :=
  String.ofList (text.toList.reverse.dropWhile (· = c)).reverse

/-- `text.startswith(c)` for one character. -/
def startsWith (c : Char) (text : String) : Bool := text.toList.head? = some c

/-- `separator.join(parts)`. -/
def join (separator : String) : List String → String
  | [] => ""
  | [part] => part
  | part :: rest => part ++ separator ++ join separator rest

/-- Different numbers are printed differently. -/
theorem toString_injective {m n : ℕ} (h : toString m = toString n) : m = n := by
  have hdigits : Nat.toDigits 10 m = Nat.toDigits 10 n := by
    rw [← Nat.toList_repr, ← Nat.toList_repr]
    exact congrArg String.toList h
  rw [← Nat.ofDigitChars_ten_toDigits (n := m), hdigits, Nat.ofDigitChars_ten_toDigits]

/-- A map that is injective on what two lists hold tells the lists apart. -/
theorem eq_of_map_eq {α β : Type} {f : α → β} {P : α → Prop}
    (hinj : ∀ a, P a → ∀ b, P b → f a = f b → a = b) {xs ys : List α} (hxs : ∀ x ∈ xs, P x)
    (hys : ∀ y ∈ ys, P y) (h : xs.map f = ys.map f) : xs = ys := by
  induction xs generalizing ys with
  | nil => exact (List.map_eq_nil_iff.mp h.symm).symm
  | cons x xs ih =>
    cases ys with
    | nil => cases h
    | cons y ys =>
      obtain ⟨hhead, htail⟩ := List.cons.inj h
      obtain ⟨hx, hxs⟩ := List.forall_mem_cons.mp hxs
      obtain ⟨hy, hys⟩ := List.forall_mem_cons.mp hys
      rw [hinj x hx y hy hhead, ih hxs hys htail]

end OpenJobSpec.Text
