import Mathlib.Data.List.Basic
import Mathlib.Data.Int.Basic

/-!
# The integer that a text spells

`int(text)` of Python for base ten: blanks around the number, a sign, decimal digits of any
script and single underscores between them are accepted.  A text with more digits than the
interpreter converts is refused like one that is no number.
-/

namespace PyInt

/-- The blanks that are skipped around a number. -/
def isBlank (c : Char) : Bool :=
  [0x09, 0x0A, 0x0B, 0x0C, 0x0D, 0x20, 0x85, 0xA0, 0x1680, 0x2000, 0x2001, 0x2002, 0x2003, 0x2004,
    0x2005, 0x2006, 0x2007, 0x2008, 0x2009, 0x200A, 0x2028, 0x2029, 0x202F, 0x205F,
    0x3000].contains c.toNat

/-- The zeros of the scripts that have decimal digits; each is followed by its other digits. -/
def zeros : List ℕ :=
  [0x30, 0x660, 0x6F0, 0x7C0, 0x966, 0x9E6, 0xA66, 0xAE6, 0xB66, 0xBE6, 0xC66, 0xCE6, 0xD66, 0xDE6,
    0xE50, 0xED0, 0xF20, 0x1040, 0x1090, 0x17E0, 0x1810, 0x1946, 0x19D0, 0x1A80, 0x1A90, 0x1B50,
    0x1BB0, 0x1C40, 0x1C50, 0xA620, 0xA8D0, 0xA900, 0xA9D0, 0xA9F0, 0xAA50, 0xABF0, 0xFF10, 0x104A0,
    0x10D30, 0x11066, 0x110F0, 0x11136, 0x111D0, 0x112F0, 0x11450, 0x114D0, 0x11650, 0x116C0,
    0x11730, 0x118E0, 0x11950, 0x11C50, 0x11D50, 0x11DA0, 0x11F50, 0x16A60, 0x16AC0, 0x16B50,
    0x1D7CE, 0x1D7D8, 0x1D7E2, 0x1D7EC, 0x1D7F6, 0x1E140, 0x1E2F0, 0x1E4F0, 0x1E950, 0x1FBF0]

def digit (c : Char) : Option ℕ :=
  (zeros.find? fun first ↦ first ≤ c.toNat && c.toNat < first + 10).map (c.toNat - ·)

/-- The digits after the first one, with single underscores between them. -/
def moreDigits : List Char → Option (List ℕ)
  | [] => some []
  | '_' :: c :: text => do
      let value ← digit c
      let values ← moreDigits text
      return value :: values
  | c :: text => do
      let value ← digit c
      let values ← moreDigits text
      return value :: values

def digits : List Char → Option (List ℕ)
  | [] => none
  | c :: text => do
      let value ← digit c
      let values ← moreDigits text
      return value :: values

/-- The most digits that are converted. -/
def maxDigits : ℕ := 4300

def natural (text : List Char) : Option ℕ := do
  let values ← digits text
  if maxDigits < values.length then none else return values.foldl (fun n value ↦ 10 * n + value) 0

def strip (text : List Char) : List Char :=
  ((text.dropWhile isBlank).reverse.dropWhile isBlank).reverse

end PyInt

/-- `int(text)`; nothing stands for a `ValueError`. -/
def pyInt (text : String) : Option ℤ :=
  match PyInt.strip text.toList with
  | '+' :: rest => (PyInt.natural rest).map Int.ofNat
  | '-' :: rest => (PyInt.natural rest).map fun n ↦ -Int.ofNat n
  | rest => (PyInt.natural rest).map Int.ofNat

example : pyInt " -1_0" = some (-10) := by decide +kernel

example : pyInt "1__0" = none := by decide +kernel
