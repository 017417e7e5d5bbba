/-!
# Numbers of documents

A number has no leading zeros, and digits stand on both sides of its point and
in its exponent. It has to be finite in 64-bit floating point, which is decided
on what a reader keeps of it (`Decimal`): the digits that fit a word of 64 bits,
scaled by a power of ten. Word and power are rounded first and then multiplied,
so close to the limit the rounding decides, not the exact value. A number that is
skipped may be of any size.

* `nearest_of_lt`: rounding leaves numbers of at most 53 bits alone.
* `appendDigits_lt`: what is kept of the digits fits a word.
-/

namespace Workflow.Document

/-- What a reader does with a part of a text. -/
inductive Reading
  /-- It takes the value that stands there. -/
  | kept
  /-- It only looks for the end of the part. -/
  | skipped
  deriving DecidableEq

/-! ## The digits that are kept -/

/-- The number of values that a word has. -/
def wordSize : Nat := Nat.pow 2 64

/-- The value of a decimal digit. -/
def digitValue (digit : Char) : Nat := digit.toNat - 48

/-- Puts digits behind a number for as long as it fits a word, and answers the
digits from the first on that does not fit. -/
def appendDigits : Nat → List Char → Nat × List Char
  | n, [] => (n, [])
  | n, digit :: digits =>
    if 10 * n + digitValue digit < wordSize then
      appendDigits (10 * n + digitValue digit) digits
    else (n, digit :: digits)

theorem appendDigits_lt {n : Nat} (digits : List Char) (h : n < wordSize) :
    (appendDigits n digits).1 < wordSize := by
  induction digits generalizing n with
  | nil => exact h
  | cons digit digits ih =>
    simp only [appendDigits]
    split
    · rename_i hfits; exact ih hfits
    · exact h

/-- A number as a word that is scaled by a power of ten, signs aside. -/
structure Decimal where
  significand : Nat
  scale : Int

/-- What is kept of a number. A whole digit that is dropped raises the scale, a
digit kept behind the point lowers it; digits behind the point are taken up as
far as they fit even if whole digits were dropped. -/
def Decimal.ofDigits (whole fraction : List Char) (exponent : Int) : Decimal :=
  let units := appendDigits 0 whole
  let parts := appendDigits units.1 fraction
  { significand := parts.1
    scale := exponent + units.2.length - (fraction.length - parts.2.length) }

/-! ## Range -/

/-- The number of bits beyond the 53 that floating point keeps. -/
def excessBits (n : Nat) : Nat := n.log2 + 1 - 53

/-- The nearest number with at most 53 significant bits; of two that are as near,
the one whose last kept bit is zero. -/
def nearest (n : Nat) : Nat :=
  let unit := Nat.pow 2 (excessBits n)
  let kept := n / unit
  let rest := 2 * (n % unit)
  if rest < unit ∨ rest = unit ∧ kept % 2 = 0 then kept * unit else (kept + 1) * unit

theorem nearest_of_lt {n : Nat} (h : n < Nat.pow 2 53) : nearest n = n := by
  have hbits : excessBits n = 0 := by
    by_cases hzero : n = 0
    · subst hzero; rfl
    · have := (Nat.log2_lt hzero).mpr h
      unfold excessBits
      omega
  simp [nearest, hbits, Nat.mod_one]

/-- The largest power of ten that floating point has. -/
def maxScale : Int := 308

/-- The least number that rounds to infinity: half a unit above the largest
finite one. -/
def infinite : Nat := Nat.pow 2 1024 - Nat.pow 2 970

/-- Whether a number is finite in floating point. -/
def Decimal.isFinite (decimal : Decimal) : Bool :=
  if decimal.significand = 0 then true
  else if maxScale < decimal.scale then false
  else
    -- Here the scale is bounded, so the power stays small.
    nearest decimal.significand * nearest (Nat.pow 10 decimal.scale.toNat) < infinite

/-! ## Reading -/

/-- Reads at least one decimal digit. -/
def digits? (cs : List Char) : Option (List Char × List Char) :=
  match cs.takeWhile Char.isDigit with
  | [] => none
  | digits => some (digits, cs.dropWhile Char.isDigit)

/-- The number that decimal digits stand for. -/
def ofDigits (digits : List Char) : Nat :=
  digits.foldl (fun n digit => 10 * n + digitValue digit) 0

/-- Reads the whole part of a number, which has no leading zero. -/
def whole? (cs : List Char) : Option (List Char × List Char) := do
  let (digits, rest) ← digits? cs
  match digits with
  | '0' :: _ :: _ => none
  | _ => some (digits, rest)

/-- Reads the digits behind the point, if there is one. -/
def fraction? : List Char → Option (List Char × List Char)
  | '.' :: rest => digits? rest
  | rest => some ([], rest)

/-- An exponent as it is written, with its mark, and what it stands for. -/
structure Exponent where
  written : List Char := []
  value : Int := 0

/-- Reads an exponent behind its mark. -/
def signedExponent? (mark : Char) : List Char → Option (Exponent × List Char)
  | '-' :: rest => do
    let (digits, rest) ← digits? rest
    some ({ written := mark :: '-' :: digits, value := -(ofDigits digits : Int) }, rest)
  | '+' :: rest => do
    let (digits, rest) ← digits? rest
    some ({ written := mark :: '+' :: digits, value := ofDigits digits }, rest)
  | rest => do
    let (digits, rest) ← digits? rest
    some ({ written := mark :: digits, value := ofDigits digits }, rest)

/-- Reads the exponent of a number, if there is one. -/
def exponent? : List Char → Option (Exponent × List Char)
  | 'e' :: rest => signedExponent? 'e' rest
  | 'E' :: rest => signedExponent? 'E' rest
  | rest => some ({}, rest)

/-- Reads a number without a sign and answers it as it is written. -/
def unsigned? (reading : Reading) (cs : List Char) : Option (List Char × List Char) := do
  let (whole, rest) ← whole? cs
  let (fraction, rest) ← fraction? rest
  let (exponent, rest) ← exponent? rest
  let point := if fraction.isEmpty then [] else ['.']
  if reading = .skipped ∨ (Decimal.ofDigits whole fraction exponent.value).isFinite then
    some (whole ++ point ++ fraction ++ exponent.written, rest)
  else none

/-- Reads a number and answers it as it is written. -/
def number? (reading : Reading) : List Char → Option (String × List Char)
  | '-' :: rest => do
    let (written, rest) ← unsigned? reading rest
    some (String.ofList ('-' :: written), rest)
  | cs => do
    let (written, rest) ← unsigned? reading cs
    some (String.ofList written, rest)

end Workflow.Document
