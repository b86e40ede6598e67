/-!
# Numbers as text

Text at the right end of a field of a least width, and the numbers that are written so: integers in
hexadecimal digits, and doubles with a count of decimal places. A number of bytes is written in a
unit that keeps it short.
-/
namespace Chip8

/-! ## Padding -/

namespace Pad

/-- Characters with as many of `fill` in front as make them at least `width` long. -/
def left (width : Nat) (fill : Char) (cs : List Char) : List Char :=
  List.replicate (width - cs.length) fill ++ cs

theorem length_left (width : Nat) (fill : Char) (cs : List Char) :
    (left width fill cs).length = max width cs.length := by
  simp only [left, List.length_append, List.length_replicate]
  omega

end Pad

/-!
## Hexadecimal text

Integers written in upper-case hexadecimal digits, filled with zeros on the left to a least width.
A minus sign stands in front of the zeros and counts towards the width.
-/

namespace Hex

/-- The digits of a natural number, most significant first. -/
def digits (n : Nat) : List Char := (Nat.toDigits 16 n).map Char.toUpper

/-- An integer in at least `width` characters. -/
def chars (width : Nat) (i : Int) : List Char :=
  let sign := if i < 0 then ['-'] else []
  sign ++ Pad.left (width - sign.length) '0' (digits i.natAbs)

def text (width : Nat) (i : Int) : String := String.ofList (chars width i)

end Hex

/-!
## Fixed-point text

A binary floating-point number written with a given count of decimal places. The number is taken at
its exact value, which is a multiple of a power of two, and rounded once: to the nearest neighbour,
and to the even one if both are as near. The sign of a zero, and of a number that rounds to zero, is
kept.
-/

namespace Fixed

/-- What the bits of a double stand for; a finite number is `mantissa * 2 ^ exponent`. -/
inductive Value where
  | finite (negative : Bool) (mantissa : Nat) (exponent : Int)
  | infinite (negative : Bool)
  | notANumber
  deriving DecidableEq, Repr

/-- The value of the bits of a double: sign, 11 bits of exponent, 52 bits of fraction. -/
def Value.ofBits (bits : BitVec 64) : Value :=
  let negative := bits.msb
  let exponent := (bits.extractLsb' 52 11).toNat
  let fraction := (bits.extractLsb' 0 52).toNat
  if exponent = 0x7FF then
    if fraction = 0 then .infinite negative else .notANumber
  else if exponent = 0 then .finite negative fraction (-1074)
  else .finite negative (fraction + Nat.pow 2 52) (exponent - 1075)

/-- The quotient rounded to the nearest natural number, halves to the even one. -/
def roundDiv (num den : Nat) : Nat :=
  let q := num / den
  let r := 2 * (num % den)
  if r < den then q else if den < r then q + 1 else q + q % 2

/-- The multiple of `10 ^ -places` nearest to `mantissa * 2 ^ exponent`, as a count of them. -/
def scaled (places mantissa : Nat) (exponent : Int) : Nat :=
  if 0 ≤ exponent then mantissa * Nat.pow 10 places * Nat.pow 2 exponent.toNat
  else roundDiv (mantissa * Nat.pow 10 places) (Nat.pow 2 (-exponent).toNat)

def Value.chars (places : Nat) : Value → List Char
  | .finite negative mantissa exponent =>
    let n := scaled places mantissa exponent
    let sign := if negative then ['-'] else []
    let whole := Nat.toDigits 10 (n / Nat.pow 10 places)
    let fraction := Pad.left places '0' (Nat.toDigits 10 (n % Nat.pow 10 places))
    sign ++ whole ++ '.' :: fraction
  | .infinite negative => (if negative then ['-'] else []) ++ ['i', 'n', 'f']
  | .notANumber => ['n', 'a', 'n']

/-- A double with `places` decimal places at the right end of a field of `width`. -/
def text (width places : Nat) (x : Float) : String :=
  String.ofList (Pad.left width ' ' ((Value.ofBits x.toBits.toBitVec).chars places))

end Fixed

/-!
## Sizes

A number of bytes written in a unit that is a power of 1024 bytes. The unit is the largest that is
not larger than the size, or the next one for a size that rounds to 1024 of it. There are three
digits, or all digits before the point if those are more, and a point behind a whole number too. The
digits are those of the size as a double, which has 53 bits.
-/

namespace Size

/-- The units in order, each 1024 times as large as the one before. -/
def units : List String := ["bytes", "KiB", "MiB", "GiB", "TiB", "PiB", "EiB"]

/-- A number rounded to the nearest that has at most 53 bits before its last zeros, halves to the
even one. -/
def double (n : Nat) : Nat :=
  let d := Nat.pow 2 (n.log2 + 1 - 53)
  Fixed.roundDiv n d * d

/-- The place in the list of the unit that a size is written in. -/
def unitIndex (size : Nat) : Nat :=
  let i := size.log2 / 10
  let i := if Fixed.roundDiv (double size) (Nat.pow 1024 i) = 1024 then i + 1 else i
  min i (units.length - 1)

/-- The number of decimal places that makes three digits of a quotient that is about 1 or more. -/
def places (num den : Nat) : Nat :=
  if Fixed.roundDiv (num * 100) den < 1000 then 2
  else if Fixed.roundDiv (num * 10) den < 1000 then 1 else 0

/-- A quotient with a decimal point, rounded to the nearest number, halves to the even one. -/
def chars (num den : Nat) : List Char :=
  let k := places num den
  let digits := Nat.toDigits 10 (Fixed.roundDiv (num * Nat.pow 10 k) den)
  let whole := digits.length - k
  digits.take whole ++ '.' :: digits.drop whole

def text (size : Nat) : String :=
  match unitIndex size with
  | 0 => Nat.repr size ++ " bytes"
  | i => String.ofList (chars (double size) (Nat.pow 1024 i)) ++ " " ++ units.getD i ""

end Size

end Chip8
