/-
  Rounding to the nearest.

  `roundDiv` rounds a quotient to an integer, and a half goes to the even neighbour.
  `roundDigits` rounds to a number of decimal digits, `roundBits` to a number of binary
  digits.
-/

namespace TraitCatalog

/-- `a / b` rounded to the nearest integer; a half goes to the even neighbour. -/
def roundDiv (a b : Nat) : Nat :=
  let q := a / b
  let r := a % b
  if b < 2 * r || (b == 2 * r && q % 2 == 1) then q + 1 else q

/-- `a / b` rounded to an integer with at most `bits` binary digits that count. -/
def roundBits (bits a b : Nat) : Nat :=
  let step := Nat.pow 2 (Nat.log2 (a / b) + 1 - bits)
  roundDiv a (b * step) * step

/-- The number of decimal digits of `n`. -/
def decimalWidth (n : Nat) : Nat :=
  (Nat.toDigits 10 n).length

/-- The first `digits` decimal digits of `n`, rounded, as a number, and the power of ten that
    the first of them counts. -/
def roundDigits (digits n : Nat) : Nat × Nat :=
  let width := decimalWidth n
  if width ≤ digits then (n * Nat.pow 10 (digits - width), width - 1)
  else
    let m := roundDiv n (Nat.pow 10 (width - digits))
    if m = Nat.pow 10 digits then (Nat.pow 10 (digits - 1), width) else (m, width - 1)

end TraitCatalog
