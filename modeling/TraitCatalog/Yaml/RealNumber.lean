/-
  Real numbers as a YAML text gives them.

  A finite real has 53 binary digits at most and is a multiple of `2 ^ -1074`, its *unit*; so
  it is kept as an integer number of units.  Every operation takes the exact result and
  rounds it once, a half to the even neighbour, and what is too large becomes infinite.
-/
import TraitCatalog.Rounding

namespace TraitCatalog.Yaml

/-- A real number; `finite n` is `n` units. -/
inductive RealNumber where
  | notNumber
  | infinite (negative : Bool)
  | finite (n : Int)
  deriving DecidableEq, Repr

namespace RealNumber

/-- The number of binary digits that count. -/
def precision : Nat := 53

/-- The number of units in one. -/
def unitsInOne : Nat := Nat.pow 2 1074

/-- The least integer that is too large. -/
def ceiling : Nat := Nat.pow 2 1024

/-- The real nearest to `a / b` units. -/
def ofUnits (negative : Bool) (a b : Nat) : RealNumber :=
  let n := roundBits precision a b
  if ceiling * unitsInOne ≤ n then infinite negative
  else finite (if negative then -n else n)

/-- Beyond this power of ten a real is infinite, and below its inverse it is zero. -/
def reach : Nat := 400

/-- About the power of ten that the first digit of `n` counts: the power of two, times the
    decimal logarithm of two. -/
def decimalPower (n : Nat) : Nat :=
  Nat.log2 n * 30103 / 100000

/-- The real nearest to `n · 10 ^ e`. -/
def ofDecimal (n : Nat) (e : Int) : RealNumber :=
  let top : Int := decimalPower n + e
  if n = 0 || top < -reach then finite 0
  else if top > reach then infinite false
  else if 0 ≤ e then ofUnits false (n * Nat.pow 10 e.toNat * unitsInOne) 1
  else ofUnits false (n * unitsInOne) (Nat.pow 10 (-e).toNat)

/-- The integer that a real is, if it is one. -/
def integer? : RealNumber → Option Int
  | finite n => if n % unitsInOne = 0 then some (n / unitsInOne) else none
  | notNumber | infinite _ => none

/-- The opposite. -/
def neg : RealNumber → RealNumber
  | notNumber => notNumber
  | infinite negative => infinite !negative
  | finite n => finite (-n)

/-- A real times a positive integer, which is rounded first; none if that is too large. -/
def scale? (k : Nat) (r : RealNumber) : Option RealNumber :=
  let k := roundBits precision k 1
  if ceiling ≤ k then none
  else
    match r with
    | finite n => some (ofUnits (n < 0) (n.natAbs * k) 1)
    | r => some r

/-- The sum. -/
def add : RealNumber → RealNumber → RealNumber
  | notNumber, _ | _, notNumber => notNumber
  | infinite a, infinite b => if a = b then infinite a else notNumber
  | infinite a, finite _ | finite _, infinite a => infinite a
  | finite n, finite m => ofUnits (n + m < 0) (n + m).natAbs 1

/-- The value of digits in base sixty, the lowest first, of which the first counts `base`;
    none if a power of sixty is too large. -/
def sexagesimal? (base : Nat) (sum : RealNumber) : List RealNumber → Option RealNumber
  | [] => some sum
  | d :: ds => do sexagesimal? (base * 60) (sum.add (← d.scale? base)) ds

example : ofDecimal 1 (-324) = finite 0 ∧ (ofDecimal 25 (-1)).integer? = none ∧
    (ofDecimal 25 1).integer? = some 250 ∧ ofDecimal 17976931348623159 292 = infinite false := by
  decide +kernel

end RealNumber

end TraitCatalog.Yaml
