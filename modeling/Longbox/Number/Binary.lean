/-! Binary floating-point numbers as exact integers times powers of two.

A format keeps `precision` bits; `round` takes a quotient of naturals to the nearest number of the
format, a tie to the even one. Products and quotients are rounded from their exact values, so every
result is the one the standard for floating-point arithmetic prescribes. -/
namespace Longbox

/-- The size of a number; `finite m q` is `m * 2 ^ q`. -/
inductive Magnitude where
  | finite (mantissa : Nat) (exponent : Int)
  | infinite
  deriving DecidableEq, Repr

structure BinaryFormat where
  precision : Nat
  minExponent : Int
  maxExponent : Int

namespace BinaryFormat

def single : BinaryFormat := ⟨24, -149, 104⟩

def double : BinaryFormat := ⟨53, -1074, 971⟩

def zero (f : BinaryFormat) : Magnitude :=
  .finite 0 f.minExponent

/-- A quotient to the nearest natural, a tie to the even one. -/
def roundQuotient (num den : Nat) : Nat :=
  let q := num / den
  let r := num % den
  if 2 * r < den then q
  else if den < 2 * r then q + 1
  else if q % 2 = 0 then q else q + 1

/-- `num / den` over `2 ^ e`, as a quotient of naturals. -/
def scale (num den : Nat) (e : Int) : Nat × Nat :=
  if 0 ≤ e then (num, den * Nat.pow 2 e.toNat) else (num * Nat.pow 2 (-e).toNat, den)

/-- The greatest `e` with `2 ^ e ≤ num / den`. -/
def floorLog (num den : Nat) : Int :=
  let e : Int := (num.log2 : Int) - (den.log2 : Int)
  let (n, d) := scale num den e
  if d ≤ n then e else e - 1

/-- The number of the format nearest to `num / den`. -/
def round (f : BinaryFormat) (num den : Nat) : Magnitude :=
  if num = 0 then f.zero
  else
    let e := max f.minExponent (floorLog num den - (f.precision - 1))
    let (n, d) := scale num den e
    let m := roundQuotient n d
    let (m, e) := if m = Nat.pow 2 f.precision then (Nat.pow 2 (f.precision - 1), e + 1) else (m, e)
    if f.maxExponent < e then .infinite else .finite m e

/-- A magnitude as a quotient of naturals; nothing for the infinite one. -/
def ratio? : Magnitude → Option (Nat × Nat)
  | .finite m e => if 0 ≤ e then some (m * Nat.pow 2 e.toNat, 1) else some (m, Nat.pow 2 (-e).toNat)
  | .infinite => none

def ofNat (f : BinaryFormat) (n : Nat) : Magnitude :=
  f.round n 1

def mul (f : BinaryFormat) (a b : Magnitude) : Magnitude :=
  match ratio? a, ratio? b with
  | some (n, d), some (n', d') => f.round (n * n') (d * d')
  | _, _ => .infinite

/-- The quotient by a number that is not zero. -/
def div (f : BinaryFormat) (a b : Magnitude) : Magnitude :=
  match ratio? a, ratio? b with
  | some (n, d), some (n', d') => f.round (n * d') (d * n')
  | none, _ => .infinite
  | some _, none => f.zero

/-- A number of another format brought to this one. -/
def convert (f : BinaryFormat) (a : Magnitude) : Magnitude :=
  match ratio? a with
  | some (n, d) => f.round n d
  | none => .infinite

end BinaryFormat

/-- A number of the single format. -/
structure Single where
  negative : Bool
  magnitude : Magnitude
  deriving DecidableEq, Repr

namespace Single

/-- The 32 bits of the interchange format: sign, exponent, fraction. -/
def bits (s : Single) : Nat :=
  (if s.negative then 0x80000000 else 0) +
    match s.magnitude with
    | .infinite => 255 * 0x800000
    | .finite m e => if m < 0x800000 then m else (e + 150).toNat * 0x800000 + (m - 0x800000)

/-- How much of a total is done, out of a hundred, each step rounded. -/
def percent (done total : Nat) : Single :=
  let f := BinaryFormat.single
  if total = 0 then ⟨false, f.zero⟩
  else ⟨false, f.mul (f.div (f.ofNat done) (f.ofNat total)) (f.ofNat 100)⟩

end Single
end Longbox
