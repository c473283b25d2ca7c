import Longbox.Number.Binary

/-! The shortest decimal numeral that reads back as a given single.

The numbers that round to a single form an interval around it, ends included for an even mantissa.
On the decimal grids of one digit, two digits and so on the two neighbours of the exact value are
tried; the first grid with a hit has the fewest digits, and of two hits the nearer is taken. -/
namespace Longbox.Shortest

/-- A numeral `digits * 10 ^ exponent`. -/
structure Decimal where
  digits : Nat
  exponent : Int
  deriving DecidableEq, Repr

/-- The value and the two ends of its interval, over one denominator. -/
structure Interval where
  low : Nat
  value : Nat
  high : Nat
  denominator : Nat
  closed : Bool

/-- The interval of the finite single `m * 2 ^ e`. -/
def interval (m : Nat) (e : Int) : Interval :=
  let lowGap := if m = 0x800000 && decide (BinaryFormat.single.minExponent < e) then 1 else 2
  let (scale, denominator) :=
    if 2 ≤ e then (Nat.pow 2 (e - 2).toNat, 1) else (1, Nat.pow 2 (2 - e).toNat)
  ⟨(4 * m - lowGap) * scale, 4 * m * scale, (4 * m + 2) * scale, denominator, m % 2 == 0⟩

/-- `n * 10 ^ e` compared with `num / den` by cross products. -/
def crossed (n : Nat) (e : Int) (num den : Nat) : Nat × Nat :=
  if 0 ≤ e then (n * Nat.pow 10 e.toNat * den, num) else (n * den, num * Nat.pow 10 (-e).toNat)

def Interval.holds (i : Interval) (d : Decimal) : Bool :=
  let (l, l') := crossed d.digits d.exponent i.low i.denominator
  let (h, h') := crossed d.digits d.exponent i.high i.denominator
  if i.closed then decide (l' ≤ l) && decide (h ≤ h') else decide (l' < l) && decide (h < h')

/-- The grid point at or below the value. -/
def Interval.floor (i : Interval) (e : Int) : Nat :=
  if 0 ≤ e then i.value / (i.denominator * Nat.pow 10 e.toNat)
  else i.value * Nat.pow 10 (-e).toNat / i.denominator

/-- The value is nearer to the lower of two neighbours on a grid. -/
def Interval.lowerIsNearer (i : Interval) (n : Nat) (e : Int) : Bool :=
  let (a, b) := crossed (2 * n + 1) e (2 * i.value) i.denominator
  decide (b < a) || (a == b && n % 2 == 0)

/-- The hit on a grid, if there is one. -/
def Interval.hit? (i : Interval) (e : Int) : Option Decimal :=
  let n := i.floor e
  let low : Decimal := ⟨n, e⟩
  let high : Decimal := ⟨n + 1, e⟩
  match i.holds low && n != 0, i.holds high with
  | true, true => some (if i.lowerIsNearer n e then low else high)
  | true, false => some low
  | false, true => some high
  | false, false => none

/-- The grids from coarse to fine. -/
def Interval.search (i : Interval) (e : Int) : Nat → Option Decimal
  | 0 => none
  | grids + 1 =>
    match i.hit? e with
    | some d => some d
    | none => i.search (e - 1) grids

/-- Drops zeros at the end. -/
def Decimal.strip (d : Decimal) : Nat → Decimal
  | 0 => d
  | fuel + 1 =>
    if d.digits != 0 && d.digits % 10 == 0 then
      Decimal.strip ⟨d.digits / 10, d.exponent + 1⟩ fuel
    else d

/-- No single reaches `10 ^ 39`, and ninety grids go below the least one. -/
def ofFinite (m : Nat) (e : Int) : Decimal :=
  if m = 0 then ⟨0, 0⟩
  else (((interval m e).search 39 90).getD ⟨0, 0⟩).strip 90

end Longbox.Shortest
