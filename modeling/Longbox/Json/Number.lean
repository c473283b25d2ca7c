import Longbox.Json.Value
import Longbox.Number.Binary
import Longbox.Text.Digit

/-! What numerals stand for.

A numeral without dot and exponent is an integer, if a 64-bit word holds it; minus zero is none.
Every other numeral is a double: the leading digits that fit a word, times a power of ten, each step
rounded once. A numeral beyond the range of doubles stands for nothing. -/
namespace Longbox.Json

open Text (digitValue natOfDigits)

inductive Number where
  | natural (n : Nat)
  | negative (n : Nat)
  | double (negative : Bool) (magnitude : Magnitude)
  deriving DecidableEq, Repr

def wordSize : Nat := 0x10000000000000000

namespace Numeral

def isInteger (n : Numeral) : Bool :=
  n.fraction.isEmpty && n.exponent.isNone

/-- The leading digits that fit a word, and the power of ten that they are to be taken times. -/
structure Parts where
  significand : Nat
  exponent : Int
  /-- A digit did not fit. -/
  full : Bool

def Parts.whole (p : Parts) (c : Char) : Parts :=
  let s := p.significand * 10 + digitValue c
  if p.full || wordSize ≤ s then { p with exponent := p.exponent + 1, full := true }
  else { p with significand := s }

def Parts.fraction (p : Parts) (c : Char) : Parts :=
  let s := p.significand * 10 + digitValue c
  if p.full || wordSize ≤ s then { p with full := true }
  else { p with significand := s, exponent := p.exponent - 1 }

/-- Digits that the whole part had no room for are zeros; those of the fraction are dropped, but the
first ones may fit once more. -/
def parts (n : Numeral) : Parts :=
  let p := n.whole.foldl Parts.whole ⟨0, 0, false⟩
  n.fraction.foldl Parts.fraction { p with full := false }

def maxExponent : Nat := 0x7FFFFFFF

/-- The greatest power of ten that is a double. -/
def maxPower : Nat := 308

def powerOfTen (n : Nat) : Magnitude :=
  BinaryFormat.double.round (Nat.pow 10 n) 1

/-- A double times a power of ten. -/
def scaleDouble (m : Magnitude) (e : Int) : Nat → Option Magnitude
  | 0 => some m
  | fuel + 1 =>
    let f := BinaryFormat.double
    if e.natAbs ≤ maxPower then
      if 0 ≤ e then
        match f.mul m (powerOfTen e.natAbs) with
        | .infinite => none
        | product => some product
      else some (f.div m (powerOfTen e.natAbs))
    else if m == f.zero then some m
    else if 0 ≤ e then none
    else scaleDouble (f.div m (powerOfTen maxPower)) (e + maxPower) fuel

/-- The magnitude of a numeral as a double. -/
def double? (n : Numeral) : Option Magnitude :=
  let p := n.parts
  let m := BinaryFormat.double.ofNat p.significand
  match n.exponent with
  | none => scaleDouble m p.exponent 8
  | some (negative, digits) =>
    let e := natOfDigits digits
    if maxExponent < e then
      if p.significand = 0 || negative then some BinaryFormat.double.zero else none
    else scaleDouble m (if negative then p.exponent - e else p.exponent + e) 8

def number? (n : Numeral) : Option Number :=
  let value := natOfDigits n.whole
  if n.isInteger && !n.negative && value < wordSize then some (.natural value)
  else if n.isInteger && n.negative && 0 < value && value ≤ wordSize / 2 then
    some (.negative value)
  else n.double?.map (.double n.negative)

/-- A natural that a word holds, written as one. -/
def word? (n : Numeral) : Option UInt64 :=
  match n.number? with
  | some (.natural value) => some (UInt64.ofNat value)
  | _ => none

/-- The single nearest to what the numeral stands for. -/
def single? (n : Numeral) : Option Single :=
  n.number?.map fun
    | .natural value => ⟨false, BinaryFormat.single.ofNat value⟩
    | .negative value => ⟨true, BinaryFormat.single.ofNat value⟩
    | .double negative m => ⟨negative, BinaryFormat.single.convert m⟩

def ofNat (n : Nat) : Numeral :=
  ⟨false, Nat.toDigits 10 n, [], none⟩

end Numeral
end Longbox.Json
