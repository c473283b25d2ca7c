import Longbox.Json.Number
import Longbox.Number.Shortest

/-! How a single is written: the shortest digits that read back, positional with at least one digit
behind the dot from `0.000001` up to thirteen digits in front of it, else with an exponent. -/
namespace Longbox.Json

def zeros (n : Nat) : List Char :=
  List.replicate n '0'

/-- The numeral for digits times a power of ten. -/
def numeralOfDecimal (negative : Bool) (d : Shortest.Decimal) : Numeral :=
  let digits := Nat.toDigits 10 d.digits
  let length : Int := digits.length
  let point := length + d.exponent
  if 0 ≤ d.exponent && point ≤ 13 then
    ⟨negative, digits ++ zeros d.exponent.toNat, ['0'], none⟩
  else if 0 < point && point ≤ 13 then
    ⟨negative, digits.take point.toNat, digits.drop point.toNat, none⟩
  else if -6 < point && point ≤ 0 then
    ⟨negative, ['0'], zeros (-point).toNat ++ digits, none⟩
  else
    let e := point - 1
    ⟨negative, digits.take 1, digits.drop 1, some (decide (e < 0), Nat.toDigits 10 e.natAbs)⟩

/-- A single as a value; the infinite ones have no numeral and are written as null. -/
def ofSingle (s : Single) : Json :=
  match s.magnitude with
  | .infinite => .null
  | .finite m e => .number (numeralOfDecimal s.negative (Shortest.ofFinite m e))

end Longbox.Json
