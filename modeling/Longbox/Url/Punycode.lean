/-! Punycode: characters beyond ASCII in a label of letters, digits and hyphens.

A label holds its ASCII characters, a hyphen, and then for each other character, in the order of
code points, how far to go from the one before, in digits of base 36 with thresholds that adapt to
the sizes seen so far. -/
namespace Longbox.Url.Punycode

def digit? (c : Char) : Option Nat :=
  let n := c.toNat
  if 97 ≤ n ∧ n ≤ 122 then some (n - 97)
  else if 65 ≤ n ∧ n ≤ 90 then some (n - 65)
  else if 48 ≤ n ∧ n ≤ 57 then some (n - 22)
  else none

/-- Digits below the threshold end a number. -/
def threshold (k bias : Nat) : Nat :=
  if k ≤ bias then 1 else min 26 (k - bias)

def shrink (delta k : Nat) : Nat × Nat :=
  if 455 < delta then shrink (delta / 35) (k + 36) else (delta, k)
  termination_by delta
  decreasing_by omega

/-- The bias after a number, given how many characters there are now. -/
def adapt (delta count : Nat) (first : Bool) : Nat :=
  let delta := if first then delta / 700 else delta / 2
  let (delta, k) := shrink (delta + delta / count) 0
  k + 36 * delta / (delta + 38)

/-- The number at the front, added to `i`. -/
def number? (bias : Nat) : Nat → Nat → Nat → List Char → Option (Nat × List Char)
  | _, _, _, [] => none
  | i, w, k, c :: rest =>
    match digit? c with
    | none => none
    | some d =>
      let i := i + d * w
      if 0x100000000 ≤ i then none
      else if d < threshold k bias then some (i, rest)
      else number? bias i (w * (36 - threshold k bias)) (k + 36) rest

/-- Puts in the characters that the numbers encode; every number takes a digit at least. -/
def insertAll? (label : List Char) (n i bias : Nat) (fuel : Nat) (cs : List Char) :
    Option (List Char) :=
  match fuel, cs with
  | _, [] => some label
  | 0, _ => none
  | fuel + 1, cs =>
    match number? bias i 1 36 cs with
    | none => none
    | some (j, rest) =>
      let count := label.length + 1
      let n := n + j / count
      let place := j % count
      if n.isValidChar then
        insertAll? (label.take place ++ Char.ofNat n :: label.drop place) n (place + 1)
          (adapt (j - i) count (i == 0)) fuel rest
      else none

/-- The label that is encoded, without its mark. -/
def decode? (cs : List Char) : Option (List Char) :=
  let tail := (cs.reverse.takeWhile (· != '-')).reverse
  let front := cs.take (cs.length - tail.length - 1)
  insertAll? front 128 0 72 (tail.length + 1) tail

end Longbox.Url.Punycode
