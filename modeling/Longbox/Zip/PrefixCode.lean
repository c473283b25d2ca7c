/-! Prefix codes given by the lengths of their words.

Words of one length are successive numbers in the order of their symbols, and shorter words come
before longer ones. So the lengths determine the code, which is kept as a tree: a word is a way from
the root to a symbol. -/
namespace Longbox.Zip

inductive PrefixCode where
  | empty
  | symbol (n : Nat)
  | fork (zero one : PrefixCode)
  deriving Repr

namespace PrefixCode

def maxLength : Nat := 15

/-- Puts a symbol at the end of a way that leads through no other symbol. -/
def insert (n : Nat) : List Bool → PrefixCode → Option PrefixCode
  | [], empty => some (symbol n)
  | [], _ => none
  | _ :: _, symbol _ => none
  | bit :: way, tree =>
    let (zero, one) := match tree with
      | fork zero one => (zero, one)
      | _ => (empty, empty)
    if bit then (insert n way one).map (fork zero) else (insert n way zero).map (fork · one)

/-- The lowest `length` bits of a number, the most significant one first. -/
def wordBits (length word : Nat) : List Bool :=
  (List.range length).reverse.map word.testBit

/-- The symbols that have a word, with its length, in the order of the words. -/
def ordered (lengths : List Nat) : List (Nat × Nat) :=
  (List.range' 1 maxLength).flatMap fun length =>
    (lengths.zipIdx.filter fun e => e.1 == length).map fun e => (length, e.2)

/-- Enters symbols from the given word of the greatest length on. -/
def fill (start : Nat) (tree : PrefixCode) : List (Nat × Nat) → Option PrefixCode
  | [] => some tree
  | (length, n) :: rest =>
    let step := Nat.pow 2 (maxLength - length)
    match tree.insert n (wordBits length (start / step)) with
    | some tree => fill (start + step) tree rest
    | none => none

/-- The share of the words of the greatest length that the lengths take up. -/
def weight (lengths : List Nat) : Nat :=
  (ordered lengths).foldl (fun sum e => sum + Nat.pow 2 (maxLength - e.1)) 0

/-- Every way leads to a symbol. -/
def isComplete (lengths : List Nat) : Bool :=
  weight lengths == Nat.pow 2 maxLength

/-- The code with these lengths, a length of zero meaning no word. Nothing if two words would meet. -/
def ofLengths? (lengths : List Nat) : Option PrefixCode :=
  if weight lengths ≤ Nat.pow 2 maxLength then fill 0 empty (ordered lengths) else none

end PrefixCode
end Longbox.Zip
