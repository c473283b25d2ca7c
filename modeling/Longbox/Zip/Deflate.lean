import Longbox.Zip.PrefixCode

/-! Unpacking deflated data.

Deflated data is a row of blocks, the last one marked. A block is stored, or written in two prefix
codes: one for literal bytes, for the end of the block and for the lengths of repetitions, one for
the distances of repetitions. The codes are fixed or stand in front of the block. -/
namespace Longbox.Zip.Deflate

/-- A place in the data, counted in bits. Bits of a byte are read from the least significant on. -/
structure Source where
  bytes : ByteArray
  position : Nat := 0

namespace Source

def bit? (s : Source) : Option (Bool × Source) :=
  if h : s.position / 8 < s.bytes.size then
    some ((s.bytes[s.position / 8]).toNat.testBit (s.position % 8),
      { s with position := s.position + 1 })
  else none

/-- A number of `n` bits, the least significant one first. -/
def number? (s : Source) : Nat → Option (Nat × Source)
  | 0 => some (0, s)
  | n + 1 => do
    let (bit, s) ← s.bit?
    let (rest, s) ← s.number? n
    some (2 * rest + bit.toNat, s)

def align (s : Source) : Source :=
  { s with position := (s.position + 7) / 8 * 8 }

def symbol? (s : Source) : PrefixCode → Option (Nat × Source)
  | .empty => none
  | .symbol n => some (n, s)
  | .fork zero one => do
    let (bit, s) ← s.bit?
    if bit then s.symbol? one else s.symbol? zero

end Source

/-- The least value of each class and the number of bits that are added to it. -/
abbrev Classes := List (Nat × Nat)

/-- Lengths of repetitions, for the symbols from 257 on. -/
def lengthClasses : Classes :=
  [(3, 0), (4, 0), (5, 0), (6, 0), (7, 0), (8, 0), (9, 0), (10, 0), (11, 1), (13, 1), (15, 1),
    (17, 1), (19, 2), (23, 2), (27, 2), (31, 2), (35, 3), (43, 3), (51, 3), (59, 3), (67, 4),
    (83, 4), (99, 4), (115, 4), (131, 5), (163, 5), (195, 5), (227, 5), (258, 0)]

def distanceClasses : Classes :=
  [(1, 0), (2, 0), (3, 0), (4, 0), (5, 1), (7, 1), (9, 2), (13, 2), (17, 3), (25, 3), (33, 4),
    (49, 4), (65, 5), (97, 5), (129, 6), (193, 6), (257, 7), (385, 7), (513, 8), (769, 8),
    (1025, 9), (1537, 9), (2049, 10), (3073, 10), (4097, 11), (6145, 11), (8193, 12), (12289, 12),
    (16385, 13), (24577, 13)]

def classValue? (classes : Classes) (index : Nat) (s : Source) : Option (Nat × Source) := do
  let (least, bits) ← classes[index]?
  let (more, s) ← s.number? bits
  some (least + more, s)

structure BlockCode where
  literals : PrefixCode
  distances : PrefixCode

def fixedCode? : Option BlockCode := do
  let literals ← PrefixCode.ofLengths? (List.replicate 144 8 ++ List.replicate 112 9 ++
    List.replicate 24 7 ++ List.replicate 8 8)
  let distances ← PrefixCode.ofLengths? (List.replicate 32 5)
  some ⟨literals, distances⟩

/-- The order in which the lengths of the words for lengths are given. -/
def lengthOrder : List Nat :=
  [16, 17, 18, 0, 8, 7, 9, 6, 10, 5, 11, 4, 12, 3, 13, 2, 14, 1, 15]

def numbers? (bits : Nat) (s : Source) : Nat → Option (List Nat × Source)
  | 0 => some ([], s)
  | n + 1 => do
    let (first, s) ← s.number? bits
    let (rest, s) ← numbers? bits s n
    some (first :: rest, s)

/-- Reads lengths in their own code until there are `count`. What has been read is kept in reverse. -/
def lengths? (code : PrefixCode) (count : Nat) : Nat → List Nat → Source → Option (List Nat × Source)
  | 0, _, _ => none
  | fuel + 1, read, s =>
    if count < read.length then none
    else if read.length = count then some (read.reverse, s)
    else do
      let (n, s) ← s.symbol? code
      if n < 16 then lengths? code count fuel (n :: read) s
      else
        let (value, least, bits) ←
          if n = 16 then read.head?.map fun last => (last, 3, 2)
          else if n = 17 then some (0, 3, 3)
          else some (0, 11, 7)
        let (more, s) ← s.number? bits
        lengths? code count fuel (List.replicate (least + more) value ++ read) s

/-- The most literal and length symbols, and the most distance symbols, that a block may use. -/
def maxLiterals : Nat := 286

def maxDistances : Nat := 30

/-- A code that is incomplete has one word at most. -/
def blockCode? (lengths : List Nat) : Option PrefixCode :=
  if PrefixCode.isComplete lengths || (PrefixCode.ordered lengths).length ≤ 1 then
    PrefixCode.ofLengths? lengths
  else none

def writtenCode? (s : Source) : Option (BlockCode × Source) := do
  let (literals, s) ← s.number? 5
  let (distances, s) ← s.number? 5
  let (words, s) ← s.number? 4
  let (literals, distances) := (literals + 257, distances + 1)
  if maxLiterals < literals || maxDistances < distances then none
  let (given, s) ← numbers? 3 s (words + 4)
  let wordLengths := (List.range lengthOrder.length).map fun n =>
    ((lengthOrder.zip given).lookup n).getD 0
  if !PrefixCode.isComplete wordLengths then none
  let code ← PrefixCode.ofLengths? wordLengths
  let (lengths, s) ← lengths? code (literals + distances) (literals + distances + 1) [] s
  let literalCode ← blockCode? (lengths.take literals)
  let distanceCode ← blockCode? (lengths.drop literals)
  some (⟨literalCode, distanceCode⟩, s)

/-- Repeats bytes that were put out `distance` bytes ago. -/
def repeatBytes (distance : Nat) : Nat → ByteArray → ByteArray
  | 0, out => out
  | n + 1, out => repeatBytes distance n (out.push (out.get! (out.size - distance)))

def endOfBlock : Nat := 256

/-- Reads a block's symbols up to its end. Each takes a bit at least. -/
def symbols? (code : BlockCode) : Nat → ByteArray → Source → Option (ByteArray × Source)
  | 0, _, _ => none
  | fuel + 1, out, s => do
    let (n, s) ← s.symbol? code.literals
    if n < endOfBlock then symbols? code fuel (out.push (UInt8.ofNat n)) s
    else if n = endOfBlock then some (out, s)
    else
      let (length, s) ← classValue? lengthClasses (n - endOfBlock - 1) s
      let (n, s) ← s.symbol? code.distances
      let (distance, s) ← classValue? distanceClasses n s
      if out.size < distance then none
      else symbols? code fuel (repeatBytes distance length out) s

/-- A stored block tells its length twice, the second time with all bits flipped. -/
def stored? (out : ByteArray) (s : Source) : Option (ByteArray × Source) := do
  let s := s.align
  let (length, s) ← s.number? 16
  let (flipped, s) ← s.number? 16
  let start := s.position / 8
  if length + flipped ≠ 0xFFFF || s.bytes.size < start + length then none
  else some (out ++ s.bytes.extract start (start + length),
    { s with position := s.position + 8 * length })

def block? (kind fuel : Nat) (out : ByteArray) (s : Source) : Option (ByteArray × Source) :=
  match kind with
  | 0 => stored? out s
  | 1 => do
    let code ← fixedCode?
    symbols? code fuel out s
  | 2 => do
    let (code, s) ← writtenCode? s
    symbols? code fuel out s
  | _ => none

def blocks? (bits : Nat) : Nat → ByteArray → Source → Option ByteArray
  | 0, _, _ => none
  | fuel + 1, out, s => do
    let (last, s) ← s.number? 1
    let (kind, s) ← s.number? 2
    let (out, s) ← block? kind (bits + 1) out s
    if last = 1 then some out else blocks? bits fuel out s

/-- The unpacked data; nothing if it is damaged or cut off. Empty data unpacks to nothing at all. -/
def inflate? (bytes : ByteArray) : Option ByteArray :=
  if bytes.isEmpty then some ByteArray.empty
  else blocks? (8 * bytes.size) (8 * bytes.size + 1) ByteArray.empty { bytes }

end Longbox.Zip.Deflate
