import Longbox.Disk
import Longbox.Zip.Deflate
import Longbox.Zip.Directory

/-! Entries of a zip archive and what they contain.

An archive keeps a cyclic redundancy check of 32 bits of each entry. -/
namespace Longbox.Zip
namespace Checksum

/-- The generator, its bits in reverse. -/
def generator : UInt32 := 0xEDB88320

/-- One bit leaves the remainder. -/
def shift (c : UInt32) : UInt32 :=
  if c &&& 1 == 1 then (c >>> 1) ^^^ generator else c >>> 1

def shifts : Nat → UInt32 → UInt32
  | 0, c => c
  | n + 1, c => shifts n (shift c)

def addByte (c : UInt32) (byte : UInt8) : UInt32 :=
  shifts 8 (c ^^^ byte.toUInt32)

def crc32 (bytes : ByteArray) : UInt32 :=
  bytes.foldl addByte 0xFFFFFFFF ^^^ 0xFFFFFFFF

end Checksum

namespace Entry

def localSignature : Nat := 0x04034b50

def stored : Nat := 0

def deflated : Nat := 8

/-- The methods of entries that can be opened. Of these, only stored and deflated data is unpacked. -/
def knownMethods : List Nat := [stored, deflated, 12, 93, cipheredMethod]

/-- Where an entry's data begins, if the entry can be opened: it is not encrypted, its own header is
where the directory says, and its method is known. -/
def dataStart? (e : Entry) (bytes : ByteArray) : Option Nat := do
  if e.encrypted || e.ciphered then none
  let signature ← field? bytes e.header 4
  if signature ≠ localSignature then none
  match ← fields? bytes (e.header + 26) [2, 2] with
  | [nameLength, extraLength] =>
    if knownMethods.contains e.method then some (e.header + 30 + nameLength + extraLength) else none
  | _ => none

/-- Data that the file ends in the middle of is taken as far as it goes. -/
def data (e : Entry) (bytes : ByteArray) (start : Nat) : ByteArray :=
  bytes.extract start (min bytes.size (start + e.storedSize))

def unpack (e : Entry) (data : ByteArray) : Except Fault ByteArray :=
  if e.method = stored then .ok data
  else match if e.method = deflated then Deflate.inflate? data else none with
    | some unpacked => .ok unpacked
    | none => .error .damagedData

/-- The text of an entry whose data begins at `start`. -/
def text (e : Entry) (bytes : ByteArray) (start : Nat) : Except Fault String := do
  let unpacked ← e.unpack (e.data bytes start)
  if (Checksum.crc32 unpacked).toNat ≠ e.checksum then .error .wrongChecksum
  else match String.fromUTF8? unpacked with
    | some text => .ok text
    | none => .error .invalidText

end Entry
end Longbox.Zip
