/-! The directory of a zip archive.

An archive ends in a record that says where its directory is; the directory has a header for each
entry. Positions in an archive count from where it begins, which need not be where the file begins:
junk may stand in front, and how much of it follows from where the end record was found. -/
namespace Longbox.Zip

/-- A number of `n` bytes at a position, the least significant byte first. -/
def field? (bytes : ByteArray) (position : Nat) : Nat → Option Nat
  | 0 => some 0
  | n + 1 =>
    if h : position < bytes.size then
      (field? bytes (position + 1) n).map fun more => 256 * more + bytes[position].toNat
    else none

/-- Fields of the given widths one behind the other. -/
def fields? (bytes : ByteArray) (position : Nat) : List Nat → Option (List Nat)
  | [] => some []
  | width :: widths => do
    let first ← field? bytes position width
    let rest ← fields? bytes (position + width) widths
    some (first :: rest)

def slice? (bytes : ByteArray) (position length : Nat) : Option ByteArray :=
  if position + length ≤ bytes.size then some (bytes.extract position (position + length)) else none

def endSignature : Nat := 0x06054b50

def wideEndSignature : Nat := 0x06064b50

def wideLocatorSignature : Nat := 0x07064b50

def headerSignature : Nat := 0x02014b50

/-- The greatest words of two and four bytes say that the number stands elsewhere. -/
def elsewhere2 : Nat := 0xFFFF

def elsewhere4 : Nat := 0xFFFFFFFF

structure EndRecord where
  position : Nat
  disk : Nat
  directoryDisk : Nat
  entriesOnDisk : Nat
  entries : Nat
  directorySize : Nat
  directoryOffset : Nat
  commentLength : Nat

namespace EndRecord

def size : Nat := 22

def at? (bytes : ByteArray) (position : Nat) : Option EndRecord := do
  match ← fields? bytes (position + 4) [2, 2, 2, 2, 4, 4, 2] with
  | [disk, directoryDisk, entriesOnDisk, entries, directorySize, directoryOffset, commentLength] =>
    let _ ← slice? bytes (position + size) commentLength
    some ⟨position, disk, directoryDisk, entriesOnDisk, entries, directorySize, directoryOffset,
      commentLength⟩
  | _ => none

/-- The last position, among `count` positions down from `position`, that a signature stands at. -/
def lastSignature? (bytes : ByteArray) (position : Nat) : Nat → Option Nat
  | 0 => none
  | count + 1 =>
    if field? bytes position 4 = some endSignature then some position
    else match position with
      | 0 => none
      | below + 1 => lastSignature? bytes below count

/-- The end record, which at most a comment follows. -/
def find? (bytes : ByteArray) : Option EndRecord :=
  if bytes.size < size then none
  else (lastSignature? bytes (bytes.size - size) (elsewhere2 + 1)).bind (at? bytes)

/-- Some number did not fit. -/
def isNarrow (r : EndRecord) : Bool :=
  r.disk == elsewhere2 || r.directoryDisk == elsewhere2 || r.entriesOnDisk == elsewhere2 ||
    r.entries == elsewhere2 || r.directorySize == elsewhere4 || r.directoryOffset == elsewhere4

end EndRecord

/-- Where the directory is, how far the archive is moved within the file, and how many entries there
are. -/
structure Layout where
  shift : Nat
  directory : Nat
  entries : Nat

/-- The first position from `position` up to `last` that the wide end record stands at. -/
def wideEnd? (bytes : ByteArray) (position : Nat) : Nat → Option Nat
  | 0 => none
  | count + 1 =>
    match field? bytes position 4 with
    | none => none
    | some n => if n = wideEndSignature then some position else wideEnd? bytes (position + 1) count

/-- The layout that the wide end record gives, which its locator points at. -/
def wideLayout? (bytes : ByteArray) (r : EndRecord) (locator : Nat) : Option Layout := do
  let directoryDisk ← field? bytes (locator + 4) 4
  let nominal ← field? bytes (locator + 8) 8
  if !r.isNarrow && r.disk != directoryDisk then none
  if r.position < 60 then none
  let found ← wideEnd? bytes nominal (r.position - 60 + 1 - nominal)
  match ← fields? bytes (found + 16) [4, 4, 8, 8, 8, 8] with
  | [disk, directoryDisk, _, entries, _, offset] =>
    if disk = directoryDisk then some ⟨found - nominal, offset + (found - nominal), entries⟩ else none
  | _ => none

def narrowLayout? (r : EndRecord) : Option Layout :=
  if r.position < r.directorySize + r.directoryOffset then none
  else some ⟨r.position - r.directorySize - r.directoryOffset, r.position - r.directorySize,
    r.entriesOnDisk⟩

/-- The length of the locator of a wide end record. -/
def locatorSize : Nat := 20

def layout? (bytes : ByteArray) : Option Layout := do
  let r ← EndRecord.find? bytes
  if !r.isNarrow && r.disk != r.directoryDisk then none
  let behind := locatorSize + EndRecord.size + r.commentLength
  if behind ≤ bytes.size &&
      field? bytes (bytes.size - behind) 4 == some wideLocatorSignature then
    wideLayout? bytes r (bytes.size - behind)
  else narrowLayout? r

structure Entry where
  /-- Letters outside ASCII stand for single bytes. -/
  name : List Char
  encrypted : Bool
  method : Nat
  checksum : Nat
  storedSize : Nat
  unpackedSize : Nat
  /-- Where the entry's own header is. -/
  header : Nat
  /-- Encryption fields hold the method. -/
  ciphered : Bool := false

namespace Entry

def wideFields : Nat := 0x0001

def encryptionFields : Nat := 0x9901

/-- A method that says to look for another one in the encryption fields. -/
def cipheredMethod : Nat := 99

/-- An entry in the course of reading its wide fields, and the next position unless they end early. -/
abbrev Widening := Entry × Option Nat

/-- Takes a number that did not fit in the header from the wide fields. -/
def widenField (bytes : ByteArray) (number : Entry → Nat) (set : Entry → Nat → Entry) :
    Widening → Widening
  | (e, none) => (e, none)
  | (e, some position) =>
    if number e ≠ elsewhere4 then (e, some position)
    else match field? bytes position 8 with
      | some n => (set e n, some (position + 8))
      | none => (e, none)

def widen (e : Entry) (bytes : ByteArray) (position : Nat) : Widening :=
  let unpacked := widenField bytes unpackedSize (fun e n => { e with unpackedSize := n })
  let stored := widenField bytes storedSize (fun e n => { e with storedSize := n })
  let header := widenField bytes header (fun e n => { e with header := n })
  header (stored (unpacked (e, some position)))

/-- The encryption fields name a known vendor, version and strength. -/
def unveil? (e : Entry) : List Nat → Option Entry
  | [version, vendor, strength, method] =>
    if vendor = 0x4541 ∧ (version = 1 ∨ version = 2) ∧ 1 ≤ strength ∧ strength ≤ 3 then
      some { e with method, ciphered := true }
    else none
  | _ => none

/-- Reads the extra fields of a header; nothing if the encryption fields are no such. Fields that are
cut off end the reading. -/
def addExtra? (extra : ByteArray) : Nat → Nat → Entry → Option Entry
  | 0, _, e => some e
  | fuel + 1, position, e =>
    match fields? extra position [2, 2] with
    | some [kind, length] =>
      let start := position + 4
      if kind = wideFields then
        match e.widen extra start with
        | (e, some stop) => addExtra? extra fuel (max stop (start + length)) e
        | (e, none) => some e
      else if kind = encryptionFields then
        if length ≠ 7 then none
        else match fields? extra start [2, 2, 1, 2] with
          | none => some e
          | some fields => (e.unveil? fields).bind (addExtra? extra fuel (start + 14))
      else addExtra? extra fuel (start + length) e
    | _ => some e

def isEncryptedFlag (flags : Nat) : Bool :=
  flags.testBit 0

/-- The entry whose header in the directory is at a position, and the position behind the header. -/
def at? (bytes : ByteArray) (shift position : Nat) : Option (Entry × Nat) := do
  match ← fields? bytes position [4, 2, 2, 2, 2, 2, 2, 4, 4, 4, 2, 2, 2, 2, 2, 4, 4] with
  | [signature, _, _, flags, method, _, _, checksum, storedSize, unpackedSize, nameLength,
      extraLength, commentLength, _, _, _, header] =>
    if signature ≠ headerSignature then none
    let name ← slice? bytes (position + 46) nameLength
    let extra ← slice? bytes (position + 46 + nameLength) extraLength
    let _ ← slice? bytes (position + 46 + nameLength + extraLength) commentLength
    let e : Entry := {
      name := name.toList.map fun b => Char.ofNat b.toNat
      encrypted := isEncryptedFlag flags
      method, checksum, storedSize, unpackedSize, header }
    let e ← e.addExtra? extra (extraLength + 1) 0
    if e.method = cipheredMethod && !e.ciphered then none
    some ({ e with header := e.header + shift },
      position + 46 + nameLength + extraLength + commentLength)
  | _ => none

def all? (bytes : ByteArray) (shift : Nat) : Nat → Nat → Option (List Entry)
  | 0, _ => some []
  | count + 1, position => do
    let (e, position) ← at? bytes shift position
    let rest ← all? bytes shift count position
    some (e :: rest)

end Entry

/-- The entries of an archive in the order of its directory. -/
def entries? (bytes : ByteArray) : Option (List Entry) := do
  let layout ← layout? bytes
  Entry.all? bytes layout.shift layout.entries layout.directory

end Longbox.Zip
