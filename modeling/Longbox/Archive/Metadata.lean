import Longbox.Error
import Longbox.Path
import Longbox.Xml
import Longbox.Zip

/-! The volume that an archive records about itself.

It stands in the element `Volume` of the entry `ComicInfo.xml`, in whatever directory of the archive
and in whatever case of letters. Every entry in front of that one must be an entry that can be
opened, as the entries are opened one after the other. -/
namespace Longbox

/-- Blank characters, the Unicode property White_Space. -/
def Text.isBlank (c : Char) : Bool :=
  let n := c.toNat
  (decide (0x9 ≤ n) && decide (n ≤ 0xD)) || n == 0x20 || n == 0x85 || n == 0xA0 || n == 0x1680 ||
    (decide (0x2000 ≤ n) && decide (n ≤ 0x200A)) || n == 0x2028 || n == 0x2029 || n == 0x202F ||
    n == 0x205F || n == 0x3000

/-- The text without the blanks at its two ends. -/
def Text.trimBlank (cs : List Char) : List Char :=
  ((cs.dropWhile Text.isBlank).reverse.dropWhile Text.isBlank).reverse

namespace Archive.Metadata

def entryName : List Char := "comicinfo.xml".toList

def volumeKey : List Char := "Volume".toList

def isMetadata (e : Zip.Entry) : Bool :=
  match Path.fileNameChars? e.name with
  | some name => name.map Char.toLower == entryName
  | none => false

def volumeOf (document : String) : Except Error String :=
  match Xml.childText? volumeKey document.toList with
  | some text => .ok (String.ofList (Text.trimBlank text))
  | none => .error .xml

/-- The volume recorded in the first metadata entry; empty if there is none. -/
def volumeAmong (bytes : ByteArray) : List Zip.Entry → Except Error String
  | [] => .ok ""
  | e :: rest =>
    match e.dataStart? bytes with
    | none => .error .archive
    | some start =>
      if isMetadata e then
        match e.text bytes start with
        | .ok document => volumeOf document
        | .error fault => .error (.io fault)
      else volumeAmong bytes rest

def volume (bytes : ByteArray) : Except Error String :=
  match Zip.entries? bytes with
  | some entries => volumeAmong bytes entries
  | none => .error .archive

/-- The volume recorded in the archive at a path. A directory is no archive. -/
def volumeAt (d : Disk) (path : String) : Except Error String :=
  match d.read path with
  | .ok bytes => volume bytes
  | .error .isADirectory => .error .archive
  | .error fault => .error (.io fault)

end Archive.Metadata
end Longbox
