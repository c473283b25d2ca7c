import Longbox.Marker
import Longbox.Path
import Longbox.Text.Digit
import Longbox.Text.Pattern

/-! The markers that the name of an archive carries.

A name that ends in ` Vol. 2 Ch. 0010.cbz` carries a volume and a chapter, one that ends in
` Ch. 0010.cbz` a chapter, one that ends in ` Vol. 2.cbz` a volume. They are told by three patterns, tried
in this order. The numerals are runs of decimal digits of any script and dots. Every other name with the
extension `cbz`, in any mixture of capitals and small letters, is an archive without markers. -/
namespace Longbox.Archive

/-- The volume and the chapter that a name carries; an absent marker is empty. -/
structure Markers where
  volume : String
  chapter : String
  deriving DecidableEq, Repr

namespace Name

def extensionText : List Char := ['c', 'b', 'z']

def volumeLabel : List Char := " Vol. ".toList

def chapterLabel : List Char := " Ch. ".toList

def isRunChar (c : Char) : Bool :=
  Text.isDecimalDigit c || c == '.'

/-- A label and the run behind it, in a pattern. -/
def labelledRun (label : List Char) : List Text.Piece :=
  [.text label, .captured isRunChar]

/-- Labelled runs at the end of a name. What stands in front of them in their line is passed over. -/
def ending (runs : List Text.Piece) : List Text.Piece :=
  .many (· != '\n') :: (runs ++ [.text ('.' :: extensionText)])

def volumeAndChapter : List Text.Piece :=
  ending (labelledRun volumeLabel ++ labelledRun chapterLabel)

def chapterOnly : List Text.Piece :=
  ending (labelledRun chapterLabel)

def volumeOnly : List Text.Piece :=
  ending (labelledRun volumeLabel)

/-- Reads the labelled numerals at the end of a name. -/
def labelled? (name : List Char) : Option (List Char × List Char) :=
  match Text.Piece.search? volumeAndChapter name with
  | some [volume, chapter] => some (volume, chapter)
  | _ =>
    match Text.Piece.search? chapterOnly name with
    | some [chapter] => some ([], chapter)
    | _ =>
      match Text.Piece.search? volumeOnly name with
      | some [volume] => some (volume, [])
      | _ => none

/-- The extension of the name is `cbz`, whatever the case of its letters. -/
def isArchive (name : List Char) : Bool :=
  match Path.extensionChars? name with
  | some extension => extension.map Char.toLower == extensionText
  | none => false

def markersChars? (name : List Char) : Option (List Char × List Char) :=
  match labelled? name with
  | some (volume, chapter) => some (Marker.trimChars volume, Marker.trimChars chapter)
  | none => if isArchive name then some ([], []) else none

/-- The markers of an archive's name; nothing for a name that is not an archive's. -/
def markers? (name : String) : Option Markers :=
  (markersChars? name.toList).map fun (volume, chapter) =>
    ⟨String.ofList volume, String.ofList chapter⟩

/-- The name of the archive that holds what is called `stem`. -/
def ofStem (stem : String) : String :=
  stem ++ ".cbz"

end Name
end Longbox.Archive
