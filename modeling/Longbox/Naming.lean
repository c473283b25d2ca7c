import Longbox.Chapter
import Longbox.Config
import Longbox.Marker
import Longbox.Path

/-! Where the chapters of a series live and what they are called.

A chapter `5` of volume `2` is `Title/Title Vol. 2/Title Ch. 0005` below the library root. Its name
takes the volume in (`Title Vol. 2 Ch. 0005`) when there are no volume directories or when the
catalog counts chapters anew in some volume, so that no two chapters share a name. -/
namespace Longbox

structure Naming where
  root : String
  title : String
  disableVolumeDirs : Bool
  disableOneShotSuffix : Bool
  repeatsNumbers : Bool
  deriving DecidableEq, Repr

namespace Naming

/-- The number of digits in the whole part of a chapter in a name. -/
def chapterWidth : Nat := 4

def ofConfig (config : DownloadConfig) (title : String) : Naming where
  root := config.downloadDir
  title := title
  disableVolumeDirs := config.disableVolumeDirs
  disableOneShotSuffix := config.disableOneShotSuffix
  repeatsNumbers := false

/-- Some element occurs twice. -/
def hasRepeat : List String → Bool
  | [] => false
  | x :: xs => xs.contains x || hasRepeat xs

/-- Takes note of whether the catalog uses a chapter marker twice. -/
def withCatalog (n : Naming) (catalog : List Chapter) : Naming :=
  { n with repeatsNumbers := hasRepeat (catalog.map Chapter.number) }

def seriesDir (n : Naming) : String :=
  Path.join n.root n.title

def volumeDir (n : Naming) (volume : String) : String :=
  n.title ++ " Vol. " ++ volume

/-- Names of chapters carry the volume. -/
def includesVolume (n : Naming) : Bool :=
  n.disableVolumeDirs || n.repeatsNumbers

/-- The chapter marker as a name shows it: padded if it is a numeral, else as it is. -/
def paddedNumber (number : String) : String :=
  (Marker.pad? number chapterWidth).getD number

def oneShotName (n : Naming) (c : Chapter) : String :=
  n.title ++ " " ++ c.title ++ if n.disableOneShotSuffix then "" else " (One Shot)"

def chapterName (n : Naming) (c : Chapter) : String :=
  n.title ++ (if !c.volume.isEmpty && n.includesVolume then " Vol. " ++ c.volume else "") ++
    " Ch. " ++ paddedNumber c.number

/-- The name of a chapter's directory, which is also its archive's name up to the extension. -/
def contentName (n : Naming) (c : Chapter) : String :=
  if c.isOneShot then n.oneShotName c else n.chapterName c

/-- The directory that a chapter is named in: the volume's, or the series' own. -/
def parentDir (n : Naming) (c : Chapter) : String :=
  if !c.volume.isEmpty && !n.disableVolumeDirs then Path.join n.seriesDir (n.volumeDir c.volume)
  else n.seriesDir

def contentPath (n : Naming) (c : Chapter) : String :=
  Path.join (n.parentDir c) (n.contentName c)

end Naming
end Longbox
