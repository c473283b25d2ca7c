import Longbox.Naming
import Longbox.Plan

/-! Planning a download against the archives that exist.

A chapter is skipped if an archive of its whole volume exists, if an archive has its name, or if one
carries its volume and chapter; an archive or a chapter without a volume goes with any. Of a chapter
with a volume the volume recorded inside the archive is read, and if it is another one, the chapter
is downloaded anew and the archive superseded. -/
namespace Longbox

structure Planner where
  naming : Naming
  existing : List Archive
  /-- The volume recorded inside an archive; nothing if it cannot be read. -/
  embeddedVolume : Archive → Option String
  skipVolumeWithoutChapter : Bool := false

/-- What is decided about a chapter. -/
inductive Decision where
  | skip
  | download
  /-- Download, in place of the archive at the path. -/
  | replace (path : String)
  deriving DecidableEq, Repr

namespace Planner

def byName? (p : Planner) (name : String) : Option Archive :=
  p.existing.find? fun a => a.name == name

/-- The archive carries these trimmed markers. -/
def carries (volume chapter : String) (a : Archive) : Bool :=
  a.chapter == chapter && (a.volume == volume || a.volume.isEmpty || volume.isEmpty)

def byMarkers? (p : Planner) (volume chapter : String) : Option Archive :=
  p.existing.find? (carries (Marker.trim volume) (Marker.trim chapter))

/-- A whole-volume archive covers the chapter. -/
def hasVolumeArchive (p : Planner) (c : Chapter) : Bool :=
  !c.volume.isEmpty && (p.byName? (Archive.Name.ofStem (p.naming.volumeDir c.volume))).isSome

/-- The archive that holds the chapter: the one with its name, or one with its markers. -/
def archiveOf? (p : Planner) (c : Chapter) : Option Archive :=
  match p.byName? (Archive.Name.ofStem (p.naming.contentName c)) with
  | some a => some a
  | none => if c.isOneShot then none else p.byMarkers? c.volume c.number

def decide (p : Planner) (c : Chapter) : Decision :=
  if p.hasVolumeArchive c then .skip
  else match p.archiveOf? c with
    | none =>
      if p.skipVolumeWithoutChapter && !c.volume.isEmpty && c.isOneShot then .skip else .download
    | some a =>
      if c.volume.isEmpty then .skip
      else match p.embeddedVolume a with
        | none => .skip
        | some recorded =>
          if Marker.trim recorded == Marker.trim c.volume then .skip else .replace a.path

/-- Takes a chapter into the plan. -/
def extend (p : Planner) (plan : Plan) (c : Chapter) : Plan :=
  match p.decide c with
  | .skip => plan
  | .download => { plan with toDownload := plan.toDownload ++ [c] }
  | .replace path =>
    { plan with
      toDownload := plan.toDownload ++ [c]
      toRemove := plan.toRemove ++ [path]
      replacedBy := Plan.setReplacement path c.id plan.replacedBy }

def plan (p : Planner) (catalog : List Chapter) : Plan :=
  catalog.foldl p.extend { existing := p.existing }

end Planner
end Longbox
