import Longbox.Plan.Planner
import Longbox.Session.Journal

/-! A download session of one series.

A session is prepared, which plans the download, and then run once. This module has its state and
what its operations do to it by themselves; `Session.Machine` has how they go on while collaborators
are asked. -/
namespace Longbox

/-- What is to be downloaded, and how. -/
structure Request where
  /-- The id of the series, which is that of the session too. -/
  id : String
  title : String
  catalog : List Chapter
  config : Config := {}
  /-- A prepared session is ready to run, and else waits for a selection. -/
  startImmediately : Bool := true
  skipVolumeWithoutChapter : Bool := false
  /-- There is someone to ask for tag preferences. -/
  asksPreferences : Bool := false
  deriving DecidableEq, Repr

structure Session where
  request : Request
  lifecycle : Lifecycle := .queued
  counters : Counters := {}
  /-- The pages that the last report counted. -/
  sampled : Nat := 0
  plan : Plan := {}
  naming : Naming
  mapper : TagMapper := {}
  selection : List String := []
  /-- The token of the latest run, by its number. -/
  token : Option Nat := none
  cancelRequested : Bool := false
  outcome : Option Outcome := none
  isPrepared : Bool := false
  deriving DecidableEq, Repr

namespace Session

def ofRequest (request : Request) : Session where
  request := request
  naming := Naming.ofConfig request.config.download request.title

/-- A selection can be made between preparing and running. -/
def acceptsSelection (s : Session) : Bool :=
  s.lifecycle == .waiting || s.lifecycle == .ready

def isRunning (s : Session) : Bool :=
  s.lifecycle == .downloading || s.lifecycle == .cleanup

/-- The mapper of loaded preferences, or of none. -/
def mapperOf (s : Session) (preferences : Option TagPreferences) : TagMapper where
  preferences := preferences
  includeUnmatched := s.request.config.tags.includeUnmatched
  skipOnFailure := s.request.config.tags.skipTagsOnFailure

def catalogNaming (s : Session) : Naming :=
  (Naming.ofConfig s.request.config.download s.request.title).withCatalog s.request.catalog

/-- Plans against what is on the disk; the volumes recorded in archives are read by `volumes`. -/
def planned (s : Session) (d : Disk) (volumes : Archive → Option String) : Session :=
  let naming := s.catalogNaming
  let planner : Planner := {
    naming
    existing := Shelf.scan d naming.seriesDir Archive.Name.markers?
    embeddedVolume := volumes
    skipVolumeWithoutChapter := s.request.skipVolumeWithoutChapter }
  { s with naming, plan := planner.plan s.request.catalog, isPrepared := true }

/-- The stage of a session with a plan. -/
def plannedLifecycle (s : Session) : Lifecycle :=
  if s.request.startImmediately then .ready else .waiting

/-- Applies the selection, which is then used up. -/
def selected (s : Session) : Session :=
  { s with plan := s.plan.select s.selection, selection := [] }

def addDirectory (s : Session) (path : String) : Session :=
  { s with plan := { s.plan with hasDownloaded := s.plan.hasDownloaded ++ [path] } }

/-- The counters follow the happenings; a new chapter has nothing sampled. -/
def note (s : Session) (h : Happening) : Session :=
  { s with
    counters := s.counters.note h
    sampled := match h with
      | .fetchingBegun .. => 0
      | _ => s.sampled }

end Session
end Longbox
