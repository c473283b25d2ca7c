import Longbox.Chapter
import Longbox.Lifecycle
import Longbox.Number.Binary
import Longbox.Page
import Longbox.Tag.Mapper

/-! What happens in a session, what its listeners are told, and the counters that follow from it. -/
namespace Longbox

/-- Counters of a session as words. -/
structure SessionStats where
  contentDownloaded : UInt64 := 0
  imagesDownloaded : UInt64 := 0
  failedDownloads : UInt64 := 0
  totalChapterImages : UInt64 := 0
  deriving DecidableEq, Repr

/-- The first field of each event is the session's id. The speed is in pages per second. -/
inductive Event where
  | stateChanged (id : String) (state : Lifecycle)
  | progress (id : String) (percent : Single) (speed images total : Nat)
  | chapterCompleted (id chapterId : String)
  | downloadFailed (id title error : String)
  deriving DecidableEq, Repr

/-- How a session ended. -/
inductive Outcome where
  | completed (chapters : Nat)
  | nothingToDownload
  | cancelled
  | aborted (reason : String)
  deriving DecidableEq, Repr

/-- What an operation answers: a run its outcome, any other operation nothing. -/
abbrev CallResult := Except Error (Option Outcome)

/-- Collaborators are asked, and work on the disk is done, one thing after the other. -/
inductive Happening where
  | sent (event : Event)
  | preferencesAsked
  | catalogListed
  | urlsAsked (chapter : Chapter)
  | urlsGiven (chapter : Chapter) (urls : List String)
  | directoryMade (path : String)
  | metadataAsked (chapter : Chapter) (mapper : TagMapper)
  | fetchingBegun (dir : String) (pages : Nat)
  | fetchBegun (dir : String) (task : PageTask)
  | fetchEnded (dir : String) (task : PageTask) (isRetry : Bool) (result : Except Error ByteArray)
  | pageQueued (page : FetchedPage)
  | commitBegun (page : FetchedPage)
  /-- With the place of the page's file, if the page went to the disk. -/
  | commitEnded (page : FetchedPage) (result : Except Error (Option Place))
  | chapterDownloaded
  | rollbackBegun (cause : Error)
  /-- What stood at or below the place that a path led to is gone. -/
  | cleared (path : String) (place : Place)
  | removalFailed (path : String) (fault : Fault)
  | releaseAsked (id : String) (deleteFiles : Bool)
  /-- The timer of a download asks for a report of the progress. -/
  | ticked
  /-- Listeners are sent the report that the timer asked for. -/
  | timed (report : Event)
  | answered (call : Nat) (result : CallResult)

/-- Pages are counted anew for each chapter, chapters and failures for the whole session. -/
structure Counters where
  chapters : Nat := 0
  images : Nat := 0
  failures : Nat := 0
  /-- The pages of the current chapter. -/
  pages : Nat := 0
  deriving DecidableEq, Repr

/-- The counters that a report of the progress tells. -/
inductive Gauge where
  | chapters
  | images
  | pages
  deriving DecidableEq, Repr

namespace Counters

/-- A page counts when it is fetched, a failure when it is the first of its page. -/
def note (c : Counters) : Happening → Counters
  | .fetchingBegun _ pages => { c with images := 0, pages }
  | .fetchEnded _ _ isRetry result =>
    match result with
    | .ok _ => { c with images := c.images + 1 }
    | .error e => if isRetry || e.isCancelled then c else { c with failures := c.failures + 1 }
  | .chapterDownloaded => { c with chapters := c.chapters + 1 }
  | _ => c

/-- A counter that a report of the progress tells. -/
def gauge (c : Counters) : Gauge → Nat
  | .chapters => c.chapters
  | .images => c.images
  | .pages => c.pages

end Counters
end Longbox
