import Longbox.Download.Fetcher
import Longbox.Download.Store

/-! A download in progress: one chapter after the other, and the pages on their way to the disk. -/
namespace Longbox

inductive ChapterStage where
  /-- The addresses of the pages have been asked for. -/
  | resolving
  | placing (urls : List String)
  /-- The metadata is being written. -/
  | describing (urls : List String)
  | fetching (pages : PageFetcher)
  /-- A short chapter is followed by a pause up to this instant. -/
  | pausing (instant : Nat)
  deriving DecidableEq

structure ChapterRun where
  chapter : Chapter
  dir : String
  /-- The instant at which the chapter began. -/
  began : Nat
  stage : ChapterStage := .resolving
  deriving DecidableEq

/-- What the timer loads for a report. -/
inductive Load where
  | lifecycle
  | counter (g : Gauge)
  /-- The images once more, for the speed. -/
  | sample
  deriving DecidableEq, Repr

/-- A report that the timer has asked for, as far as it has been put together.

The timer works beside the run and loads one thing at a time while the run goes on counting. Nothing
orders its loads but that the sample comes after the images: what a load finds may be older or newer
than what the one before it found. -/
structure Reading where
  /-- The time since the last such report. -/
  elapsed : Nat
  lifecycle : Option Lifecycle := none
  loaded : List (Gauge × Nat) := []
  sample : Option Nat := none
  speed : Option Nat := none
  deriving DecidableEq

namespace Reading

def value? (r : Reading) (g : Gauge) : Option Nat :=
  r.loaded.lookup g

/-- The speed is still to be worked out. -/
def asksSpeed (r : Reading) : Bool :=
  r.speed.isNone && r.lifecycle.any fun l => l ≠ .cleanup

/-- The reading with what is loaded while the session is in a stage and has counted so far. -/
def load? (r : Reading) (l : Lifecycle) (c : Counters) : Load → Option Reading
  | .lifecycle => if r.lifecycle.isNone then some { r with lifecycle := l } else none
  | .counter g =>
    if (r.value? g).isNone then some { r with loaded := (g, c.gauge g) :: r.loaded } else none
  | .sample =>
    if (r.value? .images).isSome && r.sample.isNone then some { r with sample := c.images } else none

/-- There is no speed once the session cleans up. -/
def speed? (r : Reading) : Option Nat := do
  if (← r.lifecycle) = .cleanup then some 0 else r.speed

/-- The report, when all of it is there. -/
def event? (r : Reading) (id : String) (planned : Nat) : Option Event := do
  let chapters ← r.value? .chapters
  let images ← r.value? .images
  let pages ← r.value? .pages
  let speed ← r.speed?
  some (.progress id (Single.percent chapters planned) speed images pages)

end Reading

/-- There is no current chapter when all are through or the download is over. -/
structure Download where
  /-- The token of the run. -/
  token : Nat
  planned : Nat
  remaining : List Chapter
  current : Option ChapterRun := none
  store : PageStore
  /-- The instant of the last report that the timer asked for. -/
  reported : Nat
  /-- The report that the timer is putting together. -/
  reading : Option Reading := none
  deriving DecidableEq

namespace Download

/-- Chapters of fewer pages are followed by a pause. -/
def smallChapterPages : Nat := 5

def nanosPerSecond : Nat := 1000000000

def smallChapterPause : Nat := nanosPerSecond

/-- For each page that is fetched at once, two are queued and two committed. -/
def storeSlots (workers : Nat) : Nat :=
  workers * 2

/-- Pages per second, to the nearest whole number. -/
def speed (pages elapsed : Nat) : Nat :=
  if elapsed = 0 then 0 else (2 * pages * nanosPerSecond + elapsed) / (2 * elapsed)

end Download
end Longbox
