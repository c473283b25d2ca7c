import Longbox.RateLimiter
import Longbox.Session.Journal

/-! Fetching the pages of a chapter.

Pages are fetched by a few slots at once, each fetch with a permit of the chapter's rate limiter.
Pages that fail are fetched once more when all others are through. A page that fails again is the
chapter's failure, with which all work on the chapter stops. -/
namespace Longbox

inductive SlotStage where
  /-- Asks for a permit, at this instant at the earliest. -/
  | waiting (instant : Nat)
  | fetching
  /-- Waits for room in the queue. -/
  | queueing (bytes : ByteArray)
  deriving DecidableEq

structure Slot where
  task : PageTask
  stage : SlotStage
  deriving DecidableEq

structure PageFetcher where
  dir : String
  pages : Nat
  workers : Nat
  limiter : RateLimiter
  isRetry : Bool := false
  /-- Pages that no slot has taken yet. -/
  pending : List PageTask
  slots : List Slot := []
  /-- Pages to fetch once more, in the order of their failures. -/
  failed : List PageTask := []
  failure : Option Error := none
  deriving DecidableEq

namespace PageFetcher

/-- The pages at these addresses, counted from one. -/
def tasks (urls : List String) : List PageTask :=
  urls.zipIdx.map fun (url, i) => ⟨i + 1, url⟩

/-- As many fetches may begin at once, and in any second after that, as there are slots. -/
def ofUrls (dir : String) (urls : List String) (workers now : Nat) : PageFetcher where
  dir := dir
  pages := urls.length
  workers := workers
  limiter := { RateLimiter.ofRate workers workers with lastRefill := now }
  pending := tasks urls

/-- Work is to stop, the download being cancelled or the chapter having failed. -/
def isStopped (f : PageFetcher) (cancelled : Bool) : Bool :=
  cancelled || f.failure.isSome

/-- A slot takes the next page; when work is to stop, the page is dropped. -/
def take? (f : PageFetcher) (cancelled : Bool) (now : Nat) : Option PageFetcher :=
  if f.workers ≤ f.slots.length then none
  else match f.pending with
    | [] => none
    | task :: rest =>
      if f.isStopped cancelled then some { f with pending := rest }
      else some { f with pending := rest, slots := f.slots ++ [⟨task, .waiting now⟩] }

def free (f : PageFetcher) (index : Nat) : PageFetcher :=
  { f with slots := f.slots.eraseIdx index }

def setStage (f : PageFetcher) (index : Nat) (task : PageTask) (stage : SlotStage) : PageFetcher :=
  { f with slots := f.slots.set index ⟨task, stage⟩ }

/-- A slot asks for a permit and begins to fetch with it, or waits on. -/
def request? (f : PageFetcher) (cancelled : Bool) (now index : Nat) :
    Option (PageFetcher × List Happening) :=
  match f.slots[index]? with
  | some ⟨task, .waiting instant⟩ =>
    if f.isStopped cancelled then some (f.free index, [])
    else if now < instant then none
    else match f.limiter.tryAcquire now with
      | (true, limiter) =>
        some ({ f with limiter }.setStage index task .fetching, [.fetchBegun f.dir task])
      | (false, limiter) =>
        let instant := now + limiter.waitMillis * RateLimiter.nanosPerMilli
        some ({ f with limiter }.setStage index task (.waiting instant), [])
  | _ => none

/-- A fetch ends. -/
def receive? (f : PageFetcher) (index : Nat) (result : Except Error ByteArray) :
    Option (PageFetcher × List Happening) :=
  match f.slots[index]? with
  | some ⟨task, .fetching⟩ =>
    let happened := [Happening.fetchEnded f.dir task f.isRetry result]
    match result with
    | .ok bytes => some (f.setStage index task (.queueing bytes), happened)
    | .error e =>
      let f := f.free index
      if e.isCancelled then some (f, happened)
      else if f.isRetry then
        let failure := Error.download (.pageFailed task.index task.url e.message)
        some ({ f with failure := f.failure.or (some failure) }, happened)
      else some ({ f with failed := f.failed ++ [task] }, happened)
  | _ => none

/-- The page of a slot that waits for room in the queue, and the fetcher without it. -/
def handOver? (f : PageFetcher) (index : Nat) : Option (PageFetcher × FetchedPage) :=
  match f.slots[index]? with
  | some ⟨task, .queueing bytes⟩ => some (f.free index, ⟨f.dir, task, bytes⟩)
  | _ => none

/-- A fetched page is dropped when work is to stop. -/
def drop? (f : PageFetcher) (cancelled : Bool) (index : Nat) : Option PageFetcher :=
  if f.isStopped cancelled then (f.handOver? index).map (·.1) else none

/-- All pages of the pass are through. -/
def isPassOver (f : PageFetcher) : Bool :=
  f.pending.isEmpty && f.slots.isEmpty

/-- The second pass, if there is one. -/
def retry? (f : PageFetcher) (cancelled : Bool) : Option PageFetcher :=
  if f.isRetry || f.failed.isEmpty || f.isStopped cancelled then none
  else some { f with isRetry := true, pending := f.failed, failed := [] }

/-- How fetching ends. -/
def result (f : PageFetcher) (cancelled : Bool) : Except Error Unit :=
  match f.failure with
  | some e => .error e
  | none => if cancelled then .error .cancelled else .ok ()

end PageFetcher
end Longbox
