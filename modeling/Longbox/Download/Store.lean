import Longbox.Page

/-! The pages of a download on their way to the disk.

Fetched pages wait in a queue of bounded length and are committed several at a time. The store ends
when the queue is closed and empty, or it stops when the download is cancelled; commits that have
begun are finished either way. The first failure of the download is kept here; it cancels the
download. -/
namespace Longbox

structure PageStore where
  /-- The most pages in the queue, and the most commits at once. -/
  slots : Nat
  queue : List FetchedPage := []
  inFlight : List FetchedPage := []
  /-- No page will be queued any more. -/
  isClosed : Bool := false
  /-- No page will be taken from the queue any more. -/
  hasStopped : Bool := false
  failure : Option Error := none
  deriving DecidableEq

namespace PageStore

/-- The first failure is kept; being cancelled is none. -/
def report (s : PageStore) (e : Error) : PageStore :=
  if e.isCancelled || s.failure.isSome then s else { s with failure := some e }

/-- Whether work is to stop, the download being cancelled from outside or by a failure. -/
def isCancelled (s : PageStore) (cancelled : Bool) : Bool :=
  cancelled || s.failure.isSome

def hasRoom (s : PageStore) : Bool :=
  !s.hasStopped && decide (s.queue.length < s.slots)

def push? (s : PageStore) (page : FetchedPage) : Option PageStore :=
  if s.hasRoom && !s.isClosed then some { s with queue := s.queue ++ [page] } else none

/-- Takes the next page, which is committed unless the download is cancelled. -/
def begin? (s : PageStore) (cancelled : Bool) : Option (PageStore × Option FetchedPage) :=
  if s.hasStopped || decide (s.slots ≤ s.inFlight.length) then none
  else match s.queue with
    | [] => none
    | page :: rest =>
      if s.isCancelled cancelled then some ({ s with queue := rest }, none)
      else some ({ s with queue := rest, inFlight := s.inFlight ++ [page] }, some page)

/-- Ends a commit. -/
def finish? (s : PageStore) (index : Nat) (result : Except Error Unit) : Option PageStore :=
  if index < s.inFlight.length then
    let s := { s with inFlight := s.inFlight.eraseIdx index }
    match result with
    | .ok () => some s
    | .error e => some (s.report e)
  else none

/-- Drops what is queued. -/
def stop? (s : PageStore) (cancelled : Bool) : Option PageStore :=
  if s.isCancelled cancelled then some { s with hasStopped := true, queue := [] } else none

def close (s : PageStore) : PageStore :=
  { s with isClosed := true }

/-- Nothing is left to commit and nothing will come. -/
def isDone (s : PageStore) : Bool :=
  (s.hasStopped || (s.isClosed && s.queue.isEmpty)) && s.inFlight.isEmpty

end PageStore
end Longbox
