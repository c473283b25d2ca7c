import Longbox.Download.Store

/-! A store among those who use it.

Fetched pages arrive, their commits end in any order, other parts of the download fail, and the download may
be cancelled from outside: the steps of all of them make one course. Pages arrive whether or not there is room
in the queue, since its bound only leaves courses out. -/
namespace Longbox

namespace PageStore

/-- At least one page is committed at once. -/
def ofWorkers (workers : Nat) : PageStore where
  slots := max 1 workers

end PageStore

structure Depot where
  store : PageStore
  /-- The download is cancelled from outside. -/
  cancelled : Bool := false
  /-- The pages that have come, in that order. -/
  arrived : List FetchedPage := []
  /-- The pages that were handed over to be committed, in that order. -/
  begun : List FetchedPage := []
  /-- The pages whose commits have ended, in that order. -/
  ended : List FetchedPage := []
  /-- The errors of commits and of other parts of the download, in the order of their reports. -/
  reported : List Error := []
  deriving DecidableEq

namespace Depot

/-- The next thing that happens. -/
inductive Action where
  | arrive (page : FetchedPage)
  /-- No more pages will come. -/
  | close
  /-- The next page is taken from the queue. -/
  | begin
  | finish (index : Nat) (result : Except Error Unit)
  | stop
  /-- Another part of the download reports an error. -/
  | fail (e : Error)
  | cancel

/-- The store of a download, which may have failed already. -/
def ofWorkers (workers : Nat) (failure : Option Error) : Depot where
  store := { PageStore.ofWorkers workers with failure }

def isCancelled (d : Depot) : Bool :=
  d.store.isCancelled d.cancelled

/-- The error that a commit ends with. -/
def errors : Except Error Unit → List Error
  | .ok () => []
  | .error e => [e]

def step? (d : Depot) : Action → Option Depot
  | .arrive page =>
    if d.store.isClosed || d.store.hasStopped then none
    else some { d with
      store := { d.store with queue := d.store.queue ++ [page] }
      arrived := d.arrived ++ [page] }
  | .close => some { d with store := d.store.close }
  | .begin =>
    (d.store.begin? d.cancelled).map fun (store, page) =>
      { d with store, begun := d.begun ++ page.toList }
  | .finish index result => do
    let page ← d.store.inFlight[index]?
    let store ← d.store.finish? index result
    some { d with store, ended := d.ended ++ [page], reported := d.reported ++ errors result }
  | .stop => (d.store.stop? d.cancelled).map fun store => { d with store }
  | .fail e => some { d with store := d.store.report e, reported := d.reported ++ [e] }
  | .cancel => some { d with cancelled := true }

/-- The depot after a course of actions, if each of them can happen. -/
def run? (d : Depot) : List Action → Option Depot
  | [] => some d
  | a :: rest => (d.step? a).bind fun d => d.run? rest

end Depot
end Longbox
