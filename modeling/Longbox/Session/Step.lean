import Longbox.Session.Machine

/-! The steps of a session among its collaborators.

An `Action` is something that can happen next: a call, an answer of a collaborator, a move of one of
the workers of a download, time that passes. `Machine.step?` says what it does, and nothing if it
cannot happen. Every order of actions is a possible course of a session. -/
namespace Longbox

/-- What commits pages: it writes them to the disk, or it keeps them in a way of its own. -/
inductive Keeper where
  | disk
  | other
  deriving DecidableEq, Repr

/-- What the timer does next. -/
inductive TimerStep where
  | tick
  | load (what : Load)
  /-- The sample is exchanged for the one before, which gives the speed. -/
  | swap
  | send

/-- Moves of a download. Slots and commits are given by their place in their lists. -/
inductive Move where
  | receiveUrls (result : Except Error (List String))
  | makeDirectory
  | endMetadata (result : Except Error Unit)
  | takePage
  | requestPermit (slot : Nat)
  | receivePage (slot : Nat) (result : Except Error ByteArray)
  | queuePage (slot : Nat)
  | dropPage (slot : Nat)
  | endPass
  /-- The pause after a short chapter is over. -/
  | goOn
  /-- The pause is cut short by being cancelled. -/
  | giveUp
  | beginCommit
  /-- A commit fails before it touches the disk, or keeps the page. -/
  | endCommit (index : Nat) (result : Except Error Keeper)
  | stopStore
  | timer (step : TimerStep)
  /-- All chapters and all pages are through, and no report is on its way. -/
  | finish

inductive Action where
  | call (op : Operation)
  | cancelParent (parent : Nat)
  | pass (nanos : Nat)
  | receivePreferences (call : Nat) (result : Except Error TagPreferences)
  /-- The disk is scanned, and the volumes that archives record are read. -/
  | plan (call : Nat) (volumes : Archive → Option String)
  | move (call : Nat) (m : Move)
  /-- The next directory of an aborted download is removed. -/
  | removeNext (call : Nat)
  | released (call : Nat) (result : Except Error Unit)

namespace Machine

/-- The disk after a commit, and how the commit ends: with the place of the page's file, if it has
one. -/
def commit (d : Disk) (page : FetchedPage) (result : Except Error Keeper) :
    Disk × Except Error (Option Place) :=
  match result with
  | .error e => (d, .error e)
  | .ok .other => (d, .ok none)
  | .ok .disk =>
    match Page.target d page with
    | .ok place => (d.put place (.file page.bytes), .ok (some place))
    | .error e => (d, .error e)

/-- A move of the pages that are being fetched. -/
def moveFetcher? (m : Machine) (id : Nat) (d : Download) (c : ChapterRun) (f : PageFetcher) :
    Move → Option Machine
  | .takePage =>
    (f.take? (m.isCancelled d.token) m.now).map fun f => m.setStage id d c (.fetching f)
  | .requestPermit slot =>
    (f.request? (m.isCancelled d.token) m.now slot).map fun (f, happened) =>
      (m.noteAll happened).setStage id d c (.fetching f)
  | .receivePage slot result =>
    (f.receive? slot result).map fun (f, happened) =>
      (m.noteAll happened).setStage id d c (.fetching f)
  | .queuePage slot => do
    let (f, page) ← f.handOver? slot
    let store ← d.store.push? page
    some ((m.note (.pageQueued page)).setStage id { d with store } c (.fetching f))
  | .dropPage slot =>
    (f.drop? (m.isCancelled d.token) slot).map fun f => m.setStage id d c (.fetching f)
  | .endPass => if f.isPassOver then some (m.endPass id d c f) else none
  | _ => none

/-- A move of the current chapter. -/
def moveChapter? (m : Machine) (id : Nat) (d : Download) (c : ChapterRun) (move : Move) :
    Option Machine :=
  match c.stage, move with
  | .resolving, .receiveUrls (.error e) => some (m.failChapter id d e)
  | .resolving, .receiveUrls (.ok urls) =>
    let m := m.note (.urlsGiven c.chapter urls)
    if urls.isEmpty then some (m.passChapter id d c false)
    else some (m.setStage id d c (.placing urls))
  | .placing urls, .makeDirectory => some (m.placeChapter id d c urls)
  | .describing urls, .endMetadata result =>
    match result with
    | .error .cancelled => some (m.failChapter id d .cancelled)
    | _ => some (m.fetchChapter id d c urls)
  | .fetching f, move => m.moveFetcher? id d c f move
  | .pausing instant, .goOn =>
    if instant ≤ m.now then some (m.passChapter id d c true) else none
  | .pausing _, .giveUp =>
    if m.isCancelled d.token then some (m.failChapter id d .cancelled) else none
  | _, _ => none

/-- A move of the pages on their way to the disk. -/
def moveStore? (m : Machine) (id : Nat) (d : Download) : Move → Option Machine
  | .beginCommit =>
    (d.store.begin? (m.isCancelled d.token)).map fun (store, page) =>
      (m.noteAll (page.map .commitBegun).toList).setStore id d store
  | .endCommit index result => do
    let page ← d.store.inFlight[index]?
    let (disk, result) := commit m.disk page result
    let store ← d.store.finish? index (result.map fun _ => ())
    some (({ m with disk }.note (.commitEnded page result)).setStore id d store)
  | .stopStore => (d.store.stop? (m.isCancelled d.token)).map (m.setStore id d)
  | _ => none

/-- A move of the timer, which reports the progress now and then. -/
def moveTimer? (m : Machine) (id : Nat) (d : Download) : TimerStep → Option Machine
  | .tick =>
    match d.reading with
    | none =>
      some ((m.note .ticked).setDownload id
        { d with reading := some { elapsed := m.now - d.reported } })
    | some _ => none
  | .load what => do
    let r ← d.reading
    let r ← r.load? m.session.lifecycle m.session.counters what
    some (m.setDownload id { d with reading := some r })
  | .swap => do
    let r ← d.reading
    let sample ← r.sample
    if r.asksSpeed then
      let speed := Download.speed (sample - m.session.sampled) r.elapsed
      some ({ m with session := { m.session with sampled := sample } }.setDownload id
        { d with reading := some { r with speed } })
    else none
  | .send => do
    let r ← d.reading
    let event ← r.event? m.session.request.id d.planned
    some ((m.note (.timed event)).setDownload id { d with reading := none, reported := m.now })

def moveDownload? (m : Machine) (id : Nat) (d : Download) (move : Move) : Option Machine :=
  match move with
  | .beginCommit | .endCommit .. | .stopStore => m.moveStore? id d move
  | .timer step => m.moveTimer? id d step
  | .finish =>
    if d.store.isClosed && d.store.isDone && d.reading.isNone then some (m.conclude id d) else none
  | _ =>
    match d.current with
    | some c => m.moveChapter? id d c move
    | none => none

/-- Removes the next directory, whether or not that works; then the client is asked. -/
def removeNext (m : Machine) (c : Call) (cause : Error) : List String → Machine
  | [] => m.release c.id c.token true (.failed cause)
  | path :: left =>
    let removal := m.disk.removeAll path
    let m := { m with disk := removal.disk }.noteAll
      ((removal.cleared.map (Happening.cleared path)).toList ++
        (removal.fault.map (Happening.removalFailed path)).toList)
    m.suspend { c with stage := .removing cause left }

/-- A step of a call that waits. -/
def stepCall? (m : Machine) (c : Call) : Action → Option Machine
  | .receivePreferences _ result =>
    if c.stage = .preferences then some (m.listCatalog c.id c.token result.toOption) else none
  | .plan _ volumes =>
    if c.stage = .planning then some (m.makePlan c.id c.token volumes) else none
  | .move _ move =>
    match c.stage with
    | .downloading d => m.moveDownload? c.id d move
    | _ => none
  | .removeNext _ =>
    match c.stage with
    | .removing cause left => some (m.removeNext c cause left)
    | _ => none
  | .released _ _ =>
    match c.stage with
    | .releasing reason => some (m.released c.id c.token reason)
    | _ => none
  | _ => none

def step? (m : Machine) (a : Action) : Option Machine :=
  match a with
  | .call op => some (m.begin op)
  | .cancelParent parent => some { m with cancelledParents := parent :: m.cancelledParents }
  | .pass nanos => some { m with now := m.now + nanos }
  | .receivePreferences id _ | .plan id _ | .move id _ | .removeNext id | .released id _ =>
    (m.call? id).bind fun c => m.stepCall? c a

/-- The machine after a course of actions, if each of them can happen. -/
def run? (m : Machine) : List Action → Option Machine
  | [] => some m
  | a :: rest => (m.step? a).bind fun m => m.run? rest

end Machine
end Longbox
