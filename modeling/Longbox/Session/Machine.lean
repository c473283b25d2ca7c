import Longbox.Disk.Change
import Longbox.Download
import Longbox.Session

/-! A session among its collaborators.

Operations on a session may be called at any time, also while earlier calls wait for a collaborator.
A `Machine` holds the session, the disk, the clock, the cancellation tokens of the runs and the calls
that wait; its journal tells all that has happened. What is done between two points of waiting is
done at once. -/
namespace Longbox

/-- A run's token is cancelled by itself or by its parent. -/
structure Token where
  parent : Nat
  cancelled : Bool := false
  deriving DecidableEq, Repr

/-- Why the client is asked to release the session. -/
inductive ReleaseReason where
  /-- The catalog has nothing new. -/
  | emptyPlan
  /-- The selection leaves nothing. -/
  | emptySelection
  | finished (chapters : Nat)
  | failed (cause : Error)
  deriving DecidableEq, Repr

/-- What a call waits for. -/
inductive Stage where
  | preferences
  | planning
  | downloading (d : Download)
  /-- Directories of an aborted download are being removed. -/
  | removing (cause : Error) (left : List String)
  | releasing (reason : ReleaseReason)
  deriving DecidableEq

structure Call where
  id : Nat
  /-- The token of a run; a mere preparation has none. -/
  token : Option Nat
  stage : Stage
  deriving DecidableEq

inductive Operation where
  | prepare
  /-- With the token that is the parent of the run's own. -/
  | run (parent : Nat)
  | select (ids : List String)
  | cancel
  deriving DecidableEq, Repr

structure Machine where
  session : Session
  disk : Disk
  /-- In nanoseconds. -/
  now : Nat := 0
  /-- Parent tokens that are cancelled. -/
  cancelledParents : List Nat := []
  /-- The tokens of the runs so far. -/
  tokens : List Token := []
  /-- Calls that wait, the latest first. -/
  calls : List Call := []
  /-- The number of calls so far. -/
  callCount : Nat := 0
  /-- The latest happening comes first. -/
  journal : List Happening := []

namespace Machine

def ofRequest (request : Request) (disk : Disk) : Machine where
  session := Session.ofRequest request
  disk := disk

def note (m : Machine) (h : Happening) : Machine :=
  { m with session := m.session.note h, journal := h :: m.journal }

def noteAll (m : Machine) (hs : List Happening) : Machine :=
  hs.foldl note m

def send (m : Machine) (event : Event) : Machine :=
  m.note (.sent event)

/-- Listeners are told of a stage that is new. -/
def setLifecycle (m : Machine) (lifecycle : Lifecycle) : Machine :=
  if m.session.lifecycle = lifecycle then m
  else { m with session := { m.session with lifecycle } }.send
    (.stateChanged m.session.request.id lifecycle)

def setOutcome (m : Machine) (outcome : Outcome) : Machine :=
  { m with session := { m.session with outcome := some outcome } }

/-! ### Tokens -/

def isCancelled (m : Machine) (token : Nat) : Bool :=
  match m.tokens[token]? with
  | some t => t.cancelled || m.cancelledParents.contains t.parent
  | none => false

def cancelToken (m : Machine) (token : Nat) : Machine :=
  { m with tokens := m.tokens.modify token fun t => { t with cancelled := true } }

def cancelStored (m : Machine) : Machine :=
  match m.session.token with
  | some token => m.cancelToken token
  | none => m

/-! ### Calls -/

def call? (m : Machine) (id : Nat) : Option Call :=
  m.calls.find? fun c => c.id == id

/-- A call waits. -/
def suspend (m : Machine) (c : Call) : Machine :=
  { m with calls := c :: m.calls.filter fun other => other.id != c.id }

/-- A call ends. -/
def answer (m : Machine) (id : Nat) (result : CallResult) : Machine :=
  { m with calls := m.calls.filter fun c => c.id != id }.note (.answered id result)

/-- Asks the client to release the session, and waits. -/
def release (m : Machine) (id : Nat) (token : Option Nat) (deleteFiles : Bool)
    (reason : ReleaseReason) : Machine :=
  (m.note (.releaseAsked m.session.request.id deleteFiles)).suspend ⟨id, token, .releasing reason⟩

/-! ### The end of a download -/

def abort (m : Machine) (id token : Nat) (cause : Error) : Machine :=
  (m.cancelStored.note (.rollbackBegun cause)).suspend
    ⟨id, some token, .removing cause m.session.plan.hasDownloaded.reverse⟩

/-- The outcome of a download that has nothing left to do. -/
def conclude (m : Machine) (id : Nat) (d : Download) : Machine :=
  match d.store.failure with
  | some cause => m.abort id d.token cause
  | none =>
    if m.isCancelled d.token then (m.setOutcome .cancelled).answer id (.ok (some .cancelled))
    else m.release id (some d.token) false (.finished m.session.counters.chapters)

/-! ### Chapters -/

def setDownload (m : Machine) (id : Nat) (d : Download) : Machine :=
  m.suspend ⟨id, some d.token, .downloading d⟩

/-- A failure cancels the download. -/
def setStore (m : Machine) (id : Nat) (d : Download) (store : PageStore) : Machine :=
  let m := if store.failure.isSome then m.cancelToken d.token else m
  m.setDownload id { d with store }

/-- No more chapters. -/
def closeDownload (m : Machine) (id : Nat) (d : Download) : Machine :=
  (m.setLifecycle .cleanup).setStore id { d with current := none } d.store.close

/-- The next chapter, unless all are through or the download is cancelled. -/
def nextChapter (m : Machine) (id : Nat) (d : Download) : Machine :=
  match d.remaining with
  | [] => m.closeDownload id d
  | chapter :: remaining =>
    if m.isCancelled d.token then m.closeDownload id d
    else
      let run : ChapterRun := { chapter, dir := m.session.naming.contentPath chapter, began := m.now }
      (m.note (.urlsAsked chapter)).setDownload id { d with remaining, current := some run }

/-- Reports the progress at the end of a chapter, and the speed over the time since `since`. The run
itself does this, and nobody else counts: the counters stay as they are meanwhile. -/
def report (m : Machine) (d : Download) (since : Nat) : Machine :=
  let c := m.session.counters
  let percent := Single.percent c.chapters d.planned
  if m.session.lifecycle = .cleanup then
    m.send (.progress m.session.request.id percent 0 c.images c.pages)
  else
    let speed := Download.speed (c.images - m.session.sampled) (m.now - since)
    { m with session := { m.session with sampled := c.images } }.send
      (.progress m.session.request.id percent speed c.images c.pages)

/-- A chapter has no pages, or all of them are fetched. -/
def passChapter (m : Machine) (id : Nat) (d : Download) (c : ChapterRun) (downloaded : Bool) :
    Machine :=
  let m :=
    if downloaded then
      (m.note .chapterDownloaded).send (.chapterCompleted m.session.request.id c.chapter.id)
    else m
  (m.report d c.began).nextChapter id d

/-- A chapter fails or is cancelled, and with it the download ends. -/
def failChapter (m : Machine) (id : Nat) (d : Download) (e : Error) : Machine :=
  m.closeDownload id { d with store := d.store.report e }

def setStage (m : Machine) (id : Nat) (d : Download) (c : ChapterRun) (stage : ChapterStage) :
    Machine :=
  m.setDownload id { d with current := some { c with stage } }

/-- Makes the directory of a chapter; then its metadata is to be written. -/
def placeChapter (m : Machine) (id : Nat) (d : Download) (c : ChapterRun) (urls : List String) :
    Machine :=
  match m.disk.makeAll c.dir with
  | (disk, some fault) =>
    { m with disk }.failChapter id d (.download (.directoryFailed c.dir fault.message))
  | (disk, none) =>
    let m := { m with disk, session := m.session.addDirectory c.dir }
    (m.noteAll [.directoryMade c.dir, .metadataAsked c.chapter m.session.mapper]).setStage id d c
      (.describing urls)

def fetchChapter (m : Machine) (id : Nat) (d : Download) (c : ChapterRun) (urls : List String) :
    Machine :=
  (m.note (.fetchingBegun c.dir urls.length)).setStage id d c
    (.fetching (.ofUrls c.dir urls m.session.request.config.workers m.now))

/-- A pass over the pages is through: there is a second one, or the chapter ends. -/
def endPass (m : Machine) (id : Nat) (d : Download) (c : ChapterRun) (f : PageFetcher) : Machine :=
  let cancelled := m.isCancelled d.token
  match f.retry? cancelled with
  | some f => m.setStage id d c (.fetching f)
  | none =>
    match f.result cancelled with
    | .error e => m.failChapter id d e
    | .ok () =>
      if f.pages < Download.smallChapterPages then
        m.setStage id d c (.pausing (m.now + Download.smallChapterPause))
      else m.passChapter id d c true

/-! ### Preparing and running -/

/-- The run of a prepared session: the selection is applied and the first chapter begins. -/
def startDownload (m : Machine) (id token : Nat) : Machine :=
  let m := { m with session := m.session.selected }
  let chapters := m.session.plan.toDownload
  if chapters.isEmpty then
    (m.setLifecycle .waiting).release id (some token) false .emptySelection
  else
    (m.setLifecycle .downloading).nextChapter id {
      token
      planned := chapters.length
      remaining := chapters
      store := { slots := Download.storeSlots m.session.request.config.workers }
      reported := m.now }

/-- A preparation that is over ends its call, or a run goes on. -/
def afterPreparation (m : Machine) (id : Nat) (token : Option Nat) : Machine :=
  match token with
  | none => m.answer id (.ok none)
  | some t =>
    match m.session.outcome with
    | some outcome => m.answer id (.ok (some outcome))
    | none => m.startDownload id t

/-- With preferences or without, the catalog is listed; then the plan is made. -/
def listCatalog (m : Machine) (id : Nat) (token : Option Nat)
    (preferences : Option TagPreferences) : Machine :=
  let m := { m with session := { m.session with mapper := m.session.mapperOf preferences } }
  (m.note .catalogListed).suspend ⟨id, token, .planning⟩

def prepare (m : Machine) (id : Nat) (token : Option Nat) : Machine :=
  if m.session.isPrepared then m.afterPreparation id token
  else if m.session.lifecycle ≠ .queued then
    m.answer id (.error (.invalidState "prepare" m.session.lifecycle))
  else
    let m := m.setLifecycle .loading
    if m.session.request.asksPreferences then
      (m.note .preferencesAsked).suspend ⟨id, token, .preferences⟩
    else m.listCatalog id token none

/-- Makes the plan; a session with nothing to download is released right away. -/
def makePlan (m : Machine) (id : Nat) (token : Option Nat) (volumes : Archive → Option String) :
    Machine :=
  let m := { m with session := m.session.planned m.disk volumes }
  if m.session.plan.isEmpty then (m.setLifecycle .waiting).release id token false .emptyPlan
  else (m.setLifecycle m.session.plannedLifecycle).afterPreparation id token

/-- The client has released the session, or failed to, which makes no difference. -/
def released (m : Machine) (id : Nat) (token : Option Nat) : ReleaseReason → Machine
  | .emptyPlan => (m.setOutcome .nothingToDownload).afterPreparation id token
  | .emptySelection =>
    (m.setOutcome .nothingToDownload).answer id (.ok (some .nothingToDownload))
  | .finished chapters =>
    (m.setOutcome (.completed chapters)).answer id (.ok (some (.completed chapters)))
  | .failed cause =>
    let m := m.send (.downloadFailed m.session.request.id m.session.request.title cause.message)
    (m.setOutcome (.aborted cause.message)).answer id (.ok (some (.aborted cause.message)))

def run (m : Machine) (id parent : Nat) : Machine :=
  match m.session.outcome with
  | some outcome => m.answer id (.ok (some outcome))
  | none =>
    if m.session.isRunning then m.answer id (.error (.invalidState "run" m.session.lifecycle))
    else
      let token := m.tokens.length
      let own : Token := { parent, cancelled := m.session.cancelRequested }
      let m := { m with
        tokens := m.tokens ++ [own]
        session := { m.session with token := some token } }
      if m.isCancelled token then (m.setOutcome .cancelled).answer id (.ok (some .cancelled))
      else m.prepare id (some token)

def select (m : Machine) (id : Nat) (ids : List String) : Machine :=
  if m.session.acceptsSelection then
    { m with session := { m.session with selection := ids } }.answer id (.ok none)
  else m.answer id (.error (.invalidState "set user selection" m.session.lifecycle))

def cancel (m : Machine) (id : Nat) : Machine :=
  { m with session := { m.session with cancelRequested := true } }.cancelStored.answer id (.ok none)

/-- A new call, up to where it ends or waits. -/
def begin (m : Machine) (op : Operation) : Machine :=
  let id := m.callCount
  let m := { m with callCount := id + 1 }
  match op with
  | .prepare => m.prepare id none
  | .run parent => m.run id parent
  | .select ids => m.select id ids
  | .cancel => m.cancel id

end Machine
end Longbox
