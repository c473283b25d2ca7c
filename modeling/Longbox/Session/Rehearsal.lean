import Longbox.Session.Script

/-! Playing a session by a script.

A rehearsal follows one course of many: a slot sees its page through as far as it can before the next
one moves, and pages are committed when the fetching has to wait and between chapters. Time passes
only when nothing else can be done. -/
namespace Longbox

/-- What a cue led to, and the session after it. A call that did not end has no result. -/
structure CueRecord where
  cue : Cue
  result : Option CallResult
  session : Session

structure Rehearsal where
  machine : Machine
  /-- The cues that collaborators have followed, the latest first. -/
  followed : List CueRecord := []

namespace Rehearsal

/-- An action that cannot happen is left out. -/
def act (r : Rehearsal) (a : Action) : Rehearsal :=
  { r with machine := (r.machine.step? a).getD r.machine }

def resultOf? (journal : List Happening) (id : Nat) : Option CallResult :=
  journal.findSome? fun
    | .answered call result => if call = id then some result else none
    | _ => none

/-- The first part of a cue: a call begins. -/
def start (r : Rehearsal) : Cue → Rehearsal
  | .operate op => r.act (.call op)
  | .cancelParent => r.act (.cancelParent Script.parent)
  | .look _ => r

/-- What a cue has led to when `id` was the number of the call that it began. -/
def recordOf (r : Rehearsal) (cue : Cue) (id : Nat) : CueRecord where
  cue := cue
  result := match cue with
    | .operate _ => resultOf? r.machine.journal id
    | _ => some (.ok none)
  session := r.machine.session

/-- A collaborator follows a cue. -/
def follow (r : Rehearsal) (cue : Cue) : Rehearsal :=
  let id := r.machine.callCount
  let r := r.start cue
  { r with followed := r.recordOf cue id :: r.followed }

/-- A collaborator answers. -/
def reply {α : Type} (r : Rehearsal) (v : Verdict) (success : Except Error α)
    (action : Except Error α → Action) : Rehearsal :=
  match v with
  | .succeed => r.act (action success)
  | .cancelParent => (r.act (.cancelParent Script.parent)).act (action (.error .cancelled))
  | .fail e => r.act (action (.error e))

/-- There are pages to commit. -/
def hasCommits (s : PageStore) : Bool :=
  !s.inFlight.isEmpty || (!s.hasStopped && !s.queue.isEmpty)

def turnStore (script : Script) (r : Rehearsal) (id : Nat) (d : Download) : Rehearsal :=
  match d.store.inFlight with
  | page :: _ =>
    r.reply (script.commit (Page.path page.dir page.task)) (.ok .disk) fun result =>
      .move id (.endCommit 0 result)
  | [] =>
    if d.store.isCancelled (r.machine.isCancelled d.token) then r.act (.move id .stopStore)
    else r.act (.move id .beginCommit)

def isFetching (s : Slot) : Bool :=
  match s.stage with
  | .fetching => true
  | _ => false

def isQueueing (s : Slot) : Bool :=
  match s.stage with
  | .queueing _ => true
  | _ => false

/-- The instant a slot waits for; work that is to stop waits for nothing. -/
def wakeAt (now : Nat) (stopped : Bool) (s : Slot) : Nat :=
  match s.stage with
  | .waiting instant => if stopped then now else instant
  | _ => now

def attempts (journal : List Happening) (url : String) : Nat :=
  journal.countP fun
    | .fetchBegun _ task => task.url == url
    | _ => false

/-- All slots wait for a permit, the next one at `instant`, or there are none. -/
def turnWaiting (script : Script) (r : Rehearsal) (id : Nat) (d : Download) (f : PageFetcher) :
    Rehearsal :=
  match f.slots.map (wakeAt r.machine.now (f.isStopped (r.machine.isCancelled d.token))) with
  | [] => r.act (.move id .endPass)
  | instant :: others =>
    if hasCommits d.store then turnStore script r id d
    else r.act (.pass (others.foldl min instant - r.machine.now))

def turnFetcher (script : Script) (r : Rehearsal) (id : Nat) (d : Download) (f : PageFetcher) :
    Rehearsal :=
  let now := r.machine.now
  let stopped := f.isStopped (r.machine.isCancelled d.token)
  match f.slots.findIdx? isFetching with
  | some slot =>
    let url := (f.slots[slot]?.map fun s => s.task.url).getD ""
    let (verdict, body) := script.fetch url (attempts r.machine.journal url - 1)
    r.reply verdict (.ok body) fun result => .move id (.receivePage slot result)
  | none =>
    match f.slots.findIdx? isQueueing with
    | some slot =>
      if stopped then r.act (.move id (.dropPage slot))
      else if d.store.hasRoom then r.act (.move id (.queuePage slot))
      else turnStore script r id d
    | none =>
      match f.slots.findIdx? fun s => decide (wakeAt now stopped s ≤ now) with
      | some slot => r.act (.move id (.requestPermit slot))
      | none =>
        if f.slots.length < f.workers && !f.pending.isEmpty then r.act (.move id .takePage)
        else turnWaiting script r id d f

def turnChapter (script : Script) (r : Rehearsal) (id : Nat) (d : Download) (c : ChapterRun) :
    Rehearsal :=
  let chapter := script.chapter c.chapter.id
  match c.stage with
  | .resolving =>
    if hasCommits d.store then turnStore script r id d
    else (chapter.cues.foldl follow r).reply chapter.resolving (.ok chapter.urls) fun result =>
      .move id (.receiveUrls result)
  | .placing _ => r.act (.move id .makeDirectory)
  | .describing _ =>
    r.reply chapter.describing (.ok ()) fun result => .move id (.endMetadata result)
  | .fetching f => turnFetcher script r id d f
  | .pausing instant =>
    if hasCommits d.store then turnStore script r id d
    else if r.machine.isCancelled d.token then r.act (.move id .giveUp)
    else if r.machine.now < instant then r.act (.pass (instant - r.machine.now))
    else r.act (.move id .goOn)

/-- One action, or a few that belong together, on the call that waits. -/
def turn (script : Script) (r : Rehearsal) (c : Call) : Rehearsal :=
  match c.stage with
  | .preferences =>
    (script.cues.foldl follow r).reply script.loading script.preferences
      (.receivePreferences c.id)
  | .planning => r.act (.plan c.id (script.volume r.machine.disk))
  | .releasing _ => r.reply script.release (.ok ()) (.released c.id)
  | .removing .. => r.act (.removeNext c.id)
  | .downloading d =>
    match d.current with
    | some chapter => turnChapter script r c.id d chapter
    | none =>
      if hasCommits d.store then turnStore script r c.id d else r.act (.move c.id .finish)

/-- Takes turns until no call waits. -/
def settle (script : Script) : Nat → Rehearsal → Rehearsal
  | 0, r => r
  | fuel + 1, r =>
    match r.machine.calls with
    | [] => r
    | c :: _ => settle script fuel (turn script r c)

/-- More turns than any script needs whose pages are counted in thousands. -/
def maxTurns : Nat := 100000000

/-- Follows a cue of the script itself to its end. -/
def perform (script : Script) (r : Rehearsal) (cue : Cue) : CueRecord × Rehearsal :=
  let id := r.machine.callCount
  let r := settle script maxTurns (r.start cue)
  (r.recordOf cue id, r)

end Rehearsal
end Longbox
