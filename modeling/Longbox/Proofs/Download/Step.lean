import Longbox.Proofs.Session.Ledger

/-! What a step of a download can do.

`Download.Step` has a constructor for each way in which a move of a download can go, with what the
move makes of the download and of the ledger; `moveDownload?_step` says that a machine moves in these
ways only. What holds throughout a download is proved by cases on `Download.Step`. -/
namespace Longbox

/-- A page that has been fetched. -/
def PageFetcher.page (f : PageFetcher) (task : PageTask) (bytes : ByteArray) : FetchedPage :=
  ⟨f.dir, task, bytes⟩

/-- A move of the pages that are being fetched, and what happens with it. -/
inductive PageFetcher.Step (cancelled : Bool) (f : PageFetcher) :
    Move → List Happening → PageFetcher → Prop where
  | takes {task : PageTask} {rest : List PageTask} (now : Nat) (hp : f.pending = task :: rest)
      (hs : f.isStopped cancelled = false) :
      Step cancelled f .takePage []
        { f with pending := rest, slots := f.slots ++ [⟨task, .waiting now⟩] }
  | skips {task : PageTask} {rest : List PageTask} (hp : f.pending = task :: rest)
      (hs : f.isStopped cancelled = true) :
      Step cancelled f .takePage [] { f with pending := rest }
  | leaves {i instant : Nat} {task : PageTask} (hi : f.slots[i]? = some ⟨task, .waiting instant⟩)
      (hs : f.isStopped cancelled = true) : Step cancelled f (.requestPermit i) [] (f.free i)
  | begins {i instant : Nat} {task : PageTask} (limiter : RateLimiter)
      (hi : f.slots[i]? = some ⟨task, .waiting instant⟩) (hs : f.isStopped cancelled = false)
      (hl : limiter.rate = f.limiter.rate ∧ limiter.capacity = f.limiter.capacity) :
      Step cancelled f (.requestPermit i) [.fetchBegun f.dir task]
        ({ f with limiter }.setStage i task .fetching)
  | waits {i instant : Nat} {task : PageTask} (limiter : RateLimiter) (next : Nat)
      (hi : f.slots[i]? = some ⟨task, .waiting instant⟩) (hs : f.isStopped cancelled = false)
      (hl : limiter.rate = f.limiter.rate ∧ limiter.capacity = f.limiter.capacity) :
      Step cancelled f (.requestPermit i) [] ({ f with limiter }.setStage i task (.waiting next))
  | receives {i : Nat} {task : PageTask} {bytes : ByteArray}
      (hi : f.slots[i]? = some ⟨task, .fetching⟩) :
      Step cancelled f (.receivePage i (.ok bytes)) [.fetchEnded f.dir task f.isRetry (.ok bytes)]
        (f.setStage i task (.queueing bytes))
  | abandons {i : Nat} {task : PageTask} {e : Error} (hi : f.slots[i]? = some ⟨task, .fetching⟩)
      (he : e.isCancelled = true) :
      Step cancelled f (.receivePage i (.error e)) [.fetchEnded f.dir task f.isRetry (.error e)]
        (f.free i)
  | postpones {i : Nat} {task : PageTask} {e : Error} (hi : f.slots[i]? = some ⟨task, .fetching⟩)
      (he : e.isCancelled = false) (hr : f.isRetry = false) :
      Step cancelled f (.receivePage i (.error e)) [.fetchEnded f.dir task f.isRetry (.error e)]
        { f.free i with failed := f.failed ++ [task] }
  | fails {i : Nat} {task : PageTask} {e : Error} (hi : f.slots[i]? = some ⟨task, .fetching⟩)
      (he : e.isCancelled = false) (hr : f.isRetry = true) :
      Step cancelled f (.receivePage i (.error e)) [.fetchEnded f.dir task f.isRetry (.error e)]
        { f.free i with
          failure := f.failure.or
            (some (.download (.pageFailed task.index task.url e.message))) }
  | drops {i : Nat} {task : PageTask} {bytes : ByteArray}
      (hi : f.slots[i]? = some ⟨task, .queueing bytes⟩) (hs : f.isStopped cancelled = true) :
      Step cancelled f (.dropPage i) [] (f.free i)

namespace Download

/-- No chapter is current and no page will be queued. -/
def closed (d : Download) : Download :=
  { d with current := none, store := d.store.close }

/-- Closed on account of an error. -/
def failed (d : Download) (e : Error) : Download :=
  { d with store := d.store.report e }.closed

def inStage (d : Download) (c : ChapterRun) (stage : ChapterStage) : Download :=
  { d with current := some { c with stage } }

/-- A chapter is through: the next one begins, or the download closes. -/
inductive Next (naming : Naming) (cancelled : Bool) (l : Ledger) (d : Download) :
    Ledger → Download → Prop where
  | closes (h : cancelled = true ∨ d.remaining = []) : Next naming cancelled l d l d.closed
  | begins {chapter : Chapter} {rest : List Chapter} (began : Nat)
      (hc : cancelled = false) (hr : d.remaining = chapter :: rest) :
      Next naming cancelled l d (l.note (.urlsAsked chapter))
        { d with
          remaining := rest
          current := some { chapter, dir := naming.contentPath chapter, began } }

/-- A step of a download whose token is cancelled or not, from a ledger to a ledger. -/
inductive Step (naming : Naming) (cancelled : Bool) (l : Ledger) (d : Download) :
    Move → Ledger → Download → Prop where
  | urlsFail {c : ChapterRun} {e : Error} (hd : d.current = some c) (hc : c.stage = .resolving) :
      Step naming cancelled l d (.receiveUrls (.error e)) l (d.failed e)
  | noUrls {c : ChapterRun} {l' : Ledger} {d' : Download} (hd : d.current = some c)
      (hc : c.stage = .resolving)
      (hn : Next naming cancelled (l.note (.urlsGiven c.chapter [])) d l' d') :
      Step naming cancelled l d (.receiveUrls (.ok [])) l' d'
  | urls {c : ChapterRun} {urls : List String} (hd : d.current = some c)
      (hc : c.stage = .resolving) (hu : urls ≠ []) :
      Step naming cancelled l d (.receiveUrls (.ok urls)) (l.note (.urlsGiven c.chapter urls))
        (d.inStage c (.placing urls))
  | placeFails {c : ChapterRun} {urls : List String} {disk : Disk} {fault : Fault}
      (hd : d.current = some c) (hc : c.stage = .placing urls)
      (hm : l.disk.makeAll c.dir = (disk, some fault)) :
      Step naming cancelled l d .makeDirectory { l with disk }
        (d.failed (.download (.directoryFailed c.dir fault.message)))
  | places {c : ChapterRun} {urls : List String} {disk : Disk} (mapper : TagMapper)
      (hd : d.current = some c) (hc : c.stage = .placing urls)
      (hm : l.disk.makeAll c.dir = (disk, none)) :
      Step naming cancelled l d .makeDirectory
        (({ l with disk, recorded := l.recorded ++ [c.dir] }.note (.directoryMade c.dir)).note
          (.metadataAsked c.chapter mapper))
        (d.inStage c (.describing urls))
  | describeFails {c : ChapterRun} {urls : List String} (hd : d.current = some c)
      (hc : c.stage = .describing urls) :
      Step naming cancelled l d (.endMetadata (.error .cancelled)) l (d.failed .cancelled)
  | describes {c : ChapterRun} {urls : List String} {result : Except Error Unit}
      (workers now : Nat) (hd : d.current = some c) (hc : c.stage = .describing urls)
      (hr : result ≠ .error .cancelled) (hw : ∃ config : Config, workers = config.workers) :
      Step naming cancelled l d (.endMetadata result) (l.note (.fetchingBegun c.dir urls.length))
        (d.inStage c (.fetching (.ofUrls c.dir urls workers now)))
  | fetches {c : ChapterRun} {f f' : PageFetcher} {move : Move} {hs : List Happening}
      (hd : d.current = some c) (hc : c.stage = .fetching f) (hf : f.Step cancelled move hs f') :
      Step naming cancelled l d move (l.noteAll hs) (d.inStage c (.fetching f'))
  | queues {c : ChapterRun} {f : PageFetcher} {i : Nat} {task : PageTask} {bytes : ByteArray}
      (hd : d.current = some c) (hc : c.stage = .fetching f)
      (hi : f.slots[i]? = some ⟨task, .queueing bytes⟩) (hs : d.store.isClosed = false) :
      Step naming cancelled l d (.queuePage i) (l.note (.pageQueued (f.page task bytes)))
        ({ d with store := { d.store with queue := d.store.queue ++ [f.page task bytes] } }.inStage
          c (.fetching (f.free i)))
  | retries {c : ChapterRun} {f f' : PageFetcher} (hd : d.current = some c)
      (hc : c.stage = .fetching f) (ho : f.isPassOver = true)
      (hf : f.retry? cancelled = some f') :
      Step naming cancelled l d .endPass l (d.inStage c (.fetching f'))
  | fetchFails {c : ChapterRun} {f : PageFetcher} {e : Error} (hd : d.current = some c)
      (hc : c.stage = .fetching f) (ho : f.isPassOver = true) (hf : f.retry? cancelled = none)
      (hr : f.result cancelled = .error e) :
      Step naming cancelled l d .endPass l (d.failed e)
  | pauses {c : ChapterRun} {f : PageFetcher} (instant : Nat) (hd : d.current = some c)
      (hc : c.stage = .fetching f) (ho : f.isPassOver = true) (hf : f.retry? cancelled = none)
      (hr : f.result cancelled = .ok ()) :
      Step naming cancelled l d .endPass l (d.inStage c (.pausing instant))
  | fetchEnds {c : ChapterRun} {f : PageFetcher} {l' : Ledger} {d' : Download}
      (hd : d.current = some c) (hc : c.stage = .fetching f) (ho : f.isPassOver = true)
      (hf : f.retry? cancelled = none) (hr : f.result cancelled = .ok ())
      (hn : Next naming cancelled (l.note .chapterDownloaded) d l' d') :
      Step naming cancelled l d .endPass l' d'
  | goesOn {c : ChapterRun} {instant : Nat} {l' : Ledger} {d' : Download}
      (hd : d.current = some c) (hc : c.stage = .pausing instant)
      (hn : Next naming cancelled (l.note .chapterDownloaded) d l' d') :
      Step naming cancelled l d .goOn l' d'
  | givesUp {c : ChapterRun} {instant : Nat} (hd : d.current = some c)
      (hc : c.stage = .pausing instant) (hcancel : cancelled = true) :
      Step naming cancelled l d .giveUp l (d.failed .cancelled)
  | pageDropped {page : FetchedPage} {rest : List FetchedPage} (hq : d.store.queue = page :: rest)
      (hs : d.store.isCancelled cancelled = true) :
      Step naming cancelled l d .beginCommit l { d with store := { d.store with queue := rest } }
  | commitBegins {page : FetchedPage} {rest : List FetchedPage} (hq : d.store.queue = page :: rest)
      (hs : d.store.isCancelled cancelled = false) :
      Step naming cancelled l d .beginCommit (l.note (.commitBegun page))
        { d with store :=
          { d.store with queue := rest, inFlight := d.store.inFlight ++ [page] } }
  | commitEnds {i : Nat} {page : FetchedPage} {answer : Except Error Keeper} {disk : Disk}
      {place : Option Place} (hp : d.store.inFlight[i]? = some page)
      (hd : Machine.commit l.disk page answer = (disk, .ok place)) :
      Step naming cancelled l d (.endCommit i answer)
        ({ l with disk }.note (.commitEnded page (.ok place)))
        { d with store := { d.store with inFlight := d.store.inFlight.eraseIdx i } }
  | commitFails {i : Nat} {page : FetchedPage} {answer : Except Error Keeper} {disk : Disk}
      {e : Error} (hp : d.store.inFlight[i]? = some page)
      (hd : Machine.commit l.disk page answer = (disk, .error e)) :
      Step naming cancelled l d (.endCommit i answer)
        ({ l with disk }.note (.commitEnded page (.error e)))
        { d with store :=
          { d.store with inFlight := d.store.inFlight.eraseIdx i }.report e }
  | storeStops (hs : d.store.isCancelled cancelled = true) :
      Step naming cancelled l d .stopStore l
        { d with store := { d.store with hasStopped := true, queue := [] } }
  | ticks (elapsed : Nat) (hr : d.reading = none) :
      Step naming cancelled l d (.timer .tick) (l.note .ticked)
        { d with reading := some { elapsed } }
  | loads {r r' : Reading} {what : Load} (lifecycle : Lifecycle) (hr : d.reading = some r)
      (hl : r.load? lifecycle l.counters what = some r') :
      Step naming cancelled l d (.timer (.load what)) l { d with reading := some r' }
  | swaps {r : Reading} (speed : Option Nat) (hr : d.reading = some r) :
      Step naming cancelled l d (.timer .swap) l { d with reading := some { r with speed } }
  | tells {r : Reading} {event : Event} (id : String) (now : Nat) (hr : d.reading = some r)
      (he : r.event? id d.planned = some event) :
      Step naming cancelled l d (.timer .send) (l.note (.timed event))
        { d with reading := none, reported := now }

/-- The end of a download is no step of it. -/
theorem Step.ne_finish {naming : Naming} {cancelled : Bool} {l l' : Ledger} {d d' : Download}
    {move : Move} (h : d.Step naming cancelled l move l' d') : move ≠ .finish := by
  cases h with
  | fetches _ _ hf => cases hf <;> nofun
  | _ => nofun

end Download

/-! ### Moves of a machine are steps -/

/-- A call that asks for a permit does not change what the bucket earns and holds. -/
theorem RateLimiter.tryAcquire_of_eq (l : RateLimiter) {now : Nat} {granted : Bool}
    {l' : RateLimiter} (h : l.tryAcquire now = (granted, l')) :
    l'.rate = l.rate ∧ l'.capacity = l.capacity := by
  have refilled : (l.refill now).rate = l.rate ∧ (l.refill now).capacity = l.capacity := by
    unfold refill
    split <;> exact ⟨rfl, rfl⟩
  unfold tryAcquire at h
  split at h
  · cases h
    exact ⟨rfl, rfl⟩
  · dsimp only at h
    split at h <;> cases h <;> exact refilled

namespace PageFetcher
variable {cancelled : Bool} {f f' : PageFetcher} {hs : List Happening}

theorem Step.isWork {move : Move} (h : f.Step cancelled move hs f') :
    ∀ x ∈ hs, x.isWork = true := by
  cases h <;> simp [Happening.isWork]

theorem step_take? {now : Nat} (h : f.take? cancelled now = some f') :
    f.Step cancelled .takePage [] f' := by
  unfold take? at h
  split at h
  · cases h
  · split at h
    · cases h
    · rename_i task rest hp
      split at h
      · rename_i hs
        cases h
        exact .skips hp hs
      · rename_i hs
        cases h
        exact .takes now hp (by simpa using hs)

theorem step_request? {now i : Nat} (h : f.request? cancelled now i = some (f', hs)) :
    f.Step cancelled (.requestPermit i) hs f' := by
  unfold request? at h
  split at h
  · rename_i task instant hi
    split at h
    · rename_i hs
      cases h
      exact .leaves hi hs
    · rename_i hs
      have hs : f.isStopped cancelled = false := by simpa using hs
      split at h
      · cases h
      · split at h
        · cases h
          exact .begins _ hi hs (f.limiter.tryAcquire_of_eq ‹_›)
        · cases h
          exact .waits _ _ hi hs (f.limiter.tryAcquire_of_eq ‹_›)
  · cases h

theorem step_receive? {i : Nat} {result : Except Error ByteArray}
    (h : f.receive? i result = some (f', hs)) : f.Step cancelled (.receivePage i result) hs f' := by
  unfold receive? at h
  split at h
  · rename_i task hi
    cases result with
    | ok bytes =>
      cases h
      exact .receives hi
    | error e =>
      dsimp only at h
      split at h
      · rename_i he
        cases h
        exact .abandons hi he
      · rename_i he
        have he : e.isCancelled = false := by simpa using he
        have hretry : (f.free i).isRetry = f.isRetry := rfl
        split at h
        · rename_i hr
          cases h
          exact .fails hi he hr
        · rename_i hr
          cases h
          exact .postpones hi he (by simpa [hretry] using hr)
  · cases h

theorem handOver?_eq_some {i : Nat} {page : FetchedPage} (h : f.handOver? i = some (f', page)) :
    ∃ task bytes, f.slots[i]? = some ⟨task, .queueing bytes⟩ ∧ f' = f.free i ∧
      page = f.page task bytes := by
  unfold handOver? at h
  split at h
  · rename_i task bytes hi
    cases h
    exact ⟨task, bytes, hi, rfl, rfl⟩
  · cases h

theorem step_drop? {i : Nat} (h : f.drop? cancelled i = some f') :
    f.Step cancelled (.dropPage i) [] f' := by
  unfold drop? at h
  split at h
  · rename_i hs
    obtain ⟨⟨f'', page⟩, hover, rfl⟩ := Option.map_eq_some_iff.mp h
    obtain ⟨task, bytes, hi, rfl, rfl⟩ := handOver?_eq_some hover
    exact .drops hi hs
  · cases h

end PageFetcher

namespace Machine

/-- A call downloads, and waits alone; a failure has cancelled its token. -/
structure Downloads (m : Machine) (id : Nat) (d : Download) : Prop where
  runs : m.Runs ⟨id, some d.token, .downloading d⟩
  token_lt : d.token < m.tokens.length
  cancelled : d.store.failure.isSome = true → m.isCancelled d.token = true

/-- The download `d` of `m` has become `d'` in `m'`, with the ledger `l`. -/
structure Carries (m : Machine) (id : Nat) (d : Download) (l : Ledger) (d' : Download)
    (m' : Machine) : Prop where
  turns : m.Turns ⟨id, some d'.token, .downloading d'⟩ l m'
  token : d'.token = d.token
  cancelled : d'.store.failure.isSome = true → m'.isCancelled d'.token = true

theorem Carries.downloads {m m' : Machine} {id : Nat} {d d' : Download} {l : Ledger}
    (h : m.Downloads id d) (c : m.Carries id d l d' m') : m'.Downloads id d' where
  runs := c.turns.runs
  token_lt := by
    rw [c.token]
    exact Nat.lt_of_lt_of_le h.token_lt c.turns.tokens
  cancelled := c.cancelled

theorem Downloads.call? {m : Machine} {id : Nat} {d : Download} (h : m.Downloads id d) :
    m.call? id = some ⟨id, some d.token, .downloading d⟩ := by
  simp [Machine.call?, h.runs.calls]

theorem isCancelled_report (m : Machine) (d : Download) (since t : Nat) :
    (m.report d since).isCancelled t = m.isCancelled t := by
  unfold report
  split <;> rfl

/-- The timer changes nothing but its reading, the sample and what has happened to it. -/
theorem moveTimer?_eq_some {m m' : Machine} {id : Nat} {d : Download} {step : TimerStep}
    (h : m.moveTimer? id d step = some m') : ∃ sampled hs d', (∀ x ∈ hs, x.isTimed = true) ∧
      m' = ({ m with session := { m.session with sampled } }.noteAll hs).setDownload id d' := by
  cases step with
  | tick =>
    simp only [moveTimer?] at h
    split at h
    · cases h
      exact ⟨m.session.sampled, [.ticked], _, by simp [Happening.isTimed], rfl⟩
    · cases h
  | load what =>
    simp only [moveTimer?, Option.bind_eq_bind, Option.bind_eq_some_iff] at h
    obtain ⟨_, -, _, -, h⟩ := h
    cases h
    exact ⟨m.session.sampled, [], _, nofun, rfl⟩
  | swap =>
    simp only [moveTimer?, Option.bind_eq_bind, Option.bind_eq_some_iff] at h
    obtain ⟨_, -, sample, -, h⟩ := h
    split at h
    · cases h
      exact ⟨sample, [], _, nofun, rfl⟩
    · cases h
  | send =>
    simp only [moveTimer?, Option.bind_eq_bind, Option.bind_eq_some_iff] at h
    obtain ⟨_, -, event, -, h⟩ := h
    cases h
    exact ⟨m.session.sampled, [.timed event], _, by simp [Happening.isTimed], rfl⟩

namespace Downloads
variable {m m₁ : Machine} {id : Nat} {d d' : Download} {token : Option Nat} {stage : Stage}
  {l : Ledger}

theorem setDownload (h : m.Downloads id d) (t : m.Turns ⟨id, token, stage⟩ l m₁)
    (ht : d'.token = d.token) (hf : d'.store.failure = d.store.failure) :
    m.Carries id d l d' (m₁.setDownload id d') where
  turns := t.suspend (.downloading d') (some d'.token)
  token := ht
  cancelled := fun hs => by
    rw [hf] at hs
    rw [ht]
    exact t.cancelled _ (h.cancelled hs)

theorem setStage (h : m.Downloads id d) (t : m.Turns ⟨id, token, stage⟩ l m₁) (c : ChapterRun)
    (s : ChapterStage) : m.Carries id d l (d.inStage c s) (m₁.setStage id d c s) :=
  h.setDownload t rfl rfl

theorem setStore (h : m.Downloads id d) (t : m.Turns ⟨id, token, stage⟩ l m₁) (d' : Download)
    (ht : d'.token = d.token) (store : PageStore) :
    m.Carries id d l { d' with store } (m₁.setStore id d' store) := by
  unfold Machine.setStore
  by_cases hs : store.failure.isSome = true
  · rw [if_pos hs]
    refine ⟨(t.keeps (.cancelToken _ d'.token)).suspend _ _, ht, fun _ => ?_⟩
    refine isCancelled_cancelToken_self ?_
    rw [ht]
    exact Nat.lt_of_lt_of_le h.token_lt t.tokens
  · rw [if_neg hs]
    exact ⟨t.suspend _ _, ht, fun hs' => absurd hs' hs⟩

theorem closeDownload (h : m.Downloads id d) (t : m.Turns ⟨id, token, stage⟩ l m₁) (d' : Download)
    (ht : d'.token = d.token) : m.Carries id d l d'.closed (m₁.closeDownload id d') :=
  h.setStore (t.setLifecycle (.inr rfl)) { d' with current := none } ht d'.store.close

theorem failChapter (h : m.Downloads id d) (t : m.Turns ⟨id, token, stage⟩ l m₁) (e : Error) :
    m.Carries id d l (d.failed e) (m₁.failChapter id d e) :=
  h.closeDownload t { d with store := d.store.report e } rfl

theorem nextChapter (h : m.Downloads id d) (t : m.Turns ⟨id, token, stage⟩ l m₁)
    (hc : m₁.isCancelled d.token = m.isCancelled d.token) :
    ∃ l' d', d.Next m.session.naming (m.isCancelled d.token) l l' d' ∧
      m.Carries id d l' d' (m₁.nextChapter id d) := by
  have hn : m₁.session.naming = m.session.naming := congrArg Terms.naming t.terms
  unfold Machine.nextChapter
  cases hr : d.remaining with
  | nil => exact ⟨_, _, .closes (.inr hr), h.closeDownload t d rfl⟩
  | cons chapter rest =>
    dsimp only
    rw [hc]
    cases hcancel : m.isCancelled d.token with
    | true => exact ⟨_, _, .closes (.inl rfl), h.closeDownload t d rfl⟩
    | false =>
      rw [if_neg (by decide), hn]
      exact ⟨_, _, .begins m₁.now rfl hr,
        h.setDownload (t.note (.urlsAsked chapter) nofun) rfl rfl⟩

theorem passChapter (h : m.Downloads id d) (t : m.Turns ⟨id, token, stage⟩ l m₁)
    (hc : m₁.isCancelled d.token = m.isCancelled d.token) (c : ChapterRun) (downloaded : Bool) :
    ∃ l' d', d.Next m.session.naming (m.isCancelled d.token)
        (if downloaded then l.note .chapterDownloaded else l) l' d' ∧
      m.Carries id d l' d' (m₁.passChapter id d c downloaded) := by
  unfold Machine.passChapter
  cases downloaded with
  | false => exact h.nextChapter (t.report d c.began) (by rw [isCancelled_report]; exact hc)
  | true =>
    have told := (t.note .chapterDownloaded nofun).send
      (.chapterCompleted m₁.session.request.id c.chapter.id)
    exact h.nextChapter (told.report d c.began) (by rw [isCancelled_report]; exact hc)

/-- What a move comes to: a step of the download. -/
def Stepped (m : Machine) (id : Nat) (d : Download) (move : Move) (m' : Machine) : Prop :=
  ∃ l' d', d.Step m.session.naming (m.isCancelled d.token) m.ledger move l' d' ∧
    m.Carries id d l' d' m'

theorem moveFetcher? (h : m.Downloads id d) {c : ChapterRun} {f : PageFetcher} {move : Move}
    {m' : Machine} (hd : d.current = some c) (hc : c.stage = .fetching f)
    (hs : m.moveFetcher? id d c f move = some m') : Stepped m id d move m' := by
  have t := h.runs.turns
  have fetched {hs : List Happening} {f' : PageFetcher}
      (hf : f.Step (m.isCancelled d.token) move hs f') :
      Stepped m id d move ((m.noteAll hs).setStage id d c (.fetching f')) :=
    ⟨_, _, .fetches hd hc hf, h.setStage (t.noteAll _ hf.isWork) c _⟩
  cases move with
  | takePage =>
    simp only [Machine.moveFetcher?, Option.map_eq_some_iff] at hs
    obtain ⟨f', hf, rfl⟩ := hs
    exact fetched (PageFetcher.step_take? hf)
  | requestPermit slot =>
    simp only [Machine.moveFetcher?, Option.map_eq_some_iff] at hs
    obtain ⟨⟨f', happened⟩, hf, rfl⟩ := hs
    exact fetched (PageFetcher.step_request? hf)
  | receivePage slot result =>
    simp only [Machine.moveFetcher?, Option.map_eq_some_iff] at hs
    obtain ⟨⟨f', happened⟩, hf, rfl⟩ := hs
    exact fetched (PageFetcher.step_receive? hf)
  | dropPage slot =>
    simp only [Machine.moveFetcher?, Option.map_eq_some_iff] at hs
    obtain ⟨f', hf, rfl⟩ := hs
    exact fetched (PageFetcher.step_drop? hf)
  | queuePage slot =>
    simp only [Machine.moveFetcher?, Option.bind_eq_bind, Option.bind_eq_some_iff] at hs
    obtain ⟨⟨f', page⟩, hf, store, hstore, hm⟩ := hs
    obtain ⟨task, bytes, hi, rfl, rfl⟩ := PageFetcher.handOver?_eq_some hf
    unfold PageStore.push? at hstore
    split at hstore
    · rename_i hopen
      rw [Bool.and_eq_true, Bool.not_eq_true'] at hopen
      cases hstore
      cases hm
      exact ⟨_, _, .queues hd hc hi hopen.2,
        h.setDownload (t.note (.pageQueued (f.page task bytes)) nofun) rfl rfl⟩
    · cases hstore
  | endPass =>
    simp only [Machine.moveFetcher?] at hs
    split at hs
    · rename_i hover
      cases hs
      unfold Machine.endPass
      dsimp only
      cases hretry : f.retry? (m.isCancelled d.token) with
      | some f' => exact ⟨_, _, .retries hd hc hover hretry, h.setStage t c _⟩
      | none =>
        cases hresult : f.result (m.isCancelled d.token) with
        | error e => exact ⟨_, _, .fetchFails hd hc hover hretry hresult, h.failChapter t e⟩
        | ok _ =>
          dsimp only
          split
          · exact ⟨_, _, .pauses _ hd hc hover hretry hresult, h.setStage t c _⟩
          · obtain ⟨l', d', hnext, hcarry⟩ := h.passChapter t rfl c true
            exact ⟨l', d', .fetchEnds hd hc hover hretry hresult hnext, hcarry⟩
    · cases hs
  | _ => simp [Machine.moveFetcher?] at hs

theorem moveChapter? (h : m.Downloads id d) {c : ChapterRun} {move : Move} {m' : Machine}
    (hd : d.current = some c) (hs : m.moveChapter? id d c move = some m') :
    Stepped m id d move m' := by
  have t := h.runs.turns
  unfold Machine.moveChapter? at hs
  split at hs
  case h_1 e hc =>
    cases hs
    exact ⟨_, _, .urlsFail hd hc, h.failChapter t e⟩
  case h_2 urls hc =>
    have given := t.note (.urlsGiven c.chapter urls) nofun
    cases urls with
    | nil =>
      cases hs
      obtain ⟨l', d', hnext, hcarry⟩ := h.passChapter given rfl c false
      exact ⟨l', d', .noUrls hd hc hnext, hcarry⟩
    | cons url rest =>
      cases hs
      exact ⟨_, _, .urls hd hc (by simp), h.setStage given c _⟩
  case h_3 urls hc =>
    cases hs
    unfold Machine.placeChapter
    split
    · rename_i disk fault hm
      exact ⟨_, _, .placeFails hd hc hm, h.failChapter (t.setDisk disk) _⟩
    · rename_i disk hm
      have made := (t.setDisk disk).addDirectory c.dir
      exact ⟨_, _, .places m.session.mapper hd hc hm,
        h.setStage ((made.note (.directoryMade c.dir) nofun).note
          (.metadataAsked c.chapter m.session.mapper) nofun) c _⟩
  case h_4 urls result hc =>
    split at hs
    · cases hs
      exact ⟨_, _, .describeFails hd hc, h.failChapter t _⟩
    · rename_i hr
      cases hs
      exact ⟨_, _, .describes _ _ hd hc hr ⟨m.session.request.config, rfl⟩,
        h.setStage (t.note (.fetchingBegun c.dir urls.length) nofun) c _⟩
  case h_5 f hc => exact h.moveFetcher? hd hc hs
  case h_6 instant hc =>
    split at hs
    · cases hs
      obtain ⟨l', d', hnext, hcarry⟩ := h.passChapter t rfl c true
      exact ⟨l', d', .goesOn hd hc hnext, hcarry⟩
    · cases hs
  case h_7 instant hc =>
    split at hs
    · rename_i hcancel
      cases hs
      exact ⟨_, _, .givesUp hd hc hcancel, h.failChapter t _⟩
    · cases hs
  case h_8 => cases hs

theorem moveStore? (h : m.Downloads id d) {move : Move} {m' : Machine}
    (hs : m.moveStore? id d move = some m') : Stepped m id d move m' := by
  have t := h.runs.turns
  cases move with
  | beginCommit =>
    simp only [Machine.moveStore?, Option.map_eq_some_iff] at hs
    obtain ⟨⟨store, page⟩, hbegin, rfl⟩ := hs
    unfold PageStore.begin? at hbegin
    split at hbegin
    · cases hbegin
    · split at hbegin
      · cases hbegin
      · rename_i page rest hq
        split at hbegin
        · rename_i hcancel
          cases hbegin
          exact ⟨_, _, .pageDropped hq hcancel, h.setStore t d rfl _⟩
        · rename_i hcancel
          cases hbegin
          exact ⟨_, _, .commitBegins hq (by simpa using hcancel),
            h.setStore (t.note (.commitBegun page) nofun) d rfl _⟩
  | endCommit i answer =>
    simp only [Machine.moveStore?, Option.bind_eq_bind, Option.bind_eq_some_iff] at hs
    obtain ⟨page, hpage, store, hfinish, hm⟩ := hs
    cases hcommit : commit m.disk page answer with
    | mk disk result =>
      rw [hcommit] at hfinish hm
      obtain rfl := Option.some.inj hm
      have ended := (t.setDisk disk).note (.commitEnded page result) nofun
      unfold PageStore.finish? at hfinish
      rw [if_pos (List.getElem?_eq_some_iff.mp hpage).1] at hfinish
      cases result with
      | ok place =>
        obtain rfl := Option.some.inj hfinish
        exact ⟨_, _, .commitEnds hpage hcommit, h.setStore ended d rfl _⟩
      | error e =>
        obtain rfl := Option.some.inj hfinish
        exact ⟨_, _, .commitFails hpage hcommit, h.setStore ended d rfl _⟩
  | stopStore =>
    simp only [Machine.moveStore?, Option.map_eq_some_iff] at hs
    obtain ⟨store, hstop, rfl⟩ := hs
    unfold PageStore.stop? at hstop
    split at hstop
    · rename_i hcancel
      obtain rfl := Option.some.inj hstop
      exact ⟨_, _, .storeStops hcancel, h.setStore t d rfl _⟩
    · cases hstop
  | _ => simp [Machine.moveStore?] at hs

theorem moveTimer? (h : m.Downloads id d) {step : TimerStep} {m' : Machine}
    (hs : m.moveTimer? id d step = some m') : Stepped m id d (.timer step) m' := by
  have t := h.runs.turns
  cases step with
  | tick =>
    simp only [Machine.moveTimer?] at hs
    split at hs
    · rename_i hr
      cases hs
      exact ⟨_, _, .ticks _ hr, h.setDownload (t.note .ticked nofun) rfl rfl⟩
    · cases hs
  | load what =>
    simp only [Machine.moveTimer?, Option.bind_eq_bind, Option.bind_eq_some_iff] at hs
    obtain ⟨r, hr, r', hl, hs⟩ := hs
    cases hs
    exact ⟨_, _, .loads m.session.lifecycle hr hl, h.setDownload t rfl rfl⟩
  | swap =>
    simp only [Machine.moveTimer?, Option.bind_eq_bind, Option.bind_eq_some_iff] at hs
    obtain ⟨r, hr, sample, -, hs⟩ := hs
    split at hs
    · cases hs
      have sampled : m.Turns ⟨id, some d.token, .downloading d⟩ m.ledger
          { m with session := { m.session with sampled := sample } } :=
        { t with runs := { t.runs with } }
      exact ⟨_, _, .swaps _ hr, h.setDownload sampled rfl rfl⟩
    · cases hs
  | send =>
    simp only [Machine.moveTimer?, Option.bind_eq_bind, Option.bind_eq_some_iff] at hs
    obtain ⟨r, hr, event, he, hs⟩ := hs
    cases hs
    exact ⟨_, _, .tells _ m.now hr he, h.setDownload (t.note (.timed event) nofun) rfl rfl⟩

/-- A move of a machine that downloads is a step of the download, or it ends the download. -/
theorem moveDownload? (h : m.Downloads id d) {move : Move} {m' : Machine}
    (hs : m.moveDownload? id d move = some m') :
    (move = .finish ∧ d.store.isClosed = true ∧ d.store.isDone = true ∧ m' = m.conclude id d) ∨
      Stepped m id d move m' := by
  cases move with
  | beginCommit | endCommit | stopStore => exact .inr (h.moveStore? hs)
  | timer => exact .inr (h.moveTimer? hs)
  | finish =>
    simp only [Machine.moveDownload?] at hs
    split at hs
    · rename_i hend
      simp only [Bool.and_eq_true] at hend
      exact .inl ⟨rfl, hend.1.1, hend.1.2, (Option.some.inj hs).symm⟩
    · cases hs
  | _ =>
    simp only [Machine.moveDownload?] at hs
    split at hs
    · rename_i c hd
      exact .inr (h.moveChapter? hd hs)
    · cases hs

end Downloads
end Machine
end Longbox
