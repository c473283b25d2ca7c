import Longbox.Proofs.Download.Balance
import Mathlib.Data.List.Nodup

/-! How the pages of a chapter are fetched, and those that fail a second time.

A `PageLog` is what a journal tells of the pages of a chapter. In the first pass each page is still to be
fetched, being fetched or has been (`PageFetcher.FirstPass`); the pages that failed are the second pass
(`PageFetcher.SecondPass`), which a page that fails again puts an end to. Each move keeps that, so when no
slot is left the log is that of a chapter that is through (`PageLog.Through`) or has failed
(`PageLog.Broken`). -/
namespace Longbox

/-! ### What a journal tells of fetches -/

/-- The latest comes first. -/
structure PageLog where
  /-- The pages whose fetches have begun, once for each fetch. -/
  begun : List PageTask
  /-- Those whose fetches have ended, of the first pass or of the second. -/
  ended : Bool → List PageTask
  errors : Bool → List (PageTask × Error)
  fetched : List FetchedPage
  queued : List FetchedPage

namespace Happening

def attempt? : Happening → Option PageTask
  | .fetchBegun _ task => some task
  | _ => none

def ended? (isRetry : Bool) : Happening → Option PageTask
  | .fetchEnded _ task retry _ => bif retry == isRetry then some task else none
  | _ => none

def error? (isRetry : Bool) : Happening → Option (PageTask × Error)
  | .fetchEnded _ task retry (.error e) => bif retry == isRetry then some (task, e) else none
  | _ => none

def queued? : Happening → Option FetchedPage
  | .pageQueued page => some page
  | _ => none

end Happening

def Journal.pages (hs : List Happening) : PageLog where
  begun := hs.filterMap Happening.attempt?
  ended := fun isRetry => hs.filterMap (Happening.ended? isRetry)
  errors := fun isRetry => hs.filterMap (Happening.error? isRetry)
  fetched := Journal.fetched hs
  queued := hs.filterMap Happening.queued?

namespace Journal
variable (dir : String) (task : PageTask) (retry isRetry : Bool) (hs : List Happening)

@[simp] theorem pages_fetchBegun :
    pages (.fetchBegun dir task :: hs) =
      { pages hs with begun := task :: (pages hs).begun } := rfl

@[simp] theorem pages_pageQueued (page : FetchedPage) :
    pages (.pageQueued page :: hs) = { pages hs with queued := page :: (pages hs).queued } := rfl

@[simp] theorem ended_fetchEnded (result : Except Error ByteArray) :
    (pages (.fetchEnded dir task retry result :: hs)).ended isRetry =
      if retry = isRetry then task :: (pages hs).ended isRetry else (pages hs).ended isRetry := by
  cases retry <;> cases isRetry <;> rfl

@[simp] theorem errors_ok (bytes : ByteArray) :
    (pages (.fetchEnded dir task retry (.ok bytes) :: hs)).errors = (pages hs).errors := rfl

@[simp] theorem errors_error (e : Error) :
    (pages (.fetchEnded dir task retry (.error e) :: hs)).errors isRetry =
      if retry = isRetry then (task, e) :: (pages hs).errors isRetry
      else (pages hs).errors isRetry := by
  cases retry <;> cases isRetry <;> rfl

@[simp] theorem fetched_ok (bytes : ByteArray) :
    (pages (.fetchEnded dir task retry (.ok bytes) :: hs)).fetched =
      ⟨dir, task, bytes⟩ :: (pages hs).fetched := rfl

@[simp] theorem fetched_error (e : Error) :
    (pages (.fetchEnded dir task retry (.error e) :: hs)).fetched = (pages hs).fetched := rfl

@[simp] theorem begun_fetchEnded (result : Except Error ByteArray) :
    (pages (.fetchEnded dir task retry result :: hs)).begun = (pages hs).begun := rfl

@[simp] theorem queued_fetchEnded (result : Except Error ByteArray) :
    (pages (.fetchEnded dir task retry result :: hs)).queued = (pages hs).queued := rfl

end Journal

namespace PageLog

/-- The pages that failed in the first pass or in the second. -/
def failing (v : PageLog) (isRetry : Bool) : List PageTask :=
  (v.errors isRetry).map (·.1)

/-- A fetch that has ended has failed or brought its page. -/
structure Adds (v : PageLog) : Prop where
  failing : ∀ isRetry task, (v.failing isRetry).count task ≤ (v.ended isRetry).count task
  fetched : ∀ task, (v.fetched.map FetchedPage.task).count task + (v.failing false).count task +
    (v.failing true).count task = (v.ended false).count task + (v.ended true).count task

end PageLog

/-- The pages of a chapter whose fetches are over: each has been fetched once, and of those that failed some
have been fetched once more. -/
structure PageLog.Over (tasks : List PageTask) (v : PageLog) : Prop where
  begun : ∀ task, v.begun.count task = tasks.count task + (v.ended true).count task
  first : ∀ task, (v.ended false).count task = tasks.count task
  again : ∀ task, (v.ended true).count task ≤ (v.failing false).count task

/-- The pages of a chapter that is through: those that failed have all been fetched once more, and all that
was fetched has been queued. -/
structure PageLog.Through (dir : String) (tasks : List PageTask) (v : PageLog) : Prop
    extends v.Over tasks where
  whole : ∀ task, (v.ended true).count task = (v.failing false).count task
  errors : v.errors true = []
  places : ∀ page ∈ v.fetched, page.dir = dir
  queued : v.queued.Perm v.fetched

/-- The pages of a chapter that has failed for good: one that failed for the second time is the failure. -/
structure PageLog.Broken (tasks : List PageTask) (v : PageLog) (e : Error) : Prop
    extends v.Over tasks where
  failure : ∃ task cause, (task, cause) ∈ v.errors true ∧
    e = .download (.pageFailed task.index task.url cause.message)

theorem Journal.pages_adds (hs : List Happening) : (Journal.pages hs).Adds := by
  induction hs with
  | nil => exact ⟨fun _ _ => Nat.le_refl _, fun _ => rfl⟩
  | cons x rest ih =>
    obtain ⟨failing, fetched⟩ := ih
    cases x with
    | fetchEnded dir task retry result =>
      constructor
      · intro isRetry other
        have := failing isRetry other
        unfold PageLog.failing at *
        cases result with
        | ok bytes =>
          simp only [ended_fetchEnded, errors_ok]
          split
          · exact Nat.le_trans this List.count_le_count_cons
          · exact this
        | error e =>
          simp only [ended_fetchEnded, errors_error]
          split
          · simp only [List.map_cons, List.count_cons]
            omega
          · exact this
      · intro other
        have := fetched other
        unfold PageLog.failing at *
        cases retry <;> cases result <;> simp [List.count_cons] <;> omega
    | _ => exact ⟨failing, fetched⟩

/-! ### The two passes -/

namespace Slot

def waiting? (slot : Slot) : Option PageTask :=
  match slot.stage with
  | .waiting _ => some slot.task
  | _ => none

def fetching? (slot : Slot) : Option PageTask :=
  match slot.stage with
  | .fetching => some slot.task
  | _ => none

end Slot

namespace PageFetcher

/-- The pages that wait for a permit. -/
def waiting (f : PageFetcher) : List PageTask :=
  f.slots.filterMap Slot.waiting?

/-- The pages that are being fetched. -/
def fetching (f : PageFetcher) : List PageTask :=
  f.slots.filterMap Slot.fetching?

@[simp] theorem slots_setStage (f : PageFetcher) (i : Nat) (task : PageTask) (stage : SlotStage) :
    (f.setStage i task stage).slots = f.slots.set i ⟨task, stage⟩ := rfl

@[simp] theorem slots_free (f : PageFetcher) (i : Nat) : (f.free i).slots = f.slots.eraseIdx i := rfl

@[simp] theorem dir_setStage (f : PageFetcher) (i : Nat) (task : PageTask) (stage : SlotStage) :
    (f.setStage i task stage).dir = f.dir := rfl

@[simp] theorem dir_free (f : PageFetcher) (i : Nat) : (f.free i).dir = f.dir := rfl

@[simp] theorem pending_free (f : PageFetcher) (i : Nat) : (f.free i).pending = f.pending := rfl

section
variable {α : Type} [BEq α] {slots : List Slot} {i : Nat} {slot : Slot}

/-- A slot goes on with its page. -/
theorem count_set (view : Slot → Option α) (hi : slots[i]? = some slot) (slot' : Slot) (a : α) :
    ((slots.set i slot').filterMap view).count a + (view slot).toList.count a =
      (slots.filterMap view).count a + (view slot').toList.count a := by
  obtain ⟨before, after, hslots, -, hset⟩ := exists_split hi
  rw [hset, hslots]
  simp only [List.filterMap_append, filterMap_cons_toList, List.count_append]
  omega

theorem count_eraseIdx (view : Slot → Option α) (hi : slots[i]? = some slot) (a : α) :
    ((slots.eraseIdx i).filterMap view).count a + (view slot).toList.count a =
      (slots.filterMap view).count a := by
  obtain ⟨before, after, hslots, herase, -⟩ := exists_split hi
  rw [herase, hslots]
  simp only [List.filterMap_append, filterMap_cons_toList, List.count_append]
  omega

end

/-- In the first pass nothing fails for good. Each page is fetched once, and is kept if that fails. -/
structure FirstPass (tasks : List PageTask) (v : PageLog) (f : PageFetcher) : Prop where
  isRetry : f.isRetry = false
  failure : f.failure = none
  begun : ∀ task, v.begun.count task = (v.ended false).count task + f.fetching.count task
  each : ∀ task, (v.ended false).count task + f.fetching.count task + f.waiting.count task +
    f.pending.count task = tasks.count task
  failed : ∀ task, f.failed.count task = (v.failing false).count task
  again : v.ended true = []
  errors : v.errors true = []

/-- In the second pass the pages that failed are fetched again, unless one fails again before. -/
structure SecondPass (tasks : List PageTask) (v : PageLog) (f : PageFetcher) : Prop where
  isRetry : f.isRetry = true
  failed : f.failed = []
  begun : ∀ task, v.begun.count task =
    (v.ended false).count task + (v.ended true).count task + f.fetching.count task
  each : ∀ task, (v.ended false).count task = tasks.count task
  again : ∀ task, (v.ended true).count task + f.fetching.count task + f.waiting.count task +
    f.pending.count task ≤ (v.failing false).count task
  whole : f.failure = none → v.errors true = [] ∧
    ∀ task, (v.ended true).count task + f.fetching.count task + f.waiting.count task +
      f.pending.count task = (v.failing false).count task
  failure : ∀ e, f.failure = some e → ∃ task cause, (task, cause) ∈ v.errors true ∧
    e = .download (.pageFailed task.index task.url cause.message)

/-- While nothing has failed for good, pages that were fetched are queued or wait for that. -/
structure Hands (dir : String) (v : PageLog) (f : PageFetcher) : Prop where
  dir : f.dir = dir
  places : ∀ page ∈ v.fetched, page.dir = f.dir
  fetched : f.failure = none → ∀ page, v.fetched.count page = v.queued.count page + f.held.count page

/-- A move of the pages that are being fetched, as the log `v` becomes `v'`: a page that leaves the slots
or is not taken has been fetched in this pass, unless fetching is to stop. -/
structure Tracks (f f' : PageFetcher) (v v' : PageLog) : Prop where
  isRetry : f'.isRetry = f.isRetry
  begun : ∀ task, v'.begun.count task + (v.ended f.isRetry).count task + f.fetching.count task =
    v.begun.count task + (v'.ended f.isRetry).count task + f'.fetching.count task
  left : ∀ task, (v'.ended f.isRetry).count task + f'.fetching.count task + f'.waiting.count task +
      f'.pending.count task ≤
    (v.ended f.isRetry).count task + f.fetching.count task + f.waiting.count task +
      f.pending.count task
  kept : f.failure = none → ∀ task,
    (v'.ended f.isRetry).count task + f'.fetching.count task + f'.waiting.count task +
        f'.pending.count task =
      (v.ended f.isRetry).count task + f.fetching.count task + f.waiting.count task +
        f.pending.count task
  others : v'.ended (!f.isRetry) = v.ended (!f.isRetry) ∧
    v'.errors (!f.isRetry) = v.errors (!f.isRetry)

variable {tasks : List PageTask} {dir : String} {hs new : List Happening} {f f' : PageFetcher}
  {move : Move}

/-- A move that lets go of no page. -/
theorem tracks_of_kept {v v' : PageLog} (isRetry : f'.isRetry = f.isRetry)
    (begun : ∀ task, v'.begun.count task + (v.ended f.isRetry).count task + f.fetching.count task =
      v.begun.count task + (v'.ended f.isRetry).count task + f'.fetching.count task)
    (kept : ∀ task, (v'.ended f.isRetry).count task + f'.fetching.count task +
        f'.waiting.count task + f'.pending.count task =
      (v.ended f.isRetry).count task + f.fetching.count task + f.waiting.count task +
        f.pending.count task)
    (others : v'.ended (!f.isRetry) = v.ended (!f.isRetry) ∧
      v'.errors (!f.isRetry) = v.errors (!f.isRetry)) : f.Tracks f' v v' :=
  ⟨isRetry, begun, fun task => Nat.le_of_eq (kept task), fun _ => kept, others⟩

section
variable {v v' : PageLog} {i : Nat} {slot slot' : Slot}

/-- A slot goes on with its page: what it begins to fetch has begun, and what it has fetched has ended. -/
theorem tracks_set (hi : f.slots[i]? = some slot) (isRetry : f'.isRetry = f.isRetry)
    (slots : f'.slots = f.slots.set i slot') (pending : f'.pending = f.pending)
    (begun : ∀ task, v'.begun.count task + (v.ended f.isRetry).count task +
        slot.fetching?.toList.count task =
      v.begun.count task + (v'.ended f.isRetry).count task + slot'.fetching?.toList.count task)
    (kept : ∀ task, (v'.ended f.isRetry).count task + slot'.fetching?.toList.count task +
        slot'.waiting?.toList.count task =
      (v.ended f.isRetry).count task + slot.fetching?.toList.count task +
        slot.waiting?.toList.count task)
    (others : v'.ended (!f.isRetry) = v.ended (!f.isRetry) ∧
      v'.errors (!f.isRetry) = v.errors (!f.isRetry)) : f.Tracks f' v v' := by
  refine tracks_of_kept isRetry (fun task => ?_) (fun task => ?_) others
  all_goals
    have := begun task
    have := kept task
    have := count_set Slot.fetching? hi slot' task
    have := count_set Slot.waiting? hi slot' task
    rw [fetching, fetching, slots]
  · omega
  · rw [waiting, waiting, slots, pending]
    omega

/-- A slot is done with its page. -/
theorem tracks_eraseIdx (hi : f.slots[i]? = some slot) (isRetry : f'.isRetry = f.isRetry)
    (slots : f'.slots = f.slots.eraseIdx i) (pending : f'.pending = f.pending)
    (begun : ∀ task, v'.begun.count task + (v.ended f.isRetry).count task +
        slot.fetching?.toList.count task = v.begun.count task + (v'.ended f.isRetry).count task)
    (kept : ∀ task, (v'.ended f.isRetry).count task =
      (v.ended f.isRetry).count task + slot.fetching?.toList.count task +
        slot.waiting?.toList.count task)
    (others : v'.ended (!f.isRetry) = v.ended (!f.isRetry) ∧
      v'.errors (!f.isRetry) = v.errors (!f.isRetry)) : f.Tracks f' v v' := by
  refine tracks_of_kept isRetry (fun task => ?_) (fun task => ?_) others
  all_goals
    have := begun task
    have := kept task
    have := count_eraseIdx Slot.fetching? hi task
    have := count_eraseIdx Slot.waiting? hi task
    rw [fetching, fetching, slots]
  · omega
  · rw [waiting, waiting, slots, pending]
    omega

end

theorem Step.tracks (hf : f.Step false move new f') (hs : List Happening) :
    f.Tracks f' (Journal.pages hs) (Journal.pages (new ++ hs)) := by
  have stopped (hs : f.isStopped false = true) (hnone : f.failure = none) : False := by
    simp [isStopped, hnone] at hs
  cases hf with
  | @takes task rest now hp =>
    refine tracks_of_kept rfl (fun other => ?_) (fun other => ?_) ⟨rfl, rfl⟩
    · simp [fetching, filterMap_cons_toList, Slot.fetching?]
    · rw [hp]
      simp [fetching, waiting, filterMap_cons_toList, Slot.fetching?, Slot.waiting?, List.count_cons]
      omega
  | @skips task rest hp hs =>
    refine ⟨rfl, fun _ => rfl, fun other => ?_, fun hnone => (stopped hs hnone).elim, rfl, rfl⟩
    rw [hp]
    exact Nat.add_le_add_left List.count_le_count_cons _
  | @leaves i instant task hi hs =>
    have fetching' := count_eraseIdx Slot.fetching? hi
    have waiting' := count_eraseIdx Slot.waiting? hi
    refine ⟨rfl, fun other => ?_, fun other => ?_, fun hnone => (stopped hs hnone).elim, rfl, rfl⟩
    · exact congrArg (_ + ·) (fetching' other).symm
    · have := fetching' other
      have := waiting' other
      simp [fetching, waiting, Slot.fetching?] at *
      omega
  | begins limiter hi =>
    exact tracks_set hi rfl rfl rfl
      (fun _ => by simp [Slot.fetching?, List.count_cons]; omega)
      (fun _ => by simp [Slot.fetching?, Slot.waiting?]) ⟨rfl, rfl⟩
  | waits limiter next hi =>
    exact tracks_set hi rfl rfl rfl (fun _ => by simp [Slot.fetching?])
      (fun _ => by simp [Slot.fetching?, Slot.waiting?]) ⟨rfl, rfl⟩
  | receives hi =>
    exact tracks_set hi rfl rfl rfl
      (fun _ => by simp [Slot.fetching?, List.count_cons]; omega)
      (fun _ => by simp [Slot.fetching?, Slot.waiting?, List.count_cons]) (by simp)
  | abandons hi | postpones hi | fails hi =>
    exact tracks_eraseIdx hi rfl rfl rfl
      (fun _ => by simp [Slot.fetching?, List.count_cons]; omega)
      (fun _ => by simp [Slot.fetching?, Slot.waiting?, List.count_cons]) (by simp)
  | drops hi =>
    exact tracks_eraseIdx hi rfl rfl rfl (fun _ => by simp [Slot.fetching?])
      (fun _ => by simp [Slot.fetching?, Slot.waiting?]) ⟨rfl, rfl⟩

/-- The errors of a pass stay as they are, or a page fails for the first time or for good. -/
def Raises (f f' : PageFetcher) (v v' : PageLog) : Prop :=
  (f'.failed = f.failed ∧ f'.failure = f.failure ∧ v'.errors f.isRetry = v.errors f.isRetry) ∨
    ∃ task e, v'.errors f.isRetry = (task, e) :: v.errors f.isRetry ∧
      (f.isRetry = false ∧ f'.failed = f.failed ++ [task] ∧ f'.failure = f.failure ∨
        f.isRetry = true ∧ f'.failed = f.failed ∧ f'.failure = f.failure.or
          (some (.download (.pageFailed task.index task.url e.message))))

/-- No fetch is answered with an error that says it was cancelled. -/
def Honest (move : Move) : Prop :=
  ∀ i e, move = .receivePage i (.error e) → e.isCancelled = false

theorem Step.raises (hf : f.Step false move new f') (honest : Honest move) (hs : List Happening) :
    f.Raises f' (Journal.pages hs) (Journal.pages (new ++ hs)) := by
  cases hf with
  | abandons _ he =>
    rw [honest _ _ rfl] at he
    cases he
  | @postpones i task e hi he hr => exact .inr ⟨task, e, by simp, .inl ⟨hr, rfl, rfl⟩⟩
  | @fails i task e hi he hr => exact .inr ⟨task, e, by simp, .inr ⟨hr, rfl, rfl⟩⟩
  | _ => exact .inl ⟨rfl, rfl, rfl⟩

/-- A page that is queued leaves its slot. -/
theorem tracks_queued {i : Nat} {task : PageTask} {bytes : ByteArray}
    (hi : f.slots[i]? = some ⟨task, .queueing bytes⟩) (hs : List Happening) :
    f.Tracks (f.free i) (Journal.pages hs)
      (Journal.pages (.pageQueued (f.page task bytes) :: hs)) :=
  tracks_eraseIdx hi rfl rfl rfl (fun _ => by simp [Slot.fetching?])
    (fun _ => by simp [Slot.fetching?, Slot.waiting?]) ⟨rfl, rfl⟩

section
variable {v v' : PageLog}

theorem FirstPass.moves (h : f.FirstPass tasks v) (t : f.Tracks f' v v') (hr : f.Raises f' v v') :
    f'.FirstPass tasks v' := by
  obtain ⟨isRetry, begun, -, kept, others⟩ := t
  unfold Raises at hr
  rw [h.isRetry] at begun kept others hr
  refine ⟨isRetry.trans h.isRetry, ?_, fun task => ?_, fun task => ?_, fun task => ?_,
    others.1.trans h.again, others.2.trans h.errors⟩
  · rcases hr with ⟨-, hfailure, -⟩ | ⟨_, _, -, ⟨-, -, hfailure⟩ | ⟨hretry, -⟩⟩
    · exact hfailure.trans h.failure
    · exact hfailure.trans h.failure
    · cases hretry
  · have before := h.begun task
    have := begun task
    omega
  · have before := h.each task
    have := kept h.failure task
    omega
  · have before := h.failed task
    rcases hr with ⟨hfailed, -, herrors⟩ | ⟨page, e, herrors, ⟨-, hfailed, -⟩ | ⟨hretry, -⟩⟩
    · rw [hfailed, PageLog.failing, herrors]
      exact before
    · rw [hfailed, PageLog.failing, herrors, List.count_append, before]
      simp [PageLog.failing, List.count_cons]
    · cases hretry

theorem SecondPass.moves (h : f.SecondPass tasks v) (t : f.Tracks f' v v') (hr : f.Raises f' v v') :
    f'.SecondPass tasks v' := by
  obtain ⟨isRetry, begun, left, kept, others⟩ := t
  unfold Raises at hr
  rw [h.isRetry] at begun left kept others hr
  have first : v'.ended false = v.ended false := others.1
  have failing : v'.failing false = v.failing false := congrArg (List.map _) others.2
  refine ⟨isRetry.trans h.isRetry, ?_, fun task => ?_, fun task => ?_, fun task => ?_,
    fun hnone => ?_, fun e he => ?_⟩
  · rcases hr with ⟨hfailed, -⟩ | ⟨_, _, -, ⟨hretry, -⟩ | ⟨-, hfailed, -⟩⟩
    · exact hfailed.trans h.failed
    · cases hretry
    · exact hfailed.trans h.failed
  · have before := h.begun task
    have := begun task
    rw [first]
    omega
  · rw [first]
    exact h.each task
  · rw [failing]
    exact Nat.le_trans (left task) (h.again task)
  · rcases hr with ⟨-, hfailure, herrors⟩ | ⟨_, _, -, ⟨hretry, -⟩ | ⟨-, -, hfailure⟩⟩
    · rw [hfailure] at hnone
      obtain ⟨none, whole⟩ := h.whole hnone
      refine ⟨herrors.trans none, fun task => ?_⟩
      rw [failing]
      exact (kept hnone task).trans (whole task)
    · cases hretry
    · simp [hnone] at hfailure
  · -- The first page that fails again is the failure, and later ones do not replace it.
    rcases hr with ⟨-, hfailure, herrors⟩ |
      ⟨page, cause, herrors, ⟨hretry, -⟩ | ⟨-, -, hfailure⟩⟩
    · rw [hfailure] at he
      rw [herrors]
      exact h.failure e he
    · cases hretry
    · rw [herrors]
      rw [hfailure] at he
      cases hfail : f.failure with
      | none =>
        rw [hfail] at he
        exact ⟨page, cause, List.mem_cons_self .., (Option.some.inj he).symm⟩
      | some e' =>
        rw [hfail] at he
        obtain rfl : e' = e := Option.some.inj he
        obtain ⟨task, cause, hmem, heq⟩ := h.failure e' hfail
        exact ⟨task, cause, List.mem_cons_of_mem _ hmem, heq⟩

end

/-! ### Pages on their way to the queue -/

theorem Hands.step (h : f.Hands dir (Journal.pages hs)) (hf : f.Step false move new f') :
    f'.Hands dir (Journal.pages (new ++ hs)) := by
  have stopped (hs : f.isStopped false = true) (hnone : f.failure = none) : False := by
    simp [isStopped, hnone] at hs
  cases hf with
  | @takes task rest now hp =>
    refine ⟨h.dir, h.places, fun hnone page => (h.fetched hnone page).trans ?_⟩
    simp [held, filterMap_cons_toList, Slot.held?]
  | skips hp hs => exact ⟨h.dir, h.places, fun hnone => (stopped hs hnone).elim⟩
  | leaves hi hs | drops hi hs => exact ⟨h.dir, h.places, fun hnone => (stopped hs hnone).elim⟩
  | @begins i instant task limiter hi =>
    refine ⟨h.dir, h.places, fun hnone page => (h.fetched hnone page).trans ?_⟩
    have := count_set (Slot.held? f.dir) hi ⟨task, .fetching⟩ page
    simp [held, Slot.held?] at *
    omega
  | @waits i instant task limiter next hi =>
    refine ⟨h.dir, h.places, fun hnone page => (h.fetched hnone page).trans ?_⟩
    have := count_set (Slot.held? f.dir) hi ⟨task, .waiting next⟩ page
    simp [held, Slot.held?] at *
    omega
  | @receives i task bytes hi =>
    refine ⟨h.dir, List.forall_mem_cons.mpr ⟨rfl, h.places⟩, fun hnone page => ?_⟩
    have := h.fetched hnone page
    have := count_set (Slot.held? f.dir) hi ⟨task, .queueing bytes⟩ page
    simp [held, Slot.held?, List.count_cons] at *
    omega
  | @abandons i task e hi | @postpones i task e hi =>
    refine ⟨h.dir, h.places, fun hnone page => (h.fetched hnone page).trans ?_⟩
    have := count_eraseIdx (Slot.held? f.dir) hi page
    simp [held, Slot.held?] at *
    omega
  | fails => exact ⟨h.dir, h.places, fun hnone => by simp at hnone⟩

theorem Hands.queued (h : f.Hands dir (Journal.pages hs)) {i : Nat} {task : PageTask}
    {bytes : ByteArray} (hi : f.slots[i]? = some ⟨task, .queueing bytes⟩) :
    (f.free i).Hands dir (Journal.pages (.pageQueued (f.page task bytes) :: hs)) := by
  refine ⟨h.dir, h.places, fun hnone page => ?_⟩
  have := h.fetched hnone page
  have := count_eraseIdx (Slot.held? f.dir) hi page
  simp [held, Slot.held?, PageFetcher.page, List.count_cons] at *
  omega

/-! ### The end of a pass -/

section
variable {v : PageLog}

theorem isPassOver_iff : f.isPassOver = true ↔ f.pending = [] ∧ f.slots = [] := by
  simp [isPassOver, List.isEmpty_iff]

theorem empty_of_isPassOver (ho : f.isPassOver = true) :
    f.pending = [] ∧ f.waiting = [] ∧ f.fetching = [] := by
  obtain ⟨hpending, hslots⟩ := isPassOver_iff.mp ho
  exact ⟨hpending, by rw [waiting, hslots]; rfl, by rw [fetching, hslots]; rfl⟩

/-- The second pass begins with the pages that failed. -/
theorem FirstPass.retry (h : f.FirstPass tasks v) (ho : f.isPassOver = true)
    (hf : f.retry? false = some f') : f'.SecondPass tasks v := by
  obtain ⟨hpending, hwaiting, hfetching⟩ := empty_of_isPassOver ho
  have hfailure := h.failure
  obtain rfl : f' = { f with isRetry := true, pending := f.failed, failed := [] } := by
    unfold retry? at hf
    split at hf
    · cases hf
    · exact (Option.some.inj hf).symm
  have again (task : PageTask) : (v.ended true).count task + f.fetching.count task +
      f.waiting.count task + f.failed.count task = (v.failing false).count task := by
    rw [h.again, hfetching, hwaiting, h.failed]
    simp
  refine ⟨rfl, rfl, fun task => ?_, fun task => ?_, fun task => Nat.le_of_eq (again task),
    fun _ => ⟨h.errors, again⟩, fun e he => ?_⟩
  · rw [h.again]
    exact h.begun task
  · have := h.each task
    rw [hfetching, hwaiting, hpending] at this
    simpa using this
  · rw [hfailure] at he
    cases he

theorem Hands.retry (h : f.Hands dir v) (hf : f.retry? false = some f') : f'.Hands dir v := by
  unfold retry? at hf
  split at hf
  · cases hf
  · cases hf
    exact ⟨h.dir, h.places, h.fetched⟩

theorem Hands.queued_perm (h : f.Hands dir v) (ho : f.isPassOver = true) (hnone : f.failure = none) :
    v.queued.Perm v.fetched := by
  rw [List.perm_iff_count]
  intro page
  have := h.fetched hnone page
  rw [held, (isPassOver_iff.mp ho).2] at this
  simpa using this.symm

theorem FirstPass.through (h : f.FirstPass tasks v) (hands : f.Hands dir v) (ho : f.isPassOver = true)
    (hf : f.retry? false = none) : v.Through dir tasks := by
  obtain ⟨hpending, hwaiting, hfetching⟩ := empty_of_isPassOver ho
  have none : f.failed = [] := by
    simpa [PageFetcher.retry?, h.isRetry, isStopped, h.failure] using hf
  have failing (task : PageTask) : (v.failing false).count task = 0 := by
    rw [← h.failed, none]
    rfl
  have first (task : PageTask) : (v.ended false).count task = tasks.count task := by
    have := h.each task
    rw [hfetching, hwaiting, hpending] at this
    simpa using this
  have again (task : PageTask) : (v.ended true).count task = (v.failing false).count task := by
    rw [h.again, failing]
    rfl
  refine ⟨⟨fun task => ?_, first, fun task => Nat.le_of_eq (again task)⟩, again, h.errors,
    hands.dir ▸ hands.places, hands.queued_perm ho h.failure⟩
  have := h.begun task
  rw [hfetching, first] at this
  simpa [h.again] using this

theorem SecondPass.over (h : f.SecondPass tasks v) (ho : f.isPassOver = true) : v.Over tasks := by
  obtain ⟨hpending, hwaiting, hfetching⟩ := empty_of_isPassOver ho
  refine ⟨fun task => ?_, h.each, fun task => ?_⟩
  · have := h.begun task
    rw [hfetching, h.each] at this
    simpa using this
  · have := h.again task
    rw [hfetching, hwaiting, hpending] at this
    simpa using this

theorem SecondPass.through (h : f.SecondPass tasks v) (hands : f.Hands dir v) (ho : f.isPassOver = true)
    (hnone : f.failure = none) : v.Through dir tasks := by
  obtain ⟨hpending, hwaiting, hfetching⟩ := empty_of_isPassOver ho
  obtain ⟨none, whole⟩ := h.whole hnone
  refine ⟨h.over ho, fun task => ?_, none, hands.dir ▸ hands.places, hands.queued_perm ho hnone⟩
  have := whole task
  rw [hfetching, hwaiting, hpending] at this
  simpa using this

theorem SecondPass.broken (h : f.SecondPass tasks v) (ho : f.isPassOver = true) {e : Error}
    (he : f.failure = some e) : v.Broken tasks e :=
  ⟨h.over ho, h.failure e he⟩

end

end PageFetcher

/-! ### In which order pages are fetched -/

theorem PageFetcher.nodup_tasks (urls : List String) : (tasks urls).Nodup := by
  have indices : (tasks urls).map PageTask.index = (List.range' 0 urls.length).map (· + 1) := by
    rw [tasks, List.map_map, ← List.zipIdx_map_snd, List.map_map]
    rfl
  refine List.Nodup.of_map PageTask.index ?_
  rw [indices]
  exact List.Nodup.map (fun _ _ h => Nat.succ.inj h) List.nodup_range'

/-- What a journal tells of these pages in order: a page whose fetch has begun is fetched again only when
the first fetch of each has ended, and what ends in the second pass is a fetch of a page fetched before. -/
structure Journal.Ordered (tasks : List PageTask) (hs : List Happening) : Prop where
  drained : ∀ dir task earlier, .fetchBegun dir task :: earlier <:+ hs →
    task ∈ (pages earlier).begun → ∀ other ∈ tasks, other ∈ (pages earlier).ended false
  again : ∀ dir task isRetry result earlier, .fetchEnded dir task isRetry result :: earlier <:+ hs →
    (isRetry = true ↔ task ∈ (pages earlier).ended false)

namespace Journal.Ordered
variable {tasks : List PageTask} {hs : List Happening} {x : Happening}

theorem nil (tasks : List PageTask) : Ordered tasks [] where
  drained := fun _ _ _ h => by simp at h
  again := fun _ _ _ _ _ h => by simp at h

theorem cons (h : Ordered tasks hs)
    (hbegun : ∀ dir task, x = .fetchBegun dir task → task ∈ (pages hs).begun →
      ∀ other ∈ tasks, other ∈ (pages hs).ended false)
    (hended : ∀ dir task isRetry result, x = .fetchEnded dir task isRetry result →
      (isRetry = true ↔ task ∈ (pages hs).ended false)) : Ordered tasks (x :: hs) where
  drained := fun dir task earlier hsuffix => by
    rcases List.suffix_cons_iff.mp hsuffix with heq | hsuffix
    · cases heq
      exact hbegun dir task rfl
    · exact h.drained dir task earlier hsuffix
  again := fun dir task isRetry result earlier hsuffix => by
    rcases List.suffix_cons_iff.mp hsuffix with heq | hsuffix
    · cases heq
      exact hended dir task isRetry result rfl
    · exact h.again dir task isRetry result earlier hsuffix

end Journal.Ordered

namespace PageFetcher
variable {tasks : List PageTask} {hs new : List Happening} {f f' : PageFetcher} {move : Move}

theorem mem_fetching {i : Nat} {task : PageTask} (hi : f.slots[i]? = some ⟨task, .fetching⟩) :
    task ∈ f.fetching :=
  List.mem_filterMap.mpr ⟨_, List.mem_of_getElem? hi, rfl⟩

theorem mem_waiting {i instant : Nat} {task : PageTask}
    (hi : f.slots[i]? = some ⟨task, .waiting instant⟩) : task ∈ f.waiting :=
  List.mem_filterMap.mpr ⟨_, List.mem_of_getElem? hi, rfl⟩

/-- In the first pass the pages in the slots have not been fetched. -/
theorem FirstPass.not_mem {v : PageLog} (h : f.FirstPass tasks v) (hn : tasks.Nodup) {task : PageTask} :
    (task ∈ f.waiting → task ∉ v.begun) ∧ (task ∈ f.fetching → task ∉ v.ended false) := by
  have once := List.nodup_iff_count_le_one.mp hn task
  have each := h.each task
  have begun := h.begun task
  refine ⟨fun hmem => ?_, fun hmem => ?_⟩ <;> rw [← List.count_eq_zero] <;>
    have := List.count_pos_iff.mpr hmem <;> omega

/-- In the second pass all pages have been fetched. -/
theorem SecondPass.mem_ended (h : f.SecondPass tasks (Journal.pages hs)) {task : PageTask} :
    (task ∈ tasks → task ∈ (Journal.pages hs).ended false) ∧
      (task ∈ f.fetching → task ∈ (Journal.pages hs).ended false) := by
  have each := h.each task
  have again := h.again task
  have adds := (Journal.pages_adds hs).failing false task
  refine ⟨fun hmem => ?_, fun hmem => ?_⟩ <;> rw [← List.count_pos_iff] <;>
    have := List.count_pos_iff.mpr hmem <;> omega

theorem Step.ordered (hf : f.Step false move new f') (h : Journal.Ordered tasks hs)
    (hn : tasks.Nodup)
    (pass : f.FirstPass tasks (Journal.pages hs) ∨ f.SecondPass tasks (Journal.pages hs)) :
    Journal.Ordered tasks (new ++ hs) := by
  have ended {task : PageTask} (hmem : task ∈ f.fetching) :
      f.isRetry = true ↔ task ∈ (Journal.pages hs).ended false := by
    rcases pass with first | second
    · rw [first.isRetry]
      exact iff_of_false (by decide) ((first.not_mem hn).2 hmem)
    · exact iff_of_true second.isRetry (second.mem_ended.2 hmem)
  cases hf with
  | begins limiter hi =>
    refine h.cons (fun _ _ heq hbegun => ?_) nofun
    cases heq
    rcases pass with first | second
    · exact absurd hbegun ((first.not_mem hn).1 (mem_waiting hi))
    · exact fun _ hmem => second.mem_ended.1 hmem
  | receives hi | abandons hi | postpones hi | fails hi =>
    refine h.cons nofun fun _ _ _ _ heq => ?_
    cases heq
    exact ended (mem_fetching hi)
  | _ => exact h

end PageFetcher

/-! ### How often a page is fetched -/

namespace PageLog
variable {dir : String} {tasks : List PageTask} {v : PageLog} {task : PageTask}

/-- The pages that failed for the first time are pages of the chapter, and each failed once. -/
theorem Over.failing_le (h : v.Over tasks) (adds : v.Adds) (task : PageTask) :
    (v.failing false).count task ≤ tasks.count task :=
  h.first task ▸ adds.failing false task

theorem Over.nodup_failing (h : v.Over tasks) (adds : v.Adds) (hn : tasks.Nodup) :
    (v.failing false).Nodup :=
  List.nodup_iff_count_le_one.mpr fun task =>
    Nat.le_trans (h.failing_le adds task) (List.nodup_iff_count_le_one.mp hn task)

/-- A page that failed for the second time has failed before. -/
theorem Over.failing_again (h : v.Over tasks) (adds : v.Adds) (hmem : task ∈ v.failing true) :
    task ∈ v.failing false := by
  rw [← List.count_pos_iff] at hmem ⊢
  calc 0 < (v.failing true).count task := hmem
    _ ≤ (v.ended true).count task := adds.failing true task
    _ ≤ (v.failing false).count task := h.again task

theorem Over.begun_once (h : v.Over tasks) (hn : tasks.Nodup) (hmem : task ∈ tasks)
    (hf : task ∉ v.failing false) : v.begun.count task = 1 := by
  have never := h.again task
  rw [List.count_eq_zero.mpr hf] at never
  rw [h.begun, List.count_eq_one_of_mem hn hmem, Nat.le_zero.mp never]

theorem Over.begun_le (h : v.Over tasks) (adds : v.Adds) (task : PageTask) :
    v.begun.count task ≤ 2 * tasks.count task := by
  have := h.begun task
  have := h.again task
  have := h.failing_le adds task
  omega

theorem Through.begun_twice (h : v.Through dir tasks) (adds : v.Adds) (hn : tasks.Nodup)
    (hmem : task ∈ v.failing false) : v.begun.count task = 2 := by
  have failed := List.count_eq_one_of_mem (h.nodup_failing adds hn) hmem
  have once : tasks.count task = 1 := by
    have := h.failing_le adds task
    have := List.nodup_iff_count_le_one.mp hn task
    omega
  rw [h.begun, h.whole, failed, once]

/-- Each page has been brought by one of its fetches. -/
theorem Through.fetched_perm (h : v.Through dir tasks) (adds : v.Adds) :
    (v.fetched.map FetchedPage.task).Perm tasks := by
  rw [List.perm_iff_count]
  intro task
  have brought := adds.fetched task
  have never : (v.failing true).count task = 0 := by
    rw [failing, h.errors]
    rfl
  rw [h.first, h.whole, never] at brought
  omega

theorem Through.queued_perm (h : v.Through dir tasks) (adds : v.Adds) :
    (v.queued.map FetchedPage.key).Perm (tasks.map (dir, ·)) := by
  have keys : v.fetched.map FetchedPage.key = (v.fetched.map FetchedPage.task).map (dir, ·) := by
    rw [List.map_map]
    exact List.map_congr_left fun page hmem => Prod.ext (h.places page hmem) rfl
  have queued := h.queued.map FetchedPage.key
  rw [keys] at queued
  exact queued.trans ((h.fetched_perm adds).map _)

end PageLog

namespace PageFetcher
variable {tasks : List PageTask} {v : PageLog} {f : PageFetcher}

theorem FirstPass.begun_le (h : f.FirstPass tasks v) (task : PageTask) :
    v.begun.count task ≤ 2 * tasks.count task := by
  have := h.begun task
  have := h.each task
  omega

theorem SecondPass.begun_le (h : f.SecondPass tasks v) (adds : v.Adds) (task : PageTask) :
    v.begun.count task ≤ 2 * tasks.count task := by
  have := h.begun task
  have := h.each task
  have := h.again task
  have := adds.failing false task
  omega

end PageFetcher
end Longbox
