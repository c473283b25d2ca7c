import Longbox.Proofs.Download.Harm
import Longbox.Proofs.Download.Retry
import Longbox.Proofs.Download.Tally

/-! A chapter from its addresses to its end.

While a chapter is current, what has been told since its addresses were given agrees with where its pages
are (`Assignment.Goes`). As long as nothing is cancelled each step of the download keeps that, or the
chapter ends with it: it is through or has failed for good (`Assignment.Ends`). -/
namespace Longbox

/-- A chapter whose addresses a call has been given. -/
structure Assignment where
  call : Nat
  token : Nat
  dir : String
  urls : List String
  /-- The chapters after it. -/
  rest : List Chapter

/-- Whoever fetches pages or writes metadata answers that it was cancelled. -/
def Move.declines : Move → Bool
  | .endMetadata (.error e) | .receivePage _ (.error e) => e.isCancelled
  | _ => false

/-- A fetch begins or ends. -/
def Happening.isFetch : Happening → Bool
  | .fetchBegun .. | .fetchEnded .. => true
  | _ => false

/-- From one ledger to another these things have been told in order, `n` chapters have been counted, and of
the pages `tasks` those that failed for the first time. -/
structure Ledger.Since (tasks : List PageTask) (l₀ l : Ledger) (hs : List Happening) (n : Nat) :
    Prop where
  happened : l.happened = hs ++ l₀.happened
  ordered : Journal.Ordered tasks hs
  chapters : l.chapters = l₀.chapters + n
  failures : l.counters.failures =
    l₀.counters.failures + ((Journal.pages hs).failing false).length

namespace Ledger
variable {tasks : List PageTask} {l₀ l : Ledger} {hs : List Happening} {n : Nat} {x : Happening}

theorem since_refl (tasks : List PageTask) (l : Ledger) : Since tasks l l [] 0 :=
  ⟨rfl, .nil tasks, rfl, rfl⟩

theorem Since.setDisk (s : Since tasks l₀ l hs n) (disk : Disk) (recorded : List String) :
    Since tasks l₀ { l with disk, recorded } hs n :=
  ⟨s.happened, s.ordered, s.chapters, s.failures⟩

/-- Errors that say so are of being cancelled; others are failures. -/
theorem Since.note (s : Since tasks l₀ l hs n) (hw : x.isWork = true)
    (hx : ∀ dir task isRetry e, x = .fetchEnded dir task isRetry (.error e) → e.isCancelled = false)
    (ordered : Journal.Ordered tasks (x :: hs)) :
    Since tasks l₀ (l.note x) (x :: hs) (n + x.chapters) where
  happened := by
    rw [happened_note l hw, s.happened]
    rfl
  ordered := ordered
  chapters := by
    rw [chapters_note, s.chapters, Nat.add_assoc]
  failures := by
    have counted := s.failures
    rw [counters_note]
    cases x with
    | fetchEnded dir task isRetry result =>
      cases result with
      | ok bytes => exact counted
      | error e =>
        have he := hx dir task isRetry e rfl
        cases isRetry <;> simp [Counters.note, PageLog.failing, he] at * <;> omega
    | _ => exact counted

theorem Since.quiet (s : Since tasks l₀ l hs n) (hw : x.isWork = true) (hf : x.isFetch = false) :
    Since tasks l₀ (l.note x) (x :: hs) (n + x.chapters) := by
  refine s.note hw ?_ (s.ordered.cons ?_ ?_) <;> rintro _ _ <;> intros <;> subst x <;> cases hf

theorem Since.fetches {f f' : PageFetcher} {move : Move} {new : List Happening}
    (s : Since tasks l₀ l hs 0) (hf : f.Step false move new f') (honest : PageFetcher.Honest move)
    (hn : tasks.Nodup)
    (pass : f.FirstPass tasks (Journal.pages hs) ∨ f.SecondPass tasks (Journal.pages hs)) :
    Since tasks l₀ (l.noteAll new) (new ++ hs) 0 := by
  have ordered := hf.ordered s.ordered hn pass
  cases hf with
  | begins | receives => exact s.note rfl (fun _ _ _ _ heq => by cases heq) ordered
  | abandons _ he | postpones _ he | fails _ he =>
    refine s.note rfl (fun _ _ _ _ heq => ?_) ordered
    cases heq
    exact honest _ _ rfl
  | _ => exact s

end Ledger

/-- What has been told of a chapter's pages agrees with its stage. -/
inductive ChapterStage.Tells (dir : String) (urls : List String) (images : Nat) (v : PageLog) :
    ChapterStage → Prop where
  | placing (hv : v = Journal.pages []) : Tells dir urls images v (.placing urls)
  | describing (hv : v = Journal.pages []) : Tells dir urls images v (.describing urls)
  | first {f : PageFetcher} (hi : images = v.fetched.length) (hands : f.Hands dir v)
      (pass : f.FirstPass (PageFetcher.tasks urls) v) : Tells dir urls images v (.fetching f)
  | second {f : PageFetcher} (hi : images = v.fetched.length) (hands : f.Hands dir v)
      (pass : f.SecondPass (PageFetcher.tasks urls) v) : Tells dir urls images v (.fetching f)
  | pausing {instant : Nat} (hi : images = v.fetched.length)
      (through : v.Through dir (PageFetcher.tasks urls)) : Tells dir urls images v (.pausing instant)

/-- No page of a current chapter has been fetched more than twice. -/
theorem ChapterStage.Tells.begun_le {dir : String} {urls : List String} {images : Nat}
    {hs : List Happening} {stage : ChapterStage}
    (h : stage.Tells dir urls images (Journal.pages hs)) (task : PageTask) :
    (Journal.pages hs).begun.count task ≤ 2 * (PageFetcher.tasks urls).count task := by
  cases h with
  | placing hv | describing hv =>
    rw [hv]
    exact Nat.zero_le _
  | first _ _ pass => exact pass.begun_le task
  | second _ _ pass => exact pass.begun_le (Journal.pages_adds hs) task
  | pausing _ through => exact through.begun_le (Journal.pages_adds hs) task

namespace Assignment

/-- The chapter is current, and its pages are where the ledger tells. -/
structure Goes (a : Assignment) (l₀ l : Ledger) (hs : List Happening) (d : Download) (c : ChapterRun) :
    Prop where
  current : d.current = some c
  remaining : d.remaining = a.rest
  dir : c.dir = a.dir
  since : Ledger.Since (PageFetcher.tasks a.urls) l₀ l hs 0
  stage : c.stage.Tells a.dir a.urls l.counters.images (Journal.pages hs)

/-- The chapter has ended: it is through and counts, or the download has failed of one of its pages. -/
inductive Ends (a : Assignment) (l₀ l : Ledger) (hs : List Happening) (d : Download) : Prop where
  | passes (since : Ledger.Since (PageFetcher.tasks a.urls) l₀ l hs 1)
      (hi : l.counters.images = (Journal.pages hs).fetched.length)
      (through : (Journal.pages hs).Through a.dir (PageFetcher.tasks a.urls))
      (hf : d.store.failure = none) (gone : d.current = none ∨ d.remaining ≠ a.rest)
  | fails {e : Error} (since : Ledger.Since (PageFetcher.tasks a.urls) l₀ l hs 0)
      (broken : (Journal.pages hs).Broken (PageFetcher.tasks a.urls) e)
      (hf : d.store.failure = some e) (gone : d.current = none)

variable {a : Assignment} {l₀ l l' : Ledger} {hs : List Happening} {d d' : Download} {c : ChapterRun}
  {move : Move} {naming : Naming}

theorem Ends.over (h : a.Ends l₀ l hs d) :
    (Journal.pages hs).Over (PageFetcher.tasks a.urls) := by
  cases h with
  | passes _ _ through => exact through.toOver
  | fails _ broken => exact broken.toOver

theorem Ends.since (h : a.Ends l₀ l hs d) :
    ∃ n, Ledger.Since (PageFetcher.tasks a.urls) l₀ l hs n := by
  cases h with
  | passes since | fails since => exact ⟨_, since⟩

/-- The chapter's fetches are through, and it counts. -/
theorem Goes.passes (h : a.Goes l₀ l hs d c) (hf : d.store.failure = none)
    (hi : l.counters.images = (Journal.pages hs).fetched.length)
    (through : (Journal.pages hs).Through a.dir (PageFetcher.tasks a.urls))
    (hn : d.Next naming false (l.note .chapterDownloaded) l' d') :
    ∃ hs', a.Ends l₀ l' hs' d' := by
  have since := h.since.quiet (x := .chapterDownloaded) rfl rfl
  have images : (l.note .chapterDownloaded).counters.images = (Journal.pages hs).fetched.length := by
    rw [Ledger.counters_note]
    exact hi
  cases hn with
  | closes => exact ⟨_, .passes since images through hf (.inl rfl)⟩
  | @begins chapter rest began _ hr =>
    refine ⟨_, .passes (since.quiet rfl rfl) ?_ through hf (.inr ?_)⟩
    · rw [Ledger.counters_note]
      exact images
    · rw [← h.remaining, hr]
      exact (List.cons_ne_self _ _).symm

/-- The chapter goes on to another stage. -/
theorem Goes.inStage (h : a.Goes l₀ l hs d c) {hs' : List Happening} {stage : ChapterStage}
    (since : Ledger.Since (PageFetcher.tasks a.urls) l₀ l' hs' 0)
    (tells : stage.Tells a.dir a.urls l'.counters.images (Journal.pages hs')) :
    a.Goes l₀ l' hs' (d.inStage c stage) { c with stage } :=
  ⟨rfl, h.remaining, h.dir, since, tells⟩

/-- Pages are counted as they are fetched. -/
theorem images_noteAll {f f' : PageFetcher} {new : List Happening} (hf : f.Step false move new f')
    (hi : l.counters.images = (Journal.pages hs).fetched.length) :
    (l.noteAll new).counters.images = (Journal.pages (new ++ hs)).fetched.length := by
  have failed (task : PageTask) (e : Error) :
      (l.noteAll [.fetchEnded f.dir task f.isRetry (.error e)]).counters.images =
        l.counters.images := by
    simp only [Ledger.noteAll, List.foldl_cons, List.foldl_nil, Ledger.counters_note, Counters.note]
    split <;> rfl
  cases hf with
  | receives hi' => simp [Ledger.noteAll, Counters.note, hi]
  | abandons | postpones | fails => exact (failed _ _).trans hi
  | begins =>
    rw [Ledger.noteAll, List.foldl_cons, List.foldl_nil, Ledger.counters_note]
    exact hi
  | _ => exact hi

/-- Fetching is over without a failure. -/
theorem tells_through {dir : String} {urls : List String} {images : Nat} {v : PageLog} {f : PageFetcher}
    (h : (ChapterStage.fetching f).Tells dir urls images v) (ho : f.isPassOver = true)
    (hretry : f.retry? false = none) (hr : f.result false = .ok ()) :
    images = v.fetched.length ∧ v.Through dir (PageFetcher.tasks urls) := by
  cases h with
  | first hi hands pass => exact ⟨hi, pass.through hands ho hretry⟩
  | second hi hands pass => exact ⟨hi, pass.through hands ho (PageFetcher.failure_of_result hr)⟩

section
variable {f f' : PageFetcher} {new : List Happening}

theorem Goes.fetches (h : a.Goes l₀ l hs d c) (hc : c.stage = .fetching f)
    (hf : f.Step false move new f') (honest : PageFetcher.Honest move) :
    a.Goes l₀ (l.noteAll new) (new ++ hs) (d.inStage c (.fetching f'))
      { c with stage := .fetching f' } := by
  have hn := PageFetcher.nodup_tasks a.urls
  have tells := h.stage
  rw [hc] at tells
  cases tells with
  | first hi hands pass =>
    exact h.inStage (h.since.fetches hf honest hn (.inl pass))
      (.first (images_noteAll hf hi) (hands.step hf) (pass.moves (hf.tracks hs) (hf.raises honest hs)))
  | second hi hands pass =>
    exact h.inStage (h.since.fetches hf honest hn (.inr pass))
      (.second (images_noteAll hf hi) (hands.step hf) (pass.moves (hf.tracks hs) (hf.raises honest hs)))

theorem Goes.queues (h : a.Goes l₀ l hs d c) (hc : c.stage = .fetching f) {i : Nat} {task : PageTask}
    {bytes : ByteArray} (hi : f.slots[i]? = some ⟨task, .queueing bytes⟩) (store : PageStore) :
    a.Goes l₀ (l.note (.pageQueued (f.page task bytes))) (.pageQueued (f.page task bytes) :: hs)
      ({ d with store }.inStage c (.fetching (f.free i))) { c with stage := .fetching (f.free i) } := by
  have since := h.since.quiet (x := .pageQueued (f.page task bytes)) rfl rfl
  have tracks := PageFetcher.tracks_queued hi hs
  have quiet : f.Raises (f.free i) (Journal.pages hs)
      (Journal.pages (.pageQueued (f.page task bytes) :: hs)) := .inl ⟨rfl, rfl, rfl⟩
  have images : (l.note (.pageQueued (f.page task bytes))).counters.images = l.counters.images := by
    rw [Ledger.counters_note]
    rfl
  refine ⟨rfl, h.remaining, h.dir, since, ?_⟩
  have tells := h.stage
  rw [hc] at tells
  cases tells with
  | first hi' hands pass => exact .first (images.trans hi') (hands.queued hi) (pass.moves tracks quiet)
  | second hi' hands pass =>
    exact .second (images.trans hi') (hands.queued hi) (pass.moves tracks quiet)

theorem Goes.retries (h : a.Goes l₀ l hs d c) (hc : c.stage = .fetching f)
    (ho : f.isPassOver = true) (hretry : f.retry? false = some f') :
    a.Goes l₀ l hs (d.inStage c (.fetching f')) { c with stage := .fetching f' } := by
  have tells := h.stage
  rw [hc] at tells
  refine h.inStage h.since ?_
  cases tells with
  | first hi hands pass => exact .second hi (hands.retry hretry) (pass.retry ho hretry)
  | second hi hands pass => simp [PageFetcher.retry?, pass.isRetry] at hretry

/-- Fetching fails only by a page that failed for the second time. -/
theorem Goes.fails (h : a.Goes l₀ l hs d c) (hc : c.stage = .fetching f) (ho : f.isPassOver = true)
    {e : Error} (hr : f.result false = .error e) (hf : d.store.failure = none) :
    a.Ends l₀ l hs (d.failed e) := by
  have he : f.failure = some e := by
    unfold PageFetcher.result at hr
    split at hr
    · rename_i failure
      rw [failure]
      injection hr with hr
      rw [hr]
    · cases hr
  have tells := h.stage
  rw [hc] at tells
  cases tells with
  | first hi hands pass =>
    rw [pass.failure] at he
    cases he
  | second hi hands pass =>
    have broken := pass.broken ho he
    obtain ⟨task, cause, -, rfl⟩ := broken.failure
    refine .fails h.since broken ?_ rfl
    rw [Download.failure_failed, hf]
    rfl

end

/-- Commits and the timer are told, and nothing else of what they do matters here. -/
theorem Goes.beside (h : a.Goes l₀ l hs d c) {x : Happening} {disk : Disk}
    (hcurrent : d'.current = d.current) (hremaining : d'.remaining = d.remaining)
    (hw : x.isWork = true) (hn : x.isFetch = false) (hcounts : x.chapters = 0)
    (hp : Journal.pages (x :: hs) = Journal.pages hs)
    (hi : ∀ counters : Counters, (counters.note x).images = counters.images) :
    a.Goes l₀ ({ l with disk }.note x) (x :: hs) d' c := by
  have since := (h.since.setDisk disk l.recorded).quiet hw hn
  rw [hcounts] at since
  refine ⟨hcurrent.trans h.current, hremaining.trans h.remaining, h.dir, since, ?_⟩
  rw [hp, Ledger.counters_note, hi]
  exact h.stage

theorem Goes.step (h : a.Goes l₀ l hs d c) (hstep : d.Step naming false l move l' d')
    (hf : d.store.failure = none) (hd : move.declines = false)
    (hplace : move = .makeDirectory → (l.disk.makeAll a.dir).2 = none) :
    ∃ hs', (∃ c', a.Goes l₀ l' hs' d' c') ∨ a.Ends l₀ l' hs' d' := by
  have same {c' : ChapterRun} (hc : d.current = some c') : c' = c :=
    Option.some.inj (hc.symm.trans h.current)
  have tells := h.stage
  have honest : PageFetcher.Honest move := by
    rintro i e rfl
    exact hd
  cases hstep with
  | urlsFail hcur hc | noUrls hcur hc | urls hcur hc =>
    obtain rfl := same hcur
    rw [hc] at tells
    cases tells
  | placeFails hcur hc hm =>
    obtain rfl := same hcur
    have placed := hplace rfl
    rw [← h.dir, hm] at placed
    cases placed
  | @places c urls disk mapper hcur hc hm =>
    obtain rfl := same hcur
    rw [hc] at tells
    cases tells with
    | placing hv =>
      have since := ((h.since.setDisk disk (l.recorded ++ [c.dir])).quiet (x := .directoryMade c.dir)
        rfl rfl).quiet (x := .metadataAsked c.chapter mapper) rfl rfl
      exact ⟨_, .inl ⟨_, h.inStage since (.describing hv)⟩⟩
  | describeFails hcur hc => cases hd
  | @describes c urls result workers now hcur hc hr =>
    obtain rfl := same hcur
    rw [hc] at tells
    cases tells with
    | describing hv =>
      have since := h.since.quiet (x := .fetchingBegun c.dir a.urls.length) rfl rfl
      have none : Journal.pages (.fetchingBegun c.dir a.urls.length :: hs) = Journal.pages [] := hv
      refine ⟨_, .inl ⟨_, h.inStage since ?_⟩⟩
      rw [none, Ledger.counters_note, h.dir]
      exact .first rfl ⟨rfl, nofun, fun _ _ => rfl⟩
        ⟨rfl, rfl, fun _ => rfl, fun task => Nat.zero_add _, fun _ => rfl, rfl, rfl⟩
  | fetches hcur hc hfetch =>
    obtain rfl := same hcur
    exact ⟨_, .inl ⟨_, h.fetches hc hfetch honest⟩⟩
  | queues hcur hc hi =>
    obtain rfl := same hcur
    exact ⟨_, .inl ⟨_, h.queues hc hi _⟩⟩
  | retries hcur hc ho hretry =>
    obtain rfl := same hcur
    exact ⟨_, .inl ⟨_, h.retries hc ho hretry⟩⟩
  | fetchFails hcur hc ho _ hr =>
    obtain rfl := same hcur
    exact ⟨hs, .inr (h.fails hc ho hr hf)⟩
  | pauses _ hcur hc ho hretry hr =>
    obtain rfl := same hcur
    rw [hc] at tells
    obtain ⟨hi, through⟩ := tells_through tells ho hretry hr
    exact ⟨_, .inl ⟨_, h.inStage h.since (.pausing hi through)⟩⟩
  | fetchEnds hcur hc ho hretry hr hn =>
    obtain rfl := same hcur
    rw [hc] at tells
    obtain ⟨hi, through⟩ := tells_through tells ho hretry hr
    obtain ⟨hs', ends⟩ := h.passes hf hi through hn
    exact ⟨hs', .inr ends⟩
  | goesOn hcur hc hn =>
    obtain rfl := same hcur
    rw [hc] at tells
    cases tells with
    | pausing hi through =>
      obtain ⟨hs', ends⟩ := h.passes hf hi through hn
      exact ⟨hs', .inr ends⟩
  | givesUp _ _ hcancel => cases hcancel
  | pageDropped _ hs | storeStops hs => simp [PageStore.isCancelled, hf] at hs
  | commitBegins | commitEnds | commitFails | ticks | tells =>
    exact ⟨_, .inl ⟨c, h.beside rfl rfl rfl rfl rfl rfl fun _ => rfl⟩⟩
  | loads | swaps => exact ⟨_, .inl ⟨c, h.current, h.remaining, h.dir, h.since, h.stage⟩⟩

end Assignment
end Longbox
