import Longbox.Proofs.Download.Shape
import Mathlib.Data.List.Perm.Basic

/-! Where the pages of a download are.

The pages that a download has been given the addresses of are committed, on their way to the disk or
still to be handed over (`Download.Accounts`). While nothing fails and nothing is cancelled, each step
of a download keeps this balance (`Accounts.step`): a page that is dropped always comes with a failure
or with a cancelled token. -/
namespace Longbox

/-! ### What a journal tells of pages -/

@[simp] def Happening.given? : Happening → Option (Chapter × List String)
  | .urlsGiven chapter urls => some (chapter, urls)
  | _ => none

/-- The page that a fetch brought. -/
@[simp] def Happening.fetched? : Happening → Option FetchedPage
  | .fetchEnded dir task _ (.ok bytes) => some ⟨dir, task, bytes⟩
  | _ => none

@[simp] def Happening.begun? : Happening → Option FetchedPage
  | .commitBegun page => some page
  | _ => none

@[simp] def Happening.committed? : Happening → Option FetchedPage
  | .commitEnded page (.ok _) => some page
  | _ => none

/-- How many chapters are through with it. -/
@[simp] def Happening.chapters : Happening → Nat
  | .chapterDownloaded => 1
  | _ => 0

namespace Journal

/-- The chapters whose addresses have been given, in the order of the download. -/
def given (hs : List Happening) : List (Chapter × List String) :=
  (hs.filterMap Happening.given?).reverse

def fetched (hs : List Happening) : List FetchedPage :=
  hs.filterMap Happening.fetched?

def begun (hs : List Happening) : List FetchedPage :=
  hs.filterMap Happening.begun?

def committed (hs : List Happening) : List FetchedPage :=
  hs.filterMap Happening.committed?

end Journal

/-- The directory and the task of a page. -/
def FetchedPage.key (page : FetchedPage) : String × PageTask :=
  (page.dir, page.task)

/-- The pages of a chapter: one for each address, counted from one. -/
def Naming.pages (n : Naming) (given : Chapter × List String) : List (String × PageTask) :=
  (PageFetcher.tasks given.2).map (n.contentPath given.1, ·)

/-- Only work tells of chapters and of pages. -/
theorem Journal.filterMap_filter_isWork {α : Type} {f : Happening → Option α}
    (hf : ∀ x, x.isWork = false → f x = none) (hs : List Happening) :
    (hs.filter Happening.isWork).filterMap f = hs.filterMap f := by
  rw [List.filterMap_filter]
  congr 1
  funext x
  cases hx : x.isWork with
  | true => rfl
  | false => exact (hf x hx).symm

theorem Journal.given_filter_isWork (hs : List Happening) :
    given (hs.filter Happening.isWork) = given hs :=
  congrArg List.reverse
    (filterMap_filter_isWork (fun x hx => by cases x <;> first | rfl | cases hx) hs)

theorem filterMap_cons_toList {α β : Type} (f : α → Option β) (a : α) (l : List α) :
    (a :: l).filterMap f = (f a).toList ++ l.filterMap f := by
  rw [List.filterMap_cons]
  cases f a <;> rfl

namespace Ledger

def given (l : Ledger) : List (Chapter × List String) := Journal.given l.happened
def fetched (l : Ledger) : List FetchedPage := Journal.fetched l.happened
def begun (l : Ledger) : List FetchedPage := Journal.begun l.happened
def committed (l : Ledger) : List FetchedPage := Journal.committed l.happened

theorem filterMap_note {α : Type} {f : Happening → Option α}
    (hf : ∀ h, h.isWork = false → f h = none) (l : Ledger) (h : Happening) :
    (l.note h).happened.filterMap f = (f h).toList ++ l.happened.filterMap f := by
  cases hw : h.isWork with
  | false => rw [note_of_not_work l hw, hf h hw]; rfl
  | true =>
    rw [show (l.note h).happened = h :: l.happened by simp [note, hw], filterMap_cons_toList]

theorem reverse_filterMap_note {α : Type} {f : Happening → Option α}
    (hf : ∀ h, h.isWork = false → f h = none) (l : Ledger) (h : Happening) :
    ((l.note h).happened.filterMap f).reverse =
      (l.happened.filterMap f).reverse ++ (f h).toList := by
  rw [filterMap_note hf, List.reverse_append]
  cases f h <;> rfl

section
variable (l : Ledger) (h : Happening)

@[simp] theorem given_note : (l.note h).given = l.given ++ h.given?.toList :=
  reverse_filterMap_note (fun h hw => by cases h <;> first | rfl | cases hw) l h

@[simp] theorem fetched_note : (l.note h).fetched = h.fetched?.toList ++ l.fetched :=
  filterMap_note (fun h hw => by cases h <;> first | rfl | cases hw) l h

@[simp] theorem begun_note : (l.note h).begun = h.begun?.toList ++ l.begun :=
  filterMap_note (fun h hw => by cases h <;> first | rfl | cases hw) l h

@[simp] theorem committed_note : (l.note h).committed = h.committed?.toList ++ l.committed :=
  filterMap_note (fun h hw => by cases h <;> first | rfl | cases hw) l h

@[simp] theorem chapters_note : (l.note h).chapters = l.chapters + h.chapters := by
  cases h with
  | fetchEnded dir task isRetry result =>
    cases result with
    | ok _ => rfl
    | error e =>
      show (Counters.note _ _).chapters = _
      simp only [Counters.note]
      split <;> rfl
  | _ => rfl

end

/-- Two ledgers tell the same of addresses, of commits and of how many chapters are through. -/
structure SameBooks (l l' : Ledger) : Prop where
  given : l'.given = l.given
  begun : l'.begun = l.begun
  committed : l'.committed = l.committed
  chapters : l'.chapters = l.chapters

theorem SameBooks.refl (l : Ledger) : SameBooks l l :=
  ⟨rfl, rfl, rfl, rfl⟩

theorem SameBooks.setDisk (l : Ledger) (disk : Disk) (recorded : List String) :
    SameBooks l { l with disk, recorded } :=
  ⟨rfl, rfl, rfl, rfl⟩

theorem SameBooks.note {l l' : Ledger} (hl : SameBooks l l') {h : Happening}
    (hg : h.given? = none) (hb : h.begun? = none) (hc : h.committed? = none)
    (hn : h.chapters = 0) : SameBooks l (l'.note h) where
  given := by rw [given_note, hl.given, hg, Option.toList_none, List.append_nil]
  begun := by rw [begun_note, hl.begun, hb, Option.toList_none, List.nil_append]
  committed := by rw [committed_note, hl.committed, hc, Option.toList_none, List.nil_append]
  chapters := by rw [chapters_note, hl.chapters, hn, Nat.add_zero]

end Ledger

/-! ### The pages of a chapter -/

def Slot.held? (dir : String) (slot : Slot) : Option FetchedPage :=
  match slot.stage with
  | .queueing bytes => some ⟨dir, slot.task, bytes⟩
  | _ => none

namespace PageFetcher

/-- The pages that have not been handed over. -/
def due (f : PageFetcher) : List PageTask :=
  f.pending ++ f.slots.map Slot.task ++ f.failed

/-- The pages that wait for room in the queue. -/
def held (f : PageFetcher) : List FetchedPage :=
  f.slots.filterMap (Slot.held? f.dir)

theorem exists_split {α : Type} {l : List α} {i : Nat} {a : α} (h : l[i]? = some a) :
    ∃ before after, l = before ++ a :: after ∧ l.eraseIdx i = before ++ after ∧
      ∀ b, l.set i b = before ++ b :: after := by
  induction l generalizing i with
  | nil => cases h
  | cons x rest ih =>
    cases i with
    | zero =>
      cases h
      exact ⟨[], rest, rfl, rfl, fun _ => rfl⟩
    | succ i =>
      obtain ⟨before, after, hl, he, hs⟩ := ih h
      refine ⟨x :: before, after, ?_, ?_, fun b => ?_⟩
      · rw [hl]
        rfl
      · rw [List.eraseIdx_cons_succ, he]
        rfl
      · rw [List.set_cons_succ, hs]
        rfl

variable {cancelled : Bool} {f f' : PageFetcher} {move : Move} {hs : List Happening}

/-- What a fetch tells is not about commits, nor about addresses. -/
theorem Step.sameBooks (h : f.Step cancelled move hs f') (l : Ledger) :
    l.SameBooks (l.noteAll hs) := by
  cases h <;> constructor <;>
    simp [Ledger.noteAll]

/-- While fetching goes well, no page is lost or doubled. -/
structure Balances (f f' : PageFetcher) (l l' : Ledger) : Prop where
  due : f'.due.Perm f.due
  fetched : (l'.fetched ++ f.held).Perm (l.fetched ++ f'.held)

/-- A slot goes on with its page. -/
theorem balances_setStage {i : Nat} {task : PageTask} {stage stage' : SlotStage} {l l' : Ledger}
    (limiter : RateLimiter) (hi : f.slots[i]? = some ⟨task, stage⟩)
    (hl : (l'.fetched ++ (Slot.held? f.dir ⟨task, stage⟩).toList).Perm
      (l.fetched ++ (Slot.held? f.dir ⟨task, stage'⟩).toList)) :
    f.Balances ({ f with limiter }.setStage i task stage') l l' := by
  obtain ⟨before, after, hslots, -, hset⟩ := exists_split hi
  constructor
  · simp only [due, setStage, hset]
    rw [hslots]
    simp
  · have hold : f.held = (before ++ ⟨task, stage⟩ :: after).filterMap (Slot.held? f.dir) := by
      rw [← hslots]
      rfl
    have hnew : ({ f with limiter }.setStage i task stage').held =
        (before ++ ⟨task, stage'⟩ :: after).filterMap (Slot.held? f.dir) := by
      rw [← hset]
      rfl
    rw [hold, hnew]
    rw [List.perm_iff_count] at hl ⊢
    intro page
    have := hl page
    simp only [List.filterMap_append, filterMap_cons_toList, List.count_append] at this ⊢
    omega

theorem Step.balances (h : f.Step false move hs f') (hf : f.failure = none) (l : Ledger)
    (honest : ∀ i, move ≠ .receivePage i (.error .cancelled)) :
    f'.failure.isSome = true ∨ f.Balances f' l (l.noteAll hs) := by
  have running : f.isStopped false = false := by simp [isStopped, hf]
  cases h with
  | skips _ hs | leaves _ hs | drops _ hs =>
    rw [running] at hs
    cases hs
  | takes now hp =>
    refine .inr ⟨?_, ?_⟩
    · rw [List.perm_iff_count]
      intro task
      simp only [due, hp, List.map_append, List.map_cons, List.map_nil, List.count_append,
        List.count_cons, List.count_nil]
      omega
    · simp [held, Slot.held?, Ledger.noteAll, filterMap_cons_toList]
  | begins limiter hi =>
    exact .inr (balances_setStage limiter hi (by simp [Ledger.noteAll, Slot.held?]))
  | waits limiter next hi => exact .inr (balances_setStage limiter hi (.refl _))
  | @receives i task bytes hi =>
    refine .inr (balances_setStage f.limiter hi ?_)
    rw [List.perm_iff_count]
    intro page
    simp [Ledger.noteAll, Slot.held?, List.count_cons]
  | @abandons i task e hi he =>
    cases e with
    | cancelled => exact absurd rfl (honest i)
    | _ => cases he
  | @postpones i task e hi =>
    obtain ⟨before, after, hslots, herase, -⟩ := exists_split hi
    refine .inr ⟨?_, ?_⟩
    · rw [List.perm_iff_count]
      intro task
      simp only [due, free, herase]
      rw [hslots]
      simp only [List.map_append, List.map_cons, List.count_append, List.count_cons, List.count_nil]
      omega
    · have hnew : held { f.free i with failed := f.failed ++ [task] } =
          (before ++ after).filterMap (Slot.held? f.dir) := by
        rw [← herase]
        rfl
      have none : Slot.held? f.dir ⟨task, .fetching⟩ = none := rfl
      rw [hnew, held, hslots]
      simp [none, Ledger.noteAll]
  | fails => exact .inl (by simp)

end PageFetcher

/-! ### The pages of a download -/

namespace ChapterStage

/-- The pages of the chapter that have not been handed over. -/
def due : ChapterStage → List PageTask
  | .resolving | .pausing _ => []
  | .placing urls | .describing urls => PageFetcher.tasks urls
  | .fetching f => f.due

def held : ChapterStage → List FetchedPage
  | .fetching f => f.held
  | _ => []

/-- The chapter is not counted yet though it has pages. -/
def uncounted : ChapterStage → Nat
  | .resolving => 0
  | _ => 1

end ChapterStage

/-- A collaborator answers that it was cancelled. -/
def Move.saysCancelled : Move → Bool
  | .receiveUrls (.error e) | .endMetadata (.error e) | .receivePage _ (.error e)
  | .endCommit _ (.error e) => e.isCancelled
  | _ => false

namespace Ledger

/-- The pages of all chapters whose addresses have been given. -/
def expected (naming : Naming) (l : Ledger) : List (String × PageTask) :=
  l.given.flatMap naming.pages

end Ledger

/-- A commit that ends in being cancelled has been told so by a collaborator. -/
theorem Machine.isCancelled_of_commit {disk disk' : Disk} {page : FetchedPage}
    {answer : Except Error Keeper} {i : Nat} {e : Error}
    (h : commit disk page answer = (disk', .error e))
    (hm : (Move.endCommit i answer).saysCancelled = false) : e.isCancelled = false := by
  unfold commit at h
  split at h
  · cases h
    exact hm
  · cases h
  · split at h
    · cases h
    · rename_i e' he
      cases h
      unfold Page.target at he
      split at he
      · cases he
      · cases he
        rfl

namespace Download

/-- What the current chapter adds to the accounts of a download. -/
structure Share where
  chapters : List Chapter := []
  due : List (String × PageTask) := []
  held : List FetchedPage := []
  uncounted : Nat := 0

def share (d : Download) : Share :=
  match d.current with
  | none => {}
  | some c => {
      chapters := if c.stage = .resolving then [c.chapter] else []
      due := c.stage.due.map (c.dir, ·)
      held := c.stage.held
      uncounted := c.stage.uncounted }

/-- The accounts of a download, given the share of the current chapter. -/
structure Balanced (t : Terms) (l : Ledger) (d : Download) (s : Share) : Prop where
  planned : t.toDownload = l.given.map (·.1) ++ s.chapters ++ d.remaining
  pages : (l.expected t.naming).Perm
    ((l.committed ++ d.store.inFlight ++ d.store.queue).map FetchedPage.key ++ s.due)
  fetched : l.fetched.Perm (l.committed ++ d.store.inFlight ++ d.store.queue ++ s.held)
  begun : l.begun.Perm (l.committed ++ d.store.inFlight)
  chapters : l.given.countP (fun given => !given.2.isEmpty) = l.chapters + s.uncounted
  running : d.store.hasStopped = false
  closed : d.store.isClosed = true → d.remaining = []

abbrev Accounts (t : Terms) (l : Ledger) (d : Download) : Prop :=
  Balanced t l d d.share

variable {t : Terms} {l l' : Ledger} {d d' : Download} {c : ChapterRun} {move : Move}
  {cancelled : Bool}

/-! ### Steps keep the balance -/

theorem share_eq (hd : d.current = some c) : d.share = {
    chapters := if c.stage = .resolving then [c.chapter] else []
    due := c.stage.due.map (c.dir, ·)
    held := c.stage.held
    uncounted := c.stage.uncounted } := by
  rw [share, hd]

/-- The current chapter goes on with its pages. -/
theorem Balanced.inStage {s : Share} (h : Balanced t l d s) (ho : d.store.isClosed = false)
    (hl : l.SameBooks l') {stage : ChapterStage} (hr : stage ≠ .resolving)
    (hchapters : s.chapters = []) (hcount : s.uncounted = stage.uncounted)
    (hdue : (stage.due.map (c.dir, ·)).Perm s.due)
    (hfetched : (l'.fetched ++ s.held).Perm (l.fetched ++ stage.held)) :
    (d.inStage c stage).Accounts t l' := by
  have hshare : (d.inStage c stage).share = {
      chapters := []
      due := stage.due.map (c.dir, ·)
      held := stage.held
      uncounted := stage.uncounted } := by
    rw [share_eq (c := { c with stage }) rfl, if_neg hr]
  have hexpected : l'.expected t.naming = l.expected t.naming := by
    simp only [Ledger.expected, hl.given]
  have hstore : (d.inStage c stage).store = d.store := rfl
  unfold Accounts
  rw [hshare]
  constructor
  · rw [hl.given]
    exact hchapters ▸ h.planned
  · rw [hexpected, hl.committed]
    exact h.pages.trans (hdue.symm.append_left _)
  · rw [hl.committed, List.perm_iff_count]
    intro page
    have hf := h.fetched.count_eq page
    have hf' := hfetched.count_eq page
    rw [hstore]
    simp only [List.count_append] at hf hf' ⊢
    omega
  · rw [hl.begun, hl.committed]
    exact h.begun
  · rw [hl.given, hl.chapters, ← hcount]
    exact h.chapters
  · exact h.running
  · rw [hstore, ho]
    nofun

theorem Next.accounts (h : Balanced t l d {}) (ho : d.store.isClosed = false)
    (hn : d.Next t.naming false l l' d') : d'.Accounts t l' := by
  cases hn with
  | closes hr =>
    have hr : d.remaining = [] := by simpa using hr
    exact { h with closed := fun _ => hr }
  | @begins chapter rest began _ hr =>
    exact {
      planned := by simpa [share, hr] using h.planned
      pages := by simpa [share, ChapterStage.due, Ledger.expected] using h.pages
      fetched := by simpa [share, ChapterStage.held] using h.fetched
      begun := by simpa using h.begun
      chapters := by simpa [share, ChapterStage.uncounted] using h.chapters
      running := h.running
      closed := fun hc => by simp [ho] at hc }

/-- A chapter with pages has none left, and is counted. -/
theorem Balanced.counted {s : Share} (h : Balanced t l d s) (hchapters : s.chapters = [])
    (hdue : s.due = []) (hheld : s.held = []) (hcount : s.uncounted = 1) :
    Balanced t (l.note .chapterDownloaded) d {} := by
  obtain ⟨chapters, due, held, uncounted⟩ := s
  dsimp only at hchapters hdue hheld hcount
  subst hchapters hdue hheld hcount
  constructor
  · simpa using h.planned
  · simpa [Ledger.expected] using h.pages
  · simpa using h.fetched
  · simpa using h.begun
  · simpa using h.chapters
  · exact h.running
  · exact h.closed

/-- The addresses of a chapter's pages are given. -/
theorem Accounts.given (h : d.Accounts t l) (ok : Ok t d) (hd : d.current = some c)
    (hc : c.stage = .resolving) (urls : List String) :
    Balanced t (l.note (.urlsGiven c.chapter urls)) d {
      due := (PageFetcher.tasks urls).map (c.dir, ·)
      uncounted := if urls = [] then 0 else 1 } := by
  have hshare : d.share = { chapters := [c.chapter] } := by
    rw [share_eq hd, hc]
    rfl
  unfold Accounts at h
  rw [hshare] at h
  have hpages : t.naming.pages (c.chapter, urls) = (PageFetcher.tasks urls).map (c.dir, ·) := by
    rw [ok.dir c hd]
    rfl
  constructor
  · simpa using h.planned
  · have := h.pages.append_right ((PageFetcher.tasks urls).map (c.dir, ·))
    simpa [Ledger.expected, hpages] using this
  · simpa using h.fetched
  · simpa using h.begun
  · have := h.chapters
    cases urls <;> simp_all [List.countP_append]
  · exact h.running
  · exact h.closed

theorem Accounts.current (h : d.Accounts t l) (hd : d.current = some c)
    {stage : ChapterStage} (hc : c.stage = stage) (hr : stage ≠ .resolving) :
    Balanced t l d {
      due := stage.due.map (c.dir, ·)
      held := stage.held
      uncounted := stage.uncounted } := by
  unfold Accounts at h
  rw [share_eq hd, hc, if_neg hr] at h
  exact h

/-- A chapter whose fetching is through and went well has no pages left. -/
theorem Accounts.fetched {f : PageFetcher} (h : d.Accounts t l) (ok : Ok t d)
    (hd : d.current = some c) (hc : c.stage = .fetching f) (ho : f.isPassOver = true)
    (hf : f.retry? false = none) (hr : f.result false = .ok ()) :
    Balanced t l d { uncounted := 1 } := by
  have hnone := PageFetcher.failure_of_result hr
  simp only [PageFetcher.isPassOver, Bool.and_eq_true, List.isEmpty_iff] at ho
  have hfailed : f.failed = [] := by
    cases hretry : f.isRetry with
    | true => exact (ok.fetching hd hc).failed hretry
    | false => simpa [PageFetcher.retry?, hretry, PageFetcher.isStopped, hnone] using hf
  have := h.current hd hc (by simp)
  simpa [ChapterStage.due, PageFetcher.due, ChapterStage.held, PageFetcher.held, ho.1, ho.2, hfailed,
    ChapterStage.uncounted] using this

theorem Balanced.commitBegun {s : Share} {page : FetchedPage} {rest : List FetchedPage}
    (h : Balanced t l d s) (hq : d.store.queue = page :: rest) :
    Balanced t (l.note (.commitBegun page)) { d with store :=
      { d.store with queue := rest, inFlight := d.store.inFlight ++ [page] } } s := by
  have hpages := h.pages
  have hfetched := h.fetched
  rw [hq] at hpages hfetched
  constructor
  · simpa using h.planned
  · simpa [Ledger.expected] using hpages
  · simpa using hfetched
  · have := (h.begun.cons page).trans (List.perm_append_singleton page _).symm
    simpa using this
  · simpa using h.chapters
  · exact h.running
  · exact h.closed

theorem Balanced.commitEnded {s : Share} {i : Nat} {page : FetchedPage} (h : Balanced t l d s)
    (hp : d.store.inFlight[i]? = some page) {disk : Disk} (place : Option Place) :
    Balanced t ({ l with disk }.note (.commitEnded page (.ok place)))
      { d with store := { d.store with inFlight := d.store.inFlight.eraseIdx i } } s := by
  obtain ⟨before, after, hsplit, herase, -⟩ := PageFetcher.exists_split hp
  have books := Ledger.SameBooks.setDisk l disk l.recorded
  have moved : (l.committed ++ d.store.inFlight).Perm
      (page :: l.committed ++ d.store.inFlight.eraseIdx i) := by
    rw [herase, hsplit]
    simpa using @List.perm_middle _ page (l.committed ++ before) after
  constructor
  · simpa [books.given] using h.planned
  · have keys := (moved.append_right d.store.queue).map FetchedPage.key
    have := h.pages.trans (keys.append_right s.due)
    simpa [Ledger.expected, books.given, books.committed] using this
  · have fetched : ({ l with disk } : Ledger).fetched = l.fetched := rfl
    have := h.fetched.trans ((moved.append_right d.store.queue).append_right s.held)
    simpa [books.committed, fetched] using this
  · have := h.begun.trans moved
    simpa [books.begun, books.committed] using this
  · simpa [books.given, books.chapters] using h.chapters
  · exact h.running
  · exact h.closed

/-- The timer has no part in it. -/
theorem Balanced.timed {s : Share} (h : Balanced t l d s) {x : Happening} (hx : x.isTimed = true)
    (reading : Option Reading) (reported : Nat) :
    Balanced t (l.note x) { d with reading, reported } s := by
  obtain ⟨books, fetched⟩ : l.SameBooks (l.note x) ∧ (l.note x).fetched = l.fetched := by
    cases x with
    | ticked | timed => exact ⟨(Ledger.SameBooks.refl l).note rfl rfl rfl rfl, by simp⟩
    | _ => cases hx
  constructor
  · simpa [books.given] using h.planned
  · simpa [Ledger.expected, books.given, books.committed] using h.pages
  · simpa [fetched, books.committed] using h.fetched
  · simpa [books.begun, books.committed] using h.begun
  · simpa [books.given, books.chapters] using h.chapters
  · exact h.running
  · exact h.closed

/-- A page goes from the current chapter to the queue. -/
theorem Balanced.push {chapters : List Chapter} {due due' : List (String × PageTask)}
    {held held' : List FetchedPage} {uncounted : Nat} {page : FetchedPage}
    (h : Balanced t l d ⟨chapters, due, held, uncounted⟩) (hdue : due.Perm (page.key :: due'))
    (hheld : held.Perm (page :: held')) :
    Balanced t l { d with store := { d.store with queue := d.store.queue ++ [page] } }
      ⟨chapters, due', held', uncounted⟩ := by
  constructor
  · exact h.planned
  · have := h.pages.trans (hdue.append_left _)
    simpa using this
  · have := h.fetched.trans (hheld.append_left _)
    simpa using this
  · exact h.begun
  · exact h.chapters
  · exact h.running
  · exact h.closed

/-- A fetched page is queued. -/
theorem Accounts.queued {f : PageFetcher} {i : Nat} {task : PageTask} {bytes : ByteArray}
    (h : d.Accounts t l) (ok : Ok t d) (hd : d.current = some c) (hc : c.stage = .fetching f)
    (hi : f.slots[i]? = some ⟨task, .queueing bytes⟩) :
    (({ d with store := { d.store with queue := d.store.queue ++ [f.page task bytes] } }).inStage c
      (.fetching (f.free i))).Accounts t (l.note (.pageQueued (f.page task bytes))) := by
  obtain ⟨before, after, hslots, herase, -⟩ := PageFetcher.exists_split hi
  have hdue : (f.due.map (c.dir, ·)).Perm
      ((f.page task bytes).key :: (f.free i).due.map (c.dir, ·)) := by
    have hkey : (f.page task bytes).key = (c.dir, task) := by
      rw [← (ok.fetching hd hc).dir]
      rfl
    have hdue : f.due.Perm (task :: (f.free i).due) := by
      simp only [PageFetcher.due, PageFetcher.free]
      rw [herase, hslots, List.perm_iff_count]
      intro x
      simp only [List.map_append, List.map_cons, List.count_append, List.count_cons]
      omega
    rw [hkey]
    exact hdue.map _
  have hheld : f.held.Perm (f.page task bytes :: (f.free i).held) := by
    have hfree : (f.free i).held = (before ++ after).filterMap (Slot.held? f.dir) := by
      rw [← herase]
      rfl
    rw [hfree, PageFetcher.held, hslots, List.filterMap_append, filterMap_cons_toList,
      List.filterMap_append]
    exact List.perm_middle
  have books := (Ledger.SameBooks.refl l).note (h := .pageQueued (f.page task bytes)) rfl rfl rfl rfl
  have pushed := (h.current hd hc (by simp)).push hdue hheld
  exact pushed.inStage (ok.open hd) books (by simp) rfl rfl (.refl _) (.refl _)

theorem Accounts.step (h : d.Accounts t l) (ok : Ok t d)
    (hs : d.Step t.naming false l move l' d') (hm : move.saysCancelled = false)
    (hf : d.store.failure = none) (hp : d.hasFailed = false) :
    d'.store.failure.isSome = true ∨ d'.hasFailed = true ∨ d'.Accounts t l' := by
  have fetching {c : ChapterRun} {f : PageFetcher} (hd : d.current = some c)
      (hc : c.stage = .fetching f) : f.failure = none := by
    simpa [hasFailed_eq hd hc] using hp
  cases hs with
  | urlsFail => exact .inl (isSome_failure_failed d hm)
  | placeFails => exact .inl (isSome_failure_failed d rfl)
  | describeFails => cases hm
  | givesUp hd hc hcancel => cases hcancel
  | noUrls hd hc hn =>
    have given := h.given ok hd hc []
    exact .inr (.inr (hn.accounts (by simpa [PageFetcher.tasks] using given) (ok.open hd)))
  | @urls c urls hd hc hu =>
    have given := h.given ok hd hc urls
    rw [if_neg hu] at given
    exact .inr (.inr (given.inStage (ok.open hd) (.refl _) (by simp) rfl rfl (.refl _)
      (.refl _)))
  | @places c urls disk mapper hd hc hm =>
    have books := ((Ledger.SameBooks.setDisk l disk (l.recorded ++ [c.dir])).note
      (h := .directoryMade c.dir) rfl rfl rfl rfl).note
      (h := .metadataAsked c.chapter mapper) rfl rfl rfl rfl
    exact .inr (.inr ((h.current hd hc (by simp)).inStage (ok.open hd) books (by simp) rfl rfl
      (.refl _) (by simp; rfl)))
  | @describes c urls result workers now hd hc hr =>
    have books := (Ledger.SameBooks.refl l).note (h := .fetchingBegun c.dir urls.length)
      rfl rfl rfl rfl
    exact .inr (.inr ((h.current hd hc (by simp)).inStage (ok.open hd) books (by simp) rfl rfl
      (by simp [ChapterStage.due, PageFetcher.due, PageFetcher.ofUrls]) (.refl _)))
  | fetches hd hc hfetch =>
    have hnone := fetching hd hc
    have honest : ∀ i, move ≠ .receivePage i (.error .cancelled) := by
      rintro i rfl
      cases hm
    rcases hfetch.balances hnone l honest with hfail | hbal
    · exact .inr (.inl hfail)
    · exact .inr (.inr ((h.current hd hc (by simp)).inStage (ok.open hd) (hfetch.sameBooks l)
        (by simp) rfl rfl (hbal.due.map _) hbal.fetched))
  | queues hd hc hi => exact .inr (.inr (h.queued ok hd hc hi))
  | @retries c f f' hd hc ho hretry =>
    simp only [PageFetcher.isPassOver, Bool.and_eq_true, List.isEmpty_iff] at ho
    unfold PageFetcher.retry? at hretry
    split at hretry
    · cases hretry
    · cases hretry
      exact .inr (.inr ((h.current hd hc (by simp)).inStage (ok.open hd) (.refl _) (by simp) rfl rfl
        (by simp [ChapterStage.due, PageFetcher.due, ho.1, ho.2])
        (by simp [ChapterStage.held, PageFetcher.held, ho.2])))
  | fetchFails hd hc ho hretry hr =>
    simp [PageFetcher.result, fetching hd hc] at hr
  | pauses instant hd hc ho hf hr =>
    exact .inr (.inr ((h.fetched ok hd hc ho hf hr).inStage (ok.open hd) (.refl _) (by simp) rfl rfl
      (.refl _) (.refl _)))
  | fetchEnds hd hc ho hf hr hn =>
    have counted := (h.fetched ok hd hc ho hf hr).counted rfl rfl rfl rfl
    exact .inr (.inr (hn.accounts counted (ok.open hd)))
  | goesOn hd hc hn =>
    have counted := (h.current hd hc (by simp)).counted rfl rfl rfl rfl
    exact .inr (.inr (hn.accounts counted (ok.open hd)))
  | pageDropped hq hs => simp [PageStore.isCancelled, hf] at hs
  | commitBegins hq hs => exact .inr (.inr (Balanced.commitBegun h hq))
  | commitEnds hp hd => exact .inr (.inr (Balanced.commitEnded h hp _))
  | commitFails hp hd =>
    have reported := Machine.isCancelled_of_commit hd hm
    exact .inl ((isSome_failure_report ..).trans (by simp [reported]))
  | storeStops hs => simp [PageStore.isCancelled, hf] at hs
  | ticks | tells => exact .inr (.inr (Balanced.timed h rfl ..))
  | loads | swaps => exact .inr (.inr { h with })

end Download

end Longbox
