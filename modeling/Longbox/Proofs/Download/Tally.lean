import Longbox.Proofs.Download.Visit

/-! What the counters of a download count.

A page counts when it is fetched, once, so no more pages count than the chapter has. A chapter counts
when its pages are through, so the chapters that count are the first of those that have pages
(`Download.Tally`). Each step keeps that, whatever fails or is cancelled, and no step takes back what
has been counted (`Step.grows`). -/
namespace Longbox

namespace Ledger

@[simp] theorem counters_note (l : Ledger) (h : Happening) :
    (l.note h).counters = l.counters.note h := by
  cases hw : h.isWork with
  | true => simp [note, hw]
  | false => rw [note_of_not_work l hw, Machine.counters_note_of_not_work l.counters hw]

/-! ### What is not taken back -/

/-- What has been given and counted in `l` still is in `l'`. -/
structure Grows (l l' : Ledger) : Prop where
  given : l.given <+: l'.given
  chapters : l.counters.chapters ≤ l'.counters.chapters
  failures : l.counters.failures ≤ l'.counters.failures

namespace Grows
variable {l l' : Ledger}

theorem of_eq (hg : l'.given = l.given) (hc : l'.counters = l.counters) : l.Grows l' where
  given := hg ▸ List.prefix_refl _
  chapters := Nat.le_of_eq (by rw [hc])
  failures := Nat.le_of_eq (by rw [hc])

theorem refl (l : Ledger) : l.Grows l :=
  of_eq rfl rfl

theorem trans {l'' : Ledger} (g : l.Grows l') (g' : l'.Grows l'') : l.Grows l'' where
  given := g.given.trans g'.given
  chapters := Nat.le_trans g.chapters g'.chapters
  failures := Nat.le_trans g.failures g'.failures

theorem note (g : l.Grows l') (h : Happening) : l.Grows (l'.note h) where
  given := by
    rw [given_note]
    exact g.given.trans (List.prefix_append ..)
  chapters := by
    refine Nat.le_trans g.chapters ?_
    have counted := chapters_note l' h
    unfold Ledger.chapters at counted
    omega
  failures := by
    refine Nat.le_trans g.failures ?_
    rw [counters_note]
    unfold Counters.note
    split
    · exact Nat.le_refl _
    · split
      · exact Nat.le_refl _
      · split
        · exact Nat.le_refl _
        · exact Nat.le_succ _
    · exact Nat.le_refl _
    · exact Nat.le_refl _

theorem noteAll (g : l.Grows l') (hs : List Happening) : l.Grows (l'.noteAll hs) := by
  induction hs generalizing l' with
  | nil => exact g
  | cons x rest ih => exact ih (g.note x)

theorem paged (g : l.Grows l') : l.paged <+: l'.paged :=
  (g.given.filter _).map _

end Grows

/-- Two ledgers tell the same of chapters and count the same chapters. -/
structure SameChapters (l l' : Ledger) : Prop where
  asked : l'.asked = l.asked
  given : l'.given = l.given
  chapters : l'.chapters = l.chapters

theorem SameChapters.of_eq {l l' : Ledger} (hh : l'.happened = l.happened)
    (hc : l'.counters = l.counters) : SameChapters l l' where
  asked := by rw [Ledger.asked, Ledger.asked, hh]
  given := by rw [Ledger.given, Ledger.given, hh]
  chapters := by rw [Ledger.chapters, Ledger.chapters, hc]

theorem SameChapters.note {l l' : Ledger} (s : SameChapters l l') {h : Happening}
    (ha : h.asked? = none) (hg : h.given? = none) (hn : h.chapters = 0) :
    SameChapters l (l'.note h) where
  asked := by rw [asked_note, s.asked, ha, Option.toList_none, List.append_nil]
  given := by rw [given_note, s.given, hg, Option.toList_none, List.append_nil]
  chapters := by rw [chapters_note, s.chapters, hn, Nat.add_zero]

theorem SameChapters.noteAll {l l' : Ledger} (s : SameChapters l l') {hs : List Happening}
    (h : ∀ x ∈ hs, x.asked? = none ∧ x.given? = none ∧ x.chapters = 0) :
    SameChapters l (l'.noteAll hs) := by
  induction hs generalizing l' with
  | nil => exact s
  | cons x rest ih =>
    obtain ⟨⟨ha, hg, hn⟩, hrest⟩ := List.forall_mem_cons.mp h
    exact ih (s.note ha hg hn) hrest

/-- Removals tell nothing of chapters and are not counted. -/
theorem remove_unchanged (l : Ledger) (path : String) :
    (l.remove path).given = l.given ∧ (l.remove path).counters = l.counters := by
  have noted (hs : List Happening) (l : Ledger)
      (h : ∀ x ∈ hs, x.given? = none ∧ ∀ c : Counters, c.note x = c) :
      (l.noteAll hs).given = l.given ∧ (l.noteAll hs).counters = l.counters := by
    induction hs generalizing l with
    | nil => exact ⟨rfl, rfl⟩
    | cons x rest ih =>
      obtain ⟨⟨hg, hc⟩, hrest⟩ := List.forall_mem_cons.mp h
      obtain ⟨given, counters⟩ := ih (l.note x) hrest
      refine ⟨given.trans ?_, counters.trans ?_⟩
      · rw [given_note, hg, Option.toList_none, List.append_nil]
      · rw [counters_note, hc]
  refine noted _ { l with disk := (l.disk.removeAll path).disk } fun x hx => ?_
  rcases Disk.Removal.mem_happenings.mp hx with ⟨_, -, rfl⟩ | ⟨_, -, rfl⟩ <;>
    exact ⟨rfl, fun _ => rfl⟩

end Ledger

/-! ### Pages -/

/-- The page of the slot has still to be fetched. -/
def Slot.isUnfetched (slot : Slot) : Bool :=
  match slot.stage with
  | .queueing _ => false
  | _ => true

/-- As a number. -/
def Slot.unfetched (slot : Slot) : Nat :=
  if slot.isUnfetched then 1 else 0

namespace PageFetcher
variable {cancelled : Bool} {f f' : PageFetcher} {move : Move} {hs : List Happening}

/-- How many pages have not been fetched, and still may be. -/
def unfetched (f : PageFetcher) : Nat :=
  f.pending.length + f.slots.countP Slot.isUnfetched + f.failed.length

theorem unfetched_setStage {i : Nat} {task : PageTask} {stage : SlotStage} (limiter : RateLimiter)
    (hi : f.slots[i]? = some ⟨task, stage⟩) (stage' : SlotStage) :
    ({ f with limiter }.setStage i task stage').unfetched + Slot.unfetched ⟨task, stage⟩ =
      f.unfetched + Slot.unfetched ⟨task, stage'⟩ := by
  obtain ⟨before, after, hslots, -, hset⟩ := exists_split hi
  simp only [unfetched, setStage, hset]
  rw [hslots]
  simp only [List.countP_append, List.countP_cons, Slot.unfetched]
  omega

theorem unfetched_free {i : Nat} {task : PageTask} {stage : SlotStage}
    (hi : f.slots[i]? = some ⟨task, stage⟩) :
    (f.free i).unfetched + Slot.unfetched ⟨task, stage⟩ = f.unfetched := by
  obtain ⟨before, after, hslots, herase, -⟩ := exists_split hi
  simp only [unfetched, free, herase]
  rw [hslots]
  simp only [List.countP_append, List.countP_cons, Slot.unfetched]
  omega

/-- A page that counts had still to be fetched. -/
theorem Step.unfetched (h : f.Step cancelled move hs f') (l : Ledger) :
    (l.noteAll hs).counters.pages = l.counters.pages ∧
      (l.noteAll hs).counters.images + f'.unfetched ≤ l.counters.images + f.unfetched := by
  have uncounted {f' : PageFetcher} (hle : f'.unfetched ≤ f.unfetched) :
      l.counters.pages = l.counters.pages ∧
        l.counters.images + f'.unfetched ≤ l.counters.images + f.unfetched :=
    ⟨rfl, Nat.add_le_add_left hle _⟩
  -- A fetch that fails counts no page.
  have failed (task : PageTask) (e : Error) :
      (l.noteAll [.fetchEnded f.dir task f.isRetry (.error e)]).counters.pages = l.counters.pages ∧
        (l.noteAll [.fetchEnded f.dir task f.isRetry (.error e)]).counters.images =
          l.counters.images := by
    have noted := l.counters_note (.fetchEnded f.dir task f.isRetry (.error e))
    simp only [Ledger.noteAll, List.foldl_cons, List.foldl_nil, noted, Counters.note]
    split <;> exact ⟨rfl, rfl⟩
  cases h with
  | @takes task rest now hp =>
    have waiting : ([⟨task, .waiting now⟩] : List Slot).countP Slot.isUnfetched = 1 := rfl
    refine uncounted ?_
    simp only [PageFetcher.unfetched, hp, List.countP_append, List.length_cons, waiting]
    omega
  | skips hp =>
    refine uncounted ?_
    simp only [PageFetcher.unfetched, hp, List.length_cons]
    omega
  | leaves hi | drops hi => exact uncounted (unfetched_free hi ▸ Nat.le_add_right ..)
  | begins limiter hi =>
    have begun := unfetched_setStage limiter hi .fetching
    exact uncounted (Nat.le_of_eq (Nat.add_right_cancel begun))
  | waits limiter next hi =>
    have waited := unfetched_setStage limiter hi (.waiting next)
    exact uncounted (Nat.le_of_eq (Nat.add_right_cancel waited))
  | @receives i task bytes hi =>
    have received : (f.setStage i task (.queueing bytes)).unfetched + 1 = f.unfetched :=
      unfetched_setStage f.limiter hi (.queueing bytes)
    have counted := l.counters_note (.fetchEnded f.dir task f.isRetry (.ok bytes))
    simp only [Ledger.noteAll, List.foldl_cons, List.foldl_nil, counted, Counters.note, true_and]
    omega
  | @abandons i task e hi he =>
    obtain ⟨hpages, himages⟩ := failed task e
    have freed := unfetched_free hi
    exact ⟨hpages, by omega⟩
  | @postpones i task e hi he hr =>
    obtain ⟨hpages, himages⟩ := failed task e
    have freed : (f.free i).unfetched + 1 = f.unfetched := unfetched_free hi
    refine ⟨hpages, ?_⟩
    simp only [PageFetcher.unfetched, free, List.length_append, List.length_cons,
      List.length_nil] at freed ⊢
    omega
  | @fails i task e hi he hr =>
    obtain ⟨hpages, himages⟩ := failed task e
    have freed : (f.free i).unfetched + 1 = f.unfetched := unfetched_free hi
    refine ⟨hpages, ?_⟩
    simp only [PageFetcher.unfetched, free] at freed ⊢
    omega

/-- A fetch says nothing of chapters. -/
theorem Step.sameChapters (h : f.Step cancelled move hs f') (l : Ledger) :
    l.SameChapters (l.noteAll hs) := by
  refine (Ledger.SameChapters.of_eq rfl rfl).noteAll fun x hx => ?_
  obtain ⟨hasked, -, hgiven⟩ := h.visitsNone x hx
  refine ⟨hasked, hgiven, ?_⟩
  cases x with
  | chapterDownloaded => exact absurd hx (by cases h <;> simp)
  | _ => rfl

end PageFetcher

namespace Download

/-- How many pages of the current chapter have not been fetched, and still may be. -/
def unfetched (d : Download) : Nat :=
  match d.current with
  | some ⟨_, _, _, .fetching f⟩ => f.unfetched
  | _ => 0

variable {t : Terms} {l l' : Ledger} {d d' : Download} {c : ChapterRun} {move : Move}
  {cancelled : Bool} {naming : Naming}

theorem unfetched_of_fetching {f : PageFetcher} (hd : d.current = some c)
    (hc : c.stage = .fetching f) : d.unfetched = f.unfetched := by
  obtain ⟨chapter, dir, began, stage⟩ := c
  obtain rfl : stage = .fetching f := hc
  rw [unfetched, hd]

theorem Next.images (hn : d.Next naming cancelled l l' d')
    (h : l.counters.images ≤ l.counters.pages) :
    l'.counters.images + d'.unfetched ≤ l'.counters.pages := by
  cases hn with
  | closes => exact h
  | begins =>
    rw [Ledger.counters_note]
    exact h

/-- Pages count only as long as there are pages to fetch. -/
theorem Step.images (h : l.counters.images + d.unfetched ≤ l.counters.pages)
    (hs : d.Step naming cancelled l move l' d') :
    l'.counters.images + d'.unfetched ≤ l'.counters.pages := by
  have counted : l.counters.images ≤ l.counters.pages := Nat.le_trans (Nat.le_add_right ..) h
  -- Most happenings are not of pages.
  have noted {x : Happening} (hx : (l.counters.note x).images = l.counters.images ∧
      (l.counters.note x).pages = l.counters.pages) :
      (l.note x).counters.images + d.unfetched ≤ (l.note x).counters.pages := by
    rw [Ledger.counters_note, hx.1, hx.2]
    exact h
  have fetching {c : ChapterRun} {f f' : PageFetcher} (hd : d.current = some c)
      (hc : c.stage = .fetching f) (hle : f'.unfetched ≤ f.unfetched) :
      l.counters.images + f'.unfetched ≤ l.counters.pages := by
    rw [unfetched_of_fetching hd hc] at h
    exact Nat.le_trans (Nat.add_le_add_left hle _) h
  cases hs with
  | urlsFail | placeFails | describeFails | fetchFails | givesUp | pauses => exact counted
  | noUrls _ _ hn | fetchEnds _ _ _ _ _ hn | goesOn _ _ hn =>
    refine hn.images ?_
    rw [Ledger.counters_note]
    exact counted
  | urls =>
    rw [Ledger.counters_note]
    exact counted
  | places =>
    rw [Ledger.counters_note, Ledger.counters_note]
    exact counted
  | @describes c urls result workers now =>
    have all : (PageFetcher.ofUrls c.dir urls workers now).unfetched = urls.length := by
      simp [PageFetcher.unfetched, PageFetcher.ofUrls, PageFetcher.tasks]
    rw [Ledger.counters_note]
    exact Nat.le_of_eq ((Nat.zero_add _).trans all)
  | fetches hd hc hf =>
    obtain ⟨hpages, himages⟩ := hf.unfetched l
    rw [hpages]
    rw [unfetched_of_fetching hd hc] at h
    exact Nat.le_trans himages h
  | queues hd hc hi =>
    rw [Ledger.counters_note]
    exact fetching hd hc (PageFetcher.unfetched_free hi ▸ Nat.le_add_right ..)
  | @retries c f f' hd hc ho hf =>
    simp only [PageFetcher.isPassOver, Bool.and_eq_true, List.isEmpty_iff] at ho
    unfold PageFetcher.retry? at hf
    split at hf
    · cases hf
    · cases hf
      refine fetching hd hc ?_
      simp [PageFetcher.unfetched, ho.1, ho.2]
  | pageDropped | storeStops | loads | swaps => exact h
  | commitBegins | ticks | tells => exact noted ⟨rfl, rfl⟩
  | commitEnds | commitFails =>
    rw [Ledger.counters_note]
    exact h

end Download

/-! ### Chapters -/

namespace ChapterRun

/-- The chapter while its addresses have not been given. -/
def unanswered (c : ChapterRun) : List Chapter :=
  match c.stage with
  | .resolving => [c.chapter]
  | _ => []

/-- The chapter when it has been found to have pages. -/
def uncounted (c : ChapterRun) : List Chapter :=
  match c.stage with
  | .resolving => []
  | _ => [c.chapter]

theorem uncounted_of_ne {c : ChapterRun} (h : c.stage ≠ .resolving) : c.uncounted = [c.chapter] := by
  unfold uncounted
  split
  · exact absurd ‹_› h
  · rfl

theorem unanswered_of_ne {c : ChapterRun} (h : c.stage ≠ .resolving) : c.unanswered = [] := by
  unfold unanswered
  split
  · exact absurd ‹_› h
  · rfl

end ChapterRun

namespace Download

variable {t : Terms} {l l' : Ledger} {d d' : Download} {c : ChapterRun} {move : Move}
  {cancelled : Bool}

/-- The chapters that have been asked for, given addresses of and counted: each time the first ones,
all but the current one as long as there is one. -/
structure Tally (t : Terms) (l : Ledger) (d : Download) : Prop where
  planned : d.planned = t.toDownload.length
  asked : t.toDownload = l.asked ++ d.remaining
  answered : ∃ rest, l.asked = l.given.map (·.1) ++ rest ∧
    ∀ c, d.current = some c → rest = c.unanswered
  passed : ∃ through rest, l.paged = through ++ rest ∧ through.length = l.chapters ∧
    ∀ c, d.current = some c → rest = c.uncounted

theorem Tally.given_planned (h : d.Tally t l) : l.given.map (·.1) <+: t.toDownload := by
  obtain ⟨rest, hrest, -⟩ := h.answered
  rw [h.asked, hrest, List.append_assoc]
  exact List.prefix_append ..

theorem Tally.counted (h : d.Tally t l) : l.chapters ≤ l.paged.length := by
  obtain ⟨through, rest, hpaged, hlength, -⟩ := h.passed
  rw [hpaged, List.length_append, hlength]
  exact Nat.le_add_right ..

/-- The current chapter, which has pages, is the one after those that count. -/
theorem Tally.paged (h : d.Tally t l) (hd : d.current = some c) (hc : c.stage ≠ .resolving) :
    l.paged = l.paged.take l.chapters ++ [c.chapter] := by
  obtain ⟨through, rest, hpaged, hlength, hcurrent⟩ := h.passed
  obtain rfl := (hcurrent c hd).trans (ChapterRun.uncounted_of_ne hc)
  rw [hpaged, ← hlength, List.take_left]

/-- All chapters so far have been given addresses of, and those with pages have been counted. -/
structure Passed (t : Terms) (l : Ledger) (d : Download) : Prop where
  planned : d.planned = t.toDownload.length
  asked : t.toDownload = l.asked ++ d.remaining
  answered : l.asked = l.given.map (·.1)
  counted : l.paged.length = l.chapters

theorem Next.tally {naming : Naming} (h : d.Passed t l) (hn : d.Next naming cancelled l l' d') :
    d'.Tally t l' := by
  cases hn with
  | closes =>
    exact ⟨h.planned, h.asked, ⟨[], by rw [h.answered, List.append_nil], nofun⟩,
      ⟨l.paged, [], (List.append_nil _).symm, h.counted, nofun⟩⟩
  | @begins chapter rest began hc hr =>
    refine ⟨h.planned, ?_, ⟨[chapter], ?_, ?_⟩, ⟨l.paged, [], ?_, ?_, ?_⟩⟩
    · simpa [hr] using h.asked
    · simp [h.answered]
    · intro c hc
      cases hc
      rfl
    · simp
    · simpa using h.counted
    · intro c hc
      cases hc
      rfl

/-- The current chapter goes on, or is given up. -/
theorem Tally.keeps (h : d.Tally t l) (hl : l.SameChapters l') (hp : d'.planned = d.planned)
    (hr : d'.remaining = d.remaining)
    (hc : ∀ c', d'.current = some c' → ∃ c, d.current = some c ∧ c'.unanswered = c.unanswered ∧
      c'.uncounted = c.uncounted) : d'.Tally t l' := by
  obtain ⟨rest, hrest, hcurrent⟩ := h.answered
  obtain ⟨through, rest', hthrough, hlength, hcurrent'⟩ := h.passed
  have paged : l'.paged = l.paged := by
    show (l'.given.filter _).map _ = (l.given.filter _).map _
    rw [hl.given]
  refine ⟨hp.trans h.planned, ?_, ⟨rest, ?_, fun c' hd' => ?_⟩,
    ⟨through, rest', ?_, ?_, fun c' hd' => ?_⟩⟩
  · rw [hl.asked, hr]
    exact h.asked
  · rw [hl.asked, hl.given]
    exact hrest
  · obtain ⟨c, hd, hun, -⟩ := hc c' hd'
    exact (hcurrent c hd).trans hun.symm
  · rw [paged]
    exact hthrough
  · rw [hl.chapters]
    exact hlength
  · obtain ⟨c, hd, -, hun⟩ := hc c' hd'
    exact (hcurrent' c hd).trans hun.symm

/-- The current chapter, which has pages, goes on with them. -/
theorem Tally.inStage (h : d.Tally t l) (hl : l.SameChapters l') (hd : d.current = some c)
    (hc : c.stage ≠ .resolving) {stage : ChapterStage} (hs : stage ≠ .resolving) :
    (d.inStage c stage).Tally t l' := by
  refine h.keeps hl rfl rfl fun c' hd' => ⟨c, hd, ?_⟩
  cases hd'
  have moved : ({ c with stage } : ChapterRun).stage ≠ .resolving := hs
  rw [ChapterRun.unanswered_of_ne hc, ChapterRun.uncounted_of_ne hc,
    ChapterRun.unanswered_of_ne moved, ChapterRun.uncounted_of_ne moved]
  exact ⟨rfl, rfl⟩

/-- A chapter with pages is through, and counts. -/
theorem Tally.counts (h : d.Tally t l) (hd : d.current = some c) (hc : c.stage ≠ .resolving) :
    d.Passed t (l.note .chapterDownloaded) := by
  obtain ⟨rest, hrest, hcurrent⟩ := h.answered
  obtain ⟨through, rest', hthrough, hlength, hcurrent'⟩ := h.passed
  obtain rfl := (hcurrent c hd).trans (ChapterRun.unanswered_of_ne hc)
  obtain rfl := (hcurrent' c hd).trans (ChapterRun.uncounted_of_ne hc)
  exact {
    planned := h.planned
    asked := by simpa using h.asked
    answered := by simpa using hrest
    counted := by simp [hthrough, hlength] }

/-- The addresses of the current chapter are given. -/
theorem Tally.given (h : d.Tally t l) (hd : d.current = some c) (hc : c.stage = .resolving)
    (urls : List String) : ∃ through,
      (l.note (.urlsGiven c.chapter urls)).asked =
        (l.note (.urlsGiven c.chapter urls)).given.map (·.1) ∧
      (l.note (.urlsGiven c.chapter urls)).paged =
        through ++ (if urls = [] then [] else [c.chapter]) ∧
      through.length = l.chapters := by
  obtain ⟨rest, hrest, hcurrent⟩ := h.answered
  obtain ⟨through, rest', hthrough, hlength, hcurrent'⟩ := h.passed
  obtain rfl : rest = [c.chapter] := (hcurrent c hd).trans (by rw [ChapterRun.unanswered, hc])
  obtain rfl : rest' = [] := (hcurrent' c hd).trans (by rw [ChapterRun.uncounted, hc])
  refine ⟨through, by simpa using hrest, ?_, hlength⟩
  cases urls <;> simp [hthrough]

theorem Step.tally (h : d.Tally t l) (hs : d.Step t.naming cancelled l move l' d') :
    d'.Tally t l' := by
  have same : l.SameChapters l := .of_eq rfl rfl
  have moved (disk : Disk) (recorded : List String) : l.SameChapters { l with disk, recorded } :=
    .of_eq rfl rfl
  have unchanged {d' : Download} {c' : ChapterRun} (hcurrent : d'.current = d.current)
      (hd : d'.current = some c') : ∃ c, d.current = some c ∧ c'.unanswered = c.unanswered ∧
        c'.uncounted = c.uncounted :=
    ⟨c', hcurrent ▸ hd, rfl, rfl⟩
  cases hs with
  | urlsFail | describeFails | fetchFails | givesUp =>
    exact h.keeps same rfl rfl fun _ hd' => by cases hd'
  | placeFails => exact h.keeps (moved _ _) rfl rfl fun _ hd' => by cases hd'
  | @noUrls c l' d' hd hc hn =>
    obtain ⟨through, answered, paged, hlength⟩ := h.given hd hc []
    refine hn.tally ⟨h.planned, by simpa using h.asked, answered, ?_⟩
    simp [paged, hlength]
  | @urls c urls hd hc hu =>
    obtain ⟨through, answered, paged, hlength⟩ := h.given hd hc urls
    rw [if_neg hu] at paged
    refine ⟨h.planned, by simpa [Download.inStage] using h.asked, ⟨[], by simpa using answered, ?_⟩,
      ⟨through, _, paged, by simpa using hlength, ?_⟩⟩ <;>
    · intro c' hc'
      cases hc'
      rfl
  | places mapper hd hc =>
    exact h.inStage (((moved _ _).note rfl rfl rfl).note rfl rfl rfl) hd (by simp [hc]) (by simp)
  | describes workers now hd hc =>
    exact h.inStage (same.note rfl rfl rfl) hd (by simp [hc]) (by simp)
  | fetches hd hc hf => exact h.inStage (hf.sameChapters l) hd (by simp [hc]) (by simp)
  | @queues c f i task bytes hd hc hi =>
    have pushed : Tally t l { d with store :=
        { d.store with queue := d.store.queue ++ [f.page task bytes] } } :=
      h.keeps same rfl rfl fun _ => unchanged rfl
    exact pushed.inStage (same.note rfl rfl rfl) hd (by simp [hc]) (by simp)
  | retries hd hc | pauses _ hd hc => exact h.inStage same hd (by simp [hc]) (by simp)
  | fetchEnds hd hc _ _ _ hn | goesOn hd hc hn => exact hn.tally (h.counts hd (by simp [hc]))
  | pageDropped | storeStops | loads | swaps => exact h.keeps same rfl rfl fun _ => unchanged rfl
  | commitBegins | ticks | tells =>
    exact h.keeps (same.note rfl rfl rfl) rfl rfl fun _ => unchanged rfl
  | commitEnds | commitFails =>
    exact h.keeps ((moved _ l.recorded).note rfl rfl rfl) rfl rfl fun _ => unchanged rfl

/-- The next chapter is asked for, and nothing else is told or counted. -/
theorem Next.unchanged {naming : Naming} (hn : d.Next naming cancelled l l' d') :
    l'.given = l.given ∧ l'.counters = l.counters := by
  cases hn with
  | closes => exact ⟨rfl, rfl⟩
  | begins => exact ⟨by simp, l.counters_note _⟩

theorem Next.grows {naming : Naming} (g : l.Grows l') {l'' : Ledger}
    (hn : d.Next naming cancelled l' l'' d') : l.Grows l'' := by
  cases hn with
  | closes => exact g
  | begins => exact g.note _

/-- What is told and counted is not taken back. -/
theorem Step.grows {naming : Naming} (hs : d.Step naming cancelled l move l' d') : l.Grows l' := by
  have same := Ledger.Grows.refl l
  have moved (disk : Disk) (recorded : List String) : l.Grows { l with disk, recorded } :=
    .of_eq rfl rfl
  cases hs with
  | urlsFail | describeFails | retries | fetchFails | pauses | givesUp | pageDropped | storeStops
  | loads | swaps => exact same
  | noUrls _ _ hn | fetchEnds _ _ _ _ _ hn | goesOn _ _ hn => exact hn.grows (same.note _)
  | urls | describes | queues | commitBegins | ticks | tells => exact same.note _
  | placeFails => exact moved _ _
  | places => exact ((moved _ _).note _).note _
  | fetches => exact same.noteAll _
  | commitEnds | commitFails => exact (moved _ l.recorded).note _

end Download
end Longbox
