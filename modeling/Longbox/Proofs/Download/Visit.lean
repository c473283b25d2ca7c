import Longbox.Proofs.Download.Balance

/-! Which chapters a download has come to.

A download asks for the addresses of one chapter after the other, and has the metadata of each chapter
with pages written before its pages are fetched (`Download.Visits`). Each step keeps that. It leaves
chapters out only if it is cancelled, if it fails, or if whoever gives addresses and writes metadata
answers that it was cancelled (`Step.closes`). -/
namespace Longbox

/-! ### What a journal tells of chapters -/

@[simp] def Happening.asked? : Happening → Option Chapter
  | .urlsAsked chapter => some chapter
  | _ => none

@[simp] def Happening.described? : Happening → Option Chapter
  | .metadataAsked chapter _ => some chapter
  | _ => none

namespace Journal

/-- The chapters whose addresses have been asked for, in the order of the download. -/
def asked (hs : List Happening) : List Chapter :=
  (hs.filterMap Happening.asked?).reverse

/-- The chapters whose metadata was to be written, in the order of the download. -/
def described (hs : List Happening) : List Chapter :=
  (hs.filterMap Happening.described?).reverse

/-- The chapters that have been found to have pages, in the order of the download. -/
def paged (hs : List Happening) : List Chapter :=
  ((given hs).filter fun given => !given.2.isEmpty).map (·.1)

end Journal

namespace Ledger

def asked (l : Ledger) : List Chapter := Journal.asked l.happened
def described (l : Ledger) : List Chapter := Journal.described l.happened
def paged (l : Ledger) : List Chapter := Journal.paged l.happened

section
variable (l : Ledger) (h : Happening)

@[simp] theorem asked_note : (l.note h).asked = l.asked ++ h.asked?.toList :=
  reverse_filterMap_note (fun h hw => by cases h <;> first | rfl | cases hw) l h

@[simp] theorem described_note : (l.note h).described = l.described ++ h.described?.toList :=
  reverse_filterMap_note (fun h hw => by cases h <;> first | rfl | cases hw) l h

@[simp] theorem paged_note : (l.note h).paged =
    l.paged ++ ((h.given?.toList.filter fun given => !given.2.isEmpty).map (·.1)) := by
  have noted : Journal.given (l.note h).happened = Journal.given l.happened ++ h.given?.toList :=
    given_note l h
  simp [paged, Journal.paged, noted]

end

/-- Two ledgers tell the same of chapters. -/
structure SameVisits (l l' : Ledger) : Prop where
  asked : l'.asked = l.asked
  described : l'.described = l.described
  paged : l'.paged = l.paged

theorem SameVisits.note {l l' : Ledger} (s : SameVisits l l') {h : Happening} (ha : h.asked? = none)
    (hd : h.described? = none) (hg : h.given? = none) : SameVisits l (l'.note h) where
  asked := by rw [asked_note, s.asked, ha, Option.toList_none, List.append_nil]
  described := by rw [described_note, s.described, hd, Option.toList_none, List.append_nil]
  paged := by
    rw [paged_note, s.paged, hg]
    exact List.append_nil _

theorem SameVisits.noteAll {l l' : Ledger} (s : SameVisits l l') {hs : List Happening}
    (h : ∀ x ∈ hs, x.asked? = none ∧ x.described? = none ∧ x.given? = none) :
    SameVisits l (l'.noteAll hs) := by
  induction hs generalizing l' with
  | nil => exact s
  | cons x rest ih =>
    obtain ⟨⟨ha, hd, hg⟩, hrest⟩ := List.forall_mem_cons.mp h
    exact ih (s.note ha hd hg) hrest

end Ledger

/-- Fetching pages tells nothing of chapters. -/
theorem PageFetcher.Step.visitsNone {cancelled : Bool} {f f' : PageFetcher} {move : Move}
    {hs : List Happening} (h : f.Step cancelled move hs f') :
    ∀ x ∈ hs, x.asked? = none ∧ x.described? = none ∧ x.given? = none := by
  cases h <;> simp

/-- Whoever gives addresses and writes metadata answers that it was cancelled. -/
def Move.quits : Move → Bool
  | .receiveUrls (.error e) | .endMetadata (.error e) => e.isCancelled
  | _ => false

namespace Download

/-- The current chapter has pages, and its metadata is still to be written. -/
def undescribed (d : Download) : List Chapter :=
  match d.current with
  | some ⟨chapter, _, _, .placing _⟩ => [chapter]
  | _ => []

/-- What a download has visited: the first of the planned chapters, and all there is to a chapter
unless it has failed. -/
structure Visits (t : Terms) (l : Ledger) (d : Download) : Prop where
  planned : t.toDownload = l.asked ++ d.remaining
  described : d.store.failure = none → l.paged = l.described ++ d.undescribed

variable {t : Terms} {l l' : Ledger} {d d' : Download} {c : ChapterRun} {move : Move}
  {cancelled : Bool}

theorem undescribed_of_stage (hd : d.current = some c) (hs : ∀ urls, c.stage ≠ .placing urls) :
    d.undescribed = [] := by
  obtain ⟨chapter, dir, began, stage⟩ := c
  unfold undescribed
  rw [hd]
  cases stage with
  | placing urls => exact absurd rfl (hs urls)
  | _ => rfl

theorem undescribed_inStage (d : Download) (c : ChapterRun) {stage : ChapterStage}
    (hs : ∀ urls, stage ≠ .placing urls) : (d.inStage c stage).undescribed = [] :=
  undescribed_of_stage (c := { c with stage }) rfl hs

/-- A failure is not taken back. -/
theorem failure_of_report {s : PageStore} {e : Error} (h : (s.report e).failure = none) :
    s.failure = none := by
  unfold PageStore.report at h
  split at h
  · exact h
  · cases h

/-! ### Steps keep it -/

/-- The store has no part in it, but for a failure. -/
theorem Visits.store (h : d.Visits t l) (hl : l.SameVisits l') {store : PageStore}
    (hf : store.failure = none → d.store.failure = none) : Visits t l' { d with store } where
  planned := by
    rw [hl.asked]
    exact h.planned
  described := fun hnone => by
    rw [hl.paged, hl.described]
    exact h.described (hf hnone)

/-- The timer has no part in it. -/
theorem Visits.timed (h : d.Visits t l) (hl : l.SameVisits l') (reading : Option Reading)
    (reported : Nat) : Visits t l' { d with reading, reported } where
  planned := by
    rw [hl.asked]
    exact h.planned
  described := fun hnone => by
    rw [hl.paged, hl.described]
    exact h.described hnone

/-- A chapter goes on to another stage. -/
theorem Visits.inStage (h : d.Visits t l) (hl : l.SameVisits l') (hd : d.current = some c)
    (hc : ∀ urls, c.stage ≠ .placing urls) {stage : ChapterStage} (hs : ∀ urls, stage ≠ .placing urls) :
    (d.inStage c stage).Visits t l' where
  planned := by
    rw [hl.asked]
    exact h.planned
  described := fun hf => by
    have := h.described hf
    rw [undescribed_of_stage hd hc] at this
    rw [hl.paged, hl.described, undescribed_inStage d c hs]
    exact this

/-- The download is closed on account of an error. -/
theorem Visits.failed (h : d.Visits t l) (hl : l.SameVisits l') (hd : d.current = some c) {e : Error}
    (hc : e.isCancelled = true → ∀ urls, c.stage ≠ .placing urls) : (d.failed e).Visits t l' where
  planned := by
    rw [hl.asked]
    exact h.planned
  described := fun hf => by
    have hnone : d.store.failure = none := failure_of_report hf
    have := h.described hnone
    have he : e.isCancelled = true := by
      cases he : e.isCancelled with
      | true => rfl
      | false =>
        have hsome := isSome_failure_failed d he
        rw [hf] at hsome
        cases hsome
    rw [undescribed_of_stage hd (hc he)] at this
    rw [hl.paged, hl.described]
    exact this

/-- A chapter that is described, or has no pages, is followed by the next. -/
theorem Next.visits {naming : Naming} (hn : d.Next naming cancelled l l' d')
    (planned : t.toDownload = l.asked ++ d.remaining)
    (described : d.store.failure = none → l.paged = l.described) : d'.Visits t l' := by
  cases hn with
  | closes => exact ⟨planned, fun hf => by simpa [undescribed, closed] using described hf⟩
  | begins began hc hr =>
    refine ⟨by simp [planned, hr], fun hf => ?_⟩
    simpa [undescribed] using described hf

theorem Step.visits (h : d.Visits t l) (hs : d.Step t.naming cancelled l move l' d') :
    d'.Visits t l' := by
  have same : l.SameVisits l := ⟨rfl, rfl, rfl⟩
  have moved (disk : Disk) (recorded : List String) : l.SameVisits { l with disk, recorded } :=
    ⟨rfl, rfl, rfl⟩
  cases hs with
  | urlsFail hd hc | describeFails hd hc | fetchFails hd hc | givesUp hd hc =>
    exact h.failed same hd fun _ urls => by simp [hc]
  | placeFails hd hc hm => exact h.failed (moved _ _) hd nofun
  | @noUrls c l' d' hd hc hn =>
    refine hn.visits (by simpa using h.planned) fun hf => ?_
    have := h.described hf
    rw [undescribed_of_stage hd (by simp [hc])] at this
    simpa using this
  | @urls c urls hd hc hu =>
    refine ⟨by simpa [Download.inStage] using h.planned, fun hf => ?_⟩
    have := h.described hf
    rw [undescribed_of_stage hd (by simp [hc])] at this
    simpa [undescribed, Download.inStage, hu] using this
  | @places c urls disk mapper hd hc hm =>
    have books := moved disk (l.recorded ++ [c.dir])
    refine ⟨by simpa [books.asked, Download.inStage] using h.planned, fun hf => ?_⟩
    · have pending : d.undescribed = [c.chapter] := by
        obtain ⟨chapter, dir, began, stage⟩ := c
        obtain rfl : stage = .placing urls := hc
        rw [undescribed, hd]
      have := h.described hf
      rw [pending] at this
      rw [undescribed_inStage d c (by simp)]
      simpa [books.paged, books.described] using this
  | describes workers now hd hc hr =>
    exact h.inStage (same.note rfl rfl rfl) hd (by simp [hc]) (by simp)
  | fetches hd hc hf => exact h.inStage (same.noteAll hf.visitsNone) hd (by simp [hc]) (by simp)
  | @queues c f i task bytes hd hc hi =>
    have pushed : Visits t l { d with store :=
        { d.store with queue := d.store.queue ++ [f.page task bytes] } } :=
      h.store same fun hf => hf
    exact pushed.inStage (same.note rfl rfl rfl) hd (by simp [hc]) (by simp)
  | retries hd hc | pauses _ hd hc => exact h.inStage same hd (by simp [hc]) (by simp)
  | fetchEnds hd hc _ _ _ hn | goesOn hd hc hn =>
    refine hn.visits (by simpa using h.planned) fun hf => ?_
    have := h.described hf
    rw [undescribed_of_stage hd (by simp [hc])] at this
    simpa using this
  | pageDropped | storeStops => exact h.store same fun hf => hf
  | commitBegins => exact h.store (same.note rfl rfl rfl) fun hf => hf
  | commitEnds => exact h.store ((moved _ l.recorded).note rfl rfl rfl) fun hf => hf
  | commitFails => exact h.store ((moved _ l.recorded).note rfl rfl rfl) failure_of_report
  | ticks | tells => exact h.timed (same.note rfl rfl rfl) ..
  | loads | swaps => exact h.timed same ..

/-! ### How a download comes to leave chapters out -/

theorem isClosed_report (s : PageStore) (e : Error) : (s.report e).isClosed = s.isClosed := by
  unfold PageStore.report
  split <;> rfl

/-- A closed download goes to no other chapter. -/
theorem Step.closed (ok : Ok t d) (hs : d.Step t.naming cancelled l move l' d')
    (hc : d.store.isClosed = true) : d'.store.isClosed = true ∧ d'.remaining = d.remaining := by
  have nobody := ok.closed hc
  cases hs with
  | pageDropped | commitBegins | commitEnds | storeStops | ticks | loads | swaps | tells =>
    exact ⟨hc, rfl⟩
  | commitFails => exact ⟨(isClosed_report ..).trans hc, rfl⟩
  | urlsFail hd | noUrls hd | urls hd | placeFails hd | places _ hd | describeFails hd
  | describes _ _ hd | fetches hd | queues hd | retries hd | fetchFails hd | pauses _ hd
  | fetchEnds hd | goesOn hd | givesUp hd =>
    rw [nobody] at hd
    cases hd

/-- No chapter follows in a download that is cancelled or has no chapter left. -/
theorem Next.of_closed {naming : Naming} (hn : d.Next naming cancelled l l' d')
    (ho : d.store.isClosed = false) (hc : d'.store.isClosed = true) :
    cancelled = true ∨ d'.remaining = [] := by
  cases hn with
  | closes h => exact h
  | begins => simp [ho] at hc

/-- A download that closes is cancelled, has failed, has no chapter left, or was told by whoever gives
addresses and writes metadata that it was cancelled. -/
theorem Step.closes (ok : Ok t d) (hs : d.Step t.naming cancelled l move l' d')
    (ho : d.store.isClosed = false) (hc : d'.store.isClosed = true) :
    cancelled = true ∨ d'.store.failure.isSome = true ∨ d'.remaining = [] ∨ move.quits = true := by
  have failed {e : Error} : (d.failed e).store.failure.isSome = true ∨ e.isCancelled = true := by
    cases he : e.isCancelled with
    | true => exact .inr rfl
    | false => exact .inl (isSome_failure_failed d he)
  cases hs with
  | urlsFail => exact failed.elim (fun h => .inr (.inl h)) fun h => .inr (.inr (.inr h))
  | describeFails => exact .inr (.inr (.inr rfl))
  | placeFails => exact .inr (.inl (isSome_failure_failed d rfl))
  | givesUp _ _ hcancel => exact .inl hcancel
  | @fetchFails c f e hd hstage hover hretry hr =>
    rcases failed (e := e) with h | he
    · exact .inr (.inl h)
    · refine .inl ?_
      unfold PageFetcher.result at hr
      split at hr
      · rename_i e' hfailure
        cases hr
        rw [(ok.fetching hd hstage).failure e hfailure] at he
        cases he
      · split at hr
        · assumption
        · cases hr
  | noUrls _ _ hn | fetchEnds _ _ _ _ _ hn | goesOn _ _ hn =>
    rcases hn.of_closed ho hc with h | h
    · exact .inl h
    · exact .inr (.inr (.inl h))
  | commitFails =>
    have : d.store.isClosed = true := by simpa [isClosed_report] using hc
    simp [ho] at this
  | _ =>
    have : d.store.isClosed = true := hc
    simp [ho] at this

/-- With whoever gives addresses or writes metadata saying that it was cancelled, no other chapter is
begun. -/
theorem Step.quits {naming : Naming} (hs : d.Step naming cancelled l move l' d')
    (hm : move.quits = true) : d'.store.isClosed = true ∧ d'.remaining = d.remaining := by
  cases hs with
  | urlsFail | describeFails => exact ⟨rfl, rfl⟩
  | @describes c urls result workers now hd hc hr =>
    cases result with
    | ok _ => cases hm
    | error e => cases e <;> first | exact absurd rfl hr | cases hm
  | fetches hd hc hf => cases hf <;> cases hm
  | _ => cases hm

end Download
end Longbox
