import Longbox.Proofs.Download.Footprint

/-! What makes a cancelled download fail.

A cancelled download begins nothing (`Step.beginnings`), but collaborators that have been asked before
may still answer errors, and a chapter that has its addresses still makes its directory. Such a move
harms the download (`Download.harms`); no other makes it fail (`Step.troubled`). What a download fails
of is the first error that a move raises (`Download.raised`, `Step.failure_eq`). A download never takes
anything from the disk (`Step.extends`). -/
namespace Longbox

/-- The addresses of a chapter are asked for, or a fetch or a commit begins. -/
def Happening.isBeginning : Happening → Bool
  | .urlsAsked _ | .fetchBegun .. | .commitBegun _ => true
  | _ => false

namespace Ledger

def beginnings (l : Ledger) : List Happening :=
  l.happened.filter Happening.isBeginning

theorem beginnings_note (l : Ledger) {h : Happening} (hh : h.isBeginning = false) :
    (l.note h).beginnings = l.beginnings := by
  unfold note
  split
  · simp [beginnings, hh]
  · rfl

theorem beginnings_noteAll (l : Ledger) {hs : List Happening}
    (h : ∀ x ∈ hs, x.isBeginning = false) : (l.noteAll hs).beginnings = l.beginnings := by
  induction hs generalizing l with
  | nil => rfl
  | cons x rest ih =>
    obtain ⟨hx, hrest⟩ := List.forall_mem_cons.mp h
    exact (ih (l.note x) hrest).trans (l.beginnings_note hx)

end Ledger

namespace PageFetcher

/-- A page fails for the second time. -/
def harms (f : PageFetcher) : Move → Bool
  | .receivePage _ (.error e) => f.isRetry && !e.isCancelled
  | _ => false

theorem Step.failure_eq {cancelled : Bool} {f f' : PageFetcher} {move : Move} {hs : List Happening}
    (h : f.Step cancelled move hs f') :
    f'.failure.isSome = (f.failure.isSome || f.harms move) := by
  cases h with
  | abandons _ he => simp [harms, he, free]
  | postpones _ _ hr => simp [harms, hr, free]
  | fails _ he hr => simp [harms, he, hr]
  | _ => simp [harms, free, setStage]

end PageFetcher

namespace Download

/-- The download has failed, or its current chapter has. -/
def troubled (d : Download) : Bool :=
  d.store.failure.isSome || d.hasFailed

/-- A move that brings an error, other than of being cancelled: there are no addresses, a directory
cannot be made, a page cannot be fetched the second time, or a page cannot be committed. -/
def harms (disk : Disk) (d : Download) : Move → Bool
  | .receiveUrls (.error e) => !e.isCancelled
  | .makeDirectory => d.current.any fun c => (disk.makeAll c.dir).2.isSome
  | .receivePage i result => d.current.any fun c =>
    match c.stage with
    | .fetching f => f.harms (.receivePage i result)
    | _ => false
  | .endCommit i answer => d.store.inFlight[i]?.any fun page =>
    match (Machine.commit disk page answer).2 with
    | .error e => !e.isCancelled
    | .ok _ => false
  | _ => false

variable {t : Terms} {l l' : Ledger} {d d' : Download} {c : ChapterRun} {move : Move}
  {cancelled : Bool}

theorem hasFailed_of_current (hd : d.current = some c) : d.hasFailed = c.stage.hasFailed := by
  rw [hasFailed, hd]

@[simp] theorem troubled_failed (d : Download) (e : Error) :
    (d.failed e).troubled = (d.store.failure.isSome || !e.isCancelled) := by
  show ((d.store.report e).failure.isSome || false) = _
  rw [Bool.or_false, isSome_failure_report]

@[simp] theorem troubled_inStage (d : Download) (c : ChapterRun) (stage : ChapterStage) :
    (d.inStage c stage).troubled = (d.store.failure.isSome || stage.hasFailed) := rfl

/-- No chapter follows in a cancelled download. -/
theorem Next.troubled {naming : Naming} (hn : d.Next naming true l l' d') :
    d'.troubled = d.store.failure.isSome := by
  cases hn with
  | closes => exact Bool.or_false _
  | begins _ hc => cases hc

theorem harms_of_fetching {f f' : PageFetcher} {disk : Disk} {hs : List Happening}
    (hd : d.current = some c) (hc : c.stage = .fetching f) (hf : f.Step cancelled move hs f') :
    d.harms disk move = f.harms move := by
  cases hf <;> simp [harms, PageFetcher.harms, hd, hc]

/-- A cancelled download is troubled just if it was, or by a move that harms it. -/
theorem Step.troubled (ok : Ok t d) (hs : d.Step t.naming true l move l' d') :
    d'.troubled = (d.troubled || d.harms l.disk move) := by
  have before {c : ChapterRun} (hd : d.current = some c) {stage : ChapterStage}
      (hc : c.stage = stage) : d.troubled = (d.store.failure.isSome || stage.hasFailed) := by
    rw [Download.troubled, hasFailed_of_current hd, hc]
  cases hs with
  | urlsFail hd hc | describeFails hd hc | givesUp hd hc =>
    rw [troubled_failed, before hd hc]
    simp [harms, ChapterStage.hasFailed, Error.isCancelled]
  | placeFails hd hc hm =>
    rw [troubled_failed, before hd hc]
    simp [harms, hd, hm, Error.isCancelled]
  | noUrls hd hc hn | goesOn hd hc hn =>
    rw [hn.troubled, before hd hc]
    simp [harms, ChapterStage.hasFailed]
  | places _ hd hc hm =>
    rw [troubled_inStage, before hd hc]
    simp [harms, hd, hm, ChapterStage.hasFailed]
  | urls hd hc =>
    rw [troubled_inStage, before hd hc]
    simp [harms, ChapterStage.hasFailed]
  | describes _ _ hd hc =>
    rw [troubled_inStage, before hd hc]
    simp [harms, ChapterStage.hasFailed, PageFetcher.ofUrls]
  | fetches hd hc hf =>
    rw [troubled_inStage, before hd hc, harms_of_fetching hd hc hf]
    simp [ChapterStage.hasFailed, hf.failure_eq, Bool.or_assoc]
  | queues hd hc =>
    rw [troubled_inStage, before hd hc]
    simp [harms, ChapterStage.hasFailed, PageFetcher.free]
  | retries hd hc _ hf => simp [PageFetcher.retry?, PageFetcher.isStopped] at hf
  | @fetchFails c f e hd hc _ _ hr =>
    rw [troubled_failed, before hd hc]
    cases hf : f.failure with
    | none =>
      obtain rfl : e = .cancelled := by simpa [PageFetcher.result, hf] using hr.symm
      simp [harms, hf, ChapterStage.hasFailed, Error.isCancelled]
    | some e' =>
      obtain rfl : e' = e := by simpa [PageFetcher.result, hf] using hr
      simp [(ok.fetching hd hc).failure e' hf, hf, ChapterStage.hasFailed]
  | @pauses c f _ hd hc _ _ hr | @fetchEnds c f _ _ hd hc _ _ hr =>
    cases hf : f.failure <;> simp [PageFetcher.result, hf] at hr
  | pageDropped | commitBegins | storeStops | ticks | loads | swaps | tells =>
    exact (Bool.or_false _).symm
  | commitEnds hp hd => simp [harms, hp, hd, Download.troubled, Download.hasFailed]
  | commitFails hp hd =>
    have same (store : PageStore) : Download.hasFailed { d with store } = d.hasFailed := rfl
    simp only [Download.troubled, same, isSome_failure_report]
    simp [harms, hp, hd, Bool.or_right_comm]

/-! ### What a download fails of -/

/-- The error that a move raises. The first is kept as the failure of the download, but none of being
cancelled. -/
def raised (cancelled : Bool) (disk : Disk) (d : Download) : Move → Option Error
  | .receiveUrls (.error e) => some e
  | .makeDirectory => d.current.bind fun c => (disk.makeAll c.dir).2.map fun fault =>
    .download (.directoryFailed c.dir fault.message)
  | .endMetadata (.error .cancelled) | .giveUp => some .cancelled
  | .endPass => d.current.bind fun c =>
    match c.stage with
    | .fetching f =>
      match f.retry? cancelled, f.result cancelled with
      | none, .error e => some e
      | _, _ => none
    | _ => none
  | .endCommit i answer => d.store.inFlight[i]?.bind fun page =>
    match (Machine.commit disk page answer).2 with
    | .error e => some e
    | .ok _ => none
  | _ => none

theorem failure_report (s : PageStore) (e : Error) :
    (s.report e).failure = s.failure.or ((some e).filter fun e => !e.isCancelled) := by
  unfold PageStore.report
  cases hs : s.failure <;> cases he : e.isCancelled <;> simp [hs, he, Option.filter]

theorem failure_failed (d : Download) (e : Error) :
    (d.failed e).store.failure = d.store.failure.or ((some e).filter fun e => !e.isCancelled) :=
  failure_report d.store e

theorem Next.failure_eq {naming : Naming} (hn : d.Next naming cancelled l l' d') :
    d'.store.failure = d.store.failure := by
  cases hn <;> rfl

/-- A download fails of the first error that is raised and is not of being cancelled. -/
theorem Step.failure_eq {naming : Naming} (hs : d.Step naming cancelled l move l' d') :
    d'.store.failure = d.store.failure.or
      ((d.raised cancelled l.disk move).filter fun e => !e.isCancelled) := by
  cases hs with
  | urlsFail | describeFails | givesUp => exact failure_failed ..
  | placeFails hd hc hm =>
    rw [failure_failed]
    simp [raised, hd, hm]
  | @fetchFails c f e hd hc ho hf hr =>
    rw [failure_failed]
    simp [raised, hd, hc, hf, hr]
  | commitFails hp hd =>
    rw [failure_report]
    simp [raised, hp, hd]
  | noUrls _ _ hn | goesOn _ _ hn =>
    rw [hn.failure_eq]
    exact Option.or_none.symm
  | fetchEnds hd hc _ _ hr hn =>
    rw [hn.failure_eq]
    simp [raised, hd, hc, hr]
  | places _ hd _ hm => simp [raised, hd, hm, inStage]
  | @describes c urls result workers now hd hc hr =>
    have silent : d.raised cancelled l.disk (.endMetadata result) = none := by
      cases result with
      | ok => rfl
      | error e => cases e <;> first | rfl | exact absurd rfl hr
    rw [silent]
    exact Option.or_none.symm
  | fetches _ _ hf => cases hf <;> exact Option.or_none.symm
  | retries hd hc _ hf => simp [raised, hd, hc, hf, inStage]
  | pauses _ hd hc _ _ hr => simp [raised, hd, hc, hr, inStage]
  | commitEnds hp hd => simp [raised, hp, hd]
  | urls | queues | pageDropped | commitBegins | storeStops | ticks | loads | swaps | tells =>
    exact Option.or_none.symm

/-! ### A cancelled download begins nothing -/

theorem Next.eq_of_cancelled {naming : Naming} (hn : d.Next naming true l l' d') : l' = l := by
  cases hn with
  | closes => rfl
  | begins _ hc => cases hc

theorem Step.beginnings {naming : Naming} (hs : d.Step naming true l move l' d') :
    l'.beginnings = l.beginnings := by
  have moved (disk : Disk) (recorded : List String) :
      ({ l with disk, recorded } : Ledger).beginnings = l.beginnings := rfl
  cases hs with
  | noUrls _ _ hn | fetchEnds _ _ _ _ _ hn | goesOn _ _ hn =>
    rw [hn.eq_of_cancelled]
    exact l.beginnings_note rfl
  | urls | describes | queues => exact l.beginnings_note rfl
  | places => rw [Ledger.beginnings_note _ rfl, Ledger.beginnings_note _ rfl, moved]
  | fetches _ _ hf =>
    refine l.beginnings_noteAll ?_
    cases hf with
    | begins _ _ hs => simp [PageFetcher.isStopped] at hs
    | _ => simp [Happening.isBeginning]
  | commitBegins _ hs => simp [PageStore.isCancelled] at hs
  | commitEnds => rw [Ledger.beginnings_note _ rfl, moved _ l.recorded]
  | commitFails => rw [Ledger.beginnings_note _ rfl, moved _ l.recorded]
  | _ => rfl

/-! ### Nothing is taken from the disk -/

theorem Next.disk {naming : Naming} (hn : d.Next naming cancelled l l' d') : l'.disk = l.disk := by
  cases hn <;> simp

theorem Step.extends {naming : Naming} (hs : d.Step naming cancelled l move l' d') :
    l.disk.Extends l'.disk := by
  cases hs with
  | noUrls _ _ hn | fetchEnds _ _ _ _ _ hn | goesOn _ _ hn =>
    rw [hn.disk, Ledger.disk_note]
    exact .refl _
  | @placeFails c urls disk fault hd hc hm =>
    have grown := Disk.makeAll_grows l.disk c.dir
    rw [hm] at grown
    exact grown.extends
  | @places c urls disk mapper hd hc hm =>
    have grown := Disk.makeAll_grows l.disk c.dir
    rw [hm] at grown
    simpa using grown.extends
  | fetches =>
    rw [Ledger.disk_noteAll]
    exact .refl _
  | urls | describes | queues | commitBegins =>
    rw [Ledger.disk_note]
    exact .refl _
  | commitEnds hp hd =>
    rw [Ledger.disk_note]
    rcases Machine.commit_eq_ok hd with ⟨rfl, rfl⟩ | ⟨place, rfl, rfl, hw⟩
    · exact .refl _
    · exact Disk.extends_put_file hw _
  | commitFails hp hd =>
    rw [Ledger.disk_note, Machine.commit_eq_error hd]
    exact .refl _
  | _ => exact .refl _

end Download
end Longbox
