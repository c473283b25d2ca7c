import Longbox.Proofs.Download.Step

/-! The shape of a download.

The current chapter is at the place that the naming gives it, its pages are fetched for that place,
and a download whose store is closed has no current chapter (`Download.Ok`). Each step keeps that. -/
namespace Longbox

namespace PageFetcher
variable {cancelled : Bool} {f f' : PageFetcher} {move : Move} {hs : List Happening}

/-- The pages of a directory are fetched; what fails in the second pass is the failure. -/
structure Ok (dir : String) (f : PageFetcher) : Prop where
  dir : f.dir = dir
  failed : f.isRetry = true → f.failed = []
  failure : ∀ e, f.failure = some e → e.isCancelled = false

theorem Step.ok {dir : String} (h : f.Step cancelled move hs f') (ok : f.Ok dir) : f'.Ok dir := by
  obtain ⟨hdir, hfailed, hfailure⟩ := ok
  cases h with
  | postpones _ _ hr => exact ⟨hdir, fun h => by simp [free, hr] at h, hfailure⟩
  | fails _ he hr =>
    refine ⟨hdir, hfailed, fun e h => ?_⟩
    cases hf : f.failure with
    | some e' => exact hfailure e (by simpa [hf] using h)
    | none =>
      rw [hf] at h
      cases h
      rfl
  | _ => exact ⟨hdir, hfailed, hfailure⟩

/-- A failure stays. -/
theorem Step.failure (h : f.Step cancelled move hs f') (hf : f.failure.isSome = true) :
    f'.failure.isSome = true := by
  cases h with
  | fails => simp
  | _ => exact hf

theorem failure_of_result (h : f.result cancelled = .ok ()) : f.failure = none := by
  cases hf : f.failure with
  | none => rfl
  | some e => simp [result, hf] at h

theorem failure_of_retry? (h : f.retry? cancelled = some f') : f.failure = none := by
  unfold retry? at h
  split at h
  · cases h
  · rename_i hs
    simp only [isStopped, Bool.or_eq_true, not_or] at hs
    simpa using hs.2.2

end PageFetcher

namespace ChapterStage

def Ok (dir : String) : ChapterStage → Prop
  | .fetching f => f.Ok dir
  | _ => True

/-- Fetching has failed, and the download is going to. -/
def hasFailed : ChapterStage → Bool
  | .fetching f => f.failure.isSome
  | _ => false

end ChapterStage

namespace Download

/-- The current chapter is at its place, and so are its pages. A closed download has none. -/
structure Ok (t : Terms) (d : Download) : Prop where
  dir : ∀ c, d.current = some c → c.dir = t.naming.contentPath c.chapter
  stage : ∀ c, d.current = some c → c.stage.Ok c.dir
  closed : d.store.isClosed = true → d.current = none

/-- Fetching the current chapter has failed. -/
def hasFailed (d : Download) : Bool :=
  match d.current with
  | none => false
  | some c => c.stage.hasFailed

variable {t : Terms} {l l' : Ledger} {d d' : Download} {c : ChapterRun} {move : Move}
  {cancelled : Bool}

theorem Ok.open (h : Ok t d) (hd : d.current = some c) : d.store.isClosed = false := by
  cases hc : d.store.isClosed with
  | false => rfl
  | true =>
    rw [h.closed hc] at hd
    cases hd

theorem Ok.fetching {f : PageFetcher} (h : Ok t d) (hd : d.current = some c)
    (hc : c.stage = .fetching f) : f.Ok c.dir := by
  have := h.stage c hd
  rw [hc] at this
  exact this

theorem ok_of_current_eq_none (t : Terms) (h : d.current = none) : Ok t d where
  dir := fun c hc => by
    rw [h] at hc
    cases hc
  stage := fun c hc => by
    rw [h] at hc
    cases hc
  closed := fun _ => h

theorem isSome_failure_report (s : PageStore) (e : Error) :
    (s.report e).failure.isSome = (s.failure.isSome || !e.isCancelled) := by
  unfold PageStore.report
  cases hs : s.failure <;> cases he : e.isCancelled <;> simp [hs]

theorem isSome_failure_failed (d : Download) {e : Error} (he : e.isCancelled = false) :
    (d.failed e).store.failure.isSome = true :=
  (isSome_failure_report d.store e).trans (by simp [he])

theorem ok_closed (t : Terms) (d : Download) : Ok t d.closed :=
  ok_of_current_eq_none t rfl

theorem Ok.inStage (h : Ok t d) (hd : d.current = some c) {stage : ChapterStage}
    (hs : stage.Ok c.dir) : Ok t (d.inStage c stage) where
  dir := fun _ hc => by
    cases hc
    exact h.dir c hd
  stage := fun _ hc => by
    cases hc
    exact hs
  closed := fun hc => by
    have : d.store.isClosed = true := hc
    rw [h.open hd] at this
    cases this

theorem Next.ok (ho : d.store.isClosed = false) (hn : d.Next t.naming cancelled l l' d') :
    Ok t d' := by
  cases hn with
  | closes => exact ok_closed t d
  | begins began hc hr =>
    constructor
    · intro c hc
      cases hc
      rfl
    · intro c hc
      cases hc
      trivial
    · intro hc
      have : d.store.isClosed = true := hc
      rw [ho] at this
      cases this

theorem Step.ok (h : Ok t d) (hs : d.Step t.naming cancelled l move l' d') : Ok t d' := by
  cases hs with
  | urlsFail | placeFails | describeFails | fetchFails | givesUp => exact ok_closed t _
  | noUrls hd _ hn | fetchEnds hd _ _ _ _ hn | goesOn hd _ hn => exact hn.ok (h.open hd)
  | urls hd | places _ hd | pauses _ hd =>
    refine h.inStage hd ?_
    trivial
  | describes workers now hd =>
    refine h.inStage hd ?_
    exact { dir := rfl, failed := fun _ => rfl, failure := fun e he => by cases he }
  | fetches hd hc hf =>
    refine h.inStage hd ?_
    exact hf.ok (h.fetching hd hc)
  | @queues c f i task bytes hd hc hi =>
    have pushed : Ok t { d with store :=
        { d.store with queue := d.store.queue ++ [f.page task bytes] } } :=
      ⟨h.dir, h.stage, h.closed⟩
    refine pushed.inStage hd ?_
    exact { h.fetching hd hc with }
  | retries hd hc ho hf =>
    have ok := h.fetching hd hc
    unfold PageFetcher.retry? at hf
    split at hf
    · cases hf
    · cases hf
      refine h.inStage hd ?_
      exact { dir := ok.dir, failed := fun _ => rfl, failure := ok.failure }
  | pageDropped | commitBegins | commitEnds | storeStops | ticks | loads | swaps | tells =>
    exact ⟨h.dir, h.stage, h.closed⟩
  | commitFails =>
    refine ⟨h.dir, h.stage, fun hc => h.closed ?_⟩
    unfold PageStore.report at hc
    split at hc <;> exact hc

theorem hasFailed_eq {f : PageFetcher} (hd : d.current = some c) (hc : c.stage = .fetching f) :
    d.hasFailed = f.failure.isSome := by
  rw [hasFailed, hd]
  dsimp only
  rw [hc]
  rfl

/-- A failure of the current chapter stays until it is the failure of the download. -/
theorem Step.hasFailed (ok : Ok t d) (hs : d.Step t.naming false l move l' d')
    (hf : d.hasFailed = true) : d'.hasFailed = true ∨ d'.store.failure.isSome = true := by
  have stage {c : ChapterRun} (hd : d.current = some c) : c.stage.hasFailed = true := by
    simpa [Download.hasFailed, hd] using hf
  cases hs with
  | urlsFail hd hc | noUrls hd hc | urls hd hc | placeFails hd hc | places _ hd hc
  | describeFails hd hc | describes _ _ hd hc | goesOn hd hc | givesUp hd hc =>
    have := stage hd
    rw [hc] at this
    cases this
  | fetches hd hc hfetch =>
    rw [hasFailed_eq hd hc] at hf
    exact .inl (hfetch.failure hf)
  | queues hd hc hi =>
    rw [hasFailed_eq hd hc] at hf
    exact .inl hf
  | retries hd hc ho hretry =>
    rw [hasFailed_eq hd hc, PageFetcher.failure_of_retry? hretry] at hf
    cases hf
  | pauses _ hd hc ho hretry hr | fetchEnds hd hc ho hretry hr hn =>
    rw [hasFailed_eq hd hc, PageFetcher.failure_of_result hr] at hf
    cases hf
  | @fetchFails c f e hd hc ho hretry hr =>
    rw [hasFailed_eq hd hc] at hf
    obtain ⟨e', he⟩ := Option.isSome_iff_exists.mp hf
    obtain rfl : e' = e := by simpa [PageFetcher.result, he] using hr
    exact .inr (isSome_failure_failed d ((ok.fetching hd hc).failure e' he))
  | pageDropped | commitBegins | commitEnds | commitFails | storeStops | ticks | loads | swaps
  | tells => exact .inl hf

end Download
end Longbox
