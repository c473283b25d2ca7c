import Longbox.Proofs.Download.Visit
import Longbox.Proofs.Session.Rollback

/-! Which chapters a completed session has come to.

Whoever gives addresses or writes metadata may answer that it was cancelled, though nobody cancelled
the session. No other chapter is begun then, but the session completes all the same. So a session
that has completed has asked for the addresses of the first of the planned chapters, and of all of
them just if nobody answered so before the last (`completed_visits`). -/
namespace Longbox

namespace Journal

theorem asked_filter_isWork (hs : List Happening) : asked (hs.filter Happening.isWork) = asked hs :=
  congrArg List.reverse
    (filterMap_filter_isWork (fun x hx => by cases x <;> first | rfl | cases hx) hs)

theorem described_filter_isWork (hs : List Happening) :
    described (hs.filter Happening.isWork) = described hs :=
  congrArg List.reverse
    (filterMap_filter_isWork (fun x hx => by cases x <;> first | rfl | cases hx) hs)

theorem paged_filter_isWork (hs : List Happening) : paged (hs.filter Happening.isWork) = paged hs := by
  rw [paged, given_filter_isWork, paged]

end Journal

namespace Download

/-- A download that has visited all planned chapters but these. -/
def VisitedBut (rest : List Chapter) (t : Terms) (l : Ledger) : Prop :=
  t.toDownload = l.asked ++ rest ∧ l.paged = l.described

variable {t : Terms} {l : Ledger} {d : Download}

theorem Visits.visitedBut (h : d.Visits t l) (ok : d.Ok t) (hc : d.store.isClosed = true)
    (hf : d.store.failure = none) : VisitedBut d.remaining t l := by
  have described := h.described hf
  rw [undescribed, ok.closed hc, List.append_nil] at described
  exact ⟨h.planned, described⟩

end Download

namespace Machine

/-- Nobody who gives addresses or writes metadata answers, with chapters left, that it was cancelled. -/
def Persistent : Machine → Action → Prop :=
  EachMove fun _ d move => move.quits = true → d.remaining = []

/-- A download that closes without being cancelled has come to all chapters. -/
def VisitsAll (m : Machine) : Phase → Prop
  | .downloading _ d => d.Ok m.terms ∧ d.Visits m.terms m.ledger ∧
    (d.store.isClosed = true → m.isCancelled d.token = false → d.remaining = [])
  | .releasing _ _ (.finished _) | .ended (.completed _) =>
    Download.VisitedBut [] m.terms m.ledger
  | _ => True

/-- A download has closed with chapters left. -/
def LeavesOut (m : Machine) : Phase → Prop
  | .fresh => False
  | .downloading _ d => d.Ok m.terms ∧ d.Visits m.terms m.ledger ∧ d.store.isClosed = true ∧
    d.remaining ≠ []
  | .releasing _ _ (.finished _) | .ended (.completed _) =>
    ∃ rest ≠ [], Download.VisitedBut rest m.terms m.ledger
  | _ => True

variable {disk : Disk} {m m' : Machine} {a : Action} {p p' : Phase}

theorem Opens.visits {id : Nat} {d : Download} (h : m.Opens disk id d) :
    m.VisitsAll (.downloading id d) := by
  obtain ⟨d₀, hopen, hnext⟩ := h.next
  obtain ⟨slots, hstore⟩ := hopen.store
  have open₀ : d₀.store.isClosed = false := by rw [hstore]
  refine ⟨hnext.ok open₀, hnext.visits ?_ fun _ => rfl, fun hc hr => ?_⟩
  · simp [hopen.remaining, Ledger.asked, Journal.asked]
  · rcases hnext.of_closed open₀ hc with hstop | hnil
    · rw [hstop] at hr
      cases hr
    · exact hnil

/-- A step of a download leaves no chapter out unless someone says that it was cancelled. -/
theorem VisitsAll.works {id : Nat} {d d' : Download} {move : Move} (h : m.Downloads id d)
    (h' : m'.Downloads id d') (ha : m.Persistent (.move id move))
    (hs : d.Step m.terms.naming (m.isCancelled d.token) m.ledger move m'.ledger d')
    (ht : d'.token = d.token) (hf : m.Follows m') (hm : m.VisitsAll (.downloading id d)) :
    m'.VisitsAll (.downloading id d') := by
  obtain ⟨ok, visits, closed⟩ := hm
  unfold VisitsAll
  dsimp only
  rw [hf.terms]
  refine ⟨hs.ok ok, hs.visits visits, fun hc' hr' => ?_⟩
  have hr : m.isCancelled d.token = false := hf.not_cancelled (ht ▸ hr')
  cases hc : d.store.isClosed with
  | true => rw [(hs.closed ok hc).2, closed hc hr]
  | false =>
    rcases hs.closes ok hc hc' with hcancel | hfail | hnil | hquits
    · rw [hr] at hcancel
      cases hcancel
    · rw [h'.cancelled hfail] at hr'
      cases hr'
    · exact hnil
    · rw [(hs.quits hquits).2]
      exact ha.of_downloads h hquits

theorem VisitsAll.step (ht : Passes disk m a m' p p') (ha : m.Persistent a) (hm : m.VisitsAll p) :
    m'.VisitsAll p' := by
  obtain ⟨h, h', -, ht⟩ := ht
  cases ht with
  | opens hopens => exact hopens.visits
  | works haction hs htoken hf =>
    subst haction
    exact VisitsAll.works h h' ha hs htoken hf hm
  | rests hl hf =>
    unfold VisitsAll at hm ⊢
    rw [hl, hf.terms]
    split
    · exact ⟨hm.1, hm.2.1, fun hc hr => hm.2.2 hc (hf.not_cancelled hr)⟩
    · exact hm
    · exact hm
    · trivial
  | finishes hc hd he hr hl hf =>
    obtain ⟨ok, visits, closed⟩ := hm
    have visited := visits.visitedBut ok hc he
    rw [closed hc hr] at visited
    unfold VisitsAll
    dsimp only
    rw [hl, hf.terms]
    exact visited
  | @ends id token reason hl hf =>
    cases reason with
    | finished n =>
      unfold VisitsAll at hm ⊢
      dsimp only [ReleaseReason.outcome] at hm ⊢
      rw [hl, hf.terms]
      exact hm
    | _ => trivial
  | _ => trivial

/-- A course in which someone says so with chapters left leaves them out. -/
theorem LeavesOut.begins (ht : Passes disk m a m' p p') (ha : ¬ m.Persistent a)
    (hm : m.VisitsAll p) : m'.LeavesOut p' := by
  obtain ⟨id, d, move, rfl, rfl, hmove⟩ := ht.before.exists_move ha
  obtain ⟨hquits, hleft⟩ := Classical.not_imp.mp hmove
  obtain ⟨ok, visits, -⟩ := hm
  cases ht.transition with
  | works haction hs htoken hf =>
    cases haction
    obtain ⟨hclosed, hremaining⟩ := hs.quits hquits
    unfold LeavesOut
    dsimp only
    rw [hf.terms]
    exact ⟨hs.ok ok, hs.visits visits, hclosed, hremaining ▸ hleft⟩
  | rests _ _ hcall => cases hcall
  | fails | stops => trivial
  | finishes _ _ _ _ _ _ haction =>
    cases haction
    cases hquits

theorem LeavesOut.step (ht : Passes disk m a m' p p') (hm : m.LeavesOut p) : m'.LeavesOut p' := by
  obtain ⟨h, h', -, ht⟩ := ht
  cases ht with
  | prepares | opens => cases hm
  | works haction hs htoken hf =>
    obtain ⟨ok, visits, hclosed, hleft⟩ := hm
    obtain ⟨hclosed', hremaining⟩ := hs.closed ok hclosed
    unfold LeavesOut
    dsimp only
    rw [hf.terms]
    exact ⟨hs.ok ok, hs.visits visits, hclosed', hremaining ▸ hleft⟩
  | rests hl hf =>
    unfold LeavesOut at hm ⊢
    rw [hl, hf.terms]
    exact hm
  | finishes hc hd he hr hl hf =>
    obtain ⟨ok, visits, hclosed, hleft⟩ := hm
    have visited := visits.visitedBut ok hc he
    unfold LeavesOut
    dsimp only
    rw [hl, hf.terms]
    exact ⟨_, hleft, visited⟩
  | @ends id token reason hl hf =>
    cases reason with
    | finished n =>
      unfold LeavesOut at hm ⊢
      dsimp only [ReleaseReason.outcome] at hm ⊢
      rw [hl, hf.terms]
      exact hm
    | _ => trivial
  | _ => trivial

/-- A session that has completed has asked for the addresses of the first of the planned chapters, in
their order, and had the metadata of each chapter with pages written. It has asked for all of them just
if nobody who gives addresses or writes metadata answered before the last that it was cancelled. -/
theorem completed_visits {request : Request} {disk : Disk} {actions : List Action} {m : Machine}
    {call n : Nat} (hrun : (ofRequest request disk).run? actions = some m)
    (hanswer : .answered call (.ok (some (.completed n))) ∈ m.journal) :
    Journal.asked m.journal <+: m.session.plan.toDownload ∧
      Journal.described m.journal = Journal.paged m.journal ∧
      (Journal.asked m.journal = m.session.plan.toDownload ↔
        (ofRequest request disk).Along Persistent actions) := by
  have begins : (ofRequest request disk).At disk .fresh := fresh_ofRequest request disk
  obtain ⟨p, hat, hend⟩ := begins.course (I := VisitsAll) (J := LeavesOut) VisitsAll.step
    LeavesOut.begins LeavesOut.step trivial hrun
  obtain rfl := hat.over_of_answered hanswer rfl
  have told (rest : List Chapter) (h : Download.VisitedBut rest m.terms m.ledger) :
      m.session.plan.toDownload = Journal.asked m.journal ++ rest ∧
        Journal.paged m.journal = Journal.described m.journal := by
    obtain ⟨planned, described⟩ := h
    rw [Ledger.asked, ledger, Journal.asked_filter_isWork] at planned
    rw [Ledger.paged, Ledger.described, ledger, Journal.paged_filter_isWork,
      Journal.described_filter_isWork] at described
    exact ⟨planned, described⟩
  rcases hend with ⟨hall, hvisited⟩ | ⟨hnot, rest, hrest, hvisited⟩
  · obtain ⟨planned, described⟩ := told [] hvisited
    rw [List.append_nil] at planned
    exact ⟨planned ▸ List.prefix_rfl, described.symm, iff_of_true planned.symm hall⟩
  · obtain ⟨planned, described⟩ := told rest hvisited
    refine ⟨⟨rest, planned.symm⟩, described.symm, iff_of_false (fun heq => hrest ?_) hnot⟩
    rw [heq] at planned
    exact List.append_cancel_left (planned.symm.trans (List.append_nil _).symm)

/-- Nobody answers that they were cancelled. -/
def neverQuits : Action → Bool
  | .move _ move => !move.quits
  | _ => true

theorem along_persistent {actions : List Action} (h : actions.all neverQuits = true) (m : Machine) :
    m.Along Persistent actions := by
  refine along_eachMove (fun id move ha _ _ hquits => ?_) m
  have never := List.all_eq_true.mp h _ ha
  simp [neverQuits, hquits] at never

theorem completed_visits_twoChapters :
    ∃ m, (ofRequest (seriesOf ["1", "2"]) {}).run?
        (begun ++ chapterOfOnePage ++ chapterOfOnePage ++ [.move 0 .finish, .released 0 (.ok ())]) =
          some m ∧
      Journal.asked m.journal = m.session.plan.toDownload := by
  have ends : ((ofRequest (seriesOf ["1", "2"]) {}).run?
      (begun ++ chapterOfOnePage ++ chapterOfOnePage ++ [.move 0 .finish, .released 0 (.ok ())])).any
        (·.tells (.completed 2)) = true := by
    decide +kernel
  obtain ⟨m, hrun, htells⟩ := (Option.any_eq_true ..).mp ends
  obtain ⟨call, hanswer⟩ := exists_answered htells
  exact ⟨m, hrun, (completed_visits hrun hanswer).2.2.mpr (along_persistent (by decide) _)⟩

/-- The addresses of the first chapter are answered to be cancelled, which nobody asked for: the
session completes and has not come to the second chapter. -/
theorem completed_skips_chapter :
    ∃ m, (ofRequest (seriesOf ["1", "2"]) {}).run?
        (begun ++ [.move 0 (.receiveUrls (.error .cancelled)), .move 0 .finish,
          .released 0 (.ok ())]) = some m ∧
      m.tells (.completed 0) = true ∧ m.session.cancelRequested = false ∧
      m.cancelledParents = [] ∧
      m.session.plan.toDownload = (seriesOf ["1", "2"]).catalog ∧
      Journal.asked m.journal = [⟨"1", "", "1", ""⟩] := by
  have skips : ((ofRequest (seriesOf ["1", "2"]) {}).run?
      (begun ++ [.move 0 (.receiveUrls (.error .cancelled)), .move 0 .finish,
        .released 0 (.ok ())])).any (fun m =>
          m.tells (.completed 0) && (!m.session.cancelRequested && (m.cancelledParents == [] &&
          (m.session.plan.toDownload == (seriesOf ["1", "2"]).catalog &&
          Journal.asked m.journal == [⟨"1", "", "1", ""⟩])))) = true := by
    decide +kernel
  obtain ⟨m, hrun, hskips⟩ := (Option.any_eq_true ..).mp skips
  simp only [Bool.and_eq_true, Bool.not_eq_true', beq_iff_eq] at hskips
  exact ⟨m, hrun, hskips⟩

end Machine
end Longbox
