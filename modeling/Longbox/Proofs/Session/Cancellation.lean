import Longbox.Proofs.Download.Harm
import Longbox.Proofs.Session.Rollback

/-! What becomes of a download that is cancelled.

Collaborators may still answer errors when the token of the run is cancelled, and the download fails
with the first of them. So a cancelled run ends as cancelled just if no error comes any more; then
nobody is told of a failure and nothing is taken from the disk (`cancelled_spares`). Otherwise it is
aborted like a run that was not cancelled. -/
namespace Longbox
namespace Machine

/-- No move brings an error that makes a download fail. -/
def Spares : Machine → Action → Prop :=
  EachMove fun m d move => d.harms m.disk move = false

/-- What a run leaves that found the tree `found` and was cancelled at `start`. -/
structure Spared (found : Disk) (start m : Machine) : Prop where
  /-- Since then nobody has been asked to release the session or told that it has failed. -/
  notices : m.notices = start.notices
  answers : ∀ call reason, .answered call (.ok (some (.aborted reason))) ∉ m.journal
  ahead : ∀ x ∈ m.journal, x.isRollback = false
  found : found.Extends m.disk
  start : start.disk.Extends m.disk

/-- The download is cancelled, and nothing has harmed it. -/
def Winds (found : Disk) (m start : Machine) : Phase → Prop
  | .downloading id d => m.Reverts found (.downloading id d) ∧ m.isCancelled d.token = true ∧
    d.troubled = false ∧ m.notices = start.notices ∧ start.disk.Extends m.disk
  | .ended o => o = .cancelled ∧ m.notices = start.notices ∧
    (∀ x ∈ m.ledger.happened, x.isRollback = false) ∧ found.Extends m.disk ∧
    start.disk.Extends m.disk
  | _ => False

/-- The download is cancelled, and fails all the same. -/
def Fails (m : Machine) : Phase → Prop
  | .fresh => False
  | .downloading _ d => d.Ok m.terms ∧ m.isCancelled d.token = true ∧ d.troubled = true
  | .removing .. => True
  | .releasing _ _ reason => ∃ cause, reason = .failed cause
  | .ended o => ∃ reason, o = .aborted reason

variable {found : Disk} {m m' start : Machine} {a : Action} {p p' : Phase}

theorem troubled_of_closed {t : Terms} {d : Download} (ok : d.Ok t)
    (hc : d.store.isClosed = true) : d.troubled = d.store.failure.isSome := by
  rw [Download.troubled, Download.hasFailed, ok.closed hc]
  exact Bool.or_false _

theorem Winds.step (ht : Passes found m a m' p p') (ha : m.Spares a)
    (hm : m.Winds found start p) : m'.Winds found start p' := by
  cases ht.transition with
  | prepares | opens => cases hm
  | works haction hs htoken hf hn =>
    obtain ⟨reverts, hcancel, htroubled, hnotices, hextends⟩ := hm
    have reverts' := Reverts.step ht.before ht.after trivial ht.transition reverts
    subst haction
    rw [hcancel] at hs
    refine ⟨reverts', hf.cancelled _ (htoken ▸ hcancel), ?_, hn.trans hnotices,
      hextends.trans hs.extends⟩
    rw [hs.troubled reverts.1, htroubled, Bool.false_or]
    exact ha.of_downloads ht.before
  | rests hl hf hcall hn =>
    have reverts' := fun h => Reverts.step ht.before ht.after trivial ht.transition h
    have hdisk : m'.disk = m.disk := congrArg Ledger.disk hl
    unfold Winds at hm ⊢
    rw [hn, hl, hdisk]
    split at hm
    · exact ⟨reverts' hm.1, hf.cancelled _ hm.2.1, hm.2.2⟩
    · exact hm
    · exact hm.elim
  | fails hc hd he =>
    obtain ⟨reverts, -, htroubled, -⟩ := hm
    rw [troubled_of_closed reverts.1 hc, he] at htroubled
    cases htroubled
  | stops hl hf hc he hn =>
    obtain ⟨⟨-, -, footprint⟩, -, -, hnotices, hextends⟩ := hm
    have hdisk : m'.disk = m.disk := congrArg Ledger.disk hl
    unfold Winds
    dsimp only
    rw [hn, hl, hdisk]
    exact ⟨rfl, hnotices, footprint.ahead, footprint.grown, hextends⟩
  | finishes hc hd he hr =>
    rw [hm.2.1] at hr
    cases hr
  | removes | asks | ends => exact hm.elim

theorem Fails.begins (ht : Passes found m a m' p p') (ha : ¬ m.Spares a)
    (hm : m.Winds found start p) : m'.Fails p' := by
  obtain ⟨id, d, move, rfl, rfl, hharms⟩ := ht.before.exists_move ha
  rw [Bool.not_eq_false] at hharms
  obtain ⟨⟨ok, -⟩, hcancel, -⟩ := hm
  cases ht.transition with
  | works haction hs htoken hf =>
    cases haction
    rw [hcancel] at hs
    unfold Fails
    dsimp only
    rw [hf.terms]
    refine ⟨hs.ok ok, hf.cancelled _ (htoken ▸ hcancel), ?_⟩
    rw [hs.troubled ok]
    exact Bool.or_eq_true_iff.mpr (.inr hharms)
  | rests _ _ hcall => cases hcall
  | fails => trivial
  | stops _ _ _ _ _ haction =>
    cases haction
    cases hharms
  | finishes _ _ _ hr =>
    rw [hcancel] at hr
    cases hr

theorem Fails.step (ht : Passes found m a m' p p') (hm : m.Fails p) : m'.Fails p' := by
  cases ht.transition with
  | prepares | opens => cases hm
  | works haction hs htoken hf hn =>
    obtain ⟨ok, hcancel, htroubled⟩ := hm
    rw [hcancel] at hs
    unfold Fails
    dsimp only
    rw [hf.terms]
    refine ⟨hs.ok ok, hf.cancelled _ (htoken ▸ hcancel), ?_⟩
    rw [hs.troubled ok, htroubled, Bool.true_or]
  | rests hl hf hcall hn =>
    unfold Fails at hm ⊢
    rw [hf.terms]
    split
    · exact hm
    · exact ⟨hm.1, hf.cancelled _ hm.2.1, hm.2.2⟩
    · trivial
    · exact hm
    · exact hm
  | fails => trivial
  | stops hl hf hc he =>
    obtain ⟨ok, -, htroubled⟩ := hm
    rw [troubled_of_closed ok hc, he] at htroubled
    cases htroubled
  | finishes hc hd he hr =>
    rw [hm.2.1] at hr
    cases hr
  | removes => trivial
  | asks => exact ⟨_, rfl⟩
  | ends =>
    obtain ⟨cause, rfl⟩ := hm
    exact ⟨_, rfl⟩

/-- A run whose download is cancelled before it fails ends as cancelled just if no error comes after
that, and is aborted else. If it ends as cancelled, nobody is told that it has failed, nobody is
asked to release the session, and nothing is taken from the disk. -/
theorem cancelled_spares {request : Request} {disk : Disk} {before after : List Action}
    {start m : Machine} {c : Call} {d : Download} {o : Outcome}
    (hstart : (ofRequest request disk).run? before = some start) (hc : c ∈ start.calls)
    (hd : c.stage = .downloading d) (hcancel : start.isCancelled d.token = true)
    (hfail : d.store.failure = none) (hrun : start.run? after = some m)
    (ho : m.session.outcome = some o) :
    (o = .cancelled ↔ d.hasFailed = false ∧ start.Along Spares after) ∧
      (o = .cancelled ∨ ∃ reason, o = .aborted reason) ∧
      (o = .cancelled → Spared disk start m) := by
  have begins : (ofRequest request disk).At disk .fresh := fresh_ofRequest request disk
  obtain ⟨p, hat, reverts⟩ := begins.always (I := Reverts disk)
    (fun ht => Reverts.step ht.before ht.after trivial ht.transition) trivial hstart
  obtain rfl := hat.eq_downloading hc hd
  have aborted {p' : Phase} (hat' : m.At disk p') (hfails : m.Fails p') :
      ∃ reason, o = .aborted reason := by
    obtain rfl := hat'.eq_ended (by rintro rfl; exact hfails) ho
    exact hfails
  cases hfailed : d.hasFailed with
  | true =>
    have troubled : start.Fails (.downloading c.id d) :=
      ⟨reverts.1, hcancel, by rw [Download.troubled, hfailed, Bool.or_true]⟩
    obtain ⟨p', hat', hfails⟩ := hat.always (I := Fails) Fails.step troubled hrun
    obtain ⟨reason, rfl⟩ := aborted hat' hfails
    simp
  | false =>
    have winds : start.Winds disk start (.downloading c.id d) :=
      ⟨reverts, hcancel, by rw [Download.troubled, hfailed, hfail]; rfl, rfl, .refl _⟩
    obtain ⟨p', hat', hend⟩ := hat.course (I := fun m => m.Winds disk start) (J := Fails)
      Winds.step Fails.begins Fails.step winds hrun
    rcases hend with ⟨hall, hwinds⟩ | ⟨hnot, hfails⟩
    · obtain rfl := hat'.eq_ended (by rintro rfl; exact hwinds) ho
      obtain ⟨rfl, hnotices, hahead, hfound, hextends⟩ := hwinds
      refine ⟨by simp [hall], .inl rfl, fun _ => ⟨hnotices, ?_, ?_, hfound, hextends⟩⟩
      · intro call reason hanswer
        cases hat'.answers call _ hanswer rfl
      · intro x hx
        cases hr : x.isRollback with
        | false => rfl
        | true =>
          rw [hahead x ((mem_ledger (Happening.isWork_of_isRollback hr)).mpr hx)] at hr
          cases hr
    · obtain ⟨reason, rfl⟩ := aborted hat' hfails
      simp [hnot]

/-- Some call downloads, is cancelled and has not failed. -/
def isWinding (m : Machine) : Bool :=
  m.calls.any fun c => match c.stage with
    | .downloading d => m.isCancelled d.token && d.store.failure.isNone
    | _ => false

theorem exists_winding {m : Machine} (h : m.isWinding = true) : ∃ c d, c ∈ m.calls ∧
    c.stage = .downloading d ∧ m.isCancelled d.token = true ∧ d.store.failure = none := by
  obtain ⟨c, hc, hd⟩ := List.any_eq_true.mp h
  split at hd
  · rename_i d hstage
    rw [Bool.and_eq_true, Option.isNone_iff_eq_none] at hd
    exact ⟨c, d, hc, hstage, hd⟩
  · cases hd

/-- A run that is cancelled while its one page is fetched. -/
def cancelledFetch : List Action :=
  begun ++ [.move 0 (.receiveUrls (.ok ["u"])), .move 0 .makeDirectory, .move 0 (.endMetadata (.ok ())),
    .move 0 .takePage, .move 0 (.requestPermit 0), .call .cancel]

/-- The fetch then fails for the first time. -/
def fetchFailsOnce : List Action :=
  [.move 0 (.receivePage 0 (.error (.transport "down"))), .move 0 .endPass, .move 0 .finish]

theorem cancelled_spares_fetch :
    ∃ start m, (ofRequest (seriesOf ["1"]) {}).run? cancelledFetch = some start ∧
      start.run? fetchFailsOnce = some m ∧ Spared {} start m := by
  have ends : ((ofRequest (seriesOf ["1"]) {}).run? cancelledFetch).any (fun start =>
      start.isWinding && (start.run? fetchFailsOnce).any fun m =>
        m.session.outcome == some .cancelled) = true := by
    decide +kernel
  obtain ⟨start, hstart, hends⟩ := (Option.any_eq_true ..).mp ends
  obtain ⟨hwinding, hends⟩ := Bool.and_eq_true_iff.mp hends
  obtain ⟨m, hrun, houtcome⟩ := (Option.any_eq_true ..).mp hends
  obtain ⟨c, d, hc, hd, hcancel, hfail⟩ := exists_winding hwinding
  exact ⟨start, m, hstart, hrun,
    (cancelled_spares hstart hc hd hcancel hfail hrun (beq_iff_eq.mp houtcome)).2.2 rfl⟩

/-- A run is cancelled while the addresses of its first chapter are asked for. When they are answered
with an error, it is aborted: the client is asked to remove the session, and listeners are told that it
has failed. -/
theorem cancelled_aborts :
    ∃ start m, (ofRequest (seriesOf ["1"]) {}).run? (begun ++ [.call .cancel]) = some start ∧
      start.isWinding = true ∧ start.notices.length = 0 ∧
      start.run? (noAddresses 0) = some m ∧
      m.session.outcome = some (.aborted "provider error: gone") ∧ m.notices.length = 2 := by
  have aborts : ((ofRequest (seriesOf ["1"]) {}).run? (begun ++ [.call .cancel])).any (fun start =>
      start.isWinding && (start.notices.length == 0 && (start.run? (noAddresses 0)).any fun m =>
        m.session.outcome == some (.aborted "provider error: gone") && m.notices.length == 2)) =
          true := by
    decide +kernel
  obtain ⟨start, hstart, haborts⟩ := (Option.any_eq_true ..).mp aborts
  simp only [Bool.and_eq_true, beq_iff_eq, Option.any_eq_true] at haborts
  obtain ⟨hwinding, hsilent, m, hrun, houtcome, hnotices⟩ := haborts
  exact ⟨start, m, hstart, hwinding, hsilent, hrun, houtcome, hnotices⟩

end Machine
end Longbox
