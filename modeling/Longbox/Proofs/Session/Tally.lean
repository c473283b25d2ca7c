import Longbox.Proofs.Download.Tally
import Longbox.Proofs.Number.Rounding
import Longbox.Proofs.Session.Talk
import Longbox.Proofs.Session.Timer
import Longbox.Proofs.Session.Visit

/-! What listeners hear of the progress of a session.

Only a download reports its progress (`Passes.reports_eq`). The chapters that listeners are told of are
the first of those that have pages, as many as the counter says, and a report at the end of a chapter
tells how many had been told of before it (`Machine.Reckons`). `reports_tally` puts that together for any
two points of a course of actions, with what the timer reports in between; `torn_report` shows a report
of the timer that is of two chapters at once. -/
namespace Longbox

/-- A report of the progress at the end of a chapter, or the news that a chapter is through. -/
def Happening.isReport : Happening → Bool
  | .sent (.progress ..) | .sent (.chapterCompleted ..) => true
  | _ => false

/-- The chapter that listeners are told of, with the id of the session. -/
def Happening.completed? : Happening → Option (String × String)
  | .sent (.chapterCompleted id chapter) => some (id, chapter)
  | _ => none

/-- What the timer reports. -/
def Happening.timed? : Happening → Option Event
  | .timed event => some event
  | _ => none

namespace Journal

/-- The chapters that listeners have been told of, in the order of the download. -/
def completed (hs : List Happening) : List (String × String) :=
  (hs.filterMap Happening.completed?).reverse

@[simp] theorem completed_cons (x : Happening) (hs : List Happening) :
    completed (x :: hs) = completed hs ++ x.completed?.toList := by
  unfold completed
  rw [List.filterMap_cons]
  cases x.completed? with
  | none => simp
  | some chapter => simp

theorem completed_filter_isReport (hs : List Happening) :
    completed (hs.filter Happening.isReport) = completed hs := by
  unfold completed
  rw [List.filterMap_filter]
  congr 2
  funext x
  cases x with
  | sent event => cases event <;> rfl
  | _ => rfl

end Journal

namespace Machine

/-- The latest comes first. -/
def reports (m : Machine) : List Happening :=
  m.journal.filter Happening.isReport

variable {disk : Disk} {m m' : Machine} {a : Action} {p p' : Phase} {id : Nat} {d d' : Download}
  {token : Option Nat}

/-! ### Only a download reports its progress -/

theorem reports_eq_talk (m : Machine) : m.reports = m.talk.filter Happening.isReport := by
  show m.journal.filter _ = (m.journal.filter _).filter _
  rw [List.filter_filter]
  refine List.filter_congr fun x _ => ?_
  cases x <;> simp [Happening.isReport, Happening.isTalk, Happening.isWork]

theorem reports_of_voice (hv : m'.voice = m.voice) : m'.reports = m.reports := by
  rw [reports_eq_talk, reports_eq_talk, show m'.talk = m.talk from congrArg Voice.talk hv]

theorem Keeps.reports (k : m.Keeps m') : m'.reports = m.reports := by
  rw [Machine.reports, k.journal, Machine.reports]

theorem reports_setLifecycle (m : Machine) (l : Lifecycle) :
    (m.setLifecycle l).reports = m.reports := by
  unfold setLifecycle
  split <;> rfl

theorem reports_nextChapter (m : Machine) (id : Nat) (d : Download) :
    (m.nextChapter id d).reports = m.reports := by
  rcases m.voice_nextChapter id d with hv | hv
  · exact reports_of_voice hv
  · exact (reports_of_voice hv).trans (m.reports_setLifecycle .cleanup)

theorem Proceeds.reports (h : m.Proceeds id token m') : m'.reports = m.reports := by
  cases h with
  | answers => rfl
  | releases => exact m.withSelection.reports_setLifecycle .waiting
  | opens => exact (reports_nextChapter ..).trans (m.withSelection.reports_setLifecycle .downloading)

theorem Prelude.reports (h : m.Prelude a m') : m'.reports = m.reports := by
  have loading (op : Operation) : ((m.opened op).setLifecycle .loading).reports = m.reports :=
    (reports_setLifecycle ..).trans (m.keeps_opened op).reports
  cases h with
  | rests _ k | answers k => exact k.reports
  | cancels => exact (m.keeps_opened _).reports
  | asks | lists => exact loading _
  | proceeds _ _ hp => exact hp.reports.trans (m.keeps_opened _).reports
  | prefers | released => rfl
  | @plansNothing c a volumes => exact (m.withPlan volumes).reports_setLifecycle .waiting
  | @plans c a volumes m' _ _ _ _ hp =>
    exact hp.reports.trans ((m.withPlan volumes).reports_setLifecycle _)

theorem reports_noteAll {hs : List Happening} (h : ∀ x ∈ hs, x.isReport = false) (m : Machine) :
    (m.noteAll hs).reports = m.reports := by
  induction hs generalizing m with
  | nil => rfl
  | cons x rest ih =>
    obtain ⟨hx, hrest⟩ := List.forall_mem_cons.mp h
    refine (ih hrest (m.note x)).trans ?_
    simp [reports, note, hx]

theorem Sequel.reports (h : m.Sequel p a m') (hq : ∀ id d move, p = .downloading id d →
    a = .move id move → move = .finish) : m'.reports = m.reports := by
  cases h with
  | rests _ k | answers k => exact k.reports
  | @moves id d move m' hm =>
    obtain rfl := hq id d move rfl rfl
    obtain ⟨-, hm⟩ := Option.ite_none_right_eq_some.mp hm
    obtain rfl := Option.some.inj hm
    unfold Machine.conclude
    split
    · exact (Keeps.cancelStored m).reports
    · split <;> rfl
  | @removes id token cause left a =>
    cases left with
    | nil => rfl
    | cons path left =>
      have removed : ∀ x ∈ (m.disk.removeAll path).happenings path, x.isReport = false := by
        intro x hx
        rcases Disk.Removal.mem_happenings.mp hx with ⟨_, -, rfl⟩ | ⟨_, -, rfl⟩ <;> rfl
      exact reports_noteAll removed { m with disk := (m.disk.removeAll path).disk }
  | @released id token reason a hr =>
    cases reason with
    | emptyPlan | emptySelection => cases hr
    | finished | failed => rfl

/-- What is no move of a download but its end reports nothing. -/
theorem Passes.reports_eq (h : Passes disk m a m' p p') (hq : ∀ id d move, p = .downloading id d →
    a = .move id move → move = .finish) : m'.reports = m.reports := by
  by_cases hp : p = .fresh
  · subst hp
    exact (Fresh.prelude h.before h.step).reports
  · exact (h.before.sequel hp h.step).reports hq

theorem At.speaks {move : Move} (h : m.At disk (.downloading id d))
    (hs : m.step? (.move id move) = some m') (hm : move ≠ .finish) : m.Speaks d m' := by
  cases h.sequel nofun hs with
  | rests ha => cases ha
  | moves hmove => exact speaks_moveDownload? hmove hm

theorem Speaks.reports (h : m.Speaks d m') : ∃ said, m.Says d m' said ∧
    m'.reports = said.map .sent ++ m.reports := by
  obtain ⟨-, said, closing, hsays, hcloses, htalk⟩ := h
  refine ⟨said, hsays, ?_⟩
  have closed : (closing.map Happening.sent).filter Happening.isReport = [] := by
    cases hcloses <;> rfl
  have reported : (said.map Happening.sent).filter Happening.isReport = said.map .sent := by
    cases hsays <;> rfl
  rw [reports_eq_talk, htalk, List.map_append, List.filter_append, List.filter_append, closed, reported,
    List.nil_append, ← reports_eq_talk]

/-! ### What is reported is so -/

/-- A report of the progress tells how many of the planned chapters were through when it was sent. -/
def Reports (id : String) (planned : Nat) (earlier : List Happening) : Happening → Prop
  | .sent (.progress id' percent _ images total) =>
    id' = id ∧ percent = Single.percent (Journal.completed earlier).length planned ∧ images ≤ total
  | _ => True

/-- What has been counted and reported of the progress is so. -/
structure Reckons (m : Machine) : Prop where
  given : m.ledger.given.map (·.1) <+: m.terms.toDownload
  counted : m.ledger.chapters ≤ m.ledger.paged.length
  images : m.ledger.counters.images ≤ m.ledger.counters.pages
  completed : Journal.completed m.reports =
    (m.ledger.paged.take m.ledger.chapters).map fun c => (m.terms.request.id, c.id)
  reports : ∀ x earlier, x :: earlier <:+ m.reports →
    Reports m.terms.request.id m.terms.toDownload.length earlier x

theorem Reckons.length_completed (h : m.Reckons) :
    (Journal.completed m.reports).length = m.ledger.chapters := by
  rw [h.completed, List.length_map, List.length_take, Nat.min_eq_left h.counted]

/-- There is nothing to tell of yet. -/
theorem reckons_of_nothing (hg : m.ledger.given = []) (hc : m.ledger.counters = {})
    (hr : m.reports = []) : m.Reckons := by
  have chapters : m.ledger.chapters = 0 := congrArg Counters.chapters hc
  constructor
  · rw [hg]
    exact List.nil_prefix
  · rw [chapters]
    exact Nat.zero_le _
  · rw [hc]
  · rw [chapters, hr]
    rfl
  · intro x earlier hx
    rw [hr] at hx
    cases List.suffix_nil.mp hx

/-- Nothing of that has changed. -/
theorem Reckons.keeps (h : m.Reckons) (ht : m'.terms = m.terms)
    (hg : m'.ledger.given = m.ledger.given) (hc : m'.ledger.counters = m.ledger.counters)
    (hr : m'.reports = m.reports) : m'.Reckons := by
  have paged : m'.ledger.paged = m.ledger.paged := by
    show (m'.ledger.given.filter _).map _ = (m.ledger.given.filter _).map _
    rw [hg]
  have chapters : m'.ledger.chapters = m.ledger.chapters := congrArg Counters.chapters hc
  constructor
  · rw [hg, ht]
    exact h.given
  · rw [chapters, paged]
    exact h.counted
  · rw [hc]
    exact h.images
  · rw [hr, paged, chapters, ht]
    exact h.completed
  · rw [hr, ht]
    exact h.reports

theorem completed_cons_progress (m : Machine) (d : Download) (speed : Nat) (hs : List Happening) :
    Journal.completed (.sent (m.progress d speed) :: hs) = Journal.completed hs :=
  (Journal.completed_cons ..).trans (List.append_nil _)

/-- With one more report, what has been reported is still so. -/
theorem forall_suffix_cons {P : List Happening → Happening → Prop} {x : Happening}
    {hs : List Happening} (h : ∀ y earlier, y :: earlier <:+ hs → P earlier y) (hx : P hs x) :
    ∀ y earlier, y :: earlier <:+ x :: hs → P earlier y := by
  intro y earlier hy
  rcases List.suffix_cons_iff.mp hy with heq | hsuffix
  · cases heq
    exact hx
  · exact h y earlier hsuffix

/-- A move of a download counts and reports at most one chapter, the one that is current. -/
theorem Reckons.works (h : m.Reckons) (ht : d.Tally m.terms m.ledger)
    (ht' : d'.Tally m'.terms m'.ledger) (hterms : m'.terms = m.terms)
    (hg : m.ledger.Grows m'.ledger)
    (hi : m'.ledger.counters.images + d'.unfetched ≤ m'.ledger.counters.pages)
    (hs : m.Speaks d m') : m'.Reckons := by
  obtain ⟨said, hsays, hreports⟩ := hs.reports
  have images : m'.ledger.counters.images ≤ m'.ledger.counters.pages :=
    Nat.le_trans (Nat.le_add_right ..) hi
  have taken {n : Nat} (hn : n ≤ m.ledger.paged.length) :
      m'.ledger.paged.take n = m.ledger.paged.take n := by
    obtain ⟨new, hnew⟩ := hg.paged
    rw [← hnew, List.take_append_of_le_length hn]
  have before := hterms ▸ h.reports
  have reported (speed : Nat) {hs : List Happening}
      (hlength : (Journal.completed hs).length = m'.ledger.chapters) :
      Reports m'.terms.request.id m'.terms.toDownload.length hs (.sent (m'.progress d speed)) := by
    refine ⟨rfl, ?_, images⟩
    rw [hlength, ht.planned, hterms]
    rfl
  refine ⟨ht'.given_planned, ht'.counted, images, ?_, ?_⟩ <;> rw [hreports]
  · rw [hterms]
    cases hsays with
    | nothing hc =>
      have chapters : m'.ledger.chapters = m.ledger.chapters := hc
      rw [chapters, taken h.counted]
      exact h.completed
    | reports speed hc =>
      have chapters : m'.ledger.chapters = m.ledger.chapters := congrArg Counters.chapters hc
      rw [chapters, taken h.counted]
      exact (completed_cons_progress ..).trans h.completed
    | @completes c speed hd hstage hc =>
      have chapters : m'.ledger.chapters = m.ledger.chapters + 1 := congrArg Counters.chapters hc
      have paged := ht.paged hd hstage
      have length : m.ledger.paged.length = m.ledger.chapters + 1 := by
        rw [paged, List.length_append, List.length_take, Nat.min_eq_left h.counted]
        rfl
      calc Journal.completed (.sent (m'.progress d speed) ::
              .sent (.chapterCompleted m.terms.request.id c.chapter.id) :: m.reports)
          = Journal.completed m.reports ++ [(m.terms.request.id, c.chapter.id)] :=
            (completed_cons_progress ..).trans (Journal.completed_cons ..)
        _ = (m.ledger.paged.take m.ledger.chapters ++ [c.chapter]).map fun c =>
              (m.terms.request.id, c.id) := by
            rw [List.map_append, ← h.completed]
            rfl
        _ = (m'.ledger.paged.take m'.ledger.chapters).map fun c => (m.terms.request.id, c.id) := by
            rw [← paged, chapters, ← length, taken (Nat.le_refl _), List.take_length]
  · cases hsays with
    | nothing => exact before
    | reports speed hc =>
      have chapters : m'.ledger.chapters = m.ledger.chapters := congrArg Counters.chapters hc
      exact forall_suffix_cons before (reported speed (h.length_completed.trans chapters.symm))
    | @completes c speed hd hstage hc =>
      have chapters : m'.ledger.chapters = m.ledger.chapters + 1 := congrArg Counters.chapters hc
      have through : (Journal.completed (.sent (.chapterCompleted m.session.request.id c.chapter.id) ::
          m.reports)).length = m'.ledger.chapters := by
        rw [Journal.completed_cons, List.length_append, h.length_completed, chapters]
        rfl
      exact forall_suffix_cons (forall_suffix_cons before trivial) (reported speed through)

/-! ### The phases of a session -/

/-- The counters of a session and what has been reported of them, in each phase. -/
def Counts (m : Machine) : Phase → Prop
  | .fresh => m.reports = []
  | .downloading _ d => m.Reckons ∧ d.Tally m.terms m.ledger ∧
    m.ledger.counters.images + d.unfetched ≤ m.ledger.counters.pages
  | _ => m.Reckons

theorem Counts.reckons (h : m.At disk p) (hm : m.Counts p) : m.Reckons := by
  cases p with
  | fresh =>
    have untouched := Idle.ledger (Fresh.idle h)
    exact reckons_of_nothing (by rw [untouched]; rfl) (by rw [untouched]) hm
  | downloading => exact hm.1
  | removing | releasing | ended => exact hm

theorem Opens.counts (h : m.Opens disk id d) (hr : m.reports = []) : m.Counts (.downloading id d) := by
  obtain ⟨d₀, hopen, hnext⟩ := h.next
  have passed : d₀.Passed m.terms { disk } :=
    ⟨hopen.planned, hopen.remaining.symm, rfl, rfl⟩
  obtain ⟨hg, hc⟩ := hnext.unchanged
  exact ⟨reckons_of_nothing hg hc hr, hnext.tally passed, hnext.images (Nat.le_refl 0)⟩

theorem Counts.step (h : Passes disk m a m' p p') (hm : m.Counts p) : m'.Counts p' := by
  have elsewhere (hp : ∀ id d, p ≠ .downloading id d) : m'.reports = m.reports :=
    h.reports_eq fun id d _ heq => absurd heq (hp id d)
  cases h.transition with
  | prepares =>
    have silent : m.reports = [] := hm
    show m'.reports = []
    rw [elsewhere (fun _ _ hp => by cases hp), silent]
  | opens hopens =>
    have silent : m.reports = [] := hm
    exact hopens.counts (by rw [elsewhere (fun _ _ hp => by cases hp), silent])
  | rests hl hf ha =>
    have same : m'.reports = m.reports := h.reports_eq fun id d move _ heq => by
      rw [heq] at ha
      cases ha
    have kept (hr : m.Reckons) : m'.Reckons := hr.keeps hf.terms (by rw [hl]) (by rw [hl]) same
    cases p with
    | fresh =>
      have silent : m.reports = [] := hm
      show m'.reports = []
      rw [same, silent]
    | downloading id d =>
      obtain ⟨reckons, tally, images⟩ := hm
      refine ⟨kept reckons, ?_, ?_⟩ <;> rw [hl]
      · rw [hf.terms]
        exact tally
      · exact images
    | removing | releasing | ended => exact kept hm
  | @works id d d' move ha hs ht hf hn =>
    obtain ⟨reckons, tally, images⟩ := hm
    have tally' : d'.Tally m'.terms m'.ledger := hf.terms ▸ hs.tally tally
    have images' := hs.images images
    exact ⟨reckons.works tally tally' hf.terms hs.grows images'
      (h.before.speaks (ha ▸ h.step) hs.ne_finish), tally', images'⟩
  | @fails id d cause hc hd he hl hf ha =>
    have same : m'.reports = m.reports := h.reports_eq fun _ _ move _ heq => by
      cases ha.symm.trans heq
      rfl
    exact hm.1.keeps hf.terms (by rw [hl]; simp) (by rw [hl]; exact m.ledger.counters_note _) same
  | @stops id d hl hf hc he hn ha | @finishes id d hc hd he hr hl hf ha =>
    have same : m'.reports = m.reports := h.reports_eq fun _ _ move _ heq => by
      cases ha.symm.trans heq
      rfl
    exact hm.1.keeps hf.terms (by rw [hl]) (by rw [hl]) same
  | @removes id token cause path left hl hf =>
    obtain ⟨given, counters⟩ := m.ledger.remove_unchanged path
    exact Reckons.keeps hm hf.terms (by rw [hl, given]) (by rw [hl, counters])
      (elsewhere (fun _ _ hp => by cases hp))
  | asks hl hf | ends hl hf =>
    exact Reckons.keeps hm hf.terms (by rw [hl]) (by rw [hl])
      (elsewhere (fun _ _ hp => by cases hp))

/-! ### Two points of a course -/

theorem Passes.grows (h : Passes disk m a m' p p') : m.ledger.Grows m'.ledger := by
  have of_eq (hl : m'.ledger = m.ledger) : m.ledger.Grows m'.ledger := hl ▸ .refl _
  cases h.transition with
  | prepares =>
    exact of_eq ((Idle.ledger (Fresh.idle h.after)).trans (Idle.ledger (Fresh.idle h.before)).symm)
  | opens hopens =>
    obtain ⟨d₀, -, hnext⟩ := hopens.next
    rw [Idle.ledger (Fresh.idle h.before)]
    exact hnext.grows (.refl _)
  | rests hl | stops hl | asks hl | ends hl => exact of_eq hl
  | finishes _ _ _ _ hl => exact of_eq hl
  | works _ hs => exact hs.grows
  | fails _ _ _ hl =>
    rw [hl]
    exact (Ledger.Grows.refl _).note _
  | @removes id token cause path left hl =>
    obtain ⟨given, counters⟩ := m.ledger.remove_unchanged path
    exact hl ▸ .of_eq given counters

/-- How the progress of a session has gone on from `m` to `m'`, and what has been told of it. -/
structure ToldOf (m m' : Machine) : Prop where
  /-- Chapters are given addresses of in the order of the plan, from its first chapter on. -/
  given : (Journal.given m'.journal).map (·.1) <+: m'.session.plan.toDownload
  /-- The chapters that are told of are the first of those with pages, in that order. -/
  completed : Journal.completed m'.journal <+:
    (Journal.paged m'.journal).map fun c => (m'.session.request.id, c.id)
  /-- They are the first planned chapters with pages, if a chapter is always given the same
  addresses. -/
  planned : ∀ urls : Chapter → List String,
    (∀ given ∈ Journal.given m'.journal, given.2 = urls given.1) →
      Journal.completed m'.journal <+: (m'.session.plan.toDownload.filter fun c =>
        !(urls c).isEmpty).map fun c => (m'.session.request.id, c.id)
  counted : (Journal.completed m'.journal).length = m'.session.counters.chapters
  counters : m'.session.counters = Journal.counters m'.journal
  chapters : m'.session.counters.chapters ≤ m'.session.plan.toDownload.length
  images : m'.session.counters.images ≤ m'.session.counters.pages
  /-- A report at the end of a chapter tells how many chapters had been told of before. The length of a
  plan is a number of 64 bits. -/
  reports : ∀ id percent speed images total earlier,
    .sent (.progress id percent speed images total) :: earlier <:+ m'.journal →
      id = m'.session.request.id ∧ images ≤ total ∧
      percent = Single.percent (Journal.completed earlier).length
        m'.session.plan.toDownload.length ∧
      (m'.session.plan.toDownload.length < 2 ^ 64 → percent.magnitude.value ≤ 100)
  /-- A report that the timer asked for tells what its counters have shown since the latest tick. -/
  timed : ∀ event earlier, .timed event :: earlier <:+ m'.journal →
    ∃ percent speed images total since before,
      event = .progress m'.session.request.id percent speed images total ∧
      earlier = since ++ .ticked :: before ∧ .ticked ∉ since ∧
      Journal.Gathered m'.session.plan.toDownload.length before since percent images total ∧
      (m'.session.plan.toDownload.length < 2 ^ 64 → percent.magnitude.value ≤ 100)
  /-- Nothing that has been counted of the session is taken back. -/
  chapters_le : m.session.counters.chapters ≤ m'.session.counters.chapters
  failures_le : m.session.counters.failures ≤ m'.session.counters.failures

/-- The invariants of the counters, and of the timer beside them. -/
def Sums (m : Machine) (p : Phase) : Prop :=
  m.Counts p ∧ m.Clocked p

theorem Sums.step (h : Passes disk m a m' p p') (hm : m.Sums p) : m'.Sums p' := by
  refine ⟨Counts.step h hm.1, h.clocked (fun n d hp => ?_) hm.2⟩
  subst hp
  obtain ⟨reckons, tally, -⟩ := hm.1
  exact ⟨tally.planned, reckons.images⟩

/-- However collaborators answer, the chapters that listeners are told of are the first of the planned
chapters that have pages, as many as the counter says; reports at the end of a chapter agree with that,
those of the timer are gathered from what its counters have shown, and no counter of the session goes
back. -/
theorem reports_tally {request : Request} {before after : List Action}
    (hbefore : (ofRequest request disk).run? before = some m) (hafter : m.run? after = some m') :
    m.ToldOf m' := by
  have begins : (ofRequest request disk).At disk .fresh := fresh_ofRequest request disk
  have nothing : (ofRequest request disk).Sums .fresh :=
    ⟨rfl, Ledger.clocked_of_nothing rfl, fun _ _ hp => nomatch hp⟩
  obtain ⟨p, h, hsums⟩ := begins.always Sums.step nothing hbefore
  obtain ⟨p', h', ⟨hcounts', clocked⟩, hgrows⟩ := h.always
    (I := fun m' p' => m'.Sums p' ∧ m.ledger.Grows m'.ledger)
    (fun ht hm => ⟨Sums.step ht hm.1, hm.2.trans ht.grows⟩) ⟨hsums, .refl _⟩ hafter
  have reckons := hcounts'.reckons h'
  have counters : m'.session.counters = Journal.counters m'.journal :=
    clocked.1.counters.trans (Journal.counters_filter_isWork _)
  have given : m'.ledger.given = Journal.given m'.journal := Journal.given_filter_isWork _
  have paged : m'.ledger.paged = Journal.paged m'.journal := Journal.paged_filter_isWork _
  have told (hs : List Happening) : Journal.completed (hs.filter Happening.isReport) =
      Journal.completed hs := Journal.completed_filter_isReport hs
  have completed : Journal.completed m'.journal <+:
      (Journal.paged m'.journal).map fun c => (m'.session.request.id, c.id) := by
    rw [← told, ← paged]
    exact reckons.completed ▸ (List.take_prefix ..).map _
  have counted : (Journal.completed m'.journal).length = m'.session.counters.chapters := by
    rw [← told]
    exact reckons.length_completed
  have first : (Journal.given m'.journal).map (·.1) <+: m'.session.plan.toDownload :=
    given ▸ reckons.given
  have chapters : m'.session.counters.chapters ≤ m'.session.plan.toDownload.length :=
    calc m'.session.counters.chapters ≤ (Journal.paged m'.journal).length := paged ▸ reckons.counted
      _ ≤ (Journal.given m'.journal).length := by
          rw [Journal.paged, List.length_map]
          exact List.length_filter_le ..
      _ ≤ m'.session.plan.toDownload.length := by
          rw [← List.length_map (·.1)]
          exact first.length_le
  refine ⟨first, completed, fun urls hurls => ?_, counted, counters, chapters, reckons.images, ?_, ?_,
    hgrows.chapters, hgrows.failures⟩
  · refine completed.trans ?_
    have same : Journal.paged m'.journal =
        ((Journal.given m'.journal).map (·.1)).filter fun c => !(urls c).isEmpty := by
      rw [Journal.paged, List.filter_map]
      exact congrArg _ (List.filter_congr fun given hgiven => by simp [hurls given hgiven])
    rw [same]
    exact (first.filter _).map _
  · intro id percent speed images total earlier hsuffix
    obtain ⟨hid, hpercent, himages⟩ := reckons.reports _ _ (hsuffix.filter Happening.isReport)
    rw [told] at hpercent
    refine ⟨hid, himages, hpercent, fun hlt => ?_⟩
    have before : (Journal.completed earlier).length ≤ (Journal.completed m'.journal).length := by
      have shorter := ((List.suffix_cons ..).trans hsuffix).filterMap Happening.completed?
      simpa [Journal.completed] using shorter.length_le
    rw [hpercent]
    exact Single.value_percent_le (Nat.le_trans before (counted ▸ chapters)) hlt
  · intro event earlier hsuffix
    obtain ⟨percent, speed, images, total, since, before, hevent, rfl, hlatest, gathered⟩ :=
      (clocked.1.timed _ _ (hsuffix.filter Happening.isWork)).of_filter
    refine ⟨percent, speed, images, total, since, before, hevent, rfl, hlatest, gathered, fun hlt => ?_⟩
    obtain ⟨n, ⟨part, hpart, rfl⟩, rfl⟩ := gathered.shownChapters
    have shown : part ++ .ticked :: before <:+ m'.journal :=
      ((List.suffix_append_inj_of_length_eq rfl).mpr ⟨hpart, rfl⟩).trans
        ((List.suffix_cons ..).trans hsuffix)
    obtain ⟨new, hnew⟩ := shown
    have counted := Journal.chapters_le_append new (part ++ .ticked :: before)
    rw [hnew, ← counters] at counted
    exact Single.value_percent_le (Nat.le_trans counted chapters) hlt

theorem reports_tally_twoChapters :
    ∃ m m', (ofRequest (seriesOf ["1", "2"]) {}).run? (begun ++ chapterOfOnePage) = some m ∧
      m.run? chapterOfOnePage = some m' ∧ m.ToldOf m' ∧
      Journal.completed m'.journal = [("s", "1"), ("s", "2")] := by
  have ends : ((ofRequest (seriesOf ["1", "2"]) {}).run? (begun ++ chapterOfOnePage)).any (fun m =>
      (m.run? chapterOfOnePage).any fun m' =>
        Journal.completed m'.journal == [("s", "1"), ("s", "2")]) = true := by
    decide +kernel
  obtain ⟨m, hbefore, hends⟩ := (Option.any_eq_true ..).mp ends
  obtain ⟨m', hafter, hcompleted⟩ := (Option.any_eq_true ..).mp hends
  exact ⟨m, m', hbefore, hafter, reports_tally hbefore hafter, beq_iff_eq.mp hcompleted⟩

/-- The timer loads the pages fetched of a chapter of two, and the number of pages of the next, which has
one. -/
def tornReading : List Action :=
  begun ++
  [.move 0 (.receiveUrls (.ok ["u", "v"])), .move 0 .makeDirectory, .move 0 (.endMetadata (.ok ())),
    .move 0 .takePage, .move 0 .takePage, .move 0 (.requestPermit 0), .move 0 (.requestPermit 1),
    .move 0 (.receivePage 0 (.ok ⟨#[1]⟩)), .move 0 (.queuePage 0),
    .move 0 (.receivePage 0 (.ok ⟨#[2]⟩)), .move 0 (.queuePage 0), .move 0 .endPass,
    .move 0 (.timer .tick), .move 0 (.timer (.load .lifecycle)),
    .move 0 (.timer (.load (.counter .chapters))), .move 0 (.timer (.load (.counter .images))),
    .pass 1000000000, .move 0 .goOn,
    .move 0 (.receiveUrls (.ok ["w"])), .move 0 .makeDirectory, .move 0 (.endMetadata (.ok ())),
    .move 0 (.timer (.load (.counter .pages))), .move 0 (.timer (.load .sample)),
    .move 0 (.timer .swap), .move 0 (.timer .send)]

/-- The first chapter is through with its two pages when the timer comes to load how many pages there
are, and finds the one page of the second. -/
theorem torn_report : ∃ m, (ofRequest (seriesOf ["1", "2"]) {}).run? tornReading = some m ∧
    .timed (.progress "s" (Single.percent 0 2) 0 2 1) ∈ m.journal := by
  have sends : ((ofRequest (seriesOf ["1", "2"]) {}).run? tornReading).any (fun m =>
      m.journal.any fun x => x.timed? == some (.progress "s" (Single.percent 0 2) 0 2 1)) = true := by
    decide +kernel
  obtain ⟨m, hrun, hsent⟩ := (Option.any_eq_true ..).mp sends
  obtain ⟨x, hmem, hx⟩ := List.any_eq_true.mp hsent
  refine ⟨m, hrun, ?_⟩
  cases x with
  | timed event => exact Option.some.inj (beq_iff_eq.mp hx) ▸ hmem
  | _ => cases hx

end Machine
end Longbox
