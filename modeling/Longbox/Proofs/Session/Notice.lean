import Longbox.Proofs.Download.Harm
import Longbox.Proofs.Session.Release

/-! How the end of a session is made known.

The client is asked to release a session that has completed, failed or found nothing to download, and
listeners are told of one that has failed: both when the session ends, and not before (`Machine.Hears`).
What a session fails of is the first error that was raised (`Passes.reason?_eq`). `notified_once` puts
that together for all courses of actions; in `released_twice` somebody does not wait for the client. -/
namespace Longbox
namespace Machine

variable {disk : Disk} {m m' m₁ : Machine} {a : Action} {p p' : Phase} {id : Nat} {d : Download}
  {o : Outcome}

/-! ### In and after a download -/

/-- What has been heard of the end of a session, in each phase. -/
def Hears (m : Machine) : Phase → Prop
  | .fresh => m.Asked
  | .downloading .. | .removing .. => m.notices = []
  | .releasing _ _ reason => m.notices = reason.outcome.releases m.session.request
  | .ended o => m.notices = o.failures m.session.request ++ o.releases m.session.request

theorem At.concludes (h : m.At disk (.downloading id d)) (hs : m.step? (.move id .finish) = some m') :
    m' = m.conclude id d := by
  cases h.sequel nofun hs with
  | rests ha => cases ha
  | moves hm =>
    obtain ⟨-, hm⟩ := Option.ite_none_right_eq_some.mp hm
    exact (Option.some.inj hm).symm

theorem Runs.calls_answer {c : Call} (h : m.Runs c) (k : m.Keeps m₁) (r : CallResult) :
    (m₁.answer m.callCount r).calls = [c] := by
  show m₁.calls.filter (fun other => other.id != m.callCount) = [c]
  simp [k.calls, h.calls, Nat.ne_of_lt h.id_lt]

theorem Hears.step (h : Passes disk m a m' p p') (hm : m.Hears p) : m'.Hears p' := by
  have before := h.before
  have after := h.after
  have same (hf : m.Follows m') : m'.session.request = m.session.request :=
    congrArg Terms.request hf.terms
  cases h.transition with
  | prepares => exact (Asked.step h hm).1
  | opens =>
    have asked : m.Asked := hm
    exact (asked.step h).2.2.resolve_left nofun
  | rests _ hf _ hn =>
    cases p with
    | fresh => exact (Asked.step h hm).1
    | downloading | removing => exact hn.trans hm
    | releasing | ended =>
      unfold Hears
      rw [same hf]
      exact hn.trans hm
  | works _ _ _ _ hn => exact hn.trans hm
  | stops _ _ _ _ hn => exact hn.trans hm
  | @fails id d cause _ _ he _ _ ha =>
    subst ha
    obtain rfl := before.concludes h.step
    have silent : m.notices = [] := hm
    show (m.conclude id d).notices = []
    rw [Machine.conclude, he]
    exact (Keeps.cancelStored m).notices.trans silent
  | @finishes id d _ _ he hr _ _ ha =>
    subst ha
    obtain rfl := before.concludes h.step
    have silent : m.notices = [] := hm
    show (m.conclude id d).notices = Outcome.releases _ (.completed _)
    simp only [Machine.conclude, he, hr]
    exact congrArg (List.cons _) silent
  | @removes id token cause path left =>
    have silent : m.notices = [] := hm
    show m'.notices = []
    cases before.sequel nofun h.step with
    | rests _ k | answers k => exact k.notices.trans silent
    | removes => exact (notices_eq (standing_removeNext ..)).trans silent
  | @asks id token cause =>
    have runs : m.Runs ⟨id, some token, .removing cause []⟩ := before
    cases before.sequel nofun h.step with
    | rests _ k =>
      have calls := after.1.calls
      rw [k.calls, runs.calls] at calls
      cases calls
    | answers k =>
      have calls := after.1.calls
      rw [runs.calls_answer k] at calls
      cases calls
    | removes => exact congrArg (List.cons _) (show m.notices = [] from hm)
  | @ends id token reason =>
    have runs : m.Runs ⟨id, some token, .releasing reason⟩ := before.1
    cases before.sequel nofun h.step with
    | rests _ k =>
      have calls := after.calls
      rw [k.calls, runs.calls] at calls
      cases calls
    | answers k =>
      have calls := after.calls
      rw [runs.calls_answer k] at calls
      cases calls
    | released hr =>
      cases reason with
      | emptyPlan | emptySelection => cases hr
      | finished => exact show m.notices = _ from hm
      | failed => exact congrArg (List.cons _) (show m.notices = _ from hm)

/-! ### What a session fails of -/

/-- The error that an action raises. -/
def raised (m : Machine) : Action → Option Error
  | .move id move => (m.call? id).bind fun c =>
    match c.stage with
    | .downloading d => d.raised (m.isCancelled d.token) m.disk move
    | _ => none
  | _ => none

/-- The errors that are raised in a course of actions, the oldest first. -/
def errors (m : Machine) : List Action → List Error
  | [] => []
  | a :: rest => (m.raised a).toList ++ (m.step? a).elim [] fun m' => m'.errors rest

theorem Downloads.raised (h : m.Downloads id d) (move : Move) :
    m.raised (.move id move) = d.raised (m.isCancelled d.token) m.disk move := by
  simp [Machine.raised, h.call?]

/-- Only a download raises errors. -/
theorem At.raised_eq_none (h : m.At disk p) (hp : ∀ id d, p ≠ .downloading id d) (a : Action) :
    m.raised a = none := by
  unfold Machine.raised
  split
  · rename_i id move
    cases hc : m.call? id with
    | none => rfl
    | some c =>
      obtain ⟨hmem, -⟩ := mem_of_call? hc
      rw [Option.bind_some]
      split
      · rename_i d hs
        exact absurd (h.eq_downloading hmem hs) (hp c.id d)
      · rfl
  · rfl

theorem raised_of_call? (ha : a.call? = none) : m.raised a = none := by
  cases a with
  | move => cases ha
  | _ => rfl

end Machine

/-- What the session has failed of, if it has. -/
def Phase.reason? : Phase → Option String
  | .fresh => none
  | .downloading _ d => d.store.failure.map Error.message
  | .removing _ _ cause _ => some cause.message
  | .releasing _ _ reason => reason.outcome.reason?
  | .ended o => o.reason?

/-- The first error but those of being cancelled. -/
def Error.first? (errors : List Error) : Option Error :=
  errors.find? fun e => !e.isCancelled

namespace Machine

variable {disk : Disk} {m m' : Machine} {a : Action} {p p' : Phase} {o : Outcome}

theorem Passes.reason?_eq (h : Passes disk m a m' p p') :
    p'.reason? = p.reason?.or (((m.raised a).filter fun e => !e.isCancelled).map Error.message) := by
  have before := h.before
  have quiet {p' : Phase} (hn : m.raised a = none) (hp : p'.reason? = p.reason?) :
      p'.reason? = p.reason?.or
        (((m.raised a).filter fun e => !e.isCancelled).map Error.message) := by
    rw [hn, hp]
    exact Option.or_none.symm
  cases h.transition with
  | prepares => exact quiet (before.raised_eq_none (fun _ _ hp => by cases hp) a) rfl
  | @opens id d hopens =>
    refine quiet (before.raised_eq_none (fun _ _ hp => by cases hp) a) ?_
    obtain ⟨d₀, hopen, hnext⟩ := hopens.next
    obtain ⟨slots, hstore⟩ := hopen.store
    show d.store.failure.map _ = none
    rw [hnext.failure_eq, hstore]
    rfl
  | rests _ _ ha => exact quiet (raised_of_call? ha) rfl
  | @works id d d' move ha hs =>
    subst ha
    show d'.store.failure.map _ = (d.store.failure.map _).or _
    rw [Downloads.raised before, hs.failure_eq, Option.map_or]
    rfl
  | @fails id d cause _ _ he _ _ ha =>
    subst ha
    exact quiet (Downloads.raised before .finish) (by simp [Phase.reason?, he])
  | @stops id d _ _ _ he _ ha =>
    subst ha
    exact quiet (Downloads.raised before .finish) (by simp [Phase.reason?, Outcome.reason?, he])
  | @finishes id d _ _ he _ _ _ ha =>
    subst ha
    exact quiet (Downloads.raised before .finish)
      (by simp [Phase.reason?, ReleaseReason.outcome, Outcome.reason?, he])
  | removes | asks | ends => exact quiet (before.raised_eq_none (fun _ _ hp => by cases hp) a) rfl

theorem At.reason?_run? {actions : List Action} (h : m.At disk p) (earlier : List Error)
    (hp : p.reason? = (Error.first? earlier).map Error.message) (hs : m.run? actions = some m') :
    ∃ p', m'.At disk p' ∧
      p'.reason? = (Error.first? (earlier ++ m.errors actions)).map Error.message := by
  induction actions generalizing m p earlier with
  | nil =>
    obtain rfl := Option.some.inj hs
    exact ⟨p, h, by rw [errors, List.append_nil, hp]⟩
  | cons a rest ih =>
    obtain ⟨m₁, hstep, hrest⟩ := Option.bind_eq_some_iff.mp hs
    obtain ⟨p₁, h₁, ht⟩ := h.step? hstep
    have hp₁ : p₁.reason? = (Error.first? (earlier ++ (m.raised a).toList)).map Error.message := by
      rw [Passes.reason?_eq ⟨h, h₁, hstep, ht⟩, hp, Error.first?, Error.first?, List.find?_append,
        Option.map_or]
      cases m.raised a with
      | none => rfl
      | some e => cases he : e.isCancelled <;> simp [he, Option.filter]
    obtain ⟨p', h', hp'⟩ := ih h₁ _ hp₁ hrest
    refine ⟨p', h', ?_⟩
    rw [hp', errors, hstep, List.append_assoc]
    rfl

/-! ### How a session ends -/

/-- The session has ended so, or will when the client has released it. -/
def EndsWith (m : Machine) (o : Outcome) : Prop :=
  m.session.outcome = some o ∨
    ∃ c ∈ m.calls, ∃ reason, c.stage = .releasing reason ∧ reason.outcome = o

end Machine

/-- How a session ends that is past its download. -/
def Phase.ending? : Phase → Option Outcome
  | .fresh | .downloading .. | .removing .. => none
  | .releasing _ _ reason => some reason.outcome
  | .ended o => some o

theorem Outcome.mem_releases {request : Request} {o : Outcome} {id : String} {deleteFiles : Bool} :
    .releaseAsked id deleteFiles ∈ o.releases request ↔
      id = request.id ∧ o.release? = some deleteFiles := by
  cases o <;> simp [releases, release?, eq_comm]

theorem Outcome.not_mem_failures {request : Request} {o : Outcome} {id : String}
    {deleteFiles : Bool} : .releaseAsked id deleteFiles ∉ o.failures request := by
  cases o <;> simp [failures, reason?]

namespace Machine

variable {disk : Disk} {m m' : Machine} {a : Action} {p p' : Phase} {o : Outcome}

theorem At.endsWith_iff (h : m.At disk p) (hp : p ≠ .fresh) :
    m.EndsWith o ↔ p.ending? = some o := by
  have alone {c : Call} (hr : m.Runs c) : m.EndsWith o ↔
      ∃ reason, c.stage = .releasing reason ∧ reason.outcome = o := by
    simp [EndsWith, hr.outcome, hr.calls]
  cases p with
  | fresh => exact absurd rfl hp
  | downloading => simp [alone h.runs, Phase.ending?]
  | removing => simp [alone h, Phase.ending?]
  | releasing => simp [alone h.1, Phase.ending?]
  | ended => simp [EndsWith, h.calls, h.ended, Phase.ending?]

theorem Fresh.endsWith (h : m.Fresh disk) (he : m.EndsWith o) : o.endsDownload = false := by
  rcases he with ho | ⟨c, hc, reason, hs, rfl⟩
  · exact h.idle.outcome o ho
  · have waits := h.waits hc
    rw [hs] at waits
    rcases waits with (hs | hs) | hs | hs <;> cases hs <;> rfl

theorem Asked.endsWith_iff (h : m.Fresh disk) (hm : m.Asked) :
    m.EndsWith .nothingToDownload ↔ m.notices ≠ [] := by
  rw [hm.ends]
  refine or_congr_right ⟨fun ⟨c, hc, reason, hs, _⟩ => ?_, fun hr => ?_⟩
  · exact List.any_eq_true.mpr ⟨c, hc, by rw [Call.isReleasing, hs]⟩
  · obtain ⟨c, hc, hr⟩ := List.any_eq_true.mp hr
    rcases h.waits hc with (hs | hs) | hs | hs
    · simp [Call.isReleasing, hs] at hr
    · simp [Call.isReleasing, hs] at hr
    · exact ⟨c, hc, _, hs, rfl⟩
    · exact ⟨c, hc, _, hs, rfl⟩

/-- What the client and listeners have heard of the end of a session, in which these errors have been
raised. -/
structure Notified (m : Machine) (errors : List Error) : Prop where
  /-- The client is asked to release this session, and no other, as it ends or comes to its end: with
  its files if it fails, without them if it completes or has nothing to download. -/
  releases : ∀ id deleteFiles, (id, deleteFiles) ∈ Journal.releases m.journal ↔
    id = m.session.request.id ∧ ∃ o, m.EndsWith o ∧ o.release? = some deleteFiles
  /-- Listeners are told once of a session that has failed, and of no other. -/
  failures : Journal.failures m.journal = ((m.session.outcome.bind Outcome.reason?).map fun reason =>
    (m.session.request.id, m.session.request.title, reason)).toList
  /-- It has failed of the first error that was none of being cancelled. -/
  reason : ∀ reason, m.EndsWith (.aborted reason) →
    (Error.first? errors).map Error.message = some reason

theorem Hears.releases (h : m.At disk p) (hm : m.Hears p) (id : String) (deleteFiles : Bool) :
    (id, deleteFiles) ∈ Journal.releases m.journal ↔
      id = m.session.request.id ∧ ∃ o, m.EndsWith o ∧ o.release? = some deleteFiles := by
  rw [mem_releases]
  by_cases hp : p = .fresh
  · subst hp
    have asked : m.Asked := hm
    have fresh : m.Fresh disk := h
    constructor
    · intro hmem
      have ends := (asked.endsWith_iff fresh).mpr (List.ne_nil_of_mem hmem)
      obtain ⟨rfl, rfl⟩ := Happening.releaseAsked.inj (asked.notices _ hmem)
      exact ⟨rfl, _, ends, rfl⟩
    · rintro ⟨rfl, o, ends, hrelease⟩
      have early := fresh.endsWith ends
      cases o with
      | completed | aborted => cases early
      | cancelled => cases hrelease
      | nothingToDownload =>
        cases hrelease
        obtain ⟨x, hx⟩ := List.exists_mem_of_ne_nil _ ((asked.endsWith_iff fresh).mp ends)
        exact asked.notices x hx ▸ hx
  · simp only [h.endsWith_iff hp]
    cases p with
    | fresh => exact absurd rfl hp
    | downloading | removing =>
      have silent : m.notices = [] := hm
      simp [silent, Phase.ending?]
    | releasing id token reason =>
      have heard : m.notices = reason.outcome.releases m.session.request := hm
      simp [heard, Phase.ending?, Outcome.mem_releases]
    | ended o =>
      have heard : m.notices = o.failures m.session.request ++ o.releases m.session.request := hm
      simp [heard, Phase.ending?, Outcome.mem_releases, Outcome.not_mem_failures]

theorem Hears.failures (h : m.At disk p) (hm : m.Hears p) : Journal.failures m.journal =
    ((m.session.outcome.bind Outcome.reason?).map fun reason =>
      (m.session.request.id, m.session.request.title, reason)).toList := by
  rw [← failures_notices]
  have alone {c : Call} (hr : m.Runs c) {hs : List Happening} (hn : m.notices = hs)
      (hf : Journal.failures hs = []) : Journal.failures m.notices =
        ((m.session.outcome.bind Outcome.reason?).map fun reason =>
          (m.session.request.id, m.session.request.title, reason)).toList := by
    rw [hn, hf, hr.outcome]
    rfl
  cases p with
  | fresh =>
    have asked : m.Asked := hm
    have silent : Journal.failures m.notices = [] := by
      rw [Journal.failures, List.reverse_eq_nil_iff, List.filterMap_eq_nil_iff]
      intro x hx
      rw [asked.notices x hx]
      rfl
    rw [silent]
    cases ho : m.session.outcome with
    | none => rfl
    | some o =>
      have early := Idle.outcome (Fresh.idle h) o ho
      cases o with
      | aborted => cases early
      | _ => rfl
  | downloading => exact alone h.runs hm rfl
  | removing => exact alone h hm rfl
  | releasing id token reason =>
    refine alone h.1 hm ?_
    cases reason <;> rfl
  | ended o =>
    have heard : m.notices = o.failures m.session.request ++ o.releases m.session.request := hm
    rw [heard, h.ended]
    cases o <;> rfl

theorem At.reason?_eq {reason : String} (h : m.At disk p) (he : m.EndsWith (.aborted reason)) :
    p.reason? = some reason := by
  by_cases hp : p = .fresh
  · subst hp
    cases Fresh.endsWith h he
  · rw [h.endsWith_iff hp] at he
    cases p with
    | fresh => exact absurd rfl hp
    | downloading | removing => cases he
    | releasing id token reason' => exact congrArg Outcome.reason? (Option.some.inj he)
    | ended o => exact congrArg Outcome.reason? (Option.some.inj he)

/-! ### How often the client is asked -/

theorem length_releases_fresh (hm : m.Asked) :
    (Journal.releases m.journal).length = m.notices.length := by
  rw [← releases_notices, Journal.releases, List.length_reverse, List.filterMap_length_eq_length]
  intro x hx
  rw [hm.notices x hx]
  rfl

theorem Hears.length_releases (hm : m.Hears p) (hp : p ≠ .fresh) :
    (Journal.releases m.journal).length ≤ 1 := by
  rw [← releases_notices]
  cases p with
  | fresh => exact absurd rfl hp
  | downloading | removing =>
    have silent : m.notices = [] := hm
    simp [silent, Journal.releases]
  | releasing id token reason =>
    have heard : m.notices = reason.outcome.releases m.session.request := hm
    rw [heard]
    cases reason <;> exact Nat.le_refl 1
  | ended o =>
    have heard : m.notices = o.failures m.session.request ++ o.releases m.session.request := hm
    rw [heard]
    cases o with
    | cancelled => exact Nat.zero_le 1
    | _ => exact Nat.le_refl 1

/-- Once a download has begun, no run goes on. -/
theorem At.patient (h : m.At disk p) (hp : p ≠ .fresh) (a : Action) : m.Patient a := by
  have running {c : Call} (hr : m.Runs c) : m.Patient a := by
    unfold Patient
    split
    · exact fun _ hs => absurd hs (by simp [stores, hr.running])
    · trivial
  cases p with
  | fresh => exact absurd rfl hp
  | downloading => exact running h.runs
  | removing => exact running h
  | releasing => exact running h.1
  | ended =>
    unfold Patient
    split
    · exact fun _ hs => absurd hs (by simp [stores, h.ended])
    · trivial

/-- As long as everybody is patient, the client is asked once. -/
def Once (m : Machine) (p : Phase) : Prop :=
  m.Hears p ∧ (Journal.releases m.journal).length ≤ 1

/-- The client has been asked again, and there is nothing to download. -/
def Again (m : Machine) (p : Phase) : Prop :=
  p = .fresh ∧ m.Asked ∧ 1 < m.notices.length

theorem Once.step (h : Passes disk m a m' p p') (ha : m.Patient a) (hm : m.Once p) : m'.Once p' := by
  obtain ⟨hears, once⟩ := hm
  have hears' := hears.step h
  refine ⟨hears', ?_⟩
  by_cases hp : p' = .fresh
  · subst hp
    obtain rfl : p = .fresh := by
      cases h.transition <;> rfl
    obtain ⟨asked', asks, -⟩ := Asked.step h hears
    rw [length_releases_fresh asked']
    rw [length_releases_fresh hears] at once
    rcases asks with hn | ⟨hn, hnone⟩
    · rw [hn]
      exact once
    · rw [hn, hnone ha]
      exact Nat.le_refl 1
  · exact hears'.length_releases hp

theorem Again.begins (h : Passes disk m a m' p p') (ha : ¬ m.Patient a) (hm : m.Once p) :
    m'.Again p' := by
  obtain rfl : p = .fresh := Classical.byContradiction fun hp => ha (h.before.patient hp a)
  have asked : m.Asked := hm.1
  obtain ⟨hn, hsome⟩ := asked.impatient ha h.step
  obtain ⟨asked', -, hp'⟩ := asked.step h
  refine ⟨hp'.resolve_right (by simp [hn]), asked', ?_⟩
  rw [hn, List.length_cons]
  exact Nat.succ_lt_succ (List.length_pos_iff.mpr hsome)

theorem Again.step (h : Passes disk m a m' p p') (hm : m.Again p) : m'.Again p' := by
  obtain ⟨rfl, asked, again⟩ := hm
  obtain ⟨asked', asks, hp'⟩ := asked.step h
  have more : m.notices.length ≤ m'.notices.length := by
    rcases asks with hn | ⟨hn, -⟩ <;> simp [hn]
  have again' := Nat.lt_of_lt_of_le again more
  refine ⟨hp'.resolve_right fun hnone => ?_, asked', again'⟩
  rw [hnone] at again'
  cases again'

/-- Whatever collaborators answer, the client is asked to release a session as it ends: with its files
just if it fails, without them just if it completes or has nothing to download. Listeners are told once
of a session that fails, and of no other, and what they are told is the outcome and the first error that
was raised and is none of being cancelled. The client is asked at most once, unless a run is called that
goes on while it is asked to release a session with nothing to download. -/
theorem notified_once {request : Request} {actions : List Action}
    (hrun : (ofRequest request disk).run? actions = some m) :
    m.Notified ((ofRequest request disk).errors actions) ∧
      ((Journal.releases m.journal).length ≤ 1 ↔
        (ofRequest request disk).Along Patient actions) := by
  have begins : (ofRequest request disk).At disk .fresh := fresh_ofRequest request disk
  have silent : (ofRequest request disk).Asked := .of_silent rfl nofun rfl
  obtain ⟨p, h, hears⟩ := begins.always Hears.step silent hrun
  obtain ⟨p', h', hreason⟩ := begins.reason?_run? [] rfl hrun
  refine ⟨⟨hears.releases h, hears.failures h, fun reason he => ?_⟩, ?_⟩
  · exact hreason.symm.trans (h'.reason?_eq he)
  · obtain ⟨_, -, hcourse⟩ := begins.course (P := Patient) (I := Once) (J := Again) Once.step
      Again.begins Again.step ⟨silent, Nat.zero_le 1⟩ hrun
    rcases hcourse with ⟨halong, -, once⟩ | ⟨hnot, -, asked, again⟩
    · exact iff_of_true once halong
    · rw [length_releases_fresh asked]
      exact iff_of_false (Nat.not_le.mpr again) hnot

theorem notified_once_noAddresses :
    ∃ m, (ofRequest (seriesOf ["1"]) {}).run? (begun ++ noAddresses 0) = some m ∧
      m.Notified ((ofRequest (seriesOf ["1"]) {}).errors (begun ++ noAddresses 0)) ∧
      Journal.releases m.journal = [("s", true)] ∧
      Journal.failures m.journal = [("s", "T", "provider error: gone")] ∧
      (ofRequest (seriesOf ["1"]) {}).Along Patient (begun ++ noAddresses 0) := by
  have ends : ((ofRequest (seriesOf ["1"]) {}).run? (begun ++ noAddresses 0)).any (fun m =>
      Journal.releases m.journal == [("s", true)] &&
        Journal.failures m.journal == [("s", "T", "provider error: gone")]) = true := by
    decide +kernel
  obtain ⟨m, hrun, hends⟩ := (Option.any_eq_true ..).mp ends
  simp only [Bool.and_eq_true, beq_iff_eq] at hends
  obtain ⟨hreleases, hfailures⟩ := hends
  obtain ⟨notified, once⟩ := notified_once hrun
  exact ⟨m, hrun, notified, hreleases, hfailures, once.mp (by rw [hreleases]; exact Nat.le_refl 1)⟩

/-- A run is called while the client is asked to release a session with nothing to download: it is asked
a second time. -/
theorem released_twice :
    ∃ m, (ofRequest (seriesOf []) {}).run? (begun ++ [.call (.run 0)]) = some m ∧
      Journal.releases m.journal = [("s", false), ("s", false)] := by
  have asks : ((ofRequest (seriesOf []) {}).run? (begun ++ [.call (.run 0)])).any (fun m =>
      Journal.releases m.journal == [("s", false), ("s", false)]) = true := by
    decide +kernel
  obtain ⟨m, hrun, hreleases⟩ := (Option.any_eq_true ..).mp asks
  exact ⟨m, hrun, beq_iff_eq.mp hreleases⟩

end Machine
end Longbox
