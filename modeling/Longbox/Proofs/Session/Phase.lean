import Longbox.Proofs.Session.Preparation
import Longbox.Proofs.Session.Standing

/-! The phases of a session and the transitions between them.

A session downloads at most once. Before that it is fresh (`Machine.Fresh`). While it downloads, rolls
back or is released after its download, one call waits and no other (`Machine.Runs`). After that it is
over, and nothing is done any more (`Machine.Over`). `At.step?` says that each action leaves the phase
as it is or makes one of the transitions of `Transition`; what transitions preserve holds throughout
a course of actions, by `At.run?`. -/
namespace Longbox

/-- How a session ends that is released for a reason. -/
def ReleaseReason.outcome : ReleaseReason → Outcome
  | .emptyPlan | .emptySelection => .nothingToDownload
  | .finished chapters => .completed chapters
  | .failed cause => .aborted cause.message

/-- The outcome that a call is answered. -/
def Happening.outcome? : Happening → Option Outcome
  | .answered _ (.ok outcome) => outcome
  | _ => none

/-- Where a session is. The numbers are those of the call that waits and of its token. -/
inductive Phase where
  | fresh
  | downloading (id : Nat) (d : Download)
  | removing (id token : Nat) (cause : Error) (left : List String)
  | releasing (id token : Nat) (reason : ReleaseReason)
  | ended (outcome : Outcome)

namespace Machine

/-- The session has ended with an outcome. -/
structure Over (m : Machine) (outcome : Outcome) : Prop where
  calls : m.calls = []
  prepared : m.session.isPrepared = true
  ended : m.session.outcome = some outcome
  answers : ∀ call o, .answered call (.ok (some o)) ∈ m.journal → o.endsDownload = true → o = outcome

/-- A machine with initial disk `disk` is in a phase. -/
def At (disk : Disk) (m : Machine) : Phase → Prop
  | .fresh => m.Fresh disk
  | .downloading id d => m.Downloads id d
  | .removing id token cause left => m.Runs ⟨id, some token, .removing cause left⟩
  | .releasing id token reason =>
    m.Runs ⟨id, some token, .releasing reason⟩ ∧ reason.outcome.endsDownload = true
  | .ended outcome => m.Over outcome

/-- What a session downloads does not change any more, and what is cancelled stays cancelled. -/
structure Follows (m m' : Machine) : Prop where
  terms : m'.terms = m.terms
  cancelled : ∀ t, m.isCancelled t = true → m'.isCancelled t = true

theorem Follows.not_cancelled {m m' : Machine} (h : m.Follows m') {t : Nat}
    (hc : m'.isCancelled t = false) : m.isCancelled t = false := by
  cases hm : m.isCancelled t with
  | false => rfl
  | true =>
    rw [h.cancelled t hm] at hc
    cases hc

/-- How an action takes a session from phase to phase. -/
inductive Transition (disk : Disk) (m m' : Machine) (a : Action) : Phase → Phase → Prop where
  | prepares : Transition disk m m' a .fresh .fresh
  | opens {id : Nat} {d : Download} (h : m'.Opens disk id d) :
      Transition disk m m' a .fresh (.downloading id d)
  /-- The action is not of the call that waits. -/
  | rests {p : Phase} (hl : m'.ledger = m.ledger) (hf : m.Follows m') (ha : a.call? = none)
      (hn : m'.notices = m.notices) : Transition disk m m' a p p
  | works {id : Nat} {d d' : Download} {move : Move} (ha : a = .move id move)
      (hs : d.Step m.terms.naming (m.isCancelled d.token) m.ledger move m'.ledger d')
      (ht : d'.token = d.token) (hf : m.Follows m') (hn : m'.notices = m.notices) :
      Transition disk m m' a (.downloading id d) (.downloading id d')
  /-- All work on the download is over when the rollback begins. -/
  | fails {id : Nat} {d : Download} {cause : Error} (hc : d.store.isClosed = true)
      (hd : d.store.isDone = true) (he : d.store.failure = some cause)
      (hl : m'.ledger = m.ledger.note (.rollbackBegun cause)) (hf : m.Follows m')
      (ha : a = .move id .finish) :
      Transition disk m m' a (.downloading id d)
        (.removing id d.token cause m.ledger.recorded.reverse)
  | stops {id : Nat} {d : Download} (hl : m'.ledger = m.ledger) (hf : m.Follows m')
      (hc : d.store.isClosed = true) (he : d.store.failure = none)
      (hn : m'.notices = m.notices) (ha : a = .move id .finish) :
      Transition disk m m' a (.downloading id d) (.ended .cancelled)
  | finishes {id : Nat} {d : Download} (hc : d.store.isClosed = true)
      (hd : d.store.isDone = true) (he : d.store.failure = none)
      (hr : m.isCancelled d.token = false) (hl : m'.ledger = m.ledger) (hf : m.Follows m')
      (ha : a = .move id .finish) :
      Transition disk m m' a (.downloading id d)
        (.releasing id d.token (.finished m.ledger.chapters))
  | removes {id token : Nat} {cause : Error} {path : String} {left : List String}
      (hl : m'.ledger = m.ledger.remove path) (hf : m.Follows m') :
      Transition disk m m' a (.removing id token cause (path :: left))
        (.removing id token cause left)
  | asks {id token : Nat} {cause : Error} (hl : m'.ledger = m.ledger) (hf : m.Follows m') :
      Transition disk m m' a (.removing id token cause []) (.releasing id token (.failed cause))
  | ends {id token : Nat} {reason : ReleaseReason} (hl : m'.ledger = m.ledger)
      (hf : m.Follows m') :
      Transition disk m m' a (.releasing id token reason) (.ended reason.outcome)

variable {disk : Disk} {m m' : Machine}

theorem Keeps.follows (k : m.Keeps m') : m.Follows m' :=
  ⟨k.terms, k.cancelled⟩

theorem Keeps.notices (k : m.Keeps m') : m'.notices = m.notices := by
  rw [Machine.notices, k.journal, Machine.notices]

theorem Turns.follows {c : Call} {l : Ledger} (t : m.Turns c l m') : m.Follows m' :=
  ⟨t.terms, t.cancelled⟩

/-! ### While one call waits alone -/

section Running
variable {c : Call} {a : Action}

theorem Runs.step? (h : m.Runs c) (hs : m.step? a = some m') :
    (a.call? = none ∧ m'.notices = m.notices ∧ m.Turns c m.ledger m') ∨
      a.call? = some c.id ∧ m.stepCall? c a = some m' := by
  rcases step?_cases hs with ⟨op, rfl, rfl⟩ | ⟨ha, -, k⟩ | ⟨c', hc, hid, hstep⟩
  · obtain ⟨m₁, r, k, he, hr⟩ := begin_settled op (fun _ => h.prepared) (.inr h.running)
    rw [he]
    refine .inl ⟨rfl, k.notices, (h.turns.keeps k).answer (Nat.ne_of_lt h.id_lt) fun o ho => ?_⟩
    rw [h.outcome] at hr
    exact nomatch hr o ho
  · exact .inl ⟨ha, k.notices, h.turns.keeps k⟩
  · exact .inr (h.eq_of_mem hc ▸ ⟨hid, hstep⟩)

/-- A call that downloads or was asked after a download ends with an outcome. -/
theorem Turns.ends {l : Ledger} {m₁ : Machine} (t : m.Turns c l m₁) (o : Outcome) :
    ((m₁.setOutcome o).answer c.id (.ok (some o))).Over o where
  calls := by
    show m₁.calls.filter (fun other => other.id != c.id) = []
    simp [t.runs.calls]
  prepared := t.runs.prepared
  ended := rfl
  answers := fun call o' ho he => by
    rcases List.mem_cons.mp ho with ho | ho
    · injection ho with _ hr
      injection hr with hr
      exact Option.some.inj hr
    · rw [t.runs.answers call o' ho] at he
      cases he

end Running

/-- What a phase comes to by an action. -/
def Leads (disk : Disk) (m : Machine) (a : Action) (p : Phase) (m' : Machine) : Prop :=
  ∃ p', m'.At disk p' ∧ Transition disk m m' a p p'

/-- A download that is over ends the session, or the session goes on to roll back or be released. -/
theorem Downloads.conclude {id : Nat} {d : Download} (h : m.Downloads id d)
    (hc : d.store.isClosed = true) (hd : d.store.isDone = true) :
    m.Leads disk (.move id .finish) (.downloading id d) (m.conclude id d) := by
  have t := h.runs.turns
  unfold Machine.conclude
  split
  · rename_i cause hcause
    have begun := (t.keeps (.cancelStored m)).note (.rollbackBegun cause) nofun
    have turned := begun.suspend (.removing cause m.session.plan.hasDownloaded.reverse)
      (some d.token)
    exact ⟨.removing id d.token cause m.ledger.recorded.reverse, turned.runs,
      .fails hc hd hcause turned.ledger turned.follows rfl⟩
  · rename_i hnone
    split
    · exact ⟨.ended .cancelled, t.ends _, .stops rfl ⟨rfl, fun _ h => h⟩ hc hnone rfl rfl⟩
    · rename_i hcancel
      have turned := (t.note (.releaseAsked m.session.request.id false) nofun).suspend
        (.releasing (.finished m.session.counters.chapters)) (some d.token)
      exact ⟨.releasing id d.token (.finished m.ledger.chapters), ⟨turned.runs, rfl⟩,
        .finishes hc hd hnone (by simpa using hcancel) turned.ledger turned.follows rfl⟩

/-- The next directory is removed, or the client is asked to release the session. -/
theorem Runs.removeNext {id token : Nat} {cause : Error} {left : List String}
    (h : m.Runs ⟨id, some token, .removing cause left⟩) (a : Action) :
    m.Leads disk a (.removing id token cause left)
      (m.removeNext ⟨id, some token, .removing cause left⟩ cause left) := by
  have t := h.turns
  cases left with
  | nil =>
    have turned := (t.note (.releaseAsked m.session.request.id true) nofun).suspend
      (.releasing (.failed cause)) (some token)
    exact ⟨.releasing id token (.failed cause), ⟨turned.runs, rfl⟩,
      .asks turned.ledger turned.follows⟩
  | cons path left =>
    have removed := (t.setDisk (m.disk.removeAll path).disk).noteAll
      ((m.disk.removeAll path).happenings path) fun _ hx => Disk.Removal.isWork_of_mem hx
    have turned := removed.suspend (.removing cause left) (some token)
    exact ⟨.removing id token cause left, turned.runs, .removes turned.ledger turned.follows⟩

/-- The client has released the session. -/
theorem Runs.released {id token : Nat} {reason : ReleaseReason}
    (h : m.Runs ⟨id, some token, .releasing reason⟩) (hr : reason.outcome.endsDownload = true)
    (a : Action) :
    m.Leads disk a (.releasing id token reason) (m.released id (some token) reason) := by
  have t := h.turns
  cases reason with
  | emptyPlan | emptySelection => cases hr
  | finished chapters =>
    exact ⟨.ended (.completed chapters), t.ends _, .ends rfl ⟨rfl, fun _ h => h⟩⟩
  | failed cause =>
    have told := t.send (.downloadFailed m.session.request.id m.session.request.title cause.message)
    exact ⟨.ended (.aborted cause.message), told.ends _, .ends told.ledger
      ⟨rfl, fun _ h => h⟩⟩

theorem Over.step? {o : Outcome} {a : Action} (h : m.Over o) (hs : m.step? a = some m') :
    m.Leads disk a (.ended o) m' := by
  rcases step?_cases hs with ⟨op, rfl, rfl⟩ | ⟨ha, -, k⟩ | ⟨c, hc, -, -⟩
  · obtain ⟨m₁, r, k, he, hr⟩ :=
      begin_settled op (fun _ => h.prepared) (.inl (by simp [h.ended]))
    rw [he]
    refine ⟨.ended o, ?_, .rests ((ledger_answer ..).trans k.ledger)
      ⟨k.terms, k.cancelled⟩ rfl k.notices⟩
    exact {
      calls := by
        show m₁.calls.filter _ = []
        simp [k.calls, h.calls]
      prepared := k.prepared.trans h.prepared
      ended := k.outcome.trans h.ended
      answers := fun call o' ho he => by
        rcases List.mem_cons.mp ho with ho | ho
        · injection ho with _ hr'
          have := hr o' hr'.symm
          rw [h.ended] at this
          exact (Option.some.inj this).symm
        · exact h.answers call o' (k.journal ▸ ho) he }
  · refine ⟨.ended o, ?_, .rests k.ledger k.follows ha k.notices⟩
    exact {
      calls := k.calls.trans h.calls
      prepared := k.prepared.trans h.prepared
      ended := k.outcome.trans h.ended
      answers := k.journal ▸ h.answers }
  · simp [h.calls] at hc

/-! ### Steps and courses of actions -/

theorem At.step? {p : Phase} {a : Action} (h : m.At disk p) (hs : m.step? a = some m') :
    m.Leads disk a p m' := by
  cases p with
  | fresh =>
    cases Fresh.step? h hs with
    | stays hfresh => exact ⟨.fresh, hfresh, .prepares⟩
    | opens hopens => exact ⟨.downloading _ _, hopens.downloads, .opens hopens⟩
  | ended o => exact Over.step? h hs
  | downloading id d =>
    rcases Runs.step? h.runs hs with ⟨ha, hn, t⟩ | ⟨hid, hstep⟩
    · exact ⟨.downloading id d, ⟨t.runs, Nat.lt_of_lt_of_le h.token_lt t.tokens,
        fun hf => t.cancelled _ (h.cancelled hf)⟩, .rests t.ledger t.follows ha hn⟩
    · cases a with
      | move call move =>
        have hmove : m.moveDownload? id d move = some m' := hstep
        obtain rfl : call = id := Option.some.inj hid
        rcases Downloads.moveDownload? h hmove with ⟨rfl, hc, hd, rfl⟩ | ⟨l', d', hstep, hcarry⟩
        · exact Downloads.conclude h hc hd
        · have quiet := standing_moveDownload? hmove hstep.ne_finish
          refine ⟨.downloading call d', hcarry.downloads h, .works rfl ?_ hcarry.token
            hcarry.turns.follows (notices_eq quiet)⟩
          rw [hcarry.turns.ledger]
          exact hstep
      | _ => simp [Machine.stepCall?] at hstep
  | removing id token cause left =>
    rcases Runs.step? h hs with ⟨ha, hn, t⟩ | ⟨-, hstep⟩
    · exact ⟨.removing id token cause left, t.runs, .rests t.ledger t.follows ha hn⟩
    · cases a with
      | removeNext call =>
        obtain rfl := Option.some.inj hstep
        exact Runs.removeNext h _
      | _ => simp [Machine.stepCall?] at hstep
  | releasing id token reason =>
    rcases Runs.step? h.1 hs with ⟨ha, hn, t⟩ | ⟨-, hstep⟩
    · exact ⟨.releasing id token reason, ⟨t.runs, h.2⟩, .rests t.ledger t.follows ha hn⟩
    · cases a with
      | released call result =>
        obtain rfl := Option.some.inj hstep
        exact Runs.released h.1 h.2 _
      | _ => simp [Machine.stepCall?] at hstep

theorem run?_append (m : Machine) (first second : List Action) :
    m.run? (first ++ second) = (m.run? first).bind fun m => m.run? second := by
  induction first generalizing m with
  | nil => rfl
  | cons a rest ih =>
    simp only [List.cons_append, Machine.run?]
    cases m.step? a with
    | none => rfl
    | some m₁ => exact ih m₁

/-- Each action of a course satisfies `P` where it happens. -/
def Along (P : Machine → Action → Prop) (m : Machine) : List Action → Prop
  | [] => True
  | a :: rest => P m a ∧ ∀ m', m.step? a = some m' → Along P m' rest

theorem along_of_forall {P : Machine → Action → Prop} {actions : List Action}
    (h : ∀ a ∈ actions, ∀ m, P m a) (m : Machine) : m.Along P actions := by
  induction actions generalizing m with
  | nil => trivial
  | cons a rest ih =>
    exact ⟨h a (List.mem_cons_self ..) m,
      fun m' _ => ih (fun a ha => h a (List.mem_cons_of_mem _ ha)) m'⟩

theorem along_cons {P : Machine → Action → Prop} {a : Action} {rest : List Action} {m₁ : Machine}
    (hs : m.step? a = some m₁) : m.Along P (a :: rest) ↔ P m a ∧ m₁.Along P rest := by
  refine and_congr_right fun _ => ⟨fun h => h m₁ hs, fun h m' hm' => ?_⟩
  obtain rfl : m₁ = m' := Option.some.inj (hs.symm.trans hm')
  exact h

theorem along_append {P : Machine → Action → Prop} {first second : List Action} {m' : Machine}
    (hs : m.run? first = some m') :
    m.Along P (first ++ second) ↔ m.Along P first ∧ m'.Along P second := by
  induction first generalizing m with
  | nil =>
    obtain rfl := Option.some.inj hs
    exact iff_and_self.mpr fun _ => trivial
  | cons a rest ih =>
    obtain ⟨m₁, hstep, hrest⟩ := Option.bind_eq_some_iff.mp hs
    rw [List.cons_append, along_cons hstep, along_cons hstep, ih hrest, and_assoc]

/-- Follows the course, and decides `P` where each action happens. -/
instance decidableAlong (P : Machine → Action → Prop) [∀ m a, Decidable (P m a)] (m : Machine) :
    (actions : List Action) → Decidable (m.Along P actions)
  | [] => .isTrue trivial
  | a :: rest =>
    match hs : m.step? a with
    | some m₁ =>
      have := decidableAlong P m₁ rest
      decidable_of_iff (P m a ∧ m₁.Along P rest) (along_cons hs).symm
    | none => decidable_of_iff (P m a) (iff_self_and.mpr fun _ m' hm' => by rw [hs] at hm'; cases hm')

/-- A step from phase to phase. -/
structure Passes (disk : Disk) (m : Machine) (a : Action) (m' : Machine) (p p' : Phase) : Prop where
  before : m.At disk p
  after : m'.At disk p'
  step : m.step? a = some m'
  transition : Transition disk m m' a p p'

/-- Either `P` holds along a course, and what steps preserve with it holds after the course, or it has
failed, and what a step without it brings about holds. -/
theorem At.course {P : Machine → Action → Prop} {I J : Machine → Phase → Prop}
    (keeps : ∀ {m m' a p p'}, Passes disk m a m' p p' → P m a → I m p → I m' p')
    (breaks : ∀ {m m' a p p'}, Passes disk m a m' p p' → ¬ P m a → I m p → J m' p')
    (stays : ∀ {m m' a p p'}, Passes disk m a m' p p' → J m p → J m' p')
    {p : Phase} {actions : List Action} (h : m.At disk p) (hI : I m p)
    (hs : m.run? actions = some m') :
    ∃ p', m'.At disk p' ∧ (m.Along P actions ∧ I m' p' ∨ ¬ m.Along P actions ∧ J m' p') := by
  -- A course that has failed goes on to its end with `J`.
  have broken {m : Machine} {p : Phase} {actions : List Action} (h : m.At disk p) (hJ : J m p)
      (hs : m.run? actions = some m') : ∃ p', m'.At disk p' ∧ J m' p' := by
    induction actions generalizing m p with
    | nil =>
      obtain rfl := Option.some.inj hs
      exact ⟨p, h, hJ⟩
    | cons a rest ih =>
      obtain ⟨m₁, hstep, hrest⟩ := Option.bind_eq_some_iff.mp hs
      obtain ⟨p₁, h₁, ht⟩ := h.step? hstep
      exact ih h₁ (stays ⟨h, h₁, hstep, ht⟩ hJ) hrest
  induction actions generalizing m p with
  | nil =>
    obtain rfl := Option.some.inj hs
    exact ⟨p, h, .inl ⟨trivial, hI⟩⟩
  | cons a rest ih =>
    obtain ⟨m₁, hstep, hrest⟩ := Option.bind_eq_some_iff.mp hs
    obtain ⟨p₁, h₁, ht⟩ := h.step? hstep
    have passes : Passes disk m a m₁ p p₁ := ⟨h, h₁, hstep, ht⟩
    rw [along_cons hstep]
    by_cases hP : P m a
    · obtain ⟨p', h', hend⟩ := ih h₁ (keeps passes hP hI) hrest
      exact ⟨p', h', by simpa [hP] using hend⟩
    · obtain ⟨p', h', hJ⟩ := broken h₁ (breaks passes hP hI) hrest
      exact ⟨p', h', .inr ⟨fun hall => hP hall.1, hJ⟩⟩

/-- What all steps preserve holds after a course of actions. -/
theorem At.along {P : Machine → Action → Prop} {I : Machine → Phase → Prop}
    (keeps : ∀ {m m' a p p'}, Passes disk m a m' p p' → P m a → I m p → I m' p')
    {p : Phase} {actions : List Action} (h : m.At disk p) (hI : I m p) (hP : m.Along P actions)
    (hs : m.run? actions = some m') : ∃ p', m'.At disk p' ∧ I m' p' := by
  obtain ⟨p', h', hend⟩ :=
    h.course (J := fun _ _ => True) keeps (fun _ _ _ => trivial) (fun _ _ => trivial) hI hs
  rcases hend with ⟨-, hI'⟩ | ⟨hfailed, -⟩
  · exact ⟨p', h', hI'⟩
  · exact absurd hP hfailed

/-- What all transitions preserve holds after a course of actions. -/
theorem At.run? {P : Machine → Action → Prop} {I : Machine → Phase → Prop}
    (step : ∀ {m m' a p p'}, m.At disk p → m'.At disk p' → P m a → Transition disk m m' a p p' →
      I m p → I m' p')
    {p : Phase} {actions : List Action} (h : m.At disk p) (hI : I m p) (hP : m.Along P actions)
    (hs : m.run? actions = some m') : ∃ p', m'.At disk p' ∧ I m' p' :=
  h.along (fun passes hP => step passes.before passes.after hP passes.transition) hI hP hs

/-- What every step preserves holds after a course of actions. -/
theorem At.always {I : Machine → Phase → Prop}
    (keeps : ∀ {m m' a p p'}, Passes disk m a m' p p' → I m p → I m' p')
    {p : Phase} {actions : List Action} (h : m.At disk p) (hI : I m p)
    (hs : m.run? actions = some m') : ∃ p', m'.At disk p' ∧ I m' p' :=
  h.along (P := fun _ _ => True) (fun passes _ => keeps passes) hI
    (along_of_forall (fun _ _ _ => trivial) _) hs

theorem at_of_run? {request : Request} {actions : List Action}
    (hs : (ofRequest request disk).run? actions = some m) : ∃ p, m.At disk p := by
  have begins : (ofRequest request disk).At disk .fresh := fresh_ofRequest request disk
  obtain ⟨p, h, -⟩ := begins.always (I := fun _ _ => True) (fun _ _ => trivial) trivial hs
  exact ⟨p, h⟩

theorem mem_of_call? {id : Nat} {c : Call} (h : m.call? id = some c) : c ∈ m.calls ∧ c.id = id :=
  ⟨List.mem_of_find?_eq_some h, by simpa using List.find?_some h⟩

/-- A call that downloads shows the phase. -/
theorem At.eq_downloading {p : Phase} (h : m.At disk p) {c : Call} {d : Download} (hc : c ∈ m.calls)
    (hs : c.stage = .downloading d) : p = .downloading c.id d := by
  cases p with
  | fresh =>
    have waits := Fresh.waits h hc
    simp [hs] at waits
  | downloading id d' =>
    obtain rfl := h.runs.eq_of_mem hc
    cases hs
    rfl
  | removing id token cause left =>
    obtain rfl := Runs.eq_of_mem h hc
    cases hs
  | releasing id token reason =>
    obtain rfl := h.1.eq_of_mem hc
    cases hs
  | ended o => simp [h.calls] at hc

/-- A session that is not fresh has no outcome before it has ended. -/
theorem At.eq_ended {p : Phase} {o : Outcome} (h : m.At disk p) (hp : p ≠ .fresh)
    (ho : m.session.outcome = some o) : p = .ended o := by
  have waits {c : Call} (hr : m.Runs c) : False := by
    rw [hr.outcome] at ho
    cases ho
  cases p with
  | fresh => exact absurd rfl hp
  | downloading id d => exact (waits h.runs).elim
  | removing id token cause left => exact (waits h).elim
  | releasing id token reason => exact (waits h.1).elim
  | ended o' => rw [Option.some.inj (h.ended.symm.trans ho)]

/-- Each move of a download satisfies `Q`. -/
def EachMove (Q : Machine → Download → Move → Prop) (m : Machine) : Action → Prop
  | .move id move => ∀ c d, m.call? id = some c → c.stage = .downloading d → Q m d move
  | _ => True

section
variable {Q : Machine → Download → Move → Prop} {a : Action}

theorem EachMove.of_downloads {id : Nat} {d : Download} {move : Move}
    (hm : m.EachMove Q (.move id move)) (h : m.Downloads id d) : Q m d move :=
  hm _ d h.call? rfl

/-- A session that is seen to move otherwise is downloading. -/
theorem At.exists_move {p : Phase} (h : m.At disk p) (ha : ¬ m.EachMove Q a) :
    ∃ id d move, a = .move id move ∧ p = .downloading id d ∧ ¬ Q m d move := by
  cases a with
  | move id move =>
    refine Classical.byContradiction fun hnone => ha fun c d hc hs => ?_
    obtain ⟨hmem, rfl⟩ := mem_of_call? hc
    exact Classical.byContradiction fun hQ =>
      hnone ⟨_, d, move, rfl, h.eq_downloading hmem hs, hQ⟩
  | _ => exact absurd trivial ha

theorem along_eachMove {actions : List Action}
    (h : ∀ id move, .move id move ∈ actions → ∀ m d, Q m d move) (m : Machine) :
    m.Along (EachMove Q) actions := by
  refine along_of_forall (fun a ha m => ?_) m
  cases a with
  | move id move => exact fun _ d _ _ => h id move ha m d
  | _ => trivial

end

/-- Some call has been answered with the outcome. -/
def tells (m : Machine) (o : Outcome) : Bool :=
  m.journal.any fun h => h.outcome? == some o

theorem exists_answered {o : Outcome} (h : m.tells o = true) :
    ∃ call, .answered call (.ok (some o)) ∈ m.journal := by
  obtain ⟨x, hx, ho⟩ := List.any_eq_true.mp h
  rw [beq_iff_eq] at ho
  unfold Happening.outcome? at ho
  split at ho
  · rename_i call outcome
    exact ⟨call, ho ▸ hx⟩
  · cases ho

/-- A call is answered that a download has ended: the session is over with that outcome. -/
theorem At.over_of_answered {p : Phase} (h : m.At disk p) {call : Nat} {o : Outcome}
    (ha : .answered call (.ok (some o)) ∈ m.journal) (ho : o.endsDownload = true) :
    p = .ended o := by
  have alone {c : Call} (hr : m.Runs c) : False := by
    have := hr.answers call o ha
    rw [this] at ho
    cases ho
  cases p with
  | fresh =>
    have := h.idle.answers call o ha
    rw [this] at ho
    cases ho
  | downloading id d => exact (alone h.runs).elim
  | removing id token cause left => exact (alone h).elim
  | releasing id token reason => exact (alone h.1).elim
  | ended outcome => rw [h.answers call o ha ho]

end Machine
end Longbox
