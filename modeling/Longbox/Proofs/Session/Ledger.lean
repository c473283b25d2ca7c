import Longbox.Session.Step

/-! The work of a session, apart from how the session is asked and told about it.

A `Ledger` has the disk, the directories recorded for a rollback, the counters and the happenings that
are work on a download. A `Terms` has what such a download is about. While one call
waits alone (`Machine.Runs`), every operation of a machine either leaves the ledger as it is or notes
the happenings it says it notes; `Machine.Turns` chains such operations. -/
namespace Longbox

/-- Part of the work on a download, that of its timer included, not of what else is said about it. -/
def Happening.isWork : Happening → Bool
  | .sent _ | .preferencesAsked | .catalogListed | .releaseAsked .. | .answered .. => false
  | _ => true

/-- The timer ticks, or its report is sent. -/
def Happening.isTimed : Happening → Bool
  | .ticked | .timed _ => true
  | _ => false

theorem Happening.isWork_of_isTimed {x : Happening} (h : x.isTimed = true) : x.isWork = true := by
  cases x <;> first | rfl | cases h

/-- A run ends with this outcome after a download. -/
def Outcome.endsDownload : Outcome → Bool
  | .completed _ | .aborted _ => true
  | _ => false

/-- The call that is to go on. -/
def Action.call? : Action → Option Nat
  | .receivePreferences id _ | .plan id _ | .move id _ | .removeNext id | .released id _ => some id
  | .call _ | .cancelParent _ | .pass _ => none

structure Ledger where
  disk : Disk
  recorded : List String := []
  counters : Counters := {}
  /-- The latest happening comes first. -/
  happened : List Happening := []

/-- How many chapters are through. -/
def Ledger.chapters (l : Ledger) : Nat :=
  l.counters.chapters

def Ledger.note (l : Ledger) (h : Happening) : Ledger :=
  if h.isWork then { l with counters := l.counters.note h, happened := h :: l.happened } else l

theorem Ledger.note_of_not_work (l : Ledger) {h : Happening} (hw : h.isWork = false) :
    l.note h = l := by
  simp [note, hw]

theorem Ledger.happened_note (l : Ledger) {h : Happening} (hw : h.isWork = true) :
    (l.note h).happened = h :: l.happened := by
  rw [note, if_pos hw]

def Ledger.noteAll (l : Ledger) (hs : List Happening) : Ledger :=
  hs.foldl note l

/-- What happens with the removal of a directory. -/
def Disk.Removal.happenings (r : Disk.Removal) (path : String) : List Happening :=
  (r.cleared.map (Happening.cleared path)).toList ++
    (r.fault.map (Happening.removalFailed path)).toList

theorem Disk.Removal.mem_happenings {r : Disk.Removal} {path : String} {x : Happening} :
    x ∈ r.happenings path ↔ (∃ top, r.cleared = some top ∧ .cleared path top = x) ∨
      ∃ fault, r.fault = some fault ∧ .removalFailed path fault = x := by
  simp only [happenings, List.mem_append, Option.mem_toList, Option.map_eq_some_iff]

theorem Disk.Removal.isWork_of_mem {r : Disk.Removal} {path : String} {x : Happening}
    (hx : x ∈ r.happenings path) : x.isWork = true := by
  rcases mem_happenings.mp hx with ⟨_, -, rfl⟩ | ⟨_, -, rfl⟩ <;> rfl

/-- Removes a directory, whether or not that works. -/
def Ledger.remove (l : Ledger) (path : String) : Ledger :=
  { l with disk := (l.disk.removeAll path).disk }.noteAll ((l.disk.removeAll path).happenings path)

/-- What a download is about. -/
structure Terms where
  request : Request
  naming : Naming
  toDownload : List Chapter

namespace Machine

def ledger (m : Machine) : Ledger where
  disk := m.disk
  recorded := m.session.plan.hasDownloaded
  counters := m.session.counters
  happened := m.journal.filter Happening.isWork

def terms (m : Machine) : Terms where
  request := m.session.request
  naming := m.session.naming
  toDownload := m.session.plan.toDownload

/-- Only work is counted. -/
theorem counters_note_of_not_work (c : Counters) {h : Happening} (hw : h.isWork = false) :
    c.note h = c := by
  cases h <;> first | rfl | cases hw

@[simp] theorem ledger_note (m : Machine) (h : Happening) :
    (m.note h).ledger = m.ledger.note h := by
  cases hw : h.isWork with
  | true => simp [ledger, note, Session.note, Ledger.note, hw]
  | false =>
    simp [ledger, note, Session.note, Ledger.note, hw, counters_note_of_not_work]

@[simp] theorem terms_note (m : Machine) (h : Happening) : (m.note h).terms = m.terms := rfl

@[simp] theorem terms_setLifecycle (m : Machine) (l : Lifecycle) :
    (m.setLifecycle l).terms = m.terms := by
  unfold setLifecycle
  split <;> rfl

@[simp] theorem request_setLifecycle (m : Machine) (l : Lifecycle) :
    (m.setLifecycle l).session.request = m.session.request :=
  congrArg Terms.request (terms_setLifecycle m l)

theorem toDownload_setLifecycle (m : Machine) (l : Lifecycle) :
    (m.setLifecycle l).terms.toDownload = m.terms.toDownload :=
  congrArg Terms.toDownload (terms_setLifecycle m l)

theorem ledger_answer (m : Machine) (id : Nat) (r : CallResult) :
    (m.answer id r).ledger = m.ledger := rfl

@[simp] theorem lifecycle_setLifecycle (m : Machine) (l : Lifecycle) :
    (m.setLifecycle l).session.lifecycle = l := by
  unfold setLifecycle
  split
  · assumption
  · rfl

/-- A call goes on with its download and waits: the download is closed, and cancelled with that if it
has failed, or its next chapter has begun. -/
inductive TakesUp (m : Machine) (id : Nat) (d : Download) : Machine → Prop where
  | closes (d' : Download) :
      m.TakesUp id d ((m.setLifecycle .cleanup).suspend ⟨id, some d.token, .downloading d'⟩)
  | fails (d' : Download) (hf : d.store.failure.isSome = true) :
      m.TakesUp id d (((m.setLifecycle .cleanup).cancelToken d.token).suspend
        ⟨id, some d.token, .downloading d'⟩)
  | begins (d' : Download) (chapter : Chapter) :
      m.TakesUp id d ((m.note (.urlsAsked chapter)).suspend ⟨id, some d.token, .downloading d'⟩)

theorem takesUp_nextChapter (m : Machine) (id : Nat) (d : Download) :
    m.TakesUp id d (m.nextChapter id d) := by
  have closes : m.TakesUp id d (m.closeDownload id d) := by
    unfold closeDownload setStore
    dsimp only
    split
    · rename_i hf
      exact .fails _ hf
    · exact .closes _
  unfold nextChapter
  split
  · exact closes
  · split
    · exact closes
    · exact .begins _ _

/-! ### Changes that leave a session where it is -/

/-- `m'` differs from `m` at most in what is counted, chosen and cancelled; what is cancelled stays
cancelled. -/
structure Keeps (m m' : Machine) : Prop where
  ledger : m'.ledger = m.ledger
  terms : m'.terms = m.terms
  plan : m'.session.plan = m.session.plan
  lifecycle : m'.session.lifecycle = m.session.lifecycle
  outcome : m'.session.outcome = m.session.outcome
  prepared : m'.session.isPrepared = m.session.isPrepared
  calls : m'.calls = m.calls
  journal : m'.journal = m.journal
  callCount : m.callCount ≤ m'.callCount
  tokens : m.tokens.length ≤ m'.tokens.length
  cancelled : ∀ t, m.isCancelled t = true → m'.isCancelled t = true

namespace Keeps
variable {m m' m'' : Machine}

theorem request (k : m.Keeps m') : m'.session.request = m.session.request :=
  congrArg Terms.request k.terms

theorem toDownload (k : m.Keeps m') : m'.terms.toDownload = m.terms.toDownload :=
  congrArg Terms.toDownload k.terms

theorem refl (m : Machine) : m.Keeps m :=
  ⟨rfl, rfl, rfl, rfl, rfl, rfl, rfl, rfl, Nat.le_refl _, Nat.le_refl _, fun _ h => h⟩

theorem trans (h : m.Keeps m') (h' : m'.Keeps m'') : m.Keeps m'' where
  ledger := h'.ledger.trans h.ledger
  terms := h'.terms.trans h.terms
  plan := h'.plan.trans h.plan
  lifecycle := h'.lifecycle.trans h.lifecycle
  outcome := h'.outcome.trans h.outcome
  prepared := h'.prepared.trans h.prepared
  calls := h'.calls.trans h.calls
  journal := h'.journal.trans h.journal
  callCount := Nat.le_trans h.callCount h'.callCount
  tokens := Nat.le_trans h.tokens h'.tokens
  cancelled := fun t ht => h'.cancelled t (h.cancelled t ht)

theorem count (m : Machine) (n : Nat) : m.Keeps { m with callCount := m.callCount + n } :=
  { refl m with callCount := Nat.le_add_right .. }

theorem pass (m : Machine) (nanos : Nat) : m.Keeps { m with now := m.now + nanos } :=
  { refl m with }

theorem choose (m : Machine) (ids : List String) :
    m.Keeps { m with session := { m.session with selection := ids } } :=
  { refl m with }

theorem requestCancel (m : Machine) :
    m.Keeps { m with session := { m.session with cancelRequested := true } } :=
  { refl m with }

theorem cancelParent (m : Machine) (parent : Nat) :
    m.Keeps { m with cancelledParents := parent :: m.cancelledParents } :=
  { refl m with
    cancelled := fun t ht => by
      unfold isCancelled at ht ⊢
      dsimp only
      cases hown : m.tokens[t]? with
      | none => simp [hown] at ht
      | some own =>
        rw [hown] at ht
        rcases Bool.or_eq_true_iff.mp ht with hc | hc
        · simp [hc]
        · simp only [List.contains_cons, Bool.or_eq_true]
          exact .inr (.inr hc) }

theorem cancelToken (m : Machine) (token : Nat) : m.Keeps (m.cancelToken token) :=
  { refl m with
    tokens := by simp [Machine.cancelToken]
    cancelled := fun t ht => by
      unfold isCancelled at ht ⊢
      simp only [Machine.cancelToken, List.getElem?_modify]
      cases hown : m.tokens[t]? with
      | none => simp [hown] at ht
      | some own =>
        rw [hown] at ht
        simp only [Option.map_eq_map, Option.map_some]
        split
        · simp
        · exact ht }

theorem cancelStored (m : Machine) : m.Keeps m.cancelStored := by
  unfold Machine.cancelStored
  split
  · exact cancelToken m _
  · exact refl m

theorem addToken (m : Machine) (own : Token) (stored : Option Nat) :
    m.Keeps { m with
      tokens := m.tokens ++ [own]
      session := { m.session with token := stored } } :=
  { refl m with
    tokens := by simp
    cancelled := fun t ht => by
      unfold isCancelled at ht ⊢
      cases hown : m.tokens[t]? with
      | none => simp [hown] at ht
      | some found =>
        have hlt : t < m.tokens.length := (List.getElem?_eq_some_iff.mp hown).1
        rw [hown] at ht
        dsimp only
        rw [List.getElem?_append_left hlt, hown]
        exact ht }

end Keeps

theorem isCancelled_cancelToken_self {m : Machine} {token : Nat} (h : token < m.tokens.length) :
    (m.cancelToken token).isCancelled token = true := by
  simp [isCancelled, cancelToken, h]

/-- Selecting chapters is answered at once. -/
theorem begin_select (m : Machine) (ids : List String) :
    ∃ m' r, m.Keeps m' ∧ m.begin (.select ids) = m'.answer m.callCount r ∧
      ∀ o, r = .ok (some o) → m.session.outcome = some o := by
  have counted := Keeps.count m 1
  by_cases hs : m.session.acceptsSelection = true
  · refine ⟨_, .ok none, counted.trans (Keeps.choose _ ids), ?_, nofun⟩
    simp [begin, select, hs]
  · refine ⟨_, .error (.invalidState "set user selection" m.session.lifecycle), counted, ?_, nofun⟩
    simp [begin, select, hs]

/-- To cancel a session is answered at once. -/
theorem begin_cancel (m : Machine) :
    ∃ m' r, m.Keeps m' ∧ m.begin .cancel = m'.answer m.callCount r ∧
      ∀ o, r = .ok (some o) → m.session.outcome = some o :=
  ⟨_, .ok none, ((Keeps.count m 1).trans (Keeps.requestCancel _)).trans (Keeps.cancelStored _), rfl,
    nofun⟩

/-- A new call of a session that runs or has run is answered at once, a run with the outcome. -/
theorem begin_settled {m : Machine} (op : Operation)
    (hp : op = .prepare → m.session.isPrepared = true)
    (h : m.session.outcome.isSome = true ∨ m.session.isRunning = true) :
    ∃ m' r, m.Keeps m' ∧ m.begin op = m'.answer m.callCount r ∧
      ∀ o, r = .ok (some o) → m.session.outcome = some o := by
  have counted := Keeps.count m 1
  cases op with
  | prepare =>
    refine ⟨_, .ok none, counted, ?_, nofun⟩
    simp [begin, prepare, hp rfl, afterPreparation]
  | run parent =>
    cases ho : m.session.outcome with
    | some outcome =>
      refine ⟨_, .ok (some outcome), counted, ?_, fun o h => ?_⟩
      · simp [begin, run, ho]
      · injection h
    | none =>
      have hr : m.session.isRunning = true := h.resolve_left (by simp [ho])
      refine ⟨_, .error (.invalidState "run" m.session.lifecycle), counted, ?_, nofun⟩
      simp [begin, run, ho, hr]
  | select ids => exact m.begin_select ids
  | cancel => exact m.begin_cancel

/-- A step is a new call, a change that concerns no call, or a step of a call that waits. -/
theorem step?_cases {m m' : Machine} {a : Action} (h : m.step? a = some m') :
    (∃ op, a = .call op ∧ m' = m.begin op) ∨
      (a.call? = none ∧ m'.session = m.session ∧ m.Keeps m') ∨
      ∃ c ∈ m.calls, a.call? = some c.id ∧ m.stepCall? c a = some m' := by
  cases a with
  | call op => exact .inl ⟨op, rfl, (Option.some.inj h).symm⟩
  | cancelParent parent =>
    obtain rfl := Option.some.inj h
    exact .inr (.inl ⟨rfl, rfl, .cancelParent m parent⟩)
  | pass nanos =>
    obtain rfl := Option.some.inj h
    exact .inr (.inl ⟨rfl, rfl, .pass m nanos⟩)
  | _ =>
    obtain ⟨c, hc, hstep⟩ := Option.bind_eq_some_iff.mp h
    have hid := List.find?_some hc
    rw [beq_iff_eq] at hid
    exact .inr (.inr ⟨c, List.mem_of_find?_eq_some hc, by rw [hid]; rfl, hstep⟩)

/-! ### One call alone -/

/-- A call of a session in the middle of its one download, which waits alone. -/
structure Runs (m : Machine) (c : Call) : Prop where
  calls : m.calls = [c]
  id_lt : c.id < m.callCount
  prepared : m.session.isPrepared = true
  outcome : m.session.outcome = none
  running : m.session.isRunning = true
  answers : ∀ call o, .answered call (.ok (some o)) ∈ m.journal → o.endsDownload = false

theorem Runs.eq_of_mem {m : Machine} {c c' : Call} (h : m.Runs c) (hc : c' ∈ m.calls) : c' = c := by
  rw [h.calls] at hc
  exact List.mem_singleton.mp hc

/-- From `m`, the call `c` has come to wait with the ledger `l`, on the same terms. -/
structure Turns (m : Machine) (c : Call) (l : Ledger) (m' : Machine) : Prop where
  runs : m'.Runs c
  ledger : m'.ledger = l
  terms : m'.terms = m.terms
  cancelled : ∀ t, m.isCancelled t = true → m'.isCancelled t = true
  tokens : m.tokens.length ≤ m'.tokens.length

theorem Runs.turns {m : Machine} {c : Call} (h : m.Runs c) : m.Turns c m.ledger m :=
  ⟨h, rfl, rfl, fun _ h => h, Nat.le_refl _⟩

namespace Turns
variable {m m' : Machine} {c : Call} {l : Ledger}

theorem note (t : m.Turns c l m') (h : Happening)
    (hh : ∀ call o, h = .answered call (.ok (some o)) → o.endsDownload = false) :
    m.Turns c (l.note h) (m'.note h) where
  runs :=
    { t.runs with
      answers := fun call o ho => by
        rcases List.mem_cons.mp ho with ho | ho
        · exact hh call o ho.symm
        · exact t.runs.answers call o ho }
  ledger := by rw [ledger_note, t.ledger]
  terms := by rw [terms_note, t.terms]
  cancelled := t.cancelled
  tokens := t.tokens

theorem noteAll (t : m.Turns c l m') (hs : List Happening) (hh : ∀ h ∈ hs, h.isWork = true) :
    m.Turns c (l.noteAll hs) (m'.noteAll hs) := by
  induction hs generalizing l m' with
  | nil => exact t
  | cons h rest ih =>
    refine ih (t.note h fun call o ho => ?_) fun x hx => hh x (List.mem_cons_of_mem _ hx)
    subst ho
    exact Bool.noConfusion (hh _ (List.mem_cons_self ..))

theorem send (t : m.Turns c l m') (event : Event) : m.Turns c l (m'.send event) :=
  t.note (.sent event) nofun

theorem suspend (t : m.Turns c l m') (stage : Stage) (token : Option Nat) :
    m.Turns ⟨c.id, token, stage⟩ l (m'.suspend ⟨c.id, token, stage⟩) where
  runs := { t.runs with calls := by simp [Machine.suspend, t.runs.calls] }
  ledger := t.ledger
  terms := t.terms
  cancelled := t.cancelled
  tokens := t.tokens

theorem setLifecycle (t : m.Turns c l m') {s : Lifecycle} (hs : s = .downloading ∨ s = .cleanup) :
    m.Turns c l (m'.setLifecycle s) := by
  by_cases h : m'.session.lifecycle = s
  · rw [show m'.setLifecycle s = m' by simp [Machine.setLifecycle, h]]
    exact t
  · have moved : m.Turns c l { m' with session := { m'.session with lifecycle := s } } :=
      { t with runs := { t.runs with running := by rcases hs with rfl | rfl <;> rfl } }
    rw [show m'.setLifecycle s = { m' with session := { m'.session with lifecycle := s } }.send
      (.stateChanged m'.session.request.id s) by simp [Machine.setLifecycle, h]]
    exact moved.send _

theorem keeps {m'' : Machine} (t : m.Turns c l m') (k : m'.Keeps m'') : m.Turns c l m'' where
  runs :=
    { calls := k.calls.trans t.runs.calls
      id_lt := Nat.lt_of_lt_of_le t.runs.id_lt k.callCount
      prepared := k.prepared.trans t.runs.prepared
      outcome := k.outcome.trans t.runs.outcome
      running := by
        have := t.runs.running
        unfold Session.isRunning at this ⊢
        rwa [k.lifecycle]
      answers := by
        rw [k.journal]
        exact t.runs.answers }
  ledger := k.ledger.trans t.ledger
  terms := k.terms.trans t.terms
  cancelled := fun i hi => k.cancelled i (t.cancelled i hi)
  tokens := Nat.le_trans t.tokens k.tokens

/-- The answer of another call, which has never waited. -/
theorem answer (t : m.Turns c l m') {id : Nat} (hid : c.id ≠ id) {r : CallResult}
    (hr : ∀ o, r = .ok (some o) → o.endsDownload = false) : m.Turns c l (m'.answer id r) := by
  have hcalls : m'.calls.filter (fun c => c.id != id) = m'.calls := by
    rw [t.runs.calls]
    simp [hid]
  rw [Machine.answer, hcalls]
  exact t.note (.answered id r) fun call o ho => hr o (by injection ho)

/-- Changes of the disk and of the recorded directories show in the ledger. -/
theorem setDisk (t : m.Turns c l m') (disk : Disk) :
    m.Turns c { l with disk } { m' with disk } where
  runs := { t.runs with }
  ledger := by rw [← t.ledger]; rfl
  terms := t.terms
  cancelled := t.cancelled
  tokens := t.tokens

theorem addDirectory (t : m.Turns c l m') (path : String) :
    m.Turns c { l with recorded := l.recorded ++ [path] }
      { m' with session := m'.session.addDirectory path } where
  runs := { t.runs with }
  ledger := by rw [← t.ledger]; rfl
  terms := t.terms
  cancelled := t.cancelled
  tokens := t.tokens

theorem report (t : m.Turns c l m') (d : Download) (since : Nat) :
    m.Turns c l (m'.report d since) := by
  unfold Machine.report
  split
  · exact t.send _
  · have sampled : m.Turns c l
        { m' with session := { m'.session with sampled := m'.session.counters.images } } :=
      { t with runs := { t.runs with } }
    exact sampled.send _

end Turns
end Machine
end Longbox
