import Longbox.Proofs.Session.Inversion
import Longbox.Proofs.Session.Past

/-! Preparing a session first changes nothing.

A session can be prepared and then run, or it is run and so prepared on the way. As long as nothing else
is called and nobody cancels, both go through the same preparation, the run alone with a token
(`Machine.asRun`): `Preparing.step` takes them through it side by side. A prepared session that is run has
that preparation behind it and one call more, which `run?_after` says makes no difference.
`prepared_run_eq_run` compares the two for whole courses. -/
namespace Longbox

/-- Nothing is called, and nobody cancels. -/
def Action.isQuiet : Action → Bool
  | .call _ | .cancelParent _ => false
  | _ => true

def Happening.isAnswer : Happening → Bool
  | .answered _ _ => true
  | _ => false

/-- What the call with this id is answered. -/
def Happening.answerTo? (id : Nat) : Happening → Option CallResult
  | .answered other result => if other = id then some result else none
  | _ => none

def Action.pause? : Action → Option Nat
  | .pass nanos => some nanos
  | _ => none

/-- What a session has come to, and what a call in it has been answered. -/
structure Result where
  outcome : Option Outcome
  lifecycle : Lifecycle
  counters : Counters
  plan : Plan
  disk : Disk
  /-- What calls wait for. -/
  waiting : List Stage
  /-- All but the answers to calls, the latest first: the events and the requests to release the session
  are among it. -/
  happened : List Happening
  answers : List CallResult

namespace Machine

def result (id : Nat) (m : Machine) : Result where
  outcome := m.session.outcome
  lifecycle := m.session.lifecycle
  counters := m.session.counters
  plan := m.session.plan
  disk := m.disk
  waiting := m.calls.map Call.stage
  happened := m.journal.filter fun h => !h.isAnswer
  answers := m.journal.filterMap (Happening.answerTo? id)

def wait (gap : Nat) (m : Machine) : Machine :=
  { m with now := m.now + gap }

def withoutCalls (m : Machine) : Machine :=
  { m with calls := [] }

/-- The machine when its call is the first run of the session, made `gap` later. -/
def asRun (parent gap : Nat) (m : Machine) : Machine :=
  { m with
    now := m.now + gap
    tokens := [{ parent }]
    calls := m.calls.map fun c => { c with token := some 0 }
    session := { m.session with token := some 0 } }

/-- The machine at the beginning of the run, with nothing behind it. -/
def runStart (parent gap : Nat) (m : Machine) : Machine :=
  { (m.asRun parent gap).withoutCalls with journal := [] }

/-- The one call there has been prepares the session, or has just done so; nobody has cancelled. -/
structure Alone (m : Machine) (stage : Stage) : Prop where
  calls : m.calls = [⟨0, none, stage⟩]
  callCount : m.callCount = 1
  tokens : m.tokens = []
  parents : m.cancelledParents = []
  uncancelled : m.session.cancelRequested = false
  unanswered : ∀ h ∈ m.journal, h.isAnswer = false

/-- The call waits. -/
structure Preparing (m : Machine) (stage : Stage) : Prop extends m.Alone stage where
  waits : stage = .preferences ∨ stage = .planning ∨ stage = .releasing .emptyPlan

/-- The call is to be answered. -/
structure Planned (m : Machine) : Prop where
  alone : ∃ stage, m.Alone stage
  stands : m.session.outcome = none → m.session.isPrepared = true ∧ m.session.isRunning = false

/-- What an action makes of a preparation, and of a run that comes to it the same way. -/
inductive Shared (m : Machine) (a : Action) : Prop where
  | stuck (h : m.step? a = none) (hr : ∀ parent gap, (m.asRun parent gap).step? a = none)
  | waits {m' : Machine} {stage : Stage} (hp : m'.Preparing stage) (h : m.step? a = some m')
      (hr : ∀ parent gap, (m.asRun parent gap).step? a = some (m'.asRun parent gap))
  | ends {x : Machine} (hx : x.Planned) (h : m.step? a = some (x.answer 0 (.ok none)))
      (hr : ∀ parent gap, (m.asRun parent gap).step? a =
        some ((x.asRun parent gap).afterPreparation 0 (some 0)))

variable {m : Machine} {stage : Stage} {a : Action}

/-! ### The preparation -/

namespace Alone

theorem note (h : m.Alone stage) {x : Happening} (hx : x.isAnswer = false) :
    (m.note x).Alone stage :=
  { h with unanswered := List.forall_mem_cons.mpr ⟨hx, h.unanswered⟩ }

theorem setLifecycle (h : m.Alone stage) (l : Lifecycle) : (m.setLifecycle l).Alone stage := by
  unfold Machine.setLifecycle
  split
  · exact h
  · have moved : Alone { m with session := { m.session with lifecycle := l } } stage := { h with }
    exact moved.note rfl

theorem choose (h : m.Alone stage) (mapper : TagMapper) :
    Alone { m with session := { m.session with mapper } } stage :=
  { h with }

theorem calls_asRun (h : m.Alone stage) (parent gap : Nat) :
    (m.asRun parent gap).calls = [⟨0, some 0, stage⟩] := by
  simp [asRun, h.calls]

/-- No call has been answered. -/
theorem answers_eq_nil (h : m.Alone stage) (id : Nat) :
    m.journal.filterMap (Happening.answerTo? id) = [] := by
  refine List.filterMap_eq_nil_iff.mpr fun x hx => ?_
  have hx := h.unanswered x hx
  cases x <;> first | rfl | cases hx

theorem suspend (h : m.Alone stage) (next : Stage) : (m.suspend ⟨0, none, next⟩).Alone next :=
  { h with calls := by simp [Machine.suspend, h.calls] }

end Alone

theorem asRun_setLifecycle (parent gap : Nat) (m : Machine) (l : Lifecycle) :
    (m.setLifecycle l).asRun parent gap = (m.asRun parent gap).setLifecycle l := by
  unfold setLifecycle
  rw [apply_ite (asRun parent gap)]
  rfl

theorem asRun_suspend (parent gap : Nat) (m : Machine) (id : Nat) (next : Stage) :
    (m.suspend ⟨id, none, next⟩).asRun parent gap =
      (m.asRun parent gap).suspend ⟨id, some 0, next⟩ := by
  simp only [asRun, suspend, List.map_cons, List.filter_map, Function.comp_def]

/-- The two come to wait for the same. -/
theorem Alone.waits (h : m.Alone stage) {next : Stage}
    (hn : next = .preferences ∨ next = .planning ∨ next = .releasing .emptyPlan)
    {m₀ : Machine} (hs : m₀.step? a = some (m.suspend ⟨0, none, next⟩))
    (hr : ∀ parent gap, (m₀.asRun parent gap).step? a =
      some ((m.asRun parent gap).suspend ⟨0, some 0, next⟩)) : m₀.Shared a :=
  .waits { h.suspend next with waits := hn } hs fun parent gap => by rw [asRun_suspend, hr]

theorem asRun_makePlan (parent gap : Nat) (m : Machine) (id : Nat)
    (volumes : Archive → Option String) : (m.asRun parent gap).makePlan id (some 0) volumes =
      if (m.withPlan volumes).session.plan.isEmpty then
        (((m.withPlan volumes).setLifecycle .waiting).asRun parent gap).release id (some 0) false
          .emptyPlan
      else (((m.withPlan volumes).setLifecycle m.session.plannedLifecycle).asRun parent gap)
        |>.afterPreparation id (some 0) := by
  rw [asRun_setLifecycle, asRun_setLifecycle]
  rfl

/-- An empty plan has both ask for the release, and any other ends the preparation. -/
theorem Alone.makePlan (h : m.Alone stage) {m₀ : Machine} (volumes : Archive → Option String)
    (hs : m₀.step? a = some (m.makePlan 0 none volumes))
    (hr : ∀ parent gap, (m₀.asRun parent gap).step? a =
      some ((m.asRun parent gap).makePlan 0 (some 0) volumes)) : m₀.Shared a := by
  have planned : (m.withPlan volumes).Alone stage := { h with }
  simp only [asRun_makePlan] at hr
  by_cases hd : (m.withPlan volumes).session.plan.isEmpty = true
  · simp only [if_pos hd] at hr
    have asked := (planned.setLifecycle .waiting).note
      (x := .releaseAsked ((m.withPlan volumes).setLifecycle .waiting).session.request.id false) rfl
    exact asked.waits (.inr (.inr rfl)) (hs.trans (congrArg some (if_pos hd))) hr
  · simp only [if_neg hd] at hr
    refine .ends ⟨⟨_, planned.setLifecycle _⟩, fun _ => ⟨?_, ?_⟩⟩
      (hs.trans (congrArg some (if_neg hd))) hr
    · rw [isPrepared_setLifecycle]
      rfl
    · rw [Session.isRunning, lifecycle_setLifecycle, Session.plannedLifecycle]
      split <;> rfl

theorem step?_of_call? {id : Nat} (ha : a.call? = some id) (m : Machine) :
    m.step? a = (m.call? id).bind fun c => m.stepCall? c a := by
  cases a <;> cases ha <;> rfl

theorem step?_of_calls {c : Call} (hc : m.calls = [c]) {id : Nat} (ha : a.call? = some id) :
    m.step? a = if c.id = id then m.stepCall? c a else none := by
  rw [step?_of_call? ha, call?, hc, List.find?_singleton]
  by_cases h : c.id = id <;> simp [h]

namespace Preparing

theorem shared_of_call (h : m.Preparing stage) {id : Nat} (ha : a.call? = some id)
    (hs : m.step? a = m.stepCall? ⟨0, none, stage⟩ a →
      (∀ parent gap, (m.asRun parent gap).step? a =
        (m.asRun parent gap).stepCall? ⟨0, some 0, stage⟩ a) → m.Shared a) : m.Shared a := by
  have alone : m.step? a = if 0 = id then m.stepCall? ⟨0, none, stage⟩ a else none :=
    step?_of_calls h.calls ha
  have running (parent gap : Nat) : (m.asRun parent gap).step? a =
      if 0 = id then (m.asRun parent gap).stepCall? ⟨0, some 0, stage⟩ a else none :=
    step?_of_calls (h.calls_asRun parent gap) ha
  by_cases hid : 0 = id
  · exact hs (alone.trans (if_pos hid)) fun parent gap => (running parent gap).trans (if_pos hid)
  · exact .stuck (alone.trans (if_neg hid)) fun parent gap =>
      (running parent gap).trans (if_neg hid)

theorem step (h : m.Preparing stage) (hq : a.isQuiet = true) : m.Shared a := by
  cases a with
  | call => cases hq
  | cancelParent => cases hq
  | pass nanos =>
    have passed : Preparing { m with now := m.now + nanos } stage := { h with }
    refine .waits passed rfl fun parent gap => ?_
    show some { m.asRun parent gap with now := m.now + gap + nanos } = _
    rw [Nat.add_right_comm]
    rfl
  | receivePreferences id result =>
    refine h.shared_of_call rfl fun hs hr => ?_
    by_cases hp : stage = .preferences
    · subst hp
      have listed := h.toAlone.choose (m.session.mapperOf result.toOption)
      exact (listed.note (x := .catalogListed) rfl).waits (.inr (.inl rfl)) hs hr
    · exact .stuck (hs.trans (if_neg hp)) fun parent gap => (hr parent gap).trans (if_neg hp)
  | plan id volumes =>
    refine h.shared_of_call rfl fun hs hr => ?_
    by_cases hp : stage = .planning
    · subst hp
      exact h.toAlone.makePlan volumes hs hr
    · exact .stuck (hs.trans (if_neg hp)) fun parent gap => (hr parent gap).trans (if_neg hp)
  | released id result =>
    refine h.shared_of_call rfl fun hs hr => ?_
    rcases h.waits with rfl | rfl | rfl
    · exact .stuck hs hr
    · exact .stuck hs hr
    · have planned : (m.setOutcome .nothingToDownload).Planned := ⟨⟨_, { h with }⟩, nofun⟩
      exact .ends planned hs hr
  | move id move =>
    refine h.shared_of_call rfl fun hs hr => ?_
    rcases h.waits with rfl | rfl | rfl <;> exact .stuck hs hr
  | removeNext id =>
    refine h.shared_of_call rfl fun hs hr => ?_
    rcases h.waits with rfl | rfl | rfl <;> exact .stuck hs hr

end Preparing

/-- Going through these actions, the preparation comes to its end with `x`, and so does a run. -/
structure Completes (m : Machine) (actions : List Action) (x : Machine) : Prop where
  planned : x.Planned
  prepared : m.run? actions = some (x.answer 0 (.ok none))
  running : ∀ parent gap, (m.asRun parent gap).run? actions =
    some ((x.asRun parent gap).afterPreparation 0 (some 0))

/-- A preparation comes to its end somewhere on the way, or neither it nor the run has ended. -/
theorem Preparing.course (h : m.Preparing stage) {actions : List Action}
    (hq : ∀ a ∈ actions, a.isQuiet = true) :
    (∃ before rest x, actions = before ++ rest ∧ m.Completes before x) ∨
      (∀ m', m.run? actions = some m' → m'.calls ≠ []) ∧
        ∀ parent gap m', (m.asRun parent gap).run? actions = some m' → m'.calls ≠ [] := by
  induction actions generalizing m stage with
  | nil =>
    refine .inr ⟨fun m' hm' => ?_, fun parent gap m' hm' => ?_⟩
    · cases hm'
      simp [h.calls]
    · cases hm'
      simp [h.calls_asRun]
  | cons a rest ih =>
    obtain ⟨ha, hrest⟩ := List.forall_mem_cons.mp hq
    cases h.step ha with
    | stuck hs hr => exact .inr ⟨by simp [run?, hs], by simp [run?, hr]⟩
    | waits hp hs hr =>
      rcases ih hp hrest with ⟨before, later, x, rfl, hx⟩ | ⟨hwaits, hruns⟩
      · refine .inl ⟨a :: before, later, x, rfl, hx.planned, ?_, fun parent gap => ?_⟩
        · simpa [run?, hs] using hx.prepared
        · simpa [run?, hr] using hx.running parent gap
      · exact .inr ⟨by simpa [run?, hs] using hwaits, by simpa [run?, hr] using hruns⟩
    | ends hx hs hr =>
      exact .inl ⟨[a], rest, _, rfl, hx, by simp [run?, hs], by simp [run?, hr]⟩

/-! ### No call waits -/

theorem step?_idle (hc : m.calls = []) (hq : a.isQuiet = true) :
    m.step? a = a.pause?.map m.wait := by
  have none_of_call {id : Nat} (ha : a.call? = some id) : m.step? a = none := by
    rw [step?_of_call? ha, call?, hc]
    rfl
  cases a with
  | call => cases hq
  | cancelParent => cases hq
  | pass nanos => rfl
  | _ => exact none_of_call rfl

/-- Where no call waits, only time can pass. -/
theorem idle_course (hc : m.calls = []) {actions : List Action}
    (hq : ∀ a ∈ actions, a.isQuiet = true) {m' : Machine} (hrun : m.run? actions = some m') :
    ∃ pause : List Nat, actions = pause.map .pass := by
  induction actions generalizing m with
  | nil => exact ⟨[], rfl⟩
  | cons a rest ih =>
    obtain ⟨ha, hrest⟩ := List.forall_mem_cons.mp hq
    rw [run?, step?_idle hc ha] at hrun
    cases a with
    | pass nanos =>
      obtain ⟨pause, rfl⟩ := ih (m := m.wait nanos) hc hrest hrun
      exact ⟨nanos :: pause, rfl⟩
    | _ => cases hrun

theorem run?_pass (pause : List Nat) :
    ∃ gap, ∀ m : Machine, m.run? (pause.map .pass) = some (m.wait gap) := by
  induction pause with
  | nil => exact ⟨0, fun m => rfl⟩
  | cons nanos rest ih =>
    obtain ⟨gap, hgap⟩ := ih
    refine ⟨nanos + gap, fun m => (hgap (m.wait nanos)).trans ?_⟩
    simp only [wait, Nat.add_assoc]

theorem result_idle {m n : Machine} {i j : Nat} (hc : m.calls = []) (hn : n.calls = [])
    (hr : m.result i = n.result j) (k : Nat) {actions : List Action}
    (hq : ∀ a ∈ actions, a.isQuiet = true) :
    (m.run? (actions.map (Action.countedFrom k))).map (result i) =
      (n.run? actions).map (result j) := by
  induction actions generalizing m n with
  | nil => exact congrArg some hr
  | cons a rest ih =>
    obtain ⟨ha, hrest⟩ := List.forall_mem_cons.mp hq
    have quiet : (a.countedFrom k).isQuiet = true := by cases a <;> first | rfl | cases ha
    have pause : (a.countedFrom k).pause? = a.pause? := by cases a <;> rfl
    rw [List.map_cons, run?, run?, step?_idle hc quiet, step?_idle hn ha, pause]
    cases a.pause? with
    | none => rfl
    | some nanos => exact ih (m := m.wait nanos) (n := n.wait nanos) hc hn hr hrest

/-! ### The run of a prepared session -/

theorem withoutCalls_setLifecycle (m : Machine) (l : Lifecycle) :
    (m.setLifecycle l).withoutCalls = m.withoutCalls.setLifecycle l := by
  unfold setLifecycle
  rw [apply_ite withoutCalls]
  rfl

theorem suspend_of_calls {c : Call} (hc : m.calls = [c]) (c' : Call) (hid : c'.id = c.id) :
    m.suspend c' = m.withoutCalls.suspend c' := by
  simp [suspend, withoutCalls, hc, hid]

/-- It makes no difference to a download that its call has waited for the plan. -/
theorem startDownload_of_calls {c : Call} (hc : m.calls = [c]) (t : Nat) :
    m.startDownload c.id t = m.withoutCalls.startDownload c.id t := by
  have stays (l : Lifecycle) : (m.withSelection.setLifecycle l).calls = [c] := by
    rw [calls_setLifecycle]
    exact hc
  have released : (m.withSelection.setLifecycle .waiting).release c.id (some t) false
        .emptySelection =
      (m.withSelection.setLifecycle .waiting).withoutCalls.release c.id (some t) false
        .emptySelection :=
    suspend_of_calls (m := (m.withSelection.setLifecycle .waiting).note _) (stays _) _ rfl
  have begun (d : Download) : (m.withSelection.setLifecycle .downloading).nextChapter c.id d =
      (m.withSelection.setLifecycle .downloading).withoutCalls.nextChapter c.id d := by
    have again : (m.withSelection.setLifecycle .downloading).setDownload c.id d =
        (m.withSelection.setLifecycle .downloading).withoutCalls.setDownload c.id d :=
      suspend_of_calls (stays _) ⟨c.id, some d.token, .downloading d⟩ rfl
    rw [← nextChapter_setDownload _ _ d d, again]
    exact nextChapter_setDownload _ _ d d
  rw [withoutCalls_setLifecycle] at released
  simp only [withoutCalls_setLifecycle] at begun
  exact ite_congr rfl (fun _ => released) fun _ => begun _

/-- What the past adds to the result is only what it has of its own. -/
theorem result_after (m : Machine) (past : List Happening) (id k : Nat) :
    (m.after past k).result (id + k) = { m.result id with
      happened := (m.result id).happened ++ past.filter fun h => !h.isAnswer
      answers := (m.result id).answers ++ past.filterMap (Happening.answerTo? (id + k)) } := by
  have isAnswer (h : Happening) : (h.countedFrom k).isAnswer = h.isAnswer := by cases h <;> rfl
  have answerTo (h : Happening) : (h.countedFrom k).answerTo? (id + k) = h.answerTo? id := by
    cases h <;> simp [Happening.countedFrom, Happening.answerTo?]
  have unnumbered : ∀ h ∈ m.journal.filter fun h => !h.isAnswer, h.countedFrom k = h := by
    intro h hh
    cases h with
    | answered => cases (List.mem_filter.mp hh).2
    | _ => rfl
  have happened := List.map_congr_left unnumbered
  rw [List.map_id'] at happened
  simp [result, after, List.filter_map, List.filterMap_map, Function.comp_def, isAnswer, answerTo,
    Call.countedFrom, happened]

namespace Planned
variable {x : Machine} (hx : x.Planned) (parent gap : Nat)
include hx

theorem calls_answer : (x.answer 0 (.ok none)).calls = [] := by
  obtain ⟨stage, h⟩ := hx.alone
  simp [answer, note, h.calls]

/-- A session with an outcome answers it. -/
theorem begin_of_outcome {o : Outcome} (ho : x.session.outcome = some o) :
    ((x.answer 0 (.ok none)).wait gap).begin (.run parent) =
      { (x.answer 0 (.ok none)).wait gap with callCount := 2 }.answer 1 (.ok (some o)) := by
  obtain ⟨stage, h⟩ := hx.alone
  have ho : ((x.answer 0 (.ok none)).wait gap).session.outcome = some o := ho
  have hcount : ((x.answer 0 (.ok none)).wait gap).callCount = 1 := h.callCount
  simp [begin, run, ho, hcount]

/-- With its token stored, a run of a prepared session stands where a run alone does, the answer to the
preparation behind it. -/
theorem opened_eq (hs : ((x.answer 0 (.ok none)).wait gap).stores (.run parent) = true) :
    ((x.answer 0 (.ok none)).wait gap).opened (.run parent) =
      (x.runStart parent gap).after (.answered 0 (.ok none) :: x.journal) 1 := by
  obtain ⟨stage, h⟩ := hx.alone
  simp only [opened, hs, if_true]
  simp [wait, answer, note, Session.note, Counters.note, after, runStart, withoutCalls, asRun,
    h.calls, h.callCount, h.tokens, h.uncancelled]

/-- A session without an outcome goes on to its download. -/
theorem begin_of_no_outcome (ho : x.session.outcome = none) :
    ((x.answer 0 (.ok none)).wait gap).begin (.run parent) =
      ((x.runStart parent gap).after (.answered 0 (.ok none) :: x.journal) 1).startDownload 1 0 := by
  obtain ⟨stage, h⟩ := hx.alone
  obtain ⟨hp, hr⟩ := hx.stands ho
  have hs : ((x.answer 0 (.ok none)).wait gap).stores (.run parent) = true := by
    show (x.session.outcome.isNone && !x.session.isRunning) = true
    rw [ho, hr]
    rfl
  have hcount : ((x.answer 0 (.ok none)).wait gap).callCount = 1 := h.callCount
  have htokens : ((x.answer 0 (.ok none)).wait gap).tokens.length = 0 :=
    congrArg List.length h.tokens
  rw [begin_run hs, hx.opened_eq parent gap hs, hcount, htokens]
  generalize hstart : (x.runStart parent gap).after (.answered 0 (.ok none) :: x.journal) 1 = start
  have hc : start.isCancelled 0 = false := by
    simp [← hstart, isCancelled, after, runStart, withoutCalls, asRun, h.parents]
  have hp : start.session.isPrepared = true := hstart ▸ hp
  have ho : start.session.outcome = none := hstart ▸ ho
  simp [prepare, afterPreparation, hc, hp, ho]

/-- A run alone has no answer behind it, and goes on to its download from the same. -/
theorem afterPreparation_asRun (ho : x.session.outcome = none) :
    (x.asRun parent gap).afterPreparation 0 (some 0) =
      ((x.runStart parent gap).after x.journal 0).startDownload 0 0 := by
  obtain ⟨stage, h⟩ := hx.alone
  have ho : (x.asRun parent gap).session.outcome = none := ho
  have alone := startDownload_of_calls (h.calls_asRun parent gap) 0
  simp only [afterPreparation, ho]
  exact alone

/-- A session with nothing to download is over before it is run. -/
theorem run_eq_of_outcome {o : Outcome} (ho : x.session.outcome = some o) {actions : List Action}
    (hq : ∀ a ∈ actions, a.isQuiet = true) :
    (((x.answer 0 (.ok none)).wait gap).run?
        (.call (.run parent) :: actions.map (Action.countedFrom 1))).map (result 1) =
      (((x.asRun parent gap).afterPreparation 0 (some 0)).run? actions).map (result 0) := by
  obtain ⟨stage, h⟩ := hx.alone
  have ended : (x.asRun parent gap).afterPreparation 0 (some 0) =
      (x.asRun parent gap).answer 0 (.ok (some o)) := by
    have ho : (x.asRun parent gap).session.outcome = some o := ho
    simp only [afterPreparation, ho]
  rw [run?, step?, Option.bind_some, hx.begin_of_outcome parent gap ho, ended]
  refine result_idle ?_ ?_ ?_ 1 hq
  · simp [answer, note, wait, h.calls]
  · simp [answer, note, asRun, h.calls]
  · simp [result, answer, note, Session.note, Counters.note, wait, asRun, h.calls,
      Happening.isAnswer, Happening.answerTo?, h.answers_eq_nil]

/-- Both downloads are one, with another past. -/
theorem run_eq_of_no_outcome (ho : x.session.outcome = none) (actions : List Action) :
    (((x.answer 0 (.ok none)).wait gap).run?
        (.call (.run parent) :: actions.map (Action.countedFrom 1))).map (result 1) =
      (((x.asRun parent gap).afterPreparation 0 (some 0)).run? actions).map (result 0) := by
  obtain ⟨stage, h⟩ := hx.alone
  have prepared := hx.begin_of_no_outcome parent gap ho
  have alone := hx.afterPreparation_asRun parent gap ho
  generalize x.runStart parent gap = start at prepared alone
  have resumed : (start.after (.answered 0 (.ok none) :: x.journal) 1).startDownload 1 0 =
      (start.startDownload 0 0).after (.answered 0 (.ok none) :: x.journal) 1 :=
    (start.after_startDownload ..).symm
  have begun : (start.after x.journal 0).startDownload 0 0 =
      (start.startDownload 0 0).after x.journal 0 :=
    (start.after_startDownload ..).symm
  have same (m : Machine) : (m.after (.answered 0 (.ok none) :: x.journal) 1).result 1 =
      (m.after x.journal 0).result 0 := by
    rw [m.result_after _ 0 1, m.result_after _ 0 0]
    simp [Happening.isAnswer, Happening.answerTo?, h.answers_eq_nil]
  have uncounted : actions.map (Action.countedFrom 0) = actions :=
    (List.map_congr_left fun a _ => a.countedFrom_zero).trans (List.map_id' _)
  have course := (start.startDownload 0 0).run?_after x.journal 0 actions
  rw [uncounted] at course
  rw [run?, step?, Option.bind_some, prepared, alone, resumed, begun, run?_after, course,
    Option.map_map, Option.map_map]
  exact congrArg (Option.map · _) (funext same)

end Planned

/-! ### A session from its beginning -/

section
variable (request : Request) (disk : Disk)

theorem preparing_begin : ∃ stage, ((ofRequest request disk).begin .prepare).Preparing stage := by
  obtain ⟨id, title, catalog, config, starts, skips, asks⟩ := request
  have quiet : ∀ h ∈ [Happening.catalogListed, .sent (.stateChanged id .loading)],
      h.isAnswer = false := by
    simp [Happening.isAnswer]
  have asked : ∀ h ∈ [Happening.preferencesAsked, .sent (.stateChanged id .loading)],
      h.isAnswer = false := by
    simp [Happening.isAnswer]
  cases asks with
  | false => exact ⟨.planning, ⟨rfl, rfl, rfl, rfl, rfl, quiet⟩, .inr (.inl rfl)⟩
  | true => exact ⟨.preferences, ⟨rfl, rfl, rfl, rfl, rfl, asked⟩, .inl rfl⟩

theorem begin_run_wait (parent gap : Nat) :
    ((ofRequest request disk).wait gap).begin (.run parent) =
      ((ofRequest request disk).begin .prepare).asRun parent gap := by
  obtain ⟨id, title, catalog, config, starts, skips, asks⟩ := request
  cases asks <;> rfl

/-- With the actions of a preparation, a run can be called before them or after them. -/
theorem Completes.result_eq {request : Request} {disk : Disk} {before : List Action} {x : Machine}
    (h : ((ofRequest request disk).begin .prepare).Completes before x) (parent : Nat)
    (pause : List Nat) {rest : List Action} (hq : ∀ a ∈ rest, a.isQuiet = true) :
    ((ofRequest request disk).run? (.call .prepare :: (before ++ pause.map .pass) ++
        .call (.run parent) :: rest.map (Action.countedFrom 1))).map (result 1) =
      ((ofRequest request disk).run?
        (pause.map .pass ++ .call (.run parent) :: before ++ rest)).map (result 0) := by
  obtain ⟨gap, hgap⟩ := run?_pass pause
  have prepared : (ofRequest request disk).run? (.call .prepare :: (before ++ pause.map .pass)) =
      some ((x.answer 0 (.ok none)).wait gap) := by
    rw [run?, step?, Option.bind_some, run?_append, h.prepared]
    exact hgap _
  have running : (ofRequest request disk).run?
      (pause.map .pass ++ .call (.run parent) :: before ++ rest) =
        ((x.asRun parent gap).afterPreparation 0 (some 0)).run? rest := by
    rw [List.append_assoc, run?_append, hgap, Option.bind_some, List.cons_append, run?, step?,
      Option.bind_some, begin_run_wait, run?_append, h.running]
    rfl
  rw [run?_append, prepared, running]
  cases ho : x.session.outcome with
  | some o => exact h.planned.run_eq_of_outcome parent gap ho hq
  | none => exact h.planned.run_eq_of_no_outcome parent gap ho rest

/-- Nothing else is called and nobody cancels. Then a session that is run after its preparation comes to
the same as one that is run in place of it, with the same answers of the collaborators; the time between
the preparation and the run passes before the run alone. And a run alone that comes to its end is one to
which the preparation and the run after it come too. -/
theorem prepared_run_eq_run (parent : Nat) :
    (∀ (p q : List Action) (m : Machine), (∀ a ∈ p ++ q, a.isQuiet = true) →
      (ofRequest request disk).run? (.call .prepare :: p) = some m → m.calls = [] →
        ∃ (before : List Action) (pause : List Nat), p = before ++ pause.map .pass ∧
          ((ofRequest request disk).run? (.call .prepare :: p ++
              .call (.run parent) :: q.map (Action.countedFrom 1))).map (result 1) =
            ((ofRequest request disk).run?
              (pause.map .pass ++ .call (.run parent) :: before ++ q)).map (result 0)) ∧
    ∀ (actions : List Action) (m' : Machine), (∀ a ∈ actions, a.isQuiet = true) →
      (ofRequest request disk).run? (.call (.run parent) :: actions) = some m' → m'.calls = [] →
        ∃ (p q : List Action) (m : Machine), actions = p ++ q ∧
          (ofRequest request disk).run? (.call .prepare :: p) = some m ∧ m.calls = [] ∧
            ((ofRequest request disk).run? (.call .prepare :: p ++
                .call (.run parent) :: q.map (Action.countedFrom 1))).map (result 1) =
              some (m'.result 0) := by
  obtain ⟨stage, preparing⟩ := preparing_begin request disk
  constructor
  · intro p q m hq hrun hc
    obtain ⟨hp, hlater⟩ := List.forall_mem_append.mp hq
    rcases preparing.course hp with ⟨before, rest, x, rfl, hx⟩ | ⟨hwaits, -⟩
    · have later : (x.answer 0 (.ok none)).run? rest = some m := by
        rw [run?, step?, Option.bind_some, run?_append, hx.prepared] at hrun
        exact hrun
      obtain ⟨pause, rfl⟩ := idle_course hx.planned.calls_answer
        (List.forall_mem_append.mp hp).2 later
      exact ⟨before, pause, rfl, hx.result_eq parent pause hlater⟩
    · exact absurd hc (hwaits m hrun)
  · intro actions m' hq hrun hc
    have begun : (((ofRequest request disk).begin .prepare).asRun parent 0).run? actions = some m' :=
      (begin_run_wait request disk parent 0) ▸ hrun
    rcases preparing.course hq with ⟨p, q, x, rfl, hx⟩ | ⟨-, hruns⟩
    · refine ⟨p, q, x.answer 0 (.ok none), rfl, hx.prepared, hx.planned.calls_answer, ?_⟩
      have same := hx.result_eq parent [] (List.forall_mem_append.mp hq).2
      rw [List.map_nil, List.append_nil, List.nil_append] at same
      exact same.trans (congrArg (Option.map (result 0)) hrun)
    · exact absurd hc (hruns parent 0 m' begun)

end

/-- A chapter of one page is downloaded, and the session is released. -/
def onePageToItsEnd : List Action :=
  chapterOfOnePage ++ [.move 0 .finish, .released 0 (.ok ())]

theorem prepared_run_eq_run_oneChapter :
    ∃ m m', (ofRequest (seriesOf ["1"]) {}).run? [.call .prepare, .plan 0 fun _ => none, .pass 7] =
        some m ∧ m.calls = [] ∧
      (ofRequest (seriesOf ["1"]) {}).run? (.call (.run 0) :: .plan 0 (fun _ => none) ::
        onePageToItsEnd) = some m' ∧ m'.calls = [] ∧ m'.session.outcome = some (.completed 1) ∧
      (∃ (before : List Action) (pause : List Nat),
        [.plan 0 fun _ => none, .pass 7] = before ++ pause.map .pass ∧
          ((ofRequest (seriesOf ["1"]) {}).run? ([.call .prepare, .plan 0 fun _ => none, .pass 7] ++
              .call (.run 0) :: onePageToItsEnd.map (Action.countedFrom 1))).map (result 1) =
            ((ofRequest (seriesOf ["1"]) {}).run?
              (pause.map .pass ++ .call (.run 0) :: before ++ onePageToItsEnd)).map (result 0)) ∧
      ∃ (p q : List Action) (m₁ : Machine), .plan 0 (fun _ => none) :: onePageToItsEnd = p ++ q ∧
        (ofRequest (seriesOf ["1"]) {}).run? (.call .prepare :: p) = some m₁ ∧ m₁.calls = [] ∧
          ((ofRequest (seriesOf ["1"]) {}).run? (.call .prepare :: p ++
              .call (.run 0) :: q.map (Action.countedFrom 1))).map (result 1) =
            some (m'.result 0) := by
  have prepared : ((ofRequest (seriesOf ["1"]) {}).run?
      [.call .prepare, .plan 0 fun _ => none, .pass 7]).any (fun m => m.calls.isEmpty) = true := by
    decide +kernel
  have ends : ((ofRequest (seriesOf ["1"]) {}).run? (.call (.run 0) :: .plan 0 (fun _ => none) ::
      onePageToItsEnd)).any (fun m =>
        m.calls.isEmpty && m.session.outcome == some (.completed 1)) = true := by
    decide +kernel
  have waited : (Action.plan 0 (fun _ => none) :: .pass 7 :: onePageToItsEnd).all Action.isQuiet :=
    rfl
  have unwaited : (Action.plan 0 (fun _ => none) :: onePageToItsEnd).all Action.isQuiet := rfl
  obtain ⟨m, hrun, hc⟩ := (Option.any_eq_true ..).mp prepared
  obtain ⟨m', hrun', hends⟩ := (Option.any_eq_true ..).mp ends
  simp only [Bool.and_eq_true, beq_iff_eq, List.isEmpty_iff] at hc hends
  obtain ⟨hc', houtcome⟩ := hends
  have same := prepared_run_eq_run (seriesOf ["1"]) {} 0
  exact ⟨m, m', hrun, hc, hrun', hc', houtcome,
    same.1 _ onePageToItsEnd m (List.all_eq_true.mp waited) hrun hc,
    same.2 _ m' (List.all_eq_true.mp unwaited) hrun' hc'⟩

end Machine
end Longbox
