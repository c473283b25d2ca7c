import Longbox.Proofs.Session.Phase

/-! Which operations are refused, and what a refused operation leaves.

A call is refused when it is made or never: what goes on with it later answers no error
(`hold_stepCall?`). A refused operation changes nothing of the session but the token of a run that is
refused only when it comes to prepare the session (`Refused`). -/
namespace Longbox

/-- A call is answered with an error. -/
def Happening.isRefusal : Happening → Bool
  | .answered _ (.error _) => true
  | _ => false

/-- The parent of the token of a run. -/
def Operation.parent? : Operation → Option Nat
  | .run parent => some parent
  | _ => none

namespace Machine

/-- What the owner of a session has hold of: the stored token, and which calls have been refused. -/
def hold (m : Machine) : Standing :=
  { m.standing with told := m.standing.told.filter Happening.isRefusal }

/-! ### Calls that go on are not refused -/

section
variable {m m' : Machine} {id : Nat} {token : Option Nat}

theorem hold_eq (h : m'.standing = m.standing) : m'.hold = m.hold := by
  rw [hold, h, hold]

theorem mem_hold {e : Error} :
    .answered id (.error e) ∈ m.hold.told ↔ .answered id (.error e) ∈ m.journal := by
  simp [hold, standing, Happening.isTold, Happening.isRefusal]

theorem hold_note (m : Machine) {x : Happening} (hx : x.isRefusal = false) :
    (m.note x).hold = m.hold := by
  cases ht : x.isTold with
  | false => exact hold_eq (m.standing_note ht)
  | true => simp [hold, standing, note, Session.note, ht, hx]

theorem hold_answer (m : Machine) (id : Nat) (outcome : Option Outcome) :
    (m.answer id (.ok outcome)).hold = m.hold :=
  hold_note { m with calls := m.calls.filter fun c => c.id != id } rfl

@[simp] theorem hold_setLifecycle (m : Machine) (l : Lifecycle) :
    (m.setLifecycle l).hold = m.hold :=
  hold_eq (m.standing_setLifecycle l)

@[simp] theorem hold_release (m : Machine) (id : Nat) (token : Option Nat) (deleteFiles : Bool)
    (reason : ReleaseReason) : (m.release id token deleteFiles reason).hold = m.hold :=
  hold_note m rfl

theorem hold_conclude (m : Machine) (id : Nat) (d : Download) : (m.conclude id d).hold = m.hold := by
  unfold conclude
  split
  · exact (hold_note m.cancelStored rfl).trans (hold_eq m.standing_cancelStored)
  · split
    · exact hold_answer (m.setOutcome .cancelled) id _
    · exact hold_release ..

theorem hold_startDownload (m : Machine) (id token : Nat) :
    (m.startDownload id token).hold = m.hold := by
  unfold startDownload
  dsimp only
  split
  · rw [hold_release, hold_setLifecycle]
    rfl
  · rw [hold_eq (standing_nextChapter ..), hold_setLifecycle]
    rfl

theorem hold_afterPreparation (m : Machine) (id : Nat) (token : Option Nat) :
    (m.afterPreparation id token).hold = m.hold := by
  unfold afterPreparation
  split
  · exact hold_answer ..
  · split
    · exact hold_answer ..
    · exact hold_startDownload ..

theorem hold_makePlan (m : Machine) (id : Nat) (token : Option Nat)
    (volumes : Archive → Option String) : (m.makePlan id token volumes).hold = m.hold := by
  unfold makePlan
  dsimp only
  split
  · rw [hold_release, hold_setLifecycle]
    rfl
  · rw [hold_afterPreparation, hold_setLifecycle]
    rfl

theorem hold_released (m : Machine) (id : Nat) (token : Option Nat) (reason : ReleaseReason) :
    (m.released id token reason).hold = m.hold := by
  cases reason with
  | emptyPlan => exact hold_afterPreparation (m.setOutcome .nothingToDownload) id token
  | emptySelection => exact hold_answer (m.setOutcome .nothingToDownload) id _
  | finished chapters => exact hold_answer (m.setOutcome (.completed chapters)) id _
  | failed cause =>
    refine (hold_answer (setOutcome _ _) id _).trans ?_
    exact hold_note m rfl

theorem hold_removeNext (m : Machine) (c : Call) (cause : Error) (left : List String) :
    (m.removeNext c cause left).hold = m.hold := by
  cases left with
  | nil => exact hold_release ..
  | cons path left => exact hold_eq (m.standing_removeNext c cause path left)

theorem hold_stepCall? {c : Call} {a : Action} (h : m.stepCall? c a = some m') :
    m'.hold = m.hold := by
  cases a with
  | receivePreferences =>
    simp only [stepCall?] at h
    split at h
    · cases h
      rfl
    · cases h
  | plan =>
    simp only [stepCall?] at h
    split at h
    · cases h
      exact hold_makePlan ..
    · cases h
  | move id move =>
    simp only [stepCall?] at h
    split at h
    · rename_i d _
      by_cases hm : move = .finish
      · subst hm
        simp only [moveDownload?] at h
        split at h
        · cases h
          exact hold_conclude ..
        · cases h
      · exact hold_eq (standing_moveDownload? h hm)
    · cases h
  | removeNext =>
    simp only [stepCall?] at h
    split at h
    · cases h
      exact hold_removeNext ..
    · cases h
  | released =>
    simp only [stepCall?] at h
    split at h
    · cases h
      exact hold_released ..
    · cases h
  | _ => simp [stepCall?] at h

/-- A preparation goes on unless someone else has begun it. -/
theorem prepare_cases (m : Machine) (id : Nat) (token : Option Nat) :
    (m.prepare id token).hold = m.hold ∨
      m.session.isPrepared = false ∧ m.session.lifecycle ≠ .queued ∧
        m.prepare id token = m.answer id (.error (.invalidState "prepare" m.session.lifecycle)) := by
  unfold prepare
  cases hp : m.session.isPrepared with
  | true => exact .inl (hold_afterPreparation ..)
  | false =>
    rw [if_neg (by simp)]
    split
    · rename_i hl
      exact .inr ⟨rfl, hl, rfl⟩
    · refine .inl ?_
      dsimp only
      split
      · refine (hold_note _ rfl).trans ?_
        exact hold_setLifecycle ..
      · refine (hold_note _ rfl).trans ?_
        exact hold_setLifecycle ..

end

/-! ### New calls -/

/-- The operation is a run that stores a token of its own, whether or not it is refused after that. -/
def stores (m : Machine) : Operation → Bool
  | .run _ => m.session.outcome.isNone && !m.session.isRunning
  | _ => false

/-- The machine with the new call counted and the token of a run stored. -/
def opened (m : Machine) (op : Operation) : Machine :=
  let m' := { m with callCount := m.callCount + 1 }
  match op with
  | .run parent =>
    if m.stores op then
      { m' with
        tokens := m.tokens ++ [{ parent, cancelled := m.session.cancelRequested }]
        session := { m.session with token := some m.tokens.length } }
    else m'
  | _ => m'

/-- The operation is refused with `e`, and no more is done than to answer it. -/
structure Refused (m : Machine) (op : Operation) (e : Error) : Prop where
  error : ∃ name, e = .invalidState name m.session.lifecycle
  answered : m.begin op = (m.opened op).answer m.callCount (.error e)
  /-- A run that has stored its token is refused since the session is being prepared. -/
  unprepared : m.stores op = true → m.session.isPrepared = false ∧ m.session.lifecycle ≠ .queued

variable {m : Machine} {op : Operation}

theorem opened_cases (m : Machine) (op : Operation) :
    (m.stores op = true ∧ ∃ own : Token, op = .run own.parent ∧ m.opened op = { m with
        callCount := m.callCount + 1
        tokens := m.tokens ++ [own]
        session := { m.session with token := some m.tokens.length } }) ∨
      m.stores op = false ∧ m.opened op = { m with callCount := m.callCount + 1 } := by
  cases op with
  | run parent =>
    cases hs : m.stores (.run parent) with
    | true =>
      exact .inl ⟨rfl, ⟨parent, m.session.cancelRequested⟩, rfl, by simp only [opened, hs]; rfl⟩
    | false => exact .inr ⟨rfl, by simp [opened, hs]⟩
  | _ => exact .inr ⟨rfl, rfl⟩

theorem session_opened (m : Machine) (op : Operation) : (m.opened op).session =
    { m.session with token := if m.stores op then some m.tokens.length else m.session.token } := by
  rcases m.opened_cases op with ⟨hs, own, -, h⟩ | ⟨hs, h⟩ <;> simp [h, hs]

theorem kept_opened (m : Machine) (op : Operation) :
    (m.opened op).disk = m.disk ∧ (m.opened op).calls = m.calls ∧
      (m.opened op).journal = m.journal := by
  rcases m.opened_cases op with ⟨-, own, -, h⟩ | ⟨-, h⟩ <;> simp [h]

/-- A new call leaves the tokens there are as they are. -/
theorem isCancelled_opened (m : Machine) (op : Operation) {t : Nat} (ht : t < m.tokens.length) :
    (m.opened op).isCancelled t = m.isCancelled t := by
  rcases m.opened_cases op with ⟨-, own, -, h⟩ | ⟨-, h⟩
  · simp [h, isCancelled, List.getElem?_append_left ht]
  · simp [h, isCancelled]

theorem hold_opened (m : Machine) (op : Operation) : (m.opened op).hold =
    { m.hold with
      token := if m.stores op then some m.tokens.length else m.session.token
      callCount := m.callCount + 1
      parents := m.hold.parents ++ if m.stores op then op.parent?.toList else [] } := by
  rcases m.opened_cases op with ⟨hs, own, rfl, h⟩ | ⟨hs, h⟩
  · simp [h, hs, hold, standing, Operation.parent?]
  · simp [h, hs, hold, standing]

/-- A run that stores a token is cancelled with it or goes on to prepare the session. -/
theorem begin_run {parent : Nat} (h : m.stores (.run parent) = true) :
    m.begin (.run parent) =
      if (m.opened (.run parent)).isCancelled m.tokens.length then
        ((m.opened (.run parent)).setOutcome .cancelled).answer m.callCount (.ok (some .cancelled))
      else (m.opened (.run parent)).prepare m.callCount (some m.tokens.length) := by
  have ho : m.session.outcome = none ∧ m.session.isRunning = false := by
    simpa [stores] using h
  simp [begin, run, opened, ho, h]

/-- A run that stores no token is answered at once: the session has an outcome, or it downloads. -/
theorem begin_run_of_not_stores {parent : Nat} (h : m.stores (.run parent) = false) :
    (∃ o, m.begin (.run parent) =
        (m.opened (.run parent)).answer m.callCount (.ok (some o))) ∨
      m.begin (.run parent) = (m.opened (.run parent)).answer m.callCount
        (.error (.invalidState "run" m.session.lifecycle)) := by
  cases ho : m.session.outcome with
  | some o => exact .inl ⟨o, by simp [begin, run, opened, h, ho]⟩
  | none =>
    have hr : m.session.isRunning = true := by simpa [stores, ho] using h
    exact .inr (by simp [begin, run, opened, h, ho, hr])

theorem begin_run_cases (m : Machine) (parent : Nat) :
    (m.begin (.run parent)).hold = (m.opened (.run parent)).hold ∨
      ∃ e, m.Refused (.run parent) e := by
  cases hs : m.stores (.run parent) with
  | false =>
    rcases begin_run_of_not_stores hs with ⟨o, he⟩ | he
    · exact .inl (he ▸ hold_answer ..)
    · exact .inr ⟨_, ⟨_, rfl⟩, he, by simp [hs]⟩
  | true =>
    rw [begin_run hs]
    split
    · exact .inl (hold_answer ..)
    · rename_i hcancel
      rcases prepare_cases (m.opened (.run parent)) m.callCount (some m.tokens.length) with
        hheld | ⟨hp, hl, he⟩
      · exact .inl hheld
      · -- The token is stored by now, but a preparation does not look at it.
        rw [session_opened] at hp hl he
        refine .inr ⟨.invalidState "prepare" m.session.lifecycle, ⟨_, rfl⟩, ?_,
          fun _ => ⟨hp, hl⟩⟩
        rw [begin_run hs, if_neg hcancel]
        exact he

/-- A new call has hold of the session, or it is refused, or it is told to cancel the session. -/
theorem begin_cases (m : Machine) (op : Operation) :
    (m.begin op).hold = (m.opened op).hold ∨ (∃ e, m.Refused op e) ∨
      op = .cancel ∧ (m.begin op).hold = { (m.opened op).hold with cancelRequested := true } := by
  cases op with
  | prepare =>
    rcases prepare_cases { m with callCount := m.callCount + 1 } m.callCount none with
      hheld | ⟨-, -, he⟩
    · exact .inl hheld
    · exact .inr (.inl ⟨_, ⟨_, rfl⟩, he, nofun⟩)
  | run parent => exact (m.begin_run_cases parent).imp_right .inl
  | select ids =>
    unfold begin select
    dsimp only
    split
    · exact .inl (hold_answer ..)
    · rename_i hs
      refine .inr (.inl ⟨.invalidState "set user selection" m.session.lifecycle, ⟨_, rfl⟩, ?_,
        nofun⟩)
      simp [begin, select, opened, hs]
  | cancel =>
    refine .inr (.inr ⟨rfl, ?_⟩)
    refine (hold_answer ..).trans ?_
    exact hold_eq (standing_cancelStored _)

theorem hold_begin (m : Machine) (op : Operation) : ∃ told cancelRequested,
    (m.begin op).hold =
        { token := if m.stores op then some m.tokens.length else m.session.token
          cancelRequested
          callCount := m.callCount + 1
          parents := m.hold.parents ++ if m.stores op then op.parent?.toList else []
          told } ∧
      ∀ x ∈ told, x ∈ m.hold.told ∨ ∃ e, x = .answered m.callCount (.error e) ∧ m.Refused op e := by
  rcases begin_cases m op with hheld | ⟨e, href⟩ | ⟨-, hheld⟩
  · exact ⟨_, _, hheld.trans (m.hold_opened op), fun x hx => .inl hx⟩
  · have answered : (m.begin op).hold =
        { (m.opened op).hold with
          told := .answered m.callCount (.error e) :: (m.opened op).hold.told } := by
      rw [href.answered]
      rfl
    rw [hold_opened] at answered
    refine ⟨_, _, answered, fun x hx => ?_⟩
    rcases List.mem_cons.mp hx with rfl | hx
    · exact .inr ⟨e, rfl, href⟩
    · exact .inl hx
  · rw [hold_opened] at hheld
    exact ⟨_, _, hheld, fun x hx => .inl hx⟩

theorem token_begin (m : Machine) (op : Operation) : (m.begin op).session.token =
    if m.stores op then some m.tokens.length else m.session.token := by
  obtain ⟨_, _, hheld, -⟩ := m.hold_begin op
  exact congrArg Standing.token hheld

theorem parents_begin (m : Machine) (op : Operation) : (m.begin op).hold.parents =
    m.hold.parents ++ if m.stores op then op.parent?.toList else [] := by
  obtain ⟨_, _, hheld, -⟩ := m.hold_begin op
  exact congrArg Standing.parents hheld

theorem length_parents (m : Machine) : m.hold.parents.length = m.tokens.length :=
  List.length_map ..

theorem tokens_begin (m : Machine) (op : Operation) : (m.begin op).tokens.length =
    if m.stores op then m.tokens.length + 1 else m.tokens.length := by
  rw [← length_parents, parents_begin, List.length_append, length_parents]
  cases op with
  | run parent => split <;> simp [Operation.parent?]
  | _ => rfl

theorem callCount_begin (m : Machine) (op : Operation) :
    (m.begin op).callCount = m.callCount + 1 := by
  obtain ⟨_, _, hheld, -⟩ := m.hold_begin op
  exact congrArg Standing.callCount hheld

theorem refused_begin {id : Nat} {e : Error}
    (h : .answered id (.error e) ∈ (m.begin op).journal) :
    .answered id (.error e) ∈ m.journal ∨ id = m.callCount ∧ m.Refused op e := by
  obtain ⟨told, _, hheld, htold⟩ := m.hold_begin op
  have kept : (m.begin op).hold.told = told := congrArg Standing.told hheld
  rw [← mem_hold, kept] at h
  rcases htold _ h with hx | ⟨e', hx, href⟩
  · exact .inl (mem_hold.mp hx)
  · cases hx
    exact .inr ⟨rfl, href⟩

/-! ### Courses of actions -/

variable {m' : Machine} {a : Action}

theorem hold_step? (h : m.step? a = some m') :
    (∃ op, a = .call op ∧ m' = m.begin op) ∨ (∀ op, a ≠ .call op) ∧ m'.hold = m.hold := by
  cases a with
  | call op => exact .inl ⟨op, rfl, (Option.some.inj h).symm⟩
  | cancelParent | pass =>
    obtain rfl := Option.some.inj h
    exact .inr ⟨nofun, rfl⟩
  | _ =>
    obtain ⟨c, -, hstep⟩ := Option.bind_eq_some_iff.mp h
    exact .inr ⟨nofun, hold_stepCall? hstep⟩

/-- Calls and tokens have the numbers that have been given out. -/
structure Numbered (m : Machine) : Prop where
  token_lt : ∀ t, m.session.token = some t → t < m.tokens.length
  refused_lt : ∀ id e, .answered id (.error e) ∈ m.journal → id < m.callCount

theorem Numbered.step? (h : m.Numbered) (hs : m.step? a = some m') : m'.Numbered := by
  rcases hold_step? hs with ⟨op, rfl, rfl⟩ | ⟨-, hheld⟩
  · refine ⟨fun t ht => ?_, fun id e he => ?_⟩
    · rw [token_begin] at ht
      rw [tokens_begin]
      split at ht
      · rename_i hstores
        rw [if_pos hstores, ← Option.some.inj ht]
        exact Nat.lt_succ_self _
      · rename_i hstores
        rw [if_neg hstores]
        exact h.token_lt t ht
    · rw [callCount_begin]
      rcases refused_begin he with he | ⟨rfl, -⟩
      · exact Nat.lt_succ_of_lt (h.refused_lt id e he)
      · exact Nat.lt_succ_self _
  · have token : m'.session.token = m.session.token := congrArg Standing.token hheld
    have tokens : m'.tokens.length = m.tokens.length := by
      rw [← length_parents, hheld, length_parents]
    have callCount : m'.callCount = m.callCount := congrArg Standing.callCount hheld
    refine ⟨by rw [token, tokens]; exact h.token_lt, fun id e he => ?_⟩
    rw [callCount]
    rw [← mem_hold, hheld, mem_hold] at he
    exact h.refused_lt id e he

theorem Numbered.run? {actions : List Action} (h : m.Numbered)
    (hs : m.run? actions = some m') : m'.Numbered := by
  induction actions generalizing m with
  | nil =>
    obtain rfl := Option.some.inj hs
    exact h
  | cons a rest ih =>
    obtain ⟨m₁, hstep, hrest⟩ := Option.bind_eq_some_iff.mp hs
    exact ih (h.step? hstep) hrest

/-- A call that has been made is not refused any more. -/
theorem refused_run? {actions : List Action} {id : Nat} {e : Error} (hid : id < m.callCount)
    (hs : m.run? actions = some m') (he : .answered id (.error e) ∈ m'.journal) :
    .answered id (.error e) ∈ m.journal := by
  induction actions generalizing m with
  | nil =>
    obtain rfl := Option.some.inj hs
    exact he
  | cons a rest ih =>
    obtain ⟨m₁, hstep, hrest⟩ := Option.bind_eq_some_iff.mp hs
    rcases hold_step? hstep with ⟨op, rfl, rfl⟩ | ⟨-, hheld⟩
    · have before := ih (by rw [callCount_begin]; exact Nat.lt_succ_of_lt hid) hrest
      refine (refused_begin before).resolve_right ?_
      rintro ⟨rfl, -⟩
      exact absurd hid (Nat.lt_irrefl _)
    · have callCount : m₁.callCount = m.callCount := congrArg Standing.callCount hheld
      have before := ih (by rw [callCount]; exact hid) hrest
      rwa [← mem_hold, hheld, mem_hold] at before

end Machine
end Longbox
