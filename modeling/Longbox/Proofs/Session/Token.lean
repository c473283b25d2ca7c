import Longbox.Proofs.Session.Doom

/-! Which run a cancellation reaches.

A session stores the token of its latest run, and `cancel` cancels that one. A run that finds the
session being prepared is refused, but it has stored its own token before: the run that is under way
is then out of reach. `refused_untouched` says that a refused operation changes nothing else, and that
a run under way can be cancelled just as long as no other has come while the session was being
prepared. -/
namespace Longbox
namespace Machine

variable {disk : Disk} {m m' : Machine} {id t : Nat} {token : Option Nat} {a : Action}
  {p p' : Phase}

/-! ### Which token is stored -/

/-- No run stores a token while the session is being prepared. -/
def Orderly (m : Machine) : Action → Prop
  | .call op => ¬ (m.stores op = true ∧ m.session.lifecycle = .loading)
  | _ => True

theorem token_step? (h : m.step? a = some m') :
    (∃ op, a = .call op ∧ m.stores op = true ∧ m'.session.token = some m.tokens.length) ∨
      m'.session.token = m.session.token := by
  rcases hold_step? h with ⟨op, rfl, rfl⟩ | ⟨-, hheld⟩
  · rw [token_begin]
    split
    · rename_i hs
      exact .inl ⟨op, rfl, hs, rfl⟩
    · exact .inr rfl
  · exact .inr (congrArg Standing.token hheld)

theorem tokens_step? (h : m.step? a = some m') : m.tokens.length ≤ m'.tokens.length := by
  rcases hold_step? h with ⟨op, rfl, rfl⟩ | ⟨-, hheld⟩
  · rw [tokens_begin]
    split
    · exact Nat.le_succ _
    · exact Nat.le_refl _
  · exact Nat.le_of_eq (by rw [← length_parents, ← length_parents, hheld])

/-- The run with this token is the one whose token is stored, as long as it works. -/
def Reached (t : Nat) (m : Machine) (_ : Phase) : Prop :=
  t < m.tokens.length ∧ (t ∈ m.working → m.session.token = some t)

/-- The token is stored no more. -/
def Missed (t : Nat) (m : Machine) (_ : Phase) : Prop :=
  t < m.tokens.length ∧ m.session.token ≠ some t

theorem Reached.step (h : Passes disk m a m' p p') (ha : m.Orderly a) (hm : Reached t m p) :
    Reached t m' p' := by
  obtain ⟨hlt, hstored⟩ := hm
  refine ⟨Nat.lt_of_lt_of_le hlt (tokens_step? h.step), fun hwork' => ?_⟩
  rcases h.works.working t hwork' with hwork | ⟨-, heq, -⟩
  · rcases token_step? h.step with ⟨op, rfl, hs, -⟩ | htoken
    · -- While a run works, another stores its token only if the session is being prepared.
      rcases h.before.working_cases hwork with ⟨-, hl, -⟩ | ⟨id, d, rfl, -⟩
      · exact absurd ⟨hs, hl⟩ ha
      · have before := h.before
        have running := before.runs.running
        cases op with
        | run parent => simp [stores, running] at hs
        | _ => cases hs
    · exact htoken.trans (hstored hwork)
  · exact absurd hlt (heq ▸ Nat.lt_irrefl _)

theorem Missed.begins (h : Passes disk m a m' p p') (ha : ¬ m.Orderly a) (hm : Reached t m p) :
    Missed t m' p' := by
  refine ⟨Nat.lt_of_lt_of_le hm.1 (tokens_step? h.step), ?_⟩
  cases a with
  | call op =>
    obtain ⟨hs, -⟩ := Classical.not_not.mp ha
    obtain rfl := Option.some.inj h.step
    rw [token_begin, if_pos hs]
    exact fun heq => absurd hm.1 (Option.some.inj heq ▸ Nat.lt_irrefl _)
  | _ => exact absurd trivial ha

theorem Missed.step (h : Passes disk m a m' p p') (hm : Missed t m p) : Missed t m' p' := by
  refine ⟨Nat.lt_of_lt_of_le hm.1 (tokens_step? h.step), ?_⟩
  rcases token_step? h.step with ⟨-, -, -, htoken⟩ | htoken
  · rw [htoken]
    exact fun heq => absurd hm.1 (Option.some.inj heq ▸ Nat.lt_irrefl _)
  · rw [htoken]
    exact hm.2

/-! ### What a cancellation does -/

theorem isCancelled_cancelToken_of_ne {s : Nat} (h : s ≠ t) :
    (m.cancelToken s).isCancelled t = m.isCancelled t := by
  simp [isCancelled, cancelToken, h]

theorem isCancelled_begin_cancel (ht : t < m.tokens.length) :
    (m.begin .cancel).isCancelled t = true ↔
      m.session.token = some t ∨ m.isCancelled t = true := by
  show (cancelStored { m with
    callCount := m.callCount + 1
    session := { m.session with cancelRequested := true } }).isCancelled t = true ↔ _
  unfold cancelStored
  dsimp only
  split
  · rename_i s hs
    by_cases heq : s = t
    · subst heq
      exact iff_of_true (isCancelled_cancelToken_self ht) (.inl hs)
    · rw [isCancelled_cancelToken_of_ne heq, hs]
      simp only [Option.some.injEq, heq, false_or]
      rfl
  · rename_i hs
    rw [hs]
    simp only [reduceCtorEq, false_or]
    rfl

/-- Cancelling the session cancels the run with this token, and no run completes then. -/
def Stoppable (m : Machine) (t : Nat) : Prop :=
  (m.begin .cancel).isCancelled t = true ∧
    ∀ later m', (m.begin .cancel).run? later = some m' →
      ∀ call n, .answered call (.ok (some (.completed n))) ∉ m'.journal

theorem At.stoppable (h : m.At disk p) (ht : t ∈ m.working) :
    m.Stoppable t ↔ (m.begin .cancel).isCancelled t = true := by
  refine ⟨fun hstop => hstop.1, fun hc => ⟨hc, fun later m' hs call n hanswer => ?_⟩⟩
  have hstep : m.step? (.call .cancel) = some (m.begin .cancel) := rfl
  obtain ⟨p₁, h₁, htrans⟩ := h.step? hstep
  have engaged : p = .fresh ∧ m.Engaged ∨ ∃ id d, p = .downloading id d := by
    obtain ⟨c, hc, hwork⟩ := mem_working.mp ht
    exact h.underway_cases hc (isUnderway_of_workToken? hwork) (token_of_workToken? hwork)
  have doomed : (m.begin .cancel).Doomed p₁ :=
    Doomed.begins ⟨h, h₁, hstep, htrans⟩ rfl engaged fun t' ht' => by
      rw [h.working_unique ht ht']
      exact hc
  obtain ⟨p', h', hdoomed⟩ := h₁.always (I := Doomed) Doomed.step doomed hs
  obtain rfl := h'.over_of_answered hanswer rfl
  exact hdoomed n rfl

/-! ### What a refused operation leaves -/

/-- The operation has been refused with `e`, and nothing of the session has changed but the token of a
run that came while the session was being prepared. -/
structure Untouched (m : Machine) (op : Operation) (e : Error) (m' : Machine) : Prop where
  error : ∃ name, e = .invalidState name m.session.lifecycle
  session : m'.session = { m.session with token := m'.session.token }
  token : m'.session.token = m.session.token ↔ m.Orderly (.call op)
  disk : m'.disk = m.disk
  calls : m'.calls = m.calls
  cancelled : ∀ t < m.tokens.length, m'.isCancelled t = m.isCancelled t
  journal : m'.journal = .answered m.callCount (.error e) :: m.journal

theorem At.id_lt (h : m.At disk p) {c : Call} (hc : c ∈ m.calls) : c.id < m.callCount := by
  have alone {c' : Call} (hr : m.Runs c') : c.id < m.callCount := by
    rw [hr.eq_of_mem hc]
    exact hr.id_lt
  cases p with
  | fresh => exact (Fresh.knows h c hc).id_lt
  | downloading id d => exact alone h.runs
  | removing id token cause left => exact alone h
  | releasing id token reason => exact alone h.1
  | ended o => simp [h.calls] at hc

/-- A session that is not prepared is not further than to be loading. -/
theorem At.unprepared (h : m.At disk p) (hp : m.session.isPrepared = false) :
    m.session.lifecycle = .queued ∨ m.session.lifecycle = .loading := by
  have waits {c : Call} (hr : m.Runs c) : False := by
    rw [hr.prepared] at hp
    cases hp
  cases p with
  | fresh =>
    cases Fresh.prepares h with
    | queued _ hl => exact .inl hl
    | loading _ hl => exact .inr hl
    | prepared hp' =>
      rw [hp] at hp'
      cases hp'
  | downloading id d => exact (waits h.runs).elim
  | removing id token cause left => exact (waits h).elim
  | releasing id token reason => exact (waits h.1).elim
  | ended o =>
    rw [h.prepared] at hp
    cases hp

/-- A refused run that has stored its token came while the session was being prepared. -/
theorem Refused.token_iff {op : Operation} {e : Error} (h : m.Refused op e) (hat : m.At disk p)
    (hn : m.Numbered) :
    (m.begin op).session.token = m.session.token ↔ m.Orderly (.call op) := by
  rw [token_begin]
  split
  · rename_i hs
    obtain ⟨hp, hl⟩ := h.unprepared hs
    have loading := (hat.unprepared hp).resolve_left hl
    refine iff_of_false (fun heq => ?_) fun hnot => hnot ⟨hs, loading⟩
    exact absurd (hn.token_lt _ heq.symm) (Nat.lt_irrefl _)
  · rename_i hs
    exact iff_of_true rfl fun ⟨hs', _⟩ => hs hs'

theorem Refused.untouched {op : Operation} {e : Error} (h : m.Refused op e) (hat : m.At disk p)
    (hn : m.Numbered) : m.Untouched op e (m.begin op) := by
  obtain ⟨hdisk, hcalls, hjournal⟩ := m.kept_opened op
  have others : m.calls.filter (fun c => c.id != m.callCount) = m.calls :=
    List.filter_eq_self.mpr fun c hc => by simpa using Nat.ne_of_lt (hat.id_lt hc)
  refine ⟨h.error, ?_, h.token_iff hat hn, ?_, ?_, fun t ht => ?_, ?_⟩
  · rw [token_begin, ← m.session_opened op, h.answered]
    rfl
  · rw [h.answered]
    exact hdisk
  · rw [h.answered]
    show (m.opened op).calls.filter _ = m.calls
    rw [hcalls, others]
  · rw [h.answered]
    exact m.isCancelled_opened op ht
  · rw [h.answered, ← hjournal]
    rfl

/-- A run that works is reached by a cancellation, or else has been cancelled, as long as its token is
stored and no run comes while the session is being prepared; and only so long. -/
theorem At.stoppable_iff {actions : List Action} (h : m.At disk p) (hn : m.Numbered)
    (hstored : m.session.token = some t) (hs : m.run? actions = some m') (ht : t ∈ m'.working) :
    m'.Stoppable t ↔ m.Along Orderly actions ∨ m'.isCancelled t = true := by
  have hlt := hn.token_lt t hstored
  obtain ⟨p', h', hcourse⟩ := h.course (P := Orderly) (I := Reached t) (J := Missed t)
    (fun hp ha => Reached.step hp ha) (fun hp ha => Missed.begins hp ha) (fun hp => Missed.step hp)
    ⟨hlt, fun _ => hstored⟩ hs
  rw [h'.stoppable ht]
  rcases hcourse with ⟨halong, hlt', hreached⟩ | ⟨hnot, hlt', hmissed⟩
  · rw [isCancelled_begin_cancel hlt']
    exact iff_of_true (.inl (hreached ht)) (.inl halong)
  · rw [isCancelled_begin_cancel hlt']
    simp only [hmissed, hnot, false_or]

theorem Numbered.ofRequest (request : Request) (disk : Disk) :
    (Machine.ofRequest request disk).Numbered :=
  ⟨nofun, nofun⟩

/-- An operation that is refused, when it is made or at any time after, leaves the session as it was but
for the token of a run that came while the session was being prepared. A run that worked when it was
made can be cancelled with the session as long as it works, provided no such run has come; after one,
only if it has been cancelled already. -/
theorem refused_untouched {request : Request} {disk : Disk} {before later : List Action}
    {m m' : Machine} {op : Operation} {e : Error}
    (hrun : (ofRequest request disk).run? before = some m)
    (hlater : (m.begin op).run? later = some m')
    (hanswer : .answered m.callCount (.error e) ∈ m'.journal) :
    m.Untouched op e (m.begin op) ∧
      ∀ t ∈ m.working, m.session.token = some t → t ∈ m'.working →
        (m'.Stoppable t ↔ m.Along Orderly (.call op :: later) ∨ m'.isCancelled t = true) := by
  obtain ⟨p, hat⟩ := at_of_run? hrun
  have numbered : m.Numbered := (Numbered.ofRequest request disk).run? hrun
  -- Calls are refused when they are made or never, so it does not matter when the answer is seen.
  have begun : .answered m.callCount (.error e) ∈ (m.begin op).journal :=
    refused_run? (by rw [callCount_begin]; exact Nat.lt_succ_self _) hlater hanswer
  have refused : m.Refused op e := by
    rcases refused_begin begun with hbefore | ⟨-, href⟩
    · exact absurd (numbered.refused_lt _ e hbefore) (Nat.lt_irrefl _)
    · exact href
  have whole : m.run? (.call op :: later) = some m' := hlater
  exact ⟨refused.untouched hat numbered,
    fun t _ hstored ht => hat.stoppable_iff numbered hstored whole ht⟩

/-- The call has been refused with the error. -/
def refuses (m : Machine) (call : Nat) (e : Error) : Bool :=
  m.journal.any fun x => match x with
    | .answered c (.error e') => c == call && e' == e
    | _ => false

theorem answered_of_refuses {call : Nat} {e : Error} (h : m.refuses call e = true) :
    .answered call (.error e) ∈ m.journal := by
  obtain ⟨x, hx, hmatch⟩ := List.any_eq_true.mp h
  split at hmatch
  · simp only [Bool.and_eq_true, beq_iff_eq] at hmatch
    obtain ⟨rfl, rfl⟩ := hmatch
    exact hx
  · cases hmatch

/-- One chapter, and preferences that the run waits for. -/
def preferredSeries : Request :=
  { seriesOf ["1"] with asksPreferences := true }

/-- Chapters are selected while the session waits for its preferences. -/
theorem refused_untouched_select :
    ∃ m m', (ofRequest preferredSeries {}).run? [.call (.run 0)] = some m ∧
      (m.begin (.select [])).run?
        [.receivePreferences 0 (.ok {}), .plan 0 fun _ => none] = some m' ∧
      (∃ e, m.Untouched (.select []) e (m.begin (.select []))) ∧ m'.Stoppable 0 := by
  have refuses : ((ofRequest preferredSeries {}).run? [.call (.run 0)]).any (fun m =>
      m.working == [0] && (m.session.token == some 0 && (m.callCount == 1 &&
      ((m.begin (.select [])).run?
        [.receivePreferences 0 (.ok {}), .plan 0 fun _ => none]).any fun m' =>
          m'.refuses 1 (.invalidState "set user selection" .loading) && m'.working == [0]))) =
            true := by
    decide +kernel
  obtain ⟨m, hrun, hrefuses⟩ := (Option.any_eq_true ..).mp refuses
  simp only [Bool.and_eq_true, beq_iff_eq, Option.any_eq_true] at hrefuses
  obtain ⟨hworking, htoken, hcount, m', hlater, hanswer, hworking'⟩ := hrefuses
  have answered := answered_of_refuses hanswer
  rw [← hcount] at answered
  obtain ⟨huntouched, hstop⟩ := refused_untouched hrun hlater answered
  have works : 0 ∈ m.working := by simp [hworking]
  have works' : 0 ∈ m'.working := by simp [hworking']
  refine ⟨m, m', hrun, hlater, ⟨_, huntouched⟩, (hstop 0 works htoken works').mpr (.inl ?_)⟩
  exact along_of_forall (by simp [Orderly, stores]) m

/-- A run is called while another waits for its preferences. It is refused, but its token is stored:
the session is cancelled later, and the first run completes. -/
theorem refused_run_unreached :
    ∃ m m', (ofRequest preferredSeries {}).run? [.call (.run 0)] = some m ∧
      m.session.token = some 0 ∧
      (m.begin (.run 0)).refuses 1 (.invalidState "prepare" .loading) = true ∧
      (m.begin (.run 0)).session.token = some 1 ∧
      (m.begin (.run 0)).run?
        ([.receivePreferences 0 (.ok {}), .plan 0 fun _ => none, .call .cancel] ++
          chapterOfOnePage ++ [.move 0 .finish, .released 0 (.ok ())]) = some m' ∧
      m'.session.cancelRequested = true ∧ m'.session.outcome = some (.completed 1) := by
  have completes : ((ofRequest preferredSeries {}).run? [.call (.run 0)]).any (fun m =>
      m.session.token == some 0 &&
      ((m.begin (.run 0)).refuses 1 (.invalidState "prepare" .loading) &&
      ((m.begin (.run 0)).session.token == some 1 &&
      ((m.begin (.run 0)).run?
        ([.receivePreferences 0 (.ok {}), .plan 0 fun _ => none, .call .cancel] ++
          chapterOfOnePage ++ [.move 0 .finish, .released 0 (.ok ())])).any fun m' =>
          m'.session.cancelRequested && m'.session.outcome == some (.completed 1)))) = true := by
    decide +kernel
  obtain ⟨m, hrun, hcompletes⟩ := (Option.any_eq_true ..).mp completes
  simp only [Bool.and_eq_true, beq_iff_eq, Option.any_eq_true] at hcompletes
  obtain ⟨htoken, hrefused, hstored, m', hlater, hrequested, houtcome⟩ := hcompletes
  exact ⟨m, m', hrun, htoken, hrefused, hstored, hlater, hrequested, houtcome⟩

end Machine
end Longbox
