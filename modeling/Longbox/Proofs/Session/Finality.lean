import Longbox.Proofs.Session.Rollback

/-! Whether the outcome of a session is final.

Once a session that is prepared has an outcome and no call waits, nothing changes it any more, and all
that is still done is to answer calls (`Settled.run?`). But a session that is cancelled before it is
prepared can still be prepared, and then it is released with another outcome if there is nothing to
download. `outcome_final` says when the outcome is final. -/
namespace Longbox
namespace Machine

/-- `m'` has come from `m`, which had ended with `o`: calls have been answered since, and no more. -/
structure Final (o : Outcome) (m m' : Machine) : Prop where
  outcome : m'.session.outcome = some o
  lifecycle : m'.session.lifecycle = m.session.lifecycle
  plan : m'.session.plan = m.session.plan
  disk : m'.disk = m.disk
  journal : ∃ answers, m'.journal = answers ++ m.journal ∧
    ∀ x ∈ answers, ∃ call r, x = .answered call r ∧ ∀ o', r = .ok (some o') → o' = o
  /-- A new run is answered at once. -/
  runs : ∀ parent, .answered m'.callCount (.ok (some o)) ∈ (m'.begin (.run parent)).journal

/-- The session has ended with `o`. A call that still waits makes it end so again. -/
structure Settled (o : Outcome) (m : Machine) : Prop where
  outcome : m.session.outcome = some o
  calls : ∀ c ∈ m.calls, o = .nothingToDownload ∧
    (c.stage = .releasing .emptyPlan ∨ c.stage = .releasing .emptySelection)

variable {disk : Disk} {m m' m'' : Machine} {o : Outcome} {a : Action}

theorem answered_run (ho : m.session.outcome = some o) (parent : Nat) :
    .answered m.callCount (.ok (some o)) ∈ (m.begin (.run parent)).journal := by
  simp [begin, run, ho, answer, note]

theorem Final.refl (ho : m.session.outcome = some o) : m.Final o m :=
  ⟨ho, rfl, rfl, rfl, ⟨[], rfl, nofun⟩, answered_run ho⟩

theorem Final.trans (h : m.Final o m') (h' : m'.Final o m'') : m.Final o m'' where
  outcome := h'.outcome
  lifecycle := h'.lifecycle.trans h.lifecycle
  plan := h'.plan.trans h.plan
  disk := h'.disk.trans h.disk
  journal := by
    obtain ⟨answers, hjournal, hanswers⟩ := h.journal
    obtain ⟨answers', hjournal', hanswers'⟩ := h'.journal
    refine ⟨answers' ++ answers, by rw [hjournal', hjournal, List.append_assoc], fun x hx => ?_⟩
    exact (List.mem_append.mp hx).elim (hanswers' x) (hanswers x)
  runs := h'.runs

theorem Keeps.final (k : m.Keeps m') (ho : m.session.outcome = some o) : m.Final o m' where
  outcome := k.outcome.trans ho
  lifecycle := k.lifecycle
  plan := k.plan
  disk := congrArg Ledger.disk k.ledger
  journal := ⟨[], k.journal, nofun⟩
  runs := answered_run (k.outcome.trans ho)

theorem Final.answer (h : m.Final o m') (id : Nat) {r : CallResult}
    (hr : ∀ o', r = .ok (some o') → o' = o) : m.Final o (m'.answer id r) where
  outcome := h.outcome
  lifecycle := h.lifecycle
  plan := h.plan
  disk := h.disk
  journal := by
    obtain ⟨answers, hjournal, hanswers⟩ := h.journal
    refine ⟨.answered id r :: answers, ?_, fun x hx => ?_⟩
    · show .answered id r :: m'.journal = _
      rw [hjournal, List.cons_append]
    rcases List.mem_cons.mp hx with rfl | hx
    · exact ⟨id, r, rfl, hr⟩
    · exact hanswers x hx
  runs := answered_run h.outcome

/-! ### A session that has ended -/

/-- A preparation that is over ends its call if there is an outcome. -/
theorem afterPreparation_ended (ho : m.session.outcome = some o) (id : Nat) (token : Option Nat) :
    ∃ r, m.afterPreparation id token = m.answer id r ∧ ∀ o', r = .ok (some o') → o' = o := by
  unfold afterPreparation
  cases token with
  | none => exact ⟨.ok none, rfl, nofun⟩
  | some t =>
    rw [ho]
    exact ⟨_, rfl, fun o' ho' => by cases ho'; rfl⟩

/-- When there is nothing to download, the release ends a call. -/
theorem released_empty (m : Machine) (id : Nat) (token : Option Nat) {reason : ReleaseReason}
    (hr : reason = .emptyPlan ∨ reason = .emptySelection) :
    ∃ r, m.released id token reason = (m.setOutcome .nothingToDownload).answer id r ∧
      ∀ o, r = .ok (some o) → o = .nothingToDownload := by
  rcases hr with rfl | rfl
  · exact afterPreparation_ended rfl id token
  · exact ⟨_, rfl, fun o ho => by cases ho; rfl⟩

theorem Settled.step? (h : m.Settled o) (hp : a = .call .prepare → m.session.isPrepared = true)
    (hs : m.step? a = some m') :
    m'.Settled o ∧ m'.session.isPrepared = m.session.isPrepared ∧ m.Final o m' := by
  rcases step?_cases hs with ⟨op, rfl, rfl⟩ | ⟨-, -, k⟩ | ⟨c, hc, -, hstep⟩
  · obtain ⟨m₁, r, k, he, hr⟩ :=
      begin_settled op (fun hop => hp (by rw [hop])) (.inl (by simp [h.outcome]))
    rw [he]
    refine ⟨⟨k.outcome.trans h.outcome, fun c hc => h.calls c ?_⟩, k.prepared,
      (k.final h.outcome).answer _ fun o' ho' => ?_⟩
    · exact k.calls ▸ (List.mem_filter.mp hc).1
    · exact Option.some.inj ((hr o' ho').symm.trans h.outcome)
  · exact ⟨⟨k.outcome.trans h.outcome, k.calls ▸ h.calls⟩, k.prepared, k.final h.outcome⟩
  · obtain ⟨rfl, hstage⟩ := h.calls c hc
    cases a with
    | released id result =>
      obtain ⟨reason, hreason, rfl⟩ : ∃ reason,
          (reason = .emptyPlan ∨ reason = .emptySelection) ∧
            m.released c.id c.token reason = m' := by
        rcases hstage with hstage | hstage <;> simp only [stepCall?, hstage] at hstep <;>
          exact ⟨_, by simp, Option.some.inj hstep⟩
      obtain ⟨r, he, hr⟩ := m.released_empty c.id c.token hreason
      have same : m.setOutcome .nothingToDownload = m := by
        unfold setOutcome
        rw [← h.outcome]
      rw [he, same]
      refine ⟨⟨h.outcome, fun c' hc' => h.calls c' (List.mem_filter.mp hc').1⟩, rfl,
        (Final.refl h.outcome).answer _ hr⟩
    | _ => rcases hstage with hstage | hstage <;> simp [stepCall?, hstage] at hstep

/-- Nothing more is done than to answer calls, if the session is prepared or nobody prepares it. -/
theorem Settled.run? {actions : List Action} (h : m.Settled o)
    (hp : m.session.isPrepared = true ∨ .call .prepare ∉ actions)
    (hs : m.run? actions = some m') : m.Final o m' := by
  induction actions generalizing m with
  | nil =>
    obtain rfl := Option.some.inj hs
    exact .refl h.outcome
  | cons a rest ih =>
    obtain ⟨m₁, hstep, hrest⟩ := Option.bind_eq_some_iff.mp hs
    obtain ⟨h₁, hprepared, hfinal⟩ := h.step? (fun ha => hp.resolve_right fun hnot =>
      hnot (ha ▸ List.mem_cons_self ..)) hstep
    refine hfinal.trans (ih h₁ ?_ hrest)
    rw [hprepared]
    exact hp.imp_right fun hnot hmem => hnot (List.mem_cons_of_mem _ hmem)

/-! ### A session that has an outcome and can still be prepared -/

theorem outcome_afterPreparation (ho : m.session.outcome = some o) (id : Nat)
    (token : Option Nat) : (m.afterPreparation id token).session.outcome = some o := by
  obtain ⟨r, he, -⟩ := afterPreparation_ended ho id token
  rw [he]
  exact ho

/-- A new call does not change an outcome. -/
theorem outcome_begin (ho : m.session.outcome = some o) (op : Operation) :
    (m.begin op).session.outcome = some o := by
  cases op with
  | prepare =>
    simp only [begin, prepare]
    split
    · refine outcome_afterPreparation ?_ _ _
      exact ho
    · split
      · exact ho
      · split
        · exact (outcome_setLifecycle ..).trans ho
        · exact (outcome_setLifecycle ..).trans ho
  | run parent =>
    simp only [begin, run, ho]
    exact ho
  | select ids =>
    simp only [begin, select]
    split <;> exact ho
  | cancel =>
    have kept := Keeps.cancelStored { m with
      callCount := m.callCount + 1
      session := { m.session with cancelRequested := true } }
    exact kept.outcome.trans ho

/-- Before a download, only the release of a session with nothing to download changes an outcome. -/
theorem Fresh.outcome_step? (h : m.Fresh disk) (ho : m.session.outcome = some o)
    (hs : m.step? a = some m') :
    m'.session.outcome = some o ∨ m'.session.outcome = some .nothingToDownload := by
  rcases step?_cases hs with ⟨op, -, rfl⟩ | ⟨-, -, k⟩ | ⟨c, hc, -, hstep⟩
  · exact .inl (outcome_begin ho op)
  · exact .inl (k.outcome.trans ho)
  · rcases h.stepCall?_cases hc hstep with ⟨-, preferences, rfl⟩ | ⟨-, volumes, rfl⟩ |
      ⟨reason, empty, -, rfl⟩
    · exact .inl ho
    · unfold Machine.makePlan
      dsimp only
      split
      · exact .inl ((outcome_setLifecycle ..).trans ho)
      · refine .inl (outcome_afterPreparation ?_ _ _)
        exact (outcome_setLifecycle ..).trans ho
    · obtain ⟨r, he, -⟩ := m.released_empty c.id c.token empty
      rw [he]
      exact .inr rfl

/-- The session ended as cancelled, and perhaps it had nothing to download. -/
def EndsAs (o : Outcome) (m : Machine) : Prop :=
  m.session.outcome = some o ∨ o = .cancelled ∧ m.session.outcome = some .nothingToDownload

theorem EndsAs.step {p p' : Phase} (ht : Passes disk m a m' p p') (h : m.EndsAs o) :
    m'.EndsAs o := by
  have running {c : Call} (hr : m.Runs c) : False := by
    rcases h with ho | ⟨-, ho⟩ <;> simp [hr.outcome] at ho
  have hat := ht.before
  cases p with
  | fresh =>
    rcases h with ho | ⟨rfl, ho⟩
    · rcases hat.outcome_step? ho ht.step with ho' | ho'
      · exact .inl ho'
      · have ends := hat.idle.outcome o ho
        cases o with
        | cancelled => exact .inr ⟨rfl, ho'⟩
        | nothingToDownload => exact .inl ho'
        | completed | aborted => cases ends
    · exact .inr ⟨rfl, (hat.outcome_step? ho ht.step).elim id id⟩
  | ended o' =>
    have hat' := ht.after
    cases ht.transition with
    | rests =>
      have same : m'.session.outcome = m.session.outcome := hat'.ended.trans hat.ended.symm
      unfold EndsAs
      rw [same]
      exact h
  | downloading id d => exact (running hat.runs).elim
  | removing id token cause left => exact (running hat).elim
  | releasing id token reason => exact (running hat.1).elim

/-! ### When an outcome is final -/

theorem call?_of_calls {c : Call} (h : m.calls = [c]) : m.call? c.id = some c := by
  simp [call?, h]

theorem lifecycle_begin_prepare (hp : m.session.isPrepared = false)
    (hl : m.session.lifecycle = .queued) : (m.begin .prepare).session.lifecycle = .loading := by
  simp only [begin, prepare, hp, hl]
  split
  · contradiction
  · split
    · contradiction
    · split <;> exact lifecycle_setLifecycle ..

theorem lifecycle_makePlan (ho : m.session.outcome = some o) (id : Nat) (token : Option Nat)
    (volumes : Archive → Option String) :
    (m.makePlan id token volumes).session.lifecycle ≠ .loading := by
  unfold makePlan
  generalize hm : { m with session := m.session.planned m.disk volumes } = m₁
  have ho₁ (l : Lifecycle) : (m₁.setLifecycle l).session.outcome = some o := by
    rw [outcome_setLifecycle, ← hm]
    exact ho
  dsimp only
  split
  · simp [release, suspend, note, Session.note]
  · obtain ⟨r, he, -⟩ := afterPreparation_ended (ho₁ m₁.session.plannedLifecycle) id token
    rw [he]
    show (m₁.setLifecycle _).session.lifecycle ≠ _
    rw [lifecycle_setLifecycle]
    unfold Session.plannedLifecycle
    split <;> simp

/-- A session that has an outcome and is not prepared can still be. -/
theorem Fresh.prepares_on (h : m.Fresh disk) (ho : m.session.outcome = some o)
    (hp : m.session.isPrepared = false) :
    ∃ after m', m.run? after = some m' ∧ m'.session.lifecycle ≠ m.session.lifecycle := by
  have plans {m : Machine} {c : Call} (hc : m.calls = [c]) (hs : c.stage = .planning) :
      m.step? (.plan c.id fun _ => none) = some (m.makePlan c.id c.token fun _ => none) := by
    simp [Machine.step?, Machine.stepCall?, call?_of_calls hc, hs]
  cases h.prepares with
  | queued _ hl =>
    refine ⟨[.call .prepare], m.begin .prepare, rfl, ?_⟩
    simp [lifecycle_begin_prepare hp hl, hl]
  | @loading c _ hl hc hs =>
    rw [hl]
    rcases hs with hs | hs
    · have listed : m.step? (.receivePreferences c.id (.error .cancelled)) =
          some (m.listCatalog c.id c.token none) := by
        simp [Machine.step?, Machine.stepCall?, call?_of_calls hc, hs, Except.toOption]
      have alone : (m.listCatalog c.id c.token none).calls = [⟨c.id, c.token, .planning⟩] := by
        simp [Machine.listCatalog, Machine.suspend, note, hc]
      refine ⟨[.receivePreferences c.id (.error .cancelled), .plan c.id fun _ => none],
        (m.listCatalog c.id c.token none).makePlan c.id c.token fun _ => none, ?_, ?_⟩
      · simp [Machine.run?, listed, plans alone rfl]
      · have listed_outcome : (m.listCatalog c.id c.token none).session.outcome = some o := ho
        exact lifecycle_makePlan listed_outcome _ _ _
    · refine ⟨[.plan c.id fun _ => none], m.makePlan c.id c.token fun _ => none, ?_,
        lifecycle_makePlan ho _ _ _⟩
      simp [Machine.run?, plans hc hs]
  | prepared hp' =>
    rw [hp] at hp'
    cases hp'

/-- The release of a session with nothing to download is then its outcome. -/
theorem Fresh.releases_on (h : m.Fresh disk) (hp : m.session.isPrepared = true)
    (hc : m.calls ≠ []) :
    ∃ after m', m.run? after = some m' ∧ m'.session.outcome = some .nothingToDownload := by
  obtain ⟨c, hmem⟩ := List.exists_mem_of_ne_nil _ hc
  have found : (m.call? c.id).isSome = true := List.find?_isSome.mpr ⟨c, hmem, by simp⟩
  obtain ⟨c', hc'⟩ := Option.isSome_iff_exists.mp found
  obtain ⟨hmem', -⟩ := mem_of_call? hc'
  obtain ⟨reason, hreason, hstage⟩ : ∃ reason,
      (reason = .emptyPlan ∨ reason = .emptySelection) ∧ c'.stage = .releasing reason := by
    rcases h.waits hmem' with hs | hs | hs
    · have unprepared := (h.alone hmem' hs).1
      rw [hp] at unprepared
      cases unprepared
    · exact ⟨_, .inl rfl, hs⟩
    · exact ⟨_, .inr rfl, hs⟩
  have released : m.step? (.released c.id (.ok ())) =
      some (m.released c'.id c'.token reason) := by
    simp [Machine.step?, Machine.stepCall?, hc', hstage]
  obtain ⟨r, he, -⟩ := m.released_empty c'.id c'.token hreason
  refine ⟨[.released c.id (.ok ())], m.released c'.id c'.token reason, ?_, ?_⟩
  · simp [Machine.run?, released]
  · rw [he]
    rfl

/-- Only a session that does not download has an outcome. -/
theorem At.not_running {p : Phase} (h : m.At disk p) (ho : m.session.outcome = some o) :
    m.Fresh disk ∨ m.Over o := by
  by_cases hp : p = .fresh
  · subst hp
    exact .inl h
  · obtain rfl := h.eq_ended hp ho
    exact .inr h

theorem At.settled {p : Phase} (h : m.At disk p) (ho : m.session.outcome = some o)
    (hc : m.calls = [] ∨ m.session.isPrepared = true ∧ o = .nothingToDownload) : m.Settled o := by
  refine ⟨ho, fun c hmem => ?_⟩
  rcases hc with hc | ⟨hp, rfl⟩
  · simp [hc] at hmem
  · rcases h.not_running ho with hfresh | hover
    · refine ⟨rfl, (hfresh.waits hmem).resolve_left fun hs => ?_⟩
      have unprepared := (hfresh.alone hmem hs).1
      rw [hp] at unprepared
      cases unprepared
    · simp [hover.calls] at hmem

/-- The outcome of a session is final, whatever happens, just if it is prepared and either no call
waits or there was nothing to download. As long as nobody prepares it, it is final if no call waits. In
any case an outcome other than of being cancelled stays, and a cancelled session can only turn out to
have nothing to download. -/
theorem outcome_final {request : Request} {disk : Disk} {before : List Action} {m : Machine}
    {o : Outcome} (hrun : (ofRequest request disk).run? before = some m)
    (ho : m.session.outcome = some o) :
    ((∀ after m', m.run? after = some m' → m.Final o m') ↔
        m.session.isPrepared = true ∧ (m.calls = [] ∨ o = .nothingToDownload)) ∧
      (m.calls = [] → ∀ after m', .call .prepare ∉ after → m.run? after = some m' →
        m.Final o m') ∧
      ∀ after m', m.run? after = some m' → m'.session.outcome = some o ∨
        o = .cancelled ∧ m'.session.outcome = some .nothingToDownload := by
  obtain ⟨p, hat⟩ := at_of_run? hrun
  refine ⟨⟨fun h => ?_, fun ⟨hp, hc⟩ after m' hs => ?_⟩, fun hc after m' hnot hs => ?_,
    fun after m' hs => ?_⟩
  · rcases hat.not_running ho with hfresh | hover
    · cases hp : m.session.isPrepared with
      | false =>
        obtain ⟨after, m', hs, hne⟩ := hfresh.prepares_on ho hp
        exact absurd (h after m' hs).lifecycle hne
      | true =>
        refine ⟨rfl, Classical.or_iff_not_imp_left.mpr fun hc => ?_⟩
        obtain ⟨after, m', hs, hnothing⟩ := hfresh.releases_on hp hc
        exact Option.some.inj ((h after m' hs).outcome.symm.trans hnothing)
    · exact ⟨hover.prepared, .inl hover.calls⟩
  · exact (hat.settled ho (hc.imp_right fun ho => ⟨hp, ho⟩)).run? (.inl hp) hs
  · exact (hat.settled ho (.inl hc)).run? (.inr hnot) hs
  · obtain ⟨-, -, hends⟩ := hat.always (I := fun m _ => m.EndsAs o) EndsAs.step (.inl ho) hs
    exact hends

theorem outcome_final_oneChapter :
    ∃ m, (ofRequest (seriesOf ["1"]) {}).run?
        (begun ++ chapterOfOnePage ++ [.move 0 .finish, .released 0 (.ok ())]) = some m ∧
      ∀ after m', m.run? after = some m' → m.Final (.completed 1) m' := by
  have ends : ((ofRequest (seriesOf ["1"]) {}).run?
      (begun ++ chapterOfOnePage ++ [.move 0 .finish, .released 0 (.ok ())])).any (fun m =>
        m.session.outcome == some (.completed 1) && (m.session.isPrepared && m.calls.isEmpty)) =
          true := by
    decide +kernel
  obtain ⟨m, hrun, hends⟩ := (Option.any_eq_true ..).mp ends
  simp only [Bool.and_eq_true, beq_iff_eq, List.isEmpty_iff] at hends
  obtain ⟨houtcome, hprepared, hcalls⟩ := hends
  exact ⟨m, hrun, (outcome_final hrun houtcome).1.mpr ⟨hprepared, .inl hcalls⟩⟩

/-- A session is cancelled before it is run, and the run answers so. When it is prepared after that, it
has nothing to download: its stage changes, the client is asked to release it, and the next run answers
another outcome. -/
theorem cancelled_outcome_changes :
    ∃ m m', (ofRequest (seriesOf []) {}).run? [.call .cancel, .call (.run 0)] = some m ∧
      m.session.outcome = some .cancelled ∧ m.session.lifecycle = .queued ∧
      m.notices.length = 0 ∧ m.calls = [] ∧
      m.run? [.call .prepare, .plan 2 fun _ => none, .released 2 (.ok ()), .call (.run 0)] =
        some m' ∧
      m'.session.outcome = some .nothingToDownload ∧ m'.session.lifecycle = .waiting ∧
      m'.notices.length = 1 ∧ m'.tells .nothingToDownload = true := by
  have changes : ((ofRequest (seriesOf []) {}).run? [.call .cancel, .call (.run 0)]).any (fun m =>
      m.session.outcome == some .cancelled && (m.session.lifecycle == .queued &&
      (m.notices.length == 0 && (m.calls == [] &&
      (m.run? [.call .prepare, .plan 2 fun _ => none, .released 2 (.ok ()), .call (.run 0)]).any
        fun m' => m'.session.outcome == some .nothingToDownload &&
          (m'.session.lifecycle == .waiting && (m'.notices.length == 1 &&
          m'.tells .nothingToDownload)))))) = true := by
    decide +kernel
  obtain ⟨m, hrun, hchanges⟩ := (Option.any_eq_true ..).mp changes
  simp only [Bool.and_eq_true, beq_iff_eq, Option.any_eq_true] at hchanges
  obtain ⟨hcancelled, hqueued, hsilent, hcalls, m', hlater, hnothing⟩ := hchanges
  exact ⟨m, m', hrun, hcancelled, hqueued, hsilent, hcalls, hlater, hnothing⟩

end Machine
end Longbox
