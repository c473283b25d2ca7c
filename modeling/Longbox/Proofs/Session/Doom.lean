import Longbox.Proofs.Session.Working

/-! Sessions that will not complete.

While a run prepares the session, and once the session has an outcome or nothing to download, no other
run comes to work (`Machine.Engaged`). If the runs that work are cancelled then, none of them completes
and nothing of a download is begun any more (`Machine.Doomed`). -/
namespace Longbox

/-- The call prepares the session, has found it empty or downloads. -/
def Call.isUnderway (c : Call) : Bool :=
  match c.stage with
  | .preferences | .planning | .downloading _ | .releasing .emptyPlan
  | .releasing .emptySelection => true
  | .removing .. | .releasing _ => false

namespace Machine

variable {disk : Disk} {m m' : Machine} {id t : Nat} {token : Option Nat} {a : Action}
  {p p' : Phase}

/-- The session has an outcome or nothing to download, or a run is preparing it: no other run comes to
work. -/
def Engaged (m : Machine) : Prop :=
  m.session.outcome.isSome = true ∨
    (m.session.isPrepared = true ∧ m.terms.toDownload = []) ∨
    m.session.isPrepared = false ∧ ∃ t, t ∈ m.working

theorem Engaged.of_eq (h : m.Engaged) (ho : m'.session.outcome = m.session.outcome)
    (hp : m'.session.isPrepared = m.session.isPrepared) (hd : m'.terms = m.terms)
    (hw : ∀ t ∈ m.working, t ∈ m'.working) : m'.Engaged := by
  unfold Engaged
  rw [ho, hp, hd]
  exact h.imp_right (Or.imp_right (And.imp_right fun ⟨t, ht⟩ => ⟨t, hw t ht⟩))

theorem TakesUp.isRunning {d : Download} (h : m.TakesUp id d m')
    (hr : m.session.isRunning = true) : m'.session.isRunning = true := by
  cases h with
  | begins => exact hr
  | closes | fails => simp [Machine.suspend, Machine.cancelToken, Session.isRunning]

theorem mem_working_suspend {c : Call} (h : t ∈ (m.suspend c).working) :
    c.workToken? = some t ∨ t ∈ m.working := by
  obtain ⟨c', hc, hwork⟩ := mem_working.mp h
  rcases List.mem_cons.mp hc with rfl | hc
  · exact .inl hwork
  · exact .inr (mem_working.mpr ⟨c', (List.mem_filter.mp hc).1, hwork⟩)

theorem mem_working_answer {answered : Nat} {r : CallResult}
    (h : t ∈ (m.answer answered r).working) : t ∈ m.working := by
  obtain ⟨c, hc, hwork⟩ := mem_working.mp h
  exact mem_working.mpr ⟨c, (List.mem_filter.mp hc).1, hwork⟩

theorem mem_working_release {deleteFiles : Bool} {reason : ReleaseReason}
    (h : t ∈ (m.release id token deleteFiles reason).working) : t ∈ m.working := by
  rcases mem_working_suspend h with hwork | hwork
  · cases hwork
  · exact hwork

@[simp] theorem working_setLifecycle (m : Machine) (l : Lifecycle) :
    (m.setLifecycle l).working = m.working := by
  rw [Machine.working, calls_setLifecycle, Machine.working]

/-- An engaged session that nobody has come to prepare has an outcome. -/
theorem Engaged.outcome (h : m.Engaged) (hp : m.session.isPrepared = false) (hc : m.calls = []) :
    m.session.outcome.isSome = true := by
  rcases h with ho | ⟨hp', -⟩ | ⟨-, t, ht⟩
  · exact ho
  · rw [hp] at hp'
    cases hp'
  · simp [Machine.working, hc] at ht

/-- No run begins that is to work on a session with an outcome. -/
theorem Begins.token_eq_none {op : Operation} (hb : m.Begins op token)
    (ho : m.session.outcome.isSome = true) : token = none := by
  cases hb with
  | prepares => rfl
  | runs hs => simp [stores, Option.isNone_eq_false_iff.mpr ho] at hs

/-- A call comes to wait that is no run. -/
theorem Engaged.suspend (ho : m'.session.outcome.isSome = true) (hcalls : m'.calls = m.calls)
    {c : Call} (hc : c.workToken? = none) :
    (m'.suspend c).Engaged ∧ ∀ t ∈ (m'.suspend c).working, t ∈ m.working := by
  refine ⟨.inl ho, fun t ht => ?_⟩
  rcases mem_working_suspend ht with hwork | hwork
  · rw [hc] at hwork
    cases hwork
  · rwa [Machine.working, hcalls, ← Machine.working] at hwork

/-- The client is asked to release a session with nothing to download. -/
theorem Engaged.release {deleteFiles : Bool} {reason : ReleaseReason}
    (hp : m.session.isPrepared = true) (hd : m.terms.toDownload = []) (l : Lifecycle) :
    ((m.setLifecycle l).release id token deleteFiles reason).Engaged ∧
      ∀ t ∈ ((m.setLifecycle l).release id token deleteFiles reason).working, t ∈ m.working := by
  refine ⟨.inr (.inl ⟨?_, ?_⟩), fun t ht => ?_⟩
  · show (m.setLifecycle l).session.isPrepared = true
    rw [isPrepared_setLifecycle, hp]
  · show (m.setLifecycle l).terms.toDownload = []
    rw [toDownload_setLifecycle, hd]
  · have hwork := mem_working_release ht
    rwa [working_setLifecycle] at hwork

/-- Without an outcome and with something to download, the call goes on to download. -/
theorem Engaged.of_proceeds (hfresh : m'.Fresh disk) (hp : m.Proceeds id token m')
    (hprepared : m.session.isPrepared = true)
    (ht : token = none → m.session.outcome.isSome = true ∨ m.terms.toDownload = []) :
    m'.Engaged ∧ ∀ t ∈ m'.working, t ∈ m.working := by
  cases hp with
  | answers hnone =>
    refine ⟨?_, fun t => mem_working_answer⟩
    rcases hnone with rfl | hsome
    · exact (ht rfl).imp_right fun hd => .inl ⟨hprepared, hd⟩
    · exact .inl hsome
  | releases ho hd => exact Engaged.release (m := m.withSelection) hprepared hd .waiting
  | opens =>
    have downloads : (m.withSelection.setLifecycle .downloading).session.isRunning = true := by
      simp [Session.isRunning]
    have running := hfresh.isRunning
    rw [(takesUp_nextChapter ..).isRunning downloads] at running
    cases running

/-- An engaged session stays so, and no other run comes to work. -/
theorem Fresh.engaged (h : m.Fresh disk) (h' : m'.Fresh disk) (hp : m.Prelude a m')
    (hm : m.Engaged) : m'.Engaged ∧ ∀ t ∈ m'.working, t ∈ m.working := by
  have new : ∀ c ∈ m.calls, c.id ≠ m.callCount := fun c hc => Nat.ne_of_lt (h.knows c hc).id_lt
  have same {m₁ : Machine} (k : m.Keeps m₁) : m₁.working = m.working := by
    rw [Machine.working, k.calls, Machine.working]
  -- A new call that comes to prepare the session finds an outcome, so it is no run.
  have comes {op : Operation} {token : Option Nat} (hb : m.Begins op token)
      (hpr : m.session.isPrepared = false) (hl : m.session.lifecycle = .queued) :
      token = none ∧ ((m.opened op).setLifecycle .loading).session.outcome.isSome = true ∧
        ((m.opened op).setLifecycle .loading).calls = m.calls := by
    have ho := hm.outcome hpr (h.calls_eq_nil hpr hl)
    have k := m.keeps_opened op
    refine ⟨hb.token_eq_none ho, ?_, (calls_setLifecycle ..).trans k.calls⟩
    rw [outcome_setLifecycle, k.outcome]
    exact ho
  cases hp with
  | rests _ k =>
    rw [same k]
    exact ⟨hm.of_eq k.outcome k.prepared k.terms fun t ht => same k ▸ ht, fun t ht => ht⟩
  | @answers op m₁ r k =>
    refine ⟨hm.of_eq k.outcome k.prepared k.terms fun t ht => ?_, fun t ht => ?_⟩
    · obtain ⟨c, hc, hwork⟩ := mem_working.mp ht
      refine mem_working.mpr ⟨c, List.mem_filter.mpr ⟨k.calls ▸ hc, ?_⟩, hwork⟩
      simpa using new c hc
    · exact same k ▸ mem_working_answer ht
  | @cancels parent =>
    refine ⟨.inl rfl, fun t ht => ?_⟩
    have hwork : t ∈ ((m.opened (.run parent)).setOutcome .cancelled).working :=
      mem_working_answer ht
    exact same (m.keeps_opened (.run parent)) ▸ hwork
  | @asks op token hb hpr hl _ | @lists op token hb hpr hl _ =>
    obtain ⟨rfl, ho, hcalls⟩ := comes hb hpr hl
    exact Engaged.suspend ho hcalls rfl
  | @proceeds op token m' hb hpr hproceeds =>
    have k := m.keeps_opened op
    have prepared := k.prepared.trans hpr
    have ends := Engaged.of_proceeds h' hproceeds prepared fun _ => by
      rw [k.outcome, k.terms]
      rcases hm with ho | ⟨-, hd⟩ | ⟨hpr', -⟩
      · exact .inl ho
      · exact .inr hd
      · rw [hpr] at hpr'
        cases hpr'
    rwa [same k] at ends
  | @prefers c a _ hc hs preferences =>
    obtain ⟨hpr, -, hcalls⟩ := h.alone hc (.inl hs)
    have calls : (m.listCatalog c.id c.token preferences).calls = [⟨c.id, c.token, .planning⟩] := by
      simp [Machine.listCatalog, Machine.suspend, Machine.note, hcalls]
    have listed : (m.listCatalog c.id c.token preferences).working = m.working := by
      rw [Machine.working, Machine.working, calls, hcalls, List.filterMap_cons, List.filterMap_cons,
        workToken?_of_prepares (.inl hs)]
      rfl
    rw [listed]
    exact ⟨hm.of_eq rfl rfl rfl fun t ht => listed ▸ ht, fun t ht => ht⟩
  | @plansNothing c a volumes _ hc hs hd =>
    exact Engaged.release (m := m.withPlan volumes) rfl hd .waiting
  | @plans c a volumes m' _ hc hs _ hproceeds =>
    obtain ⟨hpr, -, hcalls⟩ := h.alone hc (.inr hs)
    have ends := Engaged.of_proceeds h' hproceeds (isPrepared_setLifecycle ..) fun hnone => by
      refine .inl ?_
      rw [outcome_setLifecycle]
      rcases hm with ho | ⟨hpr', -⟩ | ⟨-, t, ht⟩
      · exact ho
      · rw [hpr] at hpr'
        cases hpr'
      · -- The one call that waits would be no run.
        simp [Machine.working, hcalls, workToken?_of_prepares (.inr hs), hnone] at ht
    rwa [working_setLifecycle] at ends
  | released => exact ⟨.inl rfl, fun t => mem_working_answer⟩

/-- Only a call that has waited brings an engaged session to download. -/
theorem Fresh.engaged_opens (h : m.Fresh disk) (hp : m.Prelude a m') (hm : m.Engaged)
    (hr : m'.session.isRunning = true) : a.call?.isSome = true := by
  have rests {m₁ : Machine} (hl : m₁.session.lifecycle = m.session.lifecycle)
      (hr : m₁.session.isRunning = true) : False := by
    have running := h.isRunning
    unfold Session.isRunning at hr running
    rw [hl, running] at hr
    cases hr
  cases hp with
  | rests _ k | answers k => exact (rests k.lifecycle hr).elim
  | @cancels parent => exact (rests (m.keeps_opened (.run parent)).lifecycle hr).elim
  | asks | lists =>
    have loading : Session.isRunning _ = true := hr
    simp [Session.isRunning, Machine.suspend, Machine.note, Session.note, Machine.listCatalog]
      at loading
  | @proceeds op token m' hb hpr hproceeds =>
    have k := m.keeps_opened op
    cases hproceeds with
    | answers => exact (rests k.lifecycle hr).elim
    | releases =>
      simp [Session.isRunning, Machine.release, Machine.suspend, Machine.note, Session.note] at hr
    | opens ho hd =>
      rw [k.outcome] at ho
      rcases hm with hsome | ⟨-, hnil⟩ | ⟨hpr', -⟩
      · simp [ho] at hsome
      · exact absurd (toDownload_withSelection (k.terms ▸ hnil)) hd
      · rw [hpr] at hpr'
        cases hpr'
  | prefers ha | plansNothing ha | plans ha | released ha => rw [ha, Option.isSome_some]

/-- No download will complete any more, or begin anything. -/
def Doomed (m : Machine) : Phase → Prop
  | .fresh => m.Engaged ∧ ∀ t ∈ m.working, m.isCancelled t = true
  | .downloading _ d => m.isCancelled d.token = true
  | .removing .. => True
  | .releasing _ _ reason => ∀ n, reason ≠ .finished n
  | .ended o => ∀ n, o ≠ .completed n

theorem Doomed.step (h : Passes disk m a m' p p') (hm : m.Doomed p) : m'.Doomed p' := by
  have before := h.before
  have after := h.after
  have fresh (before : m.Fresh disk) (after : m'.Fresh disk) (hm : m.Doomed .fresh) :
      m'.Doomed .fresh := by
    obtain ⟨engaged, works⟩ := before.engaged after (before.prelude h.step) hm.1
    exact ⟨engaged, fun t ht => h.works.cancelled t (hm.2 t (works t ht))⟩
  cases h.transition with
  | prepares => exact fresh before after hm
  | @opens id d =>
    have hwork : d.token ∈ m'.working := by simp [after.working]
    rcases h.works.working d.token hwork with hwork | ⟨⟨op, rfl, -⟩, -⟩
    · exact h.works.cancelled _ (hm.2 _ hwork)
    · cases before.engaged_opens (before.prelude h.step) hm.1 after.runs.running
  | works _ _ htoken hf => exact hf.cancelled _ (htoken ▸ hm)
  | rests _ hf =>
    cases p with
    | fresh => exact fresh before after hm
    | downloading => exact hf.cancelled _ hm
    | removing => trivial
    | releasing | ended => exact hm
  | fails | removes => trivial
  | stops | asks => nofun
  | finishes _ _ _ hr =>
    rw [show m.isCancelled _ = true from hm] at hr
    cases hr
  | @ends _ _ reason =>
    cases reason with
    | finished n => exact absurd rfl (hm n)
    | _ => nofun

theorem isUnderway_of_workToken? {c : Call} (h : c.workToken? = some t) : c.isUnderway = true := by
  unfold Call.workToken? at h
  unfold Call.isUnderway
  cases hs : c.stage with
  | preferences | planning | downloading => rfl
  | removing | releasing =>
    rw [hs] at h
    cases h

theorem At.underway_cases (h : m.At disk p) {c : Call} (hc : c ∈ m.calls) (hu : c.isUnderway = true)
    (ht : c.token = some t) : p = .fresh ∧ m.Engaged ∨ ∃ id d, p = .downloading id d := by
  cases p with
  | fresh =>
    refine .inl ⟨rfl, ?_⟩
    rcases Fresh.waits h hc with hs | hs
    · exact .inr (.inr ⟨(Fresh.alone h hc hs).1, t,
        mem_working.mpr ⟨c, hc, (workToken?_of_prepares hs).trans ht⟩⟩)
    · exact .inr (.inl (Fresh.empty_of_releasing h hc hs))
  | downloading id d => exact .inr ⟨id, d, rfl⟩
  | removing id token cause left =>
    obtain rfl := Runs.eq_of_mem h hc
    cases hu
  | releasing id token reason =>
    obtain rfl := h.1.eq_of_mem hc
    have ends := h.2
    cases reason with
    | emptyPlan | emptySelection => cases ends
    | finished | failed => cases hu
  | ended o => simp [h.calls] at hc

/-- A session whose run is underway is doomed when that run is cancelled. -/
theorem Doomed.begins (h : Passes disk m a m' p p') (ha : a.call? = none)
    (hp : p = .fresh ∧ m.Engaged ∨ ∃ id d, p = .downloading id d)
    (hcancel : ∀ t ∈ m.working, m'.isCancelled t = true) : m'.Doomed p' := by
  have before := h.before
  have after := h.after
  rcases hp with ⟨rfl, hm⟩ | ⟨id, d, rfl⟩
  · have prelude := before.prelude h.step
    cases h.transition with
    | prepares | rests =>
      obtain ⟨engaged, works⟩ := Fresh.engaged before after prelude hm
      exact ⟨engaged, fun t ht => hcancel t (works t ht)⟩
    | opens =>
      have waited := Fresh.engaged_opens before prelude hm after.runs.running
      rw [ha] at waited
      cases waited
  · have works : d.token ∈ m.working := by simp [before.working]
    cases h.transition with
    | rests => exact hcancel d.token works
    | works haction | fails _ _ _ _ _ haction | stops _ _ _ _ _ haction
    | finishes _ _ _ _ _ _ haction =>
      subst haction
      cases ha

end Machine
end Longbox
