import Longbox.Proofs.Session.Inversion

/-! Which runs work.

A run works while it prepares the session or downloads, and no two do at once (`At.working_unique`). A
run comes to work with the token that it stores, and hands it on until it downloads (`Passes.works`). -/
namespace Longbox

/-- The token of a run that prepares or downloads. -/
def Call.workToken? (c : Call) : Option Nat :=
  match c.stage with
  | .preferences | .planning | .downloading _ => c.token
  | .removing .. | .releasing _ => none

namespace Machine

/-- The tokens of the runs that prepare or download. -/
def working (m : Machine) : List Nat :=
  m.calls.filterMap Call.workToken?

theorem mem_working {m : Machine} {t : Nat} :
    t ∈ m.working ↔ ∃ c ∈ m.calls, c.workToken? = some t :=
  List.mem_filterMap

theorem token_of_workToken? {c : Call} {t : Nat} (h : c.workToken? = some t) :
    c.token = some t := by
  unfold Call.workToken? at h
  split at h
  · exact h
  · exact h
  · exact h
  · cases h
  · cases h

theorem workToken?_of_prepares {c : Call} (h : c.stage = .preferences ∨ c.stage = .planning) :
    c.workToken? = c.token := by
  rcases h with h | h <;> rw [Call.workToken?, h]

variable {disk : Disk} {m m' : Machine} {id t : Nat} {token : Option Nat} {a : Action}
  {p p' : Phase}

/-! ### Who works -/

/-- A run that works prepares the session or downloads. -/
theorem At.working_cases (h : m.At disk p) (ht : t ∈ m.working) :
    (p = .fresh ∧ m.session.lifecycle = .loading ∧ ∃ c, m.calls = [c] ∧ c.token = some t ∧
        (c.stage = .preferences ∨ c.stage = .planning)) ∨
      ∃ id d, p = .downloading id d ∧ d.token = t := by
  obtain ⟨c, hc, hwork⟩ := mem_working.mp ht
  have htoken := token_of_workToken? hwork
  cases p with
  | fresh =>
    rcases Fresh.waits h hc with hs | hs | hs
    · obtain ⟨-, hl, hcalls⟩ := Fresh.alone h hc hs
      exact .inl ⟨rfl, hl, c, hcalls, htoken, hs⟩
    · simp [Call.workToken?, hs] at hwork
    · simp [Call.workToken?, hs] at hwork
  | downloading id d =>
    obtain rfl := h.runs.eq_of_mem hc
    exact .inr ⟨id, d, rfl, Option.some.inj htoken⟩
  | removing id token cause left =>
    obtain rfl := Runs.eq_of_mem h hc
    cases hwork
  | releasing id token reason =>
    obtain rfl := h.1.eq_of_mem hc
    cases hwork
  | ended o => simp [h.calls] at hc

/-- No two runs work at once. -/
theorem At.working_unique {t' : Nat} (h : m.At disk p) (ht : t ∈ m.working) (ht' : t' ∈ m.working) :
    t' = t := by
  rcases h.working_cases ht with ⟨rfl, -, c, hc, htoken, -⟩ | ⟨id, d, rfl, rfl⟩
  · obtain ⟨c', hc', hwork⟩ := mem_working.mp ht'
    rw [hc, List.mem_singleton] at hc'
    have hwork_token := token_of_workToken? hwork
    rw [hc', htoken] at hwork_token
    exact (Option.some.inj hwork_token).symm
  · rcases h.working_cases ht' with ⟨hp, -⟩ | ⟨id', d', hp, rfl⟩
    · cases hp
    · cases hp
      rfl

theorem Downloads.working {d : Download} (h : m.Downloads id d) : m.working = [d.token] := by
  simp [Machine.working, h.runs.calls, Call.workToken?]

/-! ### Calls that prepare hand on their token -/

/-- Only the call with this number and token has come to wait, and what is cancelled stays cancelled. -/
structure Hands (m : Machine) (id : Nat) (token : Option Nat) (m' : Machine) : Prop where
  calls : ∀ c ∈ m'.calls, c ∈ m.calls ∨ c.id = id ∧ c.token = token
  cancelled : ∀ t, m.isCancelled t = true → m'.isCancelled t = true

theorem Keeps.hands (k : m.Keeps m') (id : Nat) (token : Option Nat) : m.Hands id token m' where
  calls := fun _ hc => .inl (k.calls ▸ hc)
  cancelled := k.cancelled

theorem Hands.refl (m : Machine) (id : Nat) (token : Option Nat) : m.Hands id token m :=
  (Keeps.refl m).hands id token

namespace Hands
variable {d : Download}

theorem setSession (h : m.Hands id token m') (s : Session) :
    m.Hands id token { m' with session := s } :=
  ⟨h.calls, h.cancelled⟩

theorem note (h : m.Hands id token m') (x : Happening) : m.Hands id token (m'.note x) :=
  ⟨h.calls, h.cancelled⟩

theorem setLifecycle (h : m.Hands id token m') (l : Lifecycle) :
    m.Hands id token (m'.setLifecycle l) := by
  unfold Machine.setLifecycle
  split
  · exact h
  · exact (h.setSession _).note _

theorem cancelToken (h : m.Hands id token m') (t : Nat) :
    m.Hands id token (m'.cancelToken t) where
  calls := h.calls
  cancelled := fun t' ht => (Keeps.cancelToken m' t).cancelled t' (h.cancelled t' ht)

theorem suspend (h : m.Hands id token m') (stage : Stage) :
    m.Hands id token (m'.suspend ⟨id, token, stage⟩) where
  calls := fun c hc => by
    rcases List.mem_cons.mp hc with rfl | hc
    · exact .inr ⟨rfl, rfl⟩
    · exact h.calls c (List.mem_filter.mp hc).1
  cancelled := h.cancelled

theorem answer (h : m.Hands id token m') (answered : Nat) (r : CallResult) :
    m.Hands id token (m'.answer answered r) where
  calls := fun c hc => h.calls c (List.mem_filter.mp hc).1
  cancelled := h.cancelled

theorem release (h : m.Hands id token m') (deleteFiles : Bool) (reason : ReleaseReason) :
    m.Hands id token (m'.release id token deleteFiles reason) :=
  (h.note _).suspend _

theorem takesUp {m'' : Machine} (h : m.Hands id token m') (ht : m'.TakesUp id d m'')
    (hd : some d.token = token) : m.Hands id token m'' := by
  subst hd
  cases ht with
  | closes => exact (h.setLifecycle .cleanup).suspend _
  | fails => exact ((h.setLifecycle .cleanup).cancelToken d.token).suspend _
  | begins => exact (h.note _).suspend _

theorem proceeds {m'' : Machine} (h : m.Hands id token m') (hp : m'.Proceeds id token m'') :
    m.Hands id token m'' := by
  have selected := h.setSession m'.session.selected
  cases hp with
  | answers => exact h.answer _ _
  | releases => exact (selected.setLifecycle .waiting).release _ _
  | opens => exact (selected.setLifecycle .downloading).takesUp (takesUp_nextChapter ..) rfl

theorem listCatalog (h : m.Hands id token m') (preferences : Option TagPreferences) :
    m.Hands id token (m'.listCatalog id token preferences) :=
  ((h.setSession _).note _).suspend _

end Hands

/-- A run that comes to prepare the session has not been told to cancel it. -/
theorem Begins.of_some {op : Operation} (h : m.Begins op token) (ht : token = some t) :
    m.stores op = true ∧ t = m.tokens.length ∧ m.session.cancelRequested = false := by
  cases h with
  | prepares => cases ht
  | runs hs hc =>
    refine ⟨hs, (Option.some.inj ht).symm, ?_⟩
    cases hr : m.session.cancelRequested with
    | false => rfl
    | true => simp [isCancelled, opened, hs, hr] at hc

/-- What happens before a download is about one call: a new one that comes to prepare the session, or
one that waits. Any other action makes no call wait. -/
theorem Prelude.hands (h : m.Prelude a m') :
    (∃ op token, a = .call op ∧ m.Begins op token ∧ m.Hands m.callCount token m') ∨
      (∃ c ∈ m.calls, (c.stage = .preferences ∨ c.stage = .planning) ∧
        m.Hands c.id c.token m') ∨
      ∀ id token, m.Hands id token m' := by
  have opens (op : Operation) (id : Nat) (token : Option Nat) : m.Hands id token (m.opened op) :=
    (m.keeps_opened op).hands id token
  cases h with
  | rests _ k => exact .inr (.inr k.hands)
  | answers k => exact .inr (.inr fun id token => (k.hands id token).answer _ _)
  | cancels => exact .inr (.inr fun id token => ((opens _ id token).setSession _).answer _ _)
  | asks hb =>
    exact .inl ⟨_, _, rfl, hb, (((opens _ _ _).setLifecycle .loading).note _).suspend _⟩
  | lists hb => exact .inl ⟨_, _, rfl, hb, ((opens _ _ _).setLifecycle .loading).listCatalog _⟩
  | proceeds hb _ hp => exact .inl ⟨_, _, rfl, hb, (opens _ _ _).proceeds hp⟩
  | prefers _ hc hs =>
    exact .inr (.inl ⟨_, hc, .inl hs, (Hands.refl m _ _).listCatalog _⟩)
  | plansNothing _ hc hs =>
    exact .inr (.inl ⟨_, hc, .inr hs,
      (((Hands.refl m _ _).setSession _).setLifecycle .waiting).release _ _⟩)
  | plans _ hc hs _ hp =>
    exact .inr (.inl ⟨_, hc, .inr hs,
      (((Hands.refl m _ _).setSession _).setLifecycle _).proceeds hp⟩)
  | released =>
    exact .inr (.inr fun id token => ((Hands.refl m id token).setSession _).answer _ _)

/-- A run works with its token from the time that it stores it; what is cancelled stays cancelled. -/
structure Works (m : Machine) (a : Action) (m' : Machine) : Prop where
  working : ∀ t ∈ m'.working, t ∈ m.working ∨ (∃ op, a = .call op ∧ m.stores op = true) ∧
    t = m.tokens.length ∧ m.session.cancelRequested = false
  cancelled : ∀ t, m.isCancelled t = true → m'.isCancelled t = true

theorem Hands.works (h : m.Hands id token m') (a : Action)
    (ht : ∀ t, token = some t → t ∈ m.working ∨ (∃ op, a = .call op ∧ m.stores op = true) ∧
      t = m.tokens.length ∧ m.session.cancelRequested = false) : m.Works a m' where
  working := fun t hwork => by
    obtain ⟨c, hc, hc'⟩ := mem_working.mp hwork
    rcases h.calls c hc with hmem | ⟨-, htoken⟩
    · exact .inl (mem_working.mpr ⟨c, hmem, hc'⟩)
    · exact ht t (htoken ▸ token_of_workToken? hc')
  cancelled := h.cancelled

theorem Fresh.works (h : m.Fresh disk) (hs : m.step? a = some m') : m.Works a m' := by
  rcases (h.prelude hs).hands with ⟨op, token, rfl, hb, hhands⟩ | ⟨c, hc, hstage, hhands⟩ | hhands
  · exact hhands.works _ fun t ht => by
      obtain ⟨hstores, hrest⟩ := hb.of_some ht
      exact .inr ⟨⟨op, rfl, hstores⟩, hrest⟩
  · exact hhands.works a fun t ht =>
      .inl (mem_working.mpr ⟨c, hc, (workToken?_of_prepares hstage).trans ht⟩)
  · exact (hhands 0 none).works a nofun

theorem Passes.works (h : Passes disk m a m' p p') : m.Works a m' := by
  by_cases hp : p = .fresh
  · subst hp
    exact Fresh.works h.before h.step
  · have follows : m.Follows m' := by
      cases h.transition <;> first | exact absurd rfl hp | assumption
    refine ⟨fun t hwork => .inl ?_, follows.cancelled⟩
    have before := h.before
    rcases h.after.working_cases hwork with ⟨rfl, -⟩ | ⟨id, d', rfl, rfl⟩
    · cases h.transition <;> exact absurd rfl hp
    · cases h.transition with
      | opens => exact absurd rfl hp
      | works _ _ htoken => simp [before.working, htoken]
      | rests => simp [before.working]

end Machine
end Longbox
