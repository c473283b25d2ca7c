import Longbox.Proofs.Session.Cancellation
import Longbox.Proofs.Session.Token

/-! What is not done any more once a run is cancelled.

A session is doomed when the run that is underway is cancelled (`Doomed.begins`), and a doomed session
begins nothing (`Doomed.beginnings`). A rollback may still take things from the disk, but not if the run
is answered that it was cancelled (`along_retains`). `cancelled_stops` puts that together for a
cancellation at any point. -/
namespace Longbox
namespace Machine

variable {disk : Disk} {m m' : Machine} {a : Action} {p p' : Phase} {id : Nat} {o : Outcome}

/-! ### Calls keep their numbers and tokens -/

/-- A call that waits has waited before, or it is a new one that has come to prepare the session. -/
theorem Passes.waited (h : Passes disk m a m' p p') {c : Call} (hc : c ∈ m'.calls) :
    (∃ c₀ ∈ m.calls, c₀.id = c.id ∧ c₀.token = c.token) ∨
      c.id = m.callCount ∧ ∃ op, a = .call op ∧ m.Begins op c.token := by
  have before := h.before
  have after := h.after
  -- While one call waits alone, it is the same one before and after.
  have same {id : Nat} {token : Option Nat} {s s' : Stage} (hr : m.Runs ⟨id, token, s⟩)
      (hr' : m'.Runs ⟨id, token, s'⟩) : ∃ c₀ ∈ m.calls, c₀.id = c.id ∧ c₀.token = c.token := by
    obtain rfl := hr'.eq_of_mem hc
    exact ⟨⟨id, token, s⟩, by simp [hr.calls], rfl, rfl⟩
  have done {o : Outcome} (ho : m'.Over o) : False := by simp [ho.calls] at hc
  by_cases hp : p = .fresh
  · subst hp
    rcases (Fresh.prelude before h.step).hands with ⟨op, token, rfl, hb, hhands⟩ |
      ⟨c₀, hc₀, -, hhands⟩ | hhands
    · rcases hhands.calls c hc with hmem | ⟨hid, rfl⟩
      · exact .inl ⟨c, hmem, rfl, rfl⟩
      · exact .inr ⟨hid, op, rfl, hb⟩
    · rcases hhands.calls c hc with hmem | ⟨hid, htoken⟩
      · exact .inl ⟨c, hmem, rfl, rfl⟩
      · exact .inl ⟨c₀, hc₀, hid.symm, htoken.symm⟩
    · rcases (hhands (c.id + 1) none).calls c hc with hmem | ⟨hid, -⟩
      · exact .inl ⟨c, hmem, rfl, rfl⟩
      · omega
  · refine .inl ?_
    cases h.transition with
    | prepares | opens => exact absurd rfl hp
    | works _ _ htoken => exact same before.runs (htoken ▸ after.runs)
    | rests =>
      cases p with
      | fresh => exact absurd rfl hp
      | downloading => exact same before.runs after.runs
      | removing => exact same before after
      | releasing => exact same before.1 after.1
      | ended => exact (done after).elim
    | fails => exact same before.runs after
    | finishes => exact same before.runs after.1
    | removes => exact same before after
    | asks => exact same before after.1
    | stops | ends => exact (done after).elim

/-! ### A call is answered the outcome of the session -/

/-- No call has been answered. -/
structure Silent (m m' : Machine) : Prop where
  journal : ∀ call r, .answered call r ∈ m'.journal → .answered call r ∈ m.journal

theorem Silent.trans {m'' : Machine} (h : m.Silent m') (h' : m'.Silent m'') : m.Silent m'' :=
  ⟨fun call r hmem => h.journal call r (h'.journal call r hmem)⟩

theorem Silent.of_told (h : m'.standing.told = m.standing.told) : m.Silent m' := by
  refine ⟨fun call r hmem => ?_⟩
  have told : .answered call r ∈ m'.standing.told := List.mem_filter.mpr ⟨hmem, rfl⟩
  rw [h] at told
  exact (List.mem_filter.mp told).1

theorem Silent.note {m₁ : Machine} (h : m.Silent m₁) (x : Happening)
    (hx : ∀ call r, .answered call r ≠ x) : m.Silent (m₁.note x) := by
  refine ⟨fun call r hmem => ?_⟩
  rcases List.mem_cons.mp hmem with heq | hmem
  · exact absurd heq (hx call r)
  · exact h.journal call r hmem

theorem Silent.setLifecycle {m₁ : Machine} (h : m.Silent m₁) (l : Lifecycle) :
    m.Silent (m₁.setLifecycle l) :=
  h.trans (.of_told (congrArg Standing.told (m₁.standing_setLifecycle l)))

theorem Keeps.silent (k : m.Keeps m') : m.Silent m' :=
  ⟨fun _ _ hmem => k.journal ▸ hmem⟩

/-- What a call is answered is the outcome that the session has then. -/
structure Answers (m m' : Machine) : Prop where
  outcome : ∀ call o, .answered call (.ok (some o)) ∈ m'.journal →
    .answered call (.ok (some o)) ∈ m.journal ∨ m'.session.outcome = some o

theorem Silent.answers (h : m.Silent m') : m.Answers m' :=
  ⟨fun call _ ho => .inl (h.journal call _ ho)⟩

theorem Silent.answer {m₁ : Machine} (h : m.Silent m₁) (id : Nat) {r : CallResult}
    (hr : ∀ o, r = .ok (some o) → m₁.session.outcome = some o) : m.Answers (m₁.answer id r) := by
  refine ⟨fun call o ho => ?_⟩
  rcases List.mem_cons.mp ho with heq | hmem
  · cases heq
    exact .inr (hr o rfl)
  · exact .inl (h.journal call _ hmem)

/-- The session ends, and the call is answered so. -/
theorem Silent.ends {m₁ : Machine} (h : m.Silent m₁) (id : Nat) (o : Outcome) :
    m.Answers ((m₁.setOutcome o).answer id (.ok (some o))) := by
  have ended : m.Silent (m₁.setOutcome o) := ⟨h.journal⟩
  refine ended.answer id fun o' ho => ?_
  cases ho
  rfl

theorem Silent.release {m₁ : Machine} (h : m.Silent m₁) (id : Nat) (token : Option Nat)
    (deleteFiles : Bool) (reason : ReleaseReason) :
    m.Answers (m₁.release id token deleteFiles reason) :=
  ⟨(h.note (.releaseAsked m₁.session.request.id deleteFiles) nofun).answers.outcome⟩

theorem Silent.listCatalog {m₁ : Machine} (h : m.Silent m₁) (id : Nat) (token : Option Nat)
    (preferences : Option TagPreferences) : m.Answers (m₁.listCatalog id token preferences) :=
  ⟨(h.note .catalogListed nofun).answers.outcome⟩

theorem Silent.proceeds {m₁ : Machine} {token : Option Nat} (h : m.Silent m₁)
    (hp : m₁.Proceeds id token m') : m.Answers m' := by
  have selected : m.Silent m₁.withSelection := ⟨h.journal⟩
  cases hp with
  | answers _ hr => exact h.answer id hr
  | releases => exact (selected.setLifecycle .waiting).release ..
  | opens =>
    exact ((selected.setLifecycle .downloading).trans
      (.of_told (congrArg Standing.told (standing_nextChapter ..)))).answers

theorem Prelude.answered (h : m.Prelude a m') : m.Answers m' := by
  have opened (op : Operation) : m.Silent (m.opened op) := (m.keeps_opened op).silent
  have planned (volumes : Archive → Option String) : m.Silent (m.withPlan volumes) :=
    ⟨fun _ _ hmem => hmem⟩
  cases h with
  | rests _ k => exact k.silent.answers
  | answers k hr => exact k.silent.answer _ fun o ho => k.outcome.trans (hr o ho)
  | cancels => exact (opened _).ends _ _
  | asks => exact ⟨(((opened _).setLifecycle .loading).note .preferencesAsked nofun).answers.outcome⟩
  | lists => exact ((opened _).setLifecycle .loading).listCatalog ..
  | proceeds _ _ hp => exact (opened _).proceeds hp
  | prefers => exact Silent.listCatalog ⟨fun _ _ hmem => hmem⟩ ..
  | plansNothing => exact ((planned _).setLifecycle .waiting).release ..
  | plans _ _ _ _ hp => exact ((planned _).setLifecycle _).proceeds hp
  | released _ _ _ _ ho =>
    have ended : m.Silent (m.setOutcome .nothingToDownload) := ⟨fun _ _ hmem => hmem⟩
    refine ended.answer _ fun o hr => ?_
    rw [ho o hr]
    rfl

theorem Sequel.answered (h : m.Sequel p a m') : m.Answers m' := by
  have same : m.Silent m := ⟨fun _ _ hmem => hmem⟩
  cases h with
  | rests _ k => exact k.silent.answers
  | answers k hr => exact k.silent.answer _ fun o ho => k.outcome.trans (hr o ho)
  | @moves id d move m' hm =>
    by_cases hfinish : move = .finish
    · subst hfinish
      obtain ⟨-, hm⟩ := Option.ite_none_right_eq_some.mp hm
      obtain rfl := Option.some.inj hm
      unfold conclude
      split
      · rename_i cause _
        exact ⟨((Keeps.cancelStored m).silent.note (.rollbackBegun cause) nofun).answers.outcome⟩
      · split
        · exact same.ends ..
        · exact same.release ..
    · exact (Silent.of_told (congrArg Standing.told (standing_moveDownload? hm hfinish))).answers
  | @removes id token cause left =>
    cases left with
    | nil => exact same.release ..
    | cons path left =>
      have removed := m.standing_removeNext ⟨id, some token, .removing cause (path :: left)⟩ cause
        path left
      exact (Silent.of_told (congrArg Standing.told removed)).answers
  | @released id token reason _ hr =>
    cases reason with
    | emptyPlan | emptySelection => cases hr
    | finished => exact same.ends ..
    | failed cause => exact (same.note (.sent _) nofun).ends ..

theorem Passes.answered (h : Passes disk m a m' p p') : m.Answers m' := by
  by_cases hp : p = .fresh
  · subst hp
    exact (Fresh.prelude h.before h.step).answered
  · exact (h.before.sequel hp h.step).answered

/-- Each call that has been answered an outcome has been answered how the session ended. -/
def Told (m : Machine) (_ : Phase) : Prop :=
  ∀ call o, .answered call (.ok (some o)) ∈ m.journal → m.EndsAs o

theorem Told.step (h : Passes disk m a m' p p') (hm : m.Told p) : m'.Told p' := by
  intro call o ho
  rcases h.answered.outcome call o ho with hbefore | hnow
  · exact EndsAs.step h (hm call o hbefore)
  · exact .inl hnow

/-! ### A run keeps its token -/

theorem callCount_step? (h : m.step? a = some m') : m.callCount ≤ m'.callCount := by
  rcases hold_step? h with ⟨op, -, rfl⟩ | ⟨-, hheld⟩
  · rw [callCount_begin]
    exact Nat.le_succ _
  · exact Nat.le_of_eq (congrArg Standing.callCount hheld).symm

theorem parents_step? (h : m.step? a = some m') : m.hold.parents <+: m'.hold.parents := by
  rcases hold_step? h with ⟨op, -, rfl⟩ | ⟨-, hheld⟩
  · rw [parents_begin]
    exact List.prefix_append ..
  · exact hheld ▸ List.prefix_refl _

/-- A call that has been made by now and waits later waits now, with the same token. -/
theorem At.waited {actions : List Action} (h : m.At disk p) (hs : m.run? actions = some m')
    {c : Call} (hc : c ∈ m'.calls) (hid : c.id < m.callCount) :
    ∃ c₀ ∈ m.calls, c₀.id = c.id ∧ c₀.token = c.token := by
  let Waited (m' : Machine) (_ : Phase) : Prop :=
    m.callCount ≤ m'.callCount ∧ ∀ c ∈ m'.calls, c.id < m.callCount →
      ∃ c₀ ∈ m.calls, c₀.id = c.id ∧ c₀.token = c.token
  obtain ⟨-, -, -, hwaited⟩ := h.always (I := Waited) (fun {m₁ _ _ _ _} ht hm => by
    refine ⟨Nat.le_trans hm.1 (callCount_step? ht.step), fun c hc hid => ?_⟩
    rcases ht.waited hc with ⟨c₁, hc₁, hid₁, htoken⟩ | ⟨hnew, -⟩
    · rw [← hid₁, ← htoken]
      exact hm.2 c₁ hc₁ (hid₁ ▸ hid)
    · have := hm.1
      omega) ⟨Nat.le_refl _, fun c hc _ => ⟨c, hc, rfl, rfl⟩⟩ hs
  exact hwaited c hc hid

/-- Only the run that waits works. -/
theorem At.token_of_working (h : m.At disk p) {c : Call} (hc : c ∈ m.calls) {t : Nat}
    (ht : t ∈ m.working) : c.token = some t := by
  rcases h.working_cases ht with ⟨-, -, c', hcalls, htoken, -⟩ | ⟨id, d, rfl, rfl⟩
  · rw [hcalls, List.mem_singleton] at hc
    exact hc ▸ htoken
  · rw [h.runs.calls, List.mem_singleton] at hc
    rw [hc]

/-! ### A doomed session begins nothing -/

theorem beginnings_ledger (m : Machine) :
    m.ledger.beginnings = m.journal.filter Happening.isBeginning := by
  show (m.journal.filter _).filter _ = _
  rw [List.filter_filter]
  refine List.filter_congr fun x _ => ?_
  cases x <;> rfl

theorem Doomed.beginnings (h : Passes disk m a m' p p') (hm : m.Doomed p) :
    m'.ledger.beginnings = m.ledger.beginnings := by
  have before := h.before
  have after := h.after
  have doomed := Doomed.step h hm
  cases h.transition with
  | prepares => rw [after.idle.ledger, before.idle.ledger]
  | opens hopens =>
    obtain ⟨d₀, -, hnext⟩ := hopens.next
    rw [show m'.isCancelled _ = true from doomed] at hnext
    rw [hnext.eq_of_cancelled, before.idle.ledger]
  | works _ hs =>
    rw [show m.isCancelled _ = true from hm] at hs
    exact hs.beginnings
  | fails _ _ _ hl =>
    rw [hl]
    exact Ledger.beginnings_note _ rfl
  | removes hl =>
    rw [hl, Ledger.remove, Ledger.beginnings_noteAll]
    · rfl
    · intro x hx
      rcases Disk.Removal.mem_happenings.mp hx with ⟨_, -, rfl⟩ | ⟨_, -, rfl⟩ <;> rfl
  | rests hl | stops hl | asks hl | ends hl => rw [hl]
  | finishes _ _ _ _ hl => rw [hl]

/-! ### Only a rollback takes things from the disk -/

/-- The action leaves everything on the disk that is there, but for what is in a file. -/
def Retains (m : Machine) (a : Action) : Prop :=
  ∀ m', m.step? a = some m' → m.disk.Extends m'.disk

/-- A rollback has begun. -/
def RollsBack (_ : Machine) : Phase → Prop
  | .removing .. => True
  | .releasing _ _ reason => ∃ cause, reason = .failed cause
  | .ended o => ∃ reason, o = .aborted reason
  | _ => False

theorem Passes.extends (h : Passes disk m a m' p p') (hp : ¬ m'.RollsBack p') :
    m.disk.Extends m'.disk := by
  have before := h.before
  have after := h.after
  have same (hl : m'.ledger = m.ledger) : m.disk.Extends m'.disk := by
    rw [show m'.disk = m.disk from congrArg Ledger.disk hl]
    exact .refl _
  cases h.transition with
  | prepares => exact same (after.idle.ledger.trans before.idle.ledger.symm)
  | opens hopens =>
    obtain ⟨d₀, -, hnext⟩ := hopens.next
    have opened : m'.disk = m.disk :=
      hnext.disk.trans (congrArg Ledger.disk before.idle.ledger).symm
    rw [opened]
    exact .refl _
  | works _ hs => exact hs.extends
  | fails | removes => exact absurd trivial hp
  | rests hl | stops hl => exact same hl
  | finishes _ _ _ _ hl => exact same hl
  | asks => exact absurd ⟨_, rfl⟩ hp
  | ends hl => exact same hl

theorem RollsBack.begins (h : Passes disk m a m' p p') (ha : ¬ m.Retains a) : m'.RollsBack p' := by
  refine Classical.byContradiction fun hp => ha fun m₁ hs => ?_
  obtain rfl : m' = m₁ := Option.some.inj (h.step.symm.trans hs)
  exact h.extends hp

theorem RollsBack.step (h : Passes disk m a m' p p') (hm : m.RollsBack p) : m'.RollsBack p' := by
  cases h.transition with
  | prepares | opens | works | stops | finishes => cases hm
  | rests => exact hm
  | fails | removes => trivial
  | asks => exact ⟨_, rfl⟩
  | ends =>
    obtain ⟨cause, rfl⟩ := hm
    exact ⟨_, rfl⟩

/-- Nothing has been taken from the disk of a session in which a call is answered that it was
cancelled. -/
theorem along_retains {request : Request} {actions : List Action} {call : Nat}
    (hrun : (ofRequest request disk).run? actions = some m)
    (hanswer : .answered call (.ok (some .cancelled)) ∈ m.journal) :
    (ofRequest request disk).Along Retains actions := by
  have begins : (ofRequest request disk).At disk .fresh := fresh_ofRequest request disk
  obtain ⟨p, hat, told⟩ := begins.always (I := Told) Told.step nofun hrun
  obtain ⟨p', hat', hcourse⟩ := begins.course (P := Retains) (I := fun _ _ => True) (J := RollsBack)
    (fun _ _ _ => trivial) (fun h ha _ => RollsBack.begins h ha) RollsBack.step trivial hrun
  refine hcourse.elim And.left fun ⟨_, hrolls⟩ => ?_
  have ends := told call _ hanswer
  have running {c : Call} (hr : m.Runs c) : False := by
    rcases ends with ho | ⟨-, ho⟩ <;> simp [hr.outcome] at ho
  cases p' with
  | fresh | downloading => cases hrolls
  | removing => exact (running hat').elim
  | releasing => exact (running hat'.1).elim
  | ended o =>
    obtain ⟨reason, rfl⟩ := hrolls
    rcases ends with ho | ⟨-, ho⟩ <;> simp [hat'.ended] at ho

/-! ### What a cancellation stops -/

theorem ledger_of_stops {parent : Nat} (ha : a = .call .cancel ∨ a = .cancelParent parent)
    (hs : m.step? a = some m') : m'.ledger = m.ledger := by
  rcases ha with rfl | rfl
  · obtain ⟨m₁, r, k, he, -⟩ := m.begin_cancel
    obtain rfl := Option.some.inj hs
    rw [he, ledger_answer, k.ledger]
  · obtain rfl := Option.some.inj hs
    rfl

theorem isCancelled_of_stops {parent t : Nat} (ha : a = .call .cancel ∨ a = .cancelParent parent)
    (hs : m.step? a = some m') (hparent : m.hold.parents[t]? = some parent)
    (hstored : a = .call .cancel → m.session.token = some t) : m'.isCancelled t = true := by
  rcases ha with rfl | rfl
  · obtain rfl := Option.some.inj hs
    refine (isCancelled_begin_cancel ?_).mpr (.inl (hstored rfl))
    rw [← length_parents]
    exact (List.getElem?_eq_some_iff.mp hparent).1
  · obtain rfl := Option.some.inj hs
    have found : (m.tokens.map Token.parent)[t]? = some parent := hparent
    rw [List.getElem?_map, Option.map_eq_some_iff] at found
    obtain ⟨own, hown, rfl⟩ := found
    simp [isCancelled, hown]

theorem Begins.of_run {parent : Nat} {token : Option Nat} (h : m.Begins (.run parent) token) :
    m.stores (.run parent) = true ∧ token = some m.tokens.length := by
  cases h with
  | runs hs => exact ⟨hs, rfl⟩

/-- A run that waits has stored its token. -/
theorem At.run_of_waiting {parent : Nat} {actions : List Action} (h : m.At disk p)
    (hs : (m.begin (.run parent)).run? actions = some m') {c : Call} (hc : c ∈ m'.calls)
    (hid : c.id = m.callCount) :
    m.stores (.run parent) = true ∧ c.token = some m.tokens.length := by
  have hbegin : m.step? (.call (.run parent)) = some (m.begin (.run parent)) := rfl
  obtain ⟨p₁, h₁, ht₁⟩ := h.step? hbegin
  have counted : c.id < (m.begin (.run parent)).callCount := by
    rw [callCount_begin, hid]
    exact Nat.lt_succ_self _
  obtain ⟨c₁, hc₁, hid₁, htoken⟩ := h₁.waited hs hc counted
  rcases Passes.waited ⟨h, h₁, hbegin, ht₁⟩ hc₁ with ⟨c₀, hc₀, hid₀, -⟩ | ⟨-, op, hop, hb⟩
  · exact absurd (h.id_lt hc₀) (by omega)
  · cases hop
    exact htoken ▸ hb.of_run

/-- The token of a run keeps its parent. -/
theorem At.parent_of_run {parent : Nat} {actions : List Action} (h : m.At disk p)
    (hs : (m.begin (.run parent)).run? actions = some m')
    (hstores : m.stores (.run parent) = true) :
    m'.hold.parents[m.tokens.length]? = some parent := by
  obtain ⟨p₁, h₁, -⟩ := h.step? (a := .call (.run parent)) rfl
  have own : (m.begin (.run parent)).hold.parents[m.tokens.length]? = some parent := by
    rw [parents_begin, if_pos hstores, ← length_parents]
    simp [Operation.parent?]
  obtain ⟨-, -, hparent⟩ := h₁.always
    (I := fun m' _ => m'.hold.parents[m.tokens.length]? = some parent) (fun ht hm => by
      obtain ⟨rest, hrest⟩ := parents_step? ht.step
      rw [← hrest, List.getElem?_append_left (List.getElem?_eq_some_iff.mp hm).1]
      exact hm) own hs
  exact hparent

/-- The token of a run is stored while it works, if no other run comes while the session is being
prepared. -/
theorem At.stored_of_run {parent : Nat} {actions : List Action} (h : m.At disk p)
    (hs : (m.begin (.run parent)).run? actions = some m')
    (hstores : m.stores (.run parent) = true)
    (hsingle : (m.begin (.run parent)).Along Orderly actions)
    (ht : m.tokens.length ∈ m'.working) : m'.session.token = some m.tokens.length := by
  obtain ⟨p₁, h₁, -⟩ := h.step? (a := .call (.run parent)) rfl
  have reached : Reached m.tokens.length (m.begin (.run parent)) p₁ := by
    refine ⟨?_, fun _ => ?_⟩
    · rw [tokens_begin, if_pos hstores]
      exact Nat.lt_succ_self _
    · rw [token_begin, if_pos hstores]
  obtain ⟨_, -, -, hreached⟩ := h₁.along (P := Orderly) (I := Reached m.tokens.length) Reached.step
    reached hsingle hs
  exact hreached ht

/-- After a run has been cancelled that is underway, with the session or by its parent, no addresses
are asked for and no fetch and no commit begins; no call is answered that the session has completed. If
a call is answered that it was cancelled, nothing has been taken from the disk. A session that is
cancelled must have been running alone: no other run may have come while it was being prepared. -/
theorem cancelled_stops {request : Request} {disk : Disk} {before during after : List Action}
    {m start m' : Machine} {parent : Nat} {c : Call} {a : Action}
    (hbefore : (ofRequest request disk).run? before = some m)
    (hduring : (m.begin (.run parent)).run? during = some start)
    (hc : c ∈ start.calls) (hid : c.id = m.callCount) (hunderway : c.isUnderway = true)
    (ha : a = .call .cancel ∨ a = .cancelParent parent)
    (hsingle : a = .call .cancel → (m.begin (.run parent)).Along Orderly during)
    (hafter : start.run? (a :: after) = some m') :
    m'.journal.filter Happening.isBeginning = start.journal.filter Happening.isBeginning ∧
      (∀ call n, .answered call (.ok (some (.completed n))) ∉ m'.journal) ∧
      (∀ call, .answered call (.ok (some .cancelled)) ∈ m'.journal →
        (ofRequest request disk).Along Retains
          (before ++ .call (.run parent) :: during ++ a :: after)) := by
  obtain ⟨p₀, h₀⟩ := at_of_run? hbefore
  obtain ⟨hstores, htoken⟩ := h₀.run_of_waiting hduring hc hid
  have hstart : (ofRequest request disk).run? (before ++ .call (.run parent) :: during) =
      some start := by
    rw [run?_append, hbefore]
    exact hduring
  obtain ⟨p, h⟩ := at_of_run? hstart
  obtain ⟨start₁, hcancel, hlater⟩ := Option.bind_eq_some_iff.mp hafter
  obtain ⟨p₁, h₁, ht₁⟩ := h.step? hcancel
  have doomed : start₁.Doomed p₁ := by
    refine Doomed.begins ⟨h, h₁, hcancel, ht₁⟩ ?_ (h.underway_cases hc hunderway htoken)
      fun t ht => ?_
    · rcases ha with rfl | rfl <;> rfl
    · obtain rfl : m.tokens.length = t :=
        Option.some.inj (htoken.symm.trans (h.token_of_working hc ht))
      exact isCancelled_of_stops ha hcancel (h₀.parent_of_run hduring hstores) fun hop =>
        h₀.stored_of_run hduring hstores (hsingle hop) ht
  obtain ⟨p', h', hdoomed, hbegun⟩ := h₁.always
    (I := fun m p => m.Doomed p ∧ m.ledger.beginnings = start.ledger.beginnings)
    (fun ht hm => ⟨Doomed.step ht hm.1, (Doomed.beginnings ht hm.1).trans hm.2⟩)
    ⟨doomed, congrArg Ledger.beginnings (ledger_of_stops ha hcancel)⟩ hlater
  refine ⟨?_, fun call n hanswer => ?_, fun call hanswer => along_retains ?_ hanswer⟩
  · rwa [beginnings_ledger, beginnings_ledger] at hbegun
  · obtain rfl := h'.over_of_answered hanswer rfl
    exact hdoomed n rfl
  · rw [run?_append, hstart]
    exact hafter

/-- A run comes to fetch its one page. -/
def comesToFetch : List Action :=
  [.plan 0 fun _ => none, .move 0 (.receiveUrls (.ok ["u"])), .move 0 .makeDirectory,
    .move 0 (.endMetadata (.ok ())), .move 0 .takePage, .move 0 (.requestPermit 0)]

theorem cancelled_stops_fetch :
    ∃ start m', ((ofRequest (seriesOf ["1"]) {}).begin (.run 0)).run? comesToFetch = some start ∧
      start.run? (.call .cancel :: fetchFailsOnce) = some m' ∧
      m'.journal.filter Happening.isBeginning = start.journal.filter Happening.isBeginning ∧
      (ofRequest (seriesOf ["1"]) {}).Along Retains
        (.call (.run 0) :: comesToFetch ++ .call .cancel :: fetchFailsOnce) := by
  have ends : (((ofRequest (seriesOf ["1"]) {}).begin (.run 0)).run? comesToFetch).any
      (fun start => (start.calls.any fun c => c.id == 0 && c.isUnderway) &&
        (start.run? (.call .cancel :: fetchFailsOnce)).any fun m' => m'.tells .cancelled) =
          true := by
    decide +kernel
  obtain ⟨start, hstart, hends⟩ := (Option.any_eq_true ..).mp ends
  simp only [Bool.and_eq_true, List.any_eq_true, Option.any_eq_true, beq_iff_eq] at hends
  obtain ⟨⟨c, hc, hid, hunderway⟩, m', hm', htells⟩ := hends
  obtain ⟨call, hanswer⟩ := exists_answered htells
  have single : ((ofRequest (seriesOf ["1"]) {}).begin (.run 0)).Along Orderly comesToFetch :=
    along_of_forall (by simp [comesToFetch, Orderly]) _
  have nothing : (ofRequest (seriesOf ["1"]) {}).run? [] = some (ofRequest (seriesOf ["1"]) {}) := rfl
  obtain ⟨hbegun, -, hretains⟩ := cancelled_stops nothing hstart hc hid hunderway (.inl rfl)
    (fun _ => single) hm'
  exact ⟨start, m', hstart, hm', hbegun, hretains call hanswer⟩

end Machine
end Longbox
