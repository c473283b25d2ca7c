import Longbox.Proofs.Session.Talk

/-! What listeners hear of the stage of a session.

Most of what is done leaves the stage as it is, and nobody is told of it (`Machine.Pauses`). With each
step, listeners hear of each change of the stage and of nothing else (`Passes.announces`). -/
namespace Longbox

namespace Lifecycle

/-- Each of the stages is another than the one before, from the first stage to the last. -/
def Goes : Lifecycle → List Lifecycle → Lifecycle → Prop
  | l, [], l' => l = l'
  | l, next :: rest, l' => l ≠ next ∧ Goes next rest l'

theorem Goes.append {l l' l'' : Lifecycle} {first second : List Lifecycle} (h : l.Goes first l')
    (h' : l'.Goes second l'') : l.Goes (first ++ second) l'' := by
  induction first generalizing l with
  | nil => exact h ▸ h'
  | cons next rest ih => exact ⟨h.1, ih h.2⟩

end Lifecycle

/-- The stage that listeners are told of, with the id of the session. -/
def Happening.changed? : Happening → Option (String × Lifecycle)
  | .sent (.stateChanged id stage) => some (id, stage)
  | _ => none

/-- Collaborators are asked for what the plan is made from. -/
def Happening.isLookup : Happening → Bool
  | .preferencesAsked | .catalogListed => true
  | _ => false

namespace Journal

/-- The stages that listeners have been told of, the oldest first. -/
def changes (hs : List Happening) : List (String × Lifecycle) :=
  (hs.filterMap Happening.changed?).reverse

/-- What has been asked to make the plan, the oldest first. -/
def lookups (hs : List Happening) : List Happening :=
  (hs.filter Happening.isLookup).reverse

@[simp] theorem changes_cons (x : Happening) (hs : List Happening) :
    changes (x :: hs) = changes hs ++ x.changed?.toList := by
  unfold changes
  rw [List.filterMap_cons]
  cases x.changed? with
  | none => simp
  | some change => simp

@[simp] theorem lookups_cons (x : Happening) (hs : List Happening) :
    lookups (x :: hs) = lookups hs ++ if x.isLookup then [x] else [] := by
  unfold lookups
  rw [List.filter_cons]
  split <;> simp

end Journal

namespace Machine

variable {disk : Disk} {m m' m₁ : Machine} {a : Action} {p p' : Phase} {id : Nat} {d : Download}
  {token : Option Nat}

/-! ### Where the stage is as it was -/

theorem changes_talk (m : Machine) : Journal.changes m.talk = Journal.changes m.journal := by
  show Journal.changes (m.journal.filter Happening.isTalk) = _
  unfold Journal.changes
  rw [List.filterMap_filter]
  congr 2
  funext x
  cases x <;> rfl

theorem lookups_talk (m : Machine) : Journal.lookups m.talk = Journal.lookups m.journal := by
  show Journal.lookups (m.journal.filter Happening.isTalk) = _
  unfold Journal.lookups
  rw [List.filter_filter]
  refine congrArg List.reverse (List.filter_congr fun x _ => ?_)
  cases x <;> rfl

/-- The stage is the same, and nobody has been told of it or asked for what it takes to plan. -/
structure Pauses (m m' : Machine) : Prop where
  request : m'.session.request = m.session.request
  lifecycle : m'.session.lifecycle = m.session.lifecycle
  changes : Journal.changes m'.journal = Journal.changes m.journal
  lookups : Journal.lookups m'.journal = Journal.lookups m.journal

namespace Pauses

theorem refl (m : Machine) : m.Pauses m :=
  ⟨rfl, rfl, rfl, rfl⟩

theorem trans (h : m.Pauses m₁) (h' : m₁.Pauses m') : m.Pauses m' where
  request := h'.request.trans h.request
  lifecycle := h'.lifecycle.trans h.lifecycle
  changes := h'.changes.trans h.changes
  lookups := h'.lookups.trans h.lookups

theorem of_voice (hv : m'.voice = m.voice) : m.Pauses m' where
  request := congrArg Voice.request hv
  lifecycle := congrArg Voice.lifecycle hv
  changes := by
    rw [← changes_talk, ← changes_talk, show m'.talk = m.talk from congrArg Voice.talk hv]
  lookups := by
    rw [← lookups_talk, ← lookups_talk, show m'.talk = m.talk from congrArg Voice.talk hv]

theorem note (h : m.Pauses m₁) (x : Happening) (hx : x.changed? = none) (hl : x.isLookup = false) :
    m.Pauses (m₁.note x) :=
  h.trans ⟨rfl, rfl, by simp [Machine.note, hx], by simp [Machine.note, hl]⟩

theorem noteAll (h : m.Pauses m₁) (hs : List Happening)
    (hx : ∀ x ∈ hs, x.changed? = none ∧ x.isLookup = false) : m.Pauses (m₁.noteAll hs) := by
  induction hs generalizing m₁ with
  | nil => exact h
  | cons x rest ih =>
    obtain ⟨⟨hx, hl⟩, hrest⟩ := List.forall_mem_cons.mp hx
    exact ih (h.note x hx hl) hrest

theorem answer (h : m.Pauses m₁) (id : Nat) (r : CallResult) : m.Pauses (m₁.answer id r) :=
  { h.note (.answered id r) rfl rfl with }

theorem release (h : m.Pauses m₁) (id : Nat) (token : Option Nat) (deleteFiles : Bool)
    (reason : ReleaseReason) : m.Pauses (m₁.release id token deleteFiles reason) :=
  { h.note (.releaseAsked m₁.session.request.id deleteFiles) rfl rfl with }

/-- The session ends, and the call is answered so. -/
theorem ends (h : m.Pauses m₁) (id : Nat) (o : Outcome) (r : CallResult) :
    m.Pauses ((m₁.setOutcome o).answer id r) := by
  have ended : m.Pauses (m₁.setOutcome o) := { h with }
  exact ended.answer id r

end Pauses

theorem Keeps.pauses (k : m.Keeps m') : m.Pauses m' where
  request := k.request
  lifecycle := k.lifecycle
  changes := congrArg Journal.changes k.journal
  lookups := congrArg Journal.lookups k.journal

/-- A download that is over leaves the stage as it is. -/
theorem pauses_conclude (m : Machine) (id : Nat) (d : Download) : m.Pauses (m.conclude id d) := by
  unfold conclude
  split
  · rename_i cause _
    exact { (Keeps.cancelStored m).pauses.note (.rollbackBegun cause) rfl rfl with }
  · split
    · exact (Pauses.refl m).ends ..
    · exact (Pauses.refl m).release ..

theorem pauses_removeNext (m : Machine) (c : Call) (cause : Error) (left : List String) :
    m.Pauses (m.removeNext c cause left) := by
  cases left with
  | nil => exact (Pauses.refl m).release ..
  | cons path left =>
    have removed : m.Pauses { m with disk := (m.disk.removeAll path).disk } := ⟨rfl, rfl, rfl, rfl⟩
    have cleared := removed.noteAll ((m.disk.removeAll path).happenings path) fun x hx => by
      rcases Disk.Removal.mem_happenings.mp hx with ⟨_, -, rfl⟩ | ⟨_, -, rfl⟩ <;> exact ⟨rfl, rfl⟩
    exact { cleared with }

theorem pauses_released (m : Machine) (id : Nat) (token : Option Nat) {reason : ReleaseReason}
    (hr : reason.outcome.endsDownload = true) : m.Pauses (m.released id token reason) := by
  cases reason with
  | emptyPlan | emptySelection => cases hr
  | finished => exact (Pauses.refl m).ends ..
  | failed cause => exact ((Pauses.refl m).note (.sent _) rfl rfl).ends ..

/-- A move of a download leaves the stage as it is, or the session comes to clean up. -/
theorem Speaks.pauses (h : m.Speaks d m') :
    m.Pauses m' ∨ (m.setLifecycle .cleanup).Pauses m' := by
  obtain ⟨hr, said, closing, hsays, hcloses, htalk⟩ := h
  have unchanged : (said.map Happening.sent).filterMap Happening.changed? = [] := by
    cases hsays <;> rfl
  have unasked (events : List Event) :
      (events.map Happening.sent).filter Happening.isLookup = [] :=
    List.filter_eq_nil_iff.mpr fun x hx => by
      obtain ⟨event, -, rfl⟩ := List.mem_map.mp hx
      nofun
  have changes : Journal.changes m'.journal = Journal.changes m.journal ++
      ((closing.map Happening.sent).filterMap Happening.changed?).reverse := by
    rw [← changes_talk, ← changes_talk, Journal.changes, htalk, List.map_append, List.filterMap_append,
      List.filterMap_append, unchanged, List.append_nil, List.reverse_append, Journal.changes]
  have lookups : Journal.lookups m'.journal = Journal.lookups m.journal := by
    rw [← lookups_talk, ← lookups_talk, Journal.lookups, htalk, List.filter_append, unasked,
      List.nil_append, Journal.lookups]
  cases hcloses with
  | stays hl => exact .inl ⟨hr, hl, changes.trans (List.append_nil _), lookups⟩
  | closes hl hl' =>
    refine .inr ?_
    unfold setLifecycle
    rw [if_neg hl]
    refine ⟨hr, hl', changes.trans ?_, lookups.trans ?_⟩
    · simp [send, Machine.note, Happening.changed?]
    · simp [send, Machine.note, Happening.isLookup]

/-! ### Listeners hear of each change -/

/-- What listeners hear of the stage from `m` to `m'` is how it changes. -/
structure Announces (m m' : Machine) : Prop where
  request : m'.session.request = m.session.request
  changes : ∃ new, Journal.changes m'.journal =
      Journal.changes m.journal ++ new.map (m.session.request.id, ·) ∧
    m.session.lifecycle.Goes new m'.session.lifecycle

theorem Pauses.announces (h : m.Pauses m') : m.Announces m' :=
  ⟨h.request, [], by rw [h.changes, List.map_nil, List.append_nil], h.lifecycle.symm⟩

namespace Announces

theorem refl (m : Machine) : m.Announces m :=
  (Pauses.refl m).announces

theorem trans (h : m.Announces m₁) (h' : m₁.Announces m') : m.Announces m' := by
  obtain ⟨hr, first, hfirst, hgoes⟩ := h
  obtain ⟨hr', second, hsecond, hgoes'⟩ := h'
  refine ⟨hr'.trans hr, first ++ second, ?_, hgoes.append hgoes'⟩
  rw [hsecond, hfirst, hr, List.map_append, List.append_assoc]

theorem pauses (h : m.Announces m₁) (hp : m₁.Pauses m') : m.Announces m' :=
  h.trans hp.announces

theorem ask (h : m.Announces m₁) (x : Happening) (hx : x.changed? = none) :
    m.Announces (m₁.note x) :=
  h.trans ⟨rfl, [], by simp [Machine.note, hx], rfl⟩

theorem setLifecycle (h : m.Announces m₁) (l : Lifecycle) : m.Announces (m₁.setLifecycle l) := by
  refine h.trans ?_
  unfold Machine.setLifecycle
  split
  · exact refl _
  · rename_i hl
    exact ⟨rfl, [l], by simp [send, Machine.note, Happening.changed?], hl, rfl⟩

theorem release (h : m.Announces m₁) (id : Nat) (token : Option Nat) (deleteFiles : Bool)
    (reason : ReleaseReason) : m.Announces (m₁.release id token deleteFiles reason) :=
  h.pauses ((Pauses.refl m₁).release ..)

theorem nextChapter (h : m.Announces m₁) (id : Nat) (d : Download) :
    m.Announces (m₁.nextChapter id d) := by
  rcases m₁.voice_nextChapter id d with hv | hv
  · exact h.pauses (.of_voice hv)
  · exact (h.setLifecycle .cleanup).pauses (.of_voice hv)

theorem proceeds (h : m.Announces m₁) (hp : m₁.Proceeds id token m') : m.Announces m' := by
  have selected : m.Announces m₁.withSelection := ⟨h.request, h.changes⟩
  cases hp with
  | answers => exact h.pauses ((Pauses.refl m₁).answer ..)
  | releases => exact (selected.setLifecycle .waiting).release ..
  | opens => exact (selected.setLifecycle .downloading).nextChapter ..

theorem listCatalog (h : m.Announces m₁) (id : Nat) (token : Option Nat)
    (preferences : Option TagPreferences) : m.Announces (m₁.listCatalog id token preferences) := by
  have asked := h.ask .catalogListed rfl
  exact ⟨asked.request, asked.changes⟩

end Announces

theorem Prelude.announces (h : m.Prelude a m') : m.Announces m' := by
  have opened (op : Operation) : m.Announces (m.opened op) :=
    (m.keeps_opened op).pauses.announces
  have planned (volumes : Archive → Option String) : m.Announces (m.withPlan volumes) :=
    ⟨rfl, (Announces.refl m).changes⟩
  cases h with
  | rests _ k => exact k.pauses.announces
  | answers k => exact (k.pauses.answer ..).announces
  | cancels => exact ((m.keeps_opened _).pauses.ends ..).announces
  | @asks op =>
    have asked := ((opened op).setLifecycle .loading).ask .preferencesAsked rfl
    exact ⟨asked.request, asked.changes⟩
  | lists => exact ((opened _).setLifecycle .loading).listCatalog ..
  | proceeds _ _ hp => exact (opened _).proceeds hp
  | prefers => exact (Announces.refl m).listCatalog ..
  | plansNothing => exact ((planned _).setLifecycle .waiting).release ..
  | plans _ _ _ _ hp => exact ((planned _).setLifecycle _).proceeds hp
  | released => exact ((Pauses.refl m).ends ..).announces

theorem Sequel.announces (h : m.Sequel p a m') : m.Announces m' := by
  cases h with
  | rests _ k => exact k.pauses.announces
  | answers k => exact (k.pauses.answer ..).announces
  | @moves id d move m' hm =>
    by_cases hfinish : move = .finish
    · subst hfinish
      obtain ⟨-, hm⟩ := Option.ite_none_right_eq_some.mp hm
      obtain rfl := Option.some.inj hm
      exact (m.pauses_conclude id d).announces
    · rcases (speaks_moveDownload? hm hfinish).pauses with hpauses | hpauses
      · exact hpauses.announces
      · exact ((Announces.refl m).setLifecycle .cleanup).pauses hpauses
  | removes => exact (m.pauses_removeNext ..).announces
  | released hr => exact (m.pauses_released _ _ hr).announces

theorem Passes.announces (h : Passes disk m a m' p p') : m.Announces m' := by
  by_cases hp : p = .fresh
  · subst hp
    exact (Fresh.prelude h.before h.step).announces
  · exact (h.before.sequel hp h.step).announces

end Machine
end Longbox
