import Longbox.Proofs.Download.Assignment
import Longbox.Proofs.Session.Phase

/-! The course of a session while one chapter is current.

`Machine.Takes` says that a call has just been given the addresses of a chapter. While the chapter goes
undisturbed (`Machine.Undisturbed`), what has been told of its pages agrees with where they are, until the
chapter ends (`Machine.Attends`). -/
namespace Longbox

def Action.declines : Action → Bool
  | .move _ m => m.declines
  | _ => false

/-- The directory of a chapter is made. -/
def Action.places : Action → Bool
  | .move _ .makeDirectory => true
  | _ => false

/-- The directory of the chapter is still to be made. -/
def ChapterStage.isPlacing : ChapterStage → Bool
  | .placing _ => true
  | _ => false

namespace Machine

/-- The download of a call. -/
def download? (m : Machine) (id : Nat) : Option Download :=
  match (m.call? id).map Call.stage with
  | some (.downloading d) => some d
  | _ => none

/-- The chapter is the current one. -/
def isAt (m : Machine) (a : Assignment) : Bool :=
  (m.download? a.call).any fun d => d.current.isSome && d.remaining == a.rest

/-- The call has been given the addresses of the chapter, whose directory is to be made next. -/
def Takes (m : Machine) (a : Assignment) : Prop :=
  ∃ d ∈ m.download? a.call, d.token = a.token ∧ d.remaining = a.rest ∧
    ∃ c ∈ d.current, c.dir = a.dir ∧ c.stage = .placing a.urls

instance (m : Machine) (a : Assignment) : Decidable (m.Takes a) :=
  inferInstanceAs (Decidable (∃ d ∈ m.download? a.call, _))

/-- The chapter is current and not cancelled, nobody answers that it was, and its directory can be made. -/
structure Undisturbed (a : Assignment) (m : Machine) (action : Action) : Prop where
  current : m.isAt a = true
  running : m.isCancelled a.token = false
  answers : action.declines = false
  directory : action.places = true → (m.disk.makeAll a.dir).2 = none

instance (a : Assignment) (m : Machine) (action : Action) : Decidable (Undisturbed a m action) :=
  decidable_of_iff (m.isAt a = true ∧ m.isCancelled a.token = false ∧ action.declines = false ∧
      (action.places = true → (m.disk.makeAll a.dir).2.isNone = true))
    ⟨fun ⟨current, running, answers, directory⟩ =>
      ⟨current, running, answers, fun h => Option.isNone_iff_eq_none.mp (directory h)⟩,
    fun h => ⟨h.current, h.running, h.answers, fun hp => Option.isNone_iff_eq_none.mpr (h.directory hp)⟩⟩

/-- What has been told since `l₀` agrees with where the pages of the chapter are, or it has ended. -/
def Attends (a : Assignment) (l₀ : Ledger) (m : Machine) (p : Phase) : Prop :=
  ∃ d, p = .downloading a.call d ∧ d.token = a.token ∧ d.Ok m.terms ∧
    ∃ hs, (∃ c, a.Goes l₀ m.ledger hs d c) ∨ a.Ends l₀ m.ledger hs d

variable {disk : Disk} {m m' : Machine} {a : Assignment} {action : Action} {p p' : Phase} {d : Download}
  {l₀ : Ledger}

theorem Downloads.download? {id : Nat} (h : m.Downloads id d) : m.download? id = some d := by
  rw [Machine.download?, h.call?]
  rfl

theorem At.of_download? (h : m.At disk p) {id : Nat} (hd : m.download? id = some d) :
    p = .downloading id d := by
  unfold Machine.download? at hd
  split at hd
  · rename_i hcall
    obtain ⟨c, hc, hstage⟩ := Option.map_eq_some_iff.mp hcall
    obtain ⟨hmem, rfl⟩ := mem_of_call? hc
    cases hd
    exact h.eq_downloading hmem hstage
  · cases hd

theorem isAt_iff (hd : m.download? a.call = some d) :
    m.isAt a = true ↔ d.current.isSome = true ∧ d.remaining = a.rest := by
  rw [isAt, hd, Option.any_some, Bool.and_eq_true, beq_iff_eq]

theorem isAt_of_goes {l : Ledger} {hs : List Happening} {c : ChapterRun}
    (h : a.Goes l₀ l hs d c) (hd : m.download? a.call = some d) : m.isAt a = true :=
  (isAt_iff hd).mpr ⟨by rw [h.current]; rfl, h.remaining⟩

theorem isAt_of_ends {l : Ledger} {hs : List Happening} (h : a.Ends l₀ l hs d)
    (hd : m.download? a.call = some d) : m.isAt a = false := by
  have gone : d.current = none ∨ d.remaining ≠ a.rest := by
    cases h with
    | passes _ _ _ _ gone => exact gone
    | fails _ _ _ gone => exact .inl gone
  rw [← Bool.not_eq_true, isAt_iff hd]
  rintro ⟨hcurrent, hremaining⟩
  rcases gone with hnone | hother
  · rw [hnone] at hcurrent
    cases hcurrent
  · exact hother hremaining

theorem Takes.attends (h : m.Takes a) (hat : m.At disk p)
    (hok : ∀ id d, p = .downloading id d → d.Ok m.terms) : Attends a m.ledger m p := by
  obtain ⟨d, hd, htoken, hremaining, c, hcurrent, hdir, hstage⟩ := h
  obtain rfl := hat.of_download? hd
  refine ⟨d, rfl, htoken, hok _ d rfl, [], .inl ⟨c, hcurrent, hremaining, hdir,
    Ledger.since_refl _ _, ?_⟩⟩
  rw [hstage]
  exact .placing rfl

/-- Until its directory is made the chapter has only been given its addresses. -/
theorem takes_of_goes {l : Ledger} {hs : List Happening} {c : ChapterRun} (h : a.Goes l₀ l hs d c)
    (hd : m.download? a.call = some d) (ht : d.token = a.token) (hc : c.stage.isPlacing = true) :
    m.Takes a := by
  have tells := h.stage
  cases hstage : c.stage with
  | placing urls =>
    rw [hstage] at tells
    cases tells with
    | placing => exact ⟨d, hd, ht, h.remaining, c, h.current, h.dir, hstage⟩
  | _ =>
    rw [hstage] at hc
    cases hc

/-- A chapter that goes undisturbed is as far as has been told, or it ends. -/
theorem Attends.keeps (passes : Passes disk m action m' p p') (hu : Undisturbed a m action)
    (h : Attends a l₀ m p) : Attends a l₀ m' p' := by
  obtain ⟨d, rfl, htoken, ok, hs, hstate⟩ := h
  have before : m.Downloads a.call d := passes.before
  obtain ⟨hcurrent, hremaining⟩ := (isAt_iff before.download?).mp hu.current
  have open' : d.store.isClosed = false := by
    obtain ⟨c, hc⟩ := Option.isSome_iff_exists.mp hcurrent
    exact ok.open hc
  have goes : ∃ c, a.Goes l₀ m.ledger hs d c := by
    refine hstate.resolve_right fun ends => ?_
    have gone := hu.current
    rw [isAt_of_ends ends before.download?] at gone
    cases gone
  have running : m.isCancelled d.token = false := htoken ▸ hu.running
  have failure : d.store.failure = none := by
    cases hf : d.store.failure with
    | none => rfl
    | some e =>
      rw [before.cancelled (by rw [hf]; rfl)] at running
      cases running
  cases passes.transition with
  | rests hl hf =>
    refine ⟨d, rfl, htoken, ?_, hs, ?_⟩
    · rw [hf.terms]
      exact ok
    · rw [hl]
      exact hstate
  | @works _ _ d' move ha hstep ht hf =>
    subst ha
    refine ⟨d', rfl, ht.trans htoken, ?_, ?_⟩
    · rw [hf.terms]
      exact hstep.ok ok
    · obtain ⟨c, hc⟩ := goes
      rw [running] at hstep
      exact hc.step hstep failure hu.answers fun hmove => hu.directory (by rw [hmove]; rfl)
  | fails hc | stops _ _ hc | finishes hc =>
    rw [open'] at hc
    cases hc

end Machine
end Longbox
