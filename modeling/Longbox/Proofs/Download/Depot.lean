import Longbox.Download.Depot
import Longbox.Proofs.Download.Balance
import Longbox.Proofs.Download.Harm

/-! How a store serves those who use it.

`Depot.Step` has a constructor for each way in which an action can go. `Depot.Sound` holds after any course of
actions: the pages that have come are those handed over, those dropped on account of a cancellation and those
in the queue, in that order. What is cancelled stays cancelled and hands over nothing any more, and a store
that is done stays so. Together that is `Depot.serves`. -/
namespace Longbox

namespace Depot
variable {workers : Nat} {initial : Option Error} {d d' : Depot} {a : Action} {actions : List Action}

/-! ### Steps -/

/-- An action, and what it makes of a depot. -/
inductive Step (d : Depot) : Action → Depot → Prop where
  | arrives (page : FetchedPage) (hc : d.store.isClosed = false)
      (hs : d.store.hasStopped = false) :
      Step d (.arrive page) { d with
        store := { d.store with queue := d.store.queue ++ [page] }
        arrived := d.arrived ++ [page] }
  | closes : Step d .close { d with store := d.store.close }
  | drops {page : FetchedPage} {rest : List FetchedPage} (hq : d.store.queue = page :: rest)
      (hs : d.store.hasStopped = false) (hc : d.isCancelled = true) :
      Step d .begin { d with store := { d.store with queue := rest } }
  | begins {page : FetchedPage} {rest : List FetchedPage} (hq : d.store.queue = page :: rest)
      (hs : d.store.hasStopped = false) (hroom : d.store.inFlight.length < d.store.slots)
      (hc : d.isCancelled = false) :
      Step d .begin { d with
        store := { d.store with queue := rest, inFlight := d.store.inFlight ++ [page] }
        begun := d.begun ++ [page] }
  | finishes {i : Nat} {page : FetchedPage} (hp : d.store.inFlight[i]? = some page) :
      Step d (.finish i (.ok ())) { d with
        store := { d.store with inFlight := d.store.inFlight.eraseIdx i }
        ended := d.ended ++ [page] }
  | breaks {i : Nat} {page : FetchedPage} (e : Error) (hp : d.store.inFlight[i]? = some page) :
      Step d (.finish i (.error e)) { d with
        store := { d.store with inFlight := d.store.inFlight.eraseIdx i }.report e
        ended := d.ended ++ [page]
        reported := d.reported ++ [e] }
  | stops (hc : d.isCancelled = true) :
      Step d .stop { d with store := { d.store with hasStopped := true, queue := [] } }
  | fails (e : Error) :
      Step d (.fail e) { d with store := d.store.report e, reported := d.reported ++ [e] }
  | cancels : Step d .cancel { d with cancelled := true }

theorem step_of_step? (h : d.step? a = some d') : d.Step a d' := by
  cases a with
  | arrive page =>
    simp only [step?] at h
    split at h
    · cases h
    · rename_i hopen
      cases h
      simp only [Bool.or_eq_true, not_or, Bool.not_eq_true] at hopen
      exact .arrives page hopen.1 hopen.2
  | close =>
    cases h
    exact .closes
  | begin =>
    obtain ⟨⟨store, page⟩, hbegin, rfl⟩ := Option.map_eq_some_iff.mp h
    unfold PageStore.begin? at hbegin
    split at hbegin
    · cases hbegin
    · rename_i hroom
      simp only [Bool.or_eq_true, decide_eq_true_eq, not_or, Bool.not_eq_true, Nat.not_le] at hroom
      split at hbegin
      · cases hbegin
      · rename_i page rest hq
        split at hbegin
        · rename_i hc
          cases hbegin
          simp only [Option.toList_none, List.append_nil]
          exact .drops hq hroom.1 hc
        · rename_i hc
          cases hbegin
          exact .begins hq hroom.1 hroom.2 (Bool.not_eq_true _ ▸ hc)
  | finish i result =>
    obtain ⟨page, hpage, h⟩ := Option.bind_eq_some_iff.mp h
    obtain ⟨store, hfinish, h⟩ := Option.bind_eq_some_iff.mp h
    cases h
    unfold PageStore.finish? at hfinish
    rw [if_pos (List.getElem?_eq_some_iff.mp hpage).1] at hfinish
    cases result with
    | ok _ =>
      cases hfinish
      simp only [errors, List.append_nil]
      exact .finishes hpage
    | error e =>
      cases hfinish
      exact .breaks e hpage
  | stop =>
    obtain ⟨store, hstop, rfl⟩ := Option.map_eq_some_iff.mp h
    unfold PageStore.stop? at hstop
    split at hstop
    · rename_i hc
      cases hstop
      exact .stops hc
    · cases hstop
  | fail e =>
    cases h
    exact .fails e
  | cancel =>
    cases h
    exact .cancels

/-- What each step preserves holds after a course of actions. -/
theorem run?_induction {P : Depot → Prop} (step : ∀ {d d' a}, d.Step a d' → P d → P d') (h : P d)
    (hrun : d.run? actions = some d') : P d' := by
  induction actions generalizing d with
  | nil =>
    cases hrun
    exact h
  | cons a rest ih =>
    obtain ⟨d₁, hstep, hrest⟩ := Option.bind_eq_some_iff.mp hrun
    exact ih (step (step_of_step? hstep) h) hrest

/-! ### The failure -/

/-- An error that is reported after others is the first failure just if there was none. -/
theorem failure_reported {s : PageStore} {errors : List Error}
    (h : s.failure = initial.or (errors.find? fun e => !e.isCancelled)) (e : Error) :
    (s.report e).failure = initial.or ((errors ++ [e]).find? fun e => !e.isCancelled) := by
  rw [Download.failure_report, h, List.find?_append, List.find?_singleton, Option.or_assoc]
  rfl

/-- To report an error changes nothing but the failure. -/
theorem report_eq (s : PageStore) (e : Error) : ∃ failure, s.report e = { s with failure } := by
  unfold PageStore.report
  split
  · exact ⟨s.failure, rfl⟩
  · exact ⟨some e, rfl⟩

theorem isCancelled_eq (d : Depot) : d.isCancelled = (d.cancelled || d.store.failure.isSome) :=
  rfl

/-- What is cancelled stays cancelled. -/
theorem Step.isCancelled (h : d.Step a d') (hc : d.isCancelled = true) : d'.isCancelled = true := by
  have reported (s : PageStore) (e : Error) (hf : s.failure = d.store.failure) :
      (d.cancelled || (s.report e).failure.isSome) = true := by
    rw [isCancelled_eq, Bool.or_eq_true] at hc
    rw [Download.isSome_failure_report, hf, Bool.or_eq_true]
    exact hc.imp_right fun hsome => by rw [hsome, Bool.true_or]
  cases h with
  | breaks e hp => exact reported _ e rfl
  | fails e => exact reported _ e rfl
  | cancels => rfl
  | _ => exact hc

/-! ### The pages -/

/-- What holds of a depot after any course of actions. -/
structure Sound (workers : Nat) (initial : Option Error) (d : Depot) : Prop where
  slots : d.store.slots = max 1 workers
  /-- Pages are handed over or dropped in the order of their arrival, and dropped only at the end. -/
  queued : ∃ dropped, d.arrived = d.begun ++ dropped ++ d.store.queue ∧
    (dropped = [] ∨ d.isCancelled = true)
  stopped : d.store.hasStopped = true → d.store.queue = [] ∧ d.isCancelled = true
  inFlight : d.store.inFlight.length ≤ d.store.slots
  commits : d.begun.Perm (d.ended ++ d.store.inFlight)
  failure : d.store.failure = initial.or (d.reported.find? fun e => !e.isCancelled)

theorem sound_ofWorkers (workers : Nat) (initial : Option Error) :
    (ofWorkers workers initial).Sound workers initial where
  slots := rfl
  queued := ⟨[], rfl, .inl rfl⟩
  stopped := nofun
  inFlight := Nat.zero_le _
  commits := .refl _
  failure := (Option.or_none ..).symm

theorem Sound.step (hs : d.Step a d') (h : d.Sound workers initial) :
    d'.Sound workers initial := by
  obtain ⟨dropped, harrived, hdropped⟩ := h.queued
  have cancelled : d.isCancelled = true → d'.isCancelled = true := hs.isCancelled
  have kept : dropped = [] ∨ d'.isCancelled = true := hdropped.imp_right cancelled
  -- A commit that ends has begun and does not end again.
  have moved {i : Nat} {page : FetchedPage} (hp : d.store.inFlight[i]? = some page) :
      d.begun.Perm (d.ended ++ [page] ++ d.store.inFlight.eraseIdx i) := by
    obtain ⟨before, after, hsplit, herase, -⟩ := PageFetcher.exists_split hp
    refine h.commits.trans ?_
    rw [herase, hsplit, List.append_assoc]
    exact List.perm_middle.append_left _
  cases hs with
  | arrives page hc hs' =>
    refine { h with queued := ⟨dropped, ?_, kept⟩, stopped := fun hstop => ?_ }
    · show d.arrived ++ [page] = d.begun ++ dropped ++ (d.store.queue ++ [page])
      rw [harrived, List.append_assoc]
    · rw [show d.store.hasStopped = true from hstop] at hs'
      cases hs'
  | closes => exact { h with queued := ⟨dropped, harrived, kept⟩ }
  | @drops page rest hq hs' hc =>
    refine { h with queued := ⟨dropped ++ [page], ?_, .inr hc⟩, stopped := fun hstop => ?_ }
    · show d.arrived = d.begun ++ (dropped ++ [page]) ++ rest
      rw [harrived, hq]
      simp
    · rw [show d.store.hasStopped = true from hstop] at hs'
      cases hs'
  | @begins page rest hq hs' hroom hc =>
    have none : dropped = [] := by
      rcases hdropped with hnone | hc'
      · exact hnone
      · rw [hc] at hc'
        cases hc'
    refine { h with
      queued := ⟨[], ?_, .inl rfl⟩
      stopped := fun hstop => ?_
      inFlight := ?_
      commits := ?_ }
    · show d.arrived = d.begun ++ [page] ++ [] ++ rest
      rw [harrived, hq, none]
      simp
    · rw [show d.store.hasStopped = true from hstop] at hs'
      cases hs'
    · show (d.store.inFlight ++ [page]).length ≤ d.store.slots
      rw [List.length_append]
      exact hroom
    · show (d.begun ++ [page]).Perm (d.ended ++ (d.store.inFlight ++ [page]))
      rw [← List.append_assoc]
      exact h.commits.append_right _
  | finishes hp =>
    exact { h with
      queued := ⟨dropped, harrived, kept⟩
      inFlight := Nat.le_trans (List.length_eraseIdx_le ..) h.inFlight
      commits := moved hp }
  | @breaks i page e hp =>
    have failed := failure_reported
      (s := { d.store with inFlight := d.store.inFlight.eraseIdx i }) h.failure e
    obtain ⟨f, hf⟩ := report_eq { d.store with inFlight := d.store.inFlight.eraseIdx i } e
    rw [hf] at failed kept cancelled ⊢
    exact { h with
      queued := ⟨dropped, harrived, kept⟩
      stopped := fun hstop => ⟨(h.stopped hstop).1, cancelled (h.stopped hstop).2⟩
      inFlight := Nat.le_trans (List.length_eraseIdx_le ..) h.inFlight
      commits := moved hp
      failure := failed }
  | stops hc =>
    refine { h with
      queued := ⟨dropped ++ d.store.queue, ?_, .inr hc⟩
      stopped := fun _ => ⟨rfl, hc⟩ }
    show d.arrived = d.begun ++ (dropped ++ d.store.queue) ++ []
    rw [harrived]
    simp
  | fails e =>
    have failed := failure_reported h.failure e
    obtain ⟨f, hf⟩ := report_eq d.store e
    rw [hf] at failed kept cancelled ⊢
    exact { h with
      queued := ⟨dropped, harrived, kept⟩
      stopped := fun hstop => ⟨(h.stopped hstop).1, cancelled (h.stopped hstop).2⟩
      failure := failed }
  | cancels =>
    exact { h with
      queued := ⟨dropped, harrived, .inr rfl⟩
      stopped := fun hstop => ⟨(h.stopped hstop).1, rfl⟩ }

/-! ### The end -/

/-- No commit begins once the download is cancelled. -/
theorem Step.begun (h : d.Step a d') (hc : d.isCancelled = true) : d'.begun = d.begun := by
  cases h with
  | begins _ _ _ hrunning =>
    rw [hrunning] at hc
    cases hc
  | _ => rfl

theorem isDone_iff (s : PageStore) : s.isDone = true ↔
    (s.hasStopped = true ∨ s.isClosed = true ∧ s.queue = []) ∧ s.inFlight = [] := by
  simp [PageStore.isDone]

/-- A store that is done begins no commit and stays done. -/
theorem Step.done (h : d.Step a d') (hd : d.store.isDone = true) :
    d'.store.isDone = true ∧ d'.begun = d.begun := by
  obtain ⟨hend, hflight⟩ := (isDone_iff _).mp hd
  have none {i : Nat} {page : FetchedPage} (hp : d.store.inFlight[i]? = some page) : False := by
    rw [hflight] at hp
    cases hp
  have empty {page : FetchedPage} {rest : List FetchedPage} (hq : d.store.queue = page :: rest)
      (hs : d.store.hasStopped = false) : False := by
    rcases hend with hstopped | ⟨-, hempty⟩
    · rw [hs] at hstopped
      cases hstopped
    · rw [hq] at hempty
      cases hempty
  rw [isDone_iff]
  cases h with
  | arrives page hc hs =>
    rcases hend with hstopped | ⟨hclosed, -⟩
    · rw [hs] at hstopped
      cases hstopped
    · rw [hc] at hclosed
      cases hclosed
  | closes => exact ⟨⟨hend.imp_right fun h => ⟨rfl, h.2⟩, hflight⟩, rfl⟩
  | drops hq hs => exact (empty hq hs).elim
  | begins hq hs => exact (empty hq hs).elim
  | finishes hp => exact (none hp).elim
  | breaks e hp => exact (none hp).elim
  | stops => exact ⟨⟨.inl rfl, hflight⟩, rfl⟩
  | fails e =>
    obtain ⟨f, hf⟩ := report_eq d.store e
    rw [hf]
    exact ⟨⟨hend, hflight⟩, rfl⟩
  | cancels => exact ⟨⟨hend, hflight⟩, rfl⟩

/-- The store goes on by itself, and the commits end with these answers. -/
def Goes (answer : FetchedPage → Except Error Unit) (d : Depot) : List Action → Prop
  | [] => True
  | a :: rest =>
    (a = .begin ∨ a = .stop ∨
      ∃ i page, d.store.inFlight[i]? = some page ∧ a = .finish i (answer page)) ∧
    ∀ d', d.step? a = some d' → d'.Goes answer rest

/-- Pages to take and commits to end. -/
def left (d : Depot) : Nat :=
  2 * d.store.queue.length + d.store.inFlight.length

/-- A page that is taken or a commit that ends leaves less to do. -/
theorem Step.left (h : d.Step a d') (ha : a = .begin ∨ ∃ i result, a = .finish i result) :
    d'.left < d.left := by
  have ended {i : Nat} {page : FetchedPage} (hp : d.store.inFlight[i]? = some page) :
      (d.store.inFlight.eraseIdx i).length < d.store.inFlight.length := by
    have hlt := (List.getElem?_eq_some_iff.mp hp).1
    rw [List.length_eraseIdx_of_lt hlt]
    omega
  cases h with
  | drops hq | begins hq =>
    simp only [Depot.left, hq, List.length_cons, List.length_append, List.length_nil]
    omega
  | finishes hp => exact Nat.add_lt_add_left (ended hp) _
  | @breaks i page e hp =>
    obtain ⟨f, hf⟩ := report_eq { d.store with inFlight := d.store.inFlight.eraseIdx i } e
    rw [hf]
    exact Nat.add_lt_add_left (ended hp) _
  | _ => simp at ha

/-- The number of slots does not change, and a queue that is closed stays so. -/
theorem Step.kept (h : d.Step a d') : d'.store.slots = d.store.slots ∧
    (d.store.isClosed = true → d'.store.isClosed = true) := by
  cases h with
  | closes => exact ⟨rfl, fun _ => rfl⟩
  | @breaks i page e hp =>
    obtain ⟨f, hf⟩ := report_eq { d.store with inFlight := d.store.inFlight.eraseIdx i } e
    rw [hf]
    exact ⟨rfl, id⟩
  | fails e =>
    obtain ⟨f, hf⟩ := report_eq d.store e
    rw [hf]
    exact ⟨rfl, id⟩
  | _ => exact ⟨rfl, id⟩

theorem exists_finish {page : FetchedPage} {rest : List FetchedPage}
    (hp : d.store.inFlight = page :: rest) (result : Except Error Unit) :
    ∃ d', d.step? (.finish 0 result) = some d' := by
  cases result <;> simp [step?, hp, PageStore.finish?]

theorem exists_begin {page : FetchedPage} {rest : List FetchedPage}
    (hq : d.store.queue = page :: rest) (hp : d.store.inFlight = []) (hslots : 0 < d.store.slots)
    (hs : d.store.hasStopped = false) : ∃ d', d.step? .begin = some d' := by
  have room : ¬ d.store.slots ≤ 0 := Nat.not_le.mpr hslots
  cases hc : d.store.isCancelled d.cancelled <;> simp [step?, PageStore.begin?, hq, hp, hs, hc, room]

theorem exists_stop (hc : d.isCancelled = true) : ∃ d', d.step? .stop = some d' ∧
    d'.store.hasStopped = true ∧ d'.store.inFlight = d.store.inFlight := by
  have stops : d.store.stop? d.cancelled = some { d.store with hasStopped := true, queue := [] } :=
    if_pos hc
  exact ⟨_, Option.map_eq_some_iff.mpr ⟨_, stops, rfl⟩, rfl, rfl⟩

/-- A store whose queue is closed, or that is cancelled, comes to its end by itself, whatever its commits
end with. -/
theorem exists_return (answer : FetchedPage → Except Error Unit) (hslots : 0 < d.store.slots)
    (hend : d.store.isClosed = true ∨ d.isCancelled = true) :
    ∃ more d', d.Goes answer more ∧ d.run? more = some d' ∧ d'.store.isDone = true := by
  induction hleft : d.left using Nat.strongRecOn generalizing d with
  | ind n ih =>
    subst hleft
    -- An own step that leaves less to do is followed by the rest.
    have next {a : Action} {d₁ : Depot} (hs : d.step? a = some d₁)
        (ha : a = .begin ∨ ∃ i result, a = .finish i result)
        (hown : a = .begin ∨ a = .stop ∨
          ∃ i page, d.store.inFlight[i]? = some page ∧ a = .finish i (answer page)) :
        ∃ more d', d.Goes answer more ∧ d.run? more = some d' ∧ d'.store.isDone = true := by
      have hstep := step_of_step? hs
      obtain ⟨slots, closed⟩ := hstep.kept
      obtain ⟨more, d', hgoes, hrun, hdone⟩ := ih d₁.left (hstep.left ha) (slots ▸ hslots)
        (hend.imp closed hstep.isCancelled) rfl
      refine ⟨a :: more, d', ⟨hown, fun d₂ hs' => ?_⟩, by rw [run?, hs]; exact hrun, hdone⟩
      obtain rfl := Option.some.inj (hs.symm.trans hs')
      exact hgoes
    cases hp : d.store.inFlight with
    | cons page rest =>
      obtain ⟨d₁, hs⟩ := exists_finish hp (answer page)
      exact next hs (.inr ⟨0, answer page, rfl⟩) (.inr (.inr ⟨0, page, by rw [hp]; rfl, rfl⟩))
    | nil =>
      cases hstopped : d.store.hasStopped with
      | true => exact ⟨[], d, trivial, rfl, (isDone_iff _).mpr ⟨.inl hstopped, hp⟩⟩
      | false =>
        cases hq : d.store.queue with
        | cons page rest =>
          obtain ⟨d₁, hs⟩ := exists_begin hq hp hslots hstopped
          exact next hs (.inl rfl) (.inl rfl)
        | nil =>
          rcases hend with hclosed | hc
          · exact ⟨[], d, trivial, rfl, (isDone_iff _).mpr ⟨.inr ⟨hclosed, hq⟩, hp⟩⟩
          · obtain ⟨d₁, hs, hstopped₁, hp₁⟩ := exists_stop hc
            exact ⟨[.stop], d₁, ⟨.inr (.inl rfl), fun _ _ => trivial⟩, by rw [run?, hs]; rfl,
              (isDone_iff _).mpr ⟨.inl hstopped₁, hp₁.trans hp⟩⟩

/-! ### All courses -/

/-- How a store of so many workers serves from its beginning to `d` and on to `d'`. -/
structure Serves (workers : Nat) (initial : Option Error) (d d' : Depot) : Prop where
  /-- Pages are handed over in the order of their arrival, each at most once. -/
  handed : d.begun <+: d.arrived
  /-- When the store is done and nothing was cancelled, each has been handed over once. -/
  all : d.store.isDone = true → d.isCancelled = false → d.store.isClosed = true ∧ d.begun = d.arrived
  inFlight : d.store.inFlight.length ≤ max 1 workers
  /-- A commit that has begun is in flight or has ended once. -/
  commits : d.begun.Perm (d.ended ++ d.store.inFlight)
  cancelled : d.isCancelled = true → d'.isCancelled = true ∧ d'.begun = d.begun
  done : d.store.isDone = true →
    d.store.inFlight = [] ∧ d'.store.isDone = true ∧ d'.store.inFlight = [] ∧ d'.begun = d.begun
  /-- The failure is the first error that was reported, other than being cancelled. -/
  failure : d.store.failure = initial.or (d.reported.find? fun e => !e.isCancelled)
  /-- The download is cancelled from outside or by a failure. -/
  isCancelled_iff : d.isCancelled = true ↔
    d.cancelled = true ∨ initial.isSome = true ∨ ∃ e ∈ d.reported, e.isCancelled = false
  /-- A store that is closed or cancelled ends, whatever its commits end with. -/
  returns : d.store.isClosed = true ∨ d.isCancelled = true →
    ∀ answer : FetchedPage → Except Error Unit,
      ∃ more d₁, d.Goes answer more ∧ d.run? more = some d₁ ∧ d₁.store.isDone = true

/-- In whatever order pages arrive, commits end or fail, the queue is closed and the download cancelled: each
page is handed over once at most, in the order of arrival, and once if the store comes to its end without being
cancelled; commits in flight are no more than the workers, none begins after a cancellation or the end; and the
first failure is kept. -/
theorem serves (workers : Nat) (initial : Option Error) {before after : List Action}
    (hbefore : (ofWorkers workers initial).run? before = some d) (hafter : d.run? after = some d') :
    Serves workers initial d d' := by
  have sound : d.Sound workers initial :=
    run?_induction Sound.step (sound_ofWorkers workers initial) hbefore
  obtain ⟨dropped, harrived, hdropped⟩ := sound.queued
  constructor
  · rw [harrived, List.append_assoc]
    exact List.prefix_append ..
  · intro hdone hc
    have running : d.store.hasStopped = false := by
      cases hs : d.store.hasStopped with
      | false => rfl
      | true =>
        rw [(sound.stopped hs).2] at hc
        cases hc
    obtain ⟨hend, -⟩ := (isDone_iff _).mp hdone
    obtain ⟨hclosed, hqueue⟩ := hend.resolve_left (by simp [running])
    have kept : dropped = [] := hdropped.resolve_right (by simp [hc])
    exact ⟨hclosed, by simp [harrived, kept, hqueue]⟩
  · exact sound.slots ▸ sound.inFlight
  · exact sound.commits
  · intro hc
    exact run?_induction (P := fun d₁ => d₁.isCancelled = true ∧ d₁.begun = d.begun)
      (fun hs h => ⟨hs.isCancelled h.1, (hs.begun h.1).trans h.2⟩) ⟨hc, rfl⟩ hafter
  · intro hdone
    obtain ⟨hdone', hbegun⟩ :=
      run?_induction (P := fun d₁ => d₁.store.isDone = true ∧ d₁.begun = d.begun)
        (fun hs h => ⟨(hs.done h.1).1, (hs.done h.1).2.trans h.2⟩) ⟨hdone, rfl⟩ hafter
    exact ⟨((isDone_iff _).mp hdone).2, hdone', ((isDone_iff _).mp hdone').2, hbegun⟩
  · exact sound.failure
  · rw [isCancelled_eq, sound.failure, Bool.or_eq_true, Option.isSome_or, Bool.or_eq_true,
      List.find?_isSome]
    simp
  · intro hend answer
    exact exists_return answer (by rw [sound.slots]; omega) hend

/-- Three pages and two workers: one commit is cancelled by its collaborator, which is no failure, and the
last page is taken after the queue has been closed. -/
theorem serves_threePages :
    let page (i : Nat) : FetchedPage := ⟨"lib", ⟨i, "u"⟩, ⟨#[]⟩⟩
    let before : List Action := [.arrive (page 1), .begin, .arrive (page 2), .begin,
      .finish 1 (.error .cancelled), .arrive (page 3), .close]
    let after : List Action := [.begin, .finish 0 (.ok ()), .finish 0 (.ok ())]
    ∃ d d', (ofWorkers 2 none).run? before = some d ∧ d.run? after = some d' ∧ Serves 2 none d d' ∧
      d'.store.isDone = true ∧ d'.begun = [page 1, page 2, page 3] := by
  intro page before after
  have ends : ((ofWorkers 2 none).run? before).any (fun d => (d.run? after).any fun d' =>
      d'.store.isDone && d'.begun == [page 1, page 2, page 3]) = true := by
    decide +kernel
  obtain ⟨d, hbefore, hends⟩ := (Option.any_eq_true ..).mp ends
  obtain ⟨d', hafter, hends⟩ := (Option.any_eq_true ..).mp hends
  obtain ⟨hdone, hbegun⟩ := Bool.and_eq_true_iff.mp hends
  exact ⟨d, d', hbefore, hafter, serves 2 none hbefore hafter, hdone, beq_iff_eq.mp hbegun⟩

/-! ### The store of a session -/

/-- A page that is queued arrives. What else is done to the store of a session are the steps of a depot. -/
theorem step?_of_push? {page : FetchedPage} {store : PageStore}
    (h : d.store.push? page = some store) :
    d.step? (.arrive page) = some { d with store, arrived := d.arrived ++ [page] } := by
  unfold PageStore.push? PageStore.hasRoom at h
  split at h
  · rename_i hroom
    cases h
    simp only [Bool.and_eq_true, Bool.not_eq_true'] at hroom
    exact if_neg (by rw [hroom.2, hroom.1.1]; decide)
  · cases h

/-- The workers of a session are at least two, so none is added. -/
theorem ofWorkers_storeSlots (c : Config) :
    PageStore.ofWorkers (Download.storeSlots c.workers) =
      { slots := Download.storeSlots c.workers } := by
  have some_worker : 1 ≤ Download.storeSlots c.workers := by
    unfold Download.storeSlots Config.workers Config.maxConcurrentImages Config.minConcurrentImages
    omega
  rw [PageStore.ofWorkers, Nat.max_eq_right some_worker]

end Depot
end Longbox
