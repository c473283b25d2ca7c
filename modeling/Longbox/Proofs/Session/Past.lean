import Longbox.Proofs.Download.Step

/-! A session does not depend on what it has behind it.

What has happened is only written down, and the numbers of calls are only names. `Machine.after` puts a
past before a machine and counts its calls on from there; `step?_after` and `run?_after` say that a
session with a past goes on just as one without. -/
namespace Longbox

/-- The happening when calls are counted from `k` on. -/
def Happening.countedFrom (k : Nat) : Happening → Happening
  | .answered id result => .answered (id + k) result
  | h => h

/-- The call when calls are counted from `k` on. -/
def Call.countedFrom (k : Nat) (c : Call) : Call :=
  { c with id := c.id + k }

/-- The action when calls are counted from `k` on. -/
def Action.countedFrom (k : Nat) : Action → Action
  | .receivePreferences id result => .receivePreferences (id + k) result
  | .plan id volumes => .plan (id + k) volumes
  | .move id m => .move (id + k) m
  | .removeNext id => .removeNext (id + k)
  | .released id result => .released (id + k) result
  | a => a

theorem Happening.countedFrom_of_work {h : Happening} (hw : h.isWork = true) (k : Nat) :
    h.countedFrom k = h := by
  cases h with
  | answered => cases hw
  | _ => rfl

theorem Session.note_countedFrom (s : Session) (h : Happening) (k : Nat) :
    s.note (h.countedFrom k) = s.note h := by
  cases h <;> rfl

@[simp] theorem Action.countedFrom_zero (a : Action) : a.countedFrom 0 = a := by
  cases a <;> rfl

namespace Machine

/-- The machine with `past` behind it, its calls counted from `k` on. -/
def after (past : List Happening) (k : Nat) (m : Machine) : Machine :=
  { m with
    calls := m.calls.map (Call.countedFrom k)
    callCount := m.callCount + k
    journal := m.journal.map (Happening.countedFrom k) ++ past }

variable (m : Machine) (past : List Happening) (k : Nat)

theorem isCancelled_after (token : Nat) :
    (m.after past k).isCancelled token = m.isCancelled token :=
  rfl

theorem now_after : (m.after past k).now = m.now :=
  rfl

theorem session_after : (m.after past k).session = m.session :=
  rfl

/-! ### Notes, tokens and calls -/

theorem after_note (h : Happening) :
    (m.note h).after past k = (m.after past k).note (h.countedFrom k) := by
  simp only [after, note, Session.note_countedFrom, List.map_cons, List.cons_append]

theorem after_noteAll {hs : List Happening} (hw : ∀ h ∈ hs, h.isWork = true) :
    (m.noteAll hs).after past k = (m.after past k).noteAll hs := by
  induction hs generalizing m with
  | nil => rfl
  | cons h rest ih =>
    obtain ⟨hh, hrest⟩ := List.forall_mem_cons.mp hw
    have first := m.after_note past k h
    rw [Happening.countedFrom_of_work hh] at first
    exact (ih (m.note h) hrest).trans (congrArg (noteAll · rest) first)

theorem after_send (event : Event) : (m.send event).after past k = (m.after past k).send event :=
  m.after_note past k _

theorem after_setLifecycle (l : Lifecycle) :
    (m.setLifecycle l).after past k = (m.after past k).setLifecycle l := by
  unfold setLifecycle
  rw [apply_ite (after past k), after_send]
  rfl

theorem after_cancelStored : m.cancelStored.after past k = (m.after past k).cancelStored := by
  unfold cancelStored
  rw [session_after]
  cases m.session.token <;> rfl

theorem filter_calls_after (id : Nat) :
    (m.after past k).calls.filter (fun c => c.id != id + k) =
      (m.calls.filter fun c => c.id != id).map (Call.countedFrom k) := by
  have same (c : Call) : ((c.countedFrom k).id != id + k) = (c.id != id) := by
    rw [Bool.eq_iff_iff]
    simp [Call.countedFrom]
  rw [after, List.filter_map]
  exact congrArg _ (List.filter_congr fun c _ => same c)

theorem call?_after (id : Nat) :
    (m.after past k).call? (id + k) = (m.call? id).map (Call.countedFrom k) := by
  have same : (fun c => c.id == id + k) ∘ Call.countedFrom k = fun c => c.id == id := by
    funext c
    rw [Bool.eq_iff_iff]
    simp [Call.countedFrom]
  rw [call?, after, List.find?_map, same]
  rfl

theorem after_suspend (c : Call) :
    (m.suspend c).after past k = (m.after past k).suspend (c.countedFrom k) := by
  unfold suspend
  rw [Call.countedFrom, filter_calls_after]
  rfl

theorem after_answer (id : Nat) (r : CallResult) :
    (m.answer id r).after past k = (m.after past k).answer (id + k) r := by
  unfold answer
  rw [filter_calls_after, after_note]
  rfl

theorem after_release (id : Nat) (token : Option Nat) (deleteFiles : Bool) (reason : ReleaseReason) :
    (m.release id token deleteFiles reason).after past k =
      (m.after past k).release (id + k) token deleteFiles reason := by
  unfold release
  rw [after_suspend, after_note]
  rfl

/-! ### A download -/

section
variable (id : Nat) (d : Download) (c : ChapterRun)

theorem after_abort (token : Nat) (cause : Error) :
    (m.abort id token cause).after past k = (m.after past k).abort (id + k) token cause := by
  unfold abort
  rw [after_suspend, after_note, after_cancelStored]
  rfl

theorem after_conclude : (m.conclude id d).after past k = (m.after past k).conclude (id + k) d := by
  unfold conclude
  cases d.store.failure with
  | some cause => exact m.after_abort past k id d.token cause
  | none =>
    dsimp only
    rw [apply_ite (after past k), after_answer, after_release, isCancelled_after]
    rfl

theorem after_setDownload :
    (m.setDownload id d).after past k = (m.after past k).setDownload (id + k) d :=
  m.after_suspend past k _

theorem after_setStore (store : PageStore) :
    (m.setStore id d store).after past k = (m.after past k).setStore (id + k) d store := by
  unfold setStore
  dsimp only
  rw [after_setDownload, apply_ite (after past k)]
  rfl

theorem after_closeDownload :
    (m.closeDownload id d).after past k = (m.after past k).closeDownload (id + k) d := by
  unfold closeDownload
  rw [after_setStore, after_setLifecycle]

theorem after_nextChapter :
    (m.nextChapter id d).after past k = (m.after past k).nextChapter (id + k) d := by
  unfold nextChapter
  cases d.remaining with
  | nil => exact m.after_closeDownload past k id d
  | cons chapter rest =>
    dsimp only
    rw [apply_ite (after past k), after_closeDownload, after_setDownload, after_note,
      isCancelled_after]
    rfl

theorem after_report (since : Nat) :
    (m.report d since).after past k = (m.after past k).report d since := by
  unfold report
  dsimp only
  rw [apply_ite (after past k), after_send, after_send]
  rfl

theorem after_passChapter (downloaded : Bool) :
    (m.passChapter id d c downloaded).after past k =
      (m.after past k).passChapter (id + k) d c downloaded := by
  unfold passChapter
  dsimp only
  rw [after_nextChapter, after_report, apply_ite (after past k), after_send, after_note]
  rfl

theorem after_failChapter (e : Error) :
    (m.failChapter id d e).after past k = (m.after past k).failChapter (id + k) d e :=
  m.after_closeDownload past k id _

theorem after_setStage (stage : ChapterStage) :
    (m.setStage id d c stage).after past k = (m.after past k).setStage (id + k) d c stage :=
  m.after_setDownload past k id _

theorem after_placeChapter (urls : List String) :
    (m.placeChapter id d c urls).after past k = (m.after past k).placeChapter (id + k) d c urls := by
  have hd : (m.after past k).disk = m.disk := rfl
  unfold placeChapter
  rw [hd]
  split
  · exact after_failChapter ..
  · dsimp only
    rw [after_setStage, after_noteAll _ _ _ (by simp [Happening.isWork])]
    rfl

theorem after_fetchChapter (urls : List String) :
    (m.fetchChapter id d c urls).after past k = (m.after past k).fetchChapter (id + k) d c urls := by
  unfold fetchChapter
  rw [after_setStage, after_note]
  rfl

theorem after_endPass (f : PageFetcher) :
    (m.endPass id d c f).after past k = (m.after past k).endPass (id + k) d c f := by
  unfold endPass
  dsimp only
  rw [isCancelled_after]
  split
  · exact after_setStage ..
  · split
    · exact after_failChapter ..
    · rw [apply_ite (after past k), after_setStage, after_passChapter]
      rfl

/-! ### Moves -/

theorem after_moveFetcher? (f : PageFetcher) (move : Move) :
    (m.moveFetcher? id d c f move).map (after past k) =
      (m.after past k).moveFetcher? (id + k) d c f move := by
  have fetched {x : Option (PageFetcher × List Happening)}
      (hw : ∀ f' hs, x = some (f', hs) → ∀ h ∈ hs, h.isWork = true) :
      (x.map fun y => (m.noteAll y.2).setStage id d c (.fetching y.1)).map (after past k) =
        x.map fun y => ((m.after past k).noteAll y.2).setStage (id + k) d c (.fetching y.1) := by
    cases x with
    | none => rfl
    | some y =>
      have noted := m.after_noteAll past k (hw y.1 y.2 rfl)
      rw [Option.map_some, Option.map_some, after_setStage, noted, Option.map_some]
  cases move with
  | takePage =>
    simp only [moveFetcher?, isCancelled_after, now_after, Option.map_map, Function.comp_def,
      after_setStage]
  | requestPermit slot =>
    simp only [moveFetcher?, isCancelled_after, now_after]
    exact fetched fun f' hs h => (PageFetcher.step_request? h).isWork
  | receivePage slot result =>
    simp only [moveFetcher?]
    refine fetched fun f' hs h => ?_
    have step : f.Step false (.receivePage slot result) hs f' := PageFetcher.step_receive? h
    exact step.isWork
  | queuePage slot =>
    simp only [moveFetcher?, Option.map_bind, Function.comp_def, Option.bind_eq_bind, Option.map_some,
      after_setStage, after_note]
    rfl
  | dropPage slot =>
    simp only [moveFetcher?, isCancelled_after, Option.map_map, Function.comp_def, after_setStage]
  | endPass =>
    simp only [moveFetcher?, apply_ite (Option.map (after past k)), Option.map_some, Option.map_none,
      after_endPass]
  | _ => rfl

theorem after_moveChapter? (move : Move) :
    (m.moveChapter? id d c move).map (after past k) =
      (m.after past k).moveChapter? (id + k) d c move := by
  unfold moveChapter?
  split
  · rw [Option.map_some, after_failChapter]
  · rename_i urls _
    have noted := m.after_note past k (.urlsGiven c.chapter urls)
    dsimp only
    rw [apply_ite (Option.map (after past k)), Option.map_some, Option.map_some, after_passChapter,
      after_setStage, noted]
    rfl
  · rw [Option.map_some, after_placeChapter]
  · split
    · rw [Option.map_some, after_failChapter]
    · rw [Option.map_some, after_fetchChapter]
  · exact after_moveFetcher? ..
  · rw [apply_ite (Option.map (after past k)), Option.map_some, after_passChapter, now_after]
    rfl
  · rw [apply_ite (Option.map (after past k)), Option.map_some, after_failChapter, isCancelled_after]
    rfl
  · rfl

theorem after_moveStore? (move : Move) :
    (m.moveStore? id d move).map (after past k) = (m.after past k).moveStore? (id + k) d move := by
  cases move with
  | beginCommit =>
    have begun (page : Option FetchedPage) : ∀ h ∈ (page.map Happening.commitBegun).toList,
        h.isWork = true := by
      cases page <;> simp [Happening.isWork]
    simp only [moveStore?, isCancelled_after, Option.map_map, Function.comp_def, after_setStore,
      after_noteAll _ _ _ (begun _)]
  | endCommit index result =>
    simp only [moveStore?, Option.map_bind, Function.comp_def, Option.bind_eq_bind, Option.map_some,
      after_setStore, after_note]
    rfl
  | stopStore =>
    simp only [moveStore?, isCancelled_after, Option.map_map, Function.comp_def, after_setStore]
  | _ => rfl

theorem after_moveTimer? (step : TimerStep) :
    (m.moveTimer? id d step).map (after past k) = (m.after past k).moveTimer? (id + k) d step := by
  cases step with
  | tick =>
    cases hr : d.reading with
    | none => simp only [moveTimer?, hr, Option.map_some, after_setDownload, after_note]; rfl
    | some r => simp only [moveTimer?, hr, Option.map_none]
  | load what =>
    simp only [moveTimer?, Option.map_bind, Function.comp_def, Option.bind_eq_bind, Option.map_some,
      after_setDownload]
    rfl
  | swap =>
    simp only [moveTimer?, Option.map_bind, Function.comp_def, Option.bind_eq_bind,
      apply_ite (Option.map (after past k)), Option.map_some, Option.map_none, after_setDownload]
    rfl
  | send =>
    simp only [moveTimer?, Option.map_bind, Function.comp_def, Option.bind_eq_bind, Option.map_some,
      after_setDownload, after_note]
    rfl

theorem after_moveDownload? (move : Move) :
    (m.moveDownload? id d move).map (after past k) =
      (m.after past k).moveDownload? (id + k) d move := by
  unfold moveDownload?
  split
  · exact after_moveStore? ..
  · exact after_moveStore? ..
  · exact after_moveStore? ..
  · exact after_moveTimer? ..
  · rw [apply_ite (Option.map (after past k)), Option.map_some, after_conclude]
    rfl
  · cases d.current with
    | none => rfl
    | some c => exact after_moveChapter? ..

end

/-! ### Preparing, running and the end -/

section
variable (id : Nat) (token : Option Nat)

theorem after_startDownload (t : Nat) :
    (m.startDownload id t).after past k = (m.after past k).startDownload (id + k) t := by
  unfold startDownload
  dsimp only
  rw [apply_ite (after past k), after_release, after_setLifecycle, after_nextChapter,
    after_setLifecycle]
  rfl

theorem after_afterPreparation :
    (m.afterPreparation id token).after past k =
      (m.after past k).afterPreparation (id + k) token := by
  unfold afterPreparation
  rw [session_after]
  cases token with
  | none => exact after_answer ..
  | some t =>
    cases m.session.outcome with
    | some outcome => exact after_answer ..
    | none => exact after_startDownload ..

theorem after_listCatalog (preferences : Option TagPreferences) :
    (m.listCatalog id token preferences).after past k =
      (m.after past k).listCatalog (id + k) token preferences := by
  unfold listCatalog
  dsimp only
  rw [after_suspend, after_note]
  rfl

theorem after_prepare :
    (m.prepare id token).after past k = (m.after past k).prepare (id + k) token := by
  have hl : (m.after past k).setLifecycle .loading = (m.setLifecycle .loading).after past k :=
    (m.after_setLifecycle past k .loading).symm
  unfold prepare
  dsimp only
  rw [hl, apply_ite (after past k), apply_ite (after past k), apply_ite (after past k),
    after_afterPreparation, after_answer, after_suspend, after_note, after_listCatalog]
  rfl

theorem after_makePlan (volumes : Archive → Option String) :
    (m.makePlan id token volumes).after past k =
      (m.after past k).makePlan (id + k) token volumes := by
  unfold makePlan
  dsimp only
  rw [apply_ite (after past k), after_release, after_afterPreparation, after_setLifecycle,
    after_setLifecycle]
  rfl

theorem after_released (reason : ReleaseReason) :
    (m.released id token reason).after past k =
      (m.after past k).released (id + k) token reason := by
  cases reason with
  | emptyPlan => exact after_afterPreparation ..
  | emptySelection => exact after_answer ..
  | finished chapters => exact after_answer ..
  | failed cause =>
    unfold released
    dsimp only
    rw [after_answer]
    exact congrArg (fun m' : Machine => (m'.setOutcome (.aborted cause.message)).answer (id + k)
      (.ok (some (.aborted cause.message)))) (m.after_send past k _)

theorem after_run (parent : Nat) :
    (m.run id parent).after past k = (m.after past k).run (id + k) parent := by
  unfold run
  rw [session_after]
  cases m.session.outcome with
  | some outcome => exact after_answer ..
  | none =>
    dsimp only
    rw [apply_ite (after past k), apply_ite (after past k), after_answer, after_answer, after_prepare]
    rfl

theorem after_select (ids : List String) :
    (m.select id ids).after past k = (m.after past k).select (id + k) ids := by
  unfold select
  rw [apply_ite (after past k), after_answer, after_answer]
  rfl

theorem after_cancel : (m.cancel id).after past k = (m.after past k).cancel (id + k) := by
  unfold cancel
  rw [after_answer, after_cancelStored]
  rfl

end

theorem after_begin (op : Operation) :
    (m.begin op).after past k = (m.after past k).begin op := by
  have counted : after past k { m with callCount := m.callCount + 1 } =
      { m.after past k with callCount := m.callCount + k + 1 } := by
    rw [after, Nat.add_right_comm]
    rfl
  cases op with
  | prepare => exact (after_prepare ..).trans (by rw [counted]; rfl)
  | run parent => exact (after_run ..).trans (by rw [counted]; rfl)
  | select ids => exact (after_select ..).trans (by rw [counted]; rfl)
  | cancel => exact (after_cancel ..).trans (by rw [counted]; rfl)

theorem after_removeNext (c : Call) (cause : Error) (left : List String) :
    (m.removeNext c cause left).after past k =
      (m.after past k).removeNext (c.countedFrom k) cause left := by
  cases left with
  | nil => exact after_release ..
  | cons path left =>
    have work (removal : Disk.Removal) : ∀ h ∈ (removal.cleared.map (Happening.cleared path)).toList ++
        (removal.fault.map (Happening.removalFailed path)).toList, h.isWork = true := by
      intro h hh
      simp only [List.mem_append, Option.mem_toList, Option.map_eq_some_iff] at hh
      rcases hh with ⟨_, -, rfl⟩ | ⟨_, -, rfl⟩ <;> rfl
    unfold removeNext
    dsimp only
    rw [after_suspend, after_noteAll _ _ _ (work _)]
    rfl

theorem after_stepCall? (c : Call) (a : Action) :
    (m.stepCall? c a).map (after past k) =
      (m.after past k).stepCall? (c.countedFrom k) (a.countedFrom k) := by
  have hs : (c.countedFrom k).stage = c.stage := rfl
  cases a with
  | receivePreferences _ result =>
    simp only [stepCall?, Action.countedFrom, hs, apply_ite (Option.map (after past k)),
      Option.map_some, Option.map_none, after_listCatalog]
    rfl
  | plan _ volumes =>
    simp only [stepCall?, Action.countedFrom, hs, apply_ite (Option.map (after past k)),
      Option.map_some, Option.map_none, after_makePlan]
    rfl
  | move _ move =>
    simp only [stepCall?, Action.countedFrom, hs]
    cases c.stage with
    | downloading d => exact after_moveDownload? ..
    | _ => rfl
  | removeNext _ =>
    simp only [stepCall?, Action.countedFrom, hs]
    cases c.stage with
    | removing cause left => exact congrArg some (after_removeNext ..)
    | _ => rfl
  | released _ _ =>
    simp only [stepCall?, Action.countedFrom, hs]
    cases c.stage with
    | releasing reason => exact congrArg some (after_released ..)
    | _ => rfl
  | _ => rfl

/-- A session with a past goes on just as one without. -/
theorem step?_after (a : Action) :
    (m.after past k).step? (a.countedFrom k) = (m.step? a).map (after past k) := by
  have ofCall {id : Nat} (h : ∀ m : Machine, m.step? a = (m.call? id).bind fun c => m.stepCall? c a)
      (hk : ∀ m : Machine, m.step? (a.countedFrom k) =
        (m.call? (id + k)).bind fun c => m.stepCall? c (a.countedFrom k)) :
      (m.after past k).step? (a.countedFrom k) = (m.step? a).map (after past k) := by
    rw [h, hk, call?_after]
    cases m.call? id with
    | none => rfl
    | some c => exact (m.after_stepCall? past k c a).symm
  cases a with
  | call op => exact congrArg some (after_begin ..).symm
  | cancelParent parent => rfl
  | pass nanos => rfl
  | _ => exact ofCall (fun _ => rfl) fun _ => rfl

theorem run?_after (actions : List Action) :
    (m.after past k).run? (actions.map (Action.countedFrom k)) =
      (m.run? actions).map (after past k) := by
  induction actions generalizing m with
  | nil => rfl
  | cons a rest ih =>
    rw [List.map_cons, run?, step?_after, run?]
    cases m.step? a with
    | none => rfl
    | some m' => exact ih m'

end Machine
end Longbox
