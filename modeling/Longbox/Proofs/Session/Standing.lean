import Longbox.Proofs.Download.Step

/-! What those outside can tell of a session.

The owner of a session holds on to it by the token that is stored and by what calls are answered; the
client hears when the session is to be released, listeners when it has failed. Work on a download
leaves all that as it is (`standing_moveDownload?`). -/
namespace Longbox

/-- The client is asked to release the session, or listeners are told that it has failed. -/
def Happening.isNotice : Happening → Bool
  | .releaseAsked .. | .sent (.downloadFailed ..) => true
  | _ => false

/-- A notice, or the answer of a call. -/
def Happening.isTold : Happening → Bool
  | .answered .. => true
  | x => x.isNotice

theorem Happening.isTold_of_isNotice {x : Happening} (h : x.isNotice = true) : x.isTold = true := by
  cases x <;> first | rfl | exact h

/-- What those outside can tell of a session. -/
structure Standing where
  /-- The token that is cancelled with the session. -/
  token : Option Nat
  cancelRequested : Bool
  callCount : Nat
  /-- The parents of the tokens of the runs so far. -/
  parents : List Nat
  /-- The latest comes first. -/
  told : List Happening

namespace Machine

def standing (m : Machine) : Standing where
  token := m.session.token
  cancelRequested := m.session.cancelRequested
  callCount := m.callCount
  parents := m.tokens.map Token.parent
  told := m.journal.filter Happening.isTold

def notices (m : Machine) : List Happening :=
  m.journal.filter Happening.isNotice

theorem notices_eq {m m' : Machine} (h : m'.standing = m.standing) : m'.notices = m.notices := by
  have of_told (m : Machine) : m.notices = m.standing.told.filter Happening.isNotice := by
    show m.journal.filter _ = (m.journal.filter _).filter _
    rw [List.filter_filter]
    refine List.filter_congr fun x _ => ?_
    cases hx : x.isNotice with
    | true => rw [Happening.isTold_of_isNotice hx]; rfl
    | false => rfl
  rw [of_told, of_told, h]

/-! ### Work on a download -/

section
variable (m : Machine) (id : Nat) (d : Download) (c : ChapterRun)

theorem standing_note {h : Happening} (hh : h.isTold = false) :
    (m.note h).standing = m.standing := by
  simp [standing, note, Session.note, hh]

theorem standing_noteAll {hs : List Happening} (h : ∀ x ∈ hs, x.isTold = false) :
    (m.noteAll hs).standing = m.standing := by
  induction hs generalizing m with
  | nil => rfl
  | cons x rest ih =>
    obtain ⟨hx, hrest⟩ := List.forall_mem_cons.mp h
    exact (ih (m.note x) hrest).trans (m.standing_note hx)

@[simp] theorem standing_setLifecycle (l : Lifecycle) :
    (m.setLifecycle l).standing = m.standing := by
  unfold setLifecycle
  split <;> rfl

@[simp] theorem standing_cancelToken (token : Nat) :
    (m.cancelToken token).standing = m.standing := by
  have parents : (m.cancelToken token).tokens.map Token.parent = m.tokens.map Token.parent := by
    refine List.ext_getElem (by simp [cancelToken]) fun i h h' => ?_
    simp only [cancelToken, List.getElem_map, List.getElem_modify]
    split <;> rfl
  simp only [standing, parents]
  rfl

@[simp] theorem standing_cancelStored : m.cancelStored.standing = m.standing := by
  unfold cancelStored
  split
  · exact m.standing_cancelToken _
  · rfl

@[simp] theorem standing_setStore (store : PageStore) :
    (m.setStore id d store).standing = m.standing := by
  unfold setStore
  dsimp only
  split
  · exact m.standing_cancelToken _
  · rfl

@[simp] theorem standing_closeDownload : (m.closeDownload id d).standing = m.standing := by
  simp [closeDownload]

@[simp] theorem standing_nextChapter : (m.nextChapter id d).standing = m.standing := by
  unfold nextChapter
  split
  · simp
  · split
    · simp
    · rfl

@[simp] theorem standing_report (since : Nat) : (m.report d since).standing = m.standing := by
  unfold report
  dsimp only
  split <;> rfl

@[simp] theorem standing_passChapter (downloaded : Bool) :
    (m.passChapter id d c downloaded).standing = m.standing := by
  cases downloaded
  · simp [passChapter]
  · simp only [passChapter, standing_nextChapter, standing_report]
    rfl

@[simp] theorem standing_failChapter (e : Error) :
    (m.failChapter id d e).standing = m.standing := by
  simp [failChapter]

theorem standing_placeChapter (urls : List String) :
    (m.placeChapter id d c urls).standing = m.standing := by
  unfold placeChapter
  split
  · rw [standing_failChapter]
    rfl
  · rfl

theorem standing_endPass (f : PageFetcher) : (m.endPass id d c f).standing = m.standing := by
  unfold endPass
  dsimp only
  split
  · rfl
  · split
    · simp
    · split
      · rfl
      · simp

end

theorem isTold_of_isWork {x : Happening} (h : x.isWork = true) : x.isTold = false := by
  cases x <;> first | rfl | cases h

/-- Nobody is told of a directory that is removed. -/
theorem standing_removeNext (m : Machine) (c : Call) (cause : Error) (path : String)
    (left : List String) : (m.removeNext c cause (path :: left)).standing = m.standing :=
  standing_noteAll { m with disk := (m.disk.removeAll path).disk } fun _ hx =>
    isTold_of_isWork (Disk.Removal.isWork_of_mem hx)

variable {m m' : Machine} {id : Nat} {d : Download} {c : ChapterRun} {move : Move}

theorem standing_moveFetcher? {f : PageFetcher} (h : m.moveFetcher? id d c f move = some m') :
    m'.standing = m.standing := by
  have fetched {f' : PageFetcher} {hs : List Happening}
      (hf : f.Step (m.isCancelled d.token) move hs f') :
      ((m.noteAll hs).setStage id d c (.fetching f')).standing = m.standing :=
    m.standing_noteAll fun x hx => isTold_of_isWork (hf.isWork x hx)
  cases move with
  | takePage | dropPage =>
    simp only [moveFetcher?, Option.map_eq_some_iff] at h
    obtain ⟨_, -, rfl⟩ := h
    rfl
  | requestPermit =>
    simp only [moveFetcher?, Option.map_eq_some_iff] at h
    obtain ⟨_, hf, rfl⟩ := h
    exact fetched (PageFetcher.step_request? hf)
  | receivePage =>
    simp only [moveFetcher?, Option.map_eq_some_iff] at h
    obtain ⟨_, hf, rfl⟩ := h
    exact fetched (PageFetcher.step_receive? hf)
  | queuePage =>
    simp only [moveFetcher?, Option.bind_eq_bind, Option.bind_eq_some_iff] at h
    obtain ⟨_, -, _, -, h⟩ := h
    cases h
    rfl
  | endPass =>
    simp only [moveFetcher?] at h
    split at h
    · cases h
      exact m.standing_endPass ..
    · cases h
  | _ => simp [moveFetcher?] at h

theorem standing_moveChapter? (h : m.moveChapter? id d c move = some m') :
    m'.standing = m.standing := by
  unfold moveChapter? at h
  split at h
  case h_1 =>
    cases h
    simp
  case h_2 urls _ =>
    have given : (m.note (.urlsGiven c.chapter urls)).standing = m.standing := rfl
    dsimp only at h
    split at h
    · cases h
      rw [standing_passChapter, given]
    · cases h
      exact given
  case h_3 =>
    cases h
    exact m.standing_placeChapter ..
  case h_4 =>
    split at h
    · cases h
      simp
    · cases h
      rfl
  case h_5 => exact standing_moveFetcher? h
  case h_6 =>
    split at h
    · cases h
      simp
    · cases h
  case h_7 =>
    split at h
    · cases h
      simp
    · cases h
  case h_8 => cases h

theorem standing_moveStore? (h : m.moveStore? id d move = some m') : m'.standing = m.standing := by
  cases move with
  | beginCommit =>
    simp only [moveStore?, Option.map_eq_some_iff] at h
    obtain ⟨⟨store, page⟩, -, rfl⟩ := h
    rw [standing_setStore]
    cases page <;> rfl
  | endCommit =>
    simp only [moveStore?, Option.bind_eq_bind, Option.bind_eq_some_iff] at h
    obtain ⟨_, -, _, -, h⟩ := h
    cases h
    rw [standing_setStore]
    rfl
  | stopStore =>
    simp only [moveStore?, Option.map_eq_some_iff] at h
    obtain ⟨_, -, rfl⟩ := h
    simp
  | _ => simp [moveStore?] at h

/-- No move of a download but its end is told of. -/
theorem standing_moveDownload? (h : m.moveDownload? id d move = some m') (hm : move ≠ .finish) :
    m'.standing = m.standing := by
  cases move with
  | beginCommit | endCommit | stopStore =>
    simp only [moveDownload?] at h
    exact standing_moveStore? h
  | timer =>
    obtain ⟨sampled, hs, d', timed, rfl⟩ := moveTimer?_eq_some h
    exact standing_noteAll _ fun x hx => isTold_of_isWork (Happening.isWork_of_isTimed (timed x hx))
  | finish => exact absurd rfl hm
  | _ =>
    simp only [moveDownload?] at h
    split at h
    · exact standing_moveChapter? h
    · cases h

end Machine
end Longbox
