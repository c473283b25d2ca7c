import Longbox.Proofs.Session.Inversion

/-! What is said of a download while it goes on.

A move of a download may report the progress, say that a chapter is through, and close the download,
which is a new stage of the session. `speaks_moveDownload?` says which of that a move does and with
which counters; no move says anything else. -/
namespace Longbox

/-- Something said of a session or asked about it, not work on its download. What the timer reports on its
own is part of the work. -/
def Happening.isTalk (x : Happening) : Bool :=
  !x.isWork

/-- What is said, and what it is said of. -/
structure Voice where
  request : Request
  lifecycle : Lifecycle
  counters : Counters
  /-- The latest comes first. -/
  talk : List Happening

namespace Machine

def talk (m : Machine) : List Happening :=
  m.journal.filter Happening.isTalk

def voice (m : Machine) : Voice where
  request := m.session.request
  lifecycle := m.session.lifecycle
  counters := m.session.counters
  talk := m.talk

/-- A report of the progress, as the counters are. -/
def progress (m : Machine) (d : Download) (speed : Nat) : Event :=
  .progress m.session.request.id (Single.percent m.session.counters.chapters d.planned) speed
    m.session.counters.images m.session.counters.pages

/-- What a move of a download has said by `m'`, the latest first. -/
inductive Says (m : Machine) (d : Download) (m' : Machine) : List Event → Prop where
  | nothing (hc : m'.session.counters.chapters = m.session.counters.chapters) : m.Says d m' []
  | reports (speed : Nat) (hc : m'.session.counters = m.session.counters) :
      m.Says d m' [m'.progress d speed]
  | completes {c : ChapterRun} (speed : Nat) (hd : d.current = some c) (hs : c.stage ≠ .resolving)
      (hc : m'.session.counters = m.session.counters.note .chapterDownloaded) :
      m.Says d m' [m'.progress d speed, .chapterCompleted m.session.request.id c.chapter.id]

/-- The download closes, or the stage of the session is the same. -/
inductive Closes (m m' : Machine) : List Event → Prop where
  | stays (hl : m'.session.lifecycle = m.session.lifecycle) : m.Closes m' []
  | closes (hl : m.session.lifecycle ≠ .cleanup) (hl' : m'.session.lifecycle = .cleanup) :
      m.Closes m' [.stateChanged m.session.request.id .cleanup]

/-- A move says something of the progress, and then the download may close. -/
def Speaks (m : Machine) (d : Download) (m' : Machine) : Prop :=
  m'.session.request = m.session.request ∧ ∃ said closing, m.Says d m' said ∧
    m.Closes m' closing ∧ m'.talk = (closing ++ said).map .sent ++ m.talk

/-! ### Operations -/

section
variable (m : Machine) (id : Nat) (d : Download)

theorem voice_note {h : Happening} (hw : h.isWork = true) :
    (m.note h).voice = { m.voice with counters := m.session.counters.note h } := by
  simp [voice, talk, note, Session.note, Happening.isTalk, hw]

theorem voice_send (event : Event) :
    (m.send event).voice = { m.voice with talk := .sent event :: m.talk } := by
  simp [voice, talk, send, note, Session.note, Happening.isTalk, Happening.isWork, Counters.note]

@[simp] theorem voice_setStore (store : PageStore) : (m.setStore id d store).voice = m.voice := by
  unfold setStore
  dsimp only
  split <;> rfl

theorem voice_closeDownload :
    (m.closeDownload id d).voice = (m.setLifecycle .cleanup).voice :=
  voice_setStore ..

theorem voice_nextChapter : (m.nextChapter id d).voice = m.voice ∨
    (m.nextChapter id d).voice = (m.setLifecycle .cleanup).voice := by
  unfold nextChapter
  split
  · exact .inr (m.voice_closeDownload id d)
  · split
    · exact .inr (m.voice_closeDownload id d)
    · exact .inl (m.voice_note rfl)

theorem progress_eq {m m' : Machine} (hr : m'.session.request = m.session.request)
    (hc : m'.session.counters = m.session.counters) (d : Download) (speed : Nat) :
    m'.progress d speed = m.progress d speed := by
  simp only [progress, hr, hc]

theorem voice_report (since : Nat) : ∃ speed, (m.report d since).voice =
    { m.voice with talk := .sent (m.progress d speed) :: m.talk } := by
  unfold report
  dsimp only
  split
  · exact ⟨_, m.voice_send _⟩
  · exact ⟨_, voice_send { m with session := { m.session with
      sampled := m.session.counters.images } } _⟩

end

/-- Nothing is said, and no chapter is counted. -/
structure Hushes (m m' : Machine) : Prop where
  request : m'.session.request = m.session.request
  lifecycle : m'.session.lifecycle = m.session.lifecycle
  chapters : m'.session.counters.chapters = m.session.counters.chapters
  talk : m'.talk = m.talk

variable {m m₁ m' : Machine} {id : Nat} {d : Download} {c : ChapterRun} {move : Move}

theorem Hushes.of_voice (h : m'.voice = m.voice) : m.Hushes m' where
  request := congrArg Voice.request h
  lifecycle := congrArg Voice.lifecycle h
  chapters := congrArg (fun v => v.counters.chapters) h
  talk := congrArg Voice.talk h

theorem Hushes.note (h : m.Hushes m₁) (x : Happening) (hw : x.isWork = true)
    (hx : x ≠ .chapterDownloaded) : m.Hushes (m₁.note x) := by
  have counted (counters : Counters) : (counters.note x).chapters = counters.chapters := by
    cases x with
    | chapterDownloaded => exact absurd rfl hx
    | fetchEnded _ _ isRetry result =>
      cases result with
      | ok => rfl
      | error e =>
        simp only [Counters.note]
        split <;> rfl
    | _ => rfl
  have noted := m₁.voice_note hw
  exact {
    request := h.request
    lifecycle := h.lifecycle
    chapters := (counted _).trans h.chapters
    talk := (congrArg Voice.talk noted).trans h.talk }

theorem Hushes.noteAll (h : m.Hushes m₁) {hs : List Happening}
    (hx : ∀ x ∈ hs, x.isWork = true ∧ x ≠ .chapterDownloaded) : m.Hushes (m₁.noteAll hs) := by
  induction hs generalizing m₁ with
  | nil => exact h
  | cons x rest ih =>
    obtain ⟨⟨hw, hne⟩, hrest⟩ := List.forall_mem_cons.mp hx
    exact ih (h.note x hw hne) hrest

theorem Hushes.speaks (h : m.Hushes m') : m.Speaks d m' :=
  ⟨h.request, [], [], .nothing h.chapters, .stays h.lifecycle, h.talk⟩

theorem Hushes.setStage (h : m.Hushes m₁) (id : Nat) (d' : Download) (c : ChapterRun)
    (stage : ChapterStage) : m.Speaks d (m₁.setStage id d' c stage) :=
  Hushes.speaks { h with }

/-- After something has been said, the next chapter begins or the download closes. -/
theorem Says.speaks {said : List Event} (hs : m.Says d m₁ said)
    (hr : m₁.session.request = m.session.request)
    (hl : m₁.session.lifecycle = m.session.lifecycle) (ht : m₁.talk = said.map .sent ++ m.talk)
    (hv : m'.voice = m₁.voice ∨ m'.voice = (m₁.setLifecycle .cleanup).voice) : m.Speaks d m' := by
  have settled (h : m'.session.request = m₁.session.request)
      (hc : m'.session.counters = m₁.session.counters) : m.Says d m' said := by
    cases hs with
    | nothing hc' => exact .nothing (hc ▸ hc')
    | reports speed hc' =>
      rw [← progress_eq h hc]
      exact .reports speed (hc.trans hc')
    | completes speed hd hs hc' =>
      rw [← progress_eq h hc]
      exact .completes speed hd hs (hc.trans hc')
  rcases hv with hv | hv
  · have request := congrArg Voice.request hv
    exact ⟨request.trans hr, said, [], settled request (congrArg Voice.counters hv),
      .stays ((congrArg Voice.lifecycle hv).trans hl), (congrArg Voice.talk hv).trans ht⟩
  · by_cases hclosed : m₁.session.lifecycle = .cleanup
    · rw [show m₁.setLifecycle .cleanup = m₁ by simp [setLifecycle, hclosed]] at hv
      have request := congrArg Voice.request hv
      exact ⟨request.trans hr, said, [], settled request (congrArg Voice.counters hv),
        .stays ((congrArg Voice.lifecycle hv).trans hl), (congrArg Voice.talk hv).trans ht⟩
    · have moved : (m₁.setLifecycle .cleanup).voice = { m₁.voice with
          lifecycle := .cleanup
          talk := .sent (.stateChanged m₁.session.request.id .cleanup) :: m₁.talk } := by
        rw [setLifecycle, if_neg hclosed]
        exact voice_send { m₁ with session := { m₁.session with lifecycle := .cleanup } } _
      rw [moved] at hv
      have request := congrArg Voice.request hv
      refine ⟨request.trans hr, said, [.stateChanged m.session.request.id .cleanup],
        settled request (congrArg Voice.counters hv),
        .closes (hl ▸ hclosed) (congrArg Voice.lifecycle hv), ?_⟩
      refine (congrArg Voice.talk hv).trans ?_
      rw [ht, hr]
      rfl

/-- It makes no difference what work was done before. -/
theorem Speaks.of_voice (hv : m₁.voice = m.voice) (h : m₁.Speaks d m') : m.Speaks d m' := by
  obtain ⟨hr, said, closing, hsays, hcloses, htalk⟩ := h
  have request : m₁.session.request = m.session.request := congrArg Voice.request hv
  have counters : m₁.session.counters = m.session.counters := congrArg Voice.counters hv
  have lifecycle : m₁.session.lifecycle = m.session.lifecycle := congrArg Voice.lifecycle hv
  have talk : m₁.talk = m.talk := congrArg Voice.talk hv
  refine ⟨hr.trans request, said, closing, ?_, ?_, htalk.trans (by rw [talk])⟩
  · cases hsays with
    | nothing hc => exact .nothing (counters ▸ hc)
    | reports speed hc => exact .reports speed (counters ▸ hc)
    | completes speed hd hs hc =>
      rw [request]
      exact .completes speed hd hs (counters ▸ hc)
  · cases hcloses with
    | stays hl => exact .stays (lifecycle ▸ hl)
    | closes hl hl' =>
      rw [request]
      exact .closes (lifecycle ▸ hl) hl'

theorem speaks_failChapter (m : Machine) (id : Nat) (d d' : Download) (e : Error) :
    m.Speaks d (m.failChapter id d' e) :=
  Says.speaks (.nothing rfl) rfl rfl rfl (.inr (m.voice_closeDownload id _))

theorem speaks_passChapter (m : Machine) (id : Nat) {d : Download} (hd : d.current = some c)
    (downloaded : Bool) (hs : downloaded = true → c.stage ≠ .resolving) :
    m.Speaks d (m.passChapter id d c downloaded) := by
  cases downloaded with
  | false =>
    obtain ⟨speed, hv⟩ := m.voice_report d c.began
    have told : m.Says d (m.report d c.began) [(m.report d c.began).progress d speed] :=
      .reports speed (congrArg Voice.counters hv)
    refine told.speaks (congrArg Voice.request hv) (congrArg Voice.lifecycle hv) ?_
      (voice_nextChapter ..)
    rw [progress_eq (congrArg Voice.request hv) (congrArg Voice.counters hv)]
    exact congrArg Voice.talk hv
  | true =>
    generalize htold : (m.note .chapterDownloaded).send
      (.chapterCompleted m.session.request.id c.chapter.id) = told
    have hv₀ : told.voice = { m.voice with
        counters := m.session.counters.note .chapterDownloaded
        talk := .sent (.chapterCompleted m.session.request.id c.chapter.id) :: m.talk } := by
      have noted := m.voice_note (h := .chapterDownloaded) rfl
      rw [← htold, voice_send, noted, show (m.note .chapterDownloaded).talk = m.talk from
        congrArg Voice.talk noted]
    obtain ⟨speed, hv⟩ := told.voice_report d c.began
    have request : (told.report d c.began).session.request = m.session.request :=
      (congrArg Voice.request hv).trans (congrArg Voice.request hv₀)
    have counters := congrArg Voice.counters hv
    have completes : m.Says d (told.report d c.began) [(told.report d c.began).progress d speed,
        .chapterCompleted m.session.request.id c.chapter.id] :=
      .completes speed hd (hs rfl) (counters.trans (congrArg Voice.counters hv₀))
    unfold passChapter
    rw [if_pos rfl, htold]
    refine completes.speaks request
      ((congrArg Voice.lifecycle hv).trans (congrArg Voice.lifecycle hv₀)) ?_ (voice_nextChapter ..)
    rw [progress_eq (congrArg Voice.request hv) counters]
    refine (congrArg Voice.talk hv).trans ?_
    rw [show told.talk = _ from congrArg Voice.talk hv₀]
    rfl

/-! ### Moves -/

theorem speaks_placeChapter (m : Machine) (id : Nat) (d : Download) (c : ChapterRun)
    (urls : List String) : m.Speaks d (m.placeChapter id d c urls) := by
  unfold placeChapter
  split
  · rename_i disk fault _
    have kept : ({ m with disk } : Machine).voice = m.voice := rfl
    exact Speaks.of_voice kept (speaks_failChapter ..)
  · rename_i disk _
    have made : m.Hushes { m with disk, session := m.session.addDirectory c.dir } := .of_voice rfl
    exact (made.noteAll (by simp [Happening.isWork])).setStage ..

theorem speaks_endPass (m : Machine) (id : Nat) {d : Download} (hd : d.current = some c)
    {f : PageFetcher} (hc : c.stage = .fetching f) : m.Speaks d (m.endPass id d c f) := by
  unfold endPass
  dsimp only
  have same : m.Hushes m := .of_voice rfl
  split
  · exact same.setStage ..
  · split
    · exact speaks_failChapter ..
    · split
      · exact same.setStage ..
      · exact m.speaks_passChapter id hd true fun _ => by simp [hc]

theorem ne_chapterDownloaded {cancelled : Bool} {f f' : PageFetcher} {hs : List Happening}
    (h : f.Step cancelled move hs f') : ∀ x ∈ hs, x ≠ .chapterDownloaded := by
  cases h <;> simp

theorem speaks_moveFetcher? {f : PageFetcher} (hd : d.current = some c) (hc : c.stage = .fetching f)
    (h : m.moveFetcher? id d c f move = some m') : m.Speaks d m' := by
  have same : m.Hushes m := .of_voice rfl
  have fetched {f' : PageFetcher} {hs : List Happening}
      (hf : f.Step (m.isCancelled d.token) move hs f') :
      m.Speaks d ((m.noteAll hs).setStage id d c (.fetching f')) := by
    exact (same.noteAll fun x hx => ⟨hf.isWork x hx, ne_chapterDownloaded hf x hx⟩).setStage ..
  cases move with
  | takePage | dropPage =>
    simp only [moveFetcher?, Option.map_eq_some_iff] at h
    obtain ⟨_, -, rfl⟩ := h
    exact same.setStage ..
  | requestPermit =>
    simp only [moveFetcher?, Option.map_eq_some_iff] at h
    obtain ⟨_, hf, rfl⟩ := h
    exact fetched (PageFetcher.step_request? hf)
  | receivePage =>
    simp only [moveFetcher?, Option.map_eq_some_iff] at h
    obtain ⟨_, hf, rfl⟩ := h
    exact fetched (PageFetcher.step_receive? hf)
  | queuePage =>
    simp only [moveFetcher?, Option.bind_eq_bind, Option.bind_eq_some_iff] at h
    obtain ⟨⟨f', page⟩, -, store, -, h⟩ := h
    cases h
    exact (same.note (.pageQueued page) rfl (by simp)).setStage ..
  | endPass =>
    simp only [moveFetcher?] at h
    split at h
    · cases h
      exact m.speaks_endPass id hd hc
    · cases h
  | _ => simp [moveFetcher?] at h

theorem speaks_moveChapter? (hd : d.current = some c) (h : m.moveChapter? id d c move = some m') :
    m.Speaks d m' := by
  unfold moveChapter? at h
  split at h
  case h_1 =>
    cases h
    exact speaks_failChapter ..
  case h_2 urls _ =>
    have given : (m.note (.urlsGiven c.chapter urls)).voice = m.voice := m.voice_note rfl
    dsimp only at h
    split at h
    · cases h
      exact .of_voice given (speaks_passChapter _ id hd false nofun)
    · cases h
      exact (Hushes.of_voice given).setStage ..
  case h_3 =>
    cases h
    exact m.speaks_placeChapter ..
  case h_4 urls _ _ =>
    split at h
    · cases h
      exact speaks_failChapter ..
    · cases h
      have same : m.Hushes m := .of_voice rfl
      exact (same.note (.fetchingBegun c.dir urls.length) rfl nofun).setStage ..
  case h_5 hc => exact speaks_moveFetcher? hd hc h
  case h_6 hc =>
    split at h
    · cases h
      exact m.speaks_passChapter id hd true fun _ => by simp [hc]
    · cases h
  case h_7 =>
    split at h
    · cases h
      exact speaks_failChapter ..
    · cases h
  case h_8 => cases h

theorem speaks_moveStore? (h : m.moveStore? id d move = some m') : m.Speaks d m' := by
  cases move with
  | beginCommit =>
    simp only [moveStore?, Option.map_eq_some_iff] at h
    obtain ⟨⟨store, page⟩, -, rfl⟩ := h
    refine (Hushes.of_voice ?_).speaks
    rw [voice_setStore]
    cases page with
    | none => rfl
    | some page => exact m.voice_note rfl
  | endCommit =>
    simp only [moveStore?, Option.bind_eq_bind, Option.bind_eq_some_iff] at h
    obtain ⟨_, -, _, -, h⟩ := h
    cases h
    refine (Hushes.of_voice ?_).speaks
    rw [voice_setStore]
    exact voice_note { m with disk := _ } rfl
  | stopStore =>
    simp only [moveStore?, Option.map_eq_some_iff] at h
    obtain ⟨_, -, rfl⟩ := h
    exact (Hushes.of_voice (m.voice_setStore ..)).speaks
  | _ => simp [moveStore?] at h

/-- Each move of a download says something of its progress and closes it, or does less than that. -/
theorem speaks_moveDownload? (h : m.moveDownload? id d move = some m') (hm : move ≠ .finish) :
    m.Speaks d m' := by
  cases move with
  | beginCommit | endCommit | stopStore =>
    simp only [moveDownload?] at h
    exact speaks_moveStore? h
  | timer =>
    obtain ⟨sampled, hs, d', timed, rfl⟩ := moveTimer?_eq_some h
    have same : m.Hushes { m with session := { m.session with sampled } } := .of_voice rfl
    have hushed := same.noteAll fun x hx => ⟨Happening.isWork_of_isTimed (timed x hx), by
      rintro rfl
      cases timed _ hx⟩
    exact Hushes.speaks { hushed with }
  | finish => exact absurd rfl hm
  | _ =>
    simp only [moveDownload?] at h
    split at h
    · rename_i c hd
      exact speaks_moveChapter? hd h
    · cases h

end Machine
end Longbox
