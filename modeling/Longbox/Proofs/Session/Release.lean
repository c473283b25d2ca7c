import Longbox.Proofs.Session.Inversion

/-! How the client is asked to release a session that has nothing to download.

Before a download the client is asked for that only, and a session about whose release it has been asked
is prepared and has nothing to download (`Machine.Asked`). While the client is asked, a run finds the
session still without an outcome and asks once more (`Asked.impatient`); as long as no such run comes
(`Machine.Patient`), the client is asked once (`Asked.prelude`). -/
namespace Longbox

namespace Outcome

/-- Whether the client is to release a session that ends so, and then whether with the files. -/
def release? : Outcome → Option Bool
  | .completed _ | .nothingToDownload => some false
  | .aborted _ => some true
  | .cancelled => none

/-- What a session failed of. -/
def reason? : Outcome → Option String
  | .aborted reason => some reason
  | _ => none

/-- How the client is asked to release a session that ends so. -/
def releases (request : Request) (o : Outcome) : List Happening :=
  (o.release?.map (Happening.releaseAsked request.id)).toList

/-- What listeners are told of a session that ended so. -/
def failures (request : Request) (o : Outcome) : List Happening :=
  (o.reason?.map fun reason => .sent (.downloadFailed request.id request.title reason)).toList

end Outcome

/-- The client is asked to release the session with this id, with its files or without. -/
def Happening.release? : Happening → Option (String × Bool)
  | .releaseAsked id deleteFiles => some (id, deleteFiles)
  | _ => none

/-- Listeners are told the id and the title of a session that failed, and of what. -/
def Happening.failure? : Happening → Option (String × String × String)
  | .sent (.downloadFailed id title reason) => some (id, title, reason)
  | _ => none

namespace Journal

/-- What the client has been asked to release, the oldest first. -/
def releases (hs : List Happening) : List (String × Bool) :=
  (hs.filterMap Happening.release?).reverse

/-- What listeners have been told that failed, the oldest first. -/
def failures (hs : List Happening) : List (String × String × String) :=
  (hs.filterMap Happening.failure?).reverse

end Journal

/-- The call waits for the client to release the session. -/
def Call.isReleasing (c : Call) : Bool :=
  match c.stage with
  | .releasing _ => true
  | _ => false

namespace Machine

variable {disk : Disk} {m m' m₁ : Machine} {a : Action} {p p' : Phase} {id : Nat} {d : Download}
  {token : Option Nat} {o : Outcome}

/-! ### What is heard are notices -/

theorem releases_notices (m : Machine) : Journal.releases m.notices = Journal.releases m.journal := by
  unfold Journal.releases notices
  rw [List.filterMap_filter]
  congr 2
  funext x
  cases x with
  | sent event => cases event <;> rfl
  | _ => rfl

theorem failures_notices (m : Machine) : Journal.failures m.notices = Journal.failures m.journal := by
  unfold Journal.failures notices
  rw [List.filterMap_filter]
  congr 2
  funext x
  cases x with
  | sent event => cases event <;> rfl
  | _ => rfl

theorem mem_releases {id : String} {deleteFiles : Bool} :
    (id, deleteFiles) ∈ Journal.releases m.journal ↔ .releaseAsked id deleteFiles ∈ m.notices := by
  rw [← releases_notices, Journal.releases, List.mem_reverse, List.mem_filterMap]
  constructor
  · rintro ⟨x, hx, hrelease⟩
    cases x <;> cases hrelease
    exact hx
  · exact fun h => ⟨_, h, rfl⟩

@[simp] theorem notices_setLifecycle (m : Machine) (l : Lifecycle) :
    (m.setLifecycle l).notices = m.notices :=
  notices_eq (m.standing_setLifecycle l)

@[simp] theorem notices_nextChapter (m : Machine) (id : Nat) (d : Download) :
    (m.nextChapter id d).notices = m.notices :=
  notices_eq (m.standing_nextChapter id d)

theorem TakesUp.outcome (h : m.TakesUp id d m') : m'.session.outcome = m.session.outcome := by
  cases h with
  | begins => rfl
  | closes | fails => exact m.outcome_setLifecycle .cleanup

theorem notices_release (m : Machine) (id : Nat) (token : Option Nat) (deleteFiles : Bool)
    (reason : ReleaseReason) : (m.release id token deleteFiles reason).notices =
      .releaseAsked m.session.request.id deleteFiles :: m.notices := rfl

/-- A prepared session that goes on asks the client to release it just if it turns out that a run has
nothing to download. -/
theorem Proceeds.notices (h : m.Proceeds id token m') :
    m'.notices = m.notices ∧ (token = none ∨ m.session.outcome.isSome = true ∨
        m.withSelection.terms.toDownload ≠ []) ∨
      m'.notices = .releaseAsked m.session.request.id false :: m.notices ∧
        token.isSome = true ∧ m.session.outcome = none := by
  cases h with
  | answers ht => exact .inl ⟨rfl, ht.imp_right .inl⟩
  | releases ho =>
    refine .inr ⟨?_, rfl, ho⟩
    rw [notices_release, notices_setLifecycle, request_setLifecycle]
    rfl
  | opens _ hd =>
    refine .inl ⟨?_, .inr (.inr hd)⟩
    rw [notices_nextChapter, notices_setLifecycle]
    rfl

/-! ### Who waits for the client -/

/-- A call waits for the client to release the session. -/
def isReleasing (m : Machine) : Bool :=
  m.calls.any Call.isReleasing

@[simp] theorem isReleasing_setLifecycle (m : Machine) (l : Lifecycle) :
    (m.setLifecycle l).isReleasing = m.isReleasing := by
  rw [isReleasing, calls_setLifecycle, isReleasing]

theorem isReleasing_suspend {c : Call} (hc : c.isReleasing = false) (hm : m.isReleasing = false) :
    (m.suspend c).isReleasing = false := by
  simp only [isReleasing, List.any_eq_false] at hm ⊢
  intro c' hmem
  rcases List.mem_cons.mp hmem with rfl | hmem
  · simp [hc]
  · exact hm c' (List.mem_filter.mp hmem).1

/-- Only the answer of a call that waits for the client makes a difference. -/
theorem isReleasing_answer {r : CallResult}
    (hid : ∀ c ∈ m.calls, c.id = id → c.isReleasing = false) :
    (m.answer id r).isReleasing = m.isReleasing := by
  refine Bool.eq_iff_iff.mpr ?_
  simp only [isReleasing, List.any_eq_true]
  refine ⟨fun ⟨c, hc, hr⟩ => ⟨c, (List.mem_filter.mp hc).1, hr⟩, fun ⟨c, hc, hr⟩ => ?_⟩
  refine ⟨c, List.mem_filter.mpr ⟨hc, ?_⟩, hr⟩
  rw [bne_iff_ne]
  intro heq
  rw [hid c hc heq] at hr
  cases hr

theorem TakesUp.isReleasing (h : m.TakesUp id d m') (hm : m.isReleasing = false) :
    m'.isReleasing = false := by
  have cleaned := (m.isReleasing_setLifecycle .cleanup).trans hm
  cases h with
  | closes => exact isReleasing_suspend rfl cleaned
  | fails => exact isReleasing_suspend rfl cleaned
  | begins => exact isReleasing_suspend rfl hm

/-! ### Before a download -/

/-- The client has been asked for nothing, or else to release the session, which has nothing to
download. -/
structure Asked (m : Machine) : Prop where
  notices : ∀ x ∈ m.notices, x = .releaseAsked m.session.request.id false
  ends : m.notices ≠ [] ↔ m.session.outcome = some .nothingToDownload ∨ m.isReleasing = true
  empty : m.notices ≠ [] → m.session.isPrepared = true ∧ m.terms.toDownload = []

/-- No run that would go on is called while the client is asked to release the session. -/
def Patient (m : Machine) : Action → Prop
  | .call (.run parent) => m.isReleasing = true → m.stores (.run parent) = true →
    (m.opened (.run parent)).isCancelled m.tokens.length = true
  | _ => True

/-- The client has not been asked again, unless somebody could not wait. -/
def ReleaseStep (m : Machine) (a : Action) (m' : Machine) : Prop :=
  m'.notices = m.notices ∨
    m'.notices = .releaseAsked m.session.request.id false :: m.notices ∧
      (m.Patient a → m.notices = [])

namespace Asked

theorem silent (hm : m.Asked) (hn : m.notices = []) :
    m.session.outcome ≠ some .nothingToDownload ∧ m.isReleasing = false := by
  have none := mt hm.ends.mpr (not_not_intro hn)
  rw [not_or, Bool.not_eq_true] at none
  exact none

theorem of_silent (hn : m.notices = []) (ho : m.session.outcome ≠ some .nothingToDownload)
    (hr : m.isReleasing = false) : m.Asked where
  notices := by simp [hn]
  ends := by simp [hn, ho, hr]
  empty := fun h => absurd hn h

/-- As long as the session is not prepared, the client has been asked for nothing. -/
theorem unprepared (hm : m.Asked) (hp : m.session.isPrepared = false) : m.notices = [] := by
  refine Classical.byContradiction fun hn => ?_
  rw [(hm.empty hn).1] at hp
  cases hp

theorem of_eq (hm : m.Asked) (hn : m'.notices = m.notices)
    (hq : m'.session.request = m.session.request)
    (ho : m'.session.outcome = some .nothingToDownload ↔
      m.session.outcome = some .nothingToDownload)
    (hr : m'.isReleasing = m.isReleasing)
    (he : m.terms.toDownload = [] →
      m'.session.isPrepared = m.session.isPrepared ∧ m'.terms.toDownload = []) : m'.Asked where
  notices := by
    rw [hn, hq]
    exact hm.notices
  ends := by
    rw [hn, ho, hr]
    exact hm.ends
  empty := fun h => by
    obtain ⟨hp, hd⟩ := hm.empty (hn ▸ h)
    obtain ⟨hp', hd'⟩ := he hd
    exact ⟨hp'.trans hp, hd'⟩

theorem keeps (hm : m.Asked) (k : m.Keeps m') : m'.Asked :=
  hm.of_eq k.notices k.request (by rw [k.outcome])
    (by rw [isReleasing, k.calls, isReleasing])
    fun hd => ⟨k.prepared, k.toDownload.trans hd⟩

theorem answer (hm : m.Asked) (hid : ∀ c ∈ m.calls, c.id = id → c.isReleasing = false)
    (r : CallResult) : (m.answer id r).Asked :=
  hm.of_eq rfl rfl .rfl (isReleasing_answer hid) fun hd => ⟨rfl, hd⟩

theorem setLifecycle (hm : m.Asked) (l : Lifecycle) : (m.setLifecycle l).Asked :=
  hm.of_eq (m.notices_setLifecycle l) (m.request_setLifecycle l) (by rw [outcome_setLifecycle])
    (m.isReleasing_setLifecycle l)
    fun hd => ⟨isPrepared_setLifecycle .., (toDownload_setLifecycle ..).trans hd⟩

theorem withSelection (hm : m.Asked) : m.withSelection.Asked :=
  hm.of_eq rfl rfl .rfl rfl fun hd => ⟨rfl, toDownload_withSelection hd⟩

theorem release (hm : m.Asked) (hp : m.session.isPrepared = true) (hd : m.terms.toDownload = [])
    (id : Nat) (token : Option Nat) (reason : ReleaseReason) :
    (m.release id token false reason).Asked where
  notices := fun x hx => by
    rw [notices_release] at hx
    rcases List.mem_cons.mp hx with rfl | hx
    · rfl
    · exact hm.notices x hx
  ends := iff_of_true (by simp [notices_release]) (.inr rfl)
  empty := fun _ => ⟨hp, hd⟩

theorem nextChapter (hm : m.Asked) (hn : m.notices = []) (id : Nat) (d : Download) :
    (m.nextChapter id d).Asked := by
  obtain ⟨ho, hr⟩ := hm.silent hn
  have goes := m.takesUp_nextChapter id d
  refine of_silent ((m.notices_nextChapter id d).trans hn) ?_ (goes.isReleasing hr)
  rw [goes.outcome]
  exact ho

theorem proceeds (hm : m.Asked) (hp : m.session.isPrepared = true)
    (hid : ∀ c ∈ m.calls, c.id = id → c.isReleasing = false) (h : m.Proceeds id token m') :
    m'.Asked := by
  cases h with
  | answers => exact hm.answer hid _
  | releases _ hd =>
    refine (hm.withSelection.setLifecycle .waiting).release ?_ ?_ _ _ _
    · exact (isPrepared_setLifecycle ..).trans hp
    · exact (toDownload_setLifecycle ..).trans hd
  | opens _ hd =>
    have hn : m.notices = [] := Classical.byContradiction fun hn =>
      hd (toDownload_withSelection (hm.empty hn).2)
    exact (hm.withSelection.setLifecycle .downloading).nextChapter
      ((notices_setLifecycle ..).trans hn) _ _

/-- A call that prepares the session comes to wait. -/
theorem suspend {c : Call} (hm : m.Asked) (hn : m.notices = []) (hc : c.isReleasing = false) :
    (m.suspend c).Asked := by
  obtain ⟨ho, hr⟩ := hm.silent hn
  exact of_silent hn ho (isReleasing_suspend hc hr)

theorem note (hm : m.Asked) {x : Happening} (hx : x.isNotice = false) : (m.note x).Asked :=
  hm.of_eq (by simp [Machine.notices, Machine.note, hx]) rfl .rfl rfl fun hd => ⟨rfl, hd⟩

theorem listCatalog (hm : m.Asked) (hn : m.notices = []) (id : Nat) (token : Option Nat)
    (preferences : Option TagPreferences) : (m.listCatalog id token preferences).Asked := by
  have mapped : Asked
      { m with session := { m.session with mapper := m.session.mapperOf preferences } } :=
    hm.of_eq rfl rfl .rfl rfl fun hd => ⟨rfl, hd⟩
  exact (mapped.note (x := .catalogListed) rfl).suspend hn rfl

theorem withPlan (hm : m.Asked) (hn : m.notices = []) (volumes : Archive → Option String) :
    (m.withPlan volumes).Asked := by
  obtain ⟨ho, hr⟩ := hm.silent hn
  exact of_silent hn ho hr

/-- A patient run finds nobody who waits for the client. -/
theorem patient {op : Operation} (hm : m.Asked) (hb : m.Begins op token)
    (ht : token.isSome = true) (ho : m.session.outcome = none) (hp : m.Patient (.call op)) :
    m.notices = [] := by
  cases hb with
  | prepares => cases ht
  | runs hs hc =>
    refine Classical.byContradiction fun hn => ?_
    rcases hm.ends.mp hn with hnothing | hr
    · rw [ho] at hnothing
      cases hnothing
    · rw [hp hr hs] at hc
      cases hc

/-- A session that has not begun to download goes on. -/
theorem prelude (h : m.Fresh disk) (hm : m.Asked) (hp : m.Prelude a m') :
    m'.Asked ∧ m.ReleaseStep a m' := by
  have new : ∀ c ∈ m.calls, c.id = m.callCount → c.isReleasing = false :=
    fun c hc heq => absurd heq (Nat.ne_of_lt (h.knows c hc).id_lt)
  have loading (op : Operation) : ((m.opened op).setLifecycle .loading).notices = m.notices :=
    (notices_setLifecycle ..).trans (m.keeps_opened op).notices
  cases hp with
  | rests _ k => exact ⟨hm.keeps k, .inl k.notices⟩
  | answers k => exact ⟨(hm.keeps k).answer (k.calls ▸ new) _, .inl k.notices⟩
  | @cancels parent hs =>
    have k := m.keeps_opened (.run parent)
    have ho : (m.opened (.run parent)).session.outcome = none := by
      rw [k.outcome]
      exact (by simpa [stores] using hs : _ ∧ _).1
    have cancelled : ((m.opened (.run parent)).setOutcome .cancelled).Asked :=
      (hm.keeps k).of_eq rfl rfl (iff_of_false (by simp [setOutcome]) (by simp [ho])) rfl
        fun hd => ⟨rfl, hd⟩
    exact ⟨cancelled.answer (by rw [← k.calls] at new; exact new) _, .inl k.notices⟩
  | @asks op token _ hpr =>
    have hn := hm.unprepared hpr
    have loads := (hm.keeps (m.keeps_opened op)).setLifecycle .loading
    exact ⟨(loads.note (x := .preferencesAsked) rfl).suspend ((loading op).trans hn) rfl,
      .inl (loading op)⟩
  | @lists op token _ hpr =>
    have hn := hm.unprepared hpr
    have loads := (hm.keeps (m.keeps_opened op)).setLifecycle .loading
    exact ⟨loads.listCatalog ((loading op).trans hn) _ _ none, .inl (loading op)⟩
  | @proceeds op token m' hb hpr hproceeds =>
    have k := m.keeps_opened op
    refine ⟨(hm.keeps k).proceeds (k.prepared.trans hpr) (by rw [k.calls]; exact new) hproceeds, ?_⟩
    have notices := hproceeds.notices
    rw [k.notices, k.outcome, k.request] at notices
    rcases notices with ⟨hn', -⟩ | ⟨hn', htoken, ho⟩
    · exact .inl hn'
    · exact .inr ⟨hn', hm.patient hb htoken ho⟩
  | @prefers c a _ hc hs preferences =>
    have hn := hm.unprepared (h.alone hc (.inl hs)).1
    exact ⟨hm.listCatalog hn c.id c.token preferences, .inl rfl⟩
  | @plansNothing c a volumes _ hc hs hd =>
    have hn := hm.unprepared (h.alone hc (.inr hs)).1
    have waits := (hm.withPlan hn volumes).setLifecycle .waiting
    refine ⟨waits.release ?_ ?_ c.id c.token .emptyPlan, .inr ⟨?_, fun _ => hn⟩⟩
    · exact isPrepared_setLifecycle ..
    · exact (toDownload_setLifecycle ..).trans hd
    · rw [notices_release, notices_setLifecycle, request_setLifecycle]
      rfl
  | @plans c a volumes m' _ hc hs _ hproceeds =>
    have hn := hm.unprepared (h.alone hc (.inr hs)).1
    have goes := (hm.withPlan hn volumes).setLifecycle m.session.plannedLifecycle
    have before : ((m.withPlan volumes).setLifecycle m.session.plannedLifecycle).notices = m.notices :=
      notices_setLifecycle ..
    have silent := (goes.silent (before.trans hn)).2
    simp only [isReleasing, List.any_eq_false, Bool.not_eq_true] at silent
    refine ⟨goes.proceeds (isPrepared_setLifecycle ..) (fun c hc _ => silent c hc) hproceeds, ?_⟩
    have notices := hproceeds.notices
    rw [before, request_setLifecycle] at notices
    rcases notices with ⟨hn', -⟩ | ⟨hn', -⟩
    · exact .inl hn'
    · exact .inr ⟨hn', fun _ => hn⟩
  | @released c a reason r _ hc hs =>
    have waits : m.isReleasing = true :=
      List.any_eq_true.mpr ⟨c, hc, by rw [Call.isReleasing, hs]⟩
    have hn : m.notices ≠ [] := hm.ends.mpr (.inr waits)
    exact ⟨⟨hm.notices, iff_of_true hn (.inl rfl), fun _ => hm.empty hn⟩, .inl rfl⟩

/-- A run that could not wait makes the client be asked again. -/
theorem impatient (hm : m.Asked) (ha : ¬ m.Patient a) (hs : m.step? a = some m') :
    m'.notices = .releaseAsked m.session.request.id false :: m.notices ∧ m.notices ≠ [] := by
  obtain ⟨parent, rfl, hr, hstores, hc⟩ : ∃ parent, a = .call (.run parent) ∧
      m.isReleasing = true ∧ m.stores (.run parent) = true ∧
        (m.opened (.run parent)).isCancelled m.tokens.length = false := by
    unfold Patient at ha
    split at ha
    · rename_i parent
      simp only [Classical.not_imp, Bool.not_eq_true] at ha
      exact ⟨parent, rfl, ha⟩
    · exact absurd trivial ha
  have hn : m.notices ≠ [] := hm.ends.mpr (.inr hr)
  obtain ⟨hp, hd⟩ := hm.empty hn
  have k := m.keeps_opened (.run parent)
  have ho : m.session.outcome = none := (by simpa [stores] using hstores : _ ∧ _).1
  obtain rfl := Option.some.inj hs
  refine ⟨?_, hn⟩
  rw [begin_run hstores, if_neg (by simp [hc]), prepare, if_pos (k.prepared.trans hp)]
  have notices := (proceeds_afterPreparation (m.opened (.run parent)) m.callCount
    (some m.tokens.length)).notices
  rw [k.notices, k.outcome, ho, k.request] at notices
  rcases notices with ⟨-, htoken | houtcome | hsome⟩ | ⟨hn', -⟩
  · cases htoken
  · cases houtcome
  · exact absurd (toDownload_withSelection (k.terms ▸ hd)) hsome
  · exact hn'

theorem step (h : Passes disk m a m' .fresh p') (hm : m.Asked) :
    m'.Asked ∧ m.ReleaseStep a m' ∧ (p' = .fresh ∨ m'.notices = []) := by
  obtain ⟨hm', hasks⟩ := hm.prelude h.before (Fresh.prelude h.before h.step)
  refine ⟨hm', hasks, ?_⟩
  cases h.transition with
  | prepares | rests => exact .inl rfl
  | opens hopens =>
    have runs := hopens.downloads.runs
    refine .inr (Classical.byContradiction fun hn => ?_)
    rcases hm'.ends.mp hn with hnothing | hr
    · rw [runs.outcome] at hnothing
      cases hnothing
    · simp [isReleasing, runs.calls, Call.isReleasing] at hr

end Asked

end Machine
end Longbox
