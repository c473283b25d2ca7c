import Longbox.Proofs.Download.Step

/-! A session before its download.

Until a download begins, nothing has happened that is work, and no call has been answered that a
download has ended (`Machine.Idle`). Calls wait for preferences or for the catalog, one at a time, or
for the release of a session with nothing to download, any number of them (`Machine.Prepares`).
`Fresh.step` says that a step of such a session leaves it so or begins the download, and that the call
that downloads then waits alone. -/
namespace Longbox

theorem Planner.hasDownloaded_plan (p : Planner) (catalog : List Chapter) :
    (p.plan catalog).hasDownloaded = [] := by
  have extend (plan : Plan) (c : Chapter) : (p.extend plan c).hasDownloaded = plan.hasDownloaded := by
    unfold Planner.extend
    split <;> rfl
  have fold (plan : Plan) :
      (catalog.foldl p.extend plan).hasDownloaded = plan.hasDownloaded := by
    induction catalog generalizing plan with
    | nil => rfl
    | cons c rest ih => rw [List.foldl_cons, ih, extend]
  exact fold _

/-- A download of these chapters with nothing done yet. -/
structure Download.Opening (chapters : List Chapter) (d : Download) : Prop where
  planned : d.planned = chapters.length
  remaining : d.remaining = chapters
  current : d.current = none
  reading : d.reading = none
  store : ∃ slots, d.store = { slots }
  slots : ∃ config : Config, d.store.slots = Download.storeSlots config.workers

namespace Machine

/-- Nothing has been done on the disk. -/
structure Idle (disk : Disk) (m : Machine) : Prop where
  ledger : m.ledger = { disk }
  outcome : ∀ o, m.session.outcome = some o → o.endsDownload = false
  answers : ∀ call o, .answered call (.ok (some o)) ∈ m.journal → o.endsDownload = false

/-- The number of a call and the token of its run have been given out. -/
structure Knows (m : Machine) (id : Nat) (token : Option Nat) : Prop where
  id_lt : id < m.callCount
  token_lt : ∀ t, token = some t → t < m.tokens.length

/-- A call that waits for the release of a session with nothing to download. -/
structure WaitsEmpty (m : Machine) (c : Call) : Prop where
  toDownload : m.terms.toDownload = []
  stage : c.stage = .releasing .emptyPlan ∨ c.stage = .releasing .emptySelection

/-- How far the preparation is, and which calls wait. -/
inductive Prepares (m : Machine) : Prop where
  | queued (hp : m.session.isPrepared = false) (hl : m.session.lifecycle = .queued)
      (hc : m.calls = [])
  | loading {c : Call} (hp : m.session.isPrepared = false) (hl : m.session.lifecycle = .loading)
      (hc : m.calls = [c]) (hs : c.stage = .preferences ∨ c.stage = .planning)
  | prepared (hp : m.session.isPrepared = true)
      (hl : m.session.lifecycle = .waiting ∨ m.session.lifecycle = .ready)
      (hc : ∀ c ∈ m.calls, m.WaitsEmpty c)

/-- A session with initial disk `disk` that has not begun to download. -/
structure Fresh (disk : Disk) (m : Machine) : Prop where
  idle : m.Idle disk
  knows : ∀ c ∈ m.calls, m.Knows c.id c.token
  prepares : m.Prepares

/-- The session is prepared and the call `id` goes on. -/
structure Prepared (disk : Disk) (m : Machine) (id : Nat) (token : Option Nat) : Prop where
  idle : m.Idle disk
  knows : ∀ c ∈ m.calls, m.Knows c.id c.token
  known : m.Knows id token
  prepared : m.session.isPrepared = true
  lifecycle : m.session.lifecycle = .waiting ∨ m.session.lifecycle = .ready
  others : ∀ c ∈ m.calls, c.id ≠ id → m.WaitsEmpty c

/-- The call `id` has begun to download what is planned. -/
structure Opens (disk : Disk) (m : Machine) (id : Nat) (d : Download) : Prop where
  downloads : m.Downloads id d
  next : ∃ d₀, Download.Opening m.terms.toDownload d₀ ∧
    d₀.Next m.terms.naming (m.isCancelled d.token) { disk } m.ledger d

/-- The session has still downloaded nothing, or its download has begun. -/
inductive Starts (disk : Disk) (m : Machine) : Prop where
  | stays (h : m.Fresh disk)
  | opens {id : Nat} {d : Download} (h : m.Opens disk id d)

theorem fresh_ofRequest (request : Request) (disk : Disk) :
    (ofRequest request disk).Fresh disk where
  idle :=
    { ledger := rfl
      outcome := fun o ho => by simp [ofRequest, Session.ofRequest] at ho
      answers := fun call o ho => absurd ho List.not_mem_nil }
  knows := fun c hc => absurd hc List.not_mem_nil
  prepares := .queued rfl rfl rfl

/-! ### What leaves a session idle -/

namespace Idle
variable {disk : Disk} {m : Machine}

theorem note (h : m.Idle disk) (x : Happening) (hw : x.isWork = false)
    (ha : ∀ call o, x = .answered call (.ok (some o)) → o.endsDownload = false) :
    (m.note x).Idle disk where
  ledger := by rw [ledger_note, h.ledger, Ledger.note_of_not_work _ hw]
  outcome := h.outcome
  answers := fun call o ho => by
    rcases List.mem_cons.mp ho with ho | ho
    · exact ha call o ho.symm
    · exact h.answers call o ho

theorem setLifecycle (h : m.Idle disk) (l : Lifecycle) : (m.setLifecycle l).Idle disk := by
  unfold Machine.setLifecycle
  split
  · exact h
  · have moved : Idle disk { m with session := { m.session with lifecycle := l } } := { h with }
    exact moved.note _ rfl nofun

theorem setOutcome (h : m.Idle disk) {o : Outcome} (ho : o.endsDownload = false) :
    (m.setOutcome o).Idle disk :=
  { h with outcome := fun o' ho' => by cases ho'; exact ho }

theorem answer (h : m.Idle disk) (id : Nat) {r : CallResult}
    (hr : ∀ o, r = .ok (some o) → o.endsDownload = false) : (m.answer id r).Idle disk := by
  have moved : Idle disk { m with calls := m.calls.filter fun c => c.id != id } := { h with }
  exact moved.note _ rfl fun call o ho => hr o (by injection ho)

end Idle

/-! ### What a lifecycle has no part in -/

section
variable (m : Machine) (l : Lifecycle)

@[simp] theorem calls_setLifecycle : (m.setLifecycle l).calls = m.calls := by
  unfold setLifecycle
  split <;> rfl

@[simp] theorem callCount_setLifecycle : (m.setLifecycle l).callCount = m.callCount := by
  unfold setLifecycle
  split <;> rfl

@[simp] theorem tokens_setLifecycle : (m.setLifecycle l).tokens = m.tokens := by
  unfold setLifecycle
  split <;> rfl

@[simp] theorem isPrepared_setLifecycle :
    (m.setLifecycle l).session.isPrepared = m.session.isPrepared := by
  unfold setLifecycle
  split <;> rfl

@[simp] theorem outcome_setLifecycle :
    (m.setLifecycle l).session.outcome = m.session.outcome := by
  unfold setLifecycle
  split <;> rfl

end

/-! ### A prepared session -/

namespace Prepared
variable {disk : Disk} {m : Machine} {id : Nat} {token : Option Nat}

theorem answer (h : m.Prepared disk id token) {r : CallResult}
    (hr : ∀ o, r = .ok (some o) → o.endsDownload = false) : (m.answer id r).Fresh disk where
  idle := h.idle.answer id hr
  knows := fun c hc => { h.knows c (List.mem_filter.mp hc |>.1) with }
  prepares := .prepared h.prepared h.lifecycle fun c hc => by
    obtain ⟨hmem, hid⟩ := List.mem_filter.mp hc
    exact { h.others c hmem (by simpa using hid) with }

theorem setOutcome (h : m.Prepared disk id token) {o : Outcome} (ho : o.endsDownload = false) :
    (m.setOutcome o).Prepared disk id token where
  idle := h.idle.setOutcome ho
  knows := fun c hc => { h.knows c hc with }
  known := { h.known with }
  prepared := h.prepared
  lifecycle := h.lifecycle
  others := fun c hc hid => { h.others c hc hid with }

theorem setLifecycle (h : m.Prepared disk id token) {l : Lifecycle}
    (hl : l = .waiting ∨ l = .ready) : (m.setLifecycle l).Prepared disk id token where
  idle := h.idle.setLifecycle l
  knows := fun c hc => by
    rw [calls_setLifecycle] at hc
    exact ⟨by simpa using (h.knows c hc).id_lt, by simpa using (h.knows c hc).token_lt⟩
  known := ⟨by simpa using h.known.id_lt, by simpa using h.known.token_lt⟩
  prepared := by simpa using h.prepared
  lifecycle := by simpa using hl
  others := fun c hc hid => by
    rw [calls_setLifecycle] at hc
    exact ⟨by simpa using (h.others c hc hid).toDownload, (h.others c hc hid).stage⟩

/-- With nothing to download, the session is released and the call waits for that. -/
theorem release (h : m.Prepared disk id token) (hd : m.terms.toDownload = [])
    {reason : ReleaseReason} (hr : reason = .emptyPlan ∨ reason = .emptySelection) :
    (m.release id token false reason).Fresh disk where
  idle := { h.idle.note (.releaseAsked m.session.request.id false) rfl nofun with }
  knows := fun c hc => by
    rcases List.mem_cons.mp hc with rfl | hc
    · exact { h.known with }
    · exact { h.knows c (List.mem_filter.mp hc |>.1) with }
  prepares := .prepared h.prepared h.lifecycle fun c hc => by
    rcases List.mem_cons.mp hc with rfl | hc
    · exact ⟨hd, by rcases hr with rfl | rfl <;> simp⟩
    · obtain ⟨hmem, hid⟩ := List.mem_filter.mp hc
      exact { h.others c hmem (by simpa using hid) with }

theorem select (h : m.Prepared disk id token) :
    Prepared disk { m with session := m.session.selected } id token where
  idle :=
    { h.idle with
      ledger := by
        rw [← h.idle.ledger]
        simp only [ledger, Session.selected, Plan.select]
        split <;> rfl }
  knows := fun c hc => { h.knows c hc with }
  known := { h.known with }
  prepared := h.prepared
  lifecycle := h.lifecycle
  others := fun c hc hid => by
    obtain ⟨hd, hs⟩ := h.others c hc hid
    have hd : m.session.plan.toDownload = [] := hd
    refine ⟨?_, hs⟩
    simp only [terms, Session.selected, Plan.select]
    split <;> simp [hd]

end Prepared

/-! ### The download begins -/

theorem suspend_suspend (m : Machine) {c c' : Call} (h : c.id = c'.id) :
    (m.suspend c).suspend c' = m.suspend c' := by
  simp [suspend, h]

/-- It makes no difference to a download that its call already waits. -/
theorem nextChapter_setDownload (m : Machine) (id : Nat) (d d' : Download) :
    (m.setDownload id d').nextChapter id d = m.nextChapter id d := by
  have again (m : Machine) (d'' : Download) :
      (m.setDownload id d').setDownload id d'' = m.setDownload id d'' :=
    suspend_suspend m rfl
  have close : (m.setDownload id d').closeDownload id d = m.closeDownload id d := by
    have hl : (m.setDownload id d').setLifecycle .cleanup =
        (m.setLifecycle .cleanup).setDownload id d' := by
      have hs : (m.setDownload id d').session.lifecycle = m.session.lifecycle := rfl
      unfold setLifecycle
      rw [hs]
      by_cases h : m.session.lifecycle = .cleanup
      · rw [if_pos h, if_pos h]
      · rw [if_neg h, if_neg h]
        rfl
    have ht (m : Machine) : (m.setDownload id d').cancelToken d.token =
        (m.cancelToken d.token).setDownload id d' := rfl
    unfold closeDownload setStore
    dsimp only
    rw [hl]
    by_cases hf : d.store.close.failure.isSome = true
    · rw [if_pos hf, if_pos hf, ht, again]
    · rw [if_neg hf, if_neg hf, again]
  unfold nextChapter
  rw [close]
  cases d.remaining with
  | nil => rfl
  | cons chapter rest =>
    have hc : (m.setDownload id d').isCancelled d.token = m.isCancelled d.token := rfl
    have hn : ((m.setDownload id d').note (.urlsAsked chapter)) =
        (m.note (.urlsAsked chapter)).setDownload id d' := rfl
    dsimp only
    rw [hc, hn, again]
    rfl

/-- A download that has not failed goes on without cancelling anything. -/
theorem TakesUp.isCancelled {m m' : Machine} {id : Nat} {d : Download} (h : m.TakesUp id d m')
    (hf : d.store.failure = none) (t : Nat) : m'.isCancelled t = m.isCancelled t := by
  cases h with
  | closes =>
    show (m.setLifecycle .cleanup).isCancelled t = m.isCancelled t
    unfold setLifecycle
    split <;> rfl
  | fails _ hsome => simp [hf] at hsome
  | begins => rfl

namespace Prepared
variable {disk : Disk} {m : Machine} {id t : Nat}

/-- With something to download no other call waits, and the download begins. -/
theorem opens (h : m.Prepared disk id (some t)) (ho : m.session.outcome = none)
    (hd : m.terms.toDownload ≠ []) {d : Download} (ht : d.token = t)
    (hopen : d.Opening m.terms.toDownload) :
    ((m.setLifecycle .downloading).nextChapter id d).Starts disk := by
  generalize hm : m.setLifecycle .downloading = m₁
  have idle : m₁.Idle disk := hm ▸ h.idle.setLifecycle .downloading
  have terms : m₁.terms = m.terms := by simp [← hm]
  have alone : m₁.calls.filter (fun c => c.id != id) = [] := by
    rw [List.filter_eq_nil_iff]
    intro c hc hid
    have hmem : c ∈ m.calls := by simpa [← hm] using hc
    exact hd (h.others c hmem (by simpa using hid)).toDownload
  have id_lt : id < m₁.callCount := by simpa [← hm] using h.known.id_lt
  have prepared : m₁.session.isPrepared = true := by simpa [← hm] using h.prepared
  have outcome : m₁.session.outcome = none := by simpa [← hm] using ho
  have running : m₁.session.isRunning = true := by simp [← hm, Session.isRunning]
  have token_lt : d.token < m₁.tokens.length := by simpa [← hm, ht] using h.known.token_lt t rfl
  obtain ⟨slots, hstore⟩ := hopen.store
  have begun : (m₁.setDownload id d).Downloads id d := {
    runs := ⟨by simp [setDownload, suspend, alone], id_lt, prepared, outcome, running, idle.answers⟩
    token_lt := token_lt
    cancelled := by simp [hstore] }
  obtain ⟨l', d', hnext, hcarry⟩ := begun.nextChapter begun.runs.turns rfl
  rw [nextChapter_setDownload] at hcarry
  refine .opens ⟨hcarry.downloads begun, d, ?_, ?_⟩
  · rw [hcarry.turns.terms]
    exact terms ▸ hopen
  · have ledger : (m₁.setDownload id d).ledger = { disk } := idle.ledger
    rw [hcarry.turns.ledger, hcarry.turns.terms, hcarry.token,
      (m₁.takesUp_nextChapter id d).isCancelled (by rw [hstore])]
    exact ledger ▸ hnext

theorem startDownload (h : m.Prepared disk id (some t)) (ho : m.session.outcome = none) :
    (m.startDownload id t).Starts disk := by
  have hs := h.select
  unfold Machine.startDownload
  dsimp only
  by_cases hd : m.session.selected.plan.toDownload = []
  · rw [if_pos (by simp [hd])]
    exact .stays ((hs.setLifecycle (.inl rfl)).release (by rw [terms_setLifecycle]; exact hd)
      (.inr rfl))
  · rw [if_neg (by simp [hd])]
    exact hs.opens ho hd rfl ⟨rfl, rfl, rfl, rfl, ⟨_, rfl⟩, _, rfl⟩

/-- A preparation ends its call, or the run that it is for goes on. -/
theorem afterPreparation {token : Option Nat} (h : m.Prepared disk id token) :
    (m.afterPreparation id token).Starts disk := by
  unfold Machine.afterPreparation
  cases token with
  | none => exact .stays (h.answer nofun)
  | some t =>
    dsimp only
    split
    · rename_i outcome ho
      exact .stays (h.answer fun o heq => h.idle.outcome o (by rw [ho]; injection heq))
    · rename_i ho
      exact h.startDownload ho

end Prepared

/-! ### Steps -/

namespace Fresh
variable {disk : Disk} {m m' : Machine}

theorem keeps (h : m.Fresh disk) (k : m.Keeps m') : m'.Fresh disk where
  idle :=
    { ledger := k.ledger.trans h.idle.ledger
      outcome := k.outcome ▸ h.idle.outcome
      answers := k.journal ▸ h.idle.answers }
  knows := fun c hc => by
    obtain ⟨hid, htoken⟩ := h.knows c (k.calls ▸ hc)
    exact ⟨Nat.lt_of_lt_of_le hid k.callCount, fun t ht => Nat.lt_of_lt_of_le (htoken t ht) k.tokens⟩
  prepares := by
    cases h.prepares with
    | queued hp hl hc => exact .queued (k.prepared.trans hp) (k.lifecycle.trans hl) (k.calls.trans hc)
    | loading hp hl hc hs =>
      exact .loading (k.prepared.trans hp) (k.lifecycle.trans hl) (k.calls.trans hc) hs
    | prepared hp hl hc =>
      refine .prepared (k.prepared.trans hp) (k.lifecycle ▸ hl) fun c hmem => ?_
      obtain ⟨hd, hs⟩ := hc c (k.calls ▸ hmem)
      exact ⟨k.terms ▸ hd, hs⟩

/-- A call that has never waited is answered. -/
theorem answer (h : m.Fresh disk) {id : Nat} (hid : ∀ c ∈ m.calls, c.id ≠ id) {r : CallResult}
    (hr : ∀ o, r = .ok (some o) → o.endsDownload = false) : (m.answer id r).Fresh disk where
  idle := h.idle.answer id hr
  knows := fun c hc => { h.knows c (List.mem_filter.mp hc |>.1) with }
  prepares := by
    have hcalls : (m.answer id r).calls = m.calls := by
      show m.calls.filter (fun c => c.id != id) = m.calls
      rw [List.filter_eq_self]
      intro c hc
      simpa using hid c hc
    cases h.prepares with
    | queued hp hl hc => exact .queued hp hl (hcalls.trans hc)
    | loading hp hl hc hs => exact .loading hp hl (hcalls.trans hc) hs
    | prepared hp hl hc =>
      exact .prepared hp hl fun c hmem => { hc c (hcalls ▸ hmem) with }

theorem setOutcome (h : m.Fresh disk) {o : Outcome} (ho : o.endsDownload = false) :
    (m.setOutcome o).Fresh disk where
  idle := h.idle.setOutcome ho
  knows := fun c hc => { h.knows c hc with }
  prepares := by
    cases h.prepares with
    | queued hp hl hc => exact .queued hp hl hc
    | loading hp hl hc hs => exact .loading hp hl hc hs
    | prepared hp hl hc => exact .prepared hp hl fun c hmem => { hc c hmem with }

/-- A call waits while the session is being prepared. -/
theorem suspend (h : m.Idle disk) (hp : m.session.isPrepared = false)
    (hl : m.session.lifecycle = .loading) {c : Call} (hk : m.Knows c.id c.token)
    (hc : m.calls.filter (fun other => other.id != c.id) = [])
    (hs : c.stage = .preferences ∨ c.stage = .planning) : (m.suspend c).Fresh disk where
  idle := { h with }
  knows := fun c' hmem => by
    rw [Machine.suspend, hc] at hmem
    obtain rfl := List.mem_singleton.mp hmem
    exact { hk with }
  prepares := .loading hp hl (by rw [Machine.suspend, hc]) hs

theorem listCatalog (h : m.Idle disk) (hp : m.session.isPrepared = false)
    (hl : m.session.lifecycle = .loading) {id : Nat} {token : Option Nat} (hk : m.Knows id token)
    (hc : m.calls.filter (fun other => other.id != id) = []) (preferences : Option TagPreferences) :
    (m.listCatalog id token preferences).Fresh disk := by
  have mapped : Idle disk
      { m with session := { m.session with mapper := m.session.mapperOf preferences } } :=
    { h with }
  exact suspend (mapped.note .catalogListed rfl nofun) hp hl { hk with } hc (.inr rfl)

/-- A session that is being prepared or is prepared already. -/
theorem prepare (h : m.Fresh disk) {id : Nat} {token : Option Nat} (hk : m.Knows id token)
    (hid : ∀ c ∈ m.calls, c.id ≠ id) : (m.prepare id token).Starts disk := by
  unfold Machine.prepare
  cases h.prepares with
  | prepared hp hl hc =>
    rw [if_pos hp]
    exact Prepared.afterPreparation ⟨h.idle, h.knows, hk, hp, hl, fun c hmem _ => hc c hmem⟩
  | loading hp hl hc hs =>
    rw [if_neg (by simp [hp]), if_pos (by simp [hl])]
    exact .stays (h.answer hid nofun)
  | queued hp hl hc =>
    rw [if_neg (by simp [hp]), if_neg (by simp [hl])]
    have idle := h.idle.setLifecycle .loading
    have unprepared : (m.setLifecycle .loading).session.isPrepared = false := by simpa using hp
    have known : (m.setLifecycle .loading).Knows id token :=
      ⟨by simpa using hk.id_lt, by simpa using hk.token_lt⟩
    have nobody : (m.setLifecycle .loading).calls.filter (fun other => other.id != id) = [] := by
      simp [hc]
    have loading : (m.setLifecycle .loading).session.lifecycle = .loading := by simp
    dsimp only
    split
    · exact .stays (suspend (idle.note .preferencesAsked rfl nofun) unprepared loading
        { known with } nobody (.inl rfl))
    · exact .stays (listCatalog idle unprepared loading known nobody none)

/-- The plan is made of a catalog; the session is prepared then. -/
theorem makePlan (h : m.Fresh disk) {c : Call} (hc : m.calls = [c]) (volumes : Archive → Option String) :
    (m.makePlan c.id c.token volumes).Starts disk := by
  have hk := h.knows c (by simp [hc])
  have planned (l : Lifecycle) (hl : l = .waiting ∨ l = .ready) :
      Prepared disk (setLifecycle { m with session := m.session.planned m.disk volumes } l)
        c.id c.token := {
    idle := by
      refine Idle.setLifecycle ?_ l
      exact
        { h.idle with
          ledger := by
            rw [← h.idle.ledger]
            have : m.session.plan.hasDownloaded = [] := congrArg Ledger.recorded h.idle.ledger
            simp [ledger, Session.planned, Planner.hasDownloaded_plan, this] }
    knows := fun c' hmem => by
      rw [calls_setLifecycle] at hmem
      exact ⟨by simpa using (h.knows c' hmem).id_lt, by simpa using (h.knows c' hmem).token_lt⟩
    known := ⟨by simpa using hk.id_lt, by simpa using hk.token_lt⟩
    prepared := by simp [Session.planned]
    lifecycle := by simpa using hl
    others := fun c' hmem hid => by
      rw [calls_setLifecycle] at hmem
      have hmem : c' ∈ m.calls := hmem
      rw [hc, List.mem_singleton] at hmem
      exact absurd (congrArg Call.id hmem) hid }
  unfold Machine.makePlan
  dsimp only
  split
  · rename_i hempty
    refine .stays ((planned .waiting (.inl rfl)).release ?_ (.inl rfl))
    rw [terms_setLifecycle]
    simpa [Plan.isEmpty, terms] using hempty
  · refine (planned _ ?_).afterPreparation
    unfold Session.plannedLifecycle
    split
    · exact .inr rfl
    · exact .inl rfl

/-- The client has released a session with nothing to download. -/
theorem released (h : m.Fresh disk) {c : Call} (hc : c ∈ m.calls) {reason : ReleaseReason}
    (hs : c.stage = .releasing reason) : (m.released c.id c.token reason).Starts disk := by
  cases h.prepares with
  | queued hp hl hcalls => simp [hcalls] at hc
  | loading hp hl hcalls hstage =>
    rw [hcalls, List.mem_singleton] at hc
    rcases hstage with hstage | hstage <;> simp [← hc, hs] at hstage
  | prepared hp hl hcalls =>
    have prepared : m.Prepared disk c.id c.token :=
      ⟨h.idle, h.knows, h.knows c hc, hp, hl, fun c' hmem _ => hcalls c' hmem⟩
    have done := prepared.setOutcome (o := .nothingToDownload) rfl
    rcases (hcalls c hc).stage with he | he
    · obtain rfl : reason = .emptyPlan := by simpa [hs] using he
      exact done.afterPreparation
    · obtain rfl : reason = .emptySelection := by simpa [hs] using he
      exact .stays (done.answer fun o ho => by cases ho; rfl)

/-- It does not download. -/
theorem isRunning (h : m.Fresh disk) : m.session.isRunning = false := by
  unfold Session.isRunning
  cases h.prepares with
  | queued _ hl => simp [hl]
  | loading _ hl => simp [hl]
  | prepared _ hl => rcases hl with hl | hl <;> simp [hl]

theorem run (h : m.Fresh disk) {id : Nat} (parent : Nat) (hk : id < m.callCount)
    (hid : ∀ c ∈ m.calls, c.id ≠ id) : (m.run id parent).Starts disk := by
  unfold Machine.run
  split
  · rename_i outcome ho
    exact .stays (h.answer hid fun o heq => h.idle.outcome o (by rw [ho]; injection heq))
  · rw [if_neg (by simp [h.isRunning])]
    dsimp only
    have hkeeps := h.keeps (.addToken m ⟨parent, m.session.cancelRequested⟩ (some m.tokens.length))
    split
    · refine .stays ((hkeeps.setOutcome (o := .cancelled) rfl).answer hid fun o ho => ?_)
      cases ho
      rfl
    · exact hkeeps.prepare ⟨hk, fun t ht => by cases ht; simp⟩ hid

theorem begin (h : m.Fresh disk) (op : Operation) : (m.begin op).Starts disk := by
  have hid : ∀ c ∈ m.calls, c.id ≠ m.callCount :=
    fun c hc => Nat.ne_of_lt (h.knows c hc).id_lt
  have counted := h.keeps (.count m 1)
  have hlt : m.callCount < m.callCount + 1 := Nat.lt_succ_self _
  cases op with
  | prepare => exact counted.prepare ⟨hlt, nofun⟩ hid
  | run parent => exact counted.run parent hlt hid
  | select ids =>
    unfold Machine.begin Machine.select
    dsimp only
    split
    · exact .stays ((counted.keeps (.choose _ ids)).answer hid nofun)
    · exact .stays (counted.answer hid nofun)
  | cancel =>
    have kept := (Keeps.requestCancel { m with callCount := m.callCount + 1 }).trans (.cancelStored _)
    refine .stays ((counted.keeps kept).answer ?_ nofun)
    rw [kept.calls]
    exact hid

/-- What a call waits for before the download. -/
theorem waits (h : m.Fresh disk) {c : Call} (hc : c ∈ m.calls) :
    (c.stage = .preferences ∨ c.stage = .planning) ∨
      c.stage = .releasing .emptyPlan ∨ c.stage = .releasing .emptySelection := by
  cases h.prepares with
  | queued _ _ hcalls => simp [hcalls] at hc
  | loading _ _ hcalls hstage =>
    rw [hcalls, List.mem_singleton] at hc
    exact .inl (hc ▸ hstage)
  | prepared _ _ hcalls => exact .inr (hcalls c hc).stage

/-- A call that prepares the session waits alone. -/
theorem alone (h : m.Fresh disk) {c : Call} (hc : c ∈ m.calls)
    (hp : c.stage = .preferences ∨ c.stage = .planning) :
    m.session.isPrepared = false ∧ m.session.lifecycle = .loading ∧ m.calls = [c] := by
  cases h.prepares with
  | queued _ _ hcalls => simp [hcalls] at hc
  | loading hu hl hcalls _ =>
    rw [hcalls, List.mem_singleton] at hc
    exact ⟨hu, hl, hc ▸ hcalls⟩
  | prepared _ _ hcalls =>
    rcases (hcalls c hc).stage with he | he <;> simp [he] at hp

/-- Nobody waits as long as nobody has come to prepare the session. -/
theorem calls_eq_nil (h : m.Fresh disk) (hp : m.session.isPrepared = false)
    (hl : m.session.lifecycle = .queued) : m.calls = [] := by
  cases h.prepares with
  | queued _ _ hcalls => exact hcalls
  | loading _ hl' => simp [hl] at hl'
  | prepared hp' => simp [hp] at hp'

/-- A session whose client is asked to release it has nothing to download. -/
theorem empty_of_releasing (h : m.Fresh disk) {c : Call} (hc : c ∈ m.calls)
    (hs : c.stage = .releasing .emptyPlan ∨ c.stage = .releasing .emptySelection) :
    m.session.isPrepared = true ∧ m.terms.toDownload = [] := by
  cases h.prepares with
  | queued _ _ hcalls => simp [hcalls] at hc
  | loading _ _ hcalls hstage =>
    rw [hcalls, List.mem_singleton] at hc
    subst hc
    rcases hs with hs | hs <;> simp [hs] at hstage
  | prepared hp _ hcalls => exact ⟨hp, (hcalls c hc).toDownload⟩

/-- How a call goes on before the download. -/
theorem stepCall?_cases (h : m.Fresh disk) {c : Call} (hc : c ∈ m.calls) {a : Action}
    (hs : m.stepCall? c a = some m') :
    (c.stage = .preferences ∧ ∃ preferences, m' = m.listCatalog c.id c.token preferences) ∨
      (c.stage = .planning ∧ ∃ volumes, m' = m.makePlan c.id c.token volumes) ∨
      ∃ reason, (reason = .emptyPlan ∨ reason = .emptySelection) ∧ c.stage = .releasing reason ∧
        m' = m.released c.id c.token reason := by
  have waits := h.waits hc
  cases a with
  | receivePreferences _ result =>
    simp only [Machine.stepCall?] at hs
    split at hs
    · rename_i hstage
      exact .inl ⟨hstage, _, (Option.some.inj hs).symm⟩
    · cases hs
  | plan _ volumes =>
    simp only [Machine.stepCall?] at hs
    split at hs
    · rename_i hstage
      exact .inr (.inl ⟨hstage, _, (Option.some.inj hs).symm⟩)
    · cases hs
  | released _ result =>
    simp only [Machine.stepCall?] at hs
    split at hs
    · rename_i reason hstage
      refine .inr (.inr ⟨reason, ?_, hstage, (Option.some.inj hs).symm⟩)
      simpa [hstage] using waits
    · cases hs
  | move _ move =>
    simp only [Machine.stepCall?] at hs
    split at hs
    · rename_i d hstage
      simp [hstage] at waits
    · cases hs
  | removeNext _ =>
    simp only [Machine.stepCall?] at hs
    split at hs
    · rename_i cause left hstage
      simp [hstage] at waits
    · cases hs
  | _ => simp [Machine.stepCall?] at hs

theorem stepCall? (h : m.Fresh disk) {c : Call} (hc : c ∈ m.calls) {a : Action}
    (hs : m.stepCall? c a = some m') : m'.Starts disk := by
  rcases h.stepCall?_cases hc hs with ⟨hstage, preferences, rfl⟩ | ⟨hstage, volumes, rfl⟩ |
    ⟨reason, -, hstage, rfl⟩
  · obtain ⟨hu, hl, hcalls⟩ := h.alone hc (.inl hstage)
    exact .stays (listCatalog h.idle hu hl (h.knows c hc) (by simp [hcalls]) preferences)
  · exact h.makePlan (h.alone hc (.inr hstage)).2.2 volumes
  · exact h.released hc hstage

/-- A step of a session before its download leaves it there or begins the download. -/
theorem step? (h : m.Fresh disk) {a : Action} (hs : m.step? a = some m') : m'.Starts disk := by
  rcases step?_cases hs with ⟨op, -, rfl⟩ | ⟨-, -, k⟩ | ⟨c, hc, -, hstep⟩
  · exact h.begin op
  · exact .stays (h.keeps k)
  · exact h.stepCall? hc hstep

end Fresh

end Machine
end Longbox
