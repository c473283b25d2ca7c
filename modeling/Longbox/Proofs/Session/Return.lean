import Longbox.Proofs.RateLimiter.Refill
import Longbox.Proofs.Session.Chapter

/-! A chapter can always be brought to its end.

A download has what it needs to go on (`Download.Equipped`): room to queue and commit pages, slots to fetch
them, and a limiter that grants permits in the end. So whatever has happened to the pages of a chapter that
goes undisturbed, some move of it is possible and leaves less to do (`ChapterStage.left`), and the chapter
ends, whatever its fetches are answered. -/
namespace Longbox

/-- With a rate and a bucket that are not too small, some later instant has a permit. -/
theorem RateLimiter.exists_permit (l : RateLimiter) (hr : 0 < l.rate)
    (hslow : l.rate ≤ Config.maxConcurrentImages) (hcapacity : permit ≤ l.capacity) (instant : Nat) :
    ∃ now, instant ≤ now ∧ (l.tryAcquire now).1 = true := by
  -- What is earned until then is a whole number of words and a thousand times the rate.
  have earned : l.earned (l.lastRefill + nanosPerThousandth * (wordSize * instant + permit)) =
      l.rate * permit := by
    have small : l.rate * permit < wordSize := by
      unfold Config.maxConcurrentImages at hslow
      unfold permit wordSize
      omega
    have regroup : l.rate * (wordSize * instant + permit) =
        wordSize * (l.rate * instant) + l.rate * permit := by
      rw [Nat.mul_add, Nat.mul_left_comm]
    rw [RateLimiter.earned, Nat.add_sub_cancel_left, Nat.mul_left_comm,
      Nat.mul_div_cancel_left _ (by decide), regroup, Nat.mul_add_mod, Nat.mod_eq_of_lt small]
  have gained : permit ≤ l.rate * permit := Nat.le_mul_of_pos_left _ hr
  refine ⟨l.lastRefill + nanosPerThousandth * (wordSize * instant + permit), ?_,
    (tryAcquire_fst (Nat.ne_of_gt hr) _).trans (decide_eq_true ?_)⟩
  · unfold nanosPerThousandth wordSize
    omega
  · rw [refill, if_neg (by rw [earned]; unfold permit at gained ⊢; omega), earned]
    show permit ≤ min l.capacity (min maxWord (l.tokens + l.rate * permit))
    unfold permit maxWord wordSize at *
    omega

/-- A fetch is answered. -/
def Move.receives : Move → Bool
  | .receivePage .. => true
  | _ => false

def Action.receives : Action → Bool
  | .move _ m => m.receives
  | _ => false

/-- A fetch ends. -/
def Happening.endsFetch : Happening → Bool
  | .fetchEnded .. => true
  | _ => false

/-- From one ledger to another no fetch has ended. -/
def Ledger.Quiet (l l' : Ledger) : Prop :=
  ∃ new, l'.happened = new ++ l.happened ∧ ∀ x ∈ new, x.endsFetch = false

theorem Ledger.Quiet.refl (l : Ledger) : l.Quiet l :=
  ⟨[], rfl, nofun⟩

theorem Ledger.Quiet.note {l l' : Ledger} (h : l.Quiet l') {x : Happening} (hx : x.endsFetch = false) :
    l.Quiet (l'.note x) := by
  obtain ⟨new, hnew, quiet⟩ := h
  cases hw : x.isWork with
  | false =>
    rw [l'.note_of_not_work hw]
    exact ⟨new, hnew, quiet⟩
  | true =>
    refine ⟨x :: new, ?_, List.forall_mem_cons.mpr ⟨hx, quiet⟩⟩
    rw [happened_note l' hw, hnew]
    rfl

/-! ### What a download needs to go on -/

/-- There are slots, and a limiter that grants permits in the end. -/
structure PageFetcher.Equipped (f : PageFetcher) : Prop where
  workers : 0 < f.workers
  rate : 0 < f.limiter.rate
  slow : f.limiter.rate ≤ Config.maxConcurrentImages
  capacity : RateLimiter.permit ≤ f.limiter.capacity

namespace PageFetcher
variable {f f' : PageFetcher} {cancelled : Bool} {move : Move} {hs : List Happening}

theorem equipped_ofUrls (dir : String) (urls : List String) (config : Config) (now : Nat) :
    (ofUrls dir urls config.workers now).Equipped := by
  have some_worker : 1 ≤ config.workers ∧ config.workers ≤ Config.maxConcurrentImages := by
    unfold Config.workers Config.maxConcurrentImages Config.minConcurrentImages
    omega
  refine ⟨some_worker.1, some_worker.1, some_worker.2, ?_⟩
  exact (RateLimiter.isBucket_ofRate config.workers config.workers).permit_le

theorem Step.equipped (hf : f.Step cancelled move hs f') (h : f.Equipped) : f'.Equipped := by
  cases hf with
  | begins limiter _ _ hl | waits limiter _ _ _ hl =>
    exact ⟨h.workers, hl.1 ▸ h.rate, hl.1 ▸ h.slow, hl.2 ▸ h.capacity⟩
  | _ => exact ⟨h.workers, h.rate, h.slow, h.capacity⟩

end PageFetcher

/-! ### How much a chapter has left to do -/

/-- A page that may be fetched a second time has more left. -/
def Slot.left (isRetry : Bool) (slot : Slot) : Nat :=
  match slot.stage with
  | .waiting _ => if isRetry then 3 else 8
  | .fetching => if isRetry then 2 else 7
  | .queueing _ => 1

namespace PageFetcher

def left (f : PageFetcher) : Nat :=
  (if f.isRetry then 4 else 9) * f.pending.length + (f.slots.map (Slot.left f.isRetry)).sum +
    5 * f.failed.length

variable {f : PageFetcher} {cancelled : Bool} {task : PageTask} {rest : List Slot}

/-- A free slot takes a page, or drops it. -/
theorem exists_take (h : f.Equipped) (hslots : f.slots = []) (hp : f.pending ≠ []) (cancelled : Bool)
    (now : Nat) : ∃ f', f.take? cancelled now = some f' ∧ f'.left < f.left := by
  have free : ¬ f.workers ≤ f.slots.length := by
    rw [hslots]
    exact Nat.not_le.mpr h.workers
  obtain ⟨page, rest, hpending⟩ := List.exists_cons_of_ne_nil hp
  unfold take?
  rw [if_neg free, hpending]
  dsimp only
  split
  · refine ⟨_, rfl, ?_⟩
    simp only [left, hpending, List.length_cons]
    split <;> omega
  · refine ⟨_, rfl, ?_⟩
    simp only [left, hpending, hslots, List.length_cons, List.nil_append, List.map_cons, List.map_nil,
      List.sum_cons, List.sum_nil, Slot.left]
    split <;> omega

/-- A slot that waits for a permit gives up when fetching is to stop. -/
theorem request?_of_stopped {instant : Nat} (hslots : f.slots = ⟨task, .waiting instant⟩ :: rest)
    (hs : f.isStopped cancelled = true) (now : Nat) :
    f.request? cancelled now 0 = some (f.free 0, []) ∧ (f.free 0).left < f.left := by
  constructor
  · simp [request?, hslots, hs]
  · simp only [left, free, hslots, List.eraseIdx_cons_zero, List.map_cons, List.sum_cons, Slot.left]
    split <;> omega

theorem exists_request {instant now : Nat} (hslots : f.slots = ⟨task, .waiting instant⟩ :: rest)
    (hs : f.isStopped cancelled = false) (hnow : instant ≤ now)
    (hpermit : (f.limiter.tryAcquire now).1 = true) :
    ∃ f', f.request? cancelled now 0 = some (f', [.fetchBegun f.dir task]) ∧ f'.left < f.left := by
  obtain ⟨limiter, hl⟩ : ∃ limiter, f.limiter.tryAcquire now = (true, limiter) :=
    ⟨_, Prod.ext hpermit rfl⟩
  refine ⟨{ f with limiter }.setStage 0 task .fetching, ?_, ?_⟩
  · simp [request?, hslots, hs, Nat.not_lt.mpr hnow, hl]
  · simp only [left, setStage, hslots, List.set_cons_zero, List.map_cons, List.sum_cons, Slot.left]
    split <;> omega

theorem exists_receive (hslots : f.slots = ⟨task, .fetching⟩ :: rest)
    {result : Except Error ByteArray} (honest : ∀ e, result = .error e → e.isCancelled = false) :
    ∃ f', f.receive? 0 result = some (f', [.fetchEnded f.dir task f.isRetry result]) ∧
      f'.left < f.left := by
  cases result with
  | ok bytes =>
    refine ⟨f.setStage 0 task (.queueing bytes), by simp [receive?, hslots], ?_⟩
    simp only [left, setStage, hslots, List.set_cons_zero, List.map_cons, List.sum_cons, Slot.left]
    split <;> omega
  | error e =>
    have he := honest e rfl
    cases hr : f.isRetry with
    | true =>
      refine ⟨_, by simp [receive?, hslots, he, hr, free]; rfl, ?_⟩
      simp [left, hslots, hr, Slot.left]
    | false =>
      refine ⟨_, by simp [receive?, hslots, he, hr, free]; rfl, ?_⟩
      simp [left, hslots, hr, Slot.left]
      omega

theorem handOver?_cons {bytes : ByteArray} (hslots : f.slots = ⟨task, .queueing bytes⟩ :: rest) :
    f.handOver? 0 = some (f.free 0, f.page task bytes) ∧ (f.free 0).left < f.left := by
  constructor
  · simp [handOver?, hslots, page]
  · simp only [left, free, hslots, List.eraseIdx_cons_zero, List.map_cons, List.sum_cons, Slot.left]
    omega

/-- The second pass has less left than the first. -/
theorem left_retry {f' : PageFetcher} (ho : f.isPassOver = true) (hf : f.retry? cancelled = some f') :
    f'.left < f.left := by
  obtain ⟨hpending, hslots⟩ := isPassOver_iff.mp ho
  unfold retry? at hf
  split at hf
  · cases hf
  · rename_i hretry
    cases hf
    have again : f.isRetry = false ∧ f.failed ≠ [] := by simp_all
    have some_page := List.length_pos_iff.mpr again.2
    simp [left, hpending, hslots, again.1]
    omega

end PageFetcher

def ChapterStage.left : ChapterStage → Nat
  | .resolving => 0
  | .placing urls => 9 * urls.length + 4
  | .describing urls => 9 * urls.length + 3
  | .fetching f => f.left + 2
  | .pausing _ => 1

/-- There is room for pages on their way to the disk, and the current chapter can fetch them. -/
structure Download.Equipped (d : Download) : Prop where
  slots : 0 < d.store.slots
  fetching : ∀ c f, d.current = some c → c.stage = .fetching f → f.Equipped

namespace Download
variable {l l' : Ledger} {d d' : Download} {cancelled : Bool} {move : Move} {naming : Naming}

theorem slots_report (s : PageStore) (e : Error) : (s.report e).slots = s.slots := by
  unfold PageStore.report
  split <;> rfl

theorem equipped_of_none (hd : d.current = none) (h : 0 < d.store.slots) : d.Equipped :=
  ⟨h, fun c f hc => by rw [hd] at hc; cases hc⟩

theorem Next.equipped (hn : d.Next naming cancelled l l' d') (h : 0 < d.store.slots) :
    d'.Equipped := by
  cases hn with
  | closes => exact equipped_of_none rfl h
  | begins =>
    refine ⟨h, fun c f hc hstage => ?_⟩
    cases hc
    cases hstage

theorem Step.equipped (hs : d.Step naming cancelled l move l' d') (h : d.Equipped) : d'.Equipped := by
  have inStage {c : ChapterRun} {stage : ChapterStage} (hf : ∀ f, stage = .fetching f → f.Equipped) :
      (d.inStage c stage).Equipped := by
    refine ⟨h.slots, fun c' f hc hstage => hf f ?_⟩
    cases hc
    exact hstage
  have failed (e : Error) : (d.failed e).Equipped :=
    equipped_of_none rfl (Nat.lt_of_lt_of_eq h.slots (slots_report d.store e).symm)
  cases hs with
  | urlsFail | placeFails | describeFails | fetchFails | givesUp => exact failed _
  | noUrls _ _ hn | fetchEnds _ _ _ _ _ hn | goesOn _ _ hn => exact hn.equipped h.slots
  | urls | places | pauses => exact inStage nofun
  | describes workers now _ _ _ hw =>
    obtain ⟨config, rfl⟩ := hw
    refine inStage fun f hf => ?_
    cases hf
    exact PageFetcher.equipped_ofUrls ..
  | fetches hd hc hf =>
    refine inStage fun f' hf' => ?_
    cases hf'
    exact hf.equipped (h.fetching _ _ hd hc)
  | queues hd hc hi =>
    have before := h.fetching _ _ hd hc
    refine ⟨h.slots, fun c' f' hc' hstage => ?_⟩
    cases hc'
    cases hstage
    exact { before with }
  | retries hd hc ho hf =>
    have before := h.fetching _ _ hd hc
    unfold PageFetcher.retry? at hf
    split at hf
    · cases hf
    · cases hf
      refine inStage fun f' hf' => ?_
      cases hf'
      exact { before with }
  | commitFails =>
    refine ⟨?_, h.fetching⟩
    show 0 < (PageStore.report _ _).slots
    rw [slots_report]
    exact h.slots
  | pageDropped | commitBegins | commitEnds | storeStops | ticks | loads | swaps | tells =>
    exact ⟨h.slots, h.fetching⟩

/-- No fetch ends by a move that is not told how one ends. -/
theorem Step.quiet (hs : d.Step naming cancelled l move l' d')
    (hm : move.receives = false) : l.Quiet l' := by
  have same := Ledger.Quiet.refl l
  have moved (disk : Disk) (recorded : List String) : l.Quiet { l with disk, recorded } :=
    ⟨[], rfl, nofun⟩
  have next {x : Happening} (hx : x.endsFetch = false)
      (hn : d.Next naming cancelled (l.note x) l' d') : l.Quiet l' := by
    cases hn with
    | closes => exact same.note hx
    | begins => exact (same.note hx).note rfl
  cases hs with
  | noUrls _ _ hn | fetchEnds _ _ _ _ _ hn | goesOn _ _ hn => exact next rfl hn
  | urls | describes | queues | commitBegins | ticks | tells => exact same.note rfl
  | placeFails => exact moved _ _
  | places => exact ((moved _ _).note rfl).note rfl
  | commitEnds | commitFails => exact (moved _ l.recorded).note rfl
  | @fetches c f _ _ _ _ _ hf =>
    cases hf with
    | receives | abandons | postpones | fails => cases hm
    | @begins i instant task => exact same.note (x := .fetchBegun f.dir task) rfl
    | _ => exact same
  | _ => exact same

theorem hasStopped_report (s : PageStore) (e : Error) : (s.report e).hasStopped = s.hasStopped := by
  unfold PageStore.report
  split <;> rfl

theorem Next.hasStopped (hn : d.Next naming cancelled l l' d') :
    d'.store.hasStopped = d.store.hasStopped := by
  cases hn <;> rfl

/-- A store does not stop unless it is to stop. -/
theorem Step.hasStopped (hs : d.Step naming cancelled l move l' d')
    (hc : d.store.isCancelled cancelled = false) : d'.store.hasStopped = d.store.hasStopped := by
  cases hs with
  | urlsFail | placeFails | describeFails | fetchFails | givesUp => exact hasStopped_report ..
  | noUrls _ _ hn | fetchEnds _ _ _ _ _ hn | goesOn _ _ hn => exact hn.hasStopped
  | commitFails => exact hasStopped_report ..
  | storeStops hs =>
    rw [hc] at hs
    cases hs
  | _ => rfl

end Download

namespace Machine
variable {disk : Disk} {m m' : Machine} {a : Assignment} {action : Action} {p p' : Phase} {d d' : Download}
  {c c' : ChapterRun} {l₀ : Ledger}

/-- A download that is not cancelled has what it needs to go on. -/
def Equipped (m : Machine) : Phase → Prop
  | .downloading _ d => d.Ok m.terms ∧ d.Equipped ∧
    (m.isCancelled d.token = false → d.store.hasStopped = false)
  | _ => True

theorem Opens.equipped {id : Nat} (h : m.Opens disk id d) : m.Equipped (.downloading id d) := by
  obtain ⟨d₀, hopen, hnext⟩ := h.next
  obtain ⟨slots, hstore⟩ := hopen.store
  obtain ⟨config, hslots⟩ := hopen.slots
  have room : 0 < d₀.store.slots := by
    rw [hslots]
    unfold Download.storeSlots Config.workers Config.maxConcurrentImages Config.minConcurrentImages
    omega
  refine ⟨hnext.ok (by rw [hstore]), hnext.equipped room, fun _ => ?_⟩
  rw [hnext.hasStopped, hstore]

theorem Equipped.keeps (passes : Passes disk m action m' p p') (h : m.Equipped p) : m'.Equipped p' := by
  cases passes.transition with
  | opens hopens => exact hopens.equipped
  | rests _ hf =>
    unfold Equipped at h ⊢
    rw [hf.terms]
    split
    · exact ⟨h.1, h.2.1, fun hc => h.2.2 (hf.not_cancelled hc)⟩
    · trivial
  | @works id d d' move ha hs ht hf =>
    obtain ⟨ok, equipped, running⟩ := h
    have before : m.Downloads id d := passes.before
    refine ⟨by rw [hf.terms]; exact hs.ok ok, hs.equipped equipped, fun hc => ?_⟩
    have hc : m.isCancelled d.token = false := hf.not_cancelled (ht ▸ hc)
    have failure : d.store.failure.isSome = false := by
      cases hfail : d.store.failure.isSome with
      | false => rfl
      | true =>
        rw [before.cancelled hfail] at hc
        cases hc
    rw [hs.hasStopped (by rw [PageStore.isCancelled, hc, failure]; rfl)]
    exact running hc
  | _ => trivial

theorem equipped_of_run? {request : Request} {actions : List Action}
    (hrun : (ofRequest request disk).run? actions = some m) :
    ∃ p, m.At disk p ∧ m.Equipped p := by
  have begins : (ofRequest request disk).At disk .fresh := fresh_ofRequest request disk
  exact begins.always (I := Equipped) Equipped.keeps trivial hrun

/-! ### Going on -/

/-- The chapter is current and not cancelled, and the download has what it needs to go on. -/
structure Ready (a : Assignment) (l₀ : Ledger) (m : Machine) (d : Download) (c : ChapterRun) : Prop where
  downloads : m.Downloads a.call d
  token : d.token = a.token
  running : m.isCancelled a.token = false
  equipped : m.Equipped (.downloading a.call d)
  goes : ∃ hs, a.Goes l₀ m.ledger hs d c

/-- The chapter goes on undisturbed, and what is fetched is answered so. -/
def Brings (a : Assignment) (answer : PageTask → Bool → Except Error ByteArray) (m m' : Machine) : Prop :=
  ∃ actions, m.run? actions = some m' ∧ m.Along (Undisturbed a) actions ∧
    ∃ new, m'.ledger.happened = new ++ m.ledger.happened ∧
      ∀ dir task isRetry result, .fetchEnded dir task isRetry result ∈ new → result = answer task isRetry

section
variable {answer : PageTask → Bool → Except Error ByteArray} {m'' : Machine}

theorem Brings.refl (a : Assignment) (answer : PageTask → Bool → Except Error ByteArray) (m : Machine) :
    Brings a answer m m :=
  ⟨[], rfl, trivial, [], rfl, nofun⟩

theorem Brings.trans (h : Brings a answer m m') (h' : Brings a answer m' m'') : Brings a answer m m'' := by
  obtain ⟨first, hfirst, hu, new, hnew, hanswers⟩ := h
  obtain ⟨second, hsecond, hu', new', hnew', hanswers'⟩ := h'
  refine ⟨first ++ second, ?_, (along_append hfirst).mpr ⟨hu, hu'⟩, new' ++ new, ?_,
    fun dir task isRetry result hmem => ?_⟩
  · rw [run?_append, hfirst]
    exact hsecond
  · rw [hnew', hnew, List.append_assoc]
  · rcases List.mem_append.mp hmem with hmem | hmem
    · exact hanswers' dir task isRetry result hmem
    · exact hanswers dir task isRetry result hmem

theorem Brings.single (hs : m.step? action = some m') (hu : Undisturbed a m action)
    {new : List Happening} (hnew : m'.ledger.happened = new ++ m.ledger.happened)
    (hanswers : ∀ dir task isRetry result, .fetchEnded dir task isRetry result ∈ new →
      result = answer task isRetry) : Brings a answer m m' :=
  ⟨[action], by simp [run?, hs], (along_cons hs).mpr ⟨hu, trivial⟩, new, hnew, hanswers⟩

theorem Brings.quiet (hs : m.step? action = some m') (hu : Undisturbed a m action)
    (h : m.ledger.Quiet m'.ledger) : Brings a answer m m' := by
  obtain ⟨new, hnew, quiet⟩ := h
  refine .single hs hu hnew fun dir task isRetry result hmem => ?_
  have never := quiet _ hmem
  cases never

end

theorem Downloads.step?_move {id : Nat} (h : m.Downloads id d) (move : Move) :
    m.step? (.move id move) = m.moveDownload? id d move := by
  show (m.call? id).bind _ = _
  rw [h.call?]
  rfl

theorem Ready.undisturbed (h : Ready a l₀ m d c) (answers : action.declines = false)
    (directory : action.places = false ∨ (m.disk.makeAll a.dir).2 = none) : Undisturbed a m action := by
  obtain ⟨hs, goes⟩ := h.goes
  refine ⟨isAt_of_goes goes h.downloads.download?, h.running, answers, fun hp => ?_⟩
  exact directory.resolve_left fun hn => Bool.noConfusion (hn.symm.trans hp)

/-- The chapter is still current after an action that leaves it so. -/
theorem Ready.act (h : Ready a l₀ m d c) (hs : m.step? action = some m') (hu : Undisturbed a m action)
    (hd : m'.download? a.call = some d') (hc : d'.current = some c') (hr : d'.remaining = d.remaining)
    (running : m'.isCancelled a.token = m.isCancelled a.token) : Ready a l₀ m' d' c' := by
  obtain ⟨hs', goes⟩ := h.goes
  have before : m.At {} (.downloading a.call d) := h.downloads
  obtain ⟨p', after, transition⟩ := before.step? hs
  have passes : Passes {} m action m' (.downloading a.call d) p' := ⟨before, after, hs, transition⟩
  have attends : Attends a l₀ m (.downloading a.call d) :=
    ⟨d, rfl, h.token, h.equipped.1, hs', .inl ⟨c, goes⟩⟩
  obtain ⟨d₁, rfl, htoken, -, new, hstate⟩ := attends.keeps passes hu
  obtain rfl : d₁ = d' := Option.some.inj ((Downloads.download? after).symm.trans hd)
  refine ⟨after, htoken, running.trans h.running, h.equipped.keeps passes, new, ?_⟩
  rcases hstate with ⟨c₁, goes'⟩ | ends
  · obtain rfl : c₁ = c' := Option.some.inj (goes'.current.symm.trans hc)
    exact goes'
  · have current : m'.isAt a = true :=
      (isAt_iff hd).mpr ⟨by rw [hc]; rfl, hr.trans goes.remaining⟩
    rw [isAt_of_ends ends hd] at current
    cases current

@[simp] theorem download?_setDownload (m : Machine) (id : Nat) (d : Download) :
    (m.setDownload id d).download? id = some d := by
  simp [Machine.download?, Machine.call?, setDownload, suspend]

theorem Ready.failure (h : Ready a l₀ m d c) : d.store.failure = none := by
  cases hf : d.store.failure with
  | none => rfl
  | some e =>
    have cancelled := h.downloads.cancelled (by rw [hf]; rfl)
    rw [h.token, h.running] at cancelled
    cases cancelled

section
variable {answer : PageTask → Bool → Except Error ByteArray}

/-- Whatever does not end a fetch can be done whatever fetches are answered. -/
theorem Ready.brings (h : Ready a l₀ m d c) (hs : m.step? action = some m')
    (hu : Undisturbed a m action) (hm : action.receives = false) :
    Brings a answer m m' := by
  have before : m.At {} (.downloading a.call d) := h.downloads
  obtain ⟨p', -, transition⟩ := before.step? hs
  refine .quiet hs hu ?_
  cases transition with
  | rests hl | stops hl | finishes _ _ _ _ hl =>
    rw [hl]
    exact .refl _
  | works ha hstep =>
    subst ha
    exact hstep.quiet hm
  | fails _ _ _ hl =>
    rw [hl]
    exact (Ledger.Quiet.refl _).note rfl

/-- The chapter goes on to another stage. -/
theorem Ready.stage (h : Ready a l₀ m d c) {m₁ : Machine} {stage : ChapterStage}
    (hs : m.step? action = some (m₁.setStage a.call d' c stage)) (hr : d'.remaining = d.remaining)
    (answers : action.declines = false)
    (directory : action.places = false ∨ (m.disk.makeAll a.dir).2 = none)
    (running : m₁.isCancelled a.token = m.isCancelled a.token) :
    Undisturbed a m action ∧
      Ready a l₀ (m₁.setStage a.call d' c stage) (d'.inStage c stage) { c with stage } := by
  have hu := h.undisturbed answers directory
  exact ⟨hu, h.act hs hu (download?_setDownload ..) rfl hr running⟩

/-- Pages come closer to the disk. -/
theorem Ready.store (h : Ready a l₀ m d c) {m₁ : Machine} {store : PageStore}
    (hs : m.step? action = some (m₁.setStore a.call d store)) (hf : store.failure = none)
    (hu : Undisturbed a m action) (running : m₁.isCancelled a.token = m.isCancelled a.token) :
    Ready a l₀ (m₁.setStore a.call d store) { d with store } c := by
  have kept : m₁.setStore a.call d store = m₁.setDownload a.call { d with store } := by
    simp [setStore, hf]
  obtain ⟨hs', goes⟩ := h.goes
  rw [kept] at hs ⊢
  exact h.act hs hu (download?_setDownload ..) goes.current rfl running

/-- Commits that begin and end make room in the queue. -/
theorem Ready.room (answer : PageTask → Bool → Except Error ByteArray) (h : Ready a l₀ m d c) :
    ∃ m' store, Brings a answer m m' ∧ Ready a l₀ m' { d with store } c ∧ store.hasRoom = true ∧
      store.isClosed = false := by
  obtain ⟨n, hn⟩ : ∃ n, 2 * d.store.queue.length + d.store.inFlight.length = n := ⟨_, rfl⟩
  induction n using Nat.strong_induction_on generalizing m d with
  | _ n ih =>
    obtain ⟨hs, goes⟩ := h.goes
    have running : m.isCancelled d.token = false := h.token ▸ h.running
    have open' : d.store.hasStopped = false := h.equipped.2.2 running
    have failure := h.failure
    by_cases hroom : d.store.queue.length < d.store.slots
    · refine ⟨m, d.store, .refl a answer m, h, ?_, h.equipped.1.open goes.current⟩
      simp [PageStore.hasRoom, open', hroom]
    by_cases hfree : d.store.inFlight.length < d.store.slots
    · have some_page : d.store.queue ≠ [] := by
        intro hnil
        rw [hnil] at hroom
        exact hroom h.equipped.2.1.slots
      obtain ⟨page, rest, hqueue⟩ := List.exists_cons_of_ne_nil some_page
      have hstep : m.step? (.move a.call .beginCommit) = some ((m.note (.commitBegun page)).setStore
          a.call d { d.store with queue := rest, inFlight := d.store.inFlight ++ [page] }) := by
        rw [h.downloads.step?_move]
        simp [moveDownload?, moveStore?, PageStore.begin?, open', Nat.not_le.mpr hfree, hqueue,
          PageStore.isCancelled, running, failure, noteAll]
      have hu : Undisturbed a m (.move a.call .beginCommit) := h.undisturbed rfl (.inl rfl)
      have ready := h.store hstep failure hu rfl
      have brings : Brings a answer _ _ := h.brings hstep hu rfl
      obtain ⟨m', store, brings', ready', hroom'⟩ := ih _ (by
        simp only [hqueue, List.length_cons, List.length_append, List.length_nil] at hn ⊢
        omega) ready rfl
      exact ⟨m', store, brings.trans brings', ready', hroom'⟩
    · have some_page : d.store.inFlight ≠ [] := by
        intro hnil
        rw [hnil] at hfree
        exact hfree h.equipped.2.1.slots
      obtain ⟨page, rest, hflight⟩ := List.exists_cons_of_ne_nil some_page
      have hstep : m.step? (.move a.call (.endCommit 0 (.ok .other))) =
          some ((m.note (.commitEnded page (.ok none))).setStore a.call d
            { d.store with inFlight := rest }) := by
        rw [h.downloads.step?_move]
        simp only [moveDownload?, moveStore?, PageStore.finish?, hflight]
        rfl
      have hu : Undisturbed a m (.move a.call (.endCommit 0 (.ok .other))) := h.undisturbed rfl (.inl rfl)
      have ready := h.store hstep failure hu rfl
      have brings : Brings a answer _ _ := h.brings hstep hu rfl
      obtain ⟨m', store, brings', ready', hroom'⟩ := ih _ (by
        simp only [hflight, List.length_cons] at hn ⊢
        omega) ready rfl
      exact ⟨m', store, brings.trans brings', ready', hroom'⟩

/-! ### A chapter returns -/

theorem isAt_closeDownload (m : Machine) {a : Assignment} (d : Download) :
    (m.closeDownload a.call d).isAt a = false := by
  have gone : (m.closeDownload a.call d).download? a.call = some d.closed := by
    unfold closeDownload setStore
    dsimp only
    split <;> rw [download?_setDownload] <;> rfl
  rw [isAt, gone]
  rfl

theorem isAt_nextChapter (m : Machine) {a : Assignment} {d : Download} (hr : d.remaining = a.rest) :
    (m.nextChapter a.call d).isAt a = false := by
  unfold nextChapter
  split
  · exact m.isAt_closeDownload d
  · rename_i chapter rest hrest
    split
    · exact m.isAt_closeDownload d
    · have other : rest ≠ a.rest := by
        rw [← hr, hrest]
        exact (List.cons_ne_self _ _).symm
      rw [isAt, download?_setDownload]
      simpa using other

/-- The chapter has ended, or it has less left to do. -/
def MovesOn (a : Assignment) (l₀ : Ledger) (left : Nat) (m : Machine) : Prop :=
  m.isAt a = false ∨ ∃ d c, Ready a l₀ m d c ∧ c.stage.left < left ∧ c.stage.isPlacing = false

theorem Downloads.step?_fetch {id : Nat} (h : m.Downloads id d) (hd : d.current = some c)
    {f : PageFetcher} (hc : c.stage = .fetching f) {move : Move}
    (hm : m.moveFetcher? id d c f move = some m') : m.step? (.move id move) = some m' := by
  rw [h.step?_move, ← hm]
  cases move with
  | takePage | requestPermit | receivePage | queuePage | dropPage | endPass =>
    simp only [Machine.moveDownload?, hd, Machine.moveChapter?, hc]
  | _ => simp [Machine.moveFetcher?] at hm

/-- A stage that has less left. -/
theorem Ready.movesOn (h : Ready a l₀ m d c) {m₁ : Machine} {stage : ChapterStage} {left : Nat}
    (hs : m.step? action = some (m₁.setStage a.call d' c stage)) (hr : d'.remaining = d.remaining)
    (answers : action.declines = false) (hm : action.receives = false)
    (directory : action.places = false ∨ (m.disk.makeAll a.dir).2 = none)
    (running : m₁.isCancelled a.token = m.isCancelled a.token) (hleft : stage.left < left)
    (hplaced : stage.isPlacing = false) : ∃ m', Brings a answer m m' ∧ MovesOn a l₀ left m' := by
  obtain ⟨hu, ready⟩ := h.stage hs hr answers directory running
  exact ⟨_, h.brings hs hu hm, .inr ⟨_, _, ready, hleft, hplaced⟩⟩

/-- Time passes. -/
theorem Ready.waits (answer : PageTask → Bool → Except Error ByteArray) (h : Ready a l₀ m d c)
    (nanos : Nat) :
    Brings a answer m { m with now := m.now + nanos } ∧
      Ready a l₀ { m with now := m.now + nanos } d c := by
  obtain ⟨hs, goes⟩ := h.goes
  have hpass : m.step? (.pass nanos) = some { m with now := m.now + nanos } := rfl
  have hu : Undisturbed a m (.pass nanos) := h.undisturbed rfl (.inl rfl)
  exact ⟨h.brings hpass hu rfl, h.act hpass hu h.downloads.download? goes.current rfl rfl⟩

/-- The pass is over: there is a second one, or the chapter pauses or ends. -/
theorem Ready.endsPass (h : Ready a l₀ m d c) {f : PageFetcher} (hc : c.stage = .fetching f)
    (ho : f.isPassOver = true) : ∃ m', Brings a answer m m' ∧ MovesOn a l₀ (f.left + 2) m' := by
  obtain ⟨hs, goes⟩ := h.goes
  have running : m.isCancelled d.token = false := h.token ▸ h.running
  have hstep : m.step? (.move a.call .endPass) = some (m.endPass a.call d c f) :=
    h.downloads.step?_fetch goes.current hc (by simp [moveFetcher?, ho])
  have ended (hgone : (m.endPass a.call d c f).isAt a = false) :
      ∃ m', Brings a answer m m' ∧ MovesOn a l₀ (f.left + 2) m' :=
    ⟨_, h.brings hstep (h.undisturbed rfl (.inl rfl)) rfl, .inl hgone⟩
  cases hretry : f.retry? false with
  | some f' =>
    have again : m.endPass a.call d c f = m.setStage a.call d c (.fetching f') := by
      simp [endPass, running, hretry]
    exact h.movesOn (hstep.trans (congrArg some again)) rfl rfl rfl (.inl rfl) rfl
      (Nat.add_lt_add_right (PageFetcher.left_retry ho hretry) 2) rfl
  | none =>
    cases hresult : f.result false with
    | error e =>
      refine ended ?_
      simp only [endPass, running, hretry, hresult, failChapter]
      exact m.isAt_closeDownload _
    | ok _ =>
      by_cases hsmall : f.pages < Download.smallChapterPages
      · have pauses : m.endPass a.call d c f =
            m.setStage a.call d c (.pausing (m.now + Download.smallChapterPause)) := by
          simp [endPass, running, hretry, hresult, hsmall]
        exact h.movesOn (hstep.trans (congrArg some pauses)) rfl rfl rfl (.inl rfl) rfl
          (Nat.lt_add_left _ Nat.one_lt_two) rfl
      · refine ended ?_
        simp only [endPass, running, hretry, hresult, if_neg hsmall, passChapter]
        exact isAt_nextChapter _ goes.remaining

section
variable {f : PageFetcher} {task : PageTask} {rest : List Slot}

/-- A slot that waits gets its permit in the end, or gives up. -/
theorem Ready.requests (h : Ready a l₀ m d c) (hc : c.stage = .fetching f) {instant : Nat}
    (hslots : f.slots = ⟨task, .waiting instant⟩ :: rest) :
    ∃ m', Brings a answer m m' ∧ MovesOn a l₀ (f.left + 2) m' := by
  obtain ⟨hs, goes⟩ := h.goes
  have running : m.isCancelled d.token = false := h.token ▸ h.running
  have equipped : f.Equipped := h.equipped.2.1.fetching c f goes.current hc
  cases hstopped : f.isStopped false with
  | true =>
    obtain ⟨hrequest, hleft⟩ := PageFetcher.request?_of_stopped hslots hstopped m.now
    have hstep : m.step? (.move a.call (.requestPermit 0)) =
        some (m.setStage a.call d c (.fetching (f.free 0))) :=
      h.downloads.step?_fetch goes.current hc (by simp [moveFetcher?, running, hrequest, noteAll])
    exact h.movesOn hstep rfl rfl rfl (.inl rfl) rfl (Nat.add_lt_add_right hleft 2) rfl
  | false =>
    -- Time passes until the slot may ask again and a permit is there.
    obtain ⟨now, hnow, hpermit⟩ :=
      f.limiter.exists_permit equipped.rate equipped.slow equipped.capacity (m.now + instant)
    obtain ⟨nanos, rfl⟩ := Nat.exists_eq_add_of_le (Nat.le_trans (Nat.le_add_right ..) hnow)
    obtain ⟨brings, ready⟩ := h.waits answer nanos
    obtain ⟨f', hrequest, hleft⟩ :=
      PageFetcher.exists_request hslots hstopped (Nat.le_trans (Nat.le_add_left ..) hnow) hpermit
    have hstep : ({ m with now := m.now + nanos } : Machine).step? (.move a.call (.requestPermit 0)) =
        some ((note { m with now := m.now + nanos } (.fetchBegun f.dir task)).setStage a.call d c
          (.fetching f')) :=
      ready.downloads.step?_fetch goes.current hc (by
        have running : ({ m with now := m.now + nanos } : Machine).isCancelled d.token = false := running
        simp [moveFetcher?, running, hrequest, noteAll])
    obtain ⟨m', brings', moves⟩ :=
      ready.movesOn hstep rfl rfl rfl (.inl rfl) rfl (Nat.add_lt_add_right hleft 2) rfl
    exact ⟨m', brings.trans brings', moves⟩

/-- A fetch is answered. -/
theorem Ready.receives (h : Ready a l₀ m d c) (hc : c.stage = .fetching f)
    (hslots : f.slots = ⟨task, .fetching⟩ :: rest)
    (honest : ∀ e, answer task f.isRetry = .error e → e.isCancelled = false) :
    ∃ m', Brings a answer m m' ∧ MovesOn a l₀ (f.left + 2) m' := by
  obtain ⟨hs, goes⟩ := h.goes
  obtain ⟨f', hreceive, hleft⟩ := PageFetcher.exists_receive hslots honest
  have hstep : m.step? (.move a.call (.receivePage 0 (answer task f.isRetry))) =
      some ((m.note (.fetchEnded f.dir task f.isRetry (answer task f.isRetry))).setStage a.call d c
        (.fetching f')) :=
    h.downloads.step?_fetch goes.current hc (by simp [moveFetcher?, hreceive, noteAll])
  have answers : (Move.receivePage 0 (answer task f.isRetry)).declines = false := by
    cases hresult : answer task f.isRetry with
    | ok _ => rfl
    | error e => exact honest e hresult
  obtain ⟨hu, ready⟩ := h.stage hstep rfl answers (.inl rfl) rfl
  have told : ((m.note (.fetchEnded f.dir task f.isRetry (answer task f.isRetry))).setStage a.call d c
      (.fetching f')).ledger.happened =
        [.fetchEnded f.dir task f.isRetry (answer task f.isRetry)] ++ m.ledger.happened := by
    show (m.note _).ledger.happened = _
    rw [ledger_note, Ledger.happened_note _ rfl]
    rfl
  refine ⟨_, .single hstep hu told fun dir page isRetry result hmem => ?_,
    .inr ⟨_, _, ready, Nat.add_lt_add_right hleft 2, rfl⟩⟩
  cases List.mem_singleton.mp hmem
  rfl

/-- A page is queued once there is room for it. -/
theorem Ready.queues (h : Ready a l₀ m d c) (hc : c.stage = .fetching f) {bytes : ByteArray}
    (hslots : f.slots = ⟨task, .queueing bytes⟩ :: rest) :
    ∃ m', Brings a answer m m' ∧ MovesOn a l₀ (f.left + 2) m' := by
  obtain ⟨hs, goes⟩ := h.goes
  obtain ⟨m₁, store, brings, ready, hroom, hopen⟩ := h.room answer
  obtain ⟨hover, hleft⟩ := PageFetcher.handOver?_cons hslots
  have hstep : m₁.step? (.move a.call (.queuePage 0)) =
      some ((m₁.note (.pageQueued (f.page task bytes))).setStage a.call
        { d with store := { store with queue := store.queue ++ [f.page task bytes] } } c
        (.fetching (f.free 0))) :=
    ready.downloads.step?_fetch goes.current hc
      (by simp [moveFetcher?, hover, PageStore.push?, hroom, hopen])
  obtain ⟨m', brings', moves⟩ :=
    ready.movesOn hstep rfl rfl rfl (.inl rfl) rfl (Nat.add_lt_add_right hleft 2) rfl
  exact ⟨m', brings.trans brings', moves⟩

theorem Ready.fetches (h : Ready a l₀ m d c) (hc : c.stage = .fetching f)
    (hanswer : ∀ task isRetry e, answer task isRetry = .error e → e.isCancelled = false) :
    ∃ m', Brings a answer m m' ∧ MovesOn a l₀ (f.left + 2) m' := by
  cases hslots : f.slots with
  | nil =>
    by_cases hpending : f.pending = []
    · exact h.endsPass hc (PageFetcher.isPassOver_iff.mpr ⟨hpending, hslots⟩)
    · obtain ⟨hs, goes⟩ := h.goes
      have running : m.isCancelled d.token = false := h.token ▸ h.running
      have equipped : f.Equipped := h.equipped.2.1.fetching c f goes.current hc
      obtain ⟨f', htake, hleft⟩ := PageFetcher.exists_take equipped hslots hpending false m.now
      have hstep : m.step? (.move a.call .takePage) = some (m.setStage a.call d c (.fetching f')) :=
        h.downloads.step?_fetch goes.current hc (by simp [moveFetcher?, running, htake])
      exact h.movesOn hstep rfl rfl rfl (.inl rfl) rfl (Nat.add_lt_add_right hleft 2) rfl
  | cons slot rest =>
    obtain ⟨task, stage⟩ := slot
    cases stage with
    | waiting instant => exact h.requests hc hslots
    | fetching => exact h.receives hc hslots (hanswer task f.isRetry)
    | queueing bytes => exact h.queues hc hslots

end

/-- While the chapter is current there is always something that can be done, and that leaves less. -/
theorem Ready.progress (h : Ready a l₀ m d c)
    (hplace : c.stage.isPlacing = true → (m.disk.makeAll a.dir).2 = none)
    (hanswer : ∀ task isRetry e, answer task isRetry = .error e → e.isCancelled = false) :
    ∃ m', Brings a answer m m' ∧ MovesOn a l₀ c.stage.left m' := by
  obtain ⟨hs, goes⟩ := h.goes
  cases hc : c.stage with
  | resolving =>
    have tells := goes.stage
    rw [hc] at tells
    cases tells
  | placing urls =>
    have placed := hplace (by rw [hc]; rfl)
    obtain ⟨disk, hm⟩ : ∃ disk, m.disk.makeAll c.dir = (disk, none) :=
      ⟨_, Prod.ext rfl (by rw [goes.dir]; exact placed)⟩
    have hstep : m.step? (.move a.call .makeDirectory) =
        some ((noteAll { m with disk, session := m.session.addDirectory c.dir }
          [.directoryMade c.dir, .metadataAsked c.chapter m.session.mapper]).setStage a.call d c
            (.describing urls)) := by
      rw [h.downloads.step?_move]
      simp only [moveDownload?, goes.current, moveChapter?, hc, placeChapter, hm]
      rfl
    exact h.movesOn hstep rfl rfl rfl (.inr placed) rfl (Nat.lt_succ_self _) rfl
  | describing urls =>
    have hstep : m.step? (.move a.call (.endMetadata (.ok ()))) =
        some ((m.note (.fetchingBegun c.dir urls.length)).setStage a.call d c
          (.fetching (.ofUrls c.dir urls m.session.request.config.workers m.now))) := by
      rw [h.downloads.step?_move]
      simp only [moveDownload?, goes.current, moveChapter?, hc]
      rfl
    refine h.movesOn hstep rfl rfl rfl (.inl rfl) rfl ?_ rfl
    show (PageFetcher.ofUrls c.dir urls _ _).left + 2 < 9 * urls.length + 3
    simp [PageFetcher.left, PageFetcher.ofUrls, PageFetcher.tasks]
  | fetching f => exact h.fetches hc hanswer
  | pausing instant =>
    obtain ⟨brings, ready⟩ := h.waits answer instant
    have hstep : ({ m with now := m.now + instant } : Machine).step? (.move a.call .goOn) =
        some (passChapter { m with now := m.now + instant } a.call d c true) := by
      rw [ready.downloads.step?_move]
      simp only [moveDownload?, goes.current, moveChapter?, hc]
      exact if_pos (Nat.le_add_left ..)
    have hu : Undisturbed a { m with now := m.now + instant } (.move a.call .goOn) :=
      ready.undisturbed rfl (.inl rfl)
    exact ⟨_, brings.trans (ready.brings hstep hu rfl), .inl (isAt_nextChapter _ goes.remaining)⟩

/-- A chapter that goes undisturbed can always be brought to its end, whatever its fetches are answered. -/
theorem Ready.returns (h : Ready a l₀ m d c)
    (hplace : c.stage.isPlacing = true → (m.disk.makeAll a.dir).2 = none)
    (hanswer : ∀ task isRetry e, answer task isRetry = .error e → e.isCancelled = false) :
    ∃ m', Brings a answer m m' ∧ m'.isAt a = false := by
  obtain ⟨n, hn⟩ : ∃ n, c.stage.left = n := ⟨_, rfl⟩
  induction n using Nat.strong_induction_on generalizing m d c with
  | _ n ih =>
    obtain ⟨m₁, brings, hend | ⟨d₁, c₁, ready, hleft, hplaced⟩⟩ := h.progress hplace hanswer
    · exact ⟨m₁, brings, hend⟩
    · obtain ⟨m', brings', hend⟩ :=
        ih _ (hn ▸ hleft) ready (fun placing => Bool.noConfusion (hplaced.symm.trans placing)) rfl
      exact ⟨m', brings.trans brings', hend⟩

end

end Machine
end Longbox
