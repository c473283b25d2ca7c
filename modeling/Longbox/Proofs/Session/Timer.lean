import Longbox.Proofs.Session.Inversion

/-! What the timer reports of a download.

The timer loads the counters one at a time while the run goes on, so that a report may put together
what was never so at one time. Each of its numbers is one that its counter has shown since the tick
(`Journal.Gathered`): a reading on its way has only such numbers (`Download.Reads`), whatever happens to
the download meanwhile (`Step.clocked`). -/
namespace Longbox

/-- The pages of a chapter begin to be fetched. -/
def Happening.beginsFetching : Happening → Bool
  | .fetchingBegun .. => true
  | _ => false

namespace Counters

theorem chapters_le_note (c : Counters) (x : Happening) : c.chapters ≤ (c.note x).chapters := by
  cases x with
  | chapterDownloaded => exact Nat.le_succ _
  | fetchEnded _ _ isRetry result =>
    cases result with
    | ok => exact Nat.le_refl _
    | error e =>
      simp only [note]
      split <;> exact Nat.le_refl _
  | _ => exact Nat.le_refl _

/-- Pages only count up until those of the next chapter begin to be fetched. -/
theorem images_le_note (c : Counters) {x : Happening} (hx : x.beginsFetching = false) :
    c.images ≤ (c.note x).images ∧ (c.note x).pages = c.pages := by
  cases x with
  | fetchingBegun => cases hx
  | fetchEnded _ _ isRetry result =>
    cases result with
    | ok => exact ⟨Nat.le_succ _, rfl⟩
    | error e =>
      simp only [note]
      split <;> exact ⟨Nat.le_refl _, rfl⟩
  | _ => exact ⟨Nat.le_refl _, rfl⟩

end Counters

/-! ### What counters have shown -/

namespace Journal

/-- The counters after what has happened. -/
def counters (hs : List Happening) : Counters :=
  hs.foldr (fun x c => c.note x) {}

theorem counters_filter_isWork (hs : List Happening) :
    counters (hs.filter Happening.isWork) = counters hs := by
  induction hs with
  | nil => rfl
  | cons x rest ih =>
    rw [List.filter_cons]
    split
    · exact congrArg (Counters.note · x) ih
    · rename_i hx
      exact ih.trans (Machine.counters_note_of_not_work _ (Bool.eq_false_iff.mpr hx)).symm

theorem chapters_le_append (new hs : List Happening) :
    (counters hs).chapters ≤ (counters (new ++ hs)).chapters := by
  induction new with
  | nil => exact Nat.le_refl _
  | cons x rest ih => exact Nat.le_trans ih (Counters.chapters_le_note _ x)

theorem images_le_append {new : List Happening} (h : ∀ x ∈ new, x.beginsFetching = false)
    (hs : List Happening) : (counters hs).images ≤ (counters (new ++ hs)).images ∧
      (counters (new ++ hs)).pages = (counters hs).pages := by
  induction new with
  | nil => exact ⟨Nat.le_refl _, rfl⟩
  | cons x rest ih =>
    obtain ⟨hx, hrest⟩ := List.forall_mem_cons.mp h
    obtain ⟨images, pages⟩ := ih hrest
    obtain ⟨images', pages'⟩ := (counters (rest ++ hs)).images_le_note hx
    exact ⟨Nat.le_trans images images', pages'.trans pages⟩

/-- After `earlier`, with `since` happening, a counter has shown a value. -/
def Shown (earlier since : List Happening) (g : Gauge) (value : Nat) : Prop :=
  ∃ part, part <:+ since ∧ (counters (part ++ earlier)).gauge g = value

variable {earlier since : List Happening} {g : Gauge} {value : Nat}

theorem Shown.mono (h : Shown earlier since g value) (new : List Happening) :
    Shown earlier (new ++ since) g value := by
  obtain ⟨part, hpart, hvalue⟩ := h
  exact ⟨part, hpart.trans (List.suffix_append ..), hvalue⟩

/-- As long as no other chapter's pages begin to be fetched, no more pages are shown to be fetched than
the chapter has. -/
theorem Shown.images_le {images total : Nat} (hi : Shown earlier since .images images)
    (ht : Shown earlier since .pages total) (h : ∀ x ∈ since, x.beginsFetching = false)
    (hle : (counters (since ++ earlier)).images ≤ (counters (since ++ earlier)).pages) :
    images ≤ total := by
  have rest {part : List Happening} (hpart : part <:+ since) :
      (counters (part ++ earlier)).images ≤ (counters (since ++ earlier)).images ∧
        (counters (since ++ earlier)).pages = (counters (part ++ earlier)).pages := by
    obtain ⟨new, rfl⟩ := hpart
    rw [List.append_assoc]
    exact images_le_append (fun x hx => h x (List.mem_append_left _ hx)) _
  obtain ⟨part, hpart, rfl⟩ := hi
  obtain ⟨part', hpart', rfl⟩ := ht
  calc (counters (part ++ earlier)).images ≤ (counters (since ++ earlier)).images := (rest hpart).1
    _ ≤ (counters (since ++ earlier)).pages := hle
    _ = (counters (part' ++ earlier)).pages := (rest hpart').2

/-- What a report tells is put together from counters as they have been shown since the tick, each at a
moment of its own. -/
structure Gathered (planned : Nat) (before since : List Happening) (percent : Single)
    (images total : Nat) : Prop where
  shownChapters : ∃ chapters, Shown (.ticked :: before) since .chapters chapters ∧
    percent = Single.percent chapters planned
  shownImages : Shown (.ticked :: before) since .images images
  shownPages : Shown (.ticked :: before) since .pages total
  /-- The two numbers of pages are of one chapter. -/
  sameChapter : (∀ x ∈ since, x.beginsFetching = false) → images ≤ total

/-- A report that the timer asked for is gathered since the latest tick. -/
def Timed (id : String) (planned : Nat) (earlier : List Happening) : Happening → Prop
  | .timed event => ∃ percent speed images total since before,
    event = .progress id percent speed images total ∧ earlier = since ++ .ticked :: before ∧
      .ticked ∉ since ∧ Gathered planned before since percent images total
  | _ => True

theorem Timed.of_not {id : String} {planned : Nat} {x : Happening} (hx : x.isTimed = false) :
    Timed id planned earlier x := by
  cases x with
  | timed => cases hx
  | _ => trivial

/-! ### Only work shows -/

theorem Shown.of_filter {before since : List Happening}
    (h : Shown (.ticked :: before.filter Happening.isWork) (since.filter Happening.isWork) g value) :
    Shown (.ticked :: before) since g value := by
  obtain ⟨part, ⟨new, hnew⟩, hvalue⟩ := h
  obtain ⟨first, part, rfl, rfl, rfl⟩ := List.filter_eq_append_iff.mp hnew.symm
  refine ⟨part, List.suffix_append .., ?_⟩
  rw [← counters_filter_isWork, List.filter_append]
  exact hvalue

theorem Timed.of_filter {id : String} {planned : Nat} {x : Happening}
    (h : Timed id planned (earlier.filter Happening.isWork) x) : Timed id planned earlier x := by
  cases x with
  | timed event =>
    obtain ⟨percent, speed, images, total, since, before, hevent, hearlier, hlatest, gathered⟩ := h
    obtain ⟨first, second, rfl, rfl, hsecond⟩ := List.filter_eq_append_iff.mp hearlier
    obtain ⟨silent, rest, rfl, hsilent, -, rfl⟩ := List.filter_eq_cons_iff.mp hsecond
    have silence : silent.filter Happening.isWork = [] := List.filter_eq_nil_iff.mpr hsilent
    have all : (first ++ silent).filter Happening.isWork = first.filter Happening.isWork := by
      rw [List.filter_append, silence, List.append_nil]
    rw [← all] at hlatest gathered
    obtain ⟨⟨chapters, hchapters, hpercent⟩, himages, htotal, same⟩ := gathered
    refine ⟨percent, speed, images, total, first ++ silent, rest, hevent, (List.append_assoc ..).symm,
      fun hmem => hlatest (List.mem_filter.mpr ⟨hmem, rfl⟩),
      ⟨chapters, hchapters.of_filter, hpercent⟩, himages.of_filter, htotal.of_filter,
      fun hnone => same fun x hx => hnone x (List.mem_filter.mp hx).1⟩
  | _ => trivial

end Journal

/-! ### Readings and reports -/

/-- The counters are those of what has happened, and the timer's reports are gathered. -/
structure Ledger.Clocked (id : String) (planned : Nat) (l : Ledger) : Prop where
  counters : l.counters = Journal.counters l.happened
  timed : ∀ x earlier, x :: earlier <:+ l.happened → Journal.Timed id planned earlier x

/-- From one ledger to another the timer has not been heard. -/
structure Ledger.Untimed (l l' : Ledger) : Prop where
  happened : ∃ new, l'.happened = new ++ l.happened ∧ ∀ x ∈ new, x.isTimed = false
  counters : l.counters = Journal.counters l.happened → l'.counters = Journal.counters l'.happened

namespace Ledger
variable {l l' : Ledger} {id : String} {planned : Nat}

theorem Untimed.refl (l : Ledger) : l.Untimed l :=
  ⟨⟨[], rfl, nofun⟩, id⟩

theorem Untimed.setDisk (l : Ledger) (disk : Disk) (recorded : List String) :
    l.Untimed { l with disk, recorded } :=
  ⟨⟨[], rfl, nofun⟩, id⟩

theorem counters_note_eq (h : l.counters = Journal.counters l.happened) (x : Happening) :
    (l.note x).counters = Journal.counters (l.note x).happened := by
  unfold note
  split
  · exact congrArg (Counters.note · x) h
  · exact h

theorem Untimed.note (h : l.Untimed l') {x : Happening} (hx : x.isTimed = false) :
    l.Untimed (l'.note x) := by
  obtain ⟨⟨new, hnew, quiet⟩, counted⟩ := h
  refine ⟨?_, fun hc => counters_note_eq (counted hc) x⟩
  unfold Ledger.note
  split
  · exact ⟨x :: new, congrArg (x :: ·) hnew, List.forall_mem_cons.mpr ⟨hx, quiet⟩⟩
  · exact ⟨new, hnew, quiet⟩

theorem Untimed.noteAll (h : l.Untimed l') {hs : List Happening} (hx : ∀ x ∈ hs, x.isTimed = false) :
    l.Untimed (l'.noteAll hs) := by
  induction hs generalizing l' with
  | nil => exact h
  | cons x rest ih =>
    obtain ⟨hx, hrest⟩ := List.forall_mem_cons.mp hx
    exact ih (h.note hx) hrest

/-- What has been reported is still so after more has happened. -/
theorem Clocked.append {new : List Happening} (h : l.Clocked id planned)
    (hl : l'.happened = new ++ l.happened) (hc : l'.counters = Journal.counters l'.happened)
    (hx : ∀ x earlier, x :: earlier <:+ new → Journal.Timed id planned (earlier ++ l.happened) x) :
    l'.Clocked id planned := by
  refine ⟨hc, fun x earlier hsuffix => ?_⟩
  rw [hl] at hsuffix
  obtain ⟨first, hfirst⟩ := hsuffix
  rcases List.append_eq_append_iff.mp hfirst with ⟨rest, rfl, hrest⟩ | ⟨rest, rfl, hrest⟩
  · cases rest with
    | nil => exact h.timed x earlier (hrest ▸ List.suffix_refl _)
    | cons y rest =>
      obtain ⟨rfl, rfl⟩ := List.cons.inj hrest
      exact hx x rest (List.suffix_append ..)
  · exact h.timed x earlier ⟨rest, hrest.symm⟩

theorem Clocked.untimed (h : l.Clocked id planned) (hu : l.Untimed l') : l'.Clocked id planned := by
  obtain ⟨new, hnew, quiet⟩ := hu.happened
  exact h.append hnew (hu.counters h.counters) fun x _ hx =>
    .of_not (quiet x (hx.subset (List.mem_cons_self ..)))

theorem Clocked.note (h : l.Clocked id planned) {x : Happening}
    (hx : Journal.Timed id planned l.happened x) : (l.note x).Clocked id planned := by
  cases hw : x.isWork with
  | false => exact (l.note_of_not_work hw).symm ▸ h
  | true =>
    have more : (l.note x).happened = [x] ++ l.happened := l.happened_note hw
    refine h.append more (counters_note_eq h.counters x) fun y earlier hy => ?_
    obtain ⟨first, hfirst⟩ := hy
    cases first with
    | nil =>
      cases hfirst
      exact hx
    | cons z rest => simp at hfirst

theorem clocked_of_nothing {disk : Disk} (hl : l = { disk }) : l.Clocked id planned := by
  subst hl
  exact ⟨rfl, fun x earlier hx => by cases List.suffix_nil.mp hx⟩

end Ledger

namespace Reading
variable {r r' : Reading}

theorem mem_of_value? {g : Gauge} {value : Nat} (h : r.value? g = some value) :
    (g, value) ∈ r.loaded := by
  obtain ⟨first, rest, heq, -⟩ := List.lookup_eq_some_iff.mp h
  rw [heq]
  exact List.mem_append_right _ (List.mem_cons_self ..)

/-- A load adds nothing to a reading but what its counter shows. -/
theorem loaded_of_load? {lifecycle : Lifecycle} {c : Counters} {what : Load}
    (h : r.load? lifecycle c what = some r') :
    r'.loaded = r.loaded ∨ ∃ g, r'.loaded = (g, c.gauge g) :: r.loaded := by
  cases what with
  | lifecycle | sample =>
    obtain ⟨-, h⟩ := Option.ite_none_right_eq_some.mp h
    cases h
    exact .inl rfl
  | counter g =>
    obtain ⟨-, h⟩ := Option.ite_none_right_eq_some.mp h
    cases h
    exact .inr ⟨g, rfl⟩

theorem event?_eq_some {id : String} {planned : Nat} {event : Event}
    (h : r.event? id planned = some event) : ∃ chapters images pages speed,
      (.chapters, chapters) ∈ r.loaded ∧ (.images, images) ∈ r.loaded ∧ (.pages, pages) ∈ r.loaded ∧
      event = .progress id (Single.percent chapters planned) speed images pages := by
  simp only [event?, Option.bind_eq_bind, Option.bind_eq_some_iff] at h
  obtain ⟨chapters, hchapters, images, himages, pages, hpages, speed, -, h⟩ := h
  exact ⟨chapters, images, pages, speed, mem_of_value? hchapters, mem_of_value? himages,
    mem_of_value? hpages, (Option.some.inj h).symm⟩

end Reading

theorem PageFetcher.Step.isTimed {cancelled : Bool} {f f' : PageFetcher} {move : Move}
    {hs : List Happening} (h : f.Step cancelled move hs f') : ∀ x ∈ hs, x.isTimed = false := by
  cases h <;> simp [Happening.isTimed]

namespace Download
variable {naming : Naming} {cancelled : Bool} {id : String} {planned : Nat} {l l' : Ledger}
  {d d' : Download} {move : Move}

/-- What the timer has loaded has been shown since the tick. -/
def Reads (l : Ledger) (d : Download) : Prop :=
  ∀ r, d.reading = some r → ∃ since before, l.happened = since ++ .ticked :: before ∧
    .ticked ∉ since ∧ ∀ g value, (g, value) ∈ r.loaded →
      Journal.Shown (.ticked :: before) since g value

theorem Reads.untimed (h : d.Reads l) (hu : l.Untimed l') (hr : d'.reading = d.reading) :
    d'.Reads l' := by
  intro r hreading
  obtain ⟨since, before, hsplit, hlatest, shown⟩ := h r (hr ▸ hreading)
  obtain ⟨new, hnew, quiet⟩ := hu.happened
  refine ⟨new ++ since, before, ?_, ?_, fun g value hload => (shown g value hload).mono new⟩
  · rw [hnew, hsplit, List.append_assoc]
  · rintro hmem
    rcases List.mem_append.mp hmem with hmem | hmem
    · cases quiet _ hmem
    · exact hlatest hmem

/-- What the timer has loaded by a further load has been shown since the tick, too. -/
theorem Reads.load {r r' : Reading} {lifecycle : Lifecycle} {what : Load} (h : d.Reads l)
    (hc : l.counters = Journal.counters l.happened) (hreading : d.reading = some r)
    (hload : r.load? lifecycle l.counters what = some r') : Reads l { d with reading := some r' } := by
  intro _ hr
  cases hr
  obtain ⟨since, before, hsplit, hlatest, shown⟩ := h r hreading
  refine ⟨since, before, hsplit, hlatest, fun g value hmem => ?_⟩
  rcases Reading.loaded_of_load? hload with hsame | ⟨g', hnew⟩
  · exact shown g value (hsame ▸ hmem)
  · rw [hnew] at hmem
    rcases List.mem_cons.mp hmem with heq | hmem
    · cases heq
      refine ⟨since, List.suffix_refl _, ?_⟩
      rw [← hsplit, ← hc]
    · exact shown g value hmem

/-- A report put together from a reading is gathered. -/
theorem Reads.timed {r : Reading} {event : Event} (h : d.Reads l)
    (hc : l.counters = Journal.counters l.happened) (hi : l.counters.images ≤ l.counters.pages)
    (hreading : d.reading = some r) (he : r.event? id d.planned = some event) :
    Journal.Timed id d.planned l.happened (.timed event) := by
  obtain ⟨since, before, hsplit, hlatest, shown⟩ := h r hreading
  obtain ⟨chapters, images, pages, speed, hchapters, himages, hpages, rfl⟩ := Reading.event?_eq_some he
  have now : (Journal.counters (since ++ .ticked :: before)).images ≤
      (Journal.counters (since ++ .ticked :: before)).pages := by
    rw [← hsplit, ← hc]
    exact hi
  refine ⟨_, speed, images, pages, since, before, rfl, hsplit, hlatest, ?_⟩
  exact {
    shownChapters := ⟨chapters, shown _ _ hchapters, rfl⟩
    shownImages := shown _ _ himages
    shownPages := shown _ _ hpages
    sameChapter := fun hnone => (shown _ _ himages).images_le (shown _ _ hpages) hnone now }

theorem Next.untimed {l₀ : Ledger} (h : l₀.Untimed l) (hn : d.Next naming cancelled l l' d') :
    l₀.Untimed l' ∧ d'.reading = d.reading := by
  cases hn with
  | closes => exact ⟨h, rfl⟩
  | begins => exact ⟨h.note rfl, rfl⟩

/-- The timer is not heard of by a move that is not its own. -/
theorem Step.untimed (hs : d.Step naming cancelled l move l' d') (hm : ∀ step, move ≠ .timer step) :
    l.Untimed l' ∧ d'.reading = d.reading := by
  have same := Ledger.Untimed.refl l
  have moved := Ledger.Untimed.setDisk l
  cases hs with
  | noUrls _ _ hn | fetchEnds _ _ _ _ _ hn | goesOn _ _ hn => exact hn.untimed (same.note rfl)
  | urlsFail | describeFails | retries | fetchFails | pauses | givesUp | pageDropped | storeStops =>
    exact ⟨same, rfl⟩
  | urls | describes | queues | commitBegins => exact ⟨same.note rfl, rfl⟩
  | placeFails => exact ⟨moved _ _, rfl⟩
  | places => exact ⟨((moved _ _).note rfl).note rfl, rfl⟩
  | fetches _ _ hf => exact ⟨same.noteAll hf.isTimed, rfl⟩
  | commitEnds | commitFails => exact ⟨(moved _ l.recorded).note rfl, rfl⟩
  | ticks | loads | swaps | tells => exact absurd rfl (hm _)

/-- Whatever a move does, reports of the timer are gathered, and so are the readings it goes on with. -/
theorem Step.clocked (hl : l.Clocked id planned) (hr : d.Reads l) (hp : d.planned = planned)
    (hi : l.counters.images ≤ l.counters.pages)
    (hid : ∀ event, move = .timer .send → l'.happened = .timed event :: l.happened →
      ∃ percent speed images total, event = .progress id percent speed images total)
    (hs : d.Step naming cancelled l move l' d') : l'.Clocked id planned ∧ d'.Reads l' := by
  by_cases hm : ∃ step, move = .timer step
  case neg =>
    obtain ⟨hu, hreading⟩ := hs.untimed fun step hstep => hm ⟨step, hstep⟩
    exact ⟨hl.untimed hu, hr.untimed hu hreading⟩
  obtain ⟨step, rfl⟩ := hm
  cases hs with
  | ticks elapsed =>
    refine ⟨hl.note trivial, fun r hreading => ?_⟩
    cases hreading
    exact ⟨[], l.happened, rfl, nofun, nofun⟩
  | loads _ hreading hload => exact ⟨hl, hr.load hl.counters hreading hload⟩
  | @swaps r speed hreading =>
    refine ⟨hl, fun r' hr' => ?_⟩
    cases hr'
    exact hr r hreading
  | @tells r event id' now hreading he =>
    obtain ⟨_, _, _, _, hevent⟩ := hid event rfl rfl
    obtain ⟨_, _, _, _, -, -, -, hreport⟩ := Reading.event?_eq_some he
    obtain ⟨rfl, -⟩ := Event.progress.inj (hevent.symm.trans hreport)
    exact ⟨hl.note (hp ▸ hr.timed hl.counters hi hreading he), nofun⟩
  | fetches _ _ hf => cases hf

end Download

namespace Machine
variable {disk : Disk} {m m' : Machine} {a : Action} {p p' : Phase} {n : Nat} {d : Download}

/-- A report that the timer sends has the id of the session. -/
theorem At.sends (h : m.At disk (.downloading n d)) {event : Event}
    (hs : m.step? (.move n (.timer .send)) = some m')
    (he : m'.ledger.happened = .timed event :: m.ledger.happened) :
    ∃ percent speed images total,
      event = .progress m.terms.request.id percent speed images total := by
  cases h.sequel nofun hs with
  | rests ha => cases ha
  | moves hmove =>
    simp only [moveDownload?, moveTimer?, Option.bind_eq_bind, Option.bind_eq_some_iff] at hmove
    obtain ⟨r, -, sent, hsent, hm⟩ := hmove
    cases hm
    obtain ⟨chapters, images, pages, speed, -, -, -, rfl⟩ := Reading.event?_eq_some hsent
    obtain ⟨heq, -⟩ := List.cons.inj he
    cases heq
    exact ⟨_, _, _, _, rfl⟩

/-- The timer's reports so far are gathered, and in a download its reading. -/
def Clocked (m : Machine) (p : Phase) : Prop :=
  m.ledger.Clocked m.terms.request.id m.terms.toDownload.length ∧
    ∀ n d, p = .downloading n d → d.Reads m.ledger

theorem Passes.clocked (h : Passes disk m a m' p p')
    (hd : ∀ n d, p = .downloading n d → d.planned = m.terms.toDownload.length ∧
      m.ledger.counters.images ≤ m.ledger.counters.pages) (hm : m.Clocked p) : m'.Clocked p' := by
  have follows (hf : m.Follows m') (hu : m.ledger.Untimed m'.ledger) :
      m'.ledger.Clocked m'.terms.request.id m'.terms.toDownload.length := by
    rw [hf.terms]
    exact hm.1.untimed hu
  have same (hl : m'.ledger = m.ledger) : m.ledger.Untimed m'.ledger := by
    rw [hl]
    exact .refl _
  cases h.transition with
  | prepares => exact ⟨Ledger.clocked_of_nothing (Idle.ledger (Fresh.idle h.after)), fun _ _ hp => nomatch hp⟩
  | opens hopens =>
    obtain ⟨d₀, hopen, hnext⟩ := hopens.next
    obtain ⟨hu, hreading⟩ := hnext.untimed (.refl _)
    refine ⟨(Ledger.clocked_of_nothing rfl).untimed hu, fun n d hp r hr => ?_⟩
    cases hp
    rw [hreading, hopen.reading] at hr
    cases hr
  | rests hl hf =>
    refine ⟨follows hf (same hl), fun n d hp => ?_⟩
    rw [hl]
    exact hm.2 n d hp
  | @works n d d' move ha hs ht hf =>
    obtain ⟨planned, images⟩ := hd n d rfl
    have clocked := hs.clocked hm.1 (hm.2 n d rfl) planned images fun event hsend hl =>
      h.before.sends (by rw [← hsend, ← ha]; exact h.step) hl
    refine ⟨by rw [hf.terms]; exact clocked.1, fun n' d'' hp => ?_⟩
    cases hp
    exact clocked.2
  | fails _ _ _ hl hf =>
    refine ⟨follows hf ?_, fun _ _ hp => nomatch hp⟩
    rw [hl]
    exact (Ledger.Untimed.refl _).note rfl
  | stops hl hf | finishes _ _ _ _ hl hf | asks hl hf | ends hl hf =>
    exact ⟨follows hf (same hl), fun _ _ hp => nomatch hp⟩
  | @removes n token cause path left hl hf =>
    refine ⟨follows hf ?_, fun _ _ hp => nomatch hp⟩
    rw [hl]
    refine (Ledger.Untimed.setDisk m.ledger _ _).noteAll fun x hx => ?_
    rcases Disk.Removal.mem_happenings.mp hx with ⟨_, -, rfl⟩ | ⟨_, -, rfl⟩ <;> rfl

end Machine
end Longbox
