import Longbox.Proofs.Disk.Change
import Longbox.Proofs.Download.Shape

/-! What a download leaves on the disk.

Every page on its way to the disk belongs to a directory that has been recorded for a rollback before
(`Download.Recorded`). A download makes directories and writes the files of pages; all else stays as it
was found (`Ledger.Footprint`). Each step keeps both. -/
namespace Longbox

/-- A directory has been removed, or could not be. -/
def Happening.isRemoval : Happening → Bool
  | .cleared .. | .removalFailed .. => true
  | _ => false

/-- Part of a rollback. -/
def Happening.isRollback : Happening → Bool
  | .rollbackBegun _ => true
  | x => x.isRemoval

theorem Happening.isRollback_of_isRemoval {x : Happening} (h : x.isRemoval = true) :
    x.isRollback = true := by
  cases x <;> first | rfl | exact h

theorem Happening.isWork_of_isRollback {x : Happening} (h : x.isRollback = true) :
    x.isWork = true := by
  cases x <;> first | rfl | exact h

/-- The page that has been written to a file, with the place of the file. -/
def Happening.written? : Happening → Option (FetchedPage × Place)
  | .commitEnded page (.ok (some place)) => some (page, place)
  | _ => none

namespace ChapterStage

/-- The chapter's directory has been made. -/
def isMade : ChapterStage → Bool
  | .resolving | .placing _ => false
  | .describing _ | .fetching _ | .pausing _ => true

end ChapterStage

namespace Ledger
variable {l : Ledger} {x h : Happening}

@[simp] theorem disk_note (l : Ledger) (h : Happening) : (l.note h).disk = l.disk := by
  unfold note
  split <;> rfl

@[simp] theorem recorded_note (l : Ledger) (h : Happening) : (l.note h).recorded = l.recorded := by
  unfold note
  split <;> rfl

theorem mem_note (hx : x ∈ (l.note h).happened) : x = h ∨ x ∈ l.happened := by
  unfold note at hx
  split at hx
  · exact List.mem_cons.mp hx
  · exact .inr hx

theorem mem_note_of_mem (h : Happening) (hx : x ∈ l.happened) : x ∈ (l.note h).happened := by
  unfold note
  split
  · exact List.mem_cons_of_mem _ hx
  · exact hx

@[simp] theorem recorded_noteAll (l : Ledger) (hs : List Happening) :
    (l.noteAll hs).recorded = l.recorded := by
  induction hs generalizing l with
  | nil => rfl
  | cons h rest ih => exact (ih (l.note h)).trans (recorded_note l h)

@[simp] theorem disk_noteAll (l : Ledger) (hs : List Happening) : (l.noteAll hs).disk = l.disk := by
  induction hs generalizing l with
  | nil => rfl
  | cons h rest ih => exact (ih (l.note h)).trans (disk_note l h)

/-! ### On the disk -/

/-- A page has been written to its place, on a tree that came from the one that was found, and a file
is still there. -/
structure Wrote (found : Disk) (l : Ledger) (page : FetchedPage) (place : Place) : Prop where
  recorded : page.dir ∈ l.recorded
  written : ∃ tree : Disk, found.Extends tree ∧ tree.Within l.disk ∧
    tree.writable (Page.path page.dir page.task) = .ok place
  file : ∃ bytes, l.disk.entryAt? place = some (.file bytes)

/-- What a download has left on the disk that it found, which it has not begun to roll back. -/
structure Footprint (found : Disk) (t : Terms) (l : Ledger) : Prop where
  grown : found.Extends l.disk
  recorded : ∀ path ∈ l.recorded, l.disk.isDirectory path = true ∧
    ∃ c ∈ t.toDownload, path = t.naming.contentPath c
  wrote : ∀ page place, .commitEnded page (.ok (some place)) ∈ l.happened → l.Wrote found page place
  files : ∀ place bytes, found.entryAt? place = some (.file bytes) →
    (∀ page, .commitEnded page (.ok (some place)) ∉ l.happened) →
    l.disk.entryAt? place = some (.file bytes)
  ahead : ∀ x ∈ l.happened, x.isRollback = false

variable {found disk : Disk} {t : Terms} {page : FetchedPage} {place : Place}

theorem footprint_empty (found : Disk) (t : Terms) : Footprint found t { disk := found } where
  grown := .refl found
  recorded := fun _ hpath => absurd hpath List.not_mem_nil
  wrote := fun _ _ hmem => absurd hmem List.not_mem_nil
  files := fun _ _ he _ => he
  ahead := fun _ hmem => absurd hmem List.not_mem_nil

namespace Footprint

/-- Most happenings leave nothing on the disk. -/
theorem note (h : Footprint found t l) (x : Happening) (hr : x.isRollback = false)
    (hw : x.written? = none) : Footprint found t (l.note x) := by
  have wrote {page : FetchedPage} {place : Place}
      (hmem : .commitEnded page (.ok (some place)) ∈ (l.note x).happened) :
      .commitEnded page (.ok (some place)) ∈ l.happened := by
    rcases mem_note hmem with rfl | hmem
    · cases hw
    · exact hmem
  constructor
  · rw [disk_note]
    exact h.grown
  · rw [disk_note, recorded_note]
    exact h.recorded
  · intro page place hmem
    obtain ⟨hrecorded, hwritten, hfile⟩ := h.wrote page place (wrote hmem)
    exact ⟨by rwa [recorded_note], by rwa [disk_note], by rwa [disk_note]⟩
  · intro place bytes he hmem
    rw [disk_note]
    exact h.files place bytes he fun page hmem' => hmem page (mem_note_of_mem x hmem')
  · intro y hy
    rcases mem_note hy with rfl | hy
    · exact hr
    · exact h.ahead y hy

theorem noteAll (h : Footprint found t l) {hs : List Happening}
    (hr : ∀ x ∈ hs, x.isRollback = false ∧ x.written? = none) : Footprint found t (l.noteAll hs) := by
  induction hs generalizing l with
  | nil => exact h
  | cons x rest ih =>
    obtain ⟨hx, hrest⟩ := List.forall_mem_cons.mp hr
    exact ih (h.note x hx.1 hx.2) hrest

theorem makes (h : Footprint found t l) (hg : l.disk.Grows disk) :
    Footprint found t { l with disk } where
  grown := h.grown.trans hg.extends
  recorded := fun path hpath => by
    obtain ⟨hdir, hc⟩ := h.recorded path hpath
    exact ⟨Disk.isDirectory_within hg.extends.toWithin hdir, hc⟩
  wrote := fun page place hmem => by
    obtain ⟨hrecorded, ⟨tree, hfound, hwithin, hplace⟩, bytes, hfile⟩ := h.wrote page place hmem
    exact ⟨hrecorded, ⟨tree, hfound, hwithin.trans hg.extends.toWithin, hplace⟩, bytes,
      hg.kept _ _ hfile⟩
  files := fun place bytes he hmem => hg.kept _ _ (h.files place bytes he hmem)
  ahead := h.ahead

theorem records (h : Footprint found t l) {c : Chapter} (hc : c ∈ t.toDownload)
    (hd : l.disk.isDirectory (t.naming.contentPath c) = true) :
    Footprint found t { l with recorded := l.recorded ++ [t.naming.contentPath c] } :=
  { h with
    recorded := fun path hpath => by
      rcases List.mem_append.mp hpath with hpath | hpath
      · exact h.recorded path hpath
      · rw [List.mem_singleton.mp hpath]
        exact ⟨hd, c, hc, rfl⟩
    wrote := fun page place hmem =>
      { h.wrote page place hmem with
        recorded := List.mem_append_left _ (h.wrote page place hmem).recorded } }

theorem writes (h : Footprint found t l) (hp : page.dir ∈ l.recorded)
    (hw : l.disk.writable (Page.path page.dir page.task) = .ok place) :
    Footprint found t ({ l with disk := l.disk.put place (.file page.bytes) }.note
      (.commitEnded page (.ok (some place)))) := by
  have extended := Disk.extends_put_file hw page.bytes
  have hne := Disk.ne_nil_of_writable hw
  constructor
  · exact h.grown.trans extended
  · intro path hpath
    obtain ⟨hdir, hc⟩ := h.recorded path hpath
    exact ⟨Disk.isDirectory_within extended.toWithin hdir, hc⟩
  · intro page' place' hmem
    rcases mem_note hmem with heq | hmem
    · cases heq
      exact ⟨hp, ⟨l.disk, h.grown, extended.toWithin, hw⟩, page.bytes, by
        rw [disk_note, Disk.entryAt?_put hne, if_pos rfl]⟩
    · obtain ⟨hrecorded, ⟨tree, hfound, hwithin, hplace⟩, bytes, hfile⟩ := h.wrote page' place' hmem
      exact ⟨hrecorded, ⟨tree, hfound, hwithin.trans extended.toWithin, hplace⟩,
        extended.toWithin.file hfile⟩
  · intro place' bytes he hmem
    have hplace : place' ≠ place := by
      rintro rfl
      refine hmem page ?_
      simp [Ledger.note, Happening.isWork]
    rw [disk_note, Disk.entryAt?_put hne, if_neg hplace]
    exact h.files place' bytes he fun page' hmem' => hmem page' (mem_note_of_mem _ hmem')
  · intro x hx
    rcases mem_note hx with rfl | hx
    · rfl
    · exact h.ahead x hx

end Footprint
end Ledger

/-! ### Directories of pages are recorded -/

theorem Naming.contentPath_ne_empty (n : Naming) (c : Chapter) : n.contentPath c ≠ "" := by
  have name : n.contentName c ≠ "" := by
    intro h
    have hlength := congrArg String.length h
    unfold contentName oneShotName chapterName at hlength
    split at hlength <;> simp [String.length_append] at hlength
  unfold contentPath Path.join
  split
  · exact name
  · intro h
    have hlength := congrArg String.length h
    split at hlength <;> simp [String.length_append] at hlength
    exact name hlength.2

/-- A commit that succeeds writes the page's file, or nothing. -/
theorem Machine.commit_eq_ok {d disk : Disk} {page : FetchedPage} {answer : Except Error Keeper}
    {place? : Option Place} (h : Machine.commit d page answer = (disk, .ok place?)) :
    place? = none ∧ disk = d ∨ ∃ place, place? = some place ∧
      disk = d.put place (.file page.bytes) ∧
      d.writable (Page.path page.dir page.task) = .ok place := by
  unfold Machine.commit at h
  split at h
  · cases h
  · cases h
    exact .inl ⟨rfl, rfl⟩
  · split at h
    · rename_i place htarget
      cases h
      refine .inr ⟨place, rfl, rfl, ?_⟩
      unfold Page.target at htarget
      split at htarget
      · rename_i hw
        cases htarget
        exact hw
      · cases htarget
    · cases h

/-- A commit that fails writes nothing. -/
theorem Machine.commit_eq_error {d disk : Disk} {page : FetchedPage}
    {answer : Except Error Keeper} {e : Error}
    (h : Machine.commit d page answer = (disk, .error e)) : disk = d := by
  unfold Machine.commit at h
  split at h
  · cases h
    rfl
  · cases h
  · split at h
    · cases h
    · cases h
      rfl

theorem PageFetcher.Step.leavesNothing {cancelled : Bool} {f f' : PageFetcher} {move : Move}
    {hs : List Happening} (h : f.Step cancelled move hs f') :
    ∀ x ∈ hs, x.isRollback = false ∧ x.written? = none := by
  cases h <;> simp [Happening.isRollback, Happening.isRemoval, Happening.written?]

namespace Download

/-- The chapters are planned; the directory of the current one is recorded once it is made, and so are
those of the pages on their way to the disk. -/
structure Recorded (planned : List Chapter) (dirs : List String) (d : Download) : Prop where
  remaining : ∀ c ∈ d.remaining, c ∈ planned
  current : ∀ c, d.current = some c → c.chapter ∈ planned
  made : ∀ c, d.current = some c → c.stage.isMade = true → c.dir ∈ dirs
  queue : ∀ page ∈ d.store.queue, page.dir ∈ dirs
  inFlight : ∀ page ∈ d.store.inFlight, page.dir ∈ dirs

variable {t : Terms} {l l' : Ledger} {d d' : Download} {move : Move} {cancelled : Bool}
  {planned : List Chapter} {dirs : List String} {c : ChapterRun} {stage : ChapterStage}
  {found : Disk}

theorem Recorded.closed (h : Recorded planned dirs d) : Recorded planned dirs d.closed :=
  { h with current := nofun, made := nofun }

theorem Recorded.report (h : Recorded planned dirs d) (e : Error) :
    Recorded planned dirs { d with store := d.store.report e } := by
  obtain ⟨remaining, current, made, queue, inFlight⟩ := h
  unfold PageStore.report
  split <;> exact ⟨remaining, current, made, queue, inFlight⟩

theorem Recorded.failed (h : Recorded planned dirs d) (e : Error) :
    Recorded planned dirs (d.failed e) :=
  (h.report e).closed

theorem Recorded.inStage (h : Recorded planned dirs d) (hd : d.current = some c)
    (hs : stage.isMade = true → c.dir ∈ dirs) :
    Recorded planned dirs (d.inStage c stage) :=
  { h with
    current := fun _ hc => by
      cases hc
      exact h.current c hd
    made := fun _ hc hmade => by
      cases hc
      exact hs hmade }

theorem Recorded.mono (h : Recorded planned dirs d) (path : String) :
    Recorded planned (dirs ++ [path]) d :=
  { h with
    made := fun c hd hs => List.mem_append_left _ (h.made c hd hs)
    queue := fun page hp => List.mem_append_left _ (h.queue page hp)
    inFlight := fun page hp => List.mem_append_left _ (h.inFlight page hp) }

theorem Next.recorded {naming : Naming} (h : Recorded planned l.recorded d)
    (hn : d.Next naming cancelled l l' d') : Recorded planned l'.recorded d' := by
  cases hn with
  | closes => exact h.closed
  | @begins chapter rest began hc hr =>
    rw [Ledger.recorded_note]
    have hrest : ∀ c ∈ chapter :: rest, c ∈ planned := hr ▸ h.remaining
    exact { h with
      remaining := fun c hc => hrest c (List.mem_cons_of_mem _ hc)
      current := fun _ hc => by
        cases hc
        exact hrest chapter (List.mem_cons_self ..)
      made := fun _ hc hmade => by
        cases hc
        cases hmade }

theorem Step.recorded (ok : Ok t d) (h : Recorded t.toDownload l.recorded d)
    (hs : d.Step t.naming cancelled l move l' d') :
    Recorded t.toDownload l'.recorded d' := by
  cases hs with
  | urlsFail | placeFails | describeFails | fetchFails | givesUp => exact h.failed _
  | noUrls _ _ hn | fetchEnds _ _ _ _ _ hn | goesOn _ _ hn =>
    refine hn.recorded ?_
    rwa [Ledger.recorded_note]
  | urls hd =>
    rw [Ledger.recorded_note]
    exact h.inStage hd nofun
  | @places c urls disk mapper hd =>
    simp only [Ledger.recorded_note]
    exact (h.mono c.dir).inStage hd fun _ => by simp
  | describes _ _ hd hc =>
    rw [Ledger.recorded_note]
    exact h.inStage hd fun _ => h.made _ hd (by rw [hc]; rfl)
  | fetches hd hc =>
    rw [Ledger.recorded_noteAll]
    exact h.inStage hd fun _ => h.made _ hd (by rw [hc]; rfl)
  | @queues c f i task bytes hd hc =>
    rw [Ledger.recorded_note]
    have made := h.made c hd (by rw [hc]; rfl)
    have queued : Recorded t.toDownload l.recorded { d with store :=
        { d.store with queue := d.store.queue ++ [f.page task bytes] } } :=
      { h with
        queue := fun page hp => by
          rcases List.mem_append.mp hp with hp | hp
          · exact h.queue page hp
          · rw [List.mem_singleton.mp hp]
            show f.dir ∈ l.recorded
            rwa [(ok.fetching hd hc).dir] }
    exact queued.inStage hd fun _ => made
  | retries hd hc | pauses _ hd hc =>
    exact h.inStage hd fun _ => h.made _ hd (by rw [hc]; rfl)
  | pageDropped hq =>
    exact { h with queue := fun page hp => h.queue page (by rw [hq]; exact List.mem_cons_of_mem _ hp) }
  | @commitBegins page rest hq =>
    rw [Ledger.recorded_note]
    have hqueue : ∀ p ∈ page :: rest, p.dir ∈ l.recorded := hq ▸ h.queue
    exact { h with
      queue := fun p hp => hqueue p (List.mem_cons_of_mem _ hp)
      inFlight := fun p hp => by
        rcases List.mem_append.mp hp with hp | hp
        · exact h.inFlight p hp
        · rw [List.mem_singleton.mp hp]
          exact hqueue page (List.mem_cons_self ..) }
  | commitEnds =>
    rw [Ledger.recorded_note]
    exact { h with inFlight := fun p hp => h.inFlight p (List.mem_of_mem_eraseIdx hp) }
  | @commitFails i =>
    rw [Ledger.recorded_note]
    have erased : Recorded t.toDownload l.recorded { d with store :=
        { d.store with inFlight := d.store.inFlight.eraseIdx i } } :=
      { h with inFlight := fun p hp => h.inFlight p (List.mem_of_mem_eraseIdx hp) }
    exact erased.report _
  | storeStops => exact { h with queue := nofun }
  | loads | swaps => exact { h with }
  | ticks | tells =>
    rw [Ledger.recorded_note]
    exact { h with }

/-! ### Steps of a download -/

theorem Next.footprint (h : l.Footprint found t) (hn : d.Next t.naming cancelled l l' d') :
    l'.Footprint found t := by
  cases hn with
  | closes => exact h
  | begins => exact h.note _ rfl rfl

theorem Step.footprint (ok : Ok t d) (hr : Recorded t.toDownload l.recorded d)
    (h : l.Footprint found t) (hs : d.Step t.naming cancelled l move l' d') :
    l'.Footprint found t := by
  cases hs with
  | urlsFail | describeFails | retries | fetchFails | pauses | givesUp | pageDropped | storeStops
  | loads | swaps => exact h
  | noUrls _ _ hn | fetchEnds _ _ _ _ _ hn | goesOn _ _ hn => exact Next.footprint (h.note _ rfl rfl) hn
  | urls | describes | queues | commitBegins | ticks | tells => exact h.note _ rfl rfl
  | @placeFails c urls disk fault hd hc hm =>
    have grown := Disk.makeAll_grows l.disk c.dir
    rw [hm] at grown
    exact h.makes grown
  | @places c urls disk mapper hd hc hm =>
    have grown := Disk.makeAll_grows l.disk c.dir
    rw [hm] at grown
    have hdir := ok.dir _ hd
    rw [hdir] at hm ⊢
    have recorded := (h.makes grown).records (hr.current _ hd)
      (Disk.isDirectory_makeAll (t.naming.contentPath_ne_empty _) hm)
    exact (recorded.note _ rfl rfl).note _ rfl rfl
  | fetches hd hc hf => exact h.noteAll hf.leavesNothing
  | commitEnds hp hd =>
    rcases Machine.commit_eq_ok hd with ⟨rfl, rfl⟩ | ⟨place, rfl, rfl, hw⟩
    · exact h.note _ rfl rfl
    · exact h.writes (hr.inFlight _ (List.mem_of_getElem? hp)) hw
  | commitFails hp hd =>
    rw [Machine.commit_eq_error hd]
    exact h.note _ rfl rfl

end Download

end Longbox
