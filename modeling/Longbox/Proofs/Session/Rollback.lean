import Longbox.Proofs.Download.Rollback
import Longbox.Proofs.Session.Phase

/-! What an aborted session leaves.

When a session is aborted all work on its download has ended, and every directory that it has recorded
is removed. `Reverts` says how far a session is with that, and each transition keeps it. -/
namespace Longbox

/-- A rollback is as far as that, after some removals. -/
def Ledger.Reverts (l : Ledger) (found : Disk) (t : Terms) (cause : Error) (left : List String) :
    Prop :=
  ∃ peak removed, peak.Footprint found t ∧ RollsBack found t cause peak removed l left

namespace Machine

/-- A session has recorded what it leaves on the disk until it rolls back. -/
def Reverts (found : Disk) (m : Machine) : Phase → Prop
  | .downloading _ d => d.Ok m.terms ∧ d.Recorded m.terms.toDownload m.ledger.recorded ∧
    m.ledger.Footprint found m.terms
  | .removing _ _ cause left => m.ledger.Reverts found m.terms cause left
  | .releasing _ _ (.failed cause) => m.ledger.Reverts found m.terms cause []
  | .ended (.aborted reason) => ∃ cause, reason = cause.message ∧
    m.ledger.Reverts found m.terms cause []
  | _ => True

variable {found : Disk} {m m' : Machine} {a : Action} {p p' : Phase}

theorem Opens.reverts {id : Nat} {d : Download} (h : m.Opens found id d) :
    m.Reverts found (.downloading id d) := by
  obtain ⟨d₀, hopen, hnext⟩ := h.next
  obtain ⟨slots, hstore⟩ := hopen.store
  have recorded : d₀.Recorded m.terms.toDownload ({ disk := found } : Ledger).recorded := {
    remaining := fun c hc => hopen.remaining ▸ hc
    current := fun c hc => by
      rw [hopen.current] at hc
      cases hc
    made := fun c hc => by
      rw [hopen.current] at hc
      cases hc
    queue := by simp [hstore]
    inFlight := by simp [hstore] }
  exact ⟨hnext.ok (by rw [hstore]), hnext.recorded recorded,
    hnext.footprint (Ledger.footprint_empty found m.terms)⟩

theorem Reverts.step (_ : m.At found p) (_ : m'.At found p') (_ : True)
    (ht : Transition found m m' a p p') (h : m.Reverts found p) : m'.Reverts found p' := by
  cases ht with
  | prepares => trivial
  | opens hopens => exact hopens.reverts
  | works _ hs _ hf =>
    obtain ⟨ok, recorded, footprint⟩ := h
    unfold Reverts
    rw [hf.terms]
    exact ⟨hs.ok ok, hs.recorded ok recorded, hs.footprint ok recorded footprint⟩
  | rests hl hf =>
    unfold Reverts at h ⊢
    rw [hl, hf.terms]
    exact h
  | fails hc hd he hl hf =>
    unfold Reverts
    dsimp only
    rw [hl, hf.terms]
    exact ⟨m.ledger, [], h.2.2, h.2.2.rollsBack _⟩
  | removes hl hf =>
    obtain ⟨peak, removed, began, rollsBack⟩ := h
    unfold Reverts
    dsimp only
    rw [hl, hf.terms]
    exact ⟨peak, _, began, rollsBack.remove began⟩
  | asks hl hf =>
    unfold Reverts at h ⊢
    dsimp only at h ⊢
    rw [hl, hf.terms]
    exact h
  | @ends id token reason hl hf =>
    cases reason with
    | failed cause =>
      unfold Reverts at h ⊢
      dsimp only [ReleaseReason.outcome] at h ⊢
      rw [hl, hf.terms]
      exact ⟨cause, rfl, h⟩
    | _ => trivial
  | _ => trivial

/-- A run that is answered that it was aborted has rolled back. -/
theorem reverts_of_aborted {request : Request} {actions : List Action} {call : Nat}
    {reason : String} (hrun : (ofRequest request found).run? actions = some m)
    (hanswer : .answered call (.ok (some (.aborted reason))) ∈ m.journal) :
    ∃ cause, reason = cause.message ∧ m.ledger.Reverts found m.terms cause [] := by
  have begins : (ofRequest request found).At found .fresh := fresh_ofRequest request found
  obtain ⟨p, hat, hreverts⟩ := begins.run? (P := fun _ _ => True) (I := Reverts found) Reverts.step
    trivial (along_of_forall (fun _ _ _ => trivial) _) hrun
  obtain rfl := hat.over_of_answered hanswer rfl
  exact hreverts

end Machine

/-! ### What the journal tells of a rollback -/

theorem Machine.mem_ledger {m : Machine} {x : Happening} (hw : x.isWork = true) :
    x ∈ m.ledger.happened ↔ x ∈ m.journal := by
  simp [ledger, hw]

namespace Ledger.RollsBack
variable {found : Disk} {t : Terms} {cause : Error} {peak : Ledger} {removed : List Happening}
  {m : Machine} {left : List String}

theorem mem_removed (h : RollsBack found t cause peak removed m.ledger left)
    (began : peak.Footprint found t) {x : Happening} (hx : x.isRemoval = true) :
    x ∈ m.journal ↔ x ∈ removed := by
  have rollback := Happening.isRollback_of_isRemoval hx
  rw [← Machine.mem_ledger (Happening.isWork_of_isRollback rollback), h.happened, List.mem_append,
    List.mem_cons]
  refine or_iff_left ?_
  rintro (rfl | hpeak)
  · cases hx
  · rw [began.ahead x hpeak] at rollback
    cases rollback

theorem mem_peak (h : RollsBack found t cause peak removed m.ledger left) {x : Happening}
    (hw : x.isWork = true) (hx : x.isRollback = false) : x ∈ m.journal ↔ x ∈ peak.happened := by
  rw [← Machine.mem_ledger hw, h.happened, List.mem_append, List.mem_cons]
  constructor
  · rintro (hremoved | rfl | hpeak)
    · rw [Happening.isRollback_of_isRemoval (h.removals x hremoved)] at hx
      cases hx
    · cases hx
    · exact hpeak
  · exact fun hpeak => .inr (.inr hpeak)

/-- A rollback begins once; all work that comes after is the removal of directories. -/
theorem journal_eq (h : RollsBack found t cause peak removed m.ledger left)
    (began : peak.Footprint found t) :
    ∃ later earlier, m.journal = later ++ .rollbackBegun cause :: earlier ∧
      (∀ x ∈ later, x.isWork = true → x.isRemoval = true) ∧
      ∀ x ∈ earlier, x.isRollback = false := by
  obtain ⟨later, rest, hjournal, hlater, hrest⟩ := List.filter_eq_append_iff.mp h.happened
  obtain ⟨idle, earlier, rfl, hidle, -, hearlier⟩ := List.filter_eq_cons_iff.mp hrest
  refine ⟨later ++ idle, earlier, by rw [hjournal, List.append_assoc], ?_, ?_⟩
  · intro x hx hw
    rcases List.mem_append.mp hx with hx | hx
    · exact h.removals x (by rw [← hlater, List.mem_filter]; exact ⟨hx, hw⟩)
    · exact absurd hw (hidle x hx)
  · intro x hx
    cases hw : x.isWork with
    | true => exact began.ahead x (by rw [← hearlier, List.mem_filter]; exact ⟨hx, hw⟩)
    | false =>
      cases hr : x.isRollback with
      | false => rfl
      | true =>
        rw [Happening.isWork_of_isRollback hr] at hw
        cases hw

end Ledger.RollsBack

namespace Machine
variable {request : Request} {disk : Disk} {actions : List Action} {m : Machine} {call : Nat}
  {reason : String}

/-- What an aborted session has come to that found the tree `found`. -/
structure RolledBack (found : Disk) (reason : String) (m : Machine) : Prop where
  /-- No recorded directory is there any more. -/
  absent : ∀ path ∈ m.session.plan.hasDownloaded, m.disk.Absent path
  /-- Since the rollback began there has been no other work than to remove directories. -/
  alone : ∃ cause later earlier, reason = cause.message ∧
    m.journal = later ++ .rollbackBegun cause :: earlier ∧
    (∀ x ∈ later, x.isWork = true → x.isRemoval = true) ∧ ∀ x ∈ earlier, x.isRollback = false
  /-- A page's file is gone just if a place at or above it was cleared. -/
  gone : ∀ page place, .commitEnded page (.ok (some place)) ∈ m.journal →
    (m.disk.entryAt? place = none ↔ ∃ path top, .cleared path top ∈ m.journal ∧ top <+: place)
  /-- That is so if no link stood below the library root, which is still led to, and the chapter's
  names go down from there. -/
  pages : ∀ page place, .commitEnded page (.ok (some place)) ∈ m.journal →
    ∃ c ∈ m.session.plan.toDownload, page.dir = m.session.naming.contentPath c ∧
      ∀ root, m.session.naming.Descends c → found.Unlinked root →
        m.disk.Reaches m.session.naming.root root → m.disk.entryAt? place = none

/-- An aborted session whose removals succeed or find nothing has rolled back. -/
theorem rollback_complete (hrun : (ofRequest request disk).run? actions = some m)
    (hanswer : .answered call (.ok (some (.aborted reason))) ∈ m.journal)
    (hremoved : ∀ path fault, .removalFailed path fault ∈ m.journal → fault = .notFound) :
    m.RolledBack disk reason := by
  obtain ⟨cause, hreason, peak, removed, began, h⟩ := reverts_of_aborted hrun hanswer
  have written {page : FetchedPage} {place : Place}
      (hpage : .commitEnded page (.ok (some place)) ∈ m.journal) :
      .commitEnded page (.ok (some place)) ∈ peak.happened :=
    (h.mem_peak rfl rfl).mp hpage
  constructor
  · intro path hpath
    refine h.absent (fun p fault hfault => ?_) path ?_ List.not_mem_nil
    · exact hremoved p fault ((h.mem_removed began rfl).mpr hfault)
    · rw [← h.recorded]
      exact hpath
  · obtain ⟨later, earlier, hjournal, hlater, hearlier⟩ := h.journal_eq began
    exact ⟨cause, later, earlier, hreason, hjournal, hlater, hearlier⟩
  · intro page place hpage
    obtain ⟨-, -, bytes, hfile⟩ := began.wrote page place (written hpage)
    have cleared {path : String} {top : Place} :
        .cleared path top ∈ m.journal ↔ .cleared path top ∈ removed :=
      h.mem_removed began rfl
    simp only [cleared]
    exact h.entryAt?_eq_none hfile
  · intro page place hpage
    obtain ⟨hrecorded, -, -⟩ := began.wrote page place (written hpage)
    obtain ⟨-, c, hc, hdir⟩ := began.recorded page.dir hrecorded
    exact ⟨c, hc, hdir, fun root hdescends hunlinked hreaches =>
      h.pages page place c root (written hpage) List.not_mem_nil hdir hdescends hunlinked hreaches⟩

/-- A series whose chapters have these numbers. -/
def seriesOf (numbers : List String) : Request where
  id := "s"
  title := "T"
  catalog := numbers.map fun number => ⟨number, "", number, ""⟩
  config := { download := { downloadDir := "lib" } }

/-- A chapter of one page is downloaded. -/
def chapterOfOnePage : List Action :=
  [.move 0 (.receiveUrls (.ok ["u"])), .move 0 .makeDirectory, .move 0 (.endMetadata (.ok ())),
    .move 0 .takePage, .move 0 (.requestPermit 0), .move 0 (.receivePage 0 (.ok ⟨#[1]⟩)),
    .move 0 (.queuePage 0), .move 0 .endPass, .move 0 .beginCommit,
    .move 0 (.endCommit 0 (.ok .disk)), .pass 1000000000, .move 0 .goOn]

/-- There are no addresses for the next chapter, and one recorded directory after the other is removed. -/
def noAddresses (recorded : Nat) : List Action :=
  [.move 0 (.receiveUrls (.error (.provider "gone"))), .move 0 .finish] ++
    List.replicate (recorded + 1) (.removeNext 0) ++ [.released 0 (.ok ())]

def begun : List Action :=
  [.call (.run 0), .plan 0 fun _ => none]

/-- No removal has failed but for want of something to remove. -/
def removesAll (m : Machine) : Bool :=
  m.journal.all fun x => match x with
    | .removalFailed _ fault => fault == .notFound
    | _ => true

theorem fault_of_removesAll {m : Machine} (h : m.removesAll = true) (path : String) (fault : Fault)
    (hx : .removalFailed path fault ∈ m.journal) : fault = .notFound := by
  simpa using List.all_eq_true.mp h _ hx

theorem rollback_complete_twoChapters :
    ∃ m, (ofRequest (seriesOf ["1", "2"]) {}).run? (begun ++ chapterOfOnePage ++ noAddresses 1) =
        some m ∧ m.RolledBack {} "provider error: gone" := by
  have ends : ((ofRequest (seriesOf ["1", "2"]) {}).run?
      (begun ++ chapterOfOnePage ++ noAddresses 1)).any
        (fun m => m.tells (.aborted "provider error: gone") && m.removesAll) = true := by
    decide +kernel
  obtain ⟨m, hrun, hends⟩ := (Option.any_eq_true ..).mp ends
  obtain ⟨htells, hremoves⟩ := Bool.and_eq_true_iff.mp hends
  obtain ⟨call, hanswer⟩ := exists_answered htells
  exact ⟨m, hrun, rollback_complete hrun hanswer (fault_of_removesAll hremoves)⟩

/-- A directory that was made through another one is not found again once that one is removed: its page
stays, though there is no link and no removal fails otherwise. -/
theorem rollback_leaves_page :
    ∃ m, (ofRequest (seriesOf ["x/../y", "x", "3"]) {}).run?
        (begun ++ chapterOfOnePage ++ chapterOfOnePage ++ noAddresses 2) = some m ∧
      m.tells (.aborted "provider error: gone") = true ∧ m.removesAll = true ∧
      (m.journal.any fun x => x.written? ==
        some (⟨"lib/T/T Ch. x/../y", ⟨1, "u"⟩, ⟨#[1]⟩⟩, ["work", "lib", "T", "y", "page 0001.jpg"])) ∧
      m.disk.entryAt? ["work", "lib", "T", "y", "page 0001.jpg"] = some (.file ⟨#[1]⟩) := by
  have stays : ((ofRequest (seriesOf ["x/../y", "x", "3"]) {}).run?
      (begun ++ chapterOfOnePage ++ chapterOfOnePage ++ noAddresses 2)).any (fun m =>
        m.tells (.aborted "provider error: gone") && (m.removesAll &&
        ((m.journal.any fun x => x.written? ==
          some (⟨"lib/T/T Ch. x/../y", ⟨1, "u"⟩, ⟨#[1]⟩⟩, ["work", "lib", "T", "y", "page 0001.jpg"])) &&
        m.disk.entryAt? ["work", "lib", "T", "y", "page 0001.jpg"] == some (.file ⟨#[1]⟩)))) = true := by
    decide +kernel
  obtain ⟨m, hrun, hstays⟩ := (Option.any_eq_true ..).mp stays
  simp only [Bool.and_eq_true, beq_iff_eq] at hstays
  exact ⟨m, hrun, hstays⟩

/-- A file that stood on the disk before an aborted session, and that no page was written to, is left
as it was unless a place at or above it was cleared, which happens to recorded directories only. So
nothing of a tree is lost if nothing stood before at the places that were cleared. -/
theorem rollback_keeps {place : Place} {bytes : ByteArray}
    (hrun : (ofRequest request disk).run? actions = some m)
    (hanswer : .answered call (.ok (some (.aborted reason))) ∈ m.journal)
    (hfile : disk.entryAt? place = some (.file bytes))
    (hforeign : ∀ page, .commitEnded page (.ok (some place)) ∉ m.journal) :
    (m.disk.entryAt? place = some (.file bytes) ↔
        ∀ path top, .cleared path top ∈ m.journal → ¬ top <+: place) ∧
      (∀ path top, .cleared path top ∈ m.journal → path ∈ m.session.plan.hasDownloaded) ∧
      (disk.Rooted → (∀ path top, .cleared path top ∈ m.journal → disk.entryAt? top = none) →
        m.disk.entryAt? place = some (.file bytes)) := by
  obtain ⟨cause, -, peak, removed, began, h⟩ := reverts_of_aborted hrun hanswer
  have cleared {path : String} {top : Place} :
      .cleared path top ∈ m.journal ↔ .cleared path top ∈ removed :=
    h.mem_removed began rfl
  have peaked : peak.disk.entryAt? place = some (.file bytes) :=
    began.files place bytes hfile fun page hpage => hforeign page ((h.mem_peak rfl rfl).mpr hpage)
  have kept : m.disk.entryAt? place = some (.file bytes) ↔
      ∀ path top, .cleared path top ∈ m.journal → ¬ top <+: place := by
    simp only [cleared]
    exact h.files place bytes peaked
  refine ⟨kept, fun path top hx => ?_, fun hrooted hnew => kept.mpr fun path top hx htop => ?_⟩
  · have hpath := h.cleared path top (cleared.mp hx)
    rw [← h.recorded] at hpath
    exact hpath
  · exact hrooted place top (by simp [hfile]) htop (hnew path top hx)

/-- What is left of a session that was cancelled, and a file that has nothing to do with it. -/
def leftovers : Disk :=
  (({} : Disk).install "lib/T/T Ch. 0001/page 0009.jpg" (.file ⟨#[9]⟩)).install "lib/list.txt"
    (.file ⟨#[7]⟩)

/-- The one page of a chapter cannot be fetched. -/
def unfetchable : List Action :=
  [.move 0 (.receiveUrls (.ok ["u"])), .move 0 .makeDirectory, .move 0 (.endMetadata (.ok ())),
    .move 0 .takePage, .move 0 (.requestPermit 0),
    .move 0 (.receivePage 0 (.error (.transport "down"))), .move 0 .endPass, .move 0 .takePage,
    .move 0 (.requestPermit 0), .move 0 (.receivePage 0 (.error (.transport "down"))),
    .move 0 .endPass, .move 0 .finish, .removeNext 0, .removeNext 0, .released 0 (.ok ())]

def unfetched : Outcome :=
  .aborted "download error: final download failed on url u; transport error: down"

/-- No page was written to the place. -/
def writesElsewhere (m : Machine) (place : Place) : Bool :=
  m.journal.all fun x => x.written?.map Prod.snd != some place

theorem foreign_of_writesElsewhere {m : Machine} {place : Place}
    (h : m.writesElsewhere place = true) (page : FetchedPage) :
    .commitEnded page (.ok (some place)) ∉ m.journal := by
  intro hx
  have := List.all_eq_true.mp h _ hx
  simp [Happening.written?] at this

theorem rollback_keeps_list :
    ∃ m, (ofRequest (seriesOf ["1"]) leftovers).run? (begun ++ unfetchable) = some m ∧
      (m.disk.entryAt? ["work", "lib", "list.txt"] = some (.file ⟨#[7]⟩) ↔
        ∀ path top, .cleared path top ∈ m.journal → ¬ top <+: ["work", "lib", "list.txt"]) := by
  have ends : ((ofRequest (seriesOf ["1"]) leftovers).run? (begun ++ unfetchable)).any (fun m =>
      m.tells unfetched && m.writesElsewhere ["work", "lib", "list.txt"]) = true := by
    decide +kernel
  obtain ⟨m, hrun, hends⟩ := (Option.any_eq_true ..).mp ends
  obtain ⟨htells, helsewhere⟩ := Bool.and_eq_true_iff.mp hends
  obtain ⟨call, hanswer⟩ := exists_answered htells
  have found : leftovers.entryAt? ["work", "lib", "list.txt"] = some (.file ⟨#[7]⟩) := by
    decide +kernel
  exact ⟨m, hrun, (rollback_keeps hrun hanswer found (foreign_of_writesElsewhere helsewhere)).1⟩

/-- A page that an earlier session left in the directory of a chapter is lost. -/
theorem rollback_loses_page :
    leftovers.entryAt? ["work", "lib", "T", "T Ch. 0001", "page 0009.jpg"] = some (.file ⟨#[9]⟩) ∧
      ∃ m, (ofRequest (seriesOf ["1"]) leftovers).run? (begun ++ unfetchable) = some m ∧
        m.tells unfetched = true ∧
        m.writesElsewhere ["work", "lib", "T", "T Ch. 0001", "page 0009.jpg"] = true ∧
        m.disk.entryAt? ["work", "lib", "T", "T Ch. 0001", "page 0009.jpg"] = none := by
  have lost : ((ofRequest (seriesOf ["1"]) leftovers).run? (begun ++ unfetchable)).any (fun m =>
      m.tells unfetched &&
        (m.writesElsewhere ["work", "lib", "T", "T Ch. 0001", "page 0009.jpg"] &&
        m.disk.entryAt? ["work", "lib", "T", "T Ch. 0001", "page 0009.jpg"] == none)) = true := by
    decide +kernel
  refine ⟨by decide +kernel, ?_⟩
  obtain ⟨m, hrun, hlost⟩ := (Option.any_eq_true ..).mp lost
  simp only [Bool.and_eq_true, beq_iff_eq] at hlost
  exact ⟨m, hrun, hlost⟩

end Machine
end Longbox
