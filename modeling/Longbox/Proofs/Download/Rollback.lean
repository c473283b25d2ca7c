import Longbox.Proofs.Download.Footprint
import Longbox.Proofs.Path.Placement

/-! Rolling a download back.

A rollback removes the directories that the download has recorded, the last one first. `RollsBack`
says how far it is: what has been removed, and what has become of files. Removing the next directory
keeps it (`RollsBack.remove`). -/
namespace Longbox

namespace Ledger

variable {found : Disk} {t : Terms} {peak l : Ledger} {cause : Error} {removed : List Happening}
  {path : String} {left : List String}

theorem noteAll_removals (l : Ledger) {hs : List Happening} (h : ∀ x ∈ hs, x.isRemoval = true) :
    l.noteAll hs = { l with happened := hs.reverse ++ l.happened } := by
  induction hs generalizing l with
  | nil => rfl
  | cons x rest ih =>
    obtain ⟨hx, hrest⟩ := List.forall_mem_cons.mp h
    have noted : l.note x = { l with happened := x :: l.happened } := by
      cases x <;> first | rfl | cases hx
    rw [show l.noteAll (x :: rest) = (l.note x).noteAll rest from rfl, ih _ hrest, noted]
    simp

theorem remove_eq (l : Ledger) (path : String) : l.remove path =
    { l with
      disk := (l.disk.removeAll path).disk
      happened := ((l.disk.removeAll path).happenings path).reverse ++ l.happened } := by
  refine noteAll_removals _ fun x hx => ?_
  rcases Disk.Removal.mem_happenings.mp hx with ⟨_, -, rfl⟩ | ⟨_, -, rfl⟩ <;> rfl

/-- How far the rollback of a download is that left the ledger `peak`. The happenings `removed` have come
since, and the directories `left` are still to be removed. -/
structure RollsBack (found : Disk) (t : Terms) (cause : Error) (peak : Ledger)
    (removed : List Happening) (l : Ledger) (left : List String) : Prop where
  recorded : l.recorded = peak.recorded
  happened : l.happened = removed ++ .rollbackBegun cause :: peak.happened
  removals : ∀ x ∈ removed, x.isRemoval = true
  cleared : ∀ path top, .cleared path top ∈ removed → path ∈ peak.recorded
  due : ∀ path ∈ left, path ∈ peak.recorded
  eroded : peak.disk.Erodes l.disk
  /-- A file is lost just if what stood at or above it was removed. -/
  files : ∀ place bytes, peak.disk.entryAt? place = some (.file bytes) →
    (l.disk.entryAt? place = some (.file bytes) ↔
      ∀ path top, .cleared path top ∈ removed → ¬ top <+: place)
  absent : (∀ path fault, .removalFailed path fault ∈ removed → fault = .notFound) →
    ∀ path ∈ peak.recorded, path ∉ left → l.disk.Absent path
  /-- Pages that stand where their directory's names say are gone with it. -/
  pages : ∀ page place c root, .commitEnded page (.ok (some place)) ∈ peak.happened →
    page.dir ∉ left → page.dir = t.naming.contentPath c → t.naming.Descends c →
    found.Unlinked root → l.disk.Reaches t.naming.root root → l.disk.entryAt? place = none

theorem Footprint.rollsBack (h : Footprint found t peak) (cause : Error) :
    RollsBack found t cause peak [] (peak.note (.rollbackBegun cause)) peak.recorded.reverse where
  recorded := rfl
  happened := rfl
  removals := nofun
  cleared := nofun
  due := fun _ hpath => List.mem_reverse.mp hpath
  eroded := .refl peak.disk
  files := fun _ _ he => ⟨fun _ => nofun, fun _ => he⟩
  absent := fun _ _ hpath hleft => absurd (List.mem_reverse.mpr hpath) hleft
  pages := fun page place _ _ hpage hleft =>
    absurd (List.mem_reverse.mpr (h.wrote page place hpage).recorded) hleft

/-- The happenings `removed` and those of one more removal. -/
theorem mem_removed_append {r : Disk.Removal} {x : Happening} :
    x ∈ (r.happenings path).reverse ++ removed ↔
      ((∃ top, r.cleared = some top ∧ .cleared path top = x) ∨
        ∃ fault, r.fault = some fault ∧ .removalFailed path fault = x) ∨ x ∈ removed := by
  rw [List.mem_append, List.mem_reverse, Disk.Removal.mem_happenings]

theorem RollsBack.files_remove {place : Place} {bytes : ByteArray}
    (h : RollsBack found t cause peak removed l left)
    (he : peak.disk.entryAt? place = some (.file bytes)) :
    (l.disk.removeAll path).disk.entryAt? place = some (.file bytes) ↔
      ∀ path' top,
        .cleared path' top ∈ ((l.disk.removeAll path).happenings path).reverse ++ removed →
          ¬ top <+: place := by
  constructor
  · intro hkept path' top hx
    have before := (Disk.removeAll_erodes l.disk path).kept _ _ hkept
    rcases mem_removed_append.mp hx with (⟨top', htop, heq⟩ | ⟨_, -, heq⟩) | hx
    · cases heq
      exact (Disk.entryAt?_removeAll_file before).mp hkept top htop
    · cases heq
    · exact (h.files place bytes he).mp before path' top hx
  · intro hcleared
    have before := (h.files place bytes he).mpr fun path' top hx =>
      hcleared path' top (mem_removed_append.mpr (.inr hx))
    exact (Disk.entryAt?_removeAll_file before).mpr fun top htop =>
      hcleared path top (mem_removed_append.mpr (.inl (.inl ⟨top, htop, rfl⟩)))

theorem RollsBack.absent_remove (h : RollsBack found t cause peak removed l (path :: left))
    (hfaults : ∀ path' fault,
      .removalFailed path' fault ∈ ((l.disk.removeAll path).happenings path).reverse ++ removed →
        fault = .notFound)
    {path' : String} (hrecorded : path' ∈ peak.recorded) (hleft : path' ∉ left) :
    (l.disk.removeAll path).disk.Absent path' := by
  by_cases heq : path' = path
  · rw [heq]
    exact Disk.absent_removeAll fun fault hfault =>
      hfaults path fault (mem_removed_append.mpr (.inl (.inr ⟨fault, hfault, rfl⟩)))
  · refine Disk.Absent.within ?_ (Disk.removeAll_erodes l.disk path).within
    refine h.absent (fun p fault hx => ?_) path' hrecorded ?_
    · exact hfaults p fault (mem_removed_append.mpr (.inr hx))
    · exact fun hmem => (List.mem_cons.mp hmem).elim heq hleft

theorem RollsBack.pages_remove (began : Footprint found t peak)
    (h : RollsBack found t cause peak removed l (path :: left)) {page : FetchedPage}
    {place root : Place} {c : Chapter}
    (hpage : .commitEnded page (.ok (some place)) ∈ peak.happened) (hleft : page.dir ∉ left)
    (hdir : page.dir = t.naming.contentPath c) (hdescends : t.naming.Descends c)
    (hunlinked : found.Unlinked root)
    (hreaches : (l.disk.removeAll path).disk.Reaches t.naming.root root) :
    (l.disk.removeAll path).disk.entryAt? place = none := by
  have erodes := Disk.removeAll_erodes l.disk path
  have reached := hreaches.within erodes.within
  obtain ⟨-, ⟨tree, hgrown, hwithin, hwritable⟩, -⟩ := began.wrote page place hpage
  by_cases heq : page.dir = path
  · obtain ⟨front, more, hbelow, hmore⟩ := t.naming.below_contentPath hdescends
    obtain ⟨_, hlocate⟩ :=
      Disk.isDirectory_iff.mp (began.recorded path (h.due path (List.mem_cons_self ..))).1
    rw [← hdir, heq] at hbelow
    rw [heq] at hwritable
    -- Links that stood below the root when the page was written are those that were found there.
    have unlinked : tree.Unlinked root := fun p target hp he =>
      hunlinked p target hp (hgrown.links p target he)
    exact Disk.entryAt?_removeAll_page hbelow hmore hwritable hwithin h.eroded unlinked reached
      (Disk.locate_eq_ok.mp hlocate).1
  · refine erodes.gone (h.pages page place c root hpage ?_ hdir hdescends hunlinked reached)
    exact fun hmem => (List.mem_cons.mp hmem).elim heq hleft

/-- The next directory is removed. -/
theorem RollsBack.remove (began : Footprint found t peak)
    (h : RollsBack found t cause peak removed l (path :: left)) :
    RollsBack found t cause peak (((l.disk.removeAll path).happenings path).reverse ++ removed)
      (l.remove path) left := by
  rw [remove_eq]
  constructor
  · exact h.recorded
  · rw [h.happened, List.append_assoc]
  · intro x hx
    rcases mem_removed_append.mp hx with (⟨_, -, rfl⟩ | ⟨_, -, rfl⟩) | hx
    · rfl
    · rfl
    · exact h.removals x hx
  · intro path' top hx
    rcases mem_removed_append.mp hx with (⟨_, -, heq⟩ | ⟨_, -, heq⟩) | hx
    · cases heq
      exact h.due path (List.mem_cons_self ..)
    · cases heq
    · exact h.cleared path' top hx
  · exact fun path' hleft => h.due path' (List.mem_cons_of_mem _ hleft)
  · exact h.eroded.trans (Disk.removeAll_erodes l.disk path)
  · exact fun place bytes he => h.files_remove he
  · exact fun hfaults path' hrecorded hleft => h.absent_remove hfaults hrecorded hleft
  · exact fun page place c root hpage hleft hdir hdescends hunlinked hreaches =>
      h.pages_remove began hpage hleft hdir hdescends hunlinked hreaches

/-- A file is gone just if a place at or above it was cleared. -/
theorem RollsBack.entryAt?_eq_none {place : Place} {bytes : ByteArray}
    (h : RollsBack found t cause peak removed l left)
    (he : peak.disk.entryAt? place = some (.file bytes)) :
    l.disk.entryAt? place = none ↔ ∃ path top, .cleared path top ∈ removed ∧ top <+: place := by
  have kept := h.files place bytes he
  constructor
  · intro hgone
    refine Classical.byContradiction fun hnone => ?_
    have hstays := kept.mpr fun path top hx htop => hnone ⟨path, top, hx, htop⟩
    rw [hgone] at hstays
    cases hstays
  · rintro ⟨path, top, hx, htop⟩
    cases hstays : l.disk.entryAt? place with
    | none => rfl
    | some entry =>
      have hentry := h.eroded.kept place entry hstays
      rw [he] at hentry
      obtain rfl := Option.some.inj hentry
      exact absurd htop (kept.mp hstays path top hx)

end Ledger
end Longbox
