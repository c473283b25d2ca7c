import Longbox.Proofs.Plan.Orphan
import Mathlib.Data.List.Basic

/-! Leaving out the chapters of a volume that have no number.

A planner can be told to, but looks at that only where no archive has the chapter's name. If one has,
the volume recorded in it decides as for any other chapter (`decide_volumeOnly`), and names of chapters
without a number do not tell volumes apart. `plan_volumeOnly_iff` says which of these chapters get into
a plan all the same. -/
namespace Longbox

/-- A chapter of a volume that has no number. -/
def Chapter.isVolumeOnly (c : Chapter) : Bool :=
  !c.volume.isEmpty && c.isOneShot

namespace Planner
variable {p : Planner} {catalog : List Chapter} {c : Chapter}

/-- The archive with the chapter's name, if another volume is recorded in it and no archive holds the
chapter's whole volume. -/
def outdated? (p : Planner) (c : Chapter) : Option String :=
  if p.hasVolumeArchive c then none
  else
    ((p.byName? (Archive.Name.ofStem (p.naming.contentName c))).filter fun a =>
      (p.embeddedVolume a).any fun recorded => Marker.trim recorded != Marker.trim c.volume).map
        Archive.path

/-- Chapters without a number are looked up by their names only. -/
theorem archiveOf?_of_oneShot (p : Planner) (hone : c.isOneShot = true) :
    p.archiveOf? c = p.byName? (Archive.Name.ofStem (p.naming.contentName c)) := by
  unfold archiveOf?
  rw [hone]
  cases p.byName? (Archive.Name.ofStem (p.naming.contentName c)) <;> rfl

theorem decide_volumeOnly (hskip : p.skipVolumeWithoutChapter = true) (hc : c.isVolumeOnly = true) :
    p.decide c = (p.outdated? c).elim .skip .replace := by
  simp only [Chapter.isVolumeOnly, Bool.and_eq_true, Bool.not_eq_true'] at hc
  obtain ⟨hvolume, hone⟩ := hc
  unfold decide outdated?
  rw [p.archiveOf?_of_oneShot hone]
  cases p.hasVolumeArchive c with
  | true => rfl
  | false =>
    cases p.byName? (Archive.Name.ofStem (p.naming.contentName c)) with
    | none => simp [hskip, hvolume, hone]
    | some a =>
      cases hrecorded : p.embeddedVolume a with
      | none => simp [hvolume, hrecorded, Option.filter]
      | some recorded =>
        cases hsame : Marker.trim recorded == Marker.trim c.volume <;>
          simp [hvolume, hrecorded, hsame, Option.filter, bne]

theorem decide_volumeOnly_eq_replace (hskip : p.skipVolumeWithoutChapter = true)
    (hc : c.isVolumeOnly = true) {path : String} :
    p.decide c = .replace path ↔ p.outdated? c = some path := by
  rw [decide_volumeOnly hskip hc]
  cases p.outdated? c <;> simp

theorem decide_volumeOnly_eq_skip (hskip : p.skipVolumeWithoutChapter = true)
    (hc : c.isVolumeOnly = true) : p.decide c = .skip ↔ p.outdated? c = none := by
  rw [decide_volumeOnly hskip hc]
  cases p.outdated? c <;> simp

/-- What is skipped need not be in the catalog. -/
theorem plan_filter {keeps : Chapter → Bool}
    (h : ∀ c ∈ catalog, keeps c = false → p.decide c = .skip) :
    p.plan (catalog.filter keeps) = p.plan catalog := by
  unfold plan
  rw [List.foldl_filter]
  refine List.foldl_ext _ _ _ fun plan c hc => ?_
  split
  · rfl
  · rename_i hkeeps
    rw [extend, h c hc (by simpa using hkeeps)]

/-- Told to leave out the chapters of a volume that have no number, a planner makes the plan for the
catalog without them, those apart whose name is that of an archive of another volume: they are
downloaded, and the archive is removed. So the plan has none of them just if the catalog has none with
such a name. -/
theorem plan_volumeOnly_iff (hskip : p.skipVolumeWithoutChapter = true) (catalog : List Chapter) :
    ((∀ c ∈ (p.plan catalog).toDownload, c.isVolumeOnly = false) ↔
        ∀ c ∈ catalog, c.isVolumeOnly = true → p.outdated? c = none) ∧
      (∀ c ∈ catalog, c.isVolumeOnly = true →
        ∀ path, p.decide c = .replace path ↔ p.outdated? c = some path) ∧
      p.plan catalog =
        p.plan (catalog.filter fun c => !c.isVolumeOnly || (p.outdated? c).isSome) := by
  refine ⟨?_, fun c _ honly path => decide_volumeOnly_eq_replace hskip honly,
    (plan_filter fun c _ hkeeps => ?_).symm⟩
  · rw [toDownload_plan]
    constructor
    · intro hnone c hc honly
      rw [← decide_volumeOnly_eq_skip hskip honly]
      refine Decidable.byContradiction fun htaken => ?_
      rw [hnone c (List.mem_filter.mpr ⟨hc, by simpa using htaken⟩)] at honly
      cases honly
    · intro hnone c hc
      obtain ⟨hmem, htaken⟩ := List.mem_filter.mp hc
      refine Bool.eq_false_iff.mpr fun honly => ?_
      rw [(decide_volumeOnly_eq_skip hskip honly).mpr (hnone c hmem honly)] at htaken
      simp at htaken
  · simp only [Bool.or_eq_false_iff, Bool.not_eq_false', Option.isSome_eq_false_iff,
      Option.isNone_iff_eq_none] at hkeeps
    exact (decide_volumeOnly_eq_skip hskip hkeeps.1).mpr hkeeps.2

/-- An extra of the first volume, and a chapter. -/
def withExtra : List Chapter :=
  [⟨"a", "1", "", "Extra"⟩, ⟨"b", "1", "1", ""⟩]

/-- An archive has the name of the extra, and the volume is recorded in it. -/
def extraArchive (volume : String) : Planner where
  naming := (Naming.ofConfig { downloadDir := "lib" } "T").withCatalog withExtra
  existing := [⟨"T Extra (One Shot).cbz", "lib/T/T Extra (One Shot).cbz", "", ""⟩]
  embeddedVolume := fun _ => some volume
  skipVolumeWithoutChapter := true

/-- The extra of the same volume is left out. -/
theorem plan_volumeOnly_iff_sameVolume :
    (extraArchive "01").skipVolumeWithoutChapter = true ∧
      ∀ c ∈ ((extraArchive "01").plan withExtra).toDownload, c.isVolumeOnly = false := by
  have told : (extraArchive "01").skipVolumeWithoutChapter = true := rfl
  exact ⟨told, (plan_volumeOnly_iff told withExtra).1.mpr (by decide +kernel)⟩

/-- With another volume recorded, the extra is downloaded in place of the archive. -/
theorem namesake_of_extra_replaced :
    (extraArchive "2").skipVolumeWithoutChapter = true ∧
      ⟨"a", "1", "", "Extra"⟩ ∈ ((extraArchive "2").plan withExtra).toDownload ∧
      ((extraArchive "2").plan withExtra).toRemove = ["lib/T/T Extra (One Shot).cbz"] ∧
      (extraArchive "2").decide ⟨"a", "1", "", "Extra"⟩ = .replace "lib/T/T Extra (One Shot).cbz" := by
  decide +kernel

end Planner
end Longbox
