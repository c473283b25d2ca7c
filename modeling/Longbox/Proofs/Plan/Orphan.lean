import Longbox.Plan.Planner
import Longbox.Proofs.Name.Marker

/-! Which archives a plan removes.

A plan decides about each chapter by itself and goes through the catalog once, so its chapters and
removals are those of the decisions (`toDownload_plan`, `toRemove_plan`). Two chapters may be matched
with one archive: `orphans_iff` says when the archive that one of them is left out for is removed on
behalf of the other. -/
namespace Longbox

/-- The archive that a decision is to replace. -/
def Decision.path? : Decision → Option String
  | .replace path => some path
  | _ => none

namespace Planner
variable {p : Planner} {catalog : List Chapter} {c : Chapter} {a : Archive} {path : String}

/-! ### Decisions make up a plan -/

theorem toDownload_foldl (p : Planner) (catalog : List Chapter) (plan : Plan) :
    (catalog.foldl p.extend plan).toDownload =
      plan.toDownload ++ catalog.filter fun c => p.decide c != .skip := by
  induction catalog generalizing plan with
  | nil => simp
  | cons c rest ih =>
    rw [List.foldl_cons, ih]
    unfold extend
    cases hd : p.decide c <;> simp [hd]

theorem toDownload_plan (p : Planner) (catalog : List Chapter) :
    (p.plan catalog).toDownload = catalog.filter fun c => p.decide c != .skip :=
  toDownload_foldl p catalog _

theorem toRemove_foldl (p : Planner) (catalog : List Chapter) (plan : Plan) :
    (catalog.foldl p.extend plan).toRemove =
      plan.toRemove ++ catalog.filterMap fun c => (p.decide c).path? := by
  induction catalog generalizing plan with
  | nil => simp
  | cons c rest ih =>
    rw [List.foldl_cons, ih]
    unfold extend
    cases hd : p.decide c <;> simp [hd, Decision.path?]

theorem toRemove_plan (p : Planner) (catalog : List Chapter) :
    (p.plan catalog).toRemove = catalog.filterMap fun c => (p.decide c).path? :=
  toRemove_foldl p catalog _

/-- A chapter that is left out of the plan is one that is skipped. -/
theorem decide_eq_skip (hc : c ∈ catalog) (hplan : c ∉ (p.plan catalog).toDownload) :
    p.decide c = .skip := by
  rw [toDownload_plan, List.mem_filter, not_and] at hplan
  simpa using hplan hc

theorem mem_toRemove :
    path ∈ (p.plan catalog).toRemove ↔ ∃ c ∈ catalog, p.decide c = .replace path := by
  rw [toRemove_plan, List.mem_filterMap]
  refine exists_congr fun c => and_congr_right fun _ => ?_
  cases p.decide c <;> simp [Decision.path?]

/-! ### Archives that chapters are matched with -/

/-- The archive that a chapter is matched with: that of its whole volume, or the one that holds it. -/
def match? (p : Planner) (c : Chapter) : Option Archive :=
  if p.hasVolumeArchive c then p.byName? (Archive.Name.ofStem (p.naming.volumeDir c.volume))
  else p.archiveOf? c

/-- A chapter with a volume is held by an archive in which another volume is recorded. -/
structure Supersedes (p : Planner) (c : Chapter) (a : Archive) (recorded : String) : Prop where
  volume : c.volume ≠ ""
  alone : p.hasVolumeArchive c = false
  archive : p.archiveOf? c = some a
  embedded : p.embeddedVolume a = some recorded
  moved : Marker.trim recorded ≠ Marker.trim c.volume

theorem decide_eq_replace :
    p.decide c = .replace path ↔ ∃ a recorded, p.Supersedes c a recorded ∧ a.path = path := by
  constructor
  · intro h
    unfold decide at h
    split at h
    · cases h
    · rename_i halone
      split at h
      · split at h <;> cases h
      · rename_i a ha
        split at h
        · cases h
        · rename_i hvolume
          split at h
          · cases h
          · rename_i recorded hrecorded
            split at h
            · cases h
            · rename_i hmoved
              cases h
              exact ⟨a, recorded, ⟨by simpa using hvolume, by simpa using halone, ha, hrecorded,
                by simpa using hmoved⟩, rfl⟩
  · rintro ⟨a, recorded, ⟨hvolume, halone, ha, hrecorded, hmoved⟩, rfl⟩
    have hvolume : c.volume.isEmpty = false := by simpa using hvolume
    have hmoved : (Marker.trim recorded == Marker.trim c.volume) = false := by simpa using hmoved
    simp [decide, halone, ha, hvolume, hrecorded, hmoved]

/-- A chapter that is skipped for an archive that is not of its whole volume has no volume, or the one
that is recorded. -/
theorem volume_of_skip (h : p.decide c = .skip) (ha : p.match? c = some a)
    (halone : p.hasVolumeArchive c = false) {recorded : String}
    (hrecorded : p.embeddedVolume a = some recorded) :
    c.volume = "" ∨ Marker.trim recorded = Marker.trim c.volume := by
  rw [match?, if_neg (by simp [halone])] at ha
  unfold decide at h
  rw [if_neg (by simp [halone]), ha] at h
  dsimp only at h
  split at h
  · rename_i hvolume
    exact .inl (by simpa using hvolume)
  · rw [hrecorded] at h
    dsimp only at h
    split at h
    · rename_i hsame
      exact .inr (by simpa using hsame)
    · cases h

/-- The archive that a chapter is left out of the plan for is removed just if another chapter is held by
an archive at its path that records another volume than that chapter's. The two chapters then are of
different volumes, unless the first is left out with its whole volume, or two archives are at one path
and are not read alike. -/
theorem orphans_iff (hc : c ∈ catalog) (hplan : c ∉ (p.plan catalog).toDownload)
    (ha : p.match? c = some a) :
    a.path ∈ (p.plan catalog).toRemove ↔
      ∃ c' ∈ catalog, ∃ a' recorded, p.Supersedes c' a' recorded ∧ a'.path = a.path ∧
        (p.hasVolumeArchive c = true ∨ Marker.trim c.volume ≠ Marker.trim c'.volume ∨
          p.embeddedVolume a' ≠ p.embeddedVolume a) := by
  have hskip := decide_eq_skip hc hplan
  rw [mem_toRemove]
  refine exists_congr fun c' => and_congr_right fun _ => ?_
  rw [decide_eq_replace]
  refine exists_congr fun a' => exists_congr fun recorded =>
    and_congr_right fun hs => ⟨fun hpath => ⟨hpath, ?_⟩, fun h => h.1⟩
  cases halone : p.hasVolumeArchive c with
  | true => exact .inl rfl
  | false =>
    refine .inr (Decidable.or_iff_not_imp_right.mpr fun hread hsame => ?_)
    have embedded : p.embeddedVolume a = some recorded :=
      (Decidable.not_not.mp hread).symm.trans hs.embedded
    rcases volume_of_skip hskip ha halone embedded with hvolume | hrecorded
    · rw [hvolume, show Marker.trim "" = "" from Marker.trim_eq_empty.mpr rfl] at hsame
      exact hs.volume (Marker.trim_eq_empty.mp hsame.symm)
    · exact hs.moved (hrecorded.trans hsame)

/-- A chapter without a volume and one of the same number that has come into a volume. -/
def sharedNumber : List Chapter :=
  [⟨"a", "1", "4", ""⟩, ⟨"b", "", "4", ""⟩]

/-- One archive without a volume exists. -/
def looseArchive : Planner where
  naming := (Naming.ofConfig { downloadDir := "lib" } "T").withCatalog sharedNumber
  existing := [⟨"T Ch. 0004.cbz", "lib/T/T Ch. 0004.cbz", "", "4"⟩]
  embeddedVolume := fun _ => some ""

theorem orphans_iff_sharedNumber :
    "lib/T/T Ch. 0004.cbz" ∈ (looseArchive.plan sharedNumber).toRemove ↔
      ∃ c' ∈ sharedNumber, ∃ a recorded,
        looseArchive.Supersedes c' a recorded ∧ a.path = "lib/T/T Ch. 0004.cbz" ∧
        (looseArchive.hasVolumeArchive ⟨"b", "", "4", ""⟩ = true ∨
          Marker.trim "" ≠ Marker.trim c'.volume ∨ some "" ≠ some "") := by
  have matched : looseArchive.match? ⟨"b", "", "4", ""⟩ =
      some ⟨"T Ch. 0004.cbz", "lib/T/T Ch. 0004.cbz", "", "4"⟩ := by
    decide +kernel
  exact orphans_iff (by decide +kernel) (by decide +kernel) matched

/-- The archive that the chapter without a volume is left out for is removed for the one that has a
volume. -/
theorem sharedNumber_orphaned :
    ⟨"b", "", "4", ""⟩ ∈ sharedNumber ∧
      ⟨"b", "", "4", ""⟩ ∉ (looseArchive.plan sharedNumber).toDownload ∧
      (looseArchive.match? ⟨"b", "", "4", ""⟩).map Archive.path = some "lib/T/T Ch. 0004.cbz" ∧
      "lib/T/T Ch. 0004.cbz" ∈ (looseArchive.plan sharedNumber).toRemove := by
  decide +kernel

end Planner
end Longbox
