import Longbox.Proofs.Name.Chapter
import Longbox.Proofs.Plan.Order

/-! Planning when the whole catalog is on the shelf.

With one archive for each chapter, under the chapter's name and with its volume recorded, every chapter
is looked up by its name. `complete_plan_iff` says when nothing is then left to do, in whatever order
the archives come: just if chapters of different volumes do not share a name, and for chapters with
numbers, what that says of the numbers. -/
namespace Longbox

namespace Naming

/-- The archive that a chapter is packed into. -/
def archive (n : Naming) (c : Chapter) : Archive :=
  let name := Archive.Name.ofStem (n.contentName c)
  let markers := (Archive.Name.markers? name).getD ⟨"", ""⟩
  ⟨name, Archive.Name.ofStem (n.contentPath c), markers.volume, markers.chapter⟩

end Naming

theorem Archive.Name.ofStem_inj {stem stem' : String} : ofStem stem = ofStem stem' ↔ stem = stem' := by
  refine ⟨fun h => ?_, congrArg ofStem⟩
  have h := congrArg String.toList h
  rw [ofStem, ofStem, String.toList_append, String.toList_append] at h
  exact String.ext (List.append_cancel_right h)

/-! ### One archive for each chapter -/

namespace Planner
variable {p : Planner} {catalog : List Chapter} {c c' : Chapter} {a : Archive}

/-- There is one archive for each chapter, and it records the chapter's volume. -/
structure Complete (p : Planner) (catalog : List Chapter) : Prop where
  archives : p.existing.Perm (catalog.map p.naming.archive)
  volumes : ∀ c ∈ catalog, p.embeddedVolume (p.naming.archive c) = some c.volume

/-- There is nothing to do for the catalog, in whatever order the archives come. -/
def Settles (p : Planner) (catalog : List Chapter) : Prop :=
  ∀ archives : List Archive, archives.Perm p.existing →
    ((p.reordered archives).plan catalog).toDownload = [] ∧
      ((p.reordered archives).plan catalog).toRemove = []

theorem plan_eq_nothing_iff (p : Planner) (catalog : List Chapter) :
    (p.plan catalog).toDownload = [] ∧ (p.plan catalog).toRemove = [] ↔
      ∀ c ∈ catalog, p.decide c = .skip := by
  rw [toDownload_plan, toRemove_plan]
  constructor
  · rintro ⟨h, -⟩ c hc
    simpa using List.filter_eq_nil_iff.mp h c hc
  · intro h
    refine ⟨List.filter_eq_nil_iff.mpr fun c hc => by simp [h c hc],
      List.filterMap_eq_nil_iff.mpr fun c hc => by rw [h c hc]; rfl⟩

theorem mem_existing (h : p.Complete catalog) :
    a ∈ p.existing ↔ ∃ c ∈ catalog, p.naming.archive c = a := by
  rw [h.archives.mem_iff, List.mem_map]

/-- Chapters are looked up by their names, as each name is there. -/
theorem mem_holders_complete (h : p.Complete catalog) (hc : c ∈ catalog)
    (halone : p.hasVolumeArchive c = false) :
    a ∈ p.holders c ↔
      ∃ c' ∈ catalog, p.naming.contentName c' = p.naming.contentName c ∧ p.naming.archive c' = a := by
  have named : (p.byName? (Archive.Name.ofStem (p.naming.contentName c))).isSome = true := by
    rw [byName?, List.find?_isSome]
    exact ⟨p.naming.archive c, (mem_existing h).mpr ⟨c, hc, rfl⟩, beq_self_eq_true _⟩
  rw [mem_holders, mem_existing h]
  simp only [isHolder, halone, named, Bool.not_false, Bool.true_and, if_true, beq_iff_eq]
  constructor
  · rintro ⟨⟨c', hc', rfl⟩, hname⟩
    exact ⟨c', hc', Archive.Name.ofStem_inj.mp hname, rfl⟩
  · rintro ⟨c', hc', hname, rfl⟩
    exact ⟨⟨c', hc', rfl⟩, Archive.Name.ofStem_inj.mpr hname⟩

theorem verdict_archive (h : p.Complete catalog) (hc' : c' ∈ catalog) :
    p.verdict c (p.naming.archive c') = .skip ↔
      c.volume = "" ∨ Marker.trim c'.volume = Marker.trim c.volume := by
  unfold verdict
  rw [h.volumes c' hc']
  by_cases hv : c.volume = ""
  · simp [hv]
  · by_cases hsame : Marker.trim c'.volume = Marker.trim c.volume <;> simp [hv, hsame]

/-- Two chapters share a name only if their volumes are the same number. Chapters without a volume and
those of a volume with an archive of its own do not matter. -/
def TellsVolumes (p : Planner) (catalog : List Chapter) : Prop :=
  ∀ c ∈ catalog, ∀ c' ∈ catalog, p.naming.contentName c' = p.naming.contentName c →
    c.volume ≠ "" → p.hasVolumeArchive c = false → Marker.trim c'.volume = Marker.trim c.volume

theorem settles_iff_tellsVolumes (h : p.Complete catalog) :
    p.Settles catalog ↔ p.TellsVolumes catalog := by
  constructor
  · intro hall c hc c' hc' hname hvolume halone
    obtain ⟨archives, hperm, hfirst⟩ :=
      exists_order_first ((mem_holders_complete h hc halone).mpr ⟨c', hc', hname, rfl⟩)
    have hskip := (plan_eq_nothing_iff _ catalog).mp (hall archives hperm) c hc
    rw [hfirst, verdict_archive h hc'] at hskip
    exact hskip.resolve_left hvolume
  · intro hnames archives hperm
    rw [plan_eq_nothing_iff]
    intro c hc
    rcases (p.reordered archives).decide_cases c with ⟨a, ha, hd⟩ | ⟨hnone, hd⟩
    · rw [mem_holders_reordered hperm] at ha
      have halone : p.hasVolumeArchive c = false := by
        have := (mem_holders.mp ha).2
        simp only [isHolder, Bool.and_eq_true, Bool.not_eq_true'] at this
        exact this.1
      obtain ⟨c', hc', hname, rfl⟩ := (mem_holders_complete h hc halone).mp ha
      rw [hd]
      refine (verdict_archive h hc').mpr ?_
      by_cases hvolume : c.volume = ""
      · exact .inl hvolume
      · exact .inr (hnames c hc c' hc' hname hvolume halone)
    · cases halone : p.hasVolumeArchive c with
      | true =>
        rw [hd, unheld_reordered hperm, unheld, halone]
        rfl
      | false =>
        have own : p.naming.archive c ∈ (p.reordered archives).holders c :=
          (mem_holders_reordered hperm).mpr
            ((mem_holders_complete h hc halone).mpr ⟨c, hc, rfl, rfl⟩)
        rw [hnone] at own
        cases own

theorem hasVolumeArchive_of_numbered (h : p.Complete catalog) (hall : ∀ c ∈ catalog, c.Numbered)
    (hc : c ∈ catalog) : p.hasVolumeArchive c = false := by
  rw [hasVolumeArchive, Bool.and_eq_false_iff]
  refine .inr ?_
  rw [byName?, Option.isSome_eq_false_iff, Option.isNone_iff_eq_none, List.find?_eq_none]
  intro a ha
  obtain ⟨c', hc', rfl⟩ := (mem_existing h).mp ha
  rw [beq_iff_eq]
  exact fun hname => Naming.contentName_ne_volumeDir (hall c' hc') (hall c hc).wholeVolume
    (Archive.Name.ofStem_inj.mp hname)

/-- Each number, as names write it, comes in one volume. -/
def OneVolumeEach (catalog : List Chapter) : Prop :=
  ∀ c ∈ catalog, ∀ c' ∈ catalog,
    Naming.paddedNumber c'.number = Naming.paddedNumber c.number → c.volume ≠ "" →
      Marker.trim c'.volume = Marker.trim c.volume

theorem tellsVolumes_iff_of_numbered (h : p.Complete catalog) (hall : ∀ c ∈ catalog, c.Numbered) :
    p.TellsVolumes catalog ↔ p.naming.includesVolume = true ∨ OneVolumeEach catalog := by
  unfold TellsVolumes OneVolumeEach
  cases hshown : p.naming.includesVolume with
  | true =>
    refine iff_of_true (fun c hc c' hc' hname _ _ => ?_) (.inl rfl)
    rw [((Naming.contentName_eq_iff (hall c hc) (hall c' hc')).mp hname).2 hshown]
  | false =>
    rw [or_iff_right (by simp)]
    refine forall₂_congr fun c hc => forall₂_congr fun c' hc' => ?_
    rw [Naming.contentName_eq_iff (hall c hc) (hall c' hc'), hshown]
    simp [hasVolumeArchive_of_numbered h hall hc]

/-- With the whole catalog on the shelf there is nothing to do, whatever the order of the archives, just
if names tell the volumes apart. Chapters with numbers are told apart just if their names show the
volumes or no number comes again in another volume, as it is written in names. -/
theorem complete_plan_iff (h : p.Complete catalog) :
    (p.Settles catalog ↔ p.TellsVolumes catalog) ∧
      ((∀ c ∈ catalog, c.Numbered) →
        (p.Settles catalog ↔ p.naming.includesVolume = true ∨ OneVolumeEach catalog)) :=
  ⟨settles_iff_tellsVolumes h, fun hall =>
    (settles_iff_tellsVolumes h).trans (tellsVolumes_iff_of_numbered h hall)⟩

/-- The planner for a catalog with all its archives. -/
def fullShelf (catalog : List Chapter) : Planner :=
  let naming := (Naming.ofConfig { downloadDir := "lib" } "T").withCatalog catalog
  { naming
    existing := catalog.map naming.archive
    embeddedVolume := fun a =>
      (catalog.find? fun c => (naming.archive c).path == a.path).map Chapter.volume }

/-- A number that comes in two volumes. -/
def repeated : List Chapter :=
  [⟨"a", "1", "1", ""⟩, ⟨"b", "2", "1", ""⟩, ⟨"c", "", "3.5", ""⟩]

theorem complete_plan_iff_repeated :
    (fullShelf repeated).Complete repeated ∧ (∀ c ∈ repeated, c.Numbered) ∧
      (fullShelf repeated).Settles repeated := by
  have complete : (fullShelf repeated).Complete repeated :=
    ⟨by decide +kernel, by decide +kernel⟩
  have numbered : ∀ c ∈ repeated, c.Numbered := by decide +kernel
  exact ⟨complete, numbered, ((complete_plan_iff complete).2 numbered).mpr (.inl (by decide +kernel))⟩

/-- Two chapters without a number, of one title and in two volumes. -/
def twoExtras : List Chapter :=
  [⟨"a", "1", "", "Extra"⟩, ⟨"b", "2", "", "Extra"⟩]

/-- The second one is downloaded anew in place of the first one's archive. -/
theorem twoExtras_downloaded_anew :
    let p := fullShelf twoExtras
    (twoExtras.map p.naming.contentPath).Pairwise (fun a b => Path.isSame a b = false) ∧
      p.existing.Perm (twoExtras.map p.naming.archive) ∧
      (∀ c ∈ twoExtras, p.embeddedVolume (p.naming.archive c) = some c.volume) ∧
      (p.plan twoExtras).toDownload.map Chapter.id = ["b"] ∧
      (p.plan twoExtras).toRemove = ["lib/T/T Vol. 1/T Extra (One Shot).cbz"] := by
  decide +kernel

end Planner
end Longbox
