import Longbox.Proofs.Disk.Change
import Longbox.Proofs.Path.Names

/-! Where the pages of a chapter stand.

Below a library root without links, and if nothing that a chapter's directory is called by leads up, the
file of a page stands in the place that the directory's names spell out (`placed_page`), and goes when
the directory is removed (`entryAt?_removeAll_page`). -/
namespace Longbox

/-- What the naming puts behind the library root for a chapter goes down from there. -/
structure Naming.Descends (n : Naming) (c : Chapter) : Prop where
  title : Path.Descends n.title
  volume : (!c.volume.isEmpty && !n.disableVolumeDirs) = true → Path.Descends (n.volumeDir c.volume)
  name : Path.Descends (n.contentName c)

theorem Path.Below.append {base path name : String} {front more : List String}
    (h : Below base path front more) (hmore : more ≠ []) (hname : Descends name) :
    ∃ more', Below base (Path.join path name) front more' ∧ more' ≠ [] := by
  obtain ⟨kept, hbelow, -⟩ := h.join hmore hname
  exact ⟨_, hbelow, by simp [pathNames_ne_nil]⟩

theorem Naming.below_contentPath {n : Naming} {c : Chapter} (h : n.Descends c) :
    ∃ front more, Path.Below n.root (n.contentPath c) front more ∧ more ≠ [] := by
  obtain ⟨front, more, hseries, hmore⟩ := Path.below_join n.root h.title
  obtain ⟨more', hparent, hmore'⟩ :
      ∃ more', Path.Below n.root (n.parentDir c) front more' ∧ more' ≠ [] := by
    unfold parentDir
    split
    · rename_i hvolume
      exact hseries.append hmore (h.volume hvolume)
    · exact ⟨more, hseries, hmore⟩
  obtain ⟨more'', hcontent, hmore''⟩ := hparent.append hmore' h.name
  exact ⟨front, more'', hcontent, hmore''⟩

namespace Disk

theorem isProper_fileName (task : PageTask) : IsProper (Page.fileName task) where
  notIdle := by
    have hname := Page.toList_fileName task
    rw [isIdle, Bool.or_eq_false_iff]
    constructor
    · rw [← Bool.not_eq_true, String.isEmpty_iff]
      intro h
      rw [h] at hname
      cases hname
    · rw [beq_eq_false_iff_ne]
      intro h
      rw [h] at hname
      cases hname
  notUp := by
    rw [beq_eq_false_iff_ne]
    intro h
    have := (Page.descends_fileName task).notUp
    rw [Page.pathNames_fileName, h] at this
    exact this (List.mem_singleton_self _)

/-- A path leads to a directory. The empty path leads to the working directory. -/
def Reaches (d : Disk) (path : String) (place : Place) : Prop :=
  d.Walks true maxLinks (d.start path) (pathNames path) (.found place .directory)

theorem Reaches.within {d d' : Disk} {path : String} {place : Place} (hw : d.Within d')
    (h : d.Reaches path place) : d'.Reaches path place := by
  obtain ⟨_, hwalk, ⟨⟩⟩ := Walks.within hw h
  unfold Reaches
  rwa [start_within hw]

theorem start_congr {path path' : String} (d : Disk)
    (h : Path.isAbsolute path' = Path.isAbsolute path) : d.start path' = d.start path := by
  unfold start
  rw [h]

/-- An empty name at the end of a base makes no difference. -/
theorem Reaches.leads {d : Disk} {base : String} {here : Place} {front : List String}
    (h : d.Reaches base here) (hbase : pathNames base = front ∨ pathNames base = front ++ [""]) :
    ∃ left, d.Leads maxLinks (d.start base) front left here := by
  unfold Reaches at h
  rcases hbase with hbase | hbase
  · rw [hbase] at h
    exact h.leads
  · rw [hbase] at h
    obtain ⟨left, there, hleads, hwalk⟩ :=
      Walks.split (List.cons_ne_nil _ _) (fun _ _ hs => by cases hs) h
    cases hwalk.of_idle rfl with
    | ends => exact ⟨left, hleads⟩

/-- How the file of a page has come to its place below `here`: the names `more` are those of directories
on the way. -/
structure Placed (written : Disk) (here : Place) (more : List String) (task : PageTask)
    (place : Place) : Prop where
  place : place = here ++ proper more ++ [Page.fileName task]
  directories : ∀ a b, proper more = a ++ b → a ≠ [] → written.entryAt? (here ++ a) = some .directory
  short : ∀ name ∈ more, name.utf8ByteSize ≤ maxNameBytes

variable {written peak d : Disk} {base path : String} {front more : List String} {here place : Place}
  {task : PageTask}

theorem placed_page (hb : Path.Below base path front more) (hmore : more ≠ [])
    (hw : written.writable (Page.path path task) = .ok place) :
    ∃ left there, written.Leads maxLinks (written.start base) front left there ∧
      (written.Unlinked there → written.Placed there more task place) := by
  obtain ⟨kept, hpage, hkept⟩ := hb.join hmore (Page.descends_fileName task)
  obtain ⟨spot, hlocate, rfl, -⟩ := writable_spot hw
  have hwalk := (locate_eq_ok.mp hlocate).2
  unfold Page.path at hwalk
  rw [Page.pathNames_fileName] at hpage
  rw [hpage.names, start_congr written hpage.absolute] at hwalk
  have proper_file : proper [Page.fileName task] = [Page.fileName task] :=
    proper_cons (isProper_fileName task) []
  have nonempty : (kept ++ [Page.fileName task]).all String.isEmpty = false := by
    rw [List.all_append, List.all_cons, Bool.and_eq_false_iff, Bool.and_eq_false_iff]
    refine .inr (.inl ?_)
    exact (Bool.or_eq_false_iff.mp (isProper_fileName task).notIdle).1
  obtain ⟨left, there, hleads, hrest⟩ := Walks.split (by simp)
    (fun hall => by rw [nonempty] at hall; cases hall) hwalk
  refine ⟨left, there, hleads, fun hu => ?_⟩
  obtain ⟨leads, directories, short⟩ := hrest.descent hu hpage.notUp
  have same : proper more = proper kept := by
    rcases hkept with rfl | rfl
    · rfl
    · simp [proper, isIdle]
  rw [proper, List.filter_append] at leads directories
  change _ = there ++ (proper kept ++ proper [_]) at leads
  change ∀ a b, proper kept ++ proper [_] = a ++ b → _ at directories
  rw [proper_file] at leads directories
  refine ⟨?_, fun a b hab ha => ?_, fun name hname => ?_⟩
  · rw [leads, same, List.append_assoc]
  · rw [same] at hab
    refine directories a (b ++ [Page.fileName task]) ?_ ha (by simp)
    rw [hab, List.append_assoc]
  · rcases hkept with rfl | rfl
    · exact short name (List.mem_append_left _ hname)
    · rcases List.mem_append.mp hname with hname | hname
      · exact short name (List.mem_append_left _ hname)
      · rw [List.mem_singleton.mp hname]
        decide

/-- A page's file goes with the removal of its directory, though other directories may have gone before,
as long as the library root is still led to. -/
theorem entryAt?_removeAll_page (hb : Path.Below base path front more) (hmore : more ≠ [])
    (hw : written.writable (Page.path path task) = .ok place) (hpeak : written.Within peak)
    (hd : peak.Erodes d) (hu : written.Unlinked here) (hr : d.Reaches base here)
    (usable : IsUsable path) :
    (d.removeAll path).disk.entryAt? place = none := by
  by_cases hgone : d.entryAt? place = none
  · exact (removeAll_erodes d path).gone hgone
  obtain ⟨left, there, hleads, hplaced⟩ := placed_page hb hmore hw
  obtain ⟨left', hroot⟩ := hr.leads hb.start
  -- The library root is where it was when the page was written.
  have start : d.start base = written.start base :=
    (start_within hd.within).symm.trans (start_within hpeak)
  obtain rfl : here = there := by
    have rooted := hroot.within hd.within
    rw [start] at rooted
    exact (hleads.within hpeak).unique rooted
  obtain ⟨hplace, directories, short⟩ := hplaced hu
  -- A directory above the page is still there, for the page is.
  have above (a b : List String) (hab : proper more = a ++ b) (ha : a ≠ []) :
      d.entryAt? (here ++ a) = some .directory := by
    have hpeaked := hpeak.directory (directories a b hab ha)
    have hover : here ++ a <+: place := by
      rw [hplace, hab]
      exact ⟨b ++ [Page.fileName task], by simp only [List.append_assoc]⟩
    cases he : d.entryAt? (here ++ a) with
    | none => exact absurd (hd.below _ _ (by simp [hpeaked]) he hover) hgone
    | some entry =>
      have := hd.kept _ _ he
      rw [hpeaked] at this
      rw [Option.some.inj this]
  have walk : d.Walks false left' here more (.found (here ++ proper more) .directory) := by
    refine walks_of_directories hb.notUp short fun a b hab => ?_
    by_cases ha : a = []
    · subst ha
      rw [List.append_nil]
      exact Walks.entryAt?_found hr
    · exact above a b hab ha
  have located : d.locate false path = .ok (.found (here ++ proper more) .directory) := by
    refine locate_eq_ok.mpr ⟨usable, ?_⟩
    rw [hb.names, start_congr d hb.absolute]
    exact Walks.of_leads hroot walk hmore
  refine entryAt?_removeAll_found located ?_ ?_
  · rw [hplace]
    exact List.prefix_append ..
  · rw [hplace]
    simp

end Disk
end Longbox
