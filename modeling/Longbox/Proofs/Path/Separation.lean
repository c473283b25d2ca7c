import Longbox.Proofs.Name.Chapter
import Longbox.Proofs.Path.Resolution

/-! Chapters in directories of their own.

The components of a chapter's path below the series are those of the names in its layout
(`components_contentPath`). All these names begin with the title, which may have slashes in it, and
their last components tell them apart (`components_inj`), so a path determines the layout, and the
layout the volume and the padded number: `isSame_contentPath_iff`. -/
namespace Longbox

namespace Path
variable {title name name' : List Char}

/-- The name goes on from the title after a blank, within the title's last component. -/
def Continues (title name : List Char) : Prop :=
  ∃ rest, name = title ++ ' ' :: rest ∧ '/' ∉ rest

/-- The last separator of a text, if it has one. -/
theorem not_mem_or_last (sep : Char) (cs : List Char) :
    sep ∉ cs ∨ ∃ front last, cs = front ++ sep :: last ∧ sep ∉ last := by
  by_cases h : sep ∈ cs
  · obtain ⟨last, front, hcs, hlast⟩ := List.eq_append_cons_of_mem (List.mem_reverse.mpr h)
    refine .inr ⟨front.reverse, last.reverse, ?_, by simpa using hlast⟩
    simpa using congrArg List.reverse hcs
  · exact .inl h

/-- Names that go on from one title differ in their last components only. -/
theorem exists_components (title : List Char) :
    ∃ front last, ∀ rest, '/' ∉ rest →
      components (title ++ ' ' :: rest) = front ++ [last ++ ' ' :: rest] := by
  have whole (last rest : List Char) (hlast : '/' ∉ last) (hrest : '/' ∉ rest) :
      components (last ++ ' ' :: rest) = [last ++ ' ' :: rest] :=
    components_of_blank (by simp) (by simp [hlast, hrest])
  rcases not_mem_or_last '/' title with htitle | ⟨front, last, rfl, hlast⟩
  · exact ⟨[], title, fun rest hrest => whole title rest htitle hrest⟩
  · refine ⟨components front, last, fun rest hrest => ?_⟩
    rw [List.append_assoc, List.cons_append, components_append, whole last rest hlast hrest]

theorem length_components (title : List Char) :
    ∃ width, 0 < width ∧ ∀ name, Continues title name → (components name).length = width := by
  obtain ⟨front, last, hsplit⟩ := exists_components title
  refine ⟨front.length + 1, Nat.succ_pos _, ?_⟩
  rintro name ⟨rest, rfl, hrest⟩
  rw [hsplit rest hrest, List.length_append, List.length_singleton]

theorem components_inj (h : Continues title name) (h' : Continues title name')
    (hc : components name = components name') : name = name' := by
  obtain ⟨front, last, hsplit⟩ := exists_components title
  obtain ⟨rest, rfl, hrest⟩ := h
  obtain ⟨rest', rfl, hrest'⟩ := h'
  rw [hsplit rest hrest, hsplit rest' hrest'] at hc
  have hlast := List.head_eq_of_cons_eq (List.append_cancel_left hc)
  rw [List.append_cancel_left hlast]

/-- A concatenation of blocks of one length determines the blocks. -/
theorem flatMap_inj_of_length {α β : Type} {f : α → List β} {width : Nat} {xs ys : List α}
    (hwidth : 0 < width) (hx : ∀ x ∈ xs, (f x).length = width) (hy : ∀ y ∈ ys, (f y).length = width)
    (hinj : ∀ x ∈ xs, ∀ y ∈ ys, f x = f y → x = y) (h : xs.flatMap f = ys.flatMap f) : xs = ys := by
  induction xs generalizing ys with
  | nil =>
    cases ys with
    | nil => rfl
    | cons y ys =>
      have hlen := congrArg List.length h
      simp [hy y (List.mem_cons_self ..)] at hlen
      omega
  | cons x xs ih =>
    cases ys with
    | nil =>
      have hlen := congrArg List.length h
      simp [hx x (List.mem_cons_self ..)] at hlen
      omega
    | cons y ys =>
      rw [List.flatMap_cons, List.flatMap_cons] at h
      obtain ⟨hhead, htail⟩ := List.append_inj h
        ((hx x (List.mem_cons_self ..)).trans (hy y (List.mem_cons_self ..)).symm)
      rw [hinj x (List.mem_cons_self ..) y (List.mem_cons_self ..) hhead]
      rw [ih (fun x h => hx x (List.mem_cons_of_mem _ h)) (fun y h => hy y (List.mem_cons_of_mem _ h))
        (fun x h y h' => hinj x (List.mem_cons_of_mem _ h) y (List.mem_cons_of_mem _ h')) htail]

end Path

namespace Naming
variable {n : Naming} {c c' : Chapter}

/-! ### The layout of a chapter from its path -/

theorem components_contentPath (ht : Path.isAbsolute n.title = false) (c : Chapter) :
    Path.components (n.contentPath c).toList =
      Path.components n.seriesDir.toList ++
        (n.layout c).flatMap fun name => Path.components name.toList := by
  have relative : ∀ name ∈ n.layout c, Path.isAbsolute name = false := fun name =>
    isAbsolute_of_mem_layout ht
  unfold layout at relative ⊢
  rw [List.forall_mem_append, List.forall_mem_singleton] at relative
  unfold contentPath parentDir
  rw [Path.components_join _ relative.2, List.flatMap_append, List.flatMap_singleton]
  split
  · rename_i hvolume
    rw [if_pos hvolume, List.forall_mem_singleton] at relative
    rw [Path.components_join _ relative.1, List.flatMap_singleton, List.append_assoc]
  · rfl

theorem continues_of_mem_layout (h : c.Dotted) {name : String} (hname : name ∈ n.layout c) :
    Path.Continues n.title.toList name.toList := by
  have volume : '/' ∉ c.volume.toList := h.dottedVolume.not_mem rfl
  have number : '/' ∉ (paddedNumber c.number).toList :=
    (dotted_paddedNumber h.dottedNumber).not_mem rfl
  unfold layout at hname
  rcases List.mem_append.mp hname with hname | hname
  · split at hname
    · rw [List.mem_singleton.mp hname, toList_volumeDir]
      exact ⟨['V', 'o', 'l', '.'] ++ ' ' :: c.volume.toList, by simp, by simp [volume]⟩
    · cases hname
  · rw [List.mem_singleton.mp hname, contentName_of_numbered n h.numbered, toList_chapterName]
    unfold volumePart
    split
    · exact ⟨['V', 'o', 'l', '.'] ++ ' ' :: c.volume.toList ++ [' ', 'C', 'h', '.'] ++
        ' ' :: (paddedNumber c.number).toList, by simp, by simp [volume, number]⟩
    · exact ⟨['C', 'h', '.'] ++ ' ' :: (paddedNumber c.number).toList, by simp, by simp [number]⟩

theorem volumeDir_inj {volume volume' : String} (h : n.volumeDir volume = n.volumeDir volume') :
    volume = volume' := by
  have h := congrArg String.toList h
  rw [toList_volumeDir, toList_volumeDir] at h
  exact String.ext (List.cons.inj (List.append_cancel_left h)).2

/-- The volume shows in a directory of its own or in the name. -/
theorem eq_of_layout_eq (h : c.Numbered) (h' : c'.Numbered) (heq : n.layout c = n.layout c') :
    c.volume = c'.volume ∧ paddedNumber c.number = paddedNumber c'.number := by
  unfold layout at heq
  obtain ⟨hdirs, hnames⟩ := List.append_inj' heq rfl
  obtain ⟨hnumber, hshown⟩ := (contentName_eq_iff h' h).mp (List.singleton_inj.mp hnames)
  refine ⟨?_, hnumber⟩
  cases hflat : n.disableVolumeDirs with
  | true => exact hshown (by rw [includesVolume, hflat, Bool.true_or])
  | false =>
    by_cases hv : c.volume = "" <;> by_cases hv' : c'.volume = ""
    · rw [hv, hv']
    · simp [hflat, hv, hv'] at hdirs
    · simp [hflat, hv, hv'] at hdirs
    · exact volumeDir_inj (by simpa [hflat, hv, hv'] using hdirs)

theorem layout_eq_of_components_eq (ht : Path.isAbsolute n.title = false) (h : c.Dotted)
    (h' : c'.Dotted)
    (heq : Path.components (n.contentPath c).toList = Path.components (n.contentPath c').toList) :
    n.layout c = n.layout c' := by
  rw [components_contentPath ht, components_contentPath ht] at heq
  obtain ⟨width, hwidth, hlen⟩ := Path.length_components n.title.toList
  exact Path.flatMap_inj_of_length hwidth
    (fun name hname => hlen _ (continues_of_mem_layout h hname))
    (fun name hname => hlen _ (continues_of_mem_layout h' hname))
    (fun name hname name' hname' hc => String.ext
      (Path.components_inj (continues_of_mem_layout h hname) (continues_of_mem_layout h' hname') hc))
    (List.append_cancel_left heq)

theorem isSame_contentPath_iff (ht : Path.isAbsolute n.title = false) (h : c.Dotted) (h' : c'.Dotted) :
    Path.isSame (n.contentPath c) (n.contentPath c') = true ↔
      c.volume = c'.volume ∧ paddedNumber c.number = paddedNumber c'.number := by
  constructor
  · intro hsame
    obtain ⟨-, -, hcomponents⟩ := Path.isSame_iff.mp hsame
    exact eq_of_layout_eq h.numbered h'.numbered (layout_eq_of_components_eq ht h h' hcomponents)
  · rintro ⟨hvolume, hnumber⟩
    have hname : n.contentName c = n.contentName c' :=
      (contentName_eq_iff h'.numbered h.numbered).mpr ⟨hnumber, fun _ => hvolume⟩
    have hpath : n.contentPath c = n.contentPath c' := by
      unfold contentPath parentDir
      rw [hname, hvolume]
    rw [hpath]
    exact Path.isSame_refl _

/-- Chapters of digits and dots whose volumes or numbers differ in more than zeros in front never share
a directory, whatever the layout and whatever is known of the catalog. -/
theorem contentPath_apart (n : Naming) (ht : Path.isAbsolute n.title = false) (h : c.Dotted)
    (h' : c'.Dotted)
    (hne : (Marker.trim c.volume, Marker.trim c.number) ≠
      (Marker.trim c'.volume, Marker.trim c'.number)) :
    Path.isSame (n.contentPath c) (n.contentPath c') = false := by
  refine Bool.eq_false_iff.mpr fun hsame => hne ?_
  obtain ⟨hvolume, hnumber⟩ := (isSame_contentPath_iff ht h h').mp hsame
  rw [hvolume, ← trim_paddedNumber h.number, hnumber, trim_paddedNumber h'.number]

/-- Without directories for volumes, one number in and out of a volume, with a title that ends like a
volume. -/
theorem contentPath_apart_looseNumber :
    let n := ofConfig { downloadDir := "lib/", disableVolumeDirs := true } "A/T Vol. 1"
    Path.isAbsolute n.title = false ∧
      (Chapter.mk "a" "" "010.5" "").Dotted ∧ (Chapter.mk "b" "1" "10.5" "").Dotted ∧
      (Marker.trim "", Marker.trim "010.5") ≠ (Marker.trim "1", Marker.trim "10.5") ∧
      Path.isSame (n.contentPath ⟨"a", "", "010.5", ""⟩) (n.contentPath ⟨"b", "1", "10.5", ""⟩) = false := by
  intro n
  have relative : Path.isAbsolute n.title = false := by decide
  have loose : (Chapter.mk "a" "" "010.5" "").Dotted :=
    ⟨by decide, by decide, by decide⟩
  have bound : (Chapter.mk "b" "1" "10.5" "").Dotted :=
    ⟨by decide, by decide, by decide⟩
  have apart : (Marker.trim "", Marker.trim "010.5") ≠ (Marker.trim "1", Marker.trim "10.5") := by
    decide
  exact ⟨relative, loose, bound, apart, contentPath_apart n relative loose bound apart⟩

end Naming
end Longbox
