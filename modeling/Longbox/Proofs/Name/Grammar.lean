import Longbox.Proofs.Name.Reading

/-! The names that are read as archives' names, and the markers they are read with.

A name without a slash is an archive's just if its extension is `cbz` (`isArchive_iff`), and its markers are
those of the longest labelled ending it has (`Reads`): each name is read in one way, whatever its title
repeats of the labels (`markers?_iff_reads`). -/
namespace Longbox

/-! ### Extensions -/

namespace Path
variable {name stem extension : List Char}

theorem cutAtLastDot?_eq_some_iff :
    cutAtLastDot? name = some (stem, extension) ↔ name = stem ++ '.' :: extension ∧ '.' ∉ extension := by
  constructor
  · intro h
    unfold cutAtLastDot? at h
    have split := List.takeWhile_append_dropWhile (p := (· != '.')) (l := name.reverse)
    have letters : ∀ c ∈ name.reverse.takeWhile (· != '.'), (c != '.') = true :=
      List.all_eq_true.mp List.all_takeWhile
    cases hdrop : name.reverse.dropWhile (· != '.') with
    | nil =>
      rw [hdrop] at h
      cases h
    | cons dot front =>
      rw [hdrop] at h split
      cases h
      have stop := List.head_dropWhile_not (· != '.') (l := name.reverse) (by simp [hdrop])
      obtain rfl : dot = '.' := by simpa [hdrop] using stop
      refine ⟨?_, fun hmem => ?_⟩
      · calc name
            = (name.reverse.takeWhile (· != '.') ++ '.' :: front).reverse := by
              rw [split, List.reverse_reverse]
          _ = _ := by simp
      · have := letters '.' (List.mem_reverse.mp hmem)
        cases this
  · rintro ⟨rfl, hdot⟩
    exact cutAtLastDot?_append hdot

/-- The file name of a text without slashes is the text, unless it is empty or leads nowhere down. -/
theorem fileNameChars?_eq_some_iff {file : List Char} (h : '/' ∉ name) :
    fileNameChars? name = some file ↔ file = name ∧ IsPlain (String.ofList name) := by
  constructor
  · intro hfile
    have pieces : components name = if !name.isEmpty && name != ['.'] then [name] else [] := by
      rw [components, splitChars_of_not_mem h, List.filter_cons, List.filter_nil]
    unfold fileNameChars? at hfile
    rw [pieces] at hfile
    by_cases hkept : (!name.isEmpty && name != ['.']) = true
    · rw [if_pos hkept] at hfile
      simp only [List.getLast?_singleton] at hfile
      split at hfile
      · cases hfile
      · rename_i hup
        cases hfile
        rw [Bool.and_eq_true, Bool.not_eq_true', List.isEmpty_eq_false_iff, bne_iff_ne] at hkept
        refine ⟨rfl, by simpa using h, by simpa using hkept.1, fun hdot => hkept.2 ?_, fun hdots => hup ?_⟩
        · simpa using congrArg String.toList hdot
        · simpa using congrArg String.toList hdots
    · rw [if_neg hkept] at hfile
      cases hfile
  · rintro ⟨rfl, hplain⟩
    have whole := hplain.components_eq
    rw [String.toList_ofList] at whole
    rw [fileNameChars?, whole]
    refine if_neg fun hup => hplain.notUp ?_
    have hup : file = ['.', '.'] := by simpa using hup
    rw [hup]

/-- The extension of a name is what stands behind its last dot, if something stands in front of it. -/
theorem extensionChars?_eq_some_iff (h : '/' ∉ name) : extensionChars? name = some extension ↔
    name ≠ ['.', '.'] ∧ ∃ stem, name = stem ++ '.' :: extension ∧ stem ≠ [] ∧ '.' ∉ extension := by
  unfold extensionChars?
  simp only [Option.bind_eq_bind, Option.bind_eq_some_iff, fileNameChars?_eq_some_iff h, Prod.exists,
    cutAtLastDot?_eq_some_iff]
  constructor
  · rintro ⟨file, ⟨rfl, hplain⟩, stem, cut, ⟨rfl, hdot⟩, hif⟩
    split at hif
    · cases hif
    · rename_i hstem
      cases hif
      refine ⟨fun hup => hplain.notUp (by rw [hup]), stem, rfl, by simpa using hstem, hdot⟩
  · rintro ⟨hup, stem, rfl, hstem, hdot⟩
    refine ⟨_, ⟨rfl, ⟨by simpa using h, by simp, fun hd => ?_, fun hd => hup ?_⟩⟩, stem, extension,
      ⟨rfl, hdot⟩, if_neg (by simpa using hstem)⟩
    · have single := congrArg String.toList hd
      cases stem with
      | nil => exact hstem rfl
      | cons c rest => simp at single
    · simpa using congrArg String.toList hd

end Path

namespace Archive.Name
open Marker (trimChars)
variable {name stem front run volume chapter label extension : List Char}

/-! ### Names of archives -/

/-- The extension of a name is `cbz` in any mixture of capitals and small letters, and something stands in
front of it. -/
def IsArchiveName (name : List Char) : Prop :=
  ∃ stem extension, name = stem ++ '.' :: extension ∧ stem ≠ [] ∧ '.' ∉ extension ∧
    extension.map Char.toLower = extensionText

theorem isArchive_iff (h : '/' ∉ name) : isArchive name = true ↔ IsArchiveName name := by
  unfold isArchive IsArchiveName
  constructor
  · intro harchive
    split at harchive
    · rename_i extension hextension
      obtain ⟨-, stem, heq, hstem, hdot⟩ := (Path.extensionChars?_eq_some_iff h).mp hextension
      exact ⟨stem, extension, heq, hstem, hdot, by simpa using harchive⟩
    · cases harchive
  · rintro ⟨stem, extension, heq, hstem, hdot, hlower⟩
    have up : name ≠ ['.', '.'] := by
      rintro rfl
      have front := List.length_pos_iff.mpr hstem
      have whole := congrArg List.length heq
      have three := congrArg List.length hlower
      simp only [List.length_append, List.length_cons, List.length_nil, List.length_map,
        extensionText] at whole three
      omega
    rw [(Path.extensionChars?_eq_some_iff h).mpr ⟨up, stem, heq, hstem, hdot⟩]
    simpa using hlower

theorem EndsWith.isArchiveName (h : EndsWith label name front run) : IsArchiveName name := by
  refine ⟨_, extensionText, h.eq, ?_, by decide, by decide⟩
  simp [h.isRun.nonempty]

/-! ### Reading -/

/-- The markers of a name, by the longest of its labelled endings. -/
inductive Reads (name : List Char) : Markers → Prop where
  | both {front volume chapter : List Char} (h : EndsWithBoth name front volume chapter) :
      Reads name ⟨String.ofList (trimChars volume), String.ofList (trimChars chapter)⟩
  | chapter {front chapter : List Char}
      (hboth : ∀ front volume chapter, ¬ EndsWithBoth name front volume chapter)
      (h : EndsWith chapterLabel name front chapter) :
      Reads name ⟨"", String.ofList (trimChars chapter)⟩
  | volume {front volume : List Char}
      (hchapter : ∀ front chapter, ¬ EndsWith chapterLabel name front chapter)
      (h : EndsWith volumeLabel name front volume) :
      Reads name ⟨String.ofList (trimChars volume), ""⟩
  | plain (hchapter : ∀ front chapter, ¬ EndsWith chapterLabel name front chapter)
      (hvolume : ∀ front volume, ¬ EndsWith volumeLabel name front volume)
      (harchive : IsArchiveName name) :
      Reads name ⟨"", ""⟩

theorem Reads.isArchiveName {m : Markers} (h : Reads name m) : IsArchiveName name := by
  cases h with
  | both h => exact h.chapter.isArchiveName
  | chapter _ h | volume _ h => exact h.isArchiveName
  | plain _ _ harchive => exact harchive

theorem exists_reads (h : IsArchiveName name) : ∃ m, Reads name m := by
  by_cases hchapter : ∃ front chapter, EndsWith chapterLabel name front chapter
  · obtain ⟨front, chapter, hends⟩ := hchapter
    by_cases hboth : ∃ front volume chapter, EndsWithBoth name front volume chapter
    · obtain ⟨rest, volume, chapter, hboth⟩ := hboth
      exact ⟨_, .both hboth⟩
    · simp only [not_exists] at hboth
      exact ⟨_, .chapter hboth hends⟩
  · simp only [not_exists] at hchapter
    by_cases hvolume : ∃ front volume, EndsWith volumeLabel name front volume
    · obtain ⟨front, volume, hends⟩ := hvolume
      exact ⟨_, .volume hchapter hends⟩
    · simp only [not_exists] at hvolume
      exact ⟨_, .plain hchapter hvolume h⟩

theorem Reads.markers?_eq {name : String} (hslash : '/' ∉ name.toList) {m : Markers}
    (h : Reads name.toList m) : markers? name = some m := by
  cases h with
  | both h => exact markers?_of_labelled (labelled?_of_both h)
  | chapter hboth h => exact markers?_of_labelled (labelled?_of_chapter hboth h)
  | volume hchapter h => exact markers?_of_labelled (labelled?_of_volume hchapter h)
  | plain hchapter hvolume harchive =>
    rw [markers?_of_unlabelled (labelled?_eq_none hchapter hvolume),
      if_pos ((isArchive_iff hslash).mpr harchive)]

theorem markers?_eq_none {name : String} (hslash : '/' ∉ name.toList)
    (h : ¬ IsArchiveName name.toList) : markers? name = none := by
  have unlabelled : labelled? name.toList = none :=
    labelled?_eq_none (fun _ _ hends => h hends.isArchiveName) fun _ _ hends => h hends.isArchiveName
  rw [markers?_of_unlabelled unlabelled, if_neg (mt (isArchive_iff hslash).mp h)]

theorem markers?_eq_some_iff {name : String} (h : '/' ∉ name.toList) {m : Markers} :
    markers? name = some m ↔ Reads name.toList m := by
  refine ⟨fun hread => ?_, Reads.markers?_eq h⟩
  have archive : IsArchiveName name.toList := Classical.byContradiction fun hnot => by
    cases (markers?_eq_none h hnot).symm.trans hread
  obtain ⟨m', hreads⟩ := exists_reads archive
  rw [hreads.markers?_eq h] at hread
  cases hread
  exact hreads

theorem Reads.trimmed {m : Markers} (h : Reads name m) :
    Marker.trim m.volume = m.volume ∧ Marker.trim m.chapter = m.chapter := by
  have trimmed (cs : List Char) :
      Marker.trim (String.ofList (trimChars cs)) = String.ofList (trimChars cs) := by
    have shown : String.ofList (trimChars cs) = Marker.trim (String.ofList cs) := by
      rw [Marker.trim, String.toList_ofList]
    rw [shown, Marker.trim_trim]
  have empty : Marker.trim "" = "" := Marker.trim_eq_empty.mpr rfl
  cases h with
  | both => exact ⟨trimmed _, trimmed _⟩
  | chapter => exact ⟨empty, trimmed _⟩
  | volume => exact ⟨trimmed _, empty⟩
  | plain => exact ⟨empty, empty⟩

/-- A name without a slash is read just if it is an archive's, and then with the markers of the longest
labelled ending it has. The ending has one front and one run for each label, and the markers that are read
are trimmed. -/
theorem markers?_iff_reads (name : String) (h : '/' ∉ name.toList) :
    ((markers? name).isSome = true ↔ IsArchiveName name.toList) ∧
      (∀ m, markers? name = some m ↔ Reads name.toList m) ∧
      (∀ m, markers? name = some m →
        Marker.trim m.volume = m.volume ∧ Marker.trim m.chapter = m.chapter) ∧
      (∀ front front' volume volume' chapter chapter',
        EndsWithBoth name.toList front volume chapter →
        EndsWithBoth name.toList front' volume' chapter' →
        front = front' ∧ volume = volume' ∧ chapter = chapter') ∧
      ∀ label ∈ [volumeLabel, chapterLabel], ∀ front front' run run',
        EndsWith label name.toList front run → EndsWith label name.toList front' run' →
        front = front' ∧ run = run' := by
  refine ⟨⟨fun hsome => ?_, fun harchive => ?_⟩, fun m => markers?_eq_some_iff h, fun m hread => ?_,
    fun _ _ _ _ _ _ hends hends' => hends.unique hends', fun label hlabel _ _ _ _ => ?_⟩
  · obtain ⟨m, hread⟩ := Option.isSome_iff_exists.mp hsome
    exact ((markers?_eq_some_iff h).mp hread).isArchiveName
  · obtain ⟨m, hreads⟩ := exists_reads harchive
    rw [(markers?_eq_some_iff h).mpr hreads]
    rfl
  · exact ((markers?_eq_some_iff h).mp hread).trimmed
  · rcases List.mem_pair.mp hlabel with rfl | rfl
    · exact EndsWith.unique getLast?_volumeLabel
    · exact EndsWith.unique getLast?_chapterLabel

/-- A title of two lines that repeats both labels, with digits of another script and dots in the runs. -/
theorem markers?_iff_reads_repeatedLabels :
    let name := "A\nCh. 7 Vol. 1 Ch. 2 Vol. 0٣. Ch. 0010.5.cbz"
    '/' ∉ name.toList ∧ Reads name.toList ⟨"٣.", "10.5"⟩ ∧ markers? name = some ⟨"٣.", "10.5"⟩ := by
  intro name
  have slash : '/' ∉ name.toList := by decide +kernel
  have european : IsRun "0010.5".toList := ⟨by decide +kernel, List.all_eq_true.mp (by decide +kernel)⟩
  have arabic : IsRun "0٣.".toList := ⟨by decide +kernel, List.all_eq_true.mp (by decide +kernel)⟩
  have chapter : EndsWith chapterLabel name.toList
      ("A\nCh. 7 Vol. 1 Ch. 2".toList ++ volumeLabel ++ "0٣.".toList) "0010.5".toList :=
    ⟨by decide +kernel, european⟩
  have reads : Reads name.toList ⟨"٣.", "10.5"⟩ := .both ⟨chapter, arabic⟩
  exact ⟨slash, reads, ((markers?_iff_reads name slash).2.1 _).mpr reads⟩

end Archive.Name
end Longbox
