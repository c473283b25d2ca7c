import Longbox.Proofs.Name.Marker

/-! What names say of chapters.

The last word of a chapter's name is its number, padded, and in front of it stands the volume if names
show volumes. `contentName_eq_iff` says when two chapters have one name. -/
namespace Longbox

/-- A chapter has a number, and neither of its markers has a blank in it. -/
structure Chapter.Numbered (c : Chapter) : Prop where
  number : c.number ≠ ""
  wholeNumber : ' ' ∉ c.number.toList
  wholeVolume : ' ' ∉ c.volume.toList

instance (c : Chapter) : Decidable c.Numbered :=
  decidable_of_iff (c.number ≠ "" ∧ ' ' ∉ c.number.toList ∧ ' ' ∉ c.volume.toList)
    ⟨fun ⟨h, hn, hv⟩ => ⟨h, hn, hv⟩, fun h => ⟨h.number, h.wholeNumber, h.wholeVolume⟩⟩

/-- A chapter has a number, and its markers are of ASCII digits and dots. -/
structure Chapter.Dotted (c : Chapter) : Prop where
  number : c.number ≠ ""
  dottedNumber : Marker.Dotted c.number
  dottedVolume : Marker.Dotted c.volume

theorem Chapter.Dotted.numbered {c : Chapter} (h : c.Dotted) : c.Numbered where
  number := h.number
  wholeNumber := h.dottedNumber.not_mem rfl
  wholeVolume := h.dottedVolume.not_mem rfl

/-! ### Names of numbered chapters -/

/-- The last word of a text is what follows its last blank. -/
theorem lastWord_inj {front front' word word' : List Char} (hw : ' ' ∉ word) (hw' : ' ' ∉ word')
    (h : front ++ ' ' :: word = front' ++ ' ' :: word') : front = front' ∧ word = word' := by
  -- If one front were longer, its last blank would stand in the word of the other.
  have longer {front word word' rest : List Char} (hw : ' ' ∉ word)
      (h : ' ' :: word = rest ++ ' ' :: word') : front = front ++ rest ∧ word = word' := by
    cases rest with
    | nil => exact ⟨(List.append_nil front).symm, (List.cons.inj h).2⟩
    | cons x rest =>
      rw [(List.cons.inj h).2] at hw
      simp at hw
  rcases List.append_eq_append_iff.mp h with ⟨rest, rfl, hrest⟩ | ⟨rest, rfl, hrest⟩
  · exact longer hw hrest
  · obtain ⟨hfront, hword⟩ := @longer front' _ _ _ hw' hrest
    exact ⟨hfront.symm, hword.symm⟩

namespace Naming
variable {n : Naming} {c c' : Chapter}

theorem blank_not_mem_paddedNumber {number : String} (h : ' ' ∉ number.toList) :
    ' ' ∉ (paddedNumber number).toList :=
  fun hblank => (mem_paddedNumber hblank).elim (by decide) h

theorem contentName_of_number (n : Naming) (h : c.number ≠ "") : n.contentName c = n.chapterName c := by
  simp [contentName, Chapter.isOneShot, h]

theorem contentName_of_numbered (n : Naming) (h : c.Numbered) : n.contentName c = n.chapterName c :=
  n.contentName_of_number h.number

/-- The volume as the name of a chapter shows it. -/
def volumePart (n : Naming) (c : Chapter) : List Char :=
  if !c.volume.isEmpty && n.includesVolume then [' ', 'V', 'o', 'l', '.'] ++ ' ' :: c.volume.toList
  else []

theorem toList_chapterName (n : Naming) (c : Chapter) :
    (n.chapterName c).toList =
      (n.title.toList ++ n.volumePart c ++ [' ', 'C', 'h', '.']) ++
        ' ' :: (paddedNumber c.number).toList := by
  have chapter : " Ch. ".toList = [' ', 'C', 'h', '.'] ++ [' '] := rfl
  have volume : " Vol. ".toList = [' ', 'V', 'o', 'l', '.'] ++ [' '] := rfl
  unfold chapterName volumePart
  split <;> simp [chapter, volume]

theorem toList_volumeDir (n : Naming) (volume : String) :
    (n.volumeDir volume).toList = (n.title.toList ++ [' ', 'V', 'o', 'l', '.']) ++
      ' ' :: volume.toList := by
  have label : " Vol. ".toList = [' ', 'V', 'o', 'l', '.'] ++ [' '] := rfl
  simp [volumeDir, label]

/-- Chapters of one name have numbers that are padded alike, and one volume if names show volumes. -/
theorem contentName_eq_iff (h : c.Numbered) (h' : c'.Numbered) :
    n.contentName c' = n.contentName c ↔
      paddedNumber c'.number = paddedNumber c.number ∧
        (n.includesVolume = true → c'.volume = c.volume) := by
  rw [n.contentName_of_numbered h, n.contentName_of_numbered h', String.ext_iff, toList_chapterName,
    toList_chapterName]
  have parts : n.volumePart c' = n.volumePart c ↔
      (n.includesVolume = true → c'.volume = c.volume) := by
    unfold volumePart
    cases n.includesVolume with
    | false => simp
    | true =>
      by_cases hv : c.volume = "" <;> by_cases hv' : c'.volume = ""
      · simp [hv, hv']
      · simp [hv, hv']
      · simp [hv, hv', Ne.symm hv]
      · simp [hv, hv', String.ext_iff]
  constructor
  · intro heq
    obtain ⟨hfront, hnumber⟩ := lastWord_inj (blank_not_mem_paddedNumber h'.wholeNumber)
      (blank_not_mem_paddedNumber h.wholeNumber) heq
    refine ⟨String.ext hnumber, parts.mp ?_⟩
    simpa using hfront
  · rintro ⟨hnumber, hvolume⟩
    rw [hnumber, parts.mpr hvolume]

/-- No chapter with a number is called like a volume. -/
theorem contentName_ne_volumeDir (h : c.Numbered) {volume : String} (hv : ' ' ∉ volume.toList) :
    n.contentName c ≠ n.volumeDir volume := by
  rw [n.contentName_of_numbered h, ne_eq, String.ext_iff, toList_chapterName, toList_volumeDir]
  intro heq
  have hfront := (lastWord_inj (blank_not_mem_paddedNumber h.wholeNumber) hv heq).1
  have hlast := congrArg (fun cs => cs.reverse.take 2) hfront
  simp at hlast

end Naming

end Longbox
