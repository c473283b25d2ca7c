import Longbox.Archive.Name
import Longbox.Proofs.Name.Chapter
import Longbox.Proofs.Path.Resolution
import Longbox.Proofs.Text.Pattern

/-! Reading back the names of chapters.

The patterns occur in the names that end in labels and runs (`occurs_ending_iff`,
`occurs_volumeAndChapter_iff`). A run has no blank in it and the label in front of it ends in one, so a name
has one such ending with a label (`EndsWith.unique`) and there is only one thing to capture, whichever way is
tried first. So what is read from an archive's name is what the naming has put into it. `markers_contentName`
says so for every title: the number comes back trimmed, the volume comes back if the name shows one, and if
it shows none, the title's own ending can be taken for one. -/
namespace Longbox

namespace Path
variable {stem extension : List Char}

theorem cutAtLastDot?_append (h : '.' ∉ extension) :
    cutAtLastDot? (stem ++ '.' :: extension) = some (stem, extension) := by
  have letters : ∀ c ∈ extension.reverse, (c != '.') = true := fun c hc => by
    rw [bne_iff_ne]
    rintro rfl
    exact h (List.mem_reverse.mp hc)
  have reversed : (stem ++ '.' :: extension).reverse = extension.reverse ++ '.' :: stem.reverse := by
    simp
  rw [cutAtLastDot?, reversed, List.dropWhile_append_of_pos letters,
    List.takeWhile_append_of_pos letters]
  simp

theorem extensionChars?_append (hblank : ' ' ∈ stem) (hstem : '/' ∉ stem) (hslash : '/' ∉ extension)
    (hdot : '.' ∉ extension) : extensionChars? (stem ++ '.' :: extension) = some extension := by
  have whole : components (stem ++ '.' :: extension) = [stem ++ '.' :: extension] :=
    components_of_blank (List.mem_append_left _ hblank) (by simp [hstem, hslash])
  have down : stem ++ '.' :: extension ≠ ['.', '.'] := fun hup => by
    have hmem : ' ' ∈ ['.', '.'] := hup ▸ List.mem_append_left _ hblank
    exact absurd hmem (by decide)
  have name : fileNameChars? (stem ++ '.' :: extension) = some (stem ++ '.' :: extension) := by
    rw [fileNameChars?, whole]
    exact if_neg (by simpa using down)
  rw [extensionChars?, name, Option.bind_eq_bind, Option.bind_some, cutAtLastDot?_append hdot]
  simp [List.ne_nil_of_mem hblank]

end Path

namespace Archive.Name
open Marker (trimChars)
open Text.Piece (search? Occurs Matches search?_eq_none)

variable {name stem front front' run run' volume volume' chapter chapter' label rest : List Char}
  {captures : List (List Char)} {runs pieces : List Text.Piece}

/-! ### Endings -/

/-- Decimal digits of any script and dots. -/
structure IsRun (run : List Char) : Prop where
  nonempty : run ≠ []
  digits : ∀ c ∈ run, isRunChar c = true

/-- A name ends in a label, a run and the extension of an archive. -/
structure EndsWith (label name front run : List Char) : Prop where
  eq : name = front ++ label ++ run ++ '.' :: extensionText
  isRun : IsRun run

/-- A name ends in a volume and a chapter. -/
structure EndsWithBoth (name front volume chapter : List Char) : Prop where
  chapter : EndsWith chapterLabel name (front ++ volumeLabel ++ volume) chapter
  isRun : IsRun volume

/-- A title that could be taken for one with a volume behind it. The digits can be of any script. -/
def EndsInVolume (title : String) : Prop :=
  ∃ front run, title.toList = front ++ volumeLabel ++ run ∧ run ≠ [] ∧ ∀ c ∈ run, isRunChar c = true

/-- Digits and dots up to the end of a text. -/
def lastRun (cs : List Char) : List Char :=
  (cs.reverse.takeWhile isRunChar).reverse

/-- A run does not reach into its label, which ends in a blank. -/
theorem lastRun_append (hl : label.getLast? = some ' ') (hrun : ∀ c ∈ run, isRunChar c = true) :
    lastRun (front ++ label ++ run) = run := by
  obtain ⟨body, rfl⟩ := List.getLast?_eq_some_iff.mp hl
  have blank : isRunChar ' ' = false := by decide
  rw [lastRun, List.reverse_append, List.takeWhile_append_of_pos (by simpa using hrun)]
  simp [blank]

theorem labelledRun_unique (hl : label.getLast? = some ' ') (hrun : IsRun run) (hrun' : IsRun run')
    (h : front ++ label ++ run = front' ++ label ++ run') : front = front' ∧ run = run' := by
  obtain rfl : run = run' := by
    rw [← lastRun_append hl hrun.digits, h, lastRun_append hl hrun'.digits]
  exact ⟨List.append_cancel_right (List.append_cancel_right h), rfl⟩

theorem getLast?_volumeLabel : volumeLabel.getLast? = some ' ' := rfl

theorem getLast?_chapterLabel : chapterLabel.getLast? = some ' ' := rfl

/-- A name has one ending with a label. -/
theorem EndsWith.unique (hl : label.getLast? = some ' ') (h : EndsWith label name front run)
    (h' : EndsWith label name front' run') : front = front' ∧ run = run' :=
  labelledRun_unique hl h.isRun h'.isRun (List.append_cancel_right (h.eq.symm.trans h'.eq))

theorem EndsWithBoth.unique (h : EndsWithBoth name front volume chapter)
    (h' : EndsWithBoth name front' volume' chapter') :
    front = front' ∧ volume = volume' ∧ chapter = chapter' := by
  obtain ⟨hfront, hchapter⟩ := h.chapter.unique getLast?_chapterLabel h'.chapter
  obtain ⟨hfront, hvolume⟩ := labelledRun_unique getLast?_volumeLabel h.isRun h'.isRun hfront
  exact ⟨hfront, hvolume, hchapter⟩

/-- Behind a run there is nothing but the extension. -/
theorem not_endsWith_of_concat {c : Char} (hc : isRunChar c = false) (front run : List Char) :
    ¬ EndsWith label (stem ++ [c] ++ '.' :: extensionText) front run := by
  rintro ⟨heq, hne, hrun⟩
  obtain ⟨body, last, rfl⟩ := List.eq_nil_or_concat run |>.resolve_left hne
  have same := congrArg List.getLast? (List.append_cancel_right heq)
  obtain rfl : c = last := by simpa using same
  have digit := hrun c (by simp)
  rw [hc] at digit
  cases digit

/-! ### Patterns -/

/-- What stands in front of the ending in its line can be passed over as well as in front of the line. -/
theorem occurs_ending_iff_matches : Occurs (ending runs) name captures ↔
    ∃ front rest, name = front ++ rest ∧ Matches (runs ++ [.text ('.' :: extensionText)]) rest captures := by
  constructor
  · rintro ⟨front, _, rfl, hmatches⟩
    cases hmatches with
    | @many _ _ taken rest _ _ h => exact ⟨front ++ taken, rest, (List.append_assoc ..).symm, h⟩
  · rintro ⟨front, rest, rfl, h⟩
    exact ⟨front, [] ++ rest, rfl, .many nofun h⟩

theorem matches_labelledRun_iff : Matches (labelledRun label ++ pieces) rest captures ↔
    ∃ run rest' captures', rest = label ++ run ++ rest' ∧ IsRun run ∧ captures = run :: captures' ∧
      Matches pieces rest' captures' := by
  constructor
  · intro h
    cases h with
    | text _ h =>
      cases h with
      | @captured _ _ run rest' captures' hne ht h =>
        exact ⟨run, rest', captures', (List.append_assoc ..).symm, ⟨hne, ht⟩, rfl, h⟩
  · rintro ⟨run, rest', captures', rfl, hrun, rfl, h⟩
    rw [List.append_assoc]
    exact .text label (.captured hrun.nonempty hrun.digits h)

theorem matches_text_iff {chars : List Char} :
    Matches [.text chars] rest captures ↔ rest = chars ∧ captures = [] := by
  constructor
  · intro h
    cases h with
    | text _ h =>
      cases h
      exact ⟨List.append_nil chars, rfl⟩
  · rintro ⟨rfl, rfl⟩
    simpa using Matches.text rest .done

theorem occurs_ending_iff : Occurs (ending (labelledRun label)) name captures ↔
    ∃ front run, EndsWith label name front run ∧ captures = [run] := by
  simp only [occurs_ending_iff_matches, matches_labelledRun_iff, matches_text_iff]
  constructor
  · rintro ⟨front, _, rfl, run, _, _, rfl, hrun, rfl, rfl, rfl⟩
    exact ⟨front, run, ⟨by simp only [List.append_assoc], hrun⟩, rfl⟩
  · rintro ⟨front, run, ⟨rfl, hrun⟩, rfl⟩
    exact ⟨front, _, by simp only [List.append_assoc], run, _, _, rfl, hrun, rfl, rfl, rfl⟩

theorem occurs_volumeAndChapter_iff : Occurs volumeAndChapter name captures ↔
    ∃ front volume chapter, EndsWithBoth name front volume chapter ∧ captures = [volume, chapter] := by
  simp only [volumeAndChapter, occurs_ending_iff_matches, List.append_assoc, matches_labelledRun_iff,
    matches_text_iff]
  constructor
  · rintro ⟨front, _, rfl, volume, _, _, rfl, hvolume, rfl, chapter, _, _, rfl, hchapter, rfl, rfl, rfl⟩
    exact ⟨front, volume, chapter, ⟨⟨by simp only [List.append_assoc], hchapter⟩, hvolume⟩, rfl⟩
  · rintro ⟨front, volume, chapter, ⟨⟨rfl, hchapter⟩, hvolume⟩, rfl⟩
    exact ⟨front, _, by simp only [List.append_assoc], volume, _, _, rfl, hvolume, rfl, chapter, _, _,
      rfl, hchapter, rfl, rfl, rfl⟩

/-! ### What is read -/

theorem search?_ending (hl : label.getLast? = some ' ') (h : EndsWith label name front run) :
    search? (ending (labelledRun label)) name = some [run] := by
  refine (occurs_ending_iff.mpr ⟨front, run, h, rfl⟩).search?_eq_some fun captures hoccurs => ?_
  obtain ⟨front', run', h', rfl⟩ := occurs_ending_iff.mp hoccurs
  rw [(h.unique hl h').2]

theorem search?_ending_eq_none (h : ∀ front run, ¬ EndsWith label name front run) :
    search? (ending (labelledRun label)) name = none :=
  search?_eq_none fun _ hoccurs => by
    obtain ⟨front, run, hends, -⟩ := occurs_ending_iff.mp hoccurs
    exact h front run hends

theorem search?_volumeAndChapter (h : EndsWithBoth name front volume chapter) :
    search? volumeAndChapter name = some [volume, chapter] := by
  refine (occurs_volumeAndChapter_iff.mpr ⟨front, volume, chapter, h, rfl⟩).search?_eq_some
    fun captures hoccurs => ?_
  obtain ⟨front', volume', chapter', h', rfl⟩ := occurs_volumeAndChapter_iff.mp hoccurs
  obtain ⟨-, rfl, rfl⟩ := h.unique h'
  rfl

theorem search?_volumeAndChapter_eq_none
    (h : ∀ front volume chapter, ¬ EndsWithBoth name front volume chapter) :
    search? volumeAndChapter name = none :=
  search?_eq_none fun _ hoccurs => by
    obtain ⟨front, volume, chapter, hends, -⟩ := occurs_volumeAndChapter_iff.mp hoccurs
    exact h front volume chapter hends

theorem labelled?_of_both (h : EndsWithBoth name front volume chapter) :
    labelled? name = some (volume, chapter) := by
  rw [labelled?, search?_volumeAndChapter h]

theorem labelled?_of_chapter (hboth : ∀ front volume chapter, ¬ EndsWithBoth name front volume chapter)
    (h : EndsWith chapterLabel name front chapter) : labelled? name = some ([], chapter) := by
  rw [labelled?, search?_volumeAndChapter_eq_none hboth, chapterOnly,
    search?_ending getLast?_chapterLabel h]

theorem labelled?_of_volume (hchapter : ∀ front chapter, ¬ EndsWith chapterLabel name front chapter)
    (h : EndsWith volumeLabel name front volume) : labelled? name = some (volume, []) := by
  rw [labelled?, search?_volumeAndChapter_eq_none fun _ _ _ hboth => hchapter _ _ hboth.chapter,
    chapterOnly, search?_ending_eq_none hchapter, volumeOnly, search?_ending getLast?_volumeLabel h]

theorem labelled?_eq_none (hchapter : ∀ front chapter, ¬ EndsWith chapterLabel name front chapter)
    (hvolume : ∀ front volume, ¬ EndsWith volumeLabel name front volume) : labelled? name = none := by
  rw [labelled?, search?_volumeAndChapter_eq_none fun _ _ _ hboth => hchapter _ _ hboth.chapter,
    chapterOnly, search?_ending_eq_none hchapter, volumeOnly, search?_ending_eq_none hvolume]

theorem markers?_of_labelled {name : String} (h : labelled? name.toList = some (volume, chapter)) :
    markers? name = some ⟨String.ofList (trimChars volume), String.ofList (trimChars chapter)⟩ := by
  rw [markers?, markersChars?, h]
  rfl

theorem markers?_of_unlabelled {name : String} (h : labelled? name.toList = none) :
    markers? name = if isArchive name.toList then some ⟨"", ""⟩ else none := by
  rw [markers?, markersChars?, h]
  cases isArchive name.toList <;> rfl

theorem toList_ofStem (stem : String) :
    (ofStem stem).toList = stem.toList ++ '.' :: extensionText := by
  have extension : ".cbz".toList = '.' :: extensionText := rfl
  rw [ofStem, String.toList_append, extension]

theorem isRunChar_of_isNumeralChar {c : Char} (h : Marker.isNumeralChar c = true) :
    isRunChar c = true := by
  unfold Marker.isNumeralChar at h
  unfold isRunChar Text.isDecimalDigit
  rw [Bool.or_eq_true] at h ⊢
  refine h.imp_left fun hdigit => List.any_eq_true.mpr ⟨0x30, by decide, ?_⟩
  simp only [Char.isDigit, Bool.and_eq_true, decide_eq_true_eq, UInt32.le_iff_toNat_le] at hdigit
  change 48 ≤ c.toNat ∧ c.toNat ≤ 57 at hdigit
  simp only [Bool.and_eq_true, decide_eq_true_eq]
  omega

theorem isRunChar_of_dotted {marker : String} (h : Marker.Dotted marker) :
    ∀ c ∈ marker.toList, isRunChar c = true :=
  fun c hc => isRunChar_of_isNumeralChar (h c hc)

end Archive.Name

namespace Naming
open Archive.Name
variable {c : Chapter}

theorem volumePart_of_shown {n : Naming} (hv : c.volume ≠ "") (hshown : n.includesVolume = true) :
    n.volumePart c = volumeLabel ++ c.volume.toList := by
  have label : volumeLabel = [' ', 'V', 'o', 'l', '.'] ++ [' '] := rfl
  simp [volumePart, hv, hshown, label]

theorem volumePart_of_hidden {n : Naming} (h : ¬ (c.volume ≠ "" ∧ n.includesVolume = true)) :
    n.volumePart c = [] :=
  if_neg (by simpa using h)

theorem toList_contentName (n : Naming) (h : c.number ≠ "") :
    (n.contentName c).toList =
      n.title.toList ++ n.volumePart c ++ chapterLabel ++ (paddedNumber c.number).toList := by
  have label : chapterLabel = [' ', 'C', 'h', '.'] ++ [' '] := rfl
  rw [n.contentName_of_number h, toList_chapterName, label]
  simp

theorem isRunChar_paddedNumber {number : String} (h : ∀ ch ∈ number.toList, isRunChar ch = true) :
    ∀ ch ∈ (paddedNumber number).toList, isRunChar ch = true := by
  intro ch hmem
  rcases mem_paddedNumber hmem with rfl | hmem
  · decide
  · exact h ch hmem

/-- A name ends in the chapter's number, with whatever the title and the volume make of it in front. -/
theorem endsWith_contentName (n : Naming) (h : c.number ≠ "")
    (hrun : ∀ ch ∈ c.number.toList, isRunChar ch = true) :
    EndsWith chapterLabel (ofStem (n.contentName c)).toList (n.title.toList ++ n.volumePart c)
      (paddedNumber c.number).toList := by
  have nonempty : (paddedNumber c.number).toList ≠ [] := by
    obtain ⟨zeros, hpadded⟩ := toList_paddedNumber c.number
    simp [hpadded, h]
  exact ⟨by rw [toList_ofStem, toList_contentName n h], nonempty, isRunChar_paddedNumber hrun⟩

theorem markers?_contentName_of_both (n : Naming) (h : c.number ≠ "")
    (hrun : ∀ ch ∈ c.number.toList, isRunChar ch = true) {front volume : List Char}
    (hfront : n.title.toList ++ n.volumePart c = front ++ volumeLabel ++ volume)
    (hvolume : IsRun volume) :
    markers? (ofStem (n.contentName c)) =
      some ⟨String.ofList (Marker.trimChars volume), Marker.trim c.number⟩ := by
  have ends := n.endsWith_contentName h hrun
  rw [hfront] at ends
  rw [markers?_of_labelled (labelled?_of_both ⟨ends, hvolume⟩), ← trim_paddedNumber h]
  rfl

theorem markers?_contentName_of_chapter (n : Naming) (h : c.number ≠ "")
    (hrun : ∀ ch ∈ c.number.toList, isRunChar ch = true)
    (hnot : ∀ front volume, n.title.toList ++ n.volumePart c = front ++ volumeLabel ++ volume →
      ¬ IsRun volume) :
    markers? (ofStem (n.contentName c)) = some ⟨"", Marker.trim c.number⟩ := by
  have ends := n.endsWith_contentName h hrun
  have alone (front volume chapter : List Char) :
      ¬ EndsWithBoth (ofStem (n.contentName c)).toList front volume chapter := fun hboth =>
    hnot front volume (ends.unique getLast?_chapterLabel hboth.chapter).1 hboth.isRun
  rw [markers?_of_labelled (labelled?_of_chapter alone ends), ← trim_paddedNumber h]
  rfl

/-- A number of digits of any script is read back from its name. -/
theorem exists_markers?_contentName (n : Naming) (h : c.number ≠ "")
    (hrun : ∀ ch ∈ c.number.toList, isRunChar ch = true) :
    ∃ volume, markers? (ofStem (n.contentName c)) = some ⟨volume, Marker.trim c.number⟩ := by
  by_cases hboth : ∃ front volume,
      n.title.toList ++ n.volumePart c = front ++ volumeLabel ++ volume ∧ IsRun volume
  · obtain ⟨front, volume, hfront, hvolume⟩ := hboth
    exact ⟨_, n.markers?_contentName_of_both h hrun hfront hvolume⟩
  · exact ⟨_, n.markers?_contentName_of_chapter h hrun fun front volume hfront hvolume =>
      hboth ⟨front, volume, hfront, hvolume⟩⟩

theorem markers?_contentName_of_oneShot (n : Naming) (hone : c.isOneShot = true)
    (hsuffix : n.disableOneShotSuffix = false) (htitle : '/' ∉ n.title.toList)
    (hslash : '/' ∉ c.title.toList) : markers? (ofStem (n.contentName c)) = some ⟨"", ""⟩ := by
  have name : (n.contentName c).toList =
      (n.title.toList ++ ' ' :: c.title.toList ++ " (One Shot".toList) ++ [')'] := by
    have suffix : " (One Shot)".toList = " (One Shot".toList ++ [')'] := rfl
    have blank : " ".toList = [' '] := rfl
    simp [contentName, hone, oneShotName, hsuffix, suffix, blank]
  have unlabelled (label front run : List Char) :
      ¬ EndsWith label (ofStem (n.contentName c)).toList front run := by
    rw [toList_ofStem, name]
    exact not_endsWith_of_concat (by decide) front run
  have archive : isArchive (ofStem (n.contentName c)).toList = true := by
    rw [toList_ofStem, isArchive, Path.extensionChars?_append (by simp [name])
      (by simp [name, htitle, hslash]) (by decide) (by decide)]
    rfl
  rw [markers?_of_unlabelled (labelled?_eq_none (unlabelled _) (unlabelled _)), if_pos archive]

/-- The number that a name of a chapter is read with is the chapter's, trimmed. If names show volumes, the
volume is the chapter's, trimmed, for every title; if not, there is none unless the title itself ends like
a volume. A one-shot whose name says so carries no markers. -/
theorem markers_contentName (n : Naming) (c : Chapter) :
    (c.Dotted →
      ∃ volume, markers? (ofStem (n.contentName c)) = some ⟨volume, Marker.trim c.number⟩ ∧
        (c.volume ≠ "" ∧ n.includesVolume = true → volume = Marker.trim c.volume) ∧
        (¬ (c.volume ≠ "" ∧ n.includesVolume = true) → (volume = "" ↔ ¬ EndsInVolume n.title))) ∧
      (c.isOneShot = true → n.disableOneShotSuffix = false → '/' ∉ n.title.toList →
        '/' ∉ c.title.toList → markers? (ofStem (n.contentName c)) = some ⟨"", ""⟩) := by
  refine ⟨fun h => ?_, markers?_contentName_of_oneShot n⟩
  have digits : ∀ ch ∈ c.number.toList, isRunChar ch = true := isRunChar_of_dotted h.dottedNumber
  by_cases hshown : c.volume ≠ "" ∧ n.includesVolume = true
  · have front : n.title.toList ++ n.volumePart c = n.title.toList ++ volumeLabel ++ c.volume.toList := by
      rw [volumePart_of_shown hshown.1 hshown.2, List.append_assoc]
    have volume : IsRun c.volume.toList :=
      ⟨by simpa using hshown.1, isRunChar_of_dotted h.dottedVolume⟩
    exact ⟨_, n.markers?_contentName_of_both h.number digits front volume, fun _ => rfl,
      fun hhidden => absurd hshown hhidden⟩
  · have front : n.title.toList ++ n.volumePart c = n.title.toList := by
      rw [volumePart_of_hidden hshown, List.append_nil]
    by_cases hends : EndsInVolume n.title
    · obtain ⟨rest, run, htitle, hne, hrun⟩ := hends
      refine ⟨_, n.markers?_contentName_of_both h.number digits (front.trans htitle) ⟨hne, hrun⟩,
        fun hboth => absurd hboth hshown, fun _ => iff_of_false ?_ ?_⟩
      · rw [String.ofList_eq_empty_iff, Marker.trimChars_eq_nil]
        exact hne
      · exact not_not.mpr ⟨rest, run, htitle, hne, hrun⟩
    · have none_in_front : ∀ rest run,
          n.title.toList ++ n.volumePart c = rest ++ volumeLabel ++ run → ¬ IsRun run :=
        fun rest run htitle hrun => hends ⟨rest, run, front.symm.trans htitle, hrun.nonempty, hrun.digits⟩
      exact ⟨_, n.markers?_contentName_of_chapter h.number digits none_in_front,
        fun hboth => absurd hboth hshown, fun _ => iff_of_true rfl hends⟩

/-- A title of two lines that ends like a volume, with the volume in the name, and a one-shot of it. -/
theorem markers_contentName_twoLines :
    let n := ofConfig { downloadDir := "lib", disableVolumeDirs := true } "A\nT Vol. 9"
    let c : Chapter := ⟨"a", "02", "010.5", ""⟩
    let extra : Chapter := ⟨"b", "3", "", "Ch. 4"⟩
    c.Dotted ∧ (c.volume ≠ "" ∧ n.includesVolume = true) ∧
      markers? (ofStem (n.contentName c)) = some ⟨"2", "10.5"⟩ ∧
      (extra.isOneShot = true ∧ n.disableOneShotSuffix = false) ∧
      markers? (ofStem (n.contentName extra)) = some ⟨"", ""⟩ := by
  intro n c extra
  have dotted : c.Dotted := ⟨by decide, by decide, by decide⟩
  have shown : c.volume ≠ "" ∧ n.includesVolume = true := by decide
  have single : extra.isOneShot = true ∧ n.disableOneShotSuffix = false := by decide
  obtain ⟨volume, hread, hvolume, -⟩ := (markers_contentName n c).1 dotted
  have trimmed : (Marker.trim c.volume, Marker.trim c.number) = ("2", "10.5") := by decide
  rw [hvolume shown, (Prod.mk.inj trimmed).1, (Prod.mk.inj trimmed).2] at hread
  exact ⟨dotted, shown, hread, single,
    (markers_contentName n extra).2 single.1 single.2 (by decide) (by decide)⟩

end Naming
end Longbox
