import Longbox.Proofs.Name.Reading
import Longbox.Proofs.Plan.Order

/-! Whether zeros in front of a catalog's markers make a difference to planning.

Markers are compared trimmed, but names of archives as they are, and a name shows how the catalog
writes a marker. `decide_respelled_iff` says when two spellings of one chapter are decided alike
whatever the archives record: the names must find archives for both or for neither, and archives that
one cannot tell apart. A chapter without a volume always is decided alike. -/
namespace Longbox
open Archive.Name (markers? ofStem isRunChar)

/-- Two spellings of a numbered chapter, with zeros in front or without. The digits can be of any
script. -/
structure Chapter.Respells (c c' : Chapter) : Prop where
  numbered : c.number ≠ ""
  run : ∀ ch ∈ c.number.toList, isRunChar ch = true
  run' : ∀ ch ∈ c'.number.toList, isRunChar ch = true
  number : Marker.trim c'.number = Marker.trim c.number
  volume : Marker.trim c'.volume = Marker.trim c.volume

namespace Chapter.Respells
variable {c c' : Chapter}

theorem numbered' (h : c.Respells c') : c'.number ≠ "" := by
  rw [ne_eq, ← Marker.trim_eq_empty, h.number, Marker.trim_eq_empty]
  exact h.numbered

theorem volume_eq_empty_iff (h : c.Respells c') : c'.volume = "" ↔ c.volume = "" := by
  rw [← Marker.trim_eq_empty, h.volume, Marker.trim_eq_empty]

theorem symm (h : c.Respells c') : c'.Respells c where
  numbered := h.numbered'
  run := h.run'
  run' := h.run
  number := h.number.symm
  volume := h.volume.symm

end Chapter.Respells

/-- The name of a chapter is read as that of another volume. -/
def Naming.Misleads (n : Naming) (c : Chapter) : Prop :=
  ∃ m, markers? (ofStem (n.contentName c)) = some m ∧ m.volume ≠ "" ∧ m.volume ≠ Marker.trim c.volume

namespace Planner
variable {β : Type} {p : Planner} {key : Archive → β} {c c' : Chapter} {a b : Archive}

/-- The archives carry the markers of their names. -/
def Scanned (p : Planner) : Prop :=
  ∀ a ∈ p.existing, markers? a.name = some ⟨a.volume, a.chapter⟩

instance (p : Planner) : Decidable p.Scanned :=
  inferInstanceAs (Decidable (∀ a ∈ p.existing, markers? a.name = some ⟨a.volume, a.chapter⟩))

/-- The planner with other volumes recorded in the archives. -/
def recording (p : Planner) (volumes : Archive → Option String) : Planner :=
  { p with embeddedVolume := volumes }

/-- Two chapters of one volume are matched with archives of one key at one path, or both with none. If
they have no volume, any two archives will do. -/
def MatchesAlike (p : Planner) (key : Archive → β) (c c' : Chapter) : Prop :=
  if c.volume = "" then (p.archiveOf? c').isSome = (p.archiveOf? c).isSome
  else (p.archiveOf? c').map (fun a => (key a, a.path)) =
    (p.archiveOf? c).map fun a => (key a, a.path)

/-- An archive of the chapter's number that is of its volume or of none. -/
def Carries (p : Planner) (c : Chapter) (a : Archive) : Prop :=
  a ∈ p.existing ∧ carries (Marker.trim c.volume) (Marker.trim c.number) a = true

/-! ### Decisions from what is matched -/

theorem decide_of_number (p : Planner) (h : c.number ≠ "") :
    p.decide c =
      if p.hasVolumeArchive c then .skip else (p.archiveOf? c).elim .download (p.verdict c) := by
  have hone : c.isOneShot = false := by simpa [Chapter.isOneShot] using h
  unfold decide
  cases p.hasVolumeArchive c with
  | true => rfl
  | false =>
    cases p.archiveOf? c with
    | none => simp [hone]
    | some a => rfl

/-- What is recorded in an archive makes a difference to its verdict only. -/
theorem decide_recording (volumes : Archive → Option String) (h : c.number ≠ "") :
    (p.recording volumes).decide c =
      if p.hasVolumeArchive c then .skip
      else (p.archiveOf? c).elim .download ((p.recording volumes).verdict c) :=
  decide_of_number _ h

theorem verdict_respelled (h : c.Respells c') : p.verdict c' = p.verdict c := by
  funext a
  have empty : c'.volume.isEmpty = c.volume.isEmpty := by
    rw [Bool.eq_iff_iff, String.isEmpty_iff, String.isEmpty_iff, h.volume_eq_empty_iff]
  rw [verdict, verdict, h.volume, empty]

/-- The empty text is no chapter's volume, so an archive that records it is superseded. -/
theorem verdict_of_recorded_empty (hv : c.volume ≠ "") (ha : p.embeddedVolume a = some "") :
    p.verdict c a = .replace a.path := by
  have other : (Marker.trim "" == Marker.trim c.volume) = false := by
    rw [beq_eq_false_iff_ne, Marker.trim_eq_empty.mpr rfl]
    exact fun h => hv (Marker.trim_eq_empty.mp h.symm)
  have some_volume : c.volume.isEmpty = false := by simpa using hv
  simp [verdict, ha, some_volume, other]

theorem verdict_of_recorded_own (ha : p.embeddedVolume a = some c.volume) :
    p.verdict c a = .skip := by
  simp [verdict, ha]

/-- A reader that goes by a key says one thing of two archives with one key. -/
theorem verdict_recording_congr (volumes : β → Option String) (hkey : key a = key b)
    (hpath : a.path = b.path) :
    (p.recording (volumes ∘ key)).verdict c a = (p.recording (volumes ∘ key)).verdict c b := by
  simp [verdict, recording, hkey, hpath]

theorem verdict_of_no_volume (hv : c.volume = "") : p.verdict c a = .skip := by
  simp [verdict, hv]

/-- With the empty text recorded everywhere, the decision tells where the archive is that a numbered
chapter is matched with. -/
theorem decide_recording_empty (h : c.number ≠ "") (hv : c.volume ≠ "") :
    (p.recording fun _ => some "").decide c =
      if p.hasVolumeArchive c then .skip
      else (p.archiveOf? c).elim .download fun a => .replace a.path := by
  have replaces : (p.recording fun _ => some "").verdict c = fun a => .replace a.path :=
    funext fun _ => verdict_of_recorded_empty hv rfl
  rw [decide_recording _ h, replaces]

theorem hasVolumeArchive_of_no_volume (hv : c.volume = "") : p.hasVolumeArchive c = false := by
  simp [hasVolumeArchive, hv]

theorem decide_of_no_volume (h : c.number ≠ "") (hv : c.volume = "") :
    p.decide c = if (p.archiveOf? c).isSome then .skip else .download := by
  rw [p.decide_of_number h, hasVolumeArchive_of_no_volume hv]
  cases p.archiveOf? c with
  | none => rfl
  | some a => exact verdict_of_no_volume hv

theorem decide_alike_of_matchesAlike (h : c.Respells c')
    (hcovered : p.hasVolumeArchive c' = p.hasVolumeArchive c)
    (halike : p.hasVolumeArchive c = false → p.MatchesAlike key c c')
    (volumes : β → Option String) :
    (p.recording (volumes ∘ key)).decide c' = (p.recording (volumes ∘ key)).decide c := by
  by_cases hv : c.volume = ""
  · have same := halike (hasVolumeArchive_of_no_volume hv)
    rw [MatchesAlike, if_pos hv] at same
    rw [decide_of_no_volume h.numbered hv,
      decide_of_no_volume h.numbered' (h.volume_eq_empty_iff.mpr hv)]
    exact congrArg (fun found => if found then Decision.skip else .download) same
  · rw [decide_recording _ h.numbered, decide_recording _ h.numbered', verdict_respelled h, hcovered]
    cases hcov : p.hasVolumeArchive c with
    | true => rfl
    | false =>
      have same := halike hcov
      rw [MatchesAlike, if_neg hv] at same
      cases ha : p.archiveOf? c <;> cases ha' : p.archiveOf? c' <;> simp only [ha, ha'] at same ⊢
      · cases same
      · cases same
      · obtain ⟨hkey, hpath⟩ := Prod.mk.inj (Option.some.inj same)
        exact verdict_recording_congr volumes hkey hpath

/-- Two archives that a reader can tell apart are told apart by what it can say of them. -/
theorem key_eq_of_decide_alike (h : c.Respells c') (hv : c.volume ≠ "")
    (hcov : p.hasVolumeArchive c = false) (hcov' : p.hasVolumeArchive c' = false)
    (ha : p.archiveOf? c = some a) (hb : p.archiveOf? c' = some b)
    (hall : ∀ volumes : β → Option String,
      (p.recording (volumes ∘ key)).decide c' = (p.recording (volumes ∘ key)).decide c) :
    key b = key a := by
  classical
  refine Decidable.byContradiction fun hkey => ?_
  let volumes : β → Option String := fun k => if k = key a then some "" else some c.volume
  have superseded : (p.recording (volumes ∘ key)).verdict c a = .replace a.path :=
    verdict_of_recorded_empty hv (if_pos rfl)
  have kept : (p.recording (volumes ∘ key)).verdict c b = .skip :=
    verdict_of_recorded_own (if_neg hkey)
  have same := hall volumes
  rw [decide_recording _ h.numbered, decide_recording _ h.numbered', hcov, hcov', ha, hb,
    verdict_respelled h] at same
  cases kept.symm.trans (same.trans superseded)

theorem paths_alike_of_decide_alike (h : c.Respells c') (hv : c.volume ≠ "")
    (same : (p.recording fun _ => some "").decide c' = (p.recording fun _ => some "").decide c) :
    p.hasVolumeArchive c' = p.hasVolumeArchive c ∧ (p.hasVolumeArchive c = false →
      (p.archiveOf? c').map Archive.path = (p.archiveOf? c).map Archive.path) := by
  have hv' := (not_congr h.volume_eq_empty_iff).mpr hv
  rw [decide_recording_empty h.numbered hv, decide_recording_empty h.numbered' hv'] at same
  cases hcov : p.hasVolumeArchive c <;> cases hcov' : p.hasVolumeArchive c' <;>
    cases ha : p.archiveOf? c <;> cases ha' : p.archiveOf? c' <;> simp_all

theorem matchesAlike_of_decide_alike (h : c.Respells c')
    (hall : ∀ volumes : β → Option String,
      (p.recording (volumes ∘ key)).decide c' = (p.recording (volumes ∘ key)).decide c) :
    p.hasVolumeArchive c' = p.hasVolumeArchive c ∧
      (p.hasVolumeArchive c = false → p.MatchesAlike key c c') := by
  have same : (p.recording fun _ => some "").decide c' = (p.recording fun _ => some "").decide c :=
    hall fun _ => some ""
  by_cases hv : c.volume = ""
  · have hv' := h.volume_eq_empty_iff.mpr hv
    refine ⟨by rw [hasVolumeArchive_of_no_volume hv, hasVolumeArchive_of_no_volume hv'], fun _ => ?_⟩
    rw [decide_of_no_volume h.numbered hv, decide_of_no_volume h.numbered' hv'] at same
    rw [MatchesAlike, if_pos hv]
    change (if (p.archiveOf? c').isSome then Decision.skip else .download) =
      if (p.archiveOf? c).isSome then Decision.skip else .download at same
    cases ha : (p.archiveOf? c).isSome <;> cases ha' : (p.archiveOf? c').isSome <;> simp_all
  · obtain ⟨hcovered, hpaths⟩ := paths_alike_of_decide_alike h hv same
    refine ⟨hcovered, fun hcov => ?_⟩
    have hpath := hpaths hcov
    rw [MatchesAlike, if_neg hv]
    cases ha : p.archiveOf? c <;> cases ha' : p.archiveOf? c' <;> simp only [ha, ha'] at hpath ⊢
    · cases hpath
    · cases hpath
    · have hkey := key_eq_of_decide_alike h hv hcov (hcovered.trans hcov) ha ha' hall
      exact congrArg some (Prod.ext hkey (Option.some.inj hpath))

/-! ### Archives by their names and by their markers -/

theorem archiveOf?_of_number (p : Planner) (h : c.number ≠ "") :
    p.archiveOf? c =
      (p.byName? (ofStem (p.naming.contentName c))).or (p.byMarkers? c.volume c.number) := by
  have hone : c.isOneShot = false := by simpa [Chapter.isOneShot] using h
  unfold archiveOf?
  rw [hone]
  cases p.byName? (ofStem (p.naming.contentName c)) <;> rfl

theorem byMarkers?_respelled (h : c.Respells c') :
    p.byMarkers? c'.volume c'.number = p.byMarkers? c.volume c.number := by
  rw [byMarkers?, byMarkers?, h.volume, h.number]

theorem Carries.respelled (h : c.Respells c') (ha : p.Carries c' a) : p.Carries c a := by
  rw [Carries, h.volume, h.number] at ha
  exact ha

/-- An archive with the chapter's name carries its number, and its volume or none unless the name is
read as another volume's. -/
theorem carries_of_byName? (hs : p.Scanned) (h : c.number ≠ "")
    (hrun : ∀ ch ∈ c.number.toList, isRunChar ch = true)
    (hname : c.volume = "" ∨ ¬ p.naming.Misleads c)
    (ha : p.byName? (ofStem (p.naming.contentName c)) = some a) : p.Carries c a := by
  have hmem : a ∈ p.existing := List.mem_of_find?_eq_some ha
  have named : a.name = ofStem (p.naming.contentName c) := by simpa using List.find?_some ha
  obtain ⟨volume, read⟩ := p.naming.exists_markers?_contentName h hrun
  have own := hs a hmem
  rw [named, read] at own
  obtain ⟨hvolume, hchapter⟩ := Archive.Markers.mk.inj (Option.some.inj own)
  refine ⟨hmem, ?_⟩
  rw [carries, ← hchapter, beq_self_eq_true, Bool.true_and]
  rcases hname with hv | hplain
  · simp [hv, Marker.trim_eq_empty.mpr]
  · have reads : a.volume = "" ∨ a.volume = Marker.trim c.volume := by
      refine Decidable.byContradiction fun hother => hplain ⟨_, read, ?_⟩
      rw [hvolume]
      exact not_or.mp hother
    rcases reads with hnone | hsame
    · simp [hnone]
    · simp [hsame]

theorem carries_of_byMarkers? (ha : p.byMarkers? c.volume c.number = some a) : p.Carries c a :=
  ⟨List.mem_of_find?_eq_some ha, List.find?_some ha⟩

theorem carries_of_archiveOf? (hs : p.Scanned) (h : c.number ≠ "")
    (hrun : ∀ ch ∈ c.number.toList, isRunChar ch = true)
    (hname : c.volume = "" ∨ ¬ p.naming.Misleads c) (ha : p.archiveOf? c = some a) :
    p.Carries c a := by
  rw [p.archiveOf?_of_number h, Option.or_eq_some_iff] at ha
  rcases ha with hnamed | ⟨-, hmarked⟩
  · exact carries_of_byName? hs h hrun hname hnamed
  · exact carries_of_byMarkers? hmarked

/-- A chapter that an archive carries is matched with one. -/
theorem isSome_archiveOf? (h : c.number ≠ "") (ha : p.Carries c a) :
    (p.archiveOf? c).isSome = true := by
  have marked : (p.byMarkers? c.volume c.number).isSome = true := by
    rw [byMarkers?, List.find?_isSome]
    exact ⟨a, ha⟩
  rw [p.archiveOf?_of_number h, Option.isSome_or, marked, Bool.or_true]

/-- What one spelling is matched with, the other carries, so it is matched with something too. -/
theorem isSome_archiveOf?_respelled (hs : p.Scanned) (h : c.Respells c')
    (hname : c.volume = "" ∨ ¬ p.naming.Misleads c) (hsome : (p.archiveOf? c).isSome = true) :
    (p.archiveOf? c').isSome = true := by
  obtain ⟨a, ha⟩ := Option.isSome_iff_exists.mp hsome
  exact isSome_archiveOf? h.numbered'
    ((carries_of_archiveOf? hs h.numbered h.run hname ha).respelled h.symm)

theorem matchesAlike_of_no_volume (hs : p.Scanned) (h : c.Respells c') (hv : c.volume = "") :
    p.MatchesAlike key c c' := by
  rw [MatchesAlike, if_pos hv, Bool.eq_iff_iff]
  exact ⟨isSome_archiveOf?_respelled hs h.symm (.inl (h.volume_eq_empty_iff.mpr hv)),
    isSome_archiveOf?_respelled hs h (.inl hv)⟩

theorem matchesAlike_of_name (h : c.Respells c')
    (hname : p.naming.contentName c' = p.naming.contentName c) : p.MatchesAlike key c c' := by
  have same : p.archiveOf? c' = p.archiveOf? c := by
    rw [p.archiveOf?_of_number h.numbered, p.archiveOf?_of_number h.numbered', hname,
      byMarkers?_respelled h]
  rw [MatchesAlike, same]
  split <;> rfl

theorem matchesAlike_of_oneArchive (hs : p.Scanned) (h : c.Respells c')
    (hname : ¬ p.naming.Misleads c) (hname' : ¬ p.naming.Misleads c')
    (hone : ∀ a b, p.Carries c a → p.Carries c b → key a = key b ∧ a.path = b.path) :
    p.MatchesAlike key c c' := by
  by_cases hv : c.volume = ""
  · exact matchesAlike_of_no_volume hs h hv
  rw [MatchesAlike, if_neg hv]
  have forth := isSome_archiveOf?_respelled hs h (.inr hname)
  have back := isSome_archiveOf?_respelled hs h.symm (.inr hname')
  cases ha : p.archiveOf? c with
  | none =>
    cases ha' : p.archiveOf? c' with
    | none => rfl
    | some b => simp [ha, ha'] at back
  | some a =>
    cases ha' : p.archiveOf? c' with
    | none => simp [ha, ha'] at forth
    | some b =>
      obtain ⟨hkey, hpath⟩ := hone b a
        ((carries_of_archiveOf? hs h.numbered' h.run' (.inr hname') ha').respelled h)
        (carries_of_archiveOf? hs h.numbered h.run (.inr hname) ha)
      exact congrArg some (Prod.ext hkey hpath)

/-- Two spellings of a chapter are decided alike, whatever is said to be recorded in archives by a key of
them, just if the archive of a whole volume is there for both or for neither, and where there is none,
both are matched with archives of one key at one path, or with none. The latter is so if they have no
volume, if they have one name, or if there is one such archive of the number at most and no name is
read as another volume's. Any reader goes by the archive itself, a reader of the file by the path. -/
theorem decide_respelled_iff (hs : p.Scanned) (h : c.Respells c') (key : Archive → β) :
    ((∀ volumes : β → Option String,
          (p.recording (volumes ∘ key)).decide c' = (p.recording (volumes ∘ key)).decide c) ↔
        p.hasVolumeArchive c' = p.hasVolumeArchive c ∧
          (p.hasVolumeArchive c = false → p.MatchesAlike key c c')) ∧
      (c.volume = "" ∨ p.naming.contentName c' = p.naming.contentName c ∨
          (¬ p.naming.Misleads c ∧ ¬ p.naming.Misleads c' ∧
            ∀ a b, p.Carries c a → p.Carries c b → key a = key b ∧ a.path = b.path) →
        p.MatchesAlike key c c') := by
  refine ⟨⟨matchesAlike_of_decide_alike h, fun ⟨hcovered, halike⟩ volumes => ?_⟩, ?_⟩
  · exact decide_alike_of_matchesAlike h hcovered halike volumes
  · rintro (hv | hname | ⟨hname, hname', hone⟩)
    · exact matchesAlike_of_no_volume hs h hv
    · exact matchesAlike_of_name h hname
    · exact matchesAlike_of_oneArchive hs h hname hname' hone

/-- An archive of a whole volume, and one of a chapter of another volume. -/
def paddedVolume : Planner where
  naming := Naming.ofConfig { downloadDir := "lib" } "T"
  existing :=
    [⟨"T Vol. 01.cbz", "lib/T/T Vol. 01.cbz", "1", ""⟩,
      ⟨"T Ch. 0005.cbz", "lib/T/T Vol. 2/T Ch. 0005.cbz", "", "5"⟩]
  embeddedVolume := fun _ => some "2"

theorem decide_respelled_iff_oneName :
    let c : Chapter := ⟨"a", "2", "5", ""⟩
    let c' : Chapter := ⟨"a", "02", "005", ""⟩
    paddedVolume.Scanned ∧ c.Respells c' ∧
      paddedVolume.naming.contentName c' = paddedVolume.naming.contentName c ∧
      paddedVolume.decide c' = paddedVolume.decide c := by
  intro c c'
  have scanned : paddedVolume.Scanned := by decide +kernel
  have run : c.number.toList.all isRunChar = true := by decide +kernel
  have run' : c'.number.toList.all isRunChar = true := by decide +kernel
  have respells : c.Respells c' :=
    ⟨by decide, List.all_eq_true.mp run, List.all_eq_true.mp run', by decide, by decide⟩
  have named : paddedVolume.naming.contentName c' = paddedVolume.naming.contentName c := by
    decide +kernel
  have covered : paddedVolume.hasVolumeArchive c' = paddedVolume.hasVolumeArchive c := by
    decide +kernel
  obtain ⟨exact_iff, alike⟩ := decide_respelled_iff scanned respells id
  exact ⟨scanned, respells, named,
    exact_iff.mpr ⟨covered, fun _ => alike (.inr (.inl named))⟩ paddedVolume.embeddedVolume⟩

/-- The volume's archive is found by the spelling in its name only. -/
theorem zero_before_volume_matters :
    let c : Chapter := ⟨"a", "01", "4", ""⟩
    let c' : Chapter := ⟨"a", "1", "4", ""⟩
    paddedVolume.Scanned ∧ c.Dotted ∧ c'.Dotted ∧ c.title = c'.title ∧
      Marker.trim c'.number = Marker.trim c.number ∧ Marker.trim c'.volume = Marker.trim c.volume ∧
      c.volume ≠ "" ∧ c'.volume ≠ "" ∧
      paddedVolume.decide c = .skip ∧ paddedVolume.decide c' = .download := by
  intro c c'
  have scanned : paddedVolume.Scanned := by decide +kernel
  exact ⟨scanned, ⟨by decide, by decide, by decide⟩, ⟨by decide, by decide, by decide⟩, rfl,
    by decide, by decide, by decide, by decide, by decide +kernel, by decide +kernel⟩

end Planner
end Longbox
