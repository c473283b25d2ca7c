import Longbox.Disk.Change
import Longbox.Proofs.Name.Marker
import Longbox.Proofs.Path.Names

/-! Whether the path of a chapter stays below the series.

`Path.resolve` takes the dots out of a path without looking at any disk. What a catalog says of a
chapter is put into its path as it is: `contentPath_below_iff` says that the path leads from the series'
directory through the names of the layout just if no slash comes in with it. -/
namespace Longbox

namespace Path

/-- Goes on to a component; `..` takes the last one back. The last component comes first. -/
def descend (absolute : Bool) (behind : List (List Char)) (name : List Char) : List (List Char) :=
  if name = ['.', '.'] then
    match behind with
    | [] => if absolute then [] else [name]
    | last :: front => if last = ['.', '.'] then name :: behind else front
  else name :: behind

/-- The components of a path without single dots, and without `..` where there is one to take back. -/
def resolve (path : String) : List String :=
  ((components path.toList).foldl (descend (isAbsolute path)) []).reverse.map String.ofList

/-- A text is one component, and stands for itself. -/
structure IsPlain (name : String) : Prop where
  noSlash : '/' ∉ name.toList
  notEmpty : name ≠ ""
  notDot : name ≠ "."
  notUp : name ≠ ".."

/-- A text without separators goes to the first piece. -/
theorem splitChars_append_of_not_mem {sep : Char} {front : List Char} (h : sep ∉ front)
    (rest : List Char) :
    ∃ piece pieces, splitChars sep (front ++ rest) = (front ++ piece) :: pieces := by
  induction front with
  | nil =>
    cases hs : splitChars sep rest with
    | nil => exact absurd hs (splitChars_ne_nil sep rest)
    | cons piece pieces => exact ⟨piece, pieces, hs⟩
  | cons c front ih =>
    rw [List.mem_cons, not_or] at h
    obtain ⟨piece, pieces, hs⟩ := ih h.2
    refine ⟨piece, pieces, ?_⟩
    rw [List.cons_append, splitChars, hs, if_neg (by simpa using Ne.symm h.1)]
    rfl

/-- With a blank in it, a text is more than dots. -/
theorem isPlain_of_blank {name : String} (hb : ' ' ∈ name.toList) (hs : '/' ∉ name.toList) :
    IsPlain name where
  noSlash := hs
  notEmpty := by rintro rfl; simp at hb
  notDot := by rintro rfl; simp at hb
  notUp := by rintro rfl; simp at hb

theorem components_append (a b : List Char) :
    components (a ++ '/' :: b) = components a ++ components b := by
  rw [components, splitChars_append, List.filter_append]
  rfl

theorem components_join {path : String} (base : String) (h : isAbsolute path = false) :
    components (join base path).toList = components base.toList ++ components path.toList := by
  rcases join_cases base h with ⟨rfl, hj⟩ | ⟨front, hb, hj⟩ | ⟨-, hj⟩
  · rw [hj]
    rfl
  · have hempty : components [] = [] := rfl
    rw [hj, hb, components_append, components_append, hempty, List.append_nil]
  · rw [hj, components_append]

theorem IsPlain.components_eq {name : String} (h : IsPlain name) :
    components name.toList = [name.toList] := by
  have hempty : name.toList.isEmpty = false := by
    simpa using h.notEmpty
  have hdot : (name.toList != ['.']) = true := by
    rw [bne_iff_ne]
    exact fun hd => h.notDot (String.ext hd)
  rw [components, splitChars_of_not_mem h.noSlash]
  simp only [List.filter_cons, hempty, hdot, Bool.not_false, Bool.and_self, if_true, List.filter_nil]

theorem components_of_blank {name : List Char} (hb : ' ' ∈ name) (hs : '/' ∉ name) :
    components name = [name] := by
  have plain : IsPlain (String.ofList name) := isPlain_of_blank (by simpa using hb) (by simpa using hs)
  simpa using plain.components_eq

theorem descend_of_ne_up {absolute : Bool} {behind : List (List Char)} {name : List Char}
    (h : name ≠ ['.', '.']) : descend absolute behind name = name :: behind :=
  if_neg h

/-- Components that do not lead up come behind the others. -/
theorem foldl_descend (absolute : Bool) (behind : List (List Char)) {names : List (List Char)}
    (h : ['.', '.'] ∉ names) : names.foldl (descend absolute) behind = names.reverse ++ behind := by
  induction names generalizing behind with
  | nil => rfl
  | cons name rest ih =>
    rw [List.mem_cons, not_or] at h
    obtain ⟨hname, hrest⟩ := h
    rw [List.foldl_cons, descend_of_ne_up (Ne.symm hname), ih _ hrest]
    simp

theorem resolve_join {path : String} (base : String) (ha : isAbsolute path = false)
    (hu : ['.', '.'] ∉ components path.toList) :
    resolve (join base path) =
      resolve base ++ (components path.toList).map String.ofList := by
  unfold resolve
  rw [components_join base ha, isAbsolute_join base ha, List.foldl_append, foldl_descend _ _ hu]
  simp

theorem IsPlain.isAbsolute_eq {name : String} (h : IsPlain name) : isAbsolute name = false := by
  rw [isAbsolute, beq_eq_false_iff_ne]
  exact fun hhead => h.noSlash (List.mem_of_head? hhead)

theorem IsPlain.up_not_mem {name : String} (h : IsPlain name) :
    ['.', '.'] ∉ components name.toList := by
  rw [h.components_eq, List.mem_singleton]
  exact fun hup => h.notUp (String.ext hup.symm)

/-- A plain component comes behind what the base resolves to. -/
theorem IsPlain.resolve_join {name : String} (h : IsPlain name) (base : String) :
    resolve (join base name) = resolve base ++ [name] := by
  rw [Path.resolve_join base h.isAbsolute_eq h.up_not_mem, h.components_eq]
  simp

theorem mem_of_mem_foldl_descend {absolute : Bool} {names behind : List (List Char)}
    {name : List Char} (h : name ∈ names.foldl (descend absolute) behind) :
    name ∈ names ∨ name ∈ behind := by
  induction names generalizing behind with
  | nil => exact .inr h
  | cons first rest ih =>
    rcases ih h with h | h
    · exact .inl (List.mem_cons_of_mem _ h)
    · unfold descend at h
      split at h
      · split at h
        · split at h
          · cases h
          · exact .inl (List.mem_singleton.mp h ▸ List.mem_cons_self ..)
        · split at h
          · rcases List.mem_cons.mp h with rfl | h
            · exact .inl (List.mem_cons_self ..)
            · exact .inr h
          · exact .inr (List.mem_cons_of_mem _ h)
      · rcases List.mem_cons.mp h with rfl | h
        · exact .inl (List.mem_cons_self ..)
        · exact .inr h

theorem slash_not_mem_resolve {path name : String} (h : name ∈ resolve path) :
    '/' ∉ name.toList := by
  obtain ⟨component, hc, rfl⟩ := List.mem_map.mp h
  have hc := (mem_of_mem_foldl_descend (List.mem_reverse.mp hc)).resolve_right List.not_mem_nil
  rw [String.toList_ofList]
  exact not_mem_of_mem_splitChars (List.mem_filter.mp hc).1

end Path

namespace Naming
variable {n : Naming} {c : Chapter}

/-- The names that the layout has for a chapter below the series' directory. -/
def layout (n : Naming) (c : Chapter) : List String :=
  (if !c.volume.isEmpty && !n.disableVolumeDirs then [n.volumeDir c.volume] else []) ++
    [n.contentName c]

/-- What the catalog says of a chapter that goes into its path. -/
def spliced (n : Naming) (c : Chapter) : List String :=
  (if !c.volume.isEmpty && (!n.disableVolumeDirs || !c.isOneShot) then [c.volume] else []) ++
    [if c.isOneShot then c.title else c.number]

theorem slash_mem_paddedNumber {number : String} :
    '/' ∈ (paddedNumber number).toList ↔ '/' ∈ number.toList := by
  obtain ⟨zeros, hpadded⟩ := toList_paddedNumber number
  simp [hpadded, List.mem_replicate]

theorem slash_mem_volumeDir (ht : '/' ∉ n.title.toList) {volume : String} :
    '/' ∈ (n.volumeDir volume).toList ↔ '/' ∈ volume.toList := by
  simp [volumeDir, ht]

theorem slash_mem_contentName (ht : '/' ∉ n.title.toList) :
    '/' ∈ (n.contentName c).toList ↔
      (c.isOneShot = false ∧ (!c.volume.isEmpty && n.includesVolume) = true ∧ '/' ∈ c.volume.toList) ∨
        '/' ∈ (if c.isOneShot then c.title else c.number).toList := by
  have volume : '/' ∉ " Vol. ".toList := by decide +kernel
  have chapter : '/' ∉ " Ch. ".toList := by decide +kernel
  unfold contentName
  cases c.isOneShot with
  | true =>
    cases hd : n.disableOneShotSuffix <;> simp [oneShotName, ht, hd]
  | false =>
    by_cases hv : (!c.volume.isEmpty && n.includesVolume) = true
    · simp only [Bool.false_eq_true, if_false, chapterName, hv, if_true, String.toList_append,
        List.mem_append, ht, volume, chapter, slash_mem_paddedNumber, false_or, or_false, true_and]
    · simp only [Bool.false_eq_true, if_false, chapterName, hv, String.toList_append, List.mem_append,
        ht, chapter, slash_mem_paddedNumber, false_or, or_false, true_and, false_and]
      simp

/-- All names of a series begin with its title and a blank. -/
theorem exists_toList_contentName (n : Naming) (c : Chapter) :
    ∃ rest, (n.contentName c).toList = n.title.toList ++ ' ' :: rest := by
  have blank : " ".toList = [' '] := rfl
  have volume : " Vol. ".toList = ' ' :: "Vol. ".toList := rfl
  have chapter : " Ch. ".toList = ' ' :: "Ch. ".toList := rfl
  unfold contentName
  split
  · simp only [oneShotName, String.toList_append, blank, List.append_assoc, List.singleton_append]
    exact ⟨_, rfl⟩
  · unfold chapterName
    split
    · simp only [String.toList_append, volume, List.append_assoc, List.cons_append]
      exact ⟨_, rfl⟩
    · simp only [String.toList_append, chapter, String.toList_empty, List.append_nil,
        List.append_assoc, List.cons_append]
      exact ⟨_, rfl⟩

theorem exists_toList_volumeDir (n : Naming) (volume : String) :
    ∃ rest, (n.volumeDir volume).toList = n.title.toList ++ ' ' :: rest := by
  have label : " Vol. ".toList = ' ' :: "Vol. ".toList := rfl
  simp only [volumeDir, String.toList_append, label, List.append_assoc, List.cons_append]
  exact ⟨_, rfl⟩

theorem mem_layout {name : String} (h : name ∈ n.layout c) :
    ∃ rest, name.toList = n.title.toList ++ ' ' :: rest := by
  unfold layout at h
  rcases List.mem_append.mp h with h | h
  · split at h
    · rw [List.mem_singleton.mp h]
      exact n.exists_toList_volumeDir _
    · cases h
  · rw [List.mem_singleton.mp h]
    exact n.exists_toList_contentName c

/-- The names stand behind any base if the title does. -/
theorem isAbsolute_of_mem_layout (ht : Path.isAbsolute n.title = false) {name : String}
    (h : name ∈ n.layout c) : Path.isAbsolute name = false := by
  obtain ⟨rest, hrest⟩ := mem_layout h
  unfold Path.isAbsolute at ht ⊢
  rw [hrest]
  cases hn : n.title.toList with
  | nil => rfl
  | cons first more => rwa [hn] at ht

theorem slash_free_layout_iff (ht : '/' ∉ n.title.toList) :
    (∀ name ∈ n.layout c, '/' ∉ name.toList) ↔ ∀ text ∈ n.spliced c, '/' ∉ text.toList := by
  unfold layout spliced
  simp only [List.forall_mem_append, List.forall_mem_singleton, slash_mem_contentName ht, includesVolume]
  by_cases hv : c.volume = "" <;> cases n.disableVolumeDirs <;> cases c.isOneShot <;>
    simp [hv, slash_mem_volumeDir ht]
  -- What is left is the volume that both the directory and the name show.
  exact fun h _ _ => h

theorem isPlain_of_mem_layout {name : String} (h : name ∈ n.layout c) (hs : '/' ∉ name.toList) :
    Path.IsPlain name := by
  obtain ⟨rest, hrest⟩ := mem_layout h
  exact Path.isPlain_of_blank (by simp [hrest]) hs

theorem resolve_contentPath (hs : ∀ name ∈ n.layout c, '/' ∉ name.toList) :
    Path.resolve (n.contentPath c) = Path.resolve n.seriesDir ++ n.layout c := by
  have plain : ∀ name ∈ n.layout c, Path.IsPlain name := fun name h =>
    isPlain_of_mem_layout h (hs name h)
  unfold layout at plain ⊢
  unfold contentPath parentDir
  rw [(plain _ (List.mem_append_right _ (List.mem_singleton_self _))).resolve_join]
  split
  · rename_i hv
    have volume := plain (n.volumeDir c.volume) (by simp only [hv, if_true]; simp)
    rw [volume.resolve_join, List.append_assoc]
  · rfl

/-- The first component of a name of the series begins with the title. -/
theorem components_ne_nil (ht : Path.IsPlain n.title) {name : String} (h : name ∈ n.layout c) :
    Path.isAbsolute name = false ∧ Path.components name.toList ≠ [] := by
  obtain ⟨rest, hrest⟩ := mem_layout h
  obtain ⟨piece, pieces, hsplit⟩ :
      ∃ piece pieces, Path.splitChars '/' name.toList = (n.title.toList ++ ' ' :: piece) :: pieces := by
    have front : '/' ∉ n.title.toList ++ [' '] := by simp [ht.noSlash]
    rw [hrest, show n.title.toList ++ ' ' :: rest = (n.title.toList ++ [' ']) ++ rest by simp]
    obtain ⟨piece, pieces, h⟩ := Path.splitChars_append_of_not_mem front rest
    exact ⟨piece, pieces, by rw [h]; simp⟩
  constructor
  · exact isAbsolute_of_mem_layout ht.isAbsolute_eq h
  · rw [Path.components, hsplit, List.filter_cons_of_pos]
    · exact List.cons_ne_nil _ _
    · rw [Bool.and_eq_true, bne_iff_ne]
      refine ⟨by simp, fun hdot => ?_⟩
      have : ' ' ∈ ['.'] := hdot ▸ by simp
      cases this with
      | tail _ h => cases h

/-- Where no component of the names leads up, a path stays below the series. -/
theorem resolve_contentPath_below (ht : Path.IsPlain n.title)
    (hu : ∀ name ∈ n.layout c, ['.', '.'] ∉ Path.components name.toList) :
    ∃ names, names ≠ [] ∧ Path.resolve (n.contentPath c) = Path.resolve n.seriesDir ++ names := by
  have step (base name : String) (h : name ∈ n.layout c) :
      Path.resolve (Path.join base name) =
        Path.resolve base ++ (Path.components name.toList).map String.ofList :=
    Path.resolve_join base (components_ne_nil ht h).1 (hu name h)
  have last : n.contentName c ∈ n.layout c := List.mem_append_right _ (List.mem_singleton_self _)
  have named : (Path.components (n.contentName c).toList).map String.ofList ≠ [] := by
    simpa using (components_ne_nil ht last).2
  unfold contentPath parentDir
  rw [step _ _ last]
  split
  · rename_i hv
    rw [step _ _ (by unfold layout; simp only [hv, if_true]; simp), List.append_assoc]
    exact ⟨_, by simpa using fun _ => named, rfl⟩
  · exact ⟨_, named, rfl⟩

/-- With a plain title, the path of a chapter leads from the series' directory through a directory of its
volume, if there are such, to its own name just if no slash comes in with the chapter; it then is one
or two components below the series. As long as nothing leads up it is below the series anyway. -/
theorem contentPath_below_iff (n : Naming) (c : Chapter) (ht : Path.IsPlain n.title) :
    (Path.resolve (n.contentPath c) = Path.resolve n.seriesDir ++ n.layout c ↔
        ∀ text ∈ n.spliced c, '/' ∉ text.toList) ∧
      ((n.layout c).length = 1 ∨ (n.layout c).length = 2) ∧
      ((∀ name ∈ n.layout c, ['.', '.'] ∉ Path.components name.toList) →
        ∃ names, names ≠ [] ∧
          Path.resolve (n.contentPath c) = Path.resolve n.seriesDir ++ names) := by
  refine ⟨?_, ?_, resolve_contentPath_below ht⟩
  · rw [← slash_free_layout_iff ht.noSlash]
    refine ⟨fun heq name hname => ?_, resolve_contentPath⟩
    exact Path.slash_not_mem_resolve (heq ▸ List.mem_append_right _ hname)
  · unfold layout
    split
    · exact .inr rfl
    · exact .inl rfl

theorem contentPath_below_iff_halfChapter :
    Path.IsPlain "T" ∧
      Path.resolve ((ofConfig { downloadDir := "lib" } "T").contentPath ⟨"a", "2", "3.5", ""⟩) =
        ["lib", "T", "T Vol. 2", "T Ch. 0003.5"] := by
  have plain : Path.IsPlain "T" :=
    ⟨by decide +kernel, by decide +kernel, by decide +kernel, by decide +kernel⟩
  have below :=
    (contentPath_below_iff (ofConfig { downloadDir := "lib" } "T") ⟨"a", "2", "3.5", ""⟩ plain).1.mpr
      (by decide +kernel)
  have names : Path.resolve (ofConfig { downloadDir := "lib" } "T").seriesDir ++
      (ofConfig { downloadDir := "lib" } "T").layout ⟨"a", "2", "3.5", ""⟩ =
        ["lib", "T", "T Vol. 2", "T Ch. 0003.5"] := by
    decide +kernel
  exact ⟨plain, below.trans names⟩

/-- A chapter `x/../../other` lives beside the series: its directory can be one that holds something
else, and taking the chapter back takes that away. -/
theorem slashed_chapter_escapes :
    let n := ofConfig { downloadDir := "lib" } "T"
    let c : Chapter := ⟨"a", "", "x/../../other", ""⟩
    let kept : Place := ["work", "lib", "other", "keep.txt"]
    let shelf : Disk :=
      { entries := [(["work"], .directory), (["work", "lib"], .directory),
          (["work", "lib", "other"], .directory), (kept, .file ⟨#[107]⟩)] }
    let made := shelf.makeAll (n.contentPath c)
    Path.resolve n.seriesDir = ["lib", "T"] ∧ Path.resolve (n.contentPath c) = ["lib", "other"] ∧
      made.2 = none ∧ made.1.entryAt? kept = some (.file ⟨#[107]⟩) ∧
        (made.1.removeAll (n.contentPath c)).fault = none ∧
          (made.1.removeAll (n.contentPath c)).disk.entryAt? kept = none := by
  decide +kernel

end Naming
end Longbox
