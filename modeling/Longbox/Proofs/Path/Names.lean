import Longbox.Naming
import Longbox.Page

/-! The names in a path.

A relative path put behind another adds its names at the end (`names_join`). The name of a page's file
has no slash in it and is one name. -/
namespace Longbox

namespace Path

theorem splitChars_ne_nil (sep : Char) (cs : List Char) : splitChars sep cs ≠ [] := by
  cases cs with
  | nil => simp [splitChars]
  | cons c rest =>
    unfold splitChars
    split
    · simp
    · split <;> simp

/-- A separator splits into the pieces before it and those after. -/
theorem splitChars_append (sep : Char) (a b : List Char) :
    splitChars sep (a ++ sep :: b) = splitChars sep a ++ splitChars sep b := by
  induction a with
  | nil => simp [splitChars]
  | cons c rest ih =>
    rw [List.cons_append, splitChars, splitChars]
    split
    · rw [ih]
      rfl
    · rw [ih]
      cases hs : splitChars sep rest with
      | nil => exact absurd hs (splitChars_ne_nil sep rest)
      | cons piece pieces => rfl

theorem splitChars_of_not_mem {sep : Char} {cs : List Char} (h : sep ∉ cs) :
    splitChars sep cs = [cs] := by
  induction cs with
  | nil => rfl
  | cons c rest ih =>
    have hc : (c == sep) = false := by
      rw [beq_eq_false_iff_ne]
      rintro rfl
      exact h (List.mem_cons_self ..)
    rw [splitChars, hc, ih fun hm => h (List.mem_cons_of_mem _ hm)]
    rfl

theorem not_mem_of_mem_splitChars {sep : Char} {cs piece : List Char}
    (h : piece ∈ splitChars sep cs) : sep ∉ piece := by
  induction cs generalizing piece with
  | nil =>
    rw [splitChars, List.mem_singleton] at h
    simp [h]
  | cons c rest ih =>
    rw [splitChars] at h
    split at h
    · rcases List.mem_cons.mp h with rfl | h
      · simp
      · exact ih h
    · rename_i hc
      have hc : sep ≠ c := fun he => hc (by simp [he])
      split at h
      · rw [List.mem_singleton] at h
        simp [h, hc]
      · rename_i first pieces hs
        rw [hs] at ih
        rcases List.mem_cons.mp h with rfl | h
        · simpa [hc] using ih (List.mem_cons_self ..)
        · exact ih (List.mem_cons_of_mem _ h)

/-- A path that goes down from where it is put behind. -/
structure Descends (path : String) : Prop where
  relative : isAbsolute path = false
  notUp : ".." ∉ Disk.pathNames path

/-- How a relative path is put behind another. -/
theorem join_cases {path : String} (base : String) (h : isAbsolute path = false) :
    base = "" ∧ join base path = path ∨
      (∃ front, base.toList = front ++ ['/'] ∧
        (join base path).toList = front ++ '/' :: path.toList) ∨
      base ≠ "" ∧ (join base path).toList = base.toList ++ '/' :: path.toList := by
  unfold join
  rw [h, if_neg (by decide)]
  by_cases hempty : base = ""
  · subst hempty
    exact .inl ⟨rfl, by simp⟩
  by_cases hslash : base.toList.getLast? = some '/'
  · obtain ⟨front, hfront⟩ := List.getLast?_eq_some_iff.mp hslash
    refine .inr (.inl ⟨front, hfront, ?_⟩)
    rw [if_pos (by simp [hslash]), String.toList_append, hfront, List.append_assoc]
    rfl
  · refine .inr (.inr ⟨hempty, ?_⟩)
    rw [if_neg (by simp [hslash, hempty]), String.toList_append, String.toList_append,
      List.append_assoc]
    rfl

theorem isAbsolute_join {path : String} (base : String) (h : isAbsolute path = false) :
    isAbsolute (join base path) = isAbsolute base := by
  rcases join_cases base h with ⟨rfl, hj⟩ | ⟨front, hb, hj⟩ | ⟨hne, hj⟩
  · rw [hj, h]
    rfl
  · unfold isAbsolute
    rw [hj, hb]
    cases front <;> rfl
  · unfold isAbsolute
    rw [hj]
    cases hb : base.toList with
    | nil => exact absurd (by simpa using hb) hne
    | cons c rest => rfl

/-- The names of all relative paths come behind those of the base, without the empty name that a slash
at the end of the base stands for. -/
theorem pathNames_join (base : String) : ∃ front,
    (Disk.pathNames base = front ∨ Disk.pathNames base = front ++ [""]) ∧
      ∀ path, isAbsolute path = false →
        Disk.pathNames (join base path) = front ++ Disk.pathNames path := by
  by_cases hempty : base = ""
  · subst hempty
    refine ⟨[], .inr rfl, fun path h => ?_⟩
    rw [join, h, if_neg (by decide), if_pos (by simp), String.empty_append, List.nil_append]
  by_cases hslash : base.toList.getLast? = some '/'
  · obtain ⟨front, hfront⟩ := List.getLast?_eq_some_iff.mp hslash
    refine ⟨(splitChars '/' front).map String.ofList, .inr ?_, fun path h => ?_⟩
    · rw [Disk.pathNames, hfront, splitChars_append, List.map_append]
      rfl
    · rw [join, h, if_neg (by decide), if_pos (by simp [hslash]), Disk.pathNames,
        String.toList_append, hfront, List.append_assoc, List.singleton_append, splitChars_append,
        List.map_append]
      rfl
  · refine ⟨Disk.pathNames base, .inl rfl, fun path h => ?_⟩
    rw [join, h, if_neg (by decide), if_neg (by simp [hslash, hempty]), Disk.pathNames,
      String.toList_append, String.toList_append, List.append_assoc]
    show (splitChars '/' (base.toList ++ '/' :: path.toList)).map String.ofList = _
    rw [splitChars_append, List.map_append]
    rfl

theorem names_join {path : String} (base : String) (h : isAbsolute path = false) :
    ∃ names, Disk.pathNames (join base path) = names ++ Disk.pathNames path ∧
      (Disk.pathNames base = names ∨ Disk.pathNames base = names ++ [""]) := by
  obtain ⟨names, hbase, hjoin⟩ := pathNames_join base
  exact ⟨names, hjoin path h, hbase⟩

theorem pathNames_ne_nil (path : String) : Disk.pathNames path ≠ [] := by
  simp [Disk.pathNames, splitChars_ne_nil]

/-- The names of a path are those that lead to a base, and then more that go down from there. -/
structure Below (base path : String) (front more : List String) : Prop where
  names : Disk.pathNames path = front ++ more
  start : Disk.pathNames base = front ∨ Disk.pathNames base = front ++ [""]
  notUp : ".." ∉ more
  absolute : isAbsolute path = isAbsolute base

theorem below_join {name : String} (base : String) (h : Descends name) :
    ∃ front more, Below base (join base name) front more ∧ more ≠ [] := by
  obtain ⟨front, hnames, hbase⟩ := names_join base h.relative
  exact ⟨front, Disk.pathNames name, ⟨hnames, hbase, h.notUp, isAbsolute_join base h.relative⟩,
    pathNames_ne_nil name⟩

/-- A path goes on down. The names that lead to it lose at most an empty one at their end. -/
theorem Below.join {base path name : String} {front more : List String} (h : Below base path front more)
    (hmore : more ≠ []) (hname : Descends name) :
    ∃ kept, Below base (join path name) front (kept ++ Disk.pathNames name) ∧
      (more = kept ∨ more = kept ++ [""]) := by
  obtain ⟨hnames, hbase, hup, habsolute⟩ := h
  obtain ⟨names, hjoin, hpath⟩ := names_join path hname.relative
  have absolute : isAbsolute (Path.join path name) = isAbsolute base := by
    rw [isAbsolute_join path hname.relative, habsolute]
  -- An empty name at the end of the path is the last one of those below the base.
  obtain ⟨kept, rfl, hkept⟩ : ∃ kept, names = front ++ kept ∧ (more = kept ∨ more = kept ++ [""]) := by
    rcases hpath with hpath | hpath
    · exact ⟨more, by rw [← hpath, hnames], .inl rfl⟩
    · obtain ⟨kept, last, rfl⟩ : ∃ kept last, more = kept ++ [last] :=
        ⟨_, _, (List.dropLast_concat_getLast hmore).symm⟩
      rw [hnames, ← List.append_assoc] at hpath
      obtain ⟨rfl, hlast⟩ := List.append_inj' hpath rfl
      exact ⟨kept, rfl, .inr (by rw [List.cons.inj hlast |>.1])⟩
  refine ⟨kept, ⟨?_, hbase, ?_, absolute⟩, hkept⟩
  · rw [hjoin, List.append_assoc]
  · rw [List.mem_append, not_or]
    refine ⟨fun hmem => hup ?_, hname.notUp⟩
    rcases hkept with rfl | rfl
    · exact hmem
    · exact List.mem_append_left _ hmem

theorem pathNames_of_not_mem {path : String} (h : '/' ∉ path.toList) :
    Disk.pathNames path = [path] := by
  rw [Disk.pathNames, splitChars_of_not_mem h]
  simp

theorem slash_not_mem_fileNameChars {path name : List Char} (h : fileNameChars? path = some name) :
    '/' ∉ name := by
  unfold fileNameChars? at h
  cases hlast : (components path).getLast? with
  | none => simp [hlast] at h
  | some last =>
    simp only [hlast] at h
    split at h
    · cases h
    · cases h
      have hmem : name ∈ components path := List.mem_of_getLast? hlast
      exact not_mem_of_mem_splitChars (List.mem_filter.mp hmem).1

theorem mem_of_mem_cut {name stem extension : List Char}
    (h : cutAtLastDot? name = some (stem, extension)) {c : Char} (hc : c ∈ extension) : c ∈ name := by
  unfold cutAtLastDot? at h
  split at h
  · cases h
  · cases h
    have := (List.takeWhile_sublist _).mem (List.mem_reverse.mp hc)
    exact List.mem_reverse.mp this

theorem slash_not_mem_extensionChars {path extension : List Char}
    (h : extensionChars? path = some extension) : '/' ∉ extension := by
  simp only [extensionChars?, Option.bind_eq_bind, Option.bind_eq_some_iff] at h
  obtain ⟨name, hname, ⟨stem, cut⟩, hcut, hif⟩ := h
  split at hif
  · cases hif
  · cases hif
    exact fun hmem => slash_not_mem_fileNameChars hname (mem_of_mem_cut hcut hmem)

end Path

/-! ### The names of page files -/

namespace Page

theorem eq_slash_of_toLower {c : Char} (h : c.toLower = '/') : c = '/' := by
  unfold Char.toLower at h
  split at h
  · rename_i hupper
    have hval := congrArg Char.val h
    have hlow := UInt32.le_iff_toNat_le.mp hupper.1
    have hhigh := UInt32.le_iff_toNat_le.mp hupper.2
    have := congrArg UInt32.toNat hval
    simp at this hlow hhigh
    omega
  · exact h

theorem slash_not_mem_extension (url : String) : '/' ∉ extension url := by
  have default : '/' ∉ defaultExtension := by decide
  unfold extension
  split
  · exact default
  · rename_i address _
    split
    · rename_i e he
      split
      · intro hmem
        obtain ⟨c, hc, hslash⟩ := List.mem_map.mp hmem
        rw [eq_slash_of_toLower hslash] at hc
        exact Path.slash_not_mem_extensionChars he hc
      · exact default
    · exact default

theorem toList_fileName (task : PageTask) : (fileName task).toList =
    ['p', 'a', 'g', 'e', ' '] ++ paddedIndex task.index ++ '.' :: extension task.url := by
  have label : "page ".toList = ['p', 'a', 'g', 'e', ' '] := by decide +kernel
  unfold fileName
  rw [String.toList_ofList, label]

theorem slash_not_mem_paddedIndex (index : Nat) : '/' ∉ paddedIndex index := by
  unfold paddedIndex
  rw [List.mem_append, not_or]
  constructor
  · intro h
    cases List.eq_of_mem_replicate h
  · intro h
    have digit : '/'.isDigit = true := Nat.isDigit_of_mem_toDigits (by decide) (by decide) h
    cases digit

theorem slash_not_mem_fileName (task : PageTask) : '/' ∉ (fileName task).toList := by
  rw [toList_fileName]
  simp only [List.mem_append, List.mem_cons, not_or]
  exact ⟨⟨by decide, slash_not_mem_paddedIndex task.index⟩, by decide,
    slash_not_mem_extension task.url⟩

theorem pathNames_fileName (task : PageTask) : Disk.pathNames (fileName task) = [fileName task] :=
  Path.pathNames_of_not_mem (slash_not_mem_fileName task)

theorem descends_fileName (task : PageTask) : Path.Descends (fileName task) where
  relative := by
    rw [Path.isAbsolute, toList_fileName]
    rfl
  notUp := by
    rw [pathNames_fileName, List.mem_singleton]
    intro hup
    have := toList_fileName task
    rw [← hup] at this
    cases this

end Page
end Longbox
