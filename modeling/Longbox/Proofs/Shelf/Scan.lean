import Longbox.Proofs.Shelf.Walk

/-! What a scan lists.

A scan fails only at a link that leads nowhere or back (`visit_eq_none_iff`). If it meets none, it lists
every file that the names lead to and the test accepts (`mem_visit_iff`), each path once
(`nodup_visit`). -/
namespace Longbox

namespace Path

variable {names : List String}

/-- Names put behind a path one by one are the path's last components. -/
theorem components_foldl_join (base : String) (h : ∀ name ∈ names, IsPlain name) :
    components (names.foldl join base).toList = components base.toList ++ names.map String.toList := by
  induction names generalizing base with
  | nil => simp
  | cons name rest ih =>
    rw [List.forall_mem_cons] at h
    rw [List.foldl_cons, ih _ h.2, components_join base h.1.isAbsolute_eq, h.1.components_eq]
    simp

/-- Every relative path is put behind the same text. -/
theorem join_eq_append (base : String) :
    ∃ front, ∀ path, isAbsolute path = false → join base path = front ++ path := by
  by_cases hb : (base.toList.isEmpty || base.toList.getLast? == some '/') = true
  · exact ⟨base, fun path hp => by rw [join, hp, if_neg (by decide), if_pos hb]⟩
  · exact ⟨base ++ "/", fun path hp => by rw [join, hp, if_neg (by decide), if_neg hb]⟩

theorem IsPlain.isAbsolute_append {name : String} (h : IsPlain name) (rest : String) :
    isAbsolute (name ++ rest) = false := by
  have := h.isAbsolute_eq
  unfold isAbsolute at this ⊢
  rwa [String.toList_append, List.head?_append_of_ne_nil _ (by simpa using h.notEmpty)]

/-- A name does not end in a slash, so that one comes behind it. -/
theorem IsPlain.join_join {name path : String} (h : IsPlain name) (base : String)
    (hp : isAbsolute path = false) : join (join base name) path = join base (name ++ "/" ++ path) := by
  obtain ⟨front, hfront⟩ := join_eq_append base
  have noSlash : ((front ++ name).toList.isEmpty ||
      (front ++ name).toList.getLast? == some '/') = false := by
    rw [Bool.or_eq_false_iff, beq_eq_false_iff_ne, String.toList_append,
      List.getLast?_append_of_ne_nil _ (by simpa using h.notEmpty)]
    exact ⟨by simp [h.notEmpty], fun hl => h.noSlash (List.mem_of_getLast? hl)⟩
  rw [hfront name h.isAbsolute_eq, hfront _ (by rw [String.append_assoc]; exact h.isAbsolute_append _),
    join, hp, if_neg (by decide), noSlash, if_neg (by decide)]
  simp only [String.append_assoc]

/-- Names put behind a path one by one make up a relative path that is put behind it. -/
theorem foldl_join_eq (base : String) (hne : names ≠ []) (h : ∀ name ∈ names, IsPlain name) :
    names.foldl join base = join base ("/".intercalate names) ∧
      isAbsolute ("/".intercalate names) = false := by
  induction names generalizing base with
  | nil => exact absurd rfl hne
  | cons name rest ih =>
    rw [List.forall_mem_cons] at h
    cases rest with
    | nil =>
      rw [String.intercalate_singleton]
      exact ⟨rfl, h.1.isAbsolute_eq⟩
    | cons next rest =>
      obtain ⟨hfold, hrelative⟩ := ih (join base name) (List.cons_ne_nil _ _) h.2
      rw [List.foldl_cons, hfold, h.1.join_join base hrelative, String.intercalate_cons_cons]
      exact ⟨rfl, by rw [String.append_assoc]; exact h.1.isAbsolute_append _⟩

end Path

namespace Shelf

open Disk

variable {d : Disk} {inside : List Place} {dir place : Place} {name : String} {names : List String}
  {entry : Entry}

/-! ### What the scan does at one name -/

variable {accepts : String → Option Archive.Markers}
  {enter : List Place → Place → String → Option (List Archive)} {path : String}

/-- What a scan of a directory does with one of its names. -/
def visitChild (d : Disk) (accepts : String → Option Archive.Markers)
    (enter : List Place → Place → String → Option (List Archive)) (inside : List Place)
    (dir : Place) (path : String) (child : String × Entry) : Option (List Archive) :=
  match target d dir child.1 child.2 with
  | some (place, .directory) =>
    if child.2 != .directory && inside.contains place then none
    else enter (place :: inside) place (Path.join path child.1)
  | some (_, .file _) => some (archive? accepts child.1 (Path.join path child.1)).toList
  | _ => none

theorem visitChildren_cons (child : String × Entry) (rest : List (String × Entry)) :
    visitChildren d accepts enter inside dir path (child :: rest) =
      (visitChild d accepts enter inside dir path child).bind fun here =>
        (visitChildren d accepts enter inside dir path rest).bind fun others =>
          some (here ++ others) := by
  rw [visitChildren, visitChild]
  rcases target d dir child.1 child.2 with _ | ⟨place, _ | bytes | link⟩
  · rfl
  · dsimp only
    split <;> rfl
  · rfl
  · rfl

theorem Denotes.target_eq {entry' : Entry} (h : Denotes d dir name place entry)
    (he : d.entryAt? (dir ++ [name]) = some entry') :
    target d dir name entry' = some (place, entry) := by
  cases h with
  | itself he' hl =>
    rw [he'] at he
    cases he
    unfold target
    split
    · rename_i target
      exact absurd rfl (hl target)
    · rfl
  | linked he' hw =>
    rw [he'] at he
    cases he
    rw [target, walk_eq_iff.mpr hw]

theorem denotes_of_target {entry' : Entry} (he : d.entryAt? (dir ++ [name]) = some entry')
    (h : target d dir name entry' = some (place, entry)) (hl : ∀ target, entry ≠ .link target) :
    Denotes d dir name place entry := by
  unfold target at h
  split at h
  · split at h
    · rename_i hw
      cases h
      exact .linked he (walk_eq_iff.mp hw) hl
    · cases h
  · cases h
    exact .itself he hl

theorem visitChild_of_denotes_file {bytes : ByteArray} (h : Denotes d dir name place (.file bytes))
    (he : d.entryAt? (dir ++ [name]) = some entry) :
    visitChild d accepts enter inside dir path (name, entry) =
      some (archive? accepts name (Path.join path name)).toList := by
  rw [visitChild, h.target_eq he]

theorem visitChild_of_steps (h : Steps d inside dir name place)
    (he : d.entryAt? (dir ++ [name]) = some entry) :
    visitChild d accepts enter inside dir path (name, entry) =
      enter (place :: inside) place (Path.join path name) := by
  rw [visitChild, h.denotes.target_eq he]
  cases h with
  | down he' =>
    rw [he'] at he
    cases he
    rfl
  | across _ _ hi => simp [hi]

theorem visitChild_of_snag (h : Snag d inside dir name)
    (he : d.entryAt? (dir ++ [name]) = some entry) :
    visitChild d accepts enter inside dir path (name, entry) = none := by
  cases h with
  | dangling _ h =>
    unfold visitChild
    split
    · rename_i ht
      exact absurd (denotes_of_target he ht nofun) (h _ _)
    · rename_i ht
      exact absurd (denotes_of_target he ht nofun) (h _ _)
    · rfl
  | returning he' h hi =>
    rw [he'] at he
    cases he
    rw [visitChild, h.target_eq he']
    simp [hi]

/-- A scan enters a directory, finds a file, or fails at each name. -/
theorem child_cases (he : d.entryAt? (dir ++ [name]) = some entry) (inside : List Place) :
    Snag d inside dir name ∨ (∃ place, Steps d inside dir name place) ∨
      ∃ place bytes, Denotes d dir name place (.file bytes) := by
  by_cases hden : ∃ place entry, Denotes d dir name place entry
  · obtain ⟨place, entry', h⟩ := hden
    cases entry' with
    | directory =>
      rcases h.steps_or_snag inside with h | h
      · exact .inr (.inl ⟨_, h⟩)
      · exact .inl h
    | file bytes => exact .inr (.inr ⟨_, _, h⟩)
    | link target => cases h with
      | itself _ hl | linked _ _ hl => exact absurd rfl (hl target)
  · push Not at hden
    cases entry with
    | link target => exact .inl (.dangling he hden)
    | directory => exact absurd (.itself he nofun) (hden _ _)
    | file bytes => exact absurd (.itself he nofun) (hden _ _)

/-! ### All names of a directory -/

theorem visitChildren_eq_none_iff {children : List (String × Entry)} :
    visitChildren d accepts enter inside dir path children = none ↔
      ∃ child ∈ children, visitChild d accepts enter inside dir path child = none := by
  induction children with
  | nil => simp [visitChildren]
  | cons child rest ih =>
    simp only [visitChildren_cons, List.mem_cons, exists_eq_or_imp, ← ih]
    cases visitChild d accepts enter inside dir path child with
    | none => simp
    | some here => cases visitChildren d accepts enter inside dir path rest <;> simp

theorem mem_visitChildren_iff {children : List (String × Entry)} {found : List Archive} {a : Archive}
    (h : visitChildren d accepts enter inside dir path children = some found) :
    a ∈ found ↔ ∃ child ∈ children, ∃ here,
      visitChild d accepts enter inside dir path child = some here ∧ a ∈ here := by
  induction children generalizing found with
  | nil =>
    cases h
    simp
  | cons child rest ih =>
    rw [visitChildren_cons] at h
    simp only [Option.bind_eq_some_iff, Option.some.injEq] at h
    obtain ⟨here, hhere, others, hothers, rfl⟩ := h
    simp only [List.mem_append, ih hothers, List.mem_cons, exists_eq_or_imp, hhere, Option.some.injEq,
      exists_eq_left']

/-! ### The scan of a directory -/

/-- Deep enough, a scan fails just at a link that leads nowhere or back. -/
theorem visit_eq_none_iff (hd : d.IsTree) {depth : Nat} (h : toil d inside dir < depth) :
    visit d accepts depth inside dir path = none ↔ Obstructed d inside dir := by
  induction depth generalizing inside dir path with
  | zero => omega
  | succ depth ih =>
    have deeper {name : String} {place : Place} (hs : Steps d inside dir name place) (path : String) :
        visit d accepts depth (place :: inside) place path = none ↔
          Obstructed d (place :: inside) place :=
      ih (Nat.lt_of_lt_of_le hs.toil_lt (Nat.le_of_lt_succ h))
    rw [visit, visitChildren_eq_none_iff]
    constructor
    · rintro ⟨⟨name, entry⟩, hmem, hnone⟩
      have he := hd.mem_children_iff.mp hmem
      rcases child_cases he inside with hs | ⟨place, hs⟩ | ⟨place, bytes, hf⟩
      · exact ⟨[], inside, dir, name, .here _ _, hs⟩
      · rw [visitChild_of_steps hs he] at hnone
        obtain ⟨names, inside', dir', last, hwalk, hsnag⟩ := (deeper hs _).mp hnone
        exact ⟨name :: names, inside', dir', last, .step hs hwalk, hsnag⟩
      · rw [visitChild_of_denotes_file hf he] at hnone
        cases hnone
    · rintro ⟨names, inside', dir', name, hwalk, hsnag⟩
      cases hwalk with
      | here =>
        obtain ⟨entry, he⟩ : ∃ entry, d.entryAt? (dir ++ [name]) = some entry := by
          cases hsnag with
          | dangling he | returning he => exact ⟨_, he⟩
        exact ⟨(name, entry), hd.mem_children_iff.mpr he, visitChild_of_snag hsnag he⟩
      | @step _ _ _ place _ first rest hs hwalk =>
        obtain ⟨entry, he⟩ := hs.denotes.exists_entry
        refine ⟨(first, entry), hd.mem_children_iff.mpr he, ?_⟩
        rw [visitChild_of_steps hs he]
        exact (deeper hs _).mpr ⟨rest, inside', dir', name, hwalk, hsnag⟩

theorem Lies.isPlain (hd : d.IsTree) (h : Lies d dir names name) :
    ∀ n ∈ names ++ [name], Path.IsPlain n := by
  induction h with
  | directly h =>
    obtain ⟨_, he⟩ := h.exists_entry
    simpa using hd.isPlain he
  | beyond h _ ih =>
    obtain ⟨_, he⟩ := h.exists_entry
    exact List.forall_mem_cons.mpr ⟨hd.isPlain he, ih⟩

/-- A scan that does not fail lists the accepted files that lie below the directory. -/
theorem mem_visit_iff (hd : d.IsTree) {depth : Nat} {found : List Archive} {a : Archive}
    (h : visit d accepts depth inside dir path = some found) :
    a ∈ found ↔ ∃ names name, Lies d dir names name ∧
      archive? accepts name ((names ++ [name]).foldl Path.join path) = some a := by
  induction depth generalizing inside dir path found with
  | zero => cases h
  | succ depth ih =>
    rw [visit] at h
    rw [mem_visitChildren_iff h]
    -- None of the names fails the scan, for it does not fail.
    have goes {name : String} {entry : Entry} (he : d.entryAt? (dir ++ [name]) = some entry) :
        visitChild d accepts (visit d accepts depth) inside dir path (name, entry) ≠ none := by
      intro hnone
      rw [visitChildren_eq_none_iff.mpr ⟨_, hd.mem_children_iff.mpr he, hnone⟩] at h
      cases h
    constructor
    · rintro ⟨⟨first, entry⟩, hmem, here, hhere, ha⟩
      have he := hd.mem_children_iff.mp hmem
      rcases child_cases he inside with hs | ⟨place, hs⟩ | ⟨place, bytes, hf⟩
      · exact absurd (visitChild_of_snag hs he) (goes he)
      · rw [visitChild_of_steps hs he] at hhere
        obtain ⟨names, name, hlies, hname⟩ := (ih hhere).mp ha
        exact ⟨first :: names, name, .beyond hs.denotes hlies, hname⟩
      · rw [visitChild_of_denotes_file hf he] at hhere
        cases hhere
        exact ⟨[], first, .directly hf, by simpa using ha⟩
    · rintro ⟨names, name, hlies, hname⟩
      cases hlies with
      | directly hf =>
        obtain ⟨entry, he⟩ := hf.exists_entry
        exact ⟨(name, entry), hd.mem_children_iff.mpr he, _, visitChild_of_denotes_file hf he,
          by simpa using hname⟩
      | @beyond _ place first _ rest hden hlies =>
        obtain ⟨entry, he⟩ := hden.exists_entry
        have hs : Steps d inside dir first place :=
          (hden.steps_or_snag inside).resolve_right fun hs => goes he (visitChild_of_snag hs he)
        obtain ⟨here, hhere⟩ := Option.ne_none_iff_exists'.mp (goes he)
        refine ⟨(first, entry), hd.mem_children_iff.mpr he, here, hhere, ?_⟩
        rw [visitChild_of_steps hs he] at hhere
        exact (ih hhere).mpr ⟨rest, name, hlies, hname⟩

/-! ### Each path once -/

theorem archive?_eq_some_iff {a : Archive} : archive? accepts name path = some a ↔
    ∃ m, accepts name = some m ∧ a = ⟨name, path, m.volume, m.chapter⟩ := by
  rw [archive?, Option.map_eq_some_iff]
  exact exists_congr fun m => and_congr_right fun _ => eq_comm

/-- The path of an archive goes on from a directory's with a name in it. -/
def GoesBy (path name : String) (a : Archive) : Prop :=
  ∃ rest, Path.components a.path.toList = Path.components path.toList ++ name.toList :: rest

theorem goesBy_of_foldl {first : String} {more : List String} {a : Archive}
    (hplain : ∀ n ∈ first :: more, Path.IsPlain n)
    (ha : a.path = (first :: more).foldl Path.join path) : GoesBy path first a :=
  ⟨more.map String.toList, by rw [ha, Path.components_foldl_join path hplain, List.map_cons]⟩

/-- The archives behind two names of a directory have different paths. -/
theorem GoesBy.path_ne {first second : String} {a b : Archive} (hne : first ≠ second)
    (ha : GoesBy path first a) (hb : GoesBy path second b) : a.path ≠ b.path := by
  obtain ⟨rest, ha⟩ := ha
  obtain ⟨rest', hb⟩ := hb
  intro hpath
  rw [hpath, hb, List.append_cancel_left_eq, List.cons.injEq] at ha
  exact hne (String.ext ha.1.symm)

theorem nodup_visitChildren {children : List (String × Entry)} {found : List Archive}
    (h : visitChildren d accepts enter inside dir path children = some found)
    (once : (children.map Prod.fst).Nodup)
    (each : ∀ child ∈ children, ∀ here,
      visitChild d accepts enter inside dir path child = some here →
        (here.map Archive.path).Nodup ∧ ∀ a ∈ here, GoesBy path child.1 a) :
    (found.map Archive.path).Nodup := by
  induction children generalizing found with
  | nil =>
    cases h
    exact List.nodup_nil
  | cons child rest ih =>
    rw [visitChildren_cons] at h
    simp only [Option.bind_eq_some_iff, Option.some.injEq] at h
    obtain ⟨here, hhere, others, hothers, rfl⟩ := h
    rw [List.map_cons, List.nodup_cons] at once
    rw [List.forall_mem_cons] at each
    obtain ⟨nodup, goes⟩ := each.1 here hhere
    rw [List.map_append, List.nodup_append]
    refine ⟨nodup, ih hothers once.2 each.2, ?_⟩
    simp only [List.forall_mem_map]
    intro a ha b hb
    obtain ⟨child', hmem, here', hhere', hb'⟩ := (mem_visitChildren_iff hothers).mp hb
    refine (goes a ha).path_ne ?_ ((each.2 child' hmem here' hhere').2 b hb')
    intro heq
    exact once.1 (heq ▸ List.mem_map_of_mem hmem)

/-- A scan lists no path twice. -/
theorem nodup_visit (hd : d.IsTree) {depth : Nat} {found : List Archive}
    (h : visit d accepts depth inside dir path = some found) : (found.map Archive.path).Nodup := by
  induction depth generalizing inside dir path found with
  | zero => cases h
  | succ depth ih =>
    rw [visit] at h
    refine nodup_visitChildren h (hd.nodup_children dir) ?_
    rintro ⟨first, entry⟩ hmem here hhere
    have he := hd.mem_children_iff.mp hmem
    have plain := hd.isPlain he
    rcases child_cases he inside with hs | ⟨place, hs⟩ | ⟨place, bytes, hf⟩
    · rw [visitChild_of_snag hs he] at hhere
      cases hhere
    · rw [visitChild_of_steps hs he] at hhere
      refine ⟨ih hhere, fun a ha => ?_⟩
      obtain ⟨names, name, hlies, hname⟩ := (mem_visit_iff hd hhere).mp ha
      obtain ⟨m, -, rfl⟩ := archive?_eq_some_iff.mp hname
      exact goesBy_of_foldl (List.forall_mem_cons.mpr ⟨plain, hlies.isPlain hd⟩) rfl
    · rw [visitChild_of_denotes_file hf he] at hhere
      cases hhere
      cases hname : archive? accepts first (Path.join path first) with
      | none => simp
      | some a =>
        obtain ⟨m, -, rfl⟩ := archive?_eq_some_iff.mp hname
        have alone : ∀ n ∈ [first], Path.IsPlain n := List.forall_mem_cons.mpr ⟨plain, nofun⟩
        simpa using goesBy_of_foldl alone rfl

/-! ### The scan of a root -/

/-- **A scan is complete or empty.** No walk goes on for ever, and of what there is below the root
either nothing is listed, if there is no such directory or the walk meets a link that leads nowhere or
to a directory that it is inside, or every file that names lead to and the test accepts, each path
once. -/
theorem scan_complete_or_empty (hd : d.IsTree) (root : String)
    (accepts : String → Option Archive.Markers) :
    ((∀ place, d.stat root ≠ .ok (place, .directory)) → scan d root accepts = []) ∧
    ∀ place, d.stat root = .ok (place, .directory) →
      (∀ names inside dir, Enters d [place] place names inside dir → names.length < depthBound d) ∧
      (Obstructed d [place] place → scan d root accepts = []) ∧
      (¬ Obstructed d [place] place →
        ((scan d root accepts).map Archive.path).Nodup ∧
        ∀ a, a ∈ scan d root accepts ↔ ∃ names name m, Lies d place names name ∧
          accepts name = some m ∧
          a = ⟨name, Path.join root ("/".intercalate (names ++ [name])), m.volume, m.chapter⟩) := by
  constructor
  · intro h
    unfold scan
    split
    · rename_i hstat
      exact absurd hstat (h _)
    · rfl
  intro place hstat
  have he : d.entryAt? place = some .directory := by
    unfold stat at hstat
    split at hstat
    · rename_i hl
      cases hstat
      exact (locate_eq_ok.mp hl).2.entryAt?_found
    · cases hstat
    · cases hstat
  have bound := toil_lt_depthBound he
  have scan_eq : scan d root accepts =
      (visit d accepts (depthBound d) [place] place root).getD [] := by
    rw [scan, hstat]
  refine ⟨fun names inside dir hwalk => ?_, fun hbad => ?_, fun hgood => ?_⟩
  · have := hwalk.length_add_toil_le
    omega
  · rw [scan_eq, (visit_eq_none_iff hd bound).mpr hbad]
    rfl
  · have goes : visit d accepts (depthBound d) [place] place root ≠ none :=
      mt (visit_eq_none_iff hd bound).mp hgood
    obtain ⟨found, hfound⟩ := Option.ne_none_iff_exists'.mp goes
    rw [scan_eq, hfound, Option.getD_some]
    refine ⟨nodup_visit hd hfound, fun a => ?_⟩
    rw [mem_visit_iff hd hfound]
    refine exists_congr fun names => exists_congr fun name => ?_
    rw [archive?_eq_some_iff]
    constructor
    · rintro ⟨hlies, m, hm, rfl⟩
      refine ⟨m, hlies, hm, ?_⟩
      rw [(Path.foldl_join_eq root (by simp) (hlies.isPlain hd)).1]
    · rintro ⟨m, hlies, hm, rfl⟩
      refine ⟨hlies, m, hm, ?_⟩
      rw [(Path.foldl_join_eq root (by simp) (hlies.isPlain hd)).1]

/-- A shelf with an archive in a directory that a link leads to as well. -/
def linkedShelf : Disk where
  entries := [(["work"], .directory), (["work", "shelf"], .directory),
    (["work", "shelf", "one"], .directory), (["work", "shelf", "one", "a.cbz"], .file ⟨#[]⟩),
    (["work", "shelf", "two"], .link "one")]

/-- The archive is listed under both of its paths. -/
theorem scan_complete_or_empty_linkedShelf :
    linkedShelf.IsTree ∧ linkedShelf.stat "shelf" = .ok (["work", "shelf"], .directory) ∧
      ¬ Obstructed linkedShelf [["work", "shelf"]] ["work", "shelf"] ∧
      ⟨"a.cbz", "shelf/one/a.cbz", "", "1"⟩ ∈ scan linkedShelf "shelf" (fun _ => some ⟨"", "1"⟩) ∧
      ⟨"a.cbz", "shelf/two/a.cbz", "", "1"⟩ ∈ scan linkedShelf "shelf" (fun _ => some ⟨"", "1"⟩) := by
  have plain : ∀ e ∈ linkedShelf.entries, ∀ name ∈ e.1,
      '/' ∉ name.toList ∧ name ≠ "" ∧ name ≠ "." ∧ name ≠ ".." := by
    decide +kernel
  have tree : linkedShelf.IsTree := by
    refine ⟨by decide, fun e he name hname => ?_⟩
    obtain ⟨noSlash, notEmpty, notDot, notUp⟩ := plain e he name hname
    exact ⟨noSlash, notEmpty, notDot, notUp⟩
  have stat : linkedShelf.stat "shelf" = .ok (["work", "shelf"], .directory) := by
    decide +kernel
  have root : linkedShelf.entryAt? ["work", "shelf"] = some .directory := by
    decide
  have clear : ¬ Obstructed linkedShelf [["work", "shelf"]] ["work", "shelf"] := by
    have fails : visit linkedShelf (fun _ => none) (depthBound linkedShelf) [["work", "shelf"]]
        ["work", "shelf"] "shelf" = none ↔ Obstructed linkedShelf [["work", "shelf"]] ["work", "shelf"] :=
      visit_eq_none_iff tree (toil_lt_depthBound root)
    rw [← fails]
    decide +kernel
  have whole := ((scan_complete_or_empty tree "shelf" fun _ => some ⟨"", "1"⟩).2 _ stat).2.2 clear
  have one : Denotes linkedShelf ["work", "shelf"] "one" ["work", "shelf", "one"] .directory :=
    .itself (by decide) nofun
  have two : Denotes linkedShelf ["work", "shelf"] "two" ["work", "shelf", "one"] .directory := by
    have link : linkedShelf.entryAt? ["work", "shelf", "two"] = some (.link "one") := by decide
    exact .linked link (walk_eq_iff.mp (by decide +kernel)) nofun
  have archive : Lies linkedShelf ["work", "shelf", "one"] [] "a.cbz" := by
    have file : linkedShelf.entryAt? ["work", "shelf", "one", "a.cbz"] = some (.file ⟨#[]⟩) := by decide
    exact .directly (.itself file nofun)
  exact ⟨tree, stat, clear,
    (whole.2 _).mpr ⟨["one"], "a.cbz", ⟨"", "1"⟩, .beyond one archive, rfl, by decide +kernel⟩,
    (whole.2 _).mpr ⟨["two"], "a.cbz", ⟨"", "1"⟩, .beyond two archive, rfl, by decide +kernel⟩⟩

end Shelf
end Longbox
