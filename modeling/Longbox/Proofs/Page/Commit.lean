import Longbox.Proofs.Disk.Change
import Longbox.Proofs.Page.FileName
import Longbox.Proofs.Path.Placement
import Mathlib.Data.List.Nodup

/-! Pages that are stored in any order.

Files that are written change no way to any other place (`writable_refilled`), so a page comes to stand
where its path led at the start, whatever was stored before it (`kept_storeAll`). The tree at the end is
then the same for every order (`storeAll_perm`), if pages that come to stand in one place are the same;
in one directory only a link can lead two of them to one place. -/
namespace Longbox

/-- A file that is written to the spot comes to stand at the place. -/
inductive Spot.Takes : Spot → Place → Prop where
  | file (place : Place) (bytes : ByteArray) : Spot.Takes (.found place (.file bytes)) place
  | vacant (place : Place) : Spot.Takes (.vacant place) place

namespace Disk

/-- What stands somewhere stands in a directory, and the working directory is one. -/
structure IsGrounded (d : Disk) : Prop where
  above : ∀ e ∈ d.entries, d.entryAt? e.1.dropLast = some .directory
  workingDir : d.entryAt? d.workingDir = some .directory

variable {d d' : Disk} {links : Nat} {here place p : Place} {names : List String} {name path : String}
  {spot : Spot} {entry : Entry}

theorem IsGrounded.dropLast (hd : d.IsGrounded) (he : d.entryAt? p = some entry) :
    d.entryAt? p.dropLast = some .directory := by
  by_cases hnil : p = []
  · rw [hnil]
    exact entryAt?_nil d
  · exact hd.above (p, entry) (mem_entries hnil he)

theorem IsGrounded.directory_start (hd : d.IsGrounded) (path : String) :
    d.entryAt? (d.start path) = some .directory := by
  unfold Disk.start
  split
  · exact entryAt?_nil d
  · exact hd.workingDir

theorem writable_eq_ok_iff : d.writable path = .ok place ↔
    ∃ spot, d.locate true path = .ok spot ∧ spot.Takes place := by
  unfold writable
  constructor
  · intro h
    split at h
    · rename_i hl
      cases h
      exact ⟨_, hl, .file _ _⟩
    · cases h
    · rename_i hl
      cases h
      exact ⟨_, hl, .vacant _⟩
    · cases h
  · rintro ⟨spot, hl, ht⟩
    rw [hl]
    cases ht <;> rfl

/-! ### Files that come to be written -/

/-- `d'` has what `d` has, files with other bytes perhaps, and nothing more but files. -/
structure Refills (d d' : Disk) : Prop extends d.Extends d' where
  directories : ∀ p, d'.entryAt? p = some .directory → d.entryAt? p = some .directory

theorem Refills.refl (d : Disk) : d.Refills d :=
  { Extends.refl d with directories := fun _ h => h }

theorem Refills.put (h : d.Refills d') (hw : d'.writable path = .ok place) (bytes : ByteArray) :
    d.Refills (d'.put place (.file bytes)) :=
  { h.toExtends.trans (extends_put_file hw bytes) with
    directories := fun p he => by
      rw [entryAt?_put (ne_nil_of_writable hw)] at he
      split at he
      · cases he
      · exact h.directories p he }

theorem Refills.free (h : d.Refills d') (he : d'.entryAt? p = none) : d.entryAt? p = none := by
  cases he' : d.entryAt? p with
  | none => rfl
  | some entry =>
    obtain ⟨_, hsome, -⟩ := h.entries p entry he'
    rw [he] at hsome
    cases hsome

/-- A free name that stays free is come to as before. -/
theorem Walks.vacant_within (hw : d.Within d') (hfree : d'.entryAt? place = none)
    (h : d.Walks true links here names (.vacant place)) :
    d'.Walks true links here names (.vacant place) := by
  generalize hs : Spot.vacant place = spot at h ⊢
  induction h with
  | ends | gets | stops => cases hs
  | misses hn hl _ hr =>
    cases hs
    exact .misses hn hl hfree hr
  | stays hn _ ih => exact .stays hn (ih hs)
  | rises _ ih => exact .rises (ih hs)
  | enters hn hl he _ ih => exact .enters hn hl (hw.directory he) (ih hs)
  | jumps hn hl he hf _ ih => exact .jumps hn hl (hw.link he) hf (ih hs)

/-- What a path leads to stays so unless the free name it led to has been taken. -/
theorem writable_refilled (h : d.Refills d') (hw : d.writable path = .ok place)
    (hfree : d.entryAt? place = none → d'.entryAt? place = none) : d'.writable path = .ok place := by
  obtain ⟨spot, hl, ht⟩ := writable_eq_ok_iff.mp hw
  refine writable_eq_ok_iff.mpr ?_
  cases ht with
  | file bytes =>
    obtain ⟨_, hl', hlike⟩ := locate_within h.toWithin hl
    cases hlike
    exact ⟨_, hl', .file _ _⟩
  | vacant =>
    obtain ⟨husable, hwalk⟩ := locate_eq_ok.mp hl
    refine ⟨_, locate_eq_ok.mpr ⟨husable, ?_⟩, .vacant _⟩
    rw [start_within h.toWithin]
    exact hwalk.vacant_within h.toWithin (hfree hwalk.entryAt?_vacant)

/-- A walk to a place where a file can be written has led there before. -/
theorem Walks.unfilled (hd : d.IsGrounded) (h : d.Refills d') (ht : spot.Takes place)
    (hhere : d.entryAt? here = some .directory) (hw : d'.Walks true links here names spot) :
    ∃ spot', d.Walks true links here names spot' ∧ spot'.Takes place := by
  induction hw with
  | ends he =>
    -- A walk does not end in a file, for it is in a directory.
    cases ht
    rw [h.directory hhere] at he
    cases he
  | stays hn _ ih =>
    obtain ⟨spot', hw, ht'⟩ := ih ht hhere
    exact ⟨spot', .stays hn hw, ht'⟩
  | rises _ ih =>
    obtain ⟨spot', hw, ht'⟩ := ih ht (hd.dropLast hhere)
    exact ⟨spot', .rises hw, ht'⟩
  | enters hn hl he _ ih =>
    have he := h.directories _ he
    obtain ⟨spot', hw, ht'⟩ := ih ht he
    exact ⟨spot', .enters hn hl he hw, ht'⟩
  | gets hn hl he =>
    cases ht
    -- The file may be one that has been made since.
    rename_i here name bytes
    cases he' : d.entryAt? (here ++ [name]) with
    | none => exact ⟨_, .misses hn hl he' rfl, .vacant _⟩
    | some entry =>
      obtain ⟨_, hsome, hlike⟩ := h.entries _ _ he'
      rw [he] at hsome
      cases hsome
      cases hlike
      exact ⟨_, .gets hn hl he', .file _ _⟩
  | misses hn hl he hr =>
    cases ht
    exact ⟨_, .misses hn hl (h.free he) hr, .vacant _⟩
  | stops _ _ _ hf => cases hf
  | @jumps _ here _ target _ _ hn hl he hf _ ih =>
    have hlanding : d.entryAt? (landing here target) = some .directory := by
      unfold landing
      split
      · exact entryAt?_nil d
      · exact hhere
    obtain ⟨spot', hw, ht'⟩ := ih ht hlanding
    exact ⟨spot', .jumps hn hl (h.links _ _ he) hf hw, ht'⟩

theorem writable_unfilled (hd : d.IsGrounded) (h : d.Refills d') (hw : d'.writable path = .ok place) :
    d.writable path = .ok place := by
  obtain ⟨spot, hl, ht⟩ := writable_eq_ok_iff.mp hw
  obtain ⟨husable, hwalk⟩ := locate_eq_ok.mp hl
  rw [start_within h.toWithin] at hwalk
  obtain ⟨spot', hwalk', ht'⟩ := hwalk.unfilled hd h ht (hd.directory_start path)
  exact writable_eq_ok_iff.mpr ⟨spot', locate_eq_ok.mpr ⟨husable, hwalk'⟩, ht'⟩

/-- A last name that no link stands under is the name of the file. -/
theorem Walks.takes_last (hn : IsProper name) (hw : d.Walks true links here [name] spot)
    (ht : spot.Takes place)
    (hlink : ∀ place target, ¬ d.Walks false links here [name] (.found place (.link target))) :
    place = here ++ [name] := by
  cases hw with
  | stays hi =>
    rw [hn.notIdle] at hi
    cases hi
  | rises => cases hn.notUp
  | enters _ _ he h =>
    cases h with
    | ends he' =>
      rw [he] at he'
      cases he'
      cases ht
  | gets | misses =>
    cases ht
    rfl
  | stops _ _ _ hf => cases hf
  | jumps _ hl he => exact absurd (.stops hn hl he rfl) (hlink _ _)

end Disk

namespace Page

open Disk

/-! ### Storing pages one after the other -/

/-- A page that cannot be stored leaves the tree as it is. -/
def storeOrLeave (d : Disk) (page : FetchedPage) : Disk :=
  match store d page with
  | .ok d' => d'
  | .error _ => d

def storeAll (d : Disk) (pages : List FetchedPage) : Disk :=
  pages.foldl storeOrLeave d

/-- Pages that come to stand in one place have the same bytes. -/
def Agree (d : Disk) (pages : List FetchedPage) : Prop :=
  ∀ a ∈ pages, ∀ b ∈ pages, ∀ place, target d a = .ok place → target d b = .ok place →
    a.bytes = b.bytes

/-- A tree has the pages, each where its path led in `d`, and is as `d` elsewhere. -/
structure Kept (d : Disk) (pages : List FetchedPage) (d' : Disk) : Prop where
  refills : d.Refills d'
  written : ∀ page ∈ pages, ∀ place, target d page = .ok place →
    d'.entryAt? place = some (.file page.bytes)
  others : ∀ p, (∀ page ∈ pages, target d page ≠ .ok p) → d'.entryAt? p = d.entryAt? p

variable {d d' : Disk} {pages : List FetchedPage} {page : FetchedPage} {place : Place}

theorem target_eq_ok_iff :
    target d page = .ok place ↔ d.writable (path page.dir page.task) = .ok place := by
  unfold target
  cases d.writable (path page.dir page.task) with
  | ok place' => simp
  | error fault => simp

theorem storeOrLeave_eq (d : Disk) (page : FetchedPage) : storeOrLeave d page =
    match target d page with
    | .ok place => d.put place (.file page.bytes)
    | .error _ => d := by
  unfold storeOrLeave store
  cases target d page <;> rfl

theorem storeAll_concat (d : Disk) (pages : List FetchedPage) (page : FetchedPage) :
    storeAll d (pages ++ [page]) = storeOrLeave (storeAll d pages) page := by
  rw [storeAll, List.foldl_append, List.foldl_cons, List.foldl_nil, storeAll]

theorem kept_nil (d : Disk) : Kept d [] d where
  refills := .refl d
  written := nofun
  others := fun _ _ => rfl

theorem Kept.storeOrLeave (hd : d.IsGrounded) (h : Kept d pages d')
    (hagree : Agree d (pages ++ [page])) : Kept d (pages ++ [page]) (storeOrLeave d' page) := by
  have last : page ∈ pages ++ [page] := by simp
  rw [storeOrLeave_eq]
  cases ht : target d' page with
  | ok place =>
    -- The page comes to stand where its path led at the start.
    have hw := target_eq_ok_iff.mp ht
    have first : target d page = .ok place :=
      target_eq_ok_iff.mpr (writable_unfilled hd h.refills hw)
    refine ⟨h.refills.put hw page.bytes, fun other hmem p hp => ?_, fun p hp => ?_⟩
    · rw [entryAt?_put (ne_nil_of_writable hw)]
      by_cases hsame : p = place
      · subst hsame
        rw [if_pos rfl, hagree other hmem page last p hp first]
      · rw [if_neg hsame]
        rcases List.mem_append.mp hmem with hmem | hmem
        · exact h.written other hmem p hp
        · rw [List.mem_singleton.mp hmem, first] at hp
          cases hp
          exact absurd rfl hsame
    · have hne : p ≠ place := by
        rintro rfl
        exact hp page last first
      rw [entryAt?_put (ne_nil_of_writable hw), if_neg hne]
      exact h.others p fun other hmem => hp other (List.mem_append_left _ hmem)
  | error e =>
    refine ⟨h.refills, fun other hmem p hp => ?_, fun p hp =>
      h.others p fun other hmem => hp other (List.mem_append_left _ hmem)⟩
    rcases List.mem_append.mp hmem with hmem | hmem
    · exact h.written other hmem p hp
    rw [List.mem_singleton.mp hmem] at hp ⊢
    -- Its path leads nowhere any more, so a page before it has taken the free name.
    by_cases htaken : ∃ before ∈ pages, target d before = .ok p
    · obtain ⟨before, hbefore, hplace⟩ := htaken
      rw [h.written before hbefore p hplace,
        hagree before (List.mem_append_left _ hbefore) page last p hplace hp]
    · push Not at htaken
      have still : target d' page = .ok p := by
        refine target_eq_ok_iff.mpr (writable_refilled h.refills (target_eq_ok_iff.mp hp) ?_)
        rw [h.others p htaken]
        exact id
      rw [still] at ht
      cases ht

/-- Each page comes to stand where its path led before any was stored. -/
theorem kept_storeAll (hd : d.IsGrounded) (hagree : Agree d pages) :
    Kept d pages (storeAll d pages) := by
  induction pages using List.reverseRecOn with
  | nil => exact kept_nil d
  | append_singleton front page ih =>
    have agree : Agree d front := fun a ha b hb =>
      hagree a (List.mem_append_left _ ha) b (List.mem_append_left _ hb)
    rw [storeAll_concat]
    exact (ih agree).storeOrLeave hd hagree

theorem Kept.congr {order : List FetchedPage} {d'' : Disk} (hperm : order.Perm pages)
    (h : Kept d pages d') (h' : Kept d order d'') (p : Place) : d''.entryAt? p = d'.entryAt? p := by
  by_cases hp : ∃ page ∈ pages, target d page = .ok p
  · obtain ⟨page, hmem, hplace⟩ := hp
    rw [h.written page hmem p hplace, h'.written page (hperm.mem_iff.mpr hmem) p hplace]
  · push Not at hp
    rw [h.others p hp, h'.others p fun page hmem => hp page (hperm.mem_iff.mp hmem)]

/-- **The order makes no difference** if pages that come to stand in one place are the same. -/
theorem storeAll_perm {order : List FetchedPage} (hd : d.IsGrounded) (hagree : Agree d pages)
    (hperm : order.Perm pages) (p : Place) :
    (storeAll d order).entryAt? p = (storeAll d pages).entryAt? p := by
  have agree : Agree d order := fun a ha b hb =>
    hagree a (hperm.mem_iff.mp ha) b (hperm.mem_iff.mp hb)
  exact (kept_storeAll hd hagree).congr hperm (kept_storeAll hd agree) p

/-! ### Pages of one directory -/

/-- If no link stands under its name, the file of a page comes to stand under that name. -/
theorem place_of_no_link {dir : String} {task : PageTask} {front : List String}
    (hfront : pathNames (path dir task) = front ++ [fileName task])
    (hlink : ∀ place link, d.locate false (path dir task) ≠ .ok (.found place (.link link)))
    (hw : d.writable (path dir task) = .ok place) :
    ∃ left there, d.Leads maxLinks (d.start dir) front left there ∧
      place = there ++ [fileName task] := by
  obtain ⟨spot, hl, ht⟩ := writable_eq_ok_iff.mp hw
  obtain ⟨husable, hwalk⟩ := locate_eq_ok.mp hl
  have proper := isProper_fileName task
  have start : d.start (path dir task) = d.start dir :=
    start_congr d (Path.isAbsolute_join dir (descends_fileName task).relative)
  have named : [fileName task].all String.isEmpty = false := by
    rw [List.all_cons, (Bool.or_eq_false_iff.mp proper.notIdle).1]
    rfl
  rw [hfront, start] at hwalk
  obtain ⟨left, there, hleads, hlast⟩ := Walks.split (List.cons_ne_nil _ _)
    (fun hall => by rw [named] at hall; cases hall) hwalk
  refine ⟨left, there, hleads, hlast.takes_last proper ht fun place' link hstop => ?_⟩
  refine hlink place' link (locate_eq_ok.mpr ⟨husable, ?_⟩)
  rw [hfront, start]
  exact Walks.of_leads hleads hstop (List.cons_ne_nil _ _)

/-- Without links under their names, only pages with one number come to stand in one place. -/
theorem index_eq_of_no_link {dir : String} {a b : FetchedPage} (ha : a.dir = dir) (hb : b.dir = dir)
    (hlink : ∀ page ∈ [a, b], ∀ place link,
      d.locate false (path page.dir page.task) ≠ .ok (.found place (.link link)))
    (hta : target d a = .ok place) (htb : target d b = .ok place) : a.task.index = b.task.index := by
  obtain ⟨front, -, hfront⟩ := Path.pathNames_join dir
  have names (task : PageTask) : pathNames (path dir task) = front ++ [fileName task] := by
    rw [path, hfront _ (descends_fileName task).relative, pathNames_fileName]
  rw [List.forall_mem_cons, List.forall_mem_singleton, ha, hb] at hlink
  rw [target_eq_ok_iff, ha] at hta
  rw [target_eq_ok_iff, hb] at htb
  obtain ⟨_, there, hleads, rfl⟩ := place_of_no_link (names _) hlink.1 hta
  obtain ⟨_, there', hleads', hplace⟩ := place_of_no_link (names _) hlink.2 htb
  rw [hleads.unique hleads', List.append_cancel_left_eq, List.cons.injEq] at hplace
  exact index_of_fileName_eq hplace.1

/-- **Pages of one directory with different numbers are stored in any order.** Each has a path of its
own, one plain name behind the directory, and the names are in the order of the numbers as long as these
are as narrow as they are padded. Any order of storing leaves the same tree, unless two pages with
different bytes come to stand in one place; they do not if no link stands under a page's name. -/
theorem pages_stored_in_any_order (dir : String) (pages : List FetchedPage)
    (hdir : ∀ page ∈ pages, page.dir = dir)
    (hindex : (pages.map fun page => page.task.index).Nodup) :
    (∀ page ∈ pages, path page.dir page.task = Path.join dir (fileName page.task) ∧
      Path.IsPlain (fileName page.task)) ∧
    pages.Pairwise (fun a b => Path.isSame (path a.dir a.task) (path b.dir b.task) = false) ∧
    (∀ d : Disk, d.IsGrounded →
      ((∀ page ∈ pages, ∀ place link,
        d.locate false (path page.dir page.task) ≠ .ok (.found place (.link link))) →
          Agree d pages) ∧
      (Agree d pages → ∀ order, order.Perm pages →
        (storeAll d order).workingDir = (storeAll d pages).workingDir ∧
        ∀ p, (storeAll d order).entryAt? p = (storeAll d pages).entryAt? p)) ∧
    ∀ a ∈ pages, ∀ b ∈ pages, a.task.index < 10000 → b.task.index < 10000 →
      (a.task.index < b.task.index ↔
        (fileName a.task).toUTF8.data.toList < (fileName b.task).toUTF8.data.toList) := by
  have one {a b : FetchedPage} (ha : a ∈ pages) (hb : b ∈ pages)
      (h : a.task.index = b.task.index) : a = b :=
    List.inj_on_of_nodup_map hindex ha hb h
  refine ⟨fun page hmem => ?_, ?_, fun d hd => ⟨fun hlink a ha b hb place hta htb => ?_,
    fun hagree order hperm => ⟨?_, storeAll_perm hd hagree hperm⟩⟩, fun a ha b hb hna hnb => ?_⟩
  · rw [hdir page hmem]
    exact ⟨rfl, isPlain_fileName page.task⟩
  · rw [List.Nodup, List.pairwise_map] at hindex
    refine hindex.imp_of_mem fun ha hb hne => ?_
    rw [hdir _ ha, hdir _ hb]
    exact isSame_path_eq_false dir hne
  · have both : ∀ page ∈ [a, b], ∀ place link,
        d.locate false (path page.dir page.task) ≠ .ok (.found place (.link link)) :=
      List.forall_mem_cons.mpr ⟨hlink a ha, List.forall_mem_singleton.mpr (hlink b hb)⟩
    rw [one ha hb (index_eq_of_no_link (hdir a ha) (hdir b hb) both hta htb)]
  · have agree : Agree d order := fun a ha b hb =>
      hagree a (hperm.mem_iff.mp ha) b (hperm.mem_iff.mp hb)
    rw [(kept_storeAll hd agree).refills.workingDir, (kept_storeAll hd hagree).refills.workingDir]
  · refine ⟨fun h => fileName_lt_fileName h hnb, fun h => ?_⟩
    rcases Nat.lt_trichotomy a.task.index b.task.index with hlt | heq | hgt
    · exact hlt
    · rw [one ha hb heq] at h
      exact absurd h (List.lt_irrefl _)
    · exact absurd (List.lt_trans h (fileName_lt_fileName hgt hna)) (List.lt_irrefl _)

/-- A directory in which something may stand under the name of the first page. -/
def chapterDir (entries : List (Place × Entry)) : Disk where
  entries := (["work"], .directory) :: (["work", "d"], .directory) :: entries

/-- Two pages that differ in their bytes, in an order. -/
def twoPages (first second : Nat) : List FetchedPage :=
  [⟨"d", ⟨first, "u"⟩, ⟨#[UInt8.ofNat first]⟩⟩, ⟨"d", ⟨second, "u"⟩, ⟨#[UInt8.ofNat second]⟩⟩]

theorem pages_stored_in_any_order_emptyDir :
    (∀ page ∈ twoPages 1 2, page.dir = "d") ∧
      ((twoPages 1 2).map fun page => page.task.index).Nodup ∧ (chapterDir []).IsGrounded ∧
      (∀ page ∈ twoPages 1 2, ∀ place link, (chapterDir []).locate false (path page.dir page.task) ≠
        .ok (.found place (.link link))) ∧
      (twoPages 2 1).Perm (twoPages 1 2) ∧
      ∀ p, (storeAll (chapterDir []) (twoPages 2 1)).entryAt? p =
        (storeAll (chapterDir []) (twoPages 1 2)).entryAt? p := by
  have dir : ∀ page ∈ twoPages 1 2, page.dir = "d" := by decide
  have index : ((twoPages 1 2).map fun page => page.task.index).Nodup := by decide
  have grounded : (chapterDir []).IsGrounded := ⟨by decide, by decide⟩
  have free : ∀ page ∈ twoPages 1 2, ∃ place,
      (chapterDir []).locate false (path page.dir page.task) = .ok (.vacant place) := by
    intro page hmem
    rcases List.mem_pair.mp hmem with rfl | rfl
    · exact ⟨["work", "d", "page 0001.jpg"], by decide +kernel⟩
    · exact ⟨["work", "d", "page 0002.jpg"], by decide +kernel⟩
  have noLink : ∀ page ∈ twoPages 1 2, ∀ place link,
      (chapterDir []).locate false (path page.dir page.task) ≠ .ok (.found place (.link link)) := by
    intro page hmem place link
    obtain ⟨_, hfree⟩ := free page hmem
    rw [hfree]
    nofun
  have perm : (twoPages 2 1).Perm (twoPages 1 2) := .swap _ _ _
  obtain ⟨-, -, stored, -⟩ := pages_stored_in_any_order "d" (twoPages 1 2) dir index
  obtain ⟨agree, same⟩ := stored (chapterDir []) grounded
  exact ⟨dir, index, grounded, noLink, perm, (same (agree noLink) _ perm).2⟩

/-- A link under the name of the first page that leads to the second: the page that is stored last is
the one that stays. -/
theorem storeAll_order_matters_linkedDir :
    ∃ d : Disk, ∃ order pages : List FetchedPage, d.IsGrounded ∧ (∀ page ∈ pages, page.dir = "d") ∧
      (pages.map fun page => page.task.index).Nodup ∧ order.Perm pages ∧
      ∃ p, (storeAll d order).entryAt? p ≠ (storeAll d pages).entryAt? p := by
  refine ⟨chapterDir [(["work", "d", "page 0001.jpg"], .link "page 0002.jpg")], twoPages 2 1,
    twoPages 1 2, ⟨by decide, by decide⟩, by decide, by decide, .swap _ _ _,
    ["work", "d", "page 0002.jpg"], ?_⟩
  decide +kernel

end Page
end Longbox
