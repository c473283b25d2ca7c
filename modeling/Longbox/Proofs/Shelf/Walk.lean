import Longbox.Proofs.Disk.Change
import Longbox.Proofs.Path.Resolution
import Longbox.Shelf.Scan
import Mathlib.Data.List.Count
import Mathlib.Data.List.Nodup

/-! The walk of a scan.

`Enters` says which directories the walk comes to, those it goes down into and those that links lead
to, and which directories it is then inside. Each step either passes a link to a directory that the walk
is not inside or goes down the tree, so what the walk has before it gets less with each step
(`Steps.toil_lt`), and no walk is longer than that (`Enters.length_add_toil_le`). -/
namespace Longbox

namespace Disk

/-- A list of entries is a tree: nothing is listed twice, and the names are names. -/
structure IsTree (d : Disk) : Prop where
  once : (d.entries.map Prod.fst).Nodup
  plain : ∀ e ∈ d.entries, ∀ name ∈ e.1, Path.IsPlain name

variable {d : Disk} {dir : Place} {name : String} {entry : Entry}

theorem IsTree.lookup_eq_some_iff (hd : d.IsTree) {place : Place} :
    d.entries.lookup place = some entry ↔ (place, entry) ∈ d.entries := by
  have once := hd.once
  generalize d.entries = entries at once
  induction entries with
  | nil => simp
  | cons e rest ih =>
    obtain ⟨key, first⟩ := e
    rw [List.map_cons, List.nodup_cons] at once
    obtain ⟨hkey, hrest⟩ := once
    by_cases h : place = key
    · subst h
      have absent : (place, entry) ∉ rest := fun hm => hkey (List.mem_map.mpr ⟨_, hm, rfl⟩)
      simp [absent, eq_comm]
    · have hne : (place == key) = false := by simpa using h
      simp [List.lookup_cons, hne, h, ih hrest]

theorem IsTree.mem_children_iff (hd : d.IsTree) :
    (name, entry) ∈ d.children dir ↔ d.entryAt? (dir ++ [name]) = some entry := by
  rw [entryAt?_of_ne_nil (by simp), hd.lookup_eq_some_iff, children, List.mem_filterMap]
  constructor
  · rintro ⟨⟨place, e⟩, hmem, hchild⟩
    dsimp only at hchild
    split at hchild
    · rename_i last hlast
      split at hchild
      · rename_i hdir
        cases hchild
        rw [← beq_iff_eq.mp hdir, List.dropLast_append_getLast? _ hlast]
        exact hmem
      · cases hchild
    · cases hchild
  · intro hmem
    exact ⟨_, hmem, by simp⟩

theorem map_fst_children (d : Disk) (dir : Place) : (d.children dir).map Prod.fst =
    (d.entries.map Prod.fst).filterMap fun p => if p.dropLast = dir then p.getLast? else none := by
  rw [children, List.map_filterMap, List.filterMap_map]
  refine List.filterMap_congr fun e _ => ?_
  dsimp only [Function.comp]
  by_cases hdir : e.1.dropLast = dir
  · cases e.1.getLast? <;> simp [hdir]
  · cases e.1.getLast? <;> simp [hdir]

/-- Two children of one directory by one name would be at one place. -/
theorem IsTree.nodup_children (hd : d.IsTree) (dir : Place) :
    ((d.children dir).map Prod.fst).Nodup := by
  rw [map_fst_children]
  refine hd.once.filterMap fun p p' name hp hp' => ?_
  have place_eq {p : Place} (h : name ∈ if p.dropLast = dir then p.getLast? else none) :
      p = dir ++ [name] := by
    split at h
    · rename_i hdir
      rw [← hdir, List.dropLast_append_getLast? _ h]
    · cases h
  exact (place_eq hp).trans (place_eq hp').symm

theorem IsTree.isPlain (hd : d.IsTree) (he : d.entryAt? (dir ++ [name]) = some entry) :
    Path.IsPlain name := by
  exact hd.plain _ (mem_entries (by simp) he) name (by simp)

end Disk

namespace Shelf

open Disk

/-! ### The walk -/

/-- What a name in a directory denotes, links followed: a directory or a file. -/
inductive Denotes (d : Disk) (dir : Place) (name : String) : Place → Entry → Prop where
  | itself {entry : Entry} (he : d.entryAt? (dir ++ [name]) = some entry)
      (hl : ∀ target, entry ≠ .link target) : Denotes d dir name (dir ++ [name]) entry
  | linked {target : String} {place : Place} {entry : Entry}
      (he : d.entryAt? (dir ++ [name]) = some (.link target))
      (hw : d.Walks true maxLinks dir [name] (.found place entry))
      (hl : ∀ target, entry ≠ .link target) : Denotes d dir name place entry

/-- A link that fails the walk: it leads nowhere, or to a directory that the walk is inside. -/
inductive Snag (d : Disk) (inside : List Place) (dir : Place) (name : String) : Prop where
  | dangling {target : String} (he : d.entryAt? (dir ++ [name]) = some (.link target))
      (h : ∀ place entry, ¬ Denotes d dir name place entry)
  | returning {target : String} {place : Place}
      (he : d.entryAt? (dir ++ [name]) = some (.link target))
      (h : Denotes d dir name place .directory) (hi : place ∈ inside)

/-- The walk enters another directory: one that stands in `dir`, or one that a link there leads to and
that it is not inside. -/
inductive Steps (d : Disk) (inside : List Place) (dir : Place) (name : String) : Place → Prop where
  | down (he : d.entryAt? (dir ++ [name]) = some .directory) : Steps d inside dir name (dir ++ [name])
  | across {target : String} {place : Place}
      (he : d.entryAt? (dir ++ [name]) = some (.link target))
      (h : Denotes d dir name place .directory) (hi : place ∉ inside) : Steps d inside dir name place

/-- The walk gets from a directory to another by way of the names, entering each on the way. -/
inductive Enters (d : Disk) : List Place → Place → List String → List Place → Place → Prop where
  | here (inside : List Place) (dir : Place) : Enters d inside dir [] inside dir
  | step {inside inside' : List Place} {dir place dir' : Place} {name : String} {names : List String}
      (hs : Steps d inside dir name place)
      (h : Enters d (place :: inside) place names inside' dir') :
      Enters d inside dir (name :: names) inside' dir'

/-- Somewhere the walk from a directory meets a link that fails it. -/
def Obstructed (d : Disk) (inside : List Place) (dir : Place) : Prop :=
  ∃ names inside' dir' name, Enters d inside dir names inside' dir' ∧ Snag d inside' dir' name

/-- A file lies below a directory: the first names lead down to where the last one denotes it. -/
inductive Lies (d : Disk) : Place → List String → String → Prop where
  | directly {dir place : Place} {name : String} {bytes : ByteArray}
      (h : Denotes d dir name place (.file bytes)) : Lies d dir [] name
  | beyond {dir place : Place} {first name : String} {names : List String}
      (h : Denotes d dir first place .directory) (hn : Lies d place names name) :
      Lies d dir (first :: names) name

variable {d : Disk} {inside inside' : List Place} {dir dir' place : Place} {name : String}
  {names : List String} {entry : Entry}

theorem Denotes.exists_entry (h : Denotes d dir name place entry) :
    ∃ entry', d.entryAt? (dir ++ [name]) = some entry' := by
  cases h with
  | itself he => exact ⟨_, he⟩
  | linked he => exact ⟨_, he⟩

theorem Steps.denotes (h : Steps d inside dir name place) : Denotes d dir name place .directory := by
  cases h with
  | down he => exact .itself he nofun
  | across _ h => exact h

/-- A name that denotes a directory is that of one the walk enters, or of a link that fails it. -/
theorem Denotes.steps_or_snag (h : Denotes d dir name place .directory) (inside : List Place) :
    Steps d inside dir name place ∨ Snag d inside dir name := by
  cases h with
  | itself he => exact .inl (.down he)
  | linked he hw hl =>
    by_cases hi : place ∈ inside
    · exact .inr (.returning he (.linked he hw hl) hi)
    · exact .inl (.across he (.linked he hw hl) hi)

/-! ### The walk ends -/

/-- The directories that there may be, and that the walk is not inside. -/
def unentered (d : Disk) (inside : List Place) : Nat :=
  ([] :: d.entries.map Prod.fst).countP (· ∉ inside)

/-- The entries strictly below a directory. -/
def beneath (d : Disk) (dir : Place) : Nat :=
  (d.entries.map Prod.fst).countP fun place => dir <+: place ∧ place ≠ dir

/-- What a walk has before it at most: a step across enters a directory that it was not inside, and a
step down leaves entries behind. -/
def toil (d : Disk) (inside : List Place) (dir : Place) : Nat :=
  unentered d inside * (d.entries.length + 1) + beneath d dir

theorem countP_lt_countP {α : Type} {p q : α → Bool} {l : List α} {a : α}
    (h : ∀ x ∈ l, p x = true → q x = true) (ha : a ∈ l) (hp : p a = false) (hq : q a = true) :
    l.countP p < l.countP q := by
  have both : l.countP p = (l.filter q).countP p := by
    rw [List.countP_filter]
    refine List.countP_congr fun x hx => ?_
    rw [Bool.and_eq_true]
    exact ⟨fun hpx => ⟨hpx, h x hx hpx⟩, And.left⟩
  rw [both, List.countP_eq_length_filter (p := q), List.countP_lt_length_iff]
  exact ⟨a, List.mem_filter.mpr ⟨ha, hq⟩, hp⟩

theorem mem_places (he : d.entryAt? place = some entry) :
    place ∈ [] :: d.entries.map Prod.fst := by
  by_cases hnil : place = []
  · rw [hnil]
    exact List.mem_cons_self ..
  · exact List.mem_cons_of_mem _ (List.mem_map_of_mem (mem_entries hnil he))

theorem unentered_cons_le (place : Place) (inside : List Place) :
    unentered d (place :: inside) ≤ unentered d inside := by
  refine List.countP_mono_left fun x _ hx => ?_
  simp only [List.mem_cons, not_or, decide_eq_true_eq] at hx ⊢
  exact hx.2

theorem unentered_cons_lt (he : d.entryAt? place = some entry) (hi : place ∉ inside) :
    unentered d (place :: inside) < unentered d inside := by
  refine countP_lt_countP (fun x _ hx => ?_) (mem_places he) (by simp) (by simpa using hi)
  simp only [List.mem_cons, not_or, decide_eq_true_eq] at hx ⊢
  exact hx.2

theorem beneath_child_lt (he : d.entryAt? (dir ++ [name]) = some entry) :
    beneath d (dir ++ [name]) < beneath d dir := by
  have listed : dir ++ [name] ∈ d.entries.map Prod.fst := by
    simpa using mem_places he
  refine countP_lt_countP (fun x _ hx => ?_) listed (by simp) (by simp)
  simp only [decide_eq_true_eq] at hx ⊢
  obtain ⟨hbelow, -⟩ := hx
  refine ⟨(List.prefix_append dir [name]).trans hbelow, ?_⟩
  rintro rfl
  have := hbelow.length_le
  rw [List.length_append, List.length_singleton] at this
  omega

theorem beneath_le (d : Disk) (dir : Place) : beneath d dir ≤ d.entries.length := by
  have := List.countP_le_length (p := fun place => decide (dir <+: place ∧ place ≠ dir))
    (l := d.entries.map Prod.fst)
  rwa [List.length_map] at this

theorem Denotes.entryAt? (h : Denotes d dir name place entry) : d.entryAt? place = some entry := by
  cases h with
  | itself he => exact he
  | linked _ hw => exact hw.entryAt?_found

theorem Steps.toil_lt (h : Steps d inside dir name place) :
    toil d (place :: inside) place < toil d inside dir := by
  unfold toil
  cases h with
  | down he =>
    have rooms := Nat.mul_le_mul_right (d.entries.length + 1)
      (unentered_cons_le (d := d) (dir ++ [name]) inside)
    have fewer := beneath_child_lt he
    omega
  | across _ h hi =>
    have rooms := Nat.mul_le_mul_right (d.entries.length + 1)
      (Nat.succ_le_of_lt (unentered_cons_lt h.entryAt? hi))
    have most := beneath_le d place
    rw [Nat.succ_mul] at rooms
    omega

theorem Enters.length_add_toil_le (h : Enters d inside dir names inside' dir') :
    names.length + toil d inside' dir' ≤ toil d inside dir := by
  induction h with
  | here => simp
  | step hs _ ih =>
    have := hs.toil_lt
    rw [List.length_cons]
    omega

theorem toil_lt_depthBound (he : d.entryAt? dir = some .directory) :
    toil d [dir] dir < depthBound d := by
  have entered := unentered_cons_lt he (List.not_mem_nil (a := dir))
  have all : unentered d [] ≤ d.entries.length + 1 := by
    have := List.countP_le_length (p := fun place => decide (place ∉ ([] : List Place)))
      (l := [] :: d.entries.map Prod.fst)
    rwa [List.length_cons, List.length_map] at this
  have rooms := Nat.mul_le_mul_right (d.entries.length + 1) (entered.trans_le all)
  have most := beneath_le d dir
  have square := Nat.mul_le_mul (Nat.le_succ (d.entries.length + 1)) (Nat.le_succ (d.entries.length + 1))
  rw [Nat.succ_mul] at rooms
  calc toil d [dir] dir < (d.entries.length + 1) * (d.entries.length + 1) := by
        unfold toil
        omega
    _ ≤ depthBound d := square

end Shelf
end Longbox
