import Longbox.Proofs.Disk.Walk

/-! What changes of a tree leave as it was.

Directories that are made and pages that are written take free places or the places of files
(`Disk.Extends`); nothing else changes. A removal takes away all that stands at or below one place, or
nothing (`removeAll_eq`); a path that has been removed leads nowhere any more (`absent_removeAll`). -/
namespace Longbox.Disk

variable {d d' : Disk} {place p : Place} {entry : Entry}

/-! ### Entries -/

theorem entryAt?_nil (d : Disk) : d.entryAt? [] = some .directory := rfl

theorem entryAt?_of_ne_nil (h : p ≠ []) : d.entryAt? p = d.entries.lookup p := by
  rw [entryAt?, if_neg (by simpa using h)]

theorem mem_entries (hp : p ≠ []) (he : d.entryAt? p = some entry) : (p, entry) ∈ d.entries := by
  rw [entryAt?_of_ne_nil hp] at he
  obtain ⟨front, rest, hsplit, -⟩ := List.lookup_eq_some_iff.mp he
  simp [hsplit]

/-- Keeping some keys of an association list keeps what these keys stand for. -/
theorem lookup_filter_key (keep : Place → Bool) (entries : List (Place × Entry)) (p : Place) :
    (entries.filter fun e => keep e.1).lookup p = if keep p then entries.lookup p else none := by
  induction entries with
  | nil => simp
  | cons e rest ih =>
    obtain ⟨key, entry⟩ := e
    by_cases hk : p = key
    · subst hk
      cases hkeep : keep p <;> simp [hkeep, ih]
    · have hk : (p == key) = false := by simpa using hk
      cases hkeep : keep key <;> simp [hkeep, ih, List.lookup_cons, hk]

theorem entryAt?_put (hp : place ≠ []) :
    (d.put place entry).entryAt? p = if p = place then some entry else d.entryAt? p := by
  by_cases hnil : p = []
  · rw [if_neg (by rintro rfl; exact hp hnil), hnil, entryAt?_nil, entryAt?_nil]
  rw [entryAt?_of_ne_nil hnil, entryAt?_of_ne_nil hnil, put,
    List.lookup_append, lookup_filter_key (fun key => key != place)]
  by_cases h : p = place
  · simp [h]
  · have hne : (p == place) = false := by simpa using h
    simp [h, hne, List.lookup_cons]

theorem entryAt?_prune (hp : p ≠ []) (keepRoot : Bool) :
    (d.prune place keepRoot).entryAt? p =
      if place <+: p ∧ (p = place → keepRoot = false) then none else d.entryAt? p := by
  rw [entryAt?_of_ne_nil hp, entryAt?_of_ne_nil hp, prune,
    lookup_filter_key (fun key => !(place.isPrefixOf key) || (keepRoot && key == place))]
  by_cases hpre : place <+: p
  · have hpre' : place.isPrefixOf p = true := List.isPrefixOf_iff_prefix.mpr hpre
    rw [hpre']
    by_cases h : p = place
    · subst h
      cases keepRoot <;> simp
    · simp [hpre, h]
  · have hpre' : place.isPrefixOf p = false := by
      rw [Bool.eq_false_iff]
      exact fun h => hpre (List.isPrefixOf_iff_prefix.mp h)
    simp [hpre', hpre]

/-! ### Growth -/

/-- `d'` has what `d` has, and new directories at most. -/
structure Grows (d d' : Disk) : Prop where
  workingDir : d'.workingDir = d.workingDir
  kept : ∀ p entry, d.entryAt? p = some entry → d'.entryAt? p = some entry
  made : ∀ p entry, d'.entryAt? p = some entry → d.entryAt? p = some entry ∨ entry = .directory

/-- `d'` has what `d` has, files with other bytes perhaps, and no new links. -/
structure Extends (d d' : Disk) : Prop extends d.Within d' where
  links : ∀ p target, d'.entryAt? p = some (.link target) → d.entryAt? p = some (.link target)

theorem Extends.refl (d : Disk) : d.Extends d :=
  { Within.refl d with links := fun _ _ h => h }

theorem Extends.trans {d'' : Disk} (h : d.Extends d') (h' : d'.Extends d'') : d.Extends d'' :=
  { h.toWithin.trans h'.toWithin with
    links := fun p target he => h.links p target (h'.links p target he) }

theorem Grows.refl (d : Disk) : d.Grows d :=
  ⟨rfl, fun _ _ h => h, fun _ _ h => .inl h⟩

theorem Grows.trans {d'' : Disk} (h : d.Grows d') (h' : d'.Grows d'') : d.Grows d'' where
  workingDir := h'.workingDir.trans h.workingDir
  kept := fun p entry he => h'.kept p entry (h.kept p entry he)
  made := fun p entry he => by
    rcases h'.made p entry he with he | he
    · exact h.made p entry he
    · exact .inr he

theorem Grows.extends (h : d.Grows d') : d.Extends d' where
  workingDir := h.workingDir
  entries := fun p entry he => ⟨entry, h.kept p entry he, Entry.Like.refl entry⟩
  links := fun p target he => by
    rcases h.made p _ he with he | he
    · exact he
    · cases he

theorem grows_put (he : d.entryAt? place = none) : d.Grows (d.put place .directory) := by
  have hp : place ≠ [] := by
    rintro rfl
    cases he
  refine ⟨rfl, fun p entry hentry => ?_, fun p entry hentry => ?_⟩
  · rw [entryAt?_put hp, if_neg ?_]
    · exact hentry
    · rintro rfl
      rw [he] at hentry
      cases hentry
  · rw [entryAt?_put hp] at hentry
    split at hentry
    · exact .inr (Option.some.inj hentry).symm
    · exact .inl hentry

/-! ### Making directories -/

variable {path : String}

theorem makeDirectory_grows (h : d.makeDirectory path = .ok d') :
    d.Grows d' ∧ d'.isDirectory path = true := by
  unfold makeDirectory at h
  split at h
  · rename_i place hl
    cases h
    obtain ⟨husable, hwalk⟩ := locate_eq_ok.mp hl
    have he := hwalk.entryAt?_vacant
    have hp : place ≠ [] := by
      rintro rfl
      cases he
    have grows := grows_put he
    refine ⟨grows, isDirectory_iff.mpr ⟨place, locate_eq_ok.mpr ⟨husable, ?_⟩⟩⟩
    rw [start_within grows.extends.toWithin]
    exact hwalk.filled grows.extends.toWithin (by rw [entryAt?_put hp, if_pos rfl])
  · cases h
  · cases h

/-- What making directories is to do: the tree grows, and without a fault the path leads to a
directory. -/
structure Makes (d : Disk) (path : String) (made : Disk × Option Fault) : Prop where
  grows : d.Grows made.1
  directory : made.2 = none → made.1.isDirectory path = true

theorem makes_makeOrFind (d : Disk) (path : String) : d.Makes path (d.makeOrFind path) := by
  unfold makeOrFind
  split
  · rename_i d' h
    exact ⟨(makeDirectory_grows h).1, fun _ => (makeDirectory_grows h).2⟩
  · refine ⟨.refl d, fun h => ?_⟩
    dsimp only at h ⊢
    split at h
    · assumption
    · cases h

theorem makes_makeAllFrom (d : Disk) (absolute : Bool) (path : String) (parents : List String) :
    d.Makes path (d.makeAllFrom absolute path parents) := by
  induction parents generalizing path with
  | nil => exact makes_makeOrFind d path
  | cons name parents ih =>
    unfold makeAllFrom
    split
    · have above := ih (namesToPath absolute (parents.reverse ++ [name]))
      split
      · rename_i d' hd'
        rw [hd'] at above
        have below := makes_makeOrFind d' path
        exact ⟨above.grows.trans below.grows, below.directory⟩
      · rename_i d' fault hd'
        rw [hd'] at above
        exact ⟨above.grows, nofun⟩
    · exact makes_makeOrFind d path

theorem makeAll_grows (d : Disk) (path : String) : d.Grows (d.makeAll path).1 := by
  unfold makeAll
  split
  · exact .refl d
  · exact (makes_makeAllFrom d _ path _).grows

theorem isDirectory_makeAll (hpath : path ≠ "") (h : d.makeAll path = (d', none)) :
    d'.isDirectory path = true := by
  unfold makeAll at h
  rw [if_neg (by simpa using hpath)] at h
  have made := (makes_makeAllFrom d (Path.isAbsolute path) path _).directory (by rw [h])
  rwa [h] at made

/-! ### Writing files -/

/-- A file is written to a free place or to that of another file. -/
theorem writable_spot (h : d.writable path = .ok place) :
    ∃ spot, d.locate true path = .ok spot ∧ spot.place = place ∧
      (d.entryAt? place = none ∨ ∃ bytes, d.entryAt? place = some (.file bytes)) := by
  unfold writable at h
  split at h
  · rename_i place' bytes hl
    cases h
    exact ⟨_, hl, rfl, .inr ⟨bytes, (locate_eq_ok.mp hl).2.entryAt?_found⟩⟩
  · cases h
  · rename_i place' hl
    cases h
    exact ⟨_, hl, rfl, .inl (locate_eq_ok.mp hl).2.entryAt?_vacant⟩
  · cases h

theorem ne_nil_of_writable (h : d.writable path = .ok place) : place ≠ [] := by
  rintro rfl
  obtain ⟨_, -, -, he | ⟨bytes, he⟩⟩ := writable_spot h
  · cases he
  · cases he

theorem extends_put_file (h : d.writable path = .ok place) (bytes : ByteArray) :
    d.Extends (d.put place (.file bytes)) := by
  have hp := ne_nil_of_writable h
  obtain ⟨_, -, -, hplace⟩ := writable_spot h
  refine ⟨⟨rfl, fun p entry he => ?_⟩, fun p target he => ?_⟩
  · rw [entryAt?_put hp]
    by_cases hpp : p = place
    · subst hpp
      rcases hplace with hnone | ⟨old, hold⟩
      · rw [hnone] at he
        cases he
      · rw [hold] at he
        cases he
        exact ⟨_, if_pos rfl, .file _ _⟩
    · exact ⟨entry, by rw [if_neg hpp, he], Entry.Like.refl entry⟩
  · rw [entryAt?_put hp] at he
    split at he
    · cases he
    · exact he

/-! ### Erosion -/

/-- Where something stands, something stands at each place above. -/
def Rooted (d : Disk) : Prop :=
  ∀ p q, d.entryAt? p ≠ none → q <+: p → d.entryAt? q ≠ none

/-- `d'` has nothing that `d` has not, and what is gone is gone with all that stood below. -/
structure Erodes (d d' : Disk) : Prop where
  workingDir : d'.workingDir = d.workingDir
  kept : ∀ p entry, d'.entryAt? p = some entry → d.entryAt? p = some entry
  below : ∀ p q, d.entryAt? p ≠ none → d'.entryAt? p = none → p <+: q → d'.entryAt? q = none

theorem Erodes.refl (d : Disk) : d.Erodes d :=
  ⟨rfl, fun _ _ h => h, fun _ _ hd hr => absurd hr hd⟩

theorem Erodes.gone (h : d.Erodes d') (he : d.entryAt? p = none) : d'.entryAt? p = none := by
  cases he' : d'.entryAt? p with
  | none => rfl
  | some entry =>
    rw [h.kept p entry he'] at he
    cases he

theorem Erodes.trans {d'' : Disk} (h : d.Erodes d') (h' : d'.Erodes d'') : d.Erodes d'' where
  workingDir := h'.workingDir.trans h.workingDir
  kept := fun p entry he => h.kept p entry (h'.kept p entry he)
  below := fun p q hd hgone hq => by
    by_cases hd' : d'.entryAt? p = none
    · exact h'.gone (h.below p q hd hd' hq)
    · exact h'.below p q hd' hgone hq

theorem Erodes.within (h : d.Erodes d') : d'.Within d :=
  ⟨h.workingDir.symm, fun p entry he => ⟨entry, h.kept p entry he, Entry.Like.refl entry⟩⟩

theorem prune_erodes (d : Disk) (place : Place) (keepRoot : Bool) :
    d.Erodes (d.prune place keepRoot) where
  workingDir := rfl
  kept := fun p entry h => by
    by_cases hp : p = []
    · subst hp
      exact h
    · rw [entryAt?_prune hp] at h
      split at h
      · cases h
      · exact h
  below := fun p q hd hgone hq => by
    have hp : p ≠ [] := by
      rintro rfl
      cases hgone
    have hqnil : q ≠ [] := by
      rintro rfl
      exact hp (List.prefix_nil.mp hq)
    rw [entryAt?_prune hp] at hgone
    split at hgone
    · rename_i hp
      have below : place <+: q ∧ (q = place → keepRoot = false) := by
        refine ⟨hp.1.trans hq, ?_⟩
        rintro rfl
        exact hp.2 (hq.eq_of_length_le hp.1.length_le)
      rw [entryAt?_prune hqnil, if_pos below]
    · exact absurd hgone hd

/-! ### Removing -/

/-- A path leads to nothing, not even to a dangling link. -/
def Absent (d : Disk) (path : String) : Prop :=
  ∀ follow place entry, d.locate follow path ≠ .ok (.found place entry)

theorem absent_of_unfollowed (h : ∀ place entry, d.locate false path ≠ .ok (.found place entry)) :
    d.Absent path := by
  intro follow place entry hl
  obtain ⟨place', entry', hl'⟩ := locate_unfollowed hl
  exact h place' entry' hl'

theorem Absent.within (h : d.Absent path) (hw : d'.Within d) : d'.Absent path := by
  intro follow place entry hl
  obtain ⟨entry', hl', -⟩ := locate_within hw hl
  exact h follow place entry' hl'

/-- A removal drops what stands at or below a place that is no file's, or nothing, with a fault. -/
theorem removeAll_eq (d : Disk) (path : String) :
    (d.removeAll path).cleared = none ∧ (d.removeAll path).disk = d ∧
        (d.removeAll path).fault ≠ none ∨
      ∃ place entry keepRoot, (d.removeAll path).cleared = some place ∧
        (d.removeAll path).disk = d.prune place keepRoot ∧
        d.locate false path = .ok (.found place entry) ∧ ∀ bytes, entry ≠ .file bytes := by
  unfold removeAll
  split
  · rename_i place hl
    split
    · dsimp only
      split <;> exact .inr ⟨place, _, true, rfl, rfl, hl, nofun⟩
    · exact .inr ⟨place, _, false, rfl, rfl, hl, nofun⟩
  · rename_i place target hl
    exact .inr ⟨place, _, false, rfl, rfl, hl, nofun⟩
  · exact .inl ⟨rfl, rfl, nofun⟩
  · exact .inl ⟨rfl, rfl, nofun⟩
  · exact .inl ⟨rfl, rfl, nofun⟩

theorem removeAll_erodes (d : Disk) (path : String) : d.Erodes (d.removeAll path).disk := by
  rcases removeAll_eq d path with ⟨-, hd, -⟩ | ⟨place, _, keepRoot, -, hd, -, -⟩
  · rw [hd]
    exact .refl d
  · rw [hd]
    exact prune_erodes d place keepRoot

/-- After a removal that fails at most because nothing was found, nothing is found. -/
theorem absent_removeAll (h : ∀ fault, (d.removeAll path).fault = some fault → fault = .notFound) :
    (d.removeAll path).disk.Absent path := by
  -- What a path still leads to would have been what was removed.
  have pruned {place : Place} {entry : Entry} (hl : d.locate false path = .ok (.found place entry))
      (hp : place ≠ []) : (d.prune place false).Absent path := by
    refine absent_of_unfollowed fun place' entry' hl' => ?_
    obtain ⟨entry'', hl'', -⟩ := locate_within (prune_erodes d place false).within hl'
    rw [hl] at hl''
    cases hl''
    have he := (locate_eq_ok.mp hl').2.entryAt?_found
    rw [entryAt?_prune hp, if_pos ⟨List.prefix_rfl, fun _ => rfl⟩] at he
    cases he
  unfold removeAll at h ⊢
  split at h
  · rename_i place hl
    by_cases hdots : (endsInDots path || place.isEmpty) = true
    · rw [if_pos hdots] at h ⊢
      dsimp only at h ⊢
      split at h
      · cases h _ rfl
      · rename_i fault hrest
        refine absent_of_unfollowed fun place' entry' hl' => ?_
        rw [hrest] at hl'
        cases hl'
    · rw [if_neg hdots]
      refine pruned hl ?_
      rintro rfl
      simp at hdots
  · rename_i place target hl
    refine pruned hl ?_
    rintro rfl
    cases (locate_eq_ok.mp hl).2.entryAt?_found
  · cases h _ rfl
  · rename_i place hl
    exact absent_of_unfollowed fun _ _ hl' => by
      rw [hl] at hl'
      cases hl'
  · rename_i fault hl
    exact absent_of_unfollowed fun _ _ hl' => by
      rw [hl] at hl'
      cases hl'

/-- A file stays unless what stood at or above it was taken away. -/
theorem entryAt?_removeAll_file {bytes : ByteArray} (hd : d.entryAt? p = some (.file bytes)) :
    (d.removeAll path).disk.entryAt? p = some (.file bytes) ↔
      ∀ place, (d.removeAll path).cleared = some place → ¬ place <+: p := by
  have hp : p ≠ [] := by
    rintro rfl
    cases hd
  rcases removeAll_eq d path with ⟨hc, he, -⟩ | ⟨place, entry, keepRoot, hc, he, hl, hfile⟩
  · rw [he, hc]
    exact ⟨fun _ => nofun, fun _ => hd⟩
  · rw [he, hc, entryAt?_prune hp]
    constructor
    · rintro hkept _ ⟨⟩ hbelow
      split at hkept
      · cases hkept
      · rename_i hgone
        refine hgone ⟨hbelow, fun heq => ?_⟩
        -- What is taken away from is no file, so it is not the file itself.
        subst heq
        rw [(locate_eq_ok.mp hl).2.entryAt?_found] at hd
        cases hd
        exact absurd rfl (hfile bytes)
    · intro h
      rw [if_neg fun hgone => h place rfl hgone.1, hd]

/-- What stands below a directory that a path leads to goes with the removal of the path. -/
theorem entryAt?_removeAll_found (hl : d.locate false path = .ok (.found place .directory))
    (hp : place <+: p) (hne : p ≠ place) : (d.removeAll path).disk.entryAt? p = none := by
  have hnil : p ≠ [] := by
    rintro rfl
    exact hne (List.prefix_nil.mp hp).symm
  rcases removeAll_eq d path with ⟨hc, -, -⟩ | ⟨place', entry, keepRoot, hc, he, hl', hfile⟩
  · unfold removeAll at hc
    rw [hl] at hc
    dsimp only at hc
    split at hc
    · split at hc <;> cases hc
    · cases hc
  · rw [hl] at hl'
    cases hl'
    rw [he, entryAt?_prune hnil, if_pos ⟨hp, fun heq => absurd heq hne⟩]

end Longbox.Disk
