import Longbox.Disk.Change

/-! Where paths lead.

`Disk.Walks` says in steps what `Disk.walk` computes (`walk_eq_iff`): a walk goes down a directory, up,
through a link, or ends. What a walk finds stays to be found when a tree grows (`Walks.within`), and a
walk through a longer path enters the directories that a shorter one leads to (`Walks.split`). -/
namespace Longbox

/-- Two entries differ at most in the bytes of a file. -/
inductive Entry.Like : Entry → Entry → Prop where
  | directory : Entry.Like .directory .directory
  | file (a b : ByteArray) : Entry.Like (.file a) (.file b)
  | link (target : String) : Entry.Like (.link target) (.link target)

theorem Entry.Like.refl (e : Entry) : e.Like e := by
  cases e with
  | directory => exact .directory
  | file bytes => exact .file bytes bytes
  | link target => exact .link target

theorem Entry.Like.trans {a b c : Entry} (h : a.Like b) (h' : b.Like c) : a.Like c := by
  cases h with
  | directory => exact h'
  | file x y =>
    cases h'
    exact .file _ _
  | link target => exact h'

def Spot.place : Spot → Place
  | .found place _ | .vacant place => place

namespace Disk

/-- A name that a walk passes over. -/
def isIdle (name : String) : Bool :=
  name.isEmpty || name == "."

/-- A name that a directory can have an entry by. -/
structure IsProper (name : String) : Prop where
  notIdle : isIdle name = false
  notUp : (name == "..") = false

/-- Where the names of a link's target are followed from. -/
def landing (here : Place) (target : String) : Place :=
  if Path.isAbsolute target then [] else here

/-- A walk through names, from a directory to a spot, through at most `links` links. -/
inductive Walks (d : Disk) (follow : Bool) : Nat → Place → List String → Spot → Prop where
  | ends {links : Nat} {here : Place} {entry : Entry} (he : d.entryAt? here = some entry) :
      Walks d follow links here [] (.found here entry)
  | stays {links : Nat} {here : Place} {name : String} {rest : List String} {spot : Spot}
      (hn : isIdle name = true) (h : Walks d follow links here rest spot) :
      Walks d follow links here (name :: rest) spot
  | rises {links : Nat} {here : Place} {rest : List String} {spot : Spot}
      (h : Walks d follow links here.dropLast rest spot) :
      Walks d follow links here (".." :: rest) spot
  | enters {links : Nat} {here : Place} {name : String} {rest : List String} {spot : Spot}
      (hn : IsProper name) (hl : name.utf8ByteSize ≤ maxNameBytes)
      (he : d.entryAt? (here ++ [name]) = some .directory)
      (h : Walks d follow links (here ++ [name]) rest spot) :
      Walks d follow links here (name :: rest) spot
  | gets {links : Nat} {here : Place} {name : String} {bytes : ByteArray} (hn : IsProper name)
      (hl : name.utf8ByteSize ≤ maxNameBytes)
      (he : d.entryAt? (here ++ [name]) = some (.file bytes)) :
      Walks d follow links here [name] (.found (here ++ [name]) (.file bytes))
  | misses {links : Nat} {here : Place} {name : String} {rest : List String} (hn : IsProper name)
      (hl : name.utf8ByteSize ≤ maxNameBytes) (he : d.entryAt? (here ++ [name]) = none)
      (hr : rest.all String.isEmpty = true) :
      Walks d follow links here (name :: rest) (.vacant (here ++ [name]))
  | stops {links : Nat} {here : Place} {name target : String} (hn : IsProper name)
      (hl : name.utf8ByteSize ≤ maxNameBytes)
      (he : d.entryAt? (here ++ [name]) = some (.link target)) (hf : follow = false) :
      Walks d follow links here [name] (.found (here ++ [name]) (.link target))
  | jumps {links : Nat} {here : Place} {name target : String} {rest : List String} {spot : Spot}
      (hn : IsProper name) (hl : name.utf8ByteSize ≤ maxNameBytes)
      (he : d.entryAt? (here ++ [name]) = some (.link target)) (hf : rest ≠ [] ∨ follow = true)
      (h : Walks d follow links (landing here target) (pathNames target ++ rest) spot) :
      Walks d follow (links + 1) here (name :: rest) spot

variable {d d' : Disk} {follow : Bool} {links : Nat} {here : Place} {names : List String}
  {spot : Spot}

/-- A step of a walk by a name that is neither idle nor `..`. -/
theorem walkNames_proper {onLink : Place → List String → Except Fault Spot} {name : String}
    {rest : List String} (hn : IsProper name) (hl : name.utf8ByteSize ≤ maxNameBytes) :
    d.walkNames follow onLink here (name :: rest) =
      match d.entryAt? (here ++ [name]) with
      | none => if rest.all String.isEmpty then .ok (.vacant (here ++ [name])) else .error .notFound
      | some .directory => d.walkNames follow onLink (here ++ [name]) rest
      | some (.file bytes) =>
        if rest.isEmpty then .ok (.found (here ++ [name]) (.file bytes)) else .error .notADirectory
      | some (.link target) =>
        if rest.isEmpty && !follow then .ok (.found (here ++ [name]) (.link target))
        else onLink (landing here target) (pathNames target ++ rest) := by
  have hidle : (name.isEmpty || name == ".") = false := hn.notIdle
  rw [walkNames, if_neg (by simp [hidle]), if_neg (by simp [hn.notUp]), if_neg (by omega)]
  rfl

/-- What happens at a link when that many more may be passed. -/
def jump (d : Disk) (follow : Bool) : Nat → Place → List String → Except Fault Spot
  | 0 => fun _ _ => .error .tooManyLinks
  | links + 1 => d.walk follow links

theorem walk_eq (d : Disk) (follow : Bool) (links : Nat) :
    d.walk follow links = d.walkNames follow (d.jump follow links) := by
  cases links <;> rfl

theorem walkNames_idle {onLink : Place → List String → Except Fault Spot} {name : String}
    {rest : List String} (hn : isIdle name = true) :
    d.walkNames follow onLink here (name :: rest) = d.walkNames follow onLink here rest := by
  have hidle : (name.isEmpty || name == ".") = true := hn
  rw [walkNames, if_pos hidle]

theorem walkNames_up {onLink : Place → List String → Except Fault Spot} {rest : List String} :
    d.walkNames follow onLink here (".." :: rest) =
      d.walkNames follow onLink here.dropLast rest := by
  rw [walkNames, if_neg (by decide), if_pos (by decide)]

theorem walks_of_walkNames {onLink : Place → List String → Except Fault Spot}
    (hlink : ∀ here names, onLink here names = .ok spot →
      ∃ n, links = n + 1 ∧ d.Walks follow n here names spot)
    (h : d.walkNames follow onLink here names = .ok spot) :
    d.Walks follow links here names spot := by
  induction names generalizing here with
  | nil =>
    rw [walkNames] at h
    split at h
    · rename_i entry he
      cases h
      exact .ends he
    · cases h
  | cons name rest ih =>
    by_cases hidle : isIdle name = true
    · rw [walkNames_idle hidle] at h
      exact .stays hidle (ih h)
    by_cases hup : name = ".."
    · subst hup
      rw [walkNames_up] at h
      exact .rises (ih h)
    have hn : IsProper name := ⟨by simpa using hidle, by simpa using hup⟩
    by_cases hl : name.utf8ByteSize ≤ maxNameBytes
    · rw [walkNames_proper hn hl] at h
      split at h
      · rename_i he
        split at h
        · rename_i hr
          cases h
          exact .misses hn hl he hr
        · cases h
      · rename_i he
        exact .enters hn hl he (ih h)
      · rename_i bytes he
        split at h
        · rename_i hr
          obtain rfl := List.isEmpty_iff.mp hr
          cases h
          exact .gets hn hl he
        · cases h
      · rename_i target he
        split at h
        · rename_i hstop
          rw [Bool.and_eq_true, Bool.not_eq_true', List.isEmpty_iff] at hstop
          obtain ⟨rfl, hf⟩ := hstop
          cases h
          exact .stops hn hl he hf
        · rename_i hgo
          obtain ⟨n, rfl, hwalk⟩ := hlink _ _ h
          refine .jumps hn hl he ?_ hwalk
          cases follow with
          | true => exact .inr rfl
          | false => exact .inl (by simpa using hgo)
    · rw [walkNames, if_neg (by simpa [isIdle] using hidle), if_neg (by simpa using hup),
        if_pos (by omega)] at h
      cases h

theorem walk_eq_iff : d.walk follow links here names = .ok spot ↔
    d.Walks follow links here names spot := by
  constructor
  · intro h
    induction links generalizing here names with
    | zero =>
      rw [walk_eq] at h
      refine walks_of_walkNames ?_ h
      intro _ _ hjump
      cases hjump
    | succ links ih =>
      rw [walk_eq] at h
      refine walks_of_walkNames ?_ h
      intro _ _ hjump
      exact ⟨links, rfl, ih hjump⟩
  · intro h
    induction h with
    | ends he => rw [walk_eq, walkNames, he]
    | stays hn h ih => rwa [walk_eq, walkNames_idle hn, ← walk_eq]
    | rises h ih => rwa [walk_eq, walkNames_up, ← walk_eq]
    | enters hn hl he h ih =>
      rw [walk_eq, walkNames_proper hn hl, he, ← walk_eq]
      exact ih
    | gets hn hl he =>
      rw [walk_eq, walkNames_proper hn hl, he]
      rfl
    | misses hn hl he hr =>
      rw [walk_eq, walkNames_proper hn hl, he]
      exact if_pos hr
    | stops hn hl he hf =>
      rw [walk_eq, walkNames_proper hn hl, he, hf]
      rfl
    | jumps hn hl he hf h ih =>
      rw [walk_eq, walkNames_proper hn hl, he]
      refine (if_neg ?_).trans ih
      rcases hf with hf | hf
      · simp [hf]
      · simp [hf]

theorem Walks.of_idle {name : String} (hn : isIdle name = true)
    (h : d.Walks follow links here (name :: names) spot) : d.Walks follow links here names spot := by
  have hwalk := walk_eq_iff.mpr h
  rw [walk_eq, walkNames_idle hn, ← walk_eq] at hwalk
  exact walk_eq_iff.mp hwalk

/-! ### What is found -/

theorem Walks.entryAt?_found {place : Place} {entry : Entry}
    (h : d.Walks follow links here names (.found place entry)) : d.entryAt? place = some entry := by
  generalize hs : Spot.found place entry = spot at h
  induction h with
  | ends he | gets _ _ he | stops _ _ he =>
    cases hs
    exact he
  | misses => cases hs
  | stays _ _ ih | rises _ ih | enters _ _ _ _ ih | jumps _ _ _ _ _ ih => exact ih hs

theorem Walks.entryAt?_vacant {place : Place} (h : d.Walks follow links here names (.vacant place)) :
    d.entryAt? place = none := by
  generalize hs : Spot.vacant place = spot at h
  induction h with
  | ends | gets | stops => cases hs
  | misses _ _ he =>
    cases hs
    exact he
  | stays _ _ ih | rises _ ih | enters _ _ _ _ ih | jumps _ _ _ _ _ ih => exact ih hs

/-- If something is found with the last link followed, something is found without. -/
theorem Walks.found_unfollowed {place : Place} {entry : Entry}
    (h : d.Walks follow links here names (.found place entry)) :
    ∃ place entry, d.Walks false links here names (.found place entry) := by
  generalize hs : Spot.found place entry = spot at h
  induction h with
  | ends he => exact ⟨_, _, .ends he⟩
  | stays hn _ ih =>
    obtain ⟨p, e, h⟩ := ih hs
    exact ⟨p, e, .stays hn h⟩
  | rises _ ih =>
    obtain ⟨p, e, h⟩ := ih hs
    exact ⟨p, e, .rises h⟩
  | enters hn hl he _ ih =>
    obtain ⟨p, e, h⟩ := ih hs
    exact ⟨p, e, .enters hn hl he h⟩
  | gets hn hl he => exact ⟨_, _, .gets hn hl he⟩
  | misses => cases hs
  | stops hn hl he => exact ⟨_, _, .stops hn hl he rfl⟩
  | @jumps _ here name target rest _ hn hl he hf _ ih =>
    obtain ⟨p, e, h⟩ := ih hs
    by_cases hr : rest = []
    · subst hr
      exact ⟨_, _, .stops hn hl he rfl⟩
    · exact ⟨p, e, .jumps hn hl he (.inl hr) h⟩

/-! ### Trees that grow -/

/-- What stands in `d` stands in `d'` too, files with other bytes perhaps. -/
structure Within (d d' : Disk) : Prop where
  workingDir : d'.workingDir = d.workingDir
  entries : ∀ place entry, d.entryAt? place = some entry →
    ∃ entry', d'.entryAt? place = some entry' ∧ entry.Like entry'

theorem Within.refl (d : Disk) : d.Within d :=
  ⟨rfl, fun _ entry h => ⟨entry, h, Entry.Like.refl entry⟩⟩

theorem Within.trans {d'' : Disk} (h : d.Within d') (h' : d'.Within d'') : d.Within d'' where
  workingDir := h'.workingDir.trans h.workingDir
  entries := fun place entry he => by
    obtain ⟨entry', he', hlike⟩ := h.entries place entry he
    obtain ⟨entry'', he'', hlike'⟩ := h'.entries place entry' he'
    exact ⟨entry'', he'', hlike.trans hlike'⟩

theorem Within.directory (h : d.Within d') {place : Place}
    (he : d.entryAt? place = some .directory) : d'.entryAt? place = some .directory := by
  obtain ⟨_, he', ⟨⟩⟩ := h.entries place _ he
  exact he'

theorem Within.link (h : d.Within d') {place : Place} {target : String}
    (he : d.entryAt? place = some (.link target)) : d'.entryAt? place = some (.link target) := by
  obtain ⟨_, he', ⟨⟩⟩ := h.entries place _ he
  exact he'

theorem Within.file (h : d.Within d') {place : Place} {bytes : ByteArray}
    (he : d.entryAt? place = some (.file bytes)) :
    ∃ bytes', d'.entryAt? place = some (.file bytes') := by
  obtain ⟨_, he', hlike⟩ := h.entries place _ he
  cases hlike with
  | file _ bytes' => exact ⟨bytes', he'⟩

theorem Walks.within {place : Place} {entry : Entry} (hw : d.Within d')
    (h : d.Walks follow links here names (.found place entry)) :
    ∃ entry', d'.Walks follow links here names (.found place entry') ∧ entry.Like entry' := by
  generalize hs : Spot.found place entry = spot at h
  induction h with
  | ends he =>
    cases hs
    obtain ⟨entry', he', hlike⟩ := hw.entries _ _ he
    exact ⟨entry', .ends he', hlike⟩
  | stays hn _ ih =>
    obtain ⟨entry', h, hlike⟩ := ih hs
    exact ⟨entry', .stays hn h, hlike⟩
  | rises _ ih =>
    obtain ⟨entry', h, hlike⟩ := ih hs
    exact ⟨entry', .rises h, hlike⟩
  | enters hn hl he _ ih =>
    obtain ⟨entry', h, hlike⟩ := ih hs
    exact ⟨entry', .enters hn hl (hw.directory he) h, hlike⟩
  | gets hn hl he =>
    cases hs
    obtain ⟨bytes', he'⟩ := hw.file he
    exact ⟨_, .gets hn hl he', .file _ _⟩
  | misses => cases hs
  | stops hn hl he hf =>
    cases hs
    exact ⟨_, .stops hn hl (hw.link he) hf, .link _⟩
  | jumps hn hl he hf _ ih =>
    obtain ⟨entry', h, hlike⟩ := ih hs
    exact ⟨entry', .jumps hn hl (hw.link he) hf h, hlike⟩

theorem isIdle_of_isEmpty {name : String} (h : name.isEmpty = true) : isIdle name = true := by
  rw [isIdle, h]
  rfl

theorem walks_of_all_isEmpty {entry : Entry} (hr : names.all String.isEmpty = true)
    (he : d.entryAt? here = some entry) : d.Walks follow links here names (.found here entry) := by
  induction names with
  | nil => exact .ends he
  | cons name rest ih =>
    rw [List.all_cons, Bool.and_eq_true] at hr
    exact .stays (isIdle_of_isEmpty hr.1) (ih hr.2)

/-- A free name to which a directory comes is found. -/
theorem Walks.filled {place : Place} (hw : d.Within d') (he : d'.entryAt? place = some .directory)
    (h : d.Walks false links here names (.vacant place)) :
    d'.Walks true links here names (.found place .directory) := by
  generalize hs : Spot.vacant place = spot at h
  induction h with
  | ends | gets | stops => cases hs
  | misses hn hl _ hr =>
    cases hs
    exact .enters hn hl he (walks_of_all_isEmpty hr he)
  | stays hn _ ih => exact .stays hn (ih hs)
  | rises _ ih => exact .rises (ih hs)
  | enters hn hl hd _ ih => exact .enters hn hl (hw.directory hd) (ih hs)
  | jumps hn hl hd _ _ ih => exact .jumps hn hl (hw.link hd) (.inr rfl) (ih hs)

/-- A path that is not refused for its text. -/
structure IsUsable (path : String) : Prop where
  nonempty : path.isEmpty = false
  noNul : path.toList.contains (Char.ofNat 0) = false
  short : path.utf8ByteSize < maxPathBytes

theorem locate_eq_ok {path : String} : d.locate follow path = .ok spot ↔
    IsUsable path ∧ d.Walks follow maxLinks (d.start path) (pathNames path) spot := by
  unfold locate
  constructor
  · intro h
    split at h
    · cases h
    · split at h
      · cases h
      · split at h
        · cases h
        · rename_i hempty hnul hlong
          exact ⟨⟨by simpa using hempty, by simpa using hnul, by omega⟩, walk_eq_iff.mp h⟩
  · rintro ⟨⟨hempty, hnul, hshort⟩, h⟩
    rw [if_neg (by simp [hempty]), if_neg (by simpa using hnul), if_neg (by omega)]
    exact walk_eq_iff.mpr h

theorem start_within {path : String} (hw : d.Within d') : d'.start path = d.start path := by
  unfold start
  rw [hw.workingDir]

theorem locate_within {path : String} {place : Place} {entry : Entry} (hw : d.Within d')
    (h : d.locate follow path = .ok (.found place entry)) :
    ∃ entry', d'.locate follow path = .ok (.found place entry') ∧ entry.Like entry' := by
  obtain ⟨husable, hwalk⟩ := locate_eq_ok.mp h
  obtain ⟨entry', hwalk', hlike⟩ := hwalk.within hw
  rw [← start_within hw] at hwalk'
  exact ⟨entry', locate_eq_ok.mpr ⟨husable, hwalk'⟩, hlike⟩

/-- If a path leads to something with a last link followed, it does so without. -/
theorem locate_unfollowed {path : String} {place : Place} {entry : Entry}
    (h : d.locate follow path = .ok (.found place entry)) :
    ∃ place entry, d.locate false path = .ok (.found place entry) := by
  obtain ⟨husable, hwalk⟩ := locate_eq_ok.mp h
  obtain ⟨place', entry', hwalk'⟩ := hwalk.found_unfollowed
  exact ⟨place', entry', locate_eq_ok.mpr ⟨husable, hwalk'⟩⟩

theorem isDirectory_iff {path : String} :
    d.isDirectory path = true ↔ ∃ place, d.locate true path = .ok (.found place .directory) := by
  unfold isDirectory stat
  constructor
  · intro h
    split at h
    · rename_i place hstat
      split at hstat
      · rename_i place' entry' hl
        cases hstat
        exact ⟨place, hl⟩
      · cases hstat
      · cases hstat
    · cases h
  · rintro ⟨place, h⟩
    rw [h]

theorem isDirectory_within {path : String} (hw : d.Within d') (h : d.isDirectory path = true) :
    d'.isDirectory path = true := by
  obtain ⟨place, hl⟩ := isDirectory_iff.mp h
  obtain ⟨_, hl', ⟨⟩⟩ := locate_within hw hl
  exact isDirectory_iff.mpr ⟨place, hl'⟩

/-! ### Walks in stages -/

/-- Through directories and links, the names lead from `here` to `there`, which leaves some of the
links. -/
inductive Leads (d : Disk) : Nat → Place → List String → Nat → Place → Prop where
  | refl (links : Nat) (here : Place) : Leads d links here [] links here
  | stays {links left : Nat} {here there : Place} {name : String} {rest : List String}
      (hn : isIdle name = true) (h : Leads d links here rest left there) :
      Leads d links here (name :: rest) left there
  | rises {links left : Nat} {here there : Place} {rest : List String}
      (h : Leads d links here.dropLast rest left there) :
      Leads d links here (".." :: rest) left there
  | enters {links left : Nat} {here there : Place} {name : String} {rest : List String}
      (hn : IsProper name) (hl : name.utf8ByteSize ≤ maxNameBytes)
      (he : d.entryAt? (here ++ [name]) = some .directory)
      (h : Leads d links (here ++ [name]) rest left there) :
      Leads d links here (name :: rest) left there
  | jumps {links left : Nat} {here there : Place} {name target : String} {rest : List String}
      (hn : IsProper name) (hl : name.utf8ByteSize ≤ maxNameBytes)
      (he : d.entryAt? (here ++ [name]) = some (.link target))
      (h : Leads d links (landing here target) (pathNames target ++ rest) left there) :
      Leads d (links + 1) here (name :: rest) left there

variable {left : Nat} {there : Place} {more : List String}

theorem Leads.within (hw : d.Within d') (h : d.Leads links here names left there) :
    d'.Leads links here names left there := by
  induction h with
  | refl => exact .refl _ _
  | stays hn _ ih => exact .stays hn ih
  | rises _ ih => exact .rises ih
  | enters hn hl he _ ih => exact .enters hn hl (hw.directory he) ih
  | jumps hn hl he _ ih => exact .jumps hn hl (hw.link he) ih

/-- Names that come after do not change where the first ones lead. -/
theorem Walks.of_leads (h : d.Leads links here names left there)
    (hw : d.Walks follow left there more spot) (hm : more ≠ []) :
    d.Walks follow links here (names ++ more) spot := by
  induction h with
  | refl => exact hw
  | stays hn _ ih => exact .stays hn (ih hw)
  | rises _ ih => exact .rises (ih hw)
  | enters hn hl he _ ih => exact .enters hn hl he (ih hw)
  | jumps hn hl he _ ih =>
    refine .jumps hn hl he (.inl (by simp [hm])) ?_
    have := ih hw
    rwa [List.append_assoc] at this

/-- A walk that has names to come is led to where these are followed, unless it ends before in a free
name with nothing but slashes behind it. -/
theorem Walks.split (nonempty : more ≠ [])
    (hv : more.all String.isEmpty = true → ∀ place, spot ≠ .vacant place)
    (h : d.Walks follow links here (names ++ more) spot) :
    ∃ left there, d.Leads links here names left there ∧ d.Walks follow left there more spot := by
  generalize hall : names ++ more = all at h
  induction h generalizing names with
  | ends he => exact absurd (List.append_eq_nil_iff.mp hall).2 nonempty
  | stays hn h ih =>
    cases names with
    | nil =>
      obtain rfl : more = _ := hall
      exact ⟨_, _, .refl _ _, .stays hn h⟩
    | cons x xs =>
      obtain ⟨rfl, hrest⟩ := List.cons.inj hall
      obtain ⟨left, there, hl, hw⟩ := ih hv hrest
      exact ⟨left, there, .stays hn hl, hw⟩
  | rises h ih =>
    cases names with
    | nil =>
      obtain rfl : more = _ := hall
      exact ⟨_, _, .refl _ _, .rises h⟩
    | cons x xs =>
      obtain ⟨rfl, hrest⟩ := List.cons.inj hall
      obtain ⟨left, there, hl, hw⟩ := ih hv hrest
      exact ⟨left, there, .rises hl, hw⟩
  | enters hn hlen he h ih =>
    cases names with
    | nil =>
      obtain rfl : more = _ := hall
      exact ⟨_, _, .refl _ _, .enters hn hlen he h⟩
    | cons x xs =>
      obtain ⟨rfl, hrest⟩ := List.cons.inj hall
      obtain ⟨left, there, hl, hw⟩ := ih hv hrest
      exact ⟨left, there, .enters hn hlen he hl, hw⟩
  | gets hn hl he =>
    cases names with
    | nil =>
      obtain rfl : more = _ := hall
      exact ⟨_, _, .refl _ _, .gets hn hl he⟩
    | cons x xs => exact absurd (List.append_eq_nil_iff.mp (List.cons.inj hall).2).2 nonempty
  | misses hn hl he hr =>
    cases names with
    | nil =>
      obtain rfl : more = _ := hall
      exact ⟨_, _, .refl _ _, .misses hn hl he hr⟩
    | cons x xs =>
      have hrest : xs ++ more = _ := (List.cons.inj hall).2
      rw [← hrest, List.all_append, Bool.and_eq_true] at hr
      exact absurd rfl (hv hr.2 _)
  | stops hn hl he hf =>
    cases names with
    | nil =>
      obtain rfl : more = _ := hall
      exact ⟨_, _, .refl _ _, .stops hn hl he hf⟩
    | cons x xs => exact absurd (List.append_eq_nil_iff.mp (List.cons.inj hall).2).2 nonempty
  | @jumps _ here name target rest spot hn hlen he hf h ih =>
    cases names with
    | nil =>
      obtain rfl : more = _ := hall
      exact ⟨_, _, .refl _ _, .jumps hn hlen he hf h⟩
    | cons x xs =>
      obtain ⟨rfl, hrest⟩ := List.cons.inj hall
      have hjump : pathNames target ++ xs ++ more = pathNames target ++ rest := by
        rw [List.append_assoc, ← hrest]
        rfl
      obtain ⟨left, there, hl, hw⟩ := ih hv hjump
      exact ⟨left, there, .jumps hn hlen he hl, hw⟩

/-- A walk to a directory is led there. -/
theorem Walks.leads {place : Place} (h : d.Walks true links here names (.found place .directory)) :
    ∃ left, d.Leads links here names left place := by
  generalize hs : Spot.found place .directory = spot at h
  induction h with
  | ends he =>
    cases hs
    exact ⟨_, .refl _ _⟩
  | stays hn _ ih =>
    obtain ⟨left, h⟩ := ih hs
    exact ⟨left, .stays hn h⟩
  | rises _ ih =>
    obtain ⟨left, h⟩ := ih hs
    exact ⟨left, .rises h⟩
  | enters hn hl he _ ih =>
    obtain ⟨left, h⟩ := ih hs
    exact ⟨left, .enters hn hl he h⟩
  | gets | misses => cases hs
  | stops _ _ _ hf => cases hf
  | jumps hn hl he _ _ ih =>
    obtain ⟨left, h⟩ := ih hs
    exact ⟨left, .jumps hn hl he h⟩

/-- Names lead to one place. -/
theorem Leads.unique {left' : Nat} {there' : Place} (h : d.Leads links here names left there)
    (h' : d.Leads links here names left' there') : there' = there := by
  induction h with
  | refl =>
    cases h'
    rfl
  | stays hn _ ih =>
    cases h' with
    | stays _ h' => exact ih h'
    | rises => cases hn
    | enters hn' | jumps hn' => rw [hn'.notIdle] at hn; cases hn
  | rises _ ih =>
    cases h' with
    | stays hn => cases hn
    | rises h' => exact ih h'
    | enters hn' | jumps hn' => cases hn'.notUp
  | enters hn _ he _ ih =>
    cases h' with
    | stays hn' => rw [hn.notIdle] at hn'; cases hn'
    | rises => cases hn.notUp
    | enters _ _ _ h' => exact ih h'
    | jumps _ _ he' => rw [he] at he'; cases he'
  | jumps hn _ he _ ih =>
    cases h' with
    | stays hn' => rw [hn.notIdle] at hn'; cases hn'
    | rises => cases hn.notUp
    | enters _ _ he' => rw [he] at he'; cases he'
    | jumps _ _ he' h' =>
      rw [he] at he'
      cases he'
      exact ih h'

/-! ### Below a place without links -/

/-- No link stands at or below the place. -/
def Unlinked (d : Disk) (place : Place) : Prop :=
  ∀ p target, place <+: p → d.entryAt? p ≠ some (.link target)

/-- The names that a walk goes down by. -/
def proper (names : List String) : List String :=
  names.filter fun name => !isIdle name

theorem proper_idle {name : String} (hn : isIdle name = true) (rest : List String) :
    proper (name :: rest) = proper rest := by
  simp [proper, hn]

theorem proper_cons {name : String} (hn : IsProper name) (rest : List String) :
    proper (name :: rest) = name :: proper rest := by
  simp [proper, hn.notIdle]

theorem proper_of_all_isEmpty (hr : names.all String.isEmpty = true) : proper names = [] := by
  rw [proper, List.filter_eq_nil_iff]
  intro name hname
  simp [isIdle, List.all_eq_true.mp hr name hname]

theorem utf8ByteSize_le_of_isIdle {name : String} (hn : isIdle name = true) :
    name.utf8ByteSize ≤ maxNameBytes := by
  rcases Bool.or_eq_true_iff.mp hn with hn | hn
  · rw [String.isEmpty_iff.mp hn]
    decide
  · rw [beq_iff_eq.mp hn]
    decide

/-- What a walk without links and without `..` has gone through when it comes to a place. -/
structure Descent (d : Disk) (here : Place) (names : List String) (place : Place) : Prop where
  leads : place = here ++ proper names
  directories : ∀ a b, proper names = a ++ b → a ≠ [] → b ≠ [] →
    d.entryAt? (here ++ a) = some .directory
  short : ∀ name ∈ names, name.utf8ByteSize ≤ maxNameBytes

theorem isProper_of_not_isIdle {name : String} (hi : isIdle name = false) (hu : name ≠ "..") :
    IsProper name :=
  ⟨hi, by simpa using hu⟩

/-- A last step down. -/
theorem descent_last {name : String} {rest : List String} (hn : IsProper name)
    (hl : name.utf8ByteSize ≤ maxNameBytes) (hr : rest.all String.isEmpty = true) :
    d.Descent here (name :: rest) (here ++ [name]) where
  leads := by rw [proper_cons hn, proper_of_all_isEmpty hr]
  directories := fun a b hab ha hb => by
    rw [proper_cons hn, proper_of_all_isEmpty hr] at hab
    cases a with
    | nil => exact absurd rfl ha
    | cons x xs => exact absurd (List.append_eq_nil_iff.mp (List.cons.inj hab).2.symm).2 hb
  short := fun x hx => by
    rcases List.mem_cons.mp hx with rfl | hx
    · exact hl
    · refine utf8ByteSize_le_of_isIdle ?_
      rw [isIdle, List.all_eq_true.mp hr x hx]
      rfl

theorem Walks.descent (hu : d.Unlinked here) (hn : ".." ∉ names)
    (h : d.Walks follow links here names spot) : d.Descent here names spot.place := by
  induction h with
  | ends he =>
    refine ⟨(List.append_nil _).symm, fun a b hab ha _ => ?_, nofun⟩
    exact absurd (List.append_eq_nil_iff.mp hab.symm).1 ha
  | stays hi h ih =>
    obtain ⟨leads, directories, short⟩ := ih hu fun hm => hn (List.mem_cons_of_mem _ hm)
    refine ⟨?_, ?_, fun x hx => ?_⟩
    · rw [proper_idle hi]
      exact leads
    · rw [proper_idle hi]
      exact directories
    · rcases List.mem_cons.mp hx with rfl | hx
      · exact utf8ByteSize_le_of_isIdle hi
      · exact short x hx
  | rises => exact absurd (List.mem_cons_self ..) hn
  | @enters _ here name rest spot hp hl he h ih =>
    have hu' : d.Unlinked (here ++ [name]) := fun p target hp =>
      hu p target ((List.prefix_append here [name]).trans hp)
    obtain ⟨leads, directories, short⟩ := ih hu' fun hm => hn (List.mem_cons_of_mem _ hm)
    refine ⟨?_, fun a b hab ha hb => ?_, fun x hx => ?_⟩
    · rw [leads, proper_cons hp, List.append_assoc]
      rfl
    · rw [proper_cons hp] at hab
      cases a with
      | nil => exact absurd rfl ha
      | cons x xs =>
        obtain ⟨rfl, hrest⟩ := List.cons.inj hab
        by_cases hxs : xs = []
        · subst hxs
          exact he
        · have := directories xs b hrest hxs hb
          rwa [List.append_assoc] at this
    · rcases List.mem_cons.mp hx with rfl | hx
      · exact hl
      · exact short x hx
  | gets hp hl he => exact descent_last hp hl (List.all_nil ..)
  | misses hp hl he hr => exact descent_last hp hl hr
  | stops hp hl he | jumps hp hl he => exact absurd he (hu _ _ (List.prefix_append ..))

/-- Directories all the way down are walked through. -/
theorem walks_of_directories (hn : ".." ∉ names)
    (hl : ∀ name ∈ names, name.utf8ByteSize ≤ maxNameBytes)
    (he : ∀ a b, proper names = a ++ b → d.entryAt? (here ++ a) = some .directory) :
    d.Walks follow links here names (.found (here ++ proper names) .directory) := by
  induction names generalizing here with
  | nil =>
    have := he [] [] rfl
    rw [List.append_nil] at this
    rw [proper, List.filter_nil, List.append_nil]
    exact .ends this
  | cons name rest ih =>
    have hn' : ".." ∉ rest := fun hm => hn (List.mem_cons_of_mem _ hm)
    have hl' : ∀ x ∈ rest, x.utf8ByteSize ≤ maxNameBytes :=
      fun x hx => hl x (List.mem_cons_of_mem _ hx)
    cases hi : isIdle name with
    | true =>
      rw [proper_idle hi] at he ⊢
      exact .stays hi (ih hn' hl' he)
    | false =>
      have hp : IsProper name :=
        isProper_of_not_isIdle hi fun h => hn (h ▸ List.mem_cons_self ..)
      rw [proper_cons hp] at he ⊢
      have below : d.Walks follow links (here ++ [name]) rest
          (.found (here ++ [name] ++ proper rest) .directory) := by
        refine ih hn' hl' fun a b hab => ?_
        have := he (name :: a) b (by rw [hab]; rfl)
        rwa [List.append_assoc]
      rw [List.append_assoc] at below
      exact .enters hp (hl name (List.mem_cons_self ..)) (he [name] (proper rest) rfl) below

end Disk
end Longbox
