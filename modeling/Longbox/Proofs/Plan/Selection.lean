import Longbox.Proofs.Plan.Orphan

/-! What a plan says after any number of selections.

A plan lists the chapters to download, the archives to remove and, for each of these, the chapter that
replaces it. `Coherent` says how the lists fit together. Taking a chapter into a plan keeps it
(`coherent_extend`), a selection keeps it too (`Coherent.select`), and `plan_after_selections` says what
is left of a catalog when a series of selections is over. -/
namespace Longbox

namespace Plan
variable {plan : Plan} {archives : List Archive} {entries : List (String × String)}
  {ids : List String} {path id : String}

/-- The archives that the plan has a replacement for. -/
def replaced (plan : Plan) : List String :=
  plan.replacedBy.map Prod.fst

/-- The lists of a plan made against the archives fit together. Archives are named by their paths, and
two texts of one path name one archive. -/
structure Coherent (archives : List Archive) (plan : Plan) : Prop where
  existing : plan.existing = archives
  /-- What is to be removed is one of the archives. -/
  shelved : ∀ path ∈ plan.toRemove, ∃ a ∈ archives, a.path = path
  /-- What is to be removed has a replacement, and nothing else has. -/
  recorded : ∀ path ∈ plan.toRemove, ∃ key ∈ plan.replaced, Path.isSame key path = true
  removed : ∀ key ∈ plan.replaced, key ∈ plan.toRemove
  /-- Nothing has two replacements. -/
  distinct : plan.replaced.Pairwise fun key other => Path.isSame key other = false
  /-- What replaces an archive is to be downloaded. -/
  owned : ∀ entry ∈ plan.replacedBy, ∃ c ∈ plan.toDownload, c.id = entry.2

/-! ### The record of replacements -/

/-- A path that is in the record keeps its first text, another one comes to the end. -/
theorem map_fst_setReplacement (path id : String) (entries : List (String × String)) :
    (setReplacement path id entries).map Prod.fst =
      if entries.any fun entry => Path.isSame entry.1 path then entries.map Prod.fst
      else entries.map Prod.fst ++ [path] := by
  induction entries with
  | nil => rfl
  | cons entry rest ih =>
    obtain ⟨other, earlier⟩ := entry
    rw [setReplacement, List.any_cons]
    cases hsame : Path.isSame other path with
    | true => rfl
    | false =>
      rw [if_neg (by simp), List.map_cons, ih, Bool.false_or]
      split <;> rfl

theorem mem_setReplacement {entry : String × String} (h : entry ∈ setReplacement path id entries) :
    entry ∈ entries ∨ entry.2 = id := by
  induction entries with
  | nil => exact .inr (by rw [List.mem_singleton.mp h])
  | cons first rest ih =>
    obtain ⟨other, earlier⟩ := first
    rw [setReplacement] at h
    split at h
    · rcases List.mem_cons.mp h with rfl | h
      · exact .inr rfl
      · exact .inl (List.mem_cons_of_mem _ h)
    · rcases List.mem_cons.mp h with rfl | h
      · exact .inl (List.mem_cons_self ..)
      · exact (ih h).imp_left (List.mem_cons_of_mem _)

theorem mem_replacedBy_of_replacement? (h : plan.replacement? path = some id) :
    ∃ key, (key, id) ∈ plan.replacedBy ∧ Path.isSame key path = true := by
  obtain ⟨⟨key, _⟩, hfind, rfl⟩ := Option.map_eq_some_iff.mp h
  have hsame := List.find?_some hfind
  exact ⟨key, List.mem_of_find?_eq_some hfind, hsame⟩

/-- In a record of distinct paths each entry is the one that is looked up. -/
theorem replacement?_of_mem
    (hdistinct : plan.replaced.Pairwise fun key other => Path.isSame key other = false)
    {entry : String × String} (h : entry ∈ plan.replacedBy) :
    plan.replacement? entry.1 = some entry.2 := by
  unfold replaced at hdistinct
  unfold replacement?
  generalize plan.replacedBy = entries at h hdistinct
  induction entries with
  | nil => cases h
  | cons first rest ih =>
    rw [List.map_cons, List.pairwise_cons] at hdistinct
    rw [List.find?_cons]
    rcases List.mem_cons.mp h with rfl | h
    · rw [Path.isSame_refl]
      rfl
    · rw [hdistinct.1 _ (List.mem_map_of_mem h)]
      exact ih h hdistinct.2

/-- A chapter that is to be downloaded in place of an archive fits in. -/
theorem Coherent.replace (h : Coherent archives plan) (c : Chapter)
    (hpath : ∃ a ∈ archives, a.path = path) :
    Coherent archives
      { plan with
        toDownload := plan.toDownload ++ [c]
        toRemove := plan.toRemove ++ [path]
        replacedBy := setReplacement path c.id plan.replacedBy } := by
  have keys := map_fst_setReplacement path c.id plan.replacedBy
  have forall_removed {P : String → Prop} (hold : ∀ other ∈ plan.toRemove, P other) (hnew : P path) :
      ∀ other ∈ plan.toRemove ++ [path], P other :=
    List.forall_mem_append.mpr ⟨hold, List.forall_mem_singleton.mpr hnew⟩
  constructor
  case existing => exact h.existing
  case shelved => exact forall_removed h.shelved hpath
  case recorded =>
    unfold replaced
    rw [keys]
    split
    · rename_i hany
      obtain ⟨entry, hentry, hsame⟩ := List.any_eq_true.mp hany
      exact forall_removed h.recorded ⟨_, List.mem_map_of_mem hentry, hsame⟩
    · refine forall_removed (fun other hother => ?_)
        ⟨path, List.mem_append_right _ (List.mem_singleton_self _), Path.isSame_refl path⟩
      obtain ⟨key, hkey, hsame⟩ := h.recorded other hother
      exact ⟨key, List.mem_append_left _ hkey, hsame⟩
  case removed =>
    intro key hkey
    unfold replaced at hkey
    rw [keys] at hkey
    split at hkey
    · exact List.mem_append_left _ (h.removed key hkey)
    · exact (List.mem_append.mp hkey).elim (fun hkey => List.mem_append_left _ (h.removed key hkey))
        (List.mem_append_right _)
  case distinct =>
    unfold replaced
    rw [keys]
    split
    · exact h.distinct
    · rename_i hany
      refine List.pairwise_append.mpr
        ⟨h.distinct, List.pairwise_singleton _ _, fun key hkey other hother => ?_⟩
      obtain ⟨entry, hentry, rfl⟩ := List.mem_map.mp hkey
      rw [List.mem_singleton.mp hother]
      exact Bool.eq_false_iff.mpr fun hsame => hany (List.any_eq_true.mpr ⟨entry, hentry, hsame⟩)
  case owned =>
    intro entry hentry
    rcases mem_setReplacement hentry with hentry | hid
    · obtain ⟨c', hc', hown⟩ := h.owned entry hentry
      exact ⟨c', List.mem_append_left _ hc', hown⟩
    · exact ⟨c, List.mem_append_right _ (List.mem_singleton_self _), hid.symm⟩

/-! ### Selections -/

theorem select_nil (plan : Plan) : plan.select [] = plan :=
  rfl

theorem existing_select (plan : Plan) (ids : List String) : (plan.select ids).existing = plan.existing := by
  unfold select
  split <;> rfl

theorem toDownload_select (plan : Plan) (ids : List String) :
    (plan.select ids).toDownload =
      plan.toDownload.filter fun c => ids.isEmpty || ids.contains c.id := by
  unfold select
  cases ids.isEmpty with
  | true => exact (List.filter_eq_self.mpr fun _ _ => rfl).symm
  | false => rfl

theorem mem_toRemove_select (hids : ids ≠ []) :
    path ∈ (plan.select ids).toRemove ↔
      path ∈ plan.toRemove ∧ ∃ id ∈ ids, plan.replacement? path = some id := by
  rw [select, if_neg (by simpa using hids), List.mem_filter]
  refine and_congr_right fun _ => ?_
  cases plan.replacement? path <;> simp

theorem mem_replacedBy_select (hids : ids ≠ []) {entry : String × String} :
    entry ∈ (plan.select ids).replacedBy ↔ entry ∈ plan.replacedBy ∧ entry.2 ∈ ids := by
  rw [select, if_neg (by simpa using hids), List.mem_filter, List.contains_iff_mem]

theorem replaced_select_sublist (plan : Plan) (ids : List String) :
    (plan.select ids).replaced.Sublist plan.replaced := by
  unfold select replaced
  split
  · exact List.Sublist.refl _
  · exact List.filter_sublist.map _

theorem Coherent.select (h : Coherent archives plan) (ids : List String) :
    Coherent archives (plan.select ids) := by
  by_cases hids : ids = []
  · rw [hids]
    exact h
  constructor
  case existing => rw [existing_select, h.existing]
  case shelved =>
    intro path hpath
    exact h.shelved path ((mem_toRemove_select hids).mp hpath).1
  case recorded =>
    intro path hpath
    obtain ⟨-, id, hid, hfound⟩ := (mem_toRemove_select hids).mp hpath
    obtain ⟨key, hentry, hsame⟩ := mem_replacedBy_of_replacement? hfound
    exact ⟨key, List.mem_map.mpr ⟨_, (mem_replacedBy_select hids).mpr ⟨hentry, hid⟩, rfl⟩, hsame⟩
  case removed =>
    intro key hkey
    obtain ⟨entry, hentry, rfl⟩ := List.mem_map.mp hkey
    obtain ⟨hmem, hid⟩ := (mem_replacedBy_select hids).mp hentry
    -- No earlier entry is for this path, so the entry that is kept is also the one that is looked up.
    refine (mem_toRemove_select hids).mpr ⟨h.removed _ (List.mem_map_of_mem hmem), entry.2, hid, ?_⟩
    exact replacement?_of_mem h.distinct hmem
  case distinct => exact h.distinct.sublist (replaced_select_sublist plan ids)
  case owned =>
    intro entry hentry
    obtain ⟨hmem, hid⟩ := (mem_replacedBy_select hids).mp hentry
    obtain ⟨c, hc, hown⟩ := h.owned entry hmem
    refine ⟨c, ?_, hown⟩
    rw [toDownload_select, List.mem_filter]
    exact ⟨hc, by simp [hown, hid]⟩

/-- The plan after one selection after another. -/
def selectAll (plan : Plan) (selections : List (List String)) : Plan :=
  selections.foldl select plan

theorem Coherent.selectAll (h : Coherent archives plan) (selections : List (List String)) :
    Coherent archives (plan.selectAll selections) := by
  induction selections generalizing plan with
  | nil => exact h
  | cons ids rest ih => exact ih (h.select ids)

theorem toDownload_selectAll (plan : Plan) (selections : List (List String)) :
    (plan.selectAll selections).toDownload =
      plan.toDownload.filter fun c =>
        selections.all fun ids => ids.isEmpty || ids.contains c.id := by
  induction selections generalizing plan with
  | nil => exact (List.filter_eq_self.mpr fun _ _ => rfl).symm
  | cons ids rest ih =>
    have step : plan.selectAll (ids :: rest) = (plan.select ids).selectAll rest := rfl
    rw [step, ih, toDownload_select, List.filter_filter]
    refine List.filter_congr fun c _ => ?_
    rw [List.all_cons, Bool.and_comm]

/-- Selections of nothing may as well be left out. -/
theorem selectAll_filter (plan : Plan) (selections : List (List String)) :
    plan.selectAll (selections.filter fun ids => !ids.isEmpty) = plan.selectAll selections := by
  unfold selectAll
  induction selections generalizing plan with
  | nil => rfl
  | cons ids rest ih =>
    cases ids with
    | nil => exact ih plan
    | cons id ids => exact ih (plan.select (id :: ids))

end Plan

namespace Planner
variable {p : Planner} {c : Chapter} {a : Archive} {plan : Plan}

theorem mem_of_archiveOf? (h : p.archiveOf? c = some a) : a ∈ p.existing := by
  unfold archiveOf? at h
  split at h
  · rename_i named hnamed
    cases h
    exact List.mem_of_find?_eq_some hnamed
  · split at h
    · cases h
    · exact List.mem_of_find?_eq_some h

theorem exists_of_replace {path : String} (h : p.decide c = .replace path) :
    ∃ a ∈ p.existing, a.path = path := by
  obtain ⟨a, _, hs, hpath⟩ := decide_eq_replace.mp h
  exact ⟨a, mem_of_archiveOf? hs.archive, hpath⟩

theorem coherent_extend (h : plan.Coherent p.existing) (c : Chapter) :
    (p.extend plan c).Coherent p.existing := by
  unfold extend
  cases hd : p.decide c with
  | skip => exact h
  | download =>
    refine { h with owned := fun entry hentry => ?_ }
    obtain ⟨c', hc', hown⟩ := h.owned entry hentry
    exact ⟨c', List.mem_append_left _ hc', hown⟩
  | replace path => exact h.replace c (exists_of_replace hd)

theorem coherent_plan (p : Planner) (catalog : List Chapter) :
    (p.plan catalog).Coherent p.existing := by
  have start : Plan.Coherent p.existing { existing := p.existing } :=
    ⟨rfl, nofun, nofun, nofun, .nil, nofun⟩
  unfold plan
  generalize ({ existing := p.existing } : Plan) = plan at start
  induction catalog generalizing plan with
  | nil => exact start
  | cons c rest ih => exact ih _ (coherent_extend start c)

/-- After a plan and any number of selections there are to be downloaded, in the order of the catalog,
the chapters that are not skipped and that each selection of something has. The plan's lists fit
together, with the archives that it was made against, and selecting nothing leaves it as it is. -/
theorem plan_after_selections (p : Planner) (catalog : List Chapter) (selections : List (List String)) :
    let plan := (p.plan catalog).selectAll selections
    plan.toDownload =
        catalog.filter (fun c => p.decide c != .skip &&
          selections.all fun ids => ids.isEmpty || ids.contains c.id) ∧
      plan.Coherent p.existing ∧
      plan.select [] = plan ∧
      (p.plan catalog).selectAll (selections.filter fun ids => !ids.isEmpty) = plan := by
  refine ⟨?_, (coherent_plan p catalog).selectAll selections, Plan.select_nil _,
    Plan.selectAll_filter _ selections⟩
  rw [Plan.toDownload_selectAll, toDownload_plan, List.filter_filter]
  exact List.filter_congr fun c _ => Bool.and_comm _ _

end Planner
end Longbox
