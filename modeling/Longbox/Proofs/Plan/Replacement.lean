import Longbox.Proofs.Plan.Selection
import Mathlib.Data.List.Induction

/-! Which archives a selection leaves to be removed.

Several chapters of a catalog may supersede one archive, and a plan remembers the last of them
(`replacement?_plan`). So a selection keeps the removal of an archive just if it has that chapter:
`removes_select_iff` says when this is as good as having any chapter that supersedes the archive. -/
namespace Longbox

namespace Plan
variable {plan : Plan} {ids : List String} {path : String}

/-- The archive at the path is to be removed. -/
def removes (plan : Plan) (path : String) : Bool :=
  plan.toRemove.any fun other => Path.isSame other path

theorem replacement?_congr {other : String} (h : Path.isSame other path = true) :
    plan.replacement? other = plan.replacement? path := by
  unfold replacement?
  simp only [Path.isSame_congr_right h]

theorem removes_select (hids : ids ≠ []) :
    (plan.select ids).removes path = true ↔
      plan.removes path = true ∧ ∃ id ∈ ids, plan.replacement? path = some id := by
  simp only [removes, List.any_eq_true]
  constructor
  · rintro ⟨other, hother, hsame⟩
    obtain ⟨hmem, hid⟩ := (mem_toRemove_select hids).mp hother
    rw [replacement?_congr hsame] at hid
    exact ⟨⟨other, hmem, hsame⟩, hid⟩
  · rintro ⟨⟨other, hmem, hsame⟩, hid⟩
    rw [← replacement?_congr hsame] at hid
    exact ⟨other, (mem_toRemove_select hids).mpr ⟨hmem, hid⟩, hsame⟩

/-- What is written last about a path is what is read. -/
theorem find?_setReplacement (path id other : String) (entries : List (String × String)) :
    ((setReplacement path id entries).find? fun entry => Path.isSame entry.1 other).map (·.2) =
      if Path.isSame path other then some id
      else (entries.find? fun entry => Path.isSame entry.1 other).map (·.2) := by
  induction entries with
  | nil =>
    rw [setReplacement, List.find?_singleton]
    split <;> rfl
  | cons entry rest ih =>
    obtain ⟨key, earlier⟩ := entry
    rw [setReplacement]
    cases hkey : Path.isSame key path with
    | true =>
      rw [if_pos rfl, List.find?_cons, List.find?_cons, Path.isSame_congr_left hkey]
      cases Path.isSame path other <;> rfl
    | false =>
      rw [if_neg (by simp), List.find?_cons, List.find?_cons]
      cases hother : Path.isSame key other with
      | false => exact ih
      | true =>
        -- The entry is for the other path, so the path that is written is not.
        have haway : Path.isSame path other = false := by
          rw [Path.isSame_comm, ← Path.isSame_congr_left hother, hkey]
        rw [haway]
        rfl

end Plan

namespace Planner
variable {p : Planner} {catalog : List Chapter} {c : Chapter} {path : String} {ids : List String}

/-- The chapter is to be downloaded in place of the archive at the path. -/
def replaces (p : Planner) (c : Chapter) (path : String) : Bool :=
  (p.decide c).path?.any fun other => Path.isSame other path

/-- The last chapter of the catalog that supersedes the archive at the path. -/
def replacer? (p : Planner) (catalog : List Chapter) (path : String) : Option Chapter :=
  (catalog.filter fun c => p.replaces c path).getLast?

theorem mem_of_replacer? (h : p.replacer? catalog path = some c) :
    c ∈ catalog ∧ p.replaces c path = true :=
  List.mem_filter.mp (List.mem_of_getLast? h)

theorem replacer?_concat (p : Planner) (front : List Chapter) (c : Chapter) (path : String) :
    p.replacer? (front ++ [c]) path = if p.replaces c path then some c else p.replacer? front path := by
  unfold replacer?
  rw [List.filter_append]
  cases hreplaces : p.replaces c path <;> simp [hreplaces]

theorem removes_plan (p : Planner) (catalog : List Chapter) (path : String) :
    (p.plan catalog).removes path = catalog.any fun c => p.replaces c path := by
  rw [Plan.removes, toRemove_plan, List.any_filterMap]
  refine congrArg catalog.any (funext fun c => ?_)
  rw [replaces]
  cases (p.decide c).path? <;> rfl

theorem replacement?_extend (p : Planner) (plan : Plan) (c : Chapter) (path : String) :
    (p.extend plan c).replacement? path =
      if p.replaces c path then some c.id else plan.replacement? path := by
  unfold extend replaces
  cases p.decide c with
  | skip => rfl
  | download => rfl
  | replace other => exact Plan.find?_setReplacement other c.id path plan.replacedBy

/-- A plan holds the last chapter that supersedes an archive for its replacement. -/
theorem replacement?_plan (p : Planner) (catalog : List Chapter) (path : String) :
    (p.plan catalog).replacement? path = (p.replacer? catalog path).map Chapter.id := by
  induction catalog using List.reverseRecOn with
  | nil => rfl
  | append_singleton front c ih =>
    have last : p.plan (front ++ [c]) = p.extend (p.plan front) c := List.foldl_append ..
    rw [last, replacement?_extend, ih, replacer?_concat]
    cases p.replaces c path <;> rfl

/-- An archive stays to be removed after a selection just if the selection has the last chapter that
supersedes it, and then it has a chapter that does. That every chapter it has keeps its removals is so
just if for each archive that one of them supersedes it has the last one that does. -/
theorem removes_select_iff (p : Planner) (catalog : List Chapter) (hids : ids ≠ []) :
    (∀ path, ((p.plan catalog).select ids).removes path = true ↔
        ∃ c, p.replacer? catalog path = some c ∧ c.id ∈ ids) ∧
      ((∀ path, ((p.plan catalog).select ids).removes path = true ↔
          ∃ c ∈ catalog, c.id ∈ ids ∧ p.replaces c path = true) ↔
        ∀ c ∈ catalog, c.id ∈ ids → ∀ path, p.replaces c path = true →
          ∃ last, p.replacer? catalog path = some last ∧ last.id ∈ ids) := by
  have kept (path : String) : ((p.plan catalog).select ids).removes path = true ↔
      ∃ c, p.replacer? catalog path = some c ∧ c.id ∈ ids := by
    rw [Plan.removes_select hids, replacement?_plan, removes_plan, List.any_eq_true]
    constructor
    · rintro ⟨-, id, hid, hfound⟩
      obtain ⟨c, hc, rfl⟩ := Option.map_eq_some_iff.mp hfound
      exact ⟨c, hc, hid⟩
    · rintro ⟨c, hc, hid⟩
      exact ⟨⟨c, mem_of_replacer? hc⟩, c.id, hid, by rw [hc]; rfl⟩
  refine ⟨kept, fun hall c hc hid path hreplaces => ?_, fun hall path => ⟨fun hkept => ?_, ?_⟩⟩
  · exact (kept path).mp ((hall path).mpr ⟨c, hc, hid, hreplaces⟩)
  · obtain ⟨c, hlast, hid⟩ := (kept path).mp hkept
    obtain ⟨hc, hreplaces⟩ := mem_of_replacer? hlast
    exact ⟨c, hc, hid, hreplaces⟩
  · rintro ⟨c, hc, hid, hreplaces⟩
    exact (kept path).mpr (hall c hc hid path hreplaces)

/-- A number that comes in two volumes. -/
def twoVolumes : List Chapter :=
  [⟨"a", "1", "4", ""⟩, ⟨"b", "2", "4", ""⟩]

/-- The one archive with that number is from before there were volumes. -/
def beforeVolumes : Planner :=
  { looseArchive with naming := looseArchive.naming.withCatalog twoVolumes }

theorem removes_select_iff_lastVolume :
    ["b"] ≠ [] ∧ beforeVolumes.replacer? twoVolumes "lib/T/T Ch. 0004.cbz" = some ⟨"b", "2", "4", ""⟩ ∧
      ((beforeVolumes.plan twoVolumes).select ["b"]).removes "lib/T/T Ch. 0004.cbz" = true := by
  have some_selected : ["b"] ≠ [] := by decide
  have last : beforeVolumes.replacer? twoVolumes "lib/T/T Ch. 0004.cbz" = some ⟨"b", "2", "4", ""⟩ := by
    decide +kernel
  have kept := (removes_select_iff beforeVolumes twoVolumes some_selected).1 "lib/T/T Ch. 0004.cbz"
  exact ⟨some_selected, last, kept.mpr ⟨_, last, List.mem_singleton_self _⟩⟩

/-- Both chapters supersede the archive. With the first one selected it is downloaded, and the archive
that it supersedes stays. -/
theorem selection_drops_replacement :
    (twoVolumes.map Chapter.id).Nodup ∧ ["a"] ≠ [] ∧
      beforeVolumes.decide ⟨"a", "1", "4", ""⟩ = .replace "lib/T/T Ch. 0004.cbz" ∧
      ((beforeVolumes.plan twoVolumes).select ["a"]).toDownload = [⟨"a", "1", "4", ""⟩] ∧
      ((beforeVolumes.plan twoVolumes).select ["a"]).toRemove = [] := by
  decide +kernel

end Planner
end Longbox
