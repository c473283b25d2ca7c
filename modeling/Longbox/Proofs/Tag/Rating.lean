import Longbox.Tag.Mapper

/-! What rating an audience of tags gets.

A rating is implied when a renamed tag and a rating mapping spell one tag (`Rates`). The highest rating is
the strictest of those (`highestAgeRating_eq_some_iff`), whatever the order in which they are met, so that
tags may be rated in parts and only more tags and more mappings make a rating stricter
(`highestAgeRating_strictest`). -/
namespace Longbox

namespace AgeRating
variable {r s : AgeRating} {rs : List AgeRating}

/-! ### The strictest of some ratings -/

theorem all_strictness (r : AgeRating) : all[r.strictness]? = some r := by
  cases r <;> rfl

theorem eq_of_strictness_eq (h : r.strictness = s.strictness) : r = s := by
  have place := all_strictness r
  rw [h, all_strictness s] at place
  exact (Option.some.inj place).symm

theorem strictness_stricter (r s : AgeRating) :
    (stricter r s).strictness = max r.strictness s.strictness := by
  unfold stricter
  split <;> omega

theorem stricter_eq_or (r s : AgeRating) : stricter r s = r ∨ stricter r s = s := by
  unfold stricter
  split
  · exact .inr rfl
  · exact .inl rfl

instance : Std.Associative stricter where
  assoc a b c := eq_of_strictness_eq <| by
    rw [strictness_stricter, strictness_stricter, strictness_stricter, strictness_stricter,
      Nat.max_assoc]

theorem strictest?_cons (r : AgeRating) (rs : List AgeRating) :
    strictest? (r :: rs) = (some r).merge stricter (strictest? rs) := by
  cases rs with
  | nil => rfl
  | cons s rs =>
    show some (rs.foldl stricter (stricter r s)) = some (stricter r (rs.foldl stricter s))
    rw [List.foldl_assoc]

theorem strictest?_append (rs ss : List AgeRating) :
    strictest? (rs ++ ss) = (strictest? rs).merge stricter (strictest? ss) := by
  induction rs with
  | nil => exact Option.merge_none_left.symm
  | cons r rs ih =>
    have assoc := (inferInstance : Std.Associative (Option.merge stricter)).assoc
    rw [List.cons_append, strictest?_cons, strictest?_cons, ih, assoc]

/-- Ratings that come in groups can be compared group by group. -/
theorem strictest?_flatMap {α : Type} (f : α → List AgeRating) (xs : List α) :
    strictest? (xs.flatMap f) = strictest? (xs.filterMap fun x => strictest? (f x)) := by
  induction xs with
  | nil => rfl
  | cons x xs ih =>
    rw [List.flatMap_cons, strictest?_append, ih]
    cases h : strictest? (f x) with
    | none => simp only [List.filterMap_cons, h, Option.merge_none_left]
    | some r => simp only [List.filterMap_cons, h, strictest?_cons]

theorem strictest?_eq_none_iff : strictest? rs = none ↔ rs = [] := by
  cases rs with
  | nil => exact iff_of_true rfl rfl
  | cons r rs => simp [strictest?]

/-- The strictest rating is one of them and above them all. -/
theorem spec_of_strictest? (h : strictest? rs = some r) :
    r ∈ rs ∧ ∀ s ∈ rs, s.strictness ≤ r.strictness := by
  induction rs generalizing r with
  | nil => cases h
  | cons a rs ih =>
    rw [strictest?_cons] at h
    cases hrest : strictest? rs with
    | none =>
      rw [hrest, Option.merge_none_right, Option.some.injEq] at h
      simp [strictest?_eq_none_iff.mp hrest, h]
    | some b =>
      rw [hrest, Option.merge_some_some, Option.some.injEq] at h
      obtain ⟨hmem, hle⟩ := ih hrest
      have above := strictness_stricter a b
      rw [h] at above
      constructor
      · rcases stricter_eq_or a b with heq | heq
        · rw [← h, heq]
          exact List.mem_cons_self
        · rw [← h, heq]
          exact List.mem_cons_of_mem a hmem
      · intro s hs
        rcases List.mem_cons.mp hs with rfl | hs
        · omega
        · have := hle s hs
          omega

theorem exists_strictest (h : r ∈ rs) :
    ∃ s, strictest? rs = some s ∧ r.strictness ≤ s.strictness := by
  cases hs : strictest? rs with
  | none =>
    rw [strictest?_eq_none_iff.mp hs] at h
    cases h
  | some s => exact ⟨s, rfl, (spec_of_strictest? hs).2 r h⟩

theorem strictest?_eq_some_iff :
    strictest? rs = some r ↔ r ∈ rs ∧ ∀ s ∈ rs, s.strictness ≤ r.strictness := by
  constructor
  · exact spec_of_strictest?
  · rintro ⟨hmem, hle⟩
    obtain ⟨s, hs, habove⟩ := exists_strictest hmem
    have below := hle s (spec_of_strictest? hs).1
    rw [hs, eq_of_strictness_eq (Nat.le_antisymm below habove)]

end AgeRating

/-! ### Ratings that tags imply -/

namespace TagPreferences
variable {p p' : TagPreferences} {t : Tag} {tags tags' : List Tag} {r : AgeRating}

/-- A renamed tag and a mapping with the rating spell one tag. -/
def Rates (p : TagPreferences) (tags : List Tag) (r : AgeRating) : Prop :=
  ∃ t ∈ p.rename tags, ∃ m ∈ p.ratingMappings,
    Tag.normalize m.tag = Tag.normalize t.value ∧ m.rating = r

theorem mem_ratingsOf : r ∈ p.ratingsOf t ↔
    ∃ m ∈ p.ratingMappings, Tag.normalize m.tag = Tag.normalize t.value ∧ m.rating = r := by
  simp [ratingsOf, and_assoc]

theorem mem_ratings : r ∈ (p.rename tags).flatMap p.ratingsOf ↔ p.Rates tags r := by
  simp only [List.mem_flatMap, mem_ratingsOf, Rates]

theorem highestAgeRating_eq (p : TagPreferences) (tags : List Tag) :
    p.highestAgeRating tags = AgeRating.strictest? ((p.rename tags).flatMap p.ratingsOf) :=
  (AgeRating.strictest?_flatMap _ _).symm

theorem highestAgeRating_eq_some_iff : p.highestAgeRating tags = some r ↔
    p.Rates tags r ∧ ∀ s, p.Rates tags s → s.strictness ≤ r.strictness := by
  rw [highestAgeRating_eq, AgeRating.strictest?_eq_some_iff]
  simp only [mem_ratings]

/-- Tags that imply a rating have one, and none milder. -/
theorem Rates.exists_highest (h : p.Rates tags r) :
    ∃ s, p.highestAgeRating tags = some s ∧ r.strictness ≤ s.strictness := by
  rw [highestAgeRating_eq]
  exact AgeRating.exists_strictest (mem_ratings.mpr h)

theorem highestAgeRating_append (p : TagPreferences) (tags tags' : List Tag) :
    p.highestAgeRating (tags ++ tags') =
      (p.highestAgeRating tags).merge AgeRating.stricter (p.highestAgeRating tags') := by
  unfold highestAgeRating rename
  rw [List.map_append, List.filterMap_append, AgeRating.strictest?_append]

/-- The second preferences rename as the first and have their rating mappings, perhaps more. -/
def RatesWithin (p p' : TagPreferences) : Prop :=
  p'.tagMappings = p.tagMappings ∧ p.ratingMappings ⊆ p'.ratingMappings

theorem Rates.mono (hp : p.RatesWithin p') (ht : tags ⊆ tags') (h : p.Rates tags r) :
    p'.Rates tags' r := by
  obtain ⟨t, htags, m, hm, hspelled⟩ := h
  obtain ⟨b, hb, rfl⟩ := List.mem_map.mp htags
  have renamed : b.rename p.tagMappings ∈ p'.rename tags' := by
    rw [rename, hp.1]
    exact List.mem_map_of_mem (ht hb)
  exact ⟨_, renamed, m, hp.2 hm, hspelled⟩

end TagPreferences

namespace TagMapper
variable {m m' : TagMapper} {tags tags' : List Tag} {r : AgeRating}

/-- The preferences, if there are any, have a rating mapping for one of the tags. -/
def Rates (m : TagMapper) (tags : List Tag) (r : AgeRating) : Prop :=
  ∃ p ∈ m.preferences, p.Rates tags r

def RatesWithin (m m' : TagMapper) : Prop :=
  Option.Rel TagPreferences.RatesWithin m.preferences m'.preferences

theorem highestAgeRating_eq_some_iff : m.highestAgeRating tags = some r ↔
    m.Rates tags r ∧ ∀ s, m.Rates tags s → s.strictness ≤ r.strictness := by
  unfold highestAgeRating Rates
  cases m.preferences with
  | none => simp
  | some p => simpa using TagPreferences.highestAgeRating_eq_some_iff

theorem highestAgeRating_append (m : TagMapper) (tags tags' : List Tag) :
    m.highestAgeRating (tags ++ tags') =
      (m.highestAgeRating tags).merge AgeRating.stricter (m.highestAgeRating tags') := by
  unfold highestAgeRating
  cases m.preferences with
  | none => rfl
  | some p => exact p.highestAgeRating_append tags tags'

theorem Rates.mono (hm : m.RatesWithin m') (ht : tags ⊆ tags') (h : m.Rates tags r) :
    m'.Rates tags' r := by
  obtain ⟨p, hp, hrates⟩ := h
  unfold RatesWithin at hm
  rw [hp] at hm
  generalize hq : m'.preferences = q at hm
  cases hm with
  | some hwithin => exact ⟨_, hq, hrates.mono hwithin ht⟩

theorem Rates.exists_highest (h : m.Rates tags r) :
    ∃ s, m.highestAgeRating tags = some s ∧ r.strictness ≤ s.strictness := by
  obtain ⟨p, hp, hrates⟩ := h
  unfold highestAgeRating
  rw [hp, Option.bind_some]
  exact hrates.exists_highest

end TagMapper
end Longbox
