import Longbox.Config.Record
import Longbox.Proofs.Json.Field
import Longbox.Session.Record
import Longbox.Tag.Record

/-! Records come back from their texts.

Each record is written as an object with all of its fields under names of their own, so the reader
finds every field, and the defaults for missing ones never come in. An event carries its kind as one
more member, which the reader takes off before it looks for the fields. -/
namespace Longbox

open Json (Restores ofString piecesOf chars?_piecesOf text? fields? record record_eq fields?_record
  isPlain_record restores_text restores_bool restores_word restores_list restores_option restores_name)

/-! ### Tags -/

theorem AgeRating.ofName?_name (r : AgeRating) : ofName? r.name = some r := by
  cases r <;> rfl

theorem AgeRating.restores : Restores AgeRating.toJson AgeRating.ofJson? :=
  restores_name AgeRating.ofName?_name Json.isNull

theorem Tag.restores_genre :
    Restores (Json.ofOption Json.bool) (Json.nullable? Json.bool?) :=
  restores_option restores_bool (by simp)

theorem Tag.restores : Restores Tag.toJson Tag.ofJson? where
  plain t := isPlain_record (by simp [restores_text.plain, restores_genre.plain])
  reads t := by
    have hfields : fields? ["value", "id", "genre"] t.toJson = some _ := fields?_record (by simp)
    simp [ofJson?, hfields, restores_text.required, restores_text.optional,
      restores_genre.optional]

theorem Tag.Mapping.restores : Restores Tag.Mapping.toJson Tag.Mapping.ofJson? where
  plain m := isPlain_record (by simp [restores_text.plain])
  reads m := by
    have hfields : fields? ["origin_tag", "destination_tag"] m.toJson = some _ :=
      fields?_record (by simp)
    simp [ofJson?, hfields, restores_text.required]

theorem RatingMapping.restores : Restores RatingMapping.toJson RatingMapping.ofJson? where
  plain m := isPlain_record (by simp [restores_text.plain, AgeRating.restores.plain])
  reads m := by
    have hfields : fields? ["tag", "age_rating"] m.toJson = some _ := fields?_record (by simp)
    simp [ofJson?, hfields, restores_text.required, AgeRating.restores.required]

theorem TagPreferences.restores : Restores TagPreferences.toJson TagPreferences.ofJson? where
  plain p := isPlain_record (by
    simp [(restores_list restores_text).plain, (restores_list Tag.Mapping.restores).plain,
      (restores_list RatingMapping.restores).plain])
  reads p := by
    have hfields : fields? ["genres", "blacklist", "whitelist", "tag_mappings",
        "age_rating_mappings"] p.toJson = some _ := fields?_record (by simp)
    simp [ofJson?, hfields, (restores_list restores_text).optional,
      (restores_list Tag.Mapping.restores).optional, (restores_list RatingMapping.restores).optional]

/-! ### Settings -/

theorem DownloadConfig.restores : Restores DownloadConfig.toJson DownloadConfig.ofJson? where
  plain c := isPlain_record (by
    simp [restores_text.plain, restores_word.plain, restores_bool.plain])
  reads c := by
    have hfields : fields? ["download_dir", "max_concurrent_images", "disable_volume_dirs",
        "disable_one_shot_suffix"] c.toJson = some _ := fields?_record (by simp)
    simp [ofJson?, hfields, restores_text.optional, restores_word.optional,
      restores_bool.optional]

theorem TagConfig.restores : Restores TagConfig.toJson TagConfig.ofJson? where
  plain c := isPlain_record (by simp [restores_bool.plain])
  reads c := by
    have hfields : fields? ["include_unmatched", "skip_tags_on_failure"] c.toJson = some _ :=
      fields?_record (by simp)
    simp [ofJson?, hfields, restores_bool.optional]

theorem Config.restores : Restores Config.toJson Config.ofJson? where
  plain c := isPlain_record (by
    simp [DownloadConfig.restores.plain, TagConfig.restores.plain])
  reads c := by
    have hfields : fields? ["download", "tags"] c.toJson = some _ := fields?_record (by simp)
    simp [ofJson?, hfields, DownloadConfig.restores.optional, TagConfig.restores.optional]

/-! ### Archives -/

theorem Archive.restores : Restores Archive.toJson Archive.ofJson? where
  plain a := isPlain_record (by simp [restores_text.plain])
  reads a := by
    have hfields : fields? ["name", "path", "volume", "chapter"] a.toJson = some _ :=
      fields?_record (by simp)
    simp [ofJson?, hfields, restores_text.required]

/-! ### Stages, counters and events -/

theorem Lifecycle.ofName?_name (s : Lifecycle) : ofName? s.name = some s := by
  cases s <;> rfl

theorem Lifecycle.restores : Restores Lifecycle.toJson Lifecycle.ofJson? :=
  restores_name Lifecycle.ofName?_name Json.isNull

theorem SessionStats.restores : Restores SessionStats.toJson SessionStats.ofJson? where
  plain s := isPlain_record (by simp [restores_word.plain])
  reads s := by
    have hfields : fields? ["content_downloaded", "images_downloaded", "failed_downloads",
        "total_chapter_images"] s.toJson = some _ := fields?_record (by simp)
    simp [ofJson?, hfields, restores_word.required]

namespace Event

def isProgress : Event → Bool
  | progress .. => true
  | _ => false

theorem isKindKey_piecesOf (key : String) : isKindKey (piecesOf key) = (key == "type") := by
  rw [isKindKey, chars?_piecesOf]
  by_cases h : key = "type"
  · subst h
    rfl
  · rw [beq_eq_false_iff_ne.mpr h, beq_eq_false_iff_ne]
    exact fun heq => h (String.toList_inj.mp (Option.some.inj heq))

theorem kinded?_record (kind : String) {members : List (String × Json)}
    (h : ∀ m ∈ members, m.1 ≠ "type") :
    kinded? (record (("type", ofString kind) :: members)) = some (kind, record members) := by
  have hkind : isKindKey (piecesOf "type") = true := isKindKey_piecesOf "type"
  have hothers : ∀ m ∈ members.map (fun m => (piecesOf m.1, m.2)), isKindKey m.1 = false := by
    intro m hm
    obtain ⟨n, hn, rfl⟩ := List.mem_map.mp hm
    simp [isKindKey_piecesOf, h n hn]
  have hnone : (members.map fun m => (piecesOf m.1, m.2)).filter (fun m => isKindKey m.1) = [] :=
    List.filter_eq_nil_iff.mpr fun m hm => by simp [hothers m hm]
  have hall : (members.map fun m => (piecesOf m.1, m.2)).filter (fun m => !isKindKey m.1) =
      members.map fun m => (piecesOf m.1, m.2) :=
    List.filter_eq_self.mpr fun m hm => by simp [hothers m hm]
  simp only [record_eq, List.map_cons, kinded?, List.filter_cons, hkind, hnone, hall,
    restores_text.reads, if_true, Bool.not_true, Bool.false_eq_true, if_false, Option.map_some]

theorem isKept_ofString (depth : Nat) (text : String) : isKept depth (ofString text) = true := by
  simp [ofString, isKept, chars?_piecesOf]

theorem isKept_record {depth : Nat} {members : List (String × Json)}
    (h : ∀ m ∈ members, isKept depth m.2 = true) : isKept (depth + 1) (record members) = true := by
  simp only [record_eq, isKept, Nat.add_sub_cancel, Nat.zero_lt_succ, decide_true, Bool.true_and]
  induction members with
  | nil => rfl
  | cons m members ih =>
    obtain ⟨hm, hmembers⟩ := List.forall_mem_cons.mp h
    simp [areKeptMembers, chars?_piecesOf, hm, ih hmembers]

theorem restores_lifecycle : Restores Lifecycle.toJson lifecycle? :=
  restores_name Lifecycle.ofName?_name isKeptUnit

/-- What remains of an event once its kind is known is kept, if all of it is texts. -/
theorem ofJson?_record (kind : String) {members : List (String × Json)}
    (h : ∀ m ∈ members, m.1 ≠ "type" ∧ ∃ text, m.2 = ofString text) :
    ofJson? (record (("type", ofString kind) :: members)) = ofKind? kind (record members) := by
  have hkept : isKept maxDepth (record members) = true := by
    refine isKept_record fun m hm => ?_
    obtain ⟨-, text, htext⟩ := h m hm
    rw [htext, isKept_ofString]
  simp [ofJson?, kinded?_record kind fun m hm => (h m hm).1, hkept]

theorem isPlain_toJson {e : Event} (h : e.isProgress = false) : e.toJson.IsPlain := by
  cases e with
  | progress => cases h
  | stateChanged id state =>
    exact isPlain_record (by simp [restores_text.plain, Lifecycle.restores.plain])
  | chapterCompleted id chapterId => exact isPlain_record (by simp [restores_text.plain])
  | downloadFailed id title error => exact isPlain_record (by simp [restores_text.plain])

theorem ofJson?_toJson {e : Event} (h : e.isProgress = false) : ofJson? e.toJson = some e := by
  cases e with
  | progress => cases h
  | stateChanged id state =>
    have hfields : fields? ["id", "state"] (record [("id", ofString id), ("state", state.toJson)]) =
      some _ := fields?_record (by simp)
    rw [toJson, ofJson?_record _ (by simp [Lifecycle.toJson])]
    simp [ofKind?, hfields, restores_text.required, restores_lifecycle.required]
  | chapterCompleted id chapterId =>
    have hfields : fields? ["id", "chapter_id"]
      (record [("id", ofString id), ("chapter_id", ofString chapterId)]) = some _ :=
        fields?_record (by simp)
    rw [toJson, ofJson?_record _ (by simp)]
    simp [ofKind?, hfields, restores_text.required]
  | downloadFailed id title error =>
    have hfields : fields? ["id", "title", "error"] (record [("id", ofString id),
      ("title", ofString title), ("error", ofString error)]) = some _ := fields?_record (by simp)
    rw [toJson, ofJson?_record _ (by simp)]
    simp [ofKind?, hfields, restores_text.required]

end Event

/-! ### Texts -/

/-- Those of the values that satisfy `P` come back from their texts, also when they were read from
other texts before. -/
structure RoundTrips {α : Type} (toJson : α → Json) (ofJson? : Json → Option α)
    (P : α → Prop) : Prop where
  written : ∀ x, P x → (Json.parse? (toJson x).toText).bind ofJson? = some x
  accepted : ∀ text x, (Json.parse? text).bind ofJson? = some x → P x →
    (Json.parse? (toJson x).toText).bind ofJson? = some x

theorem roundTrips_of {α : Type} {toJson : α → Json} {ofJson? : Json → Option α} {P : α → Prop}
    (hplain : ∀ x, P x → (toJson x).IsPlain) (hreads : ∀ x, P x → ofJson? (toJson x) = some x) :
    RoundTrips toJson ofJson? P :=
  have written : ∀ x, P x → (Json.parse? (toJson x).toText).bind ofJson? = some x := by
    intro x hx
    rw [Json.parse?_toText (hplain x hx), Option.bind_some, hreads x hx]
  ⟨written, fun _ x _ hx => written x hx⟩

theorem Json.Restores.roundTrips {α : Type} {toJson : α → Json} {ofJson? : Json → Option α}
    (h : Restores toJson ofJson?) : RoundTrips toJson ofJson? fun _ => True :=
  roundTrips_of (fun x _ => h.plain x) fun x _ => h.reads x

/-- Settings, tags, preferences, archives, stages, counters, session ids and all events but those of
progress come back from their texts. -/
theorem roundTrips_records :
    RoundTrips Config.toJson Config.ofJson? (fun _ => True) ∧
    RoundTrips Tag.toJson Tag.ofJson? (fun _ => True) ∧
    RoundTrips TagPreferences.toJson TagPreferences.ofJson? (fun _ => True) ∧
    RoundTrips Archive.toJson Archive.ofJson? (fun _ => True) ∧
    RoundTrips Lifecycle.toJson Lifecycle.ofJson? (fun _ => True) ∧
    RoundTrips SessionStats.toJson SessionStats.ofJson? (fun _ => True) ∧
    RoundTrips ofString text? (fun _ => True) ∧
    RoundTrips Event.toJson Event.ofJson? (fun e => e.isProgress = false) :=
  ⟨Config.restores.roundTrips, Tag.restores.roundTrips, TagPreferences.restores.roundTrips,
    Archive.restores.roundTrips, Lifecycle.restores.roundTrips, SessionStats.restores.roundTrips,
    restores_text.roundTrips,
    roundTrips_of (fun _ => Event.isPlain_toJson) fun _ => Event.ofJson?_toJson⟩

/-- A text that is accepted need not be the one that is written: fields in an array, an escape that is
not needed, a blank. -/
example : (Json.parse? "[\"a\", \"\\u0062\"]").bind Tag.ofJson? = some ⟨"a", "b", none⟩ ∧
    (Tag.toJson ⟨"a", "b", none⟩).toText =
      "\x7b\"value\":\"a\",\"id\":\"b\",\"genre\":null\x7d" := by
  decide +kernel

end Longbox
