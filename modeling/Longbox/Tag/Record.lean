import Longbox.Json.Record
import Longbox.Tag.Mapper

/-! Tags and tag preferences as JSON. -/
namespace Longbox

open Json (ofString ofList ofOption text? bool? list? nullable? fields? required? optional?)

def AgeRating.toJson (r : AgeRating) : Json :=
  ofString r.name

def AgeRating.ofJson? : Json → Option AgeRating :=
  Json.choice? AgeRating.ofName?

namespace Tag

def toJson (t : Tag) : Json :=
  Json.record [("value", ofString t.value), ("id", ofString t.id),
    ("genre", ofOption Json.bool t.genre)]

def ofJson? (v : Json) : Option Tag := do
  match ← fields? ["value", "id", "genre"] v with
  | [value, id, genre] =>
    some {
      value := ← required? text? value
      id := ← optional? text? "" id
      genre := ← optional? (nullable? bool?) none genre }
  | _ => none

def Mapping.toJson (m : Mapping) : Json :=
  Json.record [("origin_tag", ofString m.origin), ("destination_tag", ofString m.destination)]

def Mapping.ofJson? (v : Json) : Option Mapping := do
  match ← fields? ["origin_tag", "destination_tag"] v with
  | [origin, destination] =>
    some {
      origin := ← required? text? origin
      destination := ← required? text? destination }
  | _ => none

end Tag

def RatingMapping.toJson (m : RatingMapping) : Json :=
  Json.record [("tag", ofString m.tag), ("age_rating", m.rating.toJson)]

def RatingMapping.ofJson? (v : Json) : Option RatingMapping := do
  match ← fields? ["tag", "age_rating"] v with
  | [tag, rating] =>
    some {
      tag := ← required? text? tag
      rating := ← required? AgeRating.ofJson? rating }
  | _ => none

namespace TagPreferences

def toJson (p : TagPreferences) : Json :=
  Json.record [("genres", ofList ofString p.genres), ("blacklist", ofList ofString p.blacklist),
    ("whitelist", ofList ofString p.whitelist),
    ("tag_mappings", ofList Tag.Mapping.toJson p.tagMappings),
    ("age_rating_mappings", ofList RatingMapping.toJson p.ratingMappings)]

def ofJson? (v : Json) : Option TagPreferences := do
  match ← fields? ["genres", "blacklist", "whitelist", "tag_mappings", "age_rating_mappings"] v with
  | [genres, blacklist, whitelist, mappings, ratings] =>
    some {
      genres := ← optional? (list? text?) [] genres
      blacklist := ← optional? (list? text?) [] blacklist
      whitelist := ← optional? (list? text?) [] whitelist
      tagMappings := ← optional? (list? Tag.Mapping.ofJson?) [] mappings
      ratingMappings := ← optional? (list? RatingMapping.ofJson?) [] ratings }
  | _ => none

end TagPreferences
end Longbox
