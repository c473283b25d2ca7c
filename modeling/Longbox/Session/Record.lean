import Longbox.Json.Record
import Longbox.Json.SingleNumeral
import Longbox.Session.Journal
import Longbox.Shelf.Scan

/-! Archives, stages, counters and events as JSON.

An event is an object with the kind of event in its member `type`, which may stand anywhere, or an
array with the kind in front of the fields. As the kind may come last, all other members are kept
until it is known: they must be well formed as they stand, also those that no field wants. -/
namespace Longbox

open Json (ofString ofNat ofWord text? word? single? fields? required?)

namespace Archive

def toJson (a : Archive) : Json :=
  Json.record [("name", ofString a.name), ("path", ofString a.path), ("volume", ofString a.volume),
    ("chapter", ofString a.chapter)]

def ofJson? (v : Json) : Option Archive := do
  match ← fields? ["name", "path", "volume", "chapter"] v with
  | [name, path, volume, chapter] =>
    some {
      name := ← required? text? name
      path := ← required? text? path
      volume := ← required? text? volume
      chapter := ← required? text? chapter }
  | _ => none

end Archive

def Lifecycle.toJson (s : Lifecycle) : Json :=
  ofString s.name

def Lifecycle.ofJson? : Json → Option Lifecycle :=
  Json.choice? Lifecycle.ofName?

namespace SessionStats

def toJson (s : SessionStats) : Json :=
  Json.record [("content_downloaded", ofWord s.contentDownloaded),
    ("images_downloaded", ofWord s.imagesDownloaded),
    ("failed_downloads", ofWord s.failedDownloads),
    ("total_chapter_images", ofWord s.totalChapterImages)]

def ofJson? (v : Json) : Option SessionStats := do
  match ← fields? ["content_downloaded", "images_downloaded", "failed_downloads",
      "total_chapter_images"] v with
  | [content, images, failed, total] =>
    some {
      contentDownloaded := ← required? word? content
      imagesDownloaded := ← required? word? images
      failedDownloads := ← required? word? failed
      totalChapterImages := ← required? word? total }
  | _ => none

end SessionStats

namespace Event

/-- The deepest nesting of an event, itself counted. -/
def maxDepth : Nat := 127

mutual

/-- A value is well formed whatever wants it: numerals in range, no lone surrogates, and nesting up
to a depth. -/
def isKept (depth : Nat) : Json → Bool
  | .null | .bool _ => true
  | .number n => n.number?.isSome
  | .string pieces => (Json.chars? pieces).isSome
  | .array elements => decide (0 < depth) && areKept (depth - 1) elements
  | .object members => decide (0 < depth) && areKeptMembers (depth - 1) members

def areKept (depth : Nat) : List Json → Bool
  | [] => true
  | v :: vs => isKept depth v && areKept depth vs

def areKeptMembers (depth : Nat) : List (List Json.Piece × Json) → Bool
  | [] => true
  | (key, v) :: ms => (Json.chars? key).isSome && isKept depth v && areKeptMembers depth ms

end

/-- The unit of a kept value: null, or an object without members. -/
def isKeptUnit : Json → Bool
  | .null => true
  | .object [] => true
  | _ => false

def lifecycle? : Json → Option Lifecycle :=
  Json.named? Lifecycle.ofName? isKeptUnit

/-- Reads the fields of an event of a kind. -/
def ofKind? (kind : String) (v : Json) : Option Event := do
  if kind == "state_changed" then
    match ← fields? ["id", "state"] v with
    | [id, state] => some (.stateChanged (← required? text? id) (← required? lifecycle? state))
    | _ => none
  else if kind == "progress" then
    match ← fields? ["id", "percent", "speed", "images_downloaded", "total_chapter_images"] v with
    | [id, percent, speed, images, total] =>
      some (.progress (← required? text? id) (← required? single? percent)
        (← required? word? speed).toNat (← required? word? images).toNat
        (← required? word? total).toNat)
    | _ => none
  else if kind == "chapter_completed" then
    match ← fields? ["id", "chapter_id"] v with
    | [id, chapterId] =>
      some (.chapterCompleted (← required? text? id) (← required? text? chapterId))
    | _ => none
  else if kind == "download_failed" then
    match ← fields? ["id", "title", "error"] v with
    | [id, title, error] =>
      some (.downloadFailed (← required? text? id) (← required? text? title)
        (← required? text? error))
    | _ => none
  else none

def isKindKey (key : List Json.Piece) : Bool :=
  Json.chars? key == some "type".toList

/-- The kind of an event and the rest of the value, without it. -/
def kinded? : Json → Option (String × Json)
  | .array (kind :: rest) => (text? kind).map fun k => (k, .array rest)
  | .object members =>
    match members.filter fun m => isKindKey m.1 with
    | [(_, kind)] =>
      (text? kind).map fun k => (k, .object (members.filter fun m => !isKindKey m.1))
    | _ => none
  | _ => none

def ofJson? (v : Json) : Option Event := do
  let (kind, rest) ← kinded? v
  if isKept maxDepth rest then ofKind? kind rest else none

def toJson : Event → Json
  | stateChanged id state =>
    Json.record [("type", ofString "state_changed"), ("id", ofString id), ("state", state.toJson)]
  | progress id percent speed images total =>
    Json.record [("type", ofString "progress"), ("id", ofString id),
      ("percent", Json.ofSingle percent), ("speed", ofNat speed),
      ("images_downloaded", ofNat images), ("total_chapter_images", ofNat total)]
  | chapterCompleted id chapterId =>
    Json.record [("type", ofString "chapter_completed"), ("id", ofString id),
      ("chapter_id", ofString chapterId)]
  | downloadFailed id title error =>
    Json.record [("type", ofString "download_failed"), ("id", ofString id),
      ("title", ofString title), ("error", ofString error)]

end Event
end Longbox
