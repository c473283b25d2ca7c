import Longbox.Text.Alphanumeric
import Longbox.Text.Lowercase

/-! Tags and their spelling.

Providers spell one tag in many ways: `Slice of Life`, `slice-of-life`. Two spellings are the same
tag when they agree after `normalize`, which keeps letters and digits and puts them in lower case. -/
namespace Longbox

structure Tag where
  value : String
  id : String := ""
  /-- Set by providers that say themselves what is a genre. -/
  genre : Option Bool := none
  deriving DecidableEq, Repr

namespace Tag

def normalizeChars (cs : List Char) : List Char :=
  (cs.filter Text.isAlphanumeric).flatMap Text.lowercase

def normalize (value : String) : String :=
  String.ofList (normalizeChars value.toList)

/-- What a tag is looked up by besides its value: the id, or the value where there is none. -/
def identifier (t : Tag) : String :=
  if t.id.isEmpty then t.value else t.id

def isForcedGenre (t : Tag) : Bool :=
  t.genre.getD false

/-- A renaming of every spelling of `origin` to `destination`. -/
structure Mapping where
  origin : String
  destination : String
  deriving DecidableEq, Repr

/-- The first mapping for a spelling of the value decides; its destination is taken as it stands. -/
def mapValue (mappings : List Mapping) (value : String) : String :=
  match mappings.find? (fun m => normalize m.origin == normalize value) with
  | some m => m.destination
  | none => value

/-- Renames value and identifier; the renamed identifier becomes the id. -/
def rename (mappings : List Mapping) (t : Tag) : Tag where
  value := mapValue mappings t.value
  id := mapValue mappings t.identifier
  genre := t.genre

/-- Some spelling of the tag's value or identifier is on a list of normalized values. -/
def isOn (list : List String) (t : Tag) : Bool :=
  list.contains (normalize t.value) || list.contains (normalize t.identifier)

end Tag
end Longbox
