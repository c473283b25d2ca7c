import Longbox.Tag
import Longbox.Tag.AgeRating

/-! Sorting tags into genres and tags by a user's preferences, and rating their audience. -/
namespace Longbox

/-- The rating that every spelling of a tag implies. -/
structure RatingMapping where
  tag : String
  rating : AgeRating
  deriving DecidableEq, Repr

structure TagPreferences where
  genres : List String := []
  blacklist : List String := []
  whitelist : List String := []
  tagMappings : List Tag.Mapping := []
  ratingMappings : List RatingMapping := []
  deriving DecidableEq, Repr

structure Classification where
  genres : List String := []
  tags : List String := []
  deriving DecidableEq, Repr

def Classification.genreList (c : Classification) : String :=
  ", ".intercalate c.genres

def Classification.tagList (c : Classification) : String :=
  ", ".intercalate c.tags

/-- Preferences that could not be loaded are absent. -/
structure TagMapper where
  preferences : Option TagPreferences := none
  includeUnmatched : Bool := false
  skipOnFailure : Bool := false
  deriving DecidableEq, Repr

/-- What becomes of a tag. -/
inductive TagRole where
  | dropped
  | genre
  | tag
  deriving DecidableEq, Repr

namespace TagPreferences

/-- The blacklist goes first; a listed or forced genre is a genre; the rest are tags if the
whitelist or the setting lets them in. -/
def role (p : TagPreferences) (includeUnmatched : Bool) (t : Tag) : TagRole :=
  if t.isOn (p.blacklist.map Tag.normalize) then .dropped
  else if t.isOn (p.genres.map Tag.normalize) || t.isForcedGenre then .genre
  else if includeUnmatched || t.isOn (p.whitelist.map Tag.normalize) then .tag
  else .dropped

def rename (p : TagPreferences) (tags : List Tag) : List Tag :=
  tags.map (Tag.rename p.tagMappings)

def classify (p : TagPreferences) (includeUnmatched : Bool) (tags : List Tag) : Classification :=
  let having (r : TagRole) :=
    ((p.rename tags).filter fun t => p.role includeUnmatched t == r).map Tag.value
  ⟨having .genre, having .tag⟩

/-- The ratings that the mappings give to a renamed tag's value. -/
def ratingsOf (p : TagPreferences) (t : Tag) : List AgeRating :=
  (p.ratingMappings.filter fun m => Tag.normalize m.tag == Tag.normalize t.value).map (·.rating)

/-- The strictest of what each tag's strictest rating is, as far as tags have ratings. -/
def highestAgeRating (p : TagPreferences) (tags : List Tag) : Option AgeRating :=
  AgeRating.strictest? ((p.rename tags).filterMap fun t => AgeRating.strictest? (p.ratingsOf t))

end TagPreferences

namespace TagMapper

/-- Without preferences there are neither genres nor tags. -/
def classify (m : TagMapper) (tags : List Tag) : Classification :=
  match m.preferences with
  | some p => p.classify m.includeUnmatched tags
  | none => {}

def highestAgeRating (m : TagMapper) (tags : List Tag) : Option AgeRating :=
  m.preferences.bind (·.highestAgeRating tags)

end TagMapper
end Longbox
