/-! Age ratings, from mildest to strictest. -/
namespace Longbox

inductive AgeRating where
  | unknown
  | ratingPending
  | earlyChildhood
  | everyone
  | g
  | everyone10
  | pg
  | kidsToAdults
  | teen
  | mature15
  | mature17
  | m
  | r18
  | adultsOnly18
  | x18
  deriving DecidableEq, Repr

namespace AgeRating

/-- All ratings in the order of their strictness. -/
def all : List AgeRating :=
  [unknown, ratingPending, earlyChildhood, everyone, g, everyone10, pg, kidsToAdults, teen,
    mature15, mature17, m, r18, adultsOnly18, x18]

/-- The place in that order. -/
def strictness (r : AgeRating) : Nat :=
  r.ctorIdx

def name : AgeRating → String
  | unknown => "Unknown"
  | ratingPending => "Rating Pending"
  | earlyChildhood => "Early Childhood"
  | everyone => "Everyone"
  | g => "G"
  | everyone10 => "Everyone 10+"
  | pg => "PG"
  | kidsToAdults => "Kids to Adults"
  | teen => "Teen"
  | mature15 => "MA15+"
  | mature17 => "Mature 17+"
  | m => "M"
  | r18 => "R18+"
  | adultsOnly18 => "Adults Only 18+"
  | x18 => "X18+"

def ofName? (name : String) : Option AgeRating :=
  all.find? fun r => r.name == name

def stricter (a b : AgeRating) : AgeRating :=
  if a.strictness ≤ b.strictness then b else a

def milder (a b : AgeRating) : AgeRating :=
  if a.strictness ≤ b.strictness then a else b

def strictest? : List AgeRating → Option AgeRating
  | [] => none
  | r :: rs => some (rs.foldl stricter r)

def mildest? : List AgeRating → Option AgeRating
  | [] => none
  | r :: rs => some (rs.foldl milder r)

end AgeRating
end Longbox
