/-! Patterns that texts are searched with.

A pattern is a row of pieces, the last of which must reach the end of the text. It is looked for from the
left, and the first place where it matches counts. There each piece takes as much as it can and gives back
what the pieces behind it need. -/
namespace Longbox.Text

inductive Piece where
  /-- These characters. -/
  | text (chars : List Char)
  /-- Any number of accepted characters. -/
  | many (accepts : Char → Bool)
  /-- At least one accepted character. What is taken is captured. -/
  | captured (accepts : Char → Bool)

namespace Piece

/-- Takes accepted characters, as many as `rest?` allows: it is asked with what is left, the most taken
first. -/
def greedily? {α : Type} (accepts : Char → Bool) (rest? : List Char → Option α) :
    List Char → Option α
  | [] => rest? []
  | c :: cs =>
    match if accepts c then greedily? accepts rest? cs else none with
    | some found => some found
    | none => rest? (c :: cs)

/-- Captures what stands in front of the rest, unless nothing does. -/
def capture? (cs rest : List Char) (captures : List (List Char)) : Option (List (List Char)) :=
  let taken := cs.take (cs.length - rest.length)
  if taken.isEmpty then none else some (taken :: captures)

/-- Matches a pattern with a whole text; the answer is what is captured. -/
def matchAll? : List Piece → List Char → Option (List (List Char))
  | [], cs => if cs.isEmpty then some [] else none
  | text chars :: pieces, cs =>
    if chars.isPrefixOf cs then matchAll? pieces (cs.drop chars.length) else none
  | many accepts :: pieces, cs => greedily? accepts (matchAll? pieces) cs
  | captured accepts :: pieces, cs =>
    greedily? accepts (fun rest => (matchAll? pieces rest).bind (capture? cs rest)) cs

/-- Looks for a pattern at the end of a text. -/
def search? (pieces : List Piece) : List Char → Option (List (List Char))
  | [] => matchAll? pieces []
  | c :: cs =>
    match matchAll? pieces (c :: cs) with
    | some found => some found
    | none => search? pieces cs

end Piece
end Longbox.Text
