import Longbox.Xml.Token

/-! Attributes of a start tag. -/
namespace Longbox.Xml

/-- The name of the attribute in front, and what follows its value: an equals sign, perhaps between
blanks, and a text in quotes. -/
def attribute? (first : Char) (cs : List Char) : Option (List Char × List Char) :=
  let inName (c : Char) := !isBlank c && c != '='
  match (cs.dropWhile inName).dropWhile isBlank with
  | '=' :: value =>
    match value.dropWhile isBlank with
    | quote :: value =>
      match value.dropWhile (· != quote) with
      | _ :: rest =>
        if quote == '"' || quote == '\'' then some (first :: cs.takeWhile inName, rest) else none
      | [] => none
    | [] => none
  | _ => none

/-- The names of the attributes; nothing if one is malformed. The fuel need not be more than the
length of the text. -/
def attributeNames? : Nat → List Char → Option (List (List Char))
  | 0, _ => none
  | fuel + 1, cs =>
    match cs.dropWhile isBlank with
    | [] => some []
    | first :: rest => do
      let (name, rest) ← attribute? first rest
      let others ← attributeNames? fuel rest
      some (name :: others)

def hasRepeat : List (List Char) → Bool
  | [] => false
  | name :: names => names.contains name || hasRepeat names

/-- All attributes are well formed and no name occurs twice. -/
def areAttributes (cs : List Char) : Bool :=
  match attributeNames? (cs.length + 1) cs with
  | some names => !hasRepeat names
  | none => false

end Longbox.Xml
