import Longbox.Text.Digit

/-! References in XML text: the five named characters and character numbers. -/
namespace Longbox.Xml

def namedCharacters : List (String × Char) :=
  [("amp", '&'), ("lt", '<'), ("gt", '>'), ("quot", '"'), ("apos", '\'')]

def maxDecimalDigits : Nat := 7

def maxHexDigits : Nat := 6

/-- The character with a number, if there is one and it is not zero. -/
def characterAt? (n : Nat) : Option Char :=
  if n ≠ 0 ∧ n.isValidChar then some (Char.ofNat n) else none

/-- The character that a number between `#` and `;` writes. -/
def numbered? : List Char → Option Char
  | 'x' :: digits =>
    if digits.length ≤ maxHexDigits && digits.all Text.isHex then characterAt? (Text.natOfHex digits)
    else none
  | digits =>
    if digits.length ≤ maxDecimalDigits && digits.all Char.isDigit then
      characterAt? (Text.natOfDigits digits)
    else none

def reference? : List Char → Option Char
  | '#' :: number => numbered? number
  | name => namedCharacters.lookup (String.ofList name)

/-- Replaces references in a text that begins within one whose name so far is given in reverse, or
within none. -/
def resolveFrom? : Option (List Char) → List Char → Option (List Char)
  | none, [] => some []
  | some _, [] => none
  | none, c :: rest =>
    if c == '&' then resolveFrom? (some []) rest else (resolveFrom? none rest).map (c :: ·)
  | some name, c :: rest =>
    if c == ';' then do
      let character ← reference? name.reverse
      (resolveFrom? none rest).map (character :: ·)
    else if c == '&' then none
    else resolveFrom? (some (c :: name)) rest

/-- A text with its references replaced; nothing if one is unknown or has no end. -/
def resolve? (raw : List Char) : Option (List Char) :=
  resolveFrom? none raw

end Longbox.Xml
