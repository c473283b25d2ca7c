/-! JSON texts as trees.

The tree keeps what the text says and leaves it to the reader of a value to interpret it: a numeral
by its digits, a string by its pieces. So a value that nobody asks for may hold a number too large
for any type, or half a surrogate pair. -/
namespace Longbox.Json

/-- A numeral: digits, digits behind the dot, and a signed exponent. -/
structure Numeral where
  negative : Bool
  whole : List Char
  fraction : List Char
  exponent : Option (Bool × List Char)
  deriving DecidableEq, Repr

/-- A piece of a string: a character, or a code unit written as `\u` and four hexadecimal digits. -/
inductive Piece where
  | char (c : Char)
  | unit (code : Nat)
  deriving DecidableEq, Repr

end Longbox.Json

namespace Longbox

inductive Json where
  | null
  | bool (value : Bool)
  | number (value : Json.Numeral)
  | string (pieces : List Json.Piece)
  | array (elements : List Json)
  | object (members : List (List Json.Piece × Json))

namespace Json

def isHighSurrogate (code : Nat) : Bool :=
  decide (0xD800 ≤ code) && decide (code < 0xDC00)

def isLowSurrogate (code : Nat) : Bool :=
  decide (0xDC00 ≤ code) && decide (code < 0xE000)

/-- The characters of a string; nothing if a surrogate stands alone. -/
def chars? : List Piece → Option (List Char)
  | [] => some []
  | .char c :: rest => (chars? rest).map (c :: ·)
  | .unit code :: rest =>
    if isHighSurrogate code then
      match rest with
      | .unit low :: rest =>
        if isLowSurrogate low then
          (chars? rest).map
            (Char.ofNat (0x10000 + (code - 0xD800) * 0x400 + (low - 0xDC00)) :: ·)
        else none
      | _ => none
    else if isLowSurrogate code then none
    else (chars? rest).map (Char.ofNat code :: ·)

/-- A character as it is written: control characters without an escape of their own by code. -/
def pieceOf (c : Char) : Piece :=
  if c.toNat < 0x20 && !(c == '\n' || c == '\t' || c == '\r' || c.toNat == 0x8 || c.toNat == 0xC)
  then .unit c.toNat else .char c

def piecesOf (text : String) : List Piece :=
  text.toList.map pieceOf

def ofString (text : String) : Json :=
  .string (piecesOf text)

/-- An object with plain keys. -/
def record (members : List (String × Json)) : Json :=
  .object (members.map fun (key, value) => (piecesOf key, value))

end Json
end Longbox
