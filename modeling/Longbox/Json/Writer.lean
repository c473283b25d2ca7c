import Longbox.Json.Value

/-! Writing JSON in its compact form: no blanks, members in their order, and the short escapes for
quote, backslash and the five control characters that have one. -/
namespace Longbox.Json

def hexChar (n : Nat) : Char :=
  if n < 10 then Char.ofNat (48 + n) else Char.ofNat (87 + n)

/-- Four hexadecimal digits, small letters. -/
def hexDigits (code : Nat) : List Char :=
  [hexChar (code / 4096 % 16), hexChar (code / 256 % 16), hexChar (code / 16 % 16),
    hexChar (code % 16)]

def writePiece : Piece → List Char
  | .unit code => '\\' :: 'u' :: hexDigits code
  | .char c =>
    if c == '"' then ['\\', '"']
    else if c == '\\' then ['\\', '\\']
    else if c == '\n' then ['\\', 'n']
    else if c == '\r' then ['\\', 'r']
    else if c == '\t' then ['\\', 't']
    else if c.toNat == 0x8 then ['\\', 'b']
    else if c.toNat == 0xC then ['\\', 'f']
    else [c]

def writeString (pieces : List Piece) : List Char :=
  '"' :: pieces.flatMap writePiece ++ ['"']

def writeNumeral (n : Numeral) : List Char :=
  (if n.negative then ['-'] else []) ++ n.whole ++
    (if n.fraction.isEmpty then [] else '.' :: n.fraction) ++
    match n.exponent with
    | some (negative, digits) => 'e' :: (if negative then ['-'] else []) ++ digits
    | none => []

mutual

def write : Json → List Char
  | .null => ['n', 'u', 'l', 'l']
  | .bool true => ['t', 'r', 'u', 'e']
  | .bool false => ['f', 'a', 'l', 's', 'e']
  | .number n => writeNumeral n
  | .string pieces => writeString pieces
  | .array [] => ['[', ']']
  | .array (v :: vs) => '[' :: write v ++ writeElements vs
  | .object [] => ['\x7b', '\x7d']
  | .object ((key, v) :: ms) => '\x7b' :: writeString key ++ ':' :: write v ++ writeMembers ms

/-- The elements behind the first, and the closing bracket. -/
def writeElements : List Json → List Char
  | [] => [']']
  | v :: vs => ',' :: write v ++ writeElements vs

def writeMembers : List (List Piece × Json) → List Char
  | [] => ['\x7d']
  | (key, v) :: ms => ',' :: writeString key ++ ':' :: write v ++ writeMembers ms

end

def toText (v : Json) : String :=
  String.ofList (write v)

end Longbox.Json
