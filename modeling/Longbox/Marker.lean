/-! Volume and chapter markers.

A marker is a text such as `12`, `0007` or `3.5`. Two spellings of one number differ in leading
zeros only, so `trim` drops them and keeps one digit in front of a dot or at the end, and `pad?`
fills the whole part of a numeral up to a width. Text is formatted up to `maxWidth` only: whoever asks for
a wider numeral gets no answer (`padding`). -/
namespace Longbox.Marker

/-- The zeros in front go, except one that nothing but a dot or the end follows. -/
def trimChars (cs : List Char) : List Char :=
  match cs.dropWhile (· == '0') with
  | [] => if cs.isEmpty then [] else ['0']
  | '.' :: rest => '0' :: '.' :: rest
  | rest => rest

def isNumeralChar (c : Char) : Bool :=
  c.isDigit || c == '.'

/-- Digits with at most one dot among them, and at least one digit. -/
def isNumeral (cs : List Char) : Bool :=
  cs.all isNumeralChar && cs.any Char.isDigit && decide (cs.count '.' ≤ 1)

/-- The digits in front of the dot, or all of them. -/
def wholePart (cs : List Char) : List Char :=
  cs.takeWhile (· != '.')

/-- A numeral with zeros in front until its whole part has `width` digits. -/
def padChars? (width : Nat) (cs : List Char) : Option (List Char) :=
  if isNumeral cs then some (List.replicate (width - (wholePart cs).length) '0' ++ cs) else none

def trim (marker : String) : String :=
  String.ofList (trimChars marker.toList)

def pad? (marker : String) (width : Nat) : Option String :=
  (padChars? width marker.toList).map String.ofList

/-- The greatest width that a field of formatted text can be given. -/
def maxWidth : Nat := 65535

/-- How the padding of a marker ends. -/
inductive Padding where
  | padded (text : String)
  | notNumeral
  /-- The program breaks down. -/
  | tooWide
  deriving DecidableEq, Repr

/-- Markers that are no numerals are told apart first; how long a numeral is already does not matter. -/
def padding (marker : String) (width : Nat) : Padding :=
  match pad? marker width with
  | none => .notNumeral
  | some text => if width ≤ maxWidth then .padded text else .tooWide

end Longbox.Marker
