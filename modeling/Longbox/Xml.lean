import Longbox.Xml.Attribute
import Longbox.Xml.Reference
import Longbox.Xml.Token

/-! The text of one child of a document's root element.

A document is read up to the end of its root. End tags must match start tags everywhere; references
must be known in the text that is wanted and directly in the root, and attributes well formed in the
root's own tag. -/
namespace Longbox.Xml

/-- The name behind the first colon, or all of it. -/
def localName (name : List Char) : List Char :=
  match name.dropWhile (· != ':') with
  | [] => name
  | _ :: rest => rest

/-- Reading a document: the names of the open elements, the innermost first, and the text of the
child if it has been met. -/
structure Reading where
  path : List (List Char) := []
  found : Option (List Char) := none
  deriving DecidableEq, Repr

namespace Reading

def isWanted (key name : List Char) : Bool :=
  localName name == key

/-- Enters an element: the root, a child of it, or an element deeper down. The wanted child must be
the only one of its name and have no elements in it. -/
def enter? (key : List Char) (r : Reading) (name attributes : List Char) : Option Reading :=
  let entered := { r with path := name :: r.path }
  match r.path with
  | [] => if areAttributes attributes then some entered else none
  | [_] =>
    if !isWanted key name then some entered
    else if r.found.isSome then none
    else some { entered with found := some [] }
  | [child, _] => if isWanted key child then none else some entered
  | _ => some entered

/-- Takes text in: what it says in front of the root and directly in it does not matter, but in front
there may be blanks only. -/
def addText? (key : List Char) (r : Reading) (text : Option (List Char)) : Option Reading :=
  match r.path with
  | [] => none
  | [_] => text.map fun _ => r
  | [child, _] =>
    if isWanted key child then text.map fun t => { r with found := r.found.map (· ++ t) } else some r
  | _ => some r

/-- Reads tokens up to the end of the root; the text of the wanted child, empty if there is none. -/
def run (key : List Char) (r : Reading) : List Token → Option (List Char)
  | [] => none
  | .malformed :: _ => none
  | .aside :: rest => run key r rest
  | .opening name attributes :: rest =>
    match r.enter? key name attributes with
    | some r => run key r rest
    | none => none
  | .closing name :: rest =>
    match r.path with
    | [] => none
    | [root] => if name == root then some (r.found.getD []) else none
    | current :: path => if name == current then run key { r with path } rest else none
  | .text raw :: rest =>
    if r.path.isEmpty && raw.all isBlank then run key r rest
    else match r.addText? key (resolve? raw) with
      | some r => run key r rest
      | none => none
  | .verbatim raw :: rest =>
    match r.addText? key (some raw) with
    | some r => run key r rest
    | none => none

end Reading

/-- A mark in front of the document that tells its encoding. -/
def byteOrderMark : Char := Char.ofNat 0xFEFF

def dropMark (cs : List Char) : List Char :=
  match cs with
  | c :: rest => if c == byteOrderMark then rest else cs
  | [] => []

/-- The text of the root's only child of this name, empty if there is none; nothing if the document is
malformed or has the child twice or with elements in it. -/
def childText? (key : List Char) (document : List Char) : Option (List Char) :=
  Reading.run key {} (tokens (dropMark document))

end Longbox.Xml
