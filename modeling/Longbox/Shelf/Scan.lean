import Longbox.Archive.Name
import Longbox.Disk

/-! The archives that a directory holds.

The walk enters every directory below the root and follows links. A link that leads nowhere or back
to a directory that the walk is in makes the whole answer empty: what is on the disk is then not
known, and half an answer would be taken for all of it. -/
namespace Longbox

/-- An archive on the disk with the markers of its name. -/
structure Archive where
  name : String
  path : String
  volume : String
  chapter : String
  deriving DecidableEq, Repr

namespace Shelf

/-- A file under a name that the test accepts, as an archive. -/
def archive? (accepts : String → Option Archive.Markers) (name path : String) : Option Archive :=
  (accepts name).map fun m => ⟨name, path, m.volume, m.chapter⟩

/-- What a name in a directory denotes, links followed. -/
def target (d : Disk) (dir : Place) (name : String) : Entry → Option (Place × Entry)
  | .link _ =>
    match d.walk true Disk.maxLinks dir [name] with
    | .ok (.found place entry) => some (place, entry)
    | _ => none
  | entry => some (dir ++ [name], entry)

/-- The archives among the children of a directory and below them. `inside` are the directories that
the walk has entered and not left; `enter` visits another one, which it is then inside too. -/
def visitChildren (d : Disk) (accepts : String → Option Archive.Markers)
    (enter : List Place → Place → String → Option (List Archive)) (inside : List Place)
    (dir : Place) (path : String) : List (String × Entry) → Option (List Archive)
  | [] => some []
  | (name, entry) :: rest => do
    let childPath := Path.join path name
    let here ←
      match target d dir name entry with
      | some (place, .directory) =>
        if entry != .directory && inside.contains place then none
        else enter (place :: inside) place childPath
      | some (_, .file _) => some (archive? accepts name childPath).toList
      | _ => none
    let others ← visitChildren d accepts enter inside dir path rest
    some (here ++ others)

/-- The archives below a directory; nothing if the walk fails or goes deeper than `depth`. -/
def visit (d : Disk) (accepts : String → Option Archive.Markers) :
    Nat → List Place → Place → String → Option (List Archive)
  | 0, _, _, _ => none
  | depth + 1, inside, dir, path =>
    visitChildren d accepts (visit d accepts depth) inside dir path (d.children dir)

/-- A bound on the depth of any walk that ends: each link it passes enters a directory it is not in,
and between two links it goes down the tree. -/
def depthBound (d : Disk) : Nat :=
  (d.entries.length + 2) * (d.entries.length + 2)

/-- The archives below `root` whose names the test accepts; none if there is no such directory or
the walk fails. -/
def scan (d : Disk) (root : String) (accepts : String → Option Archive.Markers) : List Archive :=
  match d.stat root with
  | .ok (place, .directory) => (visit d accepts (depthBound d) [place] place root).getD []
  | _ => []

end Shelf
end Longbox
