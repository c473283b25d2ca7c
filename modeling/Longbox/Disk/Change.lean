import Longbox.Disk

/-! Changes to a file tree: making directories, writing files, removing subtrees. -/
namespace Longbox.Disk

/-- Makes one directory in a directory that exists. -/
def makeDirectory (d : Disk) (path : String) : Except Fault Disk :=
  match d.locate false path with
  | .ok (.vacant place) => .ok (d.put place .directory)
  | .ok (.found _ _) => .error .alreadyExists
  | .error fault => .error fault

def namesToPath (absolute : Bool) (names : List String) : String :=
  (if absolute then "/" else "") ++ "/".intercalate names

/-- Makes a directory; one that is there already is fine. -/
def makeOrFind (d : Disk) (path : String) : Disk × Option Fault :=
  match d.makeDirectory path with
  | .ok d => (d, none)
  | .error fault => (d, if d.isDirectory path then none else some fault)

/-- Makes a directory, and first its parents if one is missing. The parents are given by their names,
the nearest first. The disk comes back also when the making fails: parents made on the way stay. -/
def makeAllFrom (d : Disk) (absolute : Bool) (path : String) : List String → Disk × Option Fault
  | [] => d.makeOrFind path
  | name :: parents =>
    match d.makeDirectory path with
    | .error .notFound =>
      match d.makeAllFrom absolute (namesToPath absolute (parents.reverse ++ [name])) parents with
      | (d, none) => d.makeOrFind path
      | (d, some fault) => (d, some fault)
    | _ => d.makeOrFind path

/-- The names in a path that are neither empty nor a single dot. -/
def properNames (path : String) : List String :=
  (pathNames path).filter fun name => !name.isEmpty && name != "."

/-- Makes a directory with all its parents; one that is there already is fine. -/
def makeAll (d : Disk) (path : String) : Disk × Option Fault :=
  if path.isEmpty then (d, none)
  else d.makeAllFrom (Path.isAbsolute path) path (properNames path).dropLast.reverse

/-- Where a file written to a path comes to stand. A dangling link has its target made. -/
def writable (d : Disk) (path : String) : Except Fault Place :=
  match d.locate true path with
  | .ok (.found place (.file _)) => .ok place
  | .ok (.found _ _) => .error .isADirectory
  | .ok (.vacant place) => .ok place
  | .error fault => .error fault

/-- Drops what stands at a place and below it, or only what is below. -/
def prune (d : Disk) (place : Place) (keepRoot : Bool) : Disk :=
  { d with entries := d.entries.filter fun e =>
      !(place.isPrefixOf e.1) || (keepRoot && e.1 == place) }

/-- A path ends in a dot component, so that what it leads to cannot be unlinked through it. -/
def endsInDots (path : String) : Bool :=
  match ((pathNames path).filter fun name => !name.isEmpty).getLast? with
  | some name => name == "." || name == ".."
  | none => false

/-- What a removal leaves on the disk, the place at or below which it took something away, and why
it failed. -/
structure Removal where
  disk : Disk
  cleared : Option Place := none
  fault : Option Fault := none

/-- Removes a directory and all below it; a link is removed itself, and a file is refused. The root and
a path that ends in dots lose what is below; that fails unless it takes the path away too. -/
def removeAll (d : Disk) (path : String) : Removal :=
  match d.locate false path with
  | .ok (.found place .directory) =>
    if endsInDots path || place.isEmpty then
      let rest := d.prune place true
      match rest.locate false path with
      | .ok _ => { disk := rest, cleared := some place, fault := some .invalidArgument }
      | .error _ => { disk := rest, cleared := some place }
    else { disk := d.prune place false, cleared := some place }
  | .ok (.found place (.link _)) => { disk := d.prune place false, cleared := some place }
  | .ok (.found _ (.file _)) => { disk := d, fault := some .notADirectory }
  | .ok (.vacant _) => { disk := d, fault := some .notFound }
  | .error fault => { disk := d, fault := some fault }

/-- Puts an entry at a relative path, with its parents. -/
def install (d : Disk) (path : String) (entry : Entry) : Disk :=
  let d := (d.makeAll (namesToPath false (properNames path).dropLast)).1
  match d.locate false path with
  | .ok (.vacant place) | .ok (.found place _) => d.put place entry
  | .error _ => d

/-- The entries below the working directory, by their paths from there. -/
def listing (d : Disk) : List (String × Entry) :=
  d.entries.filterMap fun (place, entry) =>
    if d.workingDir.isPrefixOf place && d.workingDir.length < place.length then
      some ("/".intercalate (place.drop d.workingDir.length), entry)
    else none

end Longbox.Disk
