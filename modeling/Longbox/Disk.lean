import Longbox.Path

/-! A file tree with directories, files and symbolic links.

A `Disk` lists what stands at each place, a place being the names from the root down to it.
`locate` follows a path as an operating system does: component by component, through links, with a
bound on the links of one path. It tells what the path leads to (`Spot`) or why it leads nowhere
(`Fault`). -/
namespace Longbox

/-- Why a path or what it leads to cannot be used. -/
inductive Fault where
  | notFound
  | alreadyExists
  | notADirectory
  | isADirectory
  | tooManyLinks
  | nameTooLong
  | nulInName
  | invalidArgument
  | invalidText
  | damagedData
  | wrongChecksum
  deriving DecidableEq, Repr

def Fault.message : Fault → String
  | notFound => "No such file or directory (os error 2)"
  | alreadyExists => "File exists (os error 17)"
  | notADirectory => "Not a directory (os error 20)"
  | isADirectory => "Is a directory (os error 21)"
  | tooManyLinks => "Too many levels of symbolic links (os error 40)"
  | nameTooLong => "File name too long (os error 36)"
  | nulInName => "file name contained an unexpected NUL byte"
  | invalidArgument => "Invalid argument (os error 22)"
  | invalidText => "stream did not contain valid UTF-8"
  | damagedData => "corrupt deflate stream"
  | wrongChecksum => "Invalid checksum"

/-- Files are compared by their bytes. -/
instance (priority := high) bytesDecidableEq : DecidableEq ByteArray :=
  fun a b => decidable_of_iff (a.data = b.data) ByteArray.ext_iff.symm

/-- The names from the root of the tree down to an entry. -/
abbrev Place := List String

inductive Entry where
  | directory
  | file (bytes : ByteArray)
  | link (target : String)
  deriving DecidableEq

/-- Relative paths start at the working directory. The root itself is not listed. -/
structure Disk where
  workingDir : Place := ["work"]
  entries : List (Place × Entry) := [(["work"], .directory)]
  deriving DecidableEq

/-- Where a path leads: to an entry, or to a free name in a directory that exists. -/
inductive Spot where
  | found (place : Place) (entry : Entry)
  | vacant (place : Place)
  deriving DecidableEq

namespace Disk

def entryAt? (d : Disk) (place : Place) : Option Entry :=
  if place.isEmpty then some .directory else d.entries.lookup place

def put (d : Disk) (place : Place) (entry : Entry) : Disk :=
  { d with entries := d.entries.filter (fun e => e.1 != place) ++ [(place, entry)] }

/-- The names and entries directly below a place. -/
def children (d : Disk) (place : Place) : List (String × Entry) :=
  d.entries.filterMap fun (p, entry) =>
    match p.getLast? with
    | some name => if p.dropLast == place then some (name, entry) else none
    | none => none

def maxNameBytes : Nat := 255

def maxPathBytes : Nat := 4096

/-- The most links that one path may lead through. -/
def maxLinks : Nat := 40

def pathNames (path : String) : List String :=
  (Path.splitChars '/' path.toList).map String.ofList

def start (d : Disk) (path : String) : Place :=
  if Path.isAbsolute path then [] else d.workingDir

/-- Follows names from the directory `here`. A link at the end is followed if `follow` says so or if a
slash comes behind it; `onLink` goes on with the names that a link stands for. -/
def walkNames (d : Disk) (follow : Bool) (onLink : Place → List String → Except Fault Spot) :
    Place → List String → Except Fault Spot
  | here, [] =>
    match d.entryAt? here with
    | some entry => .ok (.found here entry)
    | none => .error .notFound
  | here, name :: rest =>
    if name.isEmpty || name == "." then d.walkNames follow onLink here rest
    else if name == ".." then d.walkNames follow onLink here.dropLast rest
    else if maxNameBytes < name.utf8ByteSize then .error .nameTooLong
    else
      match d.entryAt? (here ++ [name]) with
      | none => if rest.all String.isEmpty then .ok (.vacant (here ++ [name])) else .error .notFound
      | some .directory => d.walkNames follow onLink (here ++ [name]) rest
      | some (.file bytes) =>
        if rest.isEmpty then .ok (.found (here ++ [name]) (.file bytes)) else .error .notADirectory
      | some (.link target) =>
        if rest.isEmpty && !follow then .ok (.found (here ++ [name]) (.link target))
        else onLink (if Path.isAbsolute target then [] else here) (pathNames target ++ rest)

/-- Follows names through at most the given number of links. -/
def walk (d : Disk) (follow : Bool) : Nat → Place → List String → Except Fault Spot
  | 0 => d.walkNames follow fun _ _ => .error .tooManyLinks
  | links + 1 => d.walkNames follow (d.walk follow links)

/-- What a path leads to; a link at its end is followed if `follow` says so. -/
def locate (d : Disk) (follow : Bool) (path : String) : Except Fault Spot :=
  if path.isEmpty then .error .notFound
  else if path.toList.contains (Char.ofNat 0) then .error .nulInName
  else if maxPathBytes ≤ path.utf8ByteSize then .error .nameTooLong
  else d.walk follow maxLinks (d.start path) (pathNames path)

/-- The entry at a path, links followed. -/
def stat (d : Disk) (path : String) : Except Fault (Place × Entry) :=
  match d.locate true path with
  | .ok (.found place entry) => .ok (place, entry)
  | .ok (.vacant _) => .error .notFound
  | .error fault => .error fault

def isDirectory (d : Disk) (path : String) : Bool :=
  match d.stat path with
  | .ok (_, .directory) => true
  | _ => false

/-- The bytes of the file at a path. -/
def read (d : Disk) (path : String) : Except Fault ByteArray :=
  match d.stat path with
  | .ok (_, .file bytes) => .ok bytes
  | .ok (_, _) => .error .isADirectory
  | .error fault => .error fault

def readText (d : Disk) (path : String) : Except Fault String :=
  match d.read path with
  | .ok bytes =>
    match String.fromUTF8? bytes with
    | some text => .ok text
    | none => .error .invalidText
  | .error fault => .error fault

end Disk
end Longbox
