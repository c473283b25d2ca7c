import Longbox.Chapter
import Longbox.Shelf.Scan

/-! What a session is going to do: chapters to download, archives they supersede. -/
namespace Longbox

structure Plan where
  toDownload : List Chapter := []
  /-- Archives that a newer download replaces, in the order of the chapters. -/
  toRemove : List String := []
  /-- For each archive to remove, the id of the chapter that replaces it. -/
  replacedBy : List (String × String) := []
  existing : List Archive := []
  /-- Directories made for chapters so far, oldest first. -/
  hasDownloaded : List String := []
  deriving DecidableEq, Repr

namespace Plan

def isEmpty (p : Plan) : Bool :=
  p.toDownload.isEmpty

def replacement? (p : Plan) (path : String) : Option String :=
  (p.replacedBy.find? fun entry => Path.isSame entry.1 path).map (·.2)

/-- Notes that the chapter replaces the archive; a later chapter takes the place of an earlier. -/
def setReplacement (path id : String) : List (String × String) → List (String × String)
  | [] => [(path, id)]
  | (other, earlier) :: rest =>
    if Path.isSame other path then (other, id) :: rest
    else (other, earlier) :: setReplacement path id rest

/-- Keeps the selected chapters and the removals made for them. Selecting nothing keeps all. -/
def select (p : Plan) (ids : List String) : Plan :=
  if ids.isEmpty then p
  else
    { p with
      toDownload := p.toDownload.filter fun c => ids.contains c.id
      toRemove := p.toRemove.filter fun path =>
        match p.replacement? path with
        | some id => ids.contains id
        | none => false
      replacedBy := p.replacedBy.filter fun entry => ids.contains entry.2 }

end Plan
end Longbox
