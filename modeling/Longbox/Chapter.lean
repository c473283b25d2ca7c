/-! A chapter of a catalog. -/
namespace Longbox

/-- Markers that the catalog does not give are empty; a chapter without a chapter marker is a
one-shot. -/
structure Chapter where
  id : String
  volume : String
  number : String
  title : String
  deriving DecidableEq, Repr

namespace Chapter

def isOneShot (c : Chapter) : Bool :=
  c.number.isEmpty

/-- The name of a chapter in messages. -/
def label (c : Chapter) : String :=
  if c.number.isEmpty then "OneShot: " ++ c.title
  else if c.volume.isEmpty then "Chapter " ++ c.number ++ ": " ++ c.title
  else "Volume " ++ c.volume ++ " Chapter " ++ c.number ++ ": " ++ c.title

end Chapter
end Longbox
