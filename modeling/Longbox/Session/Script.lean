import Longbox.Session.Step

/-! Scripts for the collaborators of a session. -/
namespace Longbox

/-- Something to do to a session from outside. -/
inductive Cue where
  | operate (op : Operation)
  | cancelParent
  /-- Looks at the session, and has it classify tags. -/
  | look (tags : List Tag)
  deriving DecidableEq, Repr

/-- What a collaborator is to answer. -/
inductive Verdict where
  | succeed
  /-- Cancels the parent token of the runs, and fails for that reason. -/
  | cancelParent
  | fail (e : Error)
  deriving DecidableEq, Repr

structure ChapterScript where
  urls : List String := []
  resolving : Verdict := .succeed
  describing : Verdict := .succeed
  /-- Followed before the addresses of the pages are answered. -/
  cues : List Cue := []
  deriving DecidableEq, Repr

structure Script where
  chapter : String → ChapterScript
  /-- By the page's address and the number of attempts on it before. -/
  fetch : String → Nat → Verdict × ByteArray
  /-- By the path of the page's file. -/
  commit : String → Verdict
  /-- The volume recorded in an archive. -/
  volume : Disk → Archive → Option String
  release : Verdict
  loading : Verdict
  preferences : Except Error TagPreferences
  /-- Followed before the preferences are answered. -/
  cues : List Cue

/-- The token that a script's runs have as their parent. -/
def Script.parent : Nat := 0

end Longbox
