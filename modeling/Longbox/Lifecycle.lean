/-! The stages that a session goes through. -/
namespace Longbox

inductive Lifecycle where
  | queued
  | loading
  | waiting
  | ready
  | downloading
  | cleanup
  deriving DecidableEq, Repr

namespace Lifecycle

def all : List Lifecycle :=
  [queued, loading, waiting, ready, downloading, cleanup]

def code : Lifecycle → Nat
  | queued => 0
  | loading => 1
  | waiting => 2
  | ready => 3
  | downloading => 4
  | cleanup => 5

/-- The stage with a code; a code of no stage reads as `queued`. -/
def ofCode (n : Nat) : Lifecycle :=
  (all.find? fun s => s.code == n).getD queued

def name : Lifecycle → String
  | queued => "queued"
  | loading => "loading"
  | waiting => "waiting"
  | ready => "ready"
  | downloading => "downloading"
  | cleanup => "cleanup"

def ofName? (name : String) : Option Lifecycle :=
  all.find? fun s => s.name == name

end Lifecycle
end Longbox
