import Longbox.RateLimiter

/-! A bucket that several calls share.

Calls that wait for a permit sleep and ask again, and in between others come: the steps of all of them
make one course on one clock. Clones of a limiter share its bucket, so it does not matter whose handle
a call uses. -/
namespace Longbox.RateLimiter

structure Gate where
  bucket : RateLimiter
  now : Nat := 0
  /-- The instants at which the sleeping calls wake. -/
  sleepers : List Nat := []
  /-- The instants at which permits were granted, the latest first. -/
  granted : List Nat := []
  deriving DecidableEq, Repr

namespace Gate

/-- The next thing that happens. -/
inductive Action where
  | pass (nanos : Nat)
  | tryAcquire
  /-- A call comes to wait for a permit, with a token that is cancelled already or not yet. -/
  | untilReady (isCancelled : Bool)
  /-- A sleeping call wakes and asks again. -/
  | wake (index : Nat)
  /-- The token of a sleeping call is cancelled. -/
  | cancel (index : Nat)
  deriving DecidableEq, Repr

def ofRate (rate burst : Nat) : Gate where
  bucket := RateLimiter.ofRate rate burst

/-- What the clock shows: a word of nanoseconds. -/
def reading (g : Gate) : Nat :=
  g.now % wordSize

/-- A call asks for a permit. If there is none, a call that waits goes to sleep. -/
def ask (g : Gate) (waits : Bool) : Gate :=
  match g.bucket.tryAcquire g.reading with
  | (true, bucket) => { g with bucket, granted := g.now :: g.granted }
  | (false, bucket) =>
    let wakeAt := g.now + bucket.waitMillis * nanosPerMilli
    { g with bucket, sleepers := if waits then g.sleepers ++ [wakeAt] else g.sleepers }

def step? (g : Gate) : Action → Option Gate
  | .pass nanos => some { g with now := g.now + nanos }
  | .tryAcquire => some (g.ask false)
  | .untilReady isCancelled => some (if isCancelled then g else g.ask true)
  | .wake index =>
    match g.sleepers[index]? with
    | some wakeAt =>
      if wakeAt ≤ g.now then some ({ g with sleepers := g.sleepers.eraseIdx index }.ask true)
      else none
    | none => none
  | .cancel index =>
    if index < g.sleepers.length then some { g with sleepers := g.sleepers.eraseIdx index }
    else none

/-- The gate after a course of actions, if each of them can happen. -/
def run? (g : Gate) : List Action → Option Gate
  | [] => some g
  | a :: rest => (g.step? a).bind fun g => g.run? rest

/-- How many permits were granted after `start` and up to `stop`. -/
def grantedIn (g : Gate) (start stop : Nat) : Nat :=
  g.granted.countP fun instant => decide (start < instant) && decide (instant ≤ stop)

end Gate
end Longbox.RateLimiter
