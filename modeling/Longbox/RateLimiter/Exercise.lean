import Longbox.RateLimiter

/-! Exercising a rate limiter step by step on a clock that stands still between the steps.

Clones of a limiter share its bucket, so that all of them are one `RateLimiter` and a handle is just
a number. -/
namespace Longbox.RateLimiter

inductive Step where
  | tryAcquire (handle : Nat)
  | rate (handle : Nat)
  | clone (handle : Nat)
  | advance (handle nanos : Nat)
  /-- With a delay in milliseconds after which the wait is cancelled. -/
  | untilReady (handle : Nat) (cancelAfter : Option Nat)
  deriving DecidableEq, Repr

inductive StepResult where
  | acquired (success : Bool)
  | rate (permits : Nat)
  | handle (index : Nat)
  | advanced
  | waited (granted : Bool) (millis : Nat)
  deriving DecidableEq, Repr

structure Bench where
  bucket : RateLimiter
  handles : Nat := 1
  now : Nat := 0

def Bench.step (b : Bench) : Step → StepResult × Bench
  | .tryAcquire _ =>
    let (success, bucket) := b.bucket.tryAcquire (b.now % wordSize)
    (.acquired success, { b with bucket })
  | .rate _ => (.rate b.bucket.rate, b)
  | .clone _ => (.handle b.handles, { b with handles := b.handles + 1 })
  | .advance _ nanos => (.advanced, { b with now := b.now + nanos })
  | .untilReady _ cancelAfter =>
    let cancelAt := cancelAfter.map fun ms => b.now + ms * nanosPerMilli
    match b.bucket.untilReady b.now cancelAt with
    | (.granted instant, bucket) =>
      (.waited true ((instant - b.now) / nanosPerMilli), { b with bucket, now := instant })
    | (.cancelled instant, bucket) =>
      (.waited false ((instant - b.now) / nanosPerMilli), { b with bucket, now := instant })
    | (.starved, bucket) => (.waited false 0, { b with bucket })

/-- The result of each step with the thousandths in the bucket after it. -/
def exercise (rate burst : Nat) (steps : List Step) : List (StepResult × Nat) :=
  go { bucket := ofRate rate burst } steps
where
  go (b : Bench) : List Step → List (StepResult × Nat)
    | [] => []
    | s :: rest =>
      let (result, b) := b.step s
      (result, b.bucket.tokens) :: go b rest

end Longbox.RateLimiter
