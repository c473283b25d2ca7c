/-! A token bucket on a nanosecond clock.

Permits are counted in thousandths, so that a whole number of them accrues every millisecond. The
bucket starts full. A refill adds what the rate earns in the time since the last refill, rounded
down, and moves the instant of the last refill only if that is not nothing, so time too short for a
thousandth is kept for the next refill. A rate of zero means no limit. -/
namespace Longbox

/-- All numbers are 64-bit words: sums stop at `maxWord`, and an earning beyond it wraps. -/
structure RateLimiter where
  /-- Permits per second. -/
  rate : Nat
  /-- The most thousandths of a permit that the bucket holds. -/
  capacity : Nat
  tokens : Nat
  /-- The instant of the last refill, in nanoseconds. -/
  lastRefill : Nat
  deriving DecidableEq, Repr

namespace RateLimiter

def wordSize : Nat := 0x10000000000000000

def maxWord : Nat := wordSize - 1

/-- Thousandths in a permit. -/
def permit : Nat := 1000

/-- The nanoseconds in which a rate of one permit per second earns a thousandth. -/
def nanosPerThousandth : Nat := 1000000

def nanosPerMilli : Nat := 1000000

def ofRate (rate burst : Nat) : RateLimiter :=
  let capacity := min maxWord (max burst 1 * permit)
  ⟨rate, capacity, capacity, 0⟩

/-- The thousandths earned from the last refill to `now`. -/
def earned (l : RateLimiter) (now : Nat) : Nat :=
  l.rate * (now - l.lastRefill) / nanosPerThousandth % wordSize

def refill (l : RateLimiter) (now : Nat) : RateLimiter :=
  if l.earned now = 0 then l
  else { l with
    tokens := min l.capacity (min maxWord (l.tokens + l.earned now))
    lastRefill := now }

/-- Takes a permit if one is there after a refill. -/
def tryAcquire (l : RateLimiter) (now : Nat) : Bool × RateLimiter :=
  if l.rate = 0 then (true, l)
  else
    let l := l.refill now
    if permit ≤ l.tokens then (true, { l with tokens := l.tokens - permit }) else (false, l)

/-- How many milliseconds to wait before asking again: what the missing thousandths take, rounded
down, but at least one and at most a hundred. -/
def waitMillis (l : RateLimiter) : Nat :=
  max 1 (min 100 ((permit - l.tokens) / max l.rate 1))

/-- How a wait for a permit ends. -/
inductive Wait where
  | granted (instant : Nat)
  | cancelled (instant : Nat)
  /-- The bucket did not gain anything while it was waited for. -/
  | starved
  deriving DecidableEq, Repr

def isCancelledBy (cancelAt : Option Nat) (now : Nat) : Bool :=
  match cancelAt with
  | some t => decide (t ≤ now)
  | none => false

/-- Asks for a permit again and again, waiting in between. The clock shows a word of nanoseconds. -/
def waitFrom (cancelAt : Option Nat) : Nat → RateLimiter → Nat → Wait × RateLimiter
  | 0, l, _ => (.starved, l)
  | fuel + 1, l, now =>
    if isCancelledBy cancelAt now then (.cancelled now, l)
    else match l.tryAcquire (now % wordSize) with
      | (true, l) => (.granted now, l)
      | (false, l) =>
        let next := now + l.waitMillis * nanosPerMilli
        match cancelAt with
        | some t => if t ≤ next then (.cancelled t, l) else waitFrom cancelAt fuel l next
        | none => waitFrom cancelAt fuel l next

/-- The whole milliseconds up to the instant of a cancellation. -/
def millisUntil (now : Nat) : Option Nat → Nat
  | some t => (t - now) / nanosPerMilli
  | none => 0

/-- Waits until a permit is there or the wait is cancelled at the instant `cancelAt`. Each wait earns at
least a thousandth until the clock starts anew, so there are no more asks than a permit has thousandths;
when the clock has started anew, nothing is earned and only a cancellation ends the wait. -/
def untilReady (l : RateLimiter) (now : Nat) (cancelAt : Option Nat) : Wait × RateLimiter :=
  waitFrom cancelAt (permit + millisUntil now cancelAt + 1) l now

end RateLimiter
end Longbox
