import Longbox.Proofs.RateLimiter.Window

/-! What refills add up to.

A refill adds what the rate earns since the last one, rounded down, as long as that is a word
(`refill_exact_iff`). Rounding has its price when refills follow one another: each one that adds something
begins the time anew and drops the part of a thousandth that was left over. `lostAt` counts what a sequence
of refills drops; the amount after them is what one refill would leave, less that (`tokens_refilled`). So a
call that is refused may put off the permit of a later one, by less than a thousandth
(`polled_grants_iff`). -/
namespace Longbox.RateLimiter

/-! ### One refill -/

/-- The whole thousandths that the rate earns from the last refill to `now`. -/
def due (l : RateLimiter) (now : Nat) : Nat :=
  l.rate * (now - l.lastRefill) / nanosPerThousandth

/-- The bucket of a limiter with this rate and burst, whatever is in it. -/
structure IsBucket (rate burst : Nat) (l : RateLimiter) : Prop where
  rate_eq : l.rate = rate
  capacity_eq : l.capacity = (ofRate rate burst).capacity
  full : l.tokens ≤ l.capacity

section
variable {rate burst : Nat} {l : RateLimiter} {now later : Nat}

theorem isBucket_ofRate (rate burst : Nat) : (ofRate rate burst).IsBucket rate burst :=
  ⟨rfl, rfl, Nat.le_refl _⟩

theorem IsBucket.permit_le (h : l.IsBucket rate burst) : permit ≤ l.capacity := by
  rw [h.capacity_eq]
  simp only [ofRate, permit, maxWord, wordSize]
  omega

theorem IsBucket.capacity_le (h : l.IsBucket rate burst) : l.capacity ≤ maxWord := by
  rw [h.capacity_eq]
  exact Nat.min_le_left ..

theorem IsBucket.refill (h : l.IsBucket rate burst) (now : Nat) :
    (l.refill now).IsBucket rate burst where
  rate_eq := (refill_rate l now).trans h.rate_eq
  capacity_eq := (refill_capacity l now).trans h.capacity_eq
  full := by
    rw [refill_capacity]
    exact refill_tokens_le h.full now

theorem due_mono (l : RateLimiter) (h : now ≤ later) : l.due now ≤ l.due later := by
  apply Nat.div_le_div_right
  apply Nat.mul_le_mul_left
  omega

/-- A refill adds the word of what is due, up to a full bucket. -/
theorem IsBucket.tokens_refill (h : l.IsBucket rate burst) (now : Nat) :
    (l.refill now).tokens = min l.capacity (l.tokens + l.due now % wordSize) := by
  have full := h.full
  have fits := h.capacity_le
  show (if l.earned now = 0 then l else _).tokens = min l.capacity (l.tokens + l.earned now)
  split
  · omega
  · dsimp only
    omega

theorem IsBucket.tokens_refill_of_word (h : l.IsBucket rate burst) (hdue : l.due now < wordSize) :
    (l.refill now).tokens = min l.capacity (l.tokens + l.due now) := by
  rw [h.tokens_refill, Nat.mod_eq_of_lt hdue]

/-- A refill after `elapsed` nanoseconds leaves what is due to the thousandth just if that is a word or
the word of it fills the bucket. A later refill leaves no less just if the word of what is due then is no
smaller or fills the bucket, and so it is as long as what is due is a word. -/
theorem refill_exact_iff (h : l.IsBucket rate burst) :
    (∀ elapsed, (l.refill (l.lastRefill + elapsed)).tokens =
        min l.capacity (l.tokens + rate * elapsed / 10 ^ 6) ↔
      rate * elapsed / 10 ^ 6 < 2 ^ 64 ∨
        l.capacity ≤ l.tokens + rate * elapsed / 10 ^ 6 % 2 ^ 64) ∧
    ∀ elapsed longer, elapsed ≤ longer →
      ((l.refill (l.lastRefill + elapsed)).tokens ≤ (l.refill (l.lastRefill + longer)).tokens ↔
        rate * elapsed / 10 ^ 6 % 2 ^ 64 ≤ rate * longer / 10 ^ 6 % 2 ^ 64 ∨
          l.capacity ≤ l.tokens + rate * longer / 10 ^ 6 % 2 ^ 64) ∧
      (rate * longer / 10 ^ 6 < 2 ^ 64 →
        (l.refill (l.lastRefill + elapsed)).tokens ≤ (l.refill (l.lastRefill + longer)).tokens) := by
  have full := h.full
  have fits : l.capacity < 2 ^ 64 := Nat.lt_of_le_of_lt h.capacity_le (by decide)
  have left (elapsed : Nat) : (l.refill (l.lastRefill + elapsed)).tokens =
      min l.capacity (l.tokens + rate * elapsed / 10 ^ 6 % 2 ^ 64) := by
    have due : l.due (l.lastRefill + elapsed) = rate * elapsed / 10 ^ 6 := by
      rw [RateLimiter.due, Nat.add_sub_cancel_left, h.rate_eq]
      rfl
    rw [h.tokens_refill, due]
    rfl
  refine ⟨fun elapsed => ?_, fun elapsed longer hle => ?_⟩
  · rw [left]
    omega
  · have grows : rate * elapsed / 10 ^ 6 ≤ rate * longer / 10 ^ 6 :=
      Nat.div_le_div_right (Nat.mul_le_mul_left _ hle)
    rw [left, left]
    omega

/-- Five permits in a second: a thousandth is earned in 200 microseconds. -/
theorem refill_exact_iff_fivePerSecond :
    let l : RateLimiter := { ofRate 5 1 with tokens := 300, lastRefill := 1000 }
    l.IsBucket 5 1 ∧ (l.refill (1000 + 500000)).tokens = 302 ∧
      (l.refill (1000 + 500000)).tokens ≤ (l.refill (1000 + 1000000000)).tokens := by
  intro l
  have bucket : l.IsBucket 5 1 := ⟨rfl, rfl, by decide⟩
  obtain ⟨exact, later⟩ := refill_exact_iff bucket
  exact ⟨bucket, ((exact 500000).mpr (.inl (by decide))).trans (by decide),
    (later 500000 1000000000 (by decide)).2 (by decide)⟩

/-- What is due after two milliseconds is one more than the largest word. Nothing of it is added, though
after one millisecond the bucket would have been full. -/
theorem refill_wraps :
    let l : RateLimiter := { ofRate (2 ^ 63) 1 with tokens := 0 }
    l.IsBucket (2 ^ 63) 1 ∧ (l.refill 2000000).tokens = 0 ∧ (l.refill 1000000).tokens = 1000 ∧
      min l.capacity (l.tokens + 2 ^ 63 * 2000000 / 10 ^ 6) = 1000 :=
  ⟨⟨rfl, rfl, by decide⟩, by decide, by decide, by decide⟩

/-! ### One refill after the other -/

/-- Millionths of a thousandth that a refill drops: it adds whole thousandths and begins the time anew. -/
def dropped (l : RateLimiter) (now : Nat) : Nat :=
  if l.earned now = 0 then 0 else l.rate * (now - l.lastRefill) % nanosPerThousandth

/-- What refills at these times drop together. -/
def lostAt (l : RateLimiter) : List Nat → Nat
  | [] => 0
  | t :: rest => l.dropped t + (l.refill t).lostAt rest

/-- The bucket after refills at these times. -/
def refilled (l : RateLimiter) (times : List Nat) : RateLimiter :=
  times.foldl refill l

/-- The bucket after calls that ask for a permit at these times. -/
def polled (l : RateLimiter) (times : List Nat) : RateLimiter :=
  times.foldl (fun l t => (l.tryAcquire t).2) l

/-- None of the calls that ask for a permit at these times gets one. -/
def Refuses (l : RateLimiter) : List Nat → Prop
  | [] => True
  | t :: rest => (l.tryAcquire t).1 = false ∧ (l.tryAcquire t).2.Refuses rest

variable {t : Nat} {times : List Nat}

theorem lastRefill_lt (h : l.earned now ≠ 0) : l.lastRefill < now := by
  apply Nat.lt_of_not_le
  intro hle
  apply h
  rw [earned, Nat.sub_eq_zero_of_le hle, Nat.mul_zero]
  rfl

/-- A refill changes nothing, or it turns the time since the last one into whole thousandths and what it
drops; the rate goes on to earn up to `now`. -/
theorem refill_split (hle : t ≤ now) :
    (l.refill t = l ∧ l.dropped t = 0) ∨
      ((l.refill t).lastRefill = t ∧ l.rate * (now - l.lastRefill) =
        nanosPerThousandth * l.due t + l.dropped t + l.rate * (now - t)) := by
  by_cases hnone : l.earned t = 0
  · exact .inl ⟨if_pos hnone, if_pos hnone⟩
  · have before := lastRefill_lt hnone
    have split : now - l.lastRefill = (t - l.lastRefill) + (now - t) := by omega
    have earned : nanosPerThousandth * l.due t + l.dropped t = l.rate * (t - l.lastRefill) := by
      rw [dropped, if_neg hnone, due]
      exact Nat.div_add_mod ..
    refine .inr ⟨?_, ?_⟩
    · rw [refill, if_neg hnone]
    · rw [split, Nat.mul_add, earned]

theorem due_refill_le (hle : t ≤ now) : (l.refill t).due now ≤ l.due now := by
  rcases refill_split hle with ⟨hsame, -⟩ | ⟨hlast, hsplit⟩
  · rw [hsame]
  · apply Nat.div_le_div_right
    rw [refill_rate, hlast, hsplit]
    exact Nat.le_add_left ..

theorem dropped_lt (l : RateLimiter) (now : Nat) : l.dropped now < nanosPerThousandth := by
  unfold dropped
  split
  · decide
  · exact Nat.mod_lt _ (by decide)

/-- Each refill drops less than a thousandth. -/
theorem lostAt_le_length (l : RateLimiter) (times : List Nat) :
    l.lostAt times ≤ times.length * nanosPerThousandth := by
  induction times generalizing l with
  | nil => exact Nat.zero_le _
  | cons t rest ih =>
    have first := l.dropped_lt t
    have others := ih (l.refill t)
    rw [lostAt, List.length_cons, Nat.add_mul]
    omega

/-- A rate earns whole thousandths in whole milliseconds, and nothing is dropped then. -/
theorem lostAt_of_millis (hmillis : ∀ t ∈ times, nanosPerMilli ∣ t - l.lastRefill)
    (hsorted : times.Pairwise (· ≤ ·)) : l.lostAt times = 0 := by
  induction times generalizing l with
  | nil => rfl
  | cons t rest ih =>
    obtain ⟨hfirst, hrest⟩ := List.forall_mem_cons.mp hmillis
    obtain ⟨hle, hsorted⟩ := List.pairwise_cons.mp hsorted
    have none : l.dropped t = 0 := by
      unfold dropped
      split
      · rfl
      · exact Nat.mod_eq_zero_of_dvd (Dvd.dvd.mul_left hfirst l.rate)
    rw [lostAt, none, Nat.zero_add]
    apply ih _ hsorted
    intro later hmem
    have hlater := hrest later hmem
    unfold refill
    split
    · exact hlater
    · rename_i hearned
      have before := lastRefill_lt hearned
      have after := hle later hmem
      show nanosPerMilli ∣ later - t
      unfold nanosPerMilli at hfirst hlater ⊢
      omega

/-- Up to `now` refills drop no more than what the rate earns. -/
theorem lostAt_le (hsorted : (times ++ [now]).Pairwise (· ≤ ·)) (hdue : l.due now < wordSize) :
    l.lostAt times ≤ l.rate * (now - l.lastRefill) := by
  induction times generalizing l with
  | nil => exact Nat.zero_le _
  | cons t rest ih =>
    obtain ⟨hle, hsorted⟩ := List.pairwise_cons.mp hsorted
    have hnow : t ≤ now := hle now (by simp)
    have others := ih hsorted (Nat.lt_of_le_of_lt (due_refill_le hnow) hdue)
    rw [refill_rate] at others
    rw [lostAt]
    rcases refill_split hnow with ⟨hsame, hnone⟩ | ⟨hlast, hsplit⟩
    · rw [hnone, Nat.zero_add]
      rw [hsame] at others ⊢
      exact others
    · rw [hlast] at others
      omega

/-- After refills at some times a last one leaves what it would have left alone, less what the others have
dropped. -/
theorem IsBucket.tokens_refilled (h : l.IsBucket rate burst)
    (hsorted : (times ++ [now]).Pairwise (· ≤ ·)) (hdue : l.due now < wordSize) :
    ((l.refilled times).refill now).tokens = min l.capacity
      ((nanosPerThousandth * l.tokens + l.rate * (now - l.lastRefill) - l.lostAt times) /
        nanosPerThousandth) := by
  induction times generalizing l with
  | nil =>
    have whole : (nanosPerThousandth * l.tokens + l.rate * (now - l.lastRefill)) /
        nanosPerThousandth = l.tokens + l.due now := Nat.mul_add_div (by decide) ..
    show (l.refill now).tokens = _
    rw [h.tokens_refill_of_word hdue, lostAt, Nat.sub_zero, whole]
  | cons t rest ih =>
    obtain ⟨hle, hsorted'⟩ := List.pairwise_cons.mp hsorted
    have hnow : t ≤ now := hle now (by simp)
    have hdue' := Nat.lt_of_le_of_lt (due_refill_le hnow) hdue
    have others := ih (h.refill t) hsorted' hdue'
    have less := lostAt_le hsorted' hdue'
    rw [refill_rate, refill_capacity] at others
    rw [refill_rate] at less
    show (((l.refill t).refilled rest).refill now).tokens = _
    rw [others, lostAt]
    rcases refill_split hnow with ⟨hsame, hnone⟩ | ⟨hlast, hsplit⟩
    · rw [hsame, hnone, Nat.zero_add]
    · rw [hlast] at less ⊢
      rw [hsplit, h.tokens_refill_of_word (Nat.lt_of_le_of_lt (l.due_mono hnow) hdue)]
      generalize (l.refill t).lostAt rest = lost at less ⊢
      generalize l.rate * (now - t) = gain at less ⊢
      unfold nanosPerThousandth
      omega

/-! ### Calls that are refused -/

/-- A call that is refused has refilled the bucket. -/
theorem tryAcquire_of_refused (h : (l.tryAcquire now).1 = false) :
    l.rate ≠ 0 ∧ (l.tryAcquire now).2 = l.refill now := by
  have limited : l.rate ≠ 0 := by
    intro hr
    rw [tryAcquire, if_pos hr] at h
    cases h
  refine ⟨limited, ?_⟩
  rcases tryAcquire_cases limited now with ⟨tokens, -, htaken⟩ | hrefused
  · rw [htaken] at h
    cases h
  · rw [hrefused]

theorem polled_eq_refilled (h : l.Refuses times) : l.polled times = l.refilled times := by
  induction times generalizing l with
  | nil => rfl
  | cons t rest ih =>
    obtain ⟨hfirst, hrest⟩ := h
    have refilled := (tryAcquire_of_refused hfirst).2
    rw [refilled] at hrest
    show (l.tryAcquire t).2.polled rest = (l.refill t).refilled rest
    rw [refilled]
    exact ih hrest

theorem tryAcquire_fst (hr : l.rate ≠ 0) (now : Nat) :
    (l.tryAcquire now).1 = decide (permit ≤ (l.refill now).tokens) := by
  rw [tryAcquire, if_neg hr]
  dsimp only
  split
  · exact (decide_eq_true ‹_›).symm
  · exact (decide_eq_false ‹_›).symm

theorem rate_refilled (l : RateLimiter) (times : List Nat) : (l.refilled times).rate = l.rate := by
  induction times generalizing l with
  | nil => rfl
  | cons t rest ih => exact (ih (l.refill t)).trans (refill_rate l t)

/-- Calls that are refused do not change whether a later one gets a permit just if what the rate earns until
then is not within what they have dropped of the missing thousandths. Refills leave what a last one would
leave alone just if they have dropped no more than that one would, or the bucket is full. Each drops less
than a thousandth, and nothing whole milliseconds after the last refill. -/
theorem polled_grants_iff (h : l.IsBucket rate burst) (hsorted : (times ++ [now]).Pairwise (· < ·))
    (hdue : rate * (now - l.lastRefill) / 10 ^ 6 < 2 ^ 64) :
    (l.Refuses times →
      (((l.polled times).tryAcquire now).1 = (l.tryAcquire now).1 ↔
        ¬ (10 ^ 6 * 1000 ≤ 10 ^ 6 * l.tokens + rate * (now - l.lastRefill) ∧
          10 ^ 6 * l.tokens + rate * (now - l.lastRefill) < 10 ^ 6 * 1000 + l.lostAt times))) ∧
    (((l.refilled times).refill now).tokens = (l.refill now).tokens ↔
      l.lostAt times ≤ rate * (now - l.lastRefill) % 10 ^ 6 ∨
        10 ^ 6 * l.capacity + l.lostAt times ≤
          10 ^ 6 * l.tokens + rate * (now - l.lastRefill)) ∧
    l.lostAt times ≤ times.length * 10 ^ 6 ∧
    ((∀ t ∈ times, 10 ^ 6 ∣ t - l.lastRefill) → l.lostAt times = 0) := by
  obtain rfl := h.rate_eq
  have hsorted : (times ++ [now]).Pairwise (· ≤ ·) := hsorted.imp Nat.le_of_lt
  have less := lostAt_le hsorted hdue
  have after := h.tokens_refilled hsorted hdue
  have alone := h.tokens_refill_of_word hdue
  have room := h.permit_le
  refine ⟨fun hrefuses => ?_, ?_, l.lostAt_le_length times, fun hmillis =>
    lostAt_of_millis hmillis (List.pairwise_append.mp hsorted).1⟩
  · rw [polled_eq_refilled hrefuses]
    by_cases hr : l.rate = 0
    · -- Without a limit every call gets a permit, and nothing is earned that could be dropped.
      have granted (l : RateLimiter) (hr : l.rate = 0) : (l.tryAcquire now).1 = true := by
        rw [tryAcquire, if_pos hr]
      have none : l.lostAt times = 0 := by
        rw [hr, Nat.zero_mul] at less
        exact Nat.le_zero.mp less
      rw [granted l hr, granted _ ((rate_refilled l times).trans hr), none]
      exact iff_of_true rfl (by omega)
    · rw [tryAcquire_fst hr, tryAcquire_fst (by rw [rate_refilled]; exact hr), decide_eq_decide,
        after, alone]
      unfold due nanosPerThousandth permit at *
      omega
  · rw [after, alone]
    unfold due nanosPerThousandth at *
    omega

/-- Five permits in a second, asked for after 1.3 and 7.9 milliseconds: half a thousandth is dropped. -/
theorem polled_grants_iff_fivePerSecond :
    let l : RateLimiter := { ofRate 5 1 with tokens := 0 }
    l.IsBucket 5 1 ∧ l.Refuses [1300000, 7900000] ∧ l.lostAt [1300000, 7900000] = 500000 ∧
      ((l.polled [1300000, 7900000]).tryAcquire 200100000).1 = (l.tryAcquire 200100000).1 := by
  intro l
  have bucket : l.IsBucket 5 1 := ⟨rfl, rfl, by decide⟩
  have refuses : l.Refuses [1300000, 7900000] := ⟨by decide, by decide, trivial⟩
  have lost : l.lostAt [1300000, 7900000] = 500000 := by decide
  have sorted : ([1300000, 7900000] ++ [200100000]).Pairwise (· < ·) := by decide
  have iff := (polled_grants_iff bucket sorted (by decide)).1 refuses
  exact ⟨bucket, refuses, lost, iff.mpr (by rw [lost]; decide)⟩

/-- One permit in a second, asked for after 1.5 milliseconds: half a thousandth is dropped, and the permit
that would be there after a second is not. -/
theorem polling_delays_permit :
    let l : RateLimiter := { ofRate 1 1 with tokens := 0 }
    l.IsBucket 1 1 ∧ l.Refuses [1500000] ∧ (l.tryAcquire 1000000000).1 = true ∧
      ((l.polled [1500000]).tryAcquire 1000000000).1 = false :=
  ⟨⟨rfl, rfl, by decide⟩, ⟨by decide, trivial⟩, by decide, by decide⟩

end
end Longbox.RateLimiter
