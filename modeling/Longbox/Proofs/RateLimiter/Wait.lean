import Longbox.Proofs.RateLimiter.Refill
import Mathlib.Algebra.Order.Floor.Div

/-! How long a call waits for a permit.

A refill leaves less than a thousandth to be added later (`Settled`), so whole milliseconds earn whole
thousandths from then on, and each sleep shortens the milliseconds that are left by its own length. A call
that is left alone gets its permit when they are over, and a cancellation before that ends it at once
(`untilReady_exact_iff`). The clock is a word of nanoseconds: if it starts anew while a call waits, the last
refill lies ahead of it, and nothing is earned any more (`Dry`). -/
namespace Longbox.RateLimiter

/-! ### What is missing for a permit -/

/-- The thousandths that are missing for a permit. -/
def missing (l : RateLimiter) : Nat :=
  permit - l.tokens

/-- The whole milliseconds in which the rate earns what is missing. -/
def millisLeft (l : RateLimiter) : Nat :=
  l.missing ⌈/⌉ l.rate

section
variable {rate burst : Nat} {l l' : RateLimiter} {now stop fuel : Nat} {cancelAt : Option Nat}

theorem ceilDiv_le_iff_le_mul {a b c : Nat} (hb : 0 < b) : a ⌈/⌉ b ≤ c ↔ a ≤ b * c :=
  ceilDiv_le_iff_le_smul hb

/-- Whole parts that are taken away shorten a quotient by their number. -/
theorem sub_mul_ceilDiv {b : Nat} (hb : 0 < b) (a n : Nat) : (a - b * n) ⌈/⌉ b = a ⌈/⌉ b - n := by
  apply eq_of_forall_ge_iff
  intro c
  rw [ceilDiv_le_iff_le_mul hb, Nat.sub_le_iff_le_add, Nat.sub_le_iff_le_add,
    ceilDiv_le_iff_le_mul hb, Nat.mul_add]

theorem millisLeft_eq_zero_iff (hr : 0 < l.rate) : l.millisLeft = 0 ↔ permit ≤ l.tokens := by
  rw [millisLeft, ← Nat.le_zero, ceilDiv_le_iff_le_mul hr, Nat.mul_zero, Nat.le_zero, missing,
    Nat.sub_eq_zero_iff_le]

theorem millisLeft_le (hr : 0 < l.rate) : l.millisLeft ≤ permit := by
  rw [millisLeft, ceilDiv_le_iff_le_mul hr]
  calc l.missing ≤ permit := Nat.sub_le ..
    _ ≤ l.rate * permit := Nat.le_mul_of_pos_left _ hr

/-- What is earned in the milliseconds that are left is a word. -/
theorem mul_millisLeft_lt (hr : 0 < l.rate) (hword : l.rate < wordSize) :
    l.rate * l.millisLeft < wordSize := by
  by_cases hfast : l.missing ≤ l.rate
  · have once : l.millisLeft ≤ 1 := by
      rw [millisLeft, ceilDiv_le_iff_le_mul hr, Nat.mul_one]
      exact hfast
    calc l.rate * l.millisLeft ≤ l.rate * 1 := Nat.mul_le_mul_left _ once
      _ < wordSize := by rwa [Nat.mul_one]
  · have slow : l.rate ≤ permit := by
      unfold missing at hfast
      omega
    calc l.rate * l.millisLeft ≤ permit * permit := Nat.mul_le_mul slow (millisLeft_le hr)
      _ < wordSize := by decide

theorem waitMillis_pos (l : RateLimiter) : 0 < l.waitMillis :=
  Nat.le_max_left ..

/-- A call does not sleep beyond the instant at which its permit is there. -/
theorem waitMillis_le (hr : 0 < l.rate) (hshort : l.tokens < permit) :
    l.waitMillis ≤ l.millisLeft := by
  apply Nat.le_of_pred_lt
  rw [millisLeft, ← Nat.not_le, ceilDiv_le_iff_le_mul hr, Nat.not_le]
  have lacks : 0 < l.missing := Nat.sub_pos_of_lt hshort
  have whole : l.rate * (l.missing / l.rate) ≤ l.missing := Nat.mul_div_le ..
  have sleep : l.waitMillis = max 1 (min 100 (l.missing / l.rate)) := by
    rw [waitMillis, Nat.max_eq_left hr]
    rfl
  by_cases hone : l.missing / l.rate = 0
  · have one : l.waitMillis = 1 := by
      rw [sleep, hone]
      rfl
    rw [one]
    exact lacks
  · have sooner : l.waitMillis - 1 < l.missing / l.rate := by
      generalize l.missing / l.rate = wait at sleep hone
      omega
    calc l.rate * (l.waitMillis - 1) < l.rate * (l.missing / l.rate) :=
          Nat.mul_lt_mul_of_pos_left sooner hr
      _ ≤ l.missing := whole

/-! ### After a refill -/

/-- All that has been earned up to now is in the bucket, but for less than a thousandth. -/
structure Settled (l : RateLimiter) (now : Nat) : Prop where
  past : l.lastRefill ≤ now % wordSize
  rest : l.rate * (now % wordSize - l.lastRefill) < nanosPerThousandth

theorem settled_refill (hlast : l.lastRefill ≤ now % wordSize)
    (hdue : l.due (now % wordSize) < wordSize) : (l.refill (now % wordSize)).Settled now := by
  by_cases hnone : l.earned (now % wordSize) = 0
  · have nothing : l.due (now % wordSize) = 0 := (Nat.mod_eq_of_lt hdue).symm.trans hnone
    rw [refill, if_pos hnone]
    exact ⟨hlast, Nat.lt_of_div_eq_zero (by decide) nothing⟩
  · rw [refill, if_neg hnone]
    exact ⟨Nat.le_refl _, by simp [nanosPerThousandth]⟩

theorem reading_add {millis : Nat} (hclock : now % wordSize + millis * nanosPerMilli < wordSize) :
    (now + millis * nanosPerMilli) % wordSize = now % wordSize + millis * nanosPerMilli := by
  unfold wordSize at *
  omega

/-- In whole milliseconds the rate earns whole thousandths. -/
theorem Settled.due (hs : l.Settled now) {millis : Nat}
    (hclock : now % wordSize + millis * nanosPerMilli < wordSize) :
    l.due ((now + millis * nanosPerMilli) % wordSize) = l.rate * millis := by
  have past := hs.past
  have split : now % wordSize + millis * nanosPerMilli - l.lastRefill =
      (now % wordSize - l.lastRefill) + millis * nanosPerMilli := by omega
  have whole : l.rate * (millis * nanosPerMilli) = l.rate * millis * nanosPerThousandth :=
    (Nat.mul_assoc ..).symm
  rw [RateLimiter.due, reading_add hclock, split, Nat.mul_add, whole,
    Nat.add_mul_div_right _ _ (by decide), Nat.div_eq_of_lt hs.rest, Nat.zero_add]

/-- A refill at once changes nothing. -/
theorem Settled.refill_eq (hs : l.Settled now) : l.refill (now % wordSize) = l := by
  have nothing : l.due (now % wordSize) = 0 := Nat.div_eq_of_lt hs.rest
  refine if_pos ?_
  show l.due (now % wordSize) % wordSize = 0
  rw [nothing]
  rfl

theorem Settled.tokens_refill (h : l.IsBucket rate burst) (hs : l.Settled now) {millis : Nat}
    (hclock : now % wordSize + millis * nanosPerMilli < wordSize) (hword : l.rate * millis < wordSize) :
    (l.refill ((now + millis * nanosPerMilli) % wordSize)).tokens =
      min l.capacity (l.tokens + l.rate * millis) := by
  have due := hs.due hclock
  rw [h.tokens_refill_of_word (by rwa [due]), due]

theorem Settled.refill (hs : l.Settled now) {millis : Nat}
    (hclock : now % wordSize + millis * nanosPerMilli < wordSize) (hword : l.rate * millis < wordSize) :
    (l.refill ((now + millis * nanosPerMilli) % wordSize)).Settled (now + millis * nanosPerMilli) := by
  apply settled_refill
  · have past := hs.past
    rw [reading_add hclock]
    omega
  · rwa [hs.due hclock]

/-- A refill after some of the milliseconds that are left leaves the others. -/
theorem Settled.millisLeft_refill (h : l.IsBucket rate burst) (hr : 0 < l.rate) (hs : l.Settled now)
    {millis : Nat} (hclock : now % wordSize + millis * nanosPerMilli < wordSize)
    (hword : l.rate * millis < wordSize) :
    (l.refill ((now + millis * nanosPerMilli) % wordSize)).millisLeft = l.millisLeft - millis := by
  have room := h.permit_le
  have lacks : (l.refill ((now + millis * nanosPerMilli) % wordSize)).missing =
      l.missing - l.rate * millis := by
    rw [missing, hs.tokens_refill h hclock hword, missing]
    omega
  rw [millisLeft, lacks, refill_rate, sub_mul_ceilDiv hr]
  rfl

/-! ### Asking again and again -/

/-- The instant at which a refused call asks again. -/
def nextAsk (l : RateLimiter) (now : Nat) : Nat :=
  now + l.waitMillis * nanosPerMilli

theorem lt_nextAsk (l : RateLimiter) (now : Nat) : now < l.nextAsk now := by
  have pos := l.waitMillis_pos
  unfold nextAsk nanosPerMilli
  omega

/-- A call that finds too little sleeps and is cancelled meanwhile, or asks again. -/
theorem waitFrom_of_short (hr : 0 < l.rate) (hl : l.refill (now % wordSize) = l')
    (hshort : l'.tokens < permit) (hc : isCancelledBy cancelAt now = false) :
    waitFrom cancelAt (fuel + 1) l now =
      if isCancelledBy cancelAt (l'.nextAsk now) then (.cancelled (cancelAt.getD now), l')
      else waitFrom cancelAt fuel l' (l'.nextAsk now) := by
  have refused : l.tryAcquire (now % wordSize) = (false, l') := by
    rw [tryAcquire, if_neg hr.ne', hl]
    exact if_neg (Nat.not_le.mpr hshort)
  rw [waitFrom, hc, refused]
  cases cancelAt with
  | none => rfl
  | some t =>
    by_cases ht : t ≤ l'.nextAsk now
    · have before : isCancelledBy (some t) (l'.nextAsk now) = true := decide_eq_true ht
      rw [before]
      exact if_pos ht
    · have after : isCancelledBy (some t) (l'.nextAsk now) = false := decide_eq_false ht
      rw [after]
      exact if_neg ht

/-- A call that finds enough takes its permit. -/
theorem waitFrom_of_enough (hr : 0 < l.rate) (hl : l.refill (now % wordSize) = l')
    (henough : permit ≤ l'.tokens) (hc : isCancelledBy cancelAt now = false) :
    waitFrom cancelAt (fuel + 1) l now =
      (.granted now, { l' with tokens := l'.tokens - permit }) := by
  have served : l.tryAcquire (now % wordSize) =
      (true, { l' with tokens := l'.tokens - permit }) := by
    rw [tryAcquire, if_neg hr.ne', hl]
    exact if_pos henough
  rw [waitFrom, hc, served]
  rfl

theorem isCancelledBy_mono {later : Nat} (hle : now ≤ later)
    (h : isCancelledBy cancelAt later = false) : isCancelledBy cancelAt now = false := by
  cases cancelAt with
  | none => rfl
  | some t =>
    simp only [isCancelledBy, decide_eq_false_iff_not] at h ⊢
    omega

/-- The instant at which the milliseconds that are left are over. -/
def readyAt (l : RateLimiter) (now : Nat) : Nat :=
  now + l.millisLeft * nanosPerMilli

/-- A bucket that earns something, right after a refill. -/
structure Steady (rate burst : Nat) (l : RateLimiter) (now : Nat) : Prop
    extends l.IsBucket rate burst, l.Settled now where
  pos : 0 < l.rate
  word : l.rate < wordSize

/-- The sleep of a call that finds too little takes its length from the milliseconds that are left. -/
theorem Steady.nextAsk (h : l.Steady rate burst now) (hshort : l.tokens < permit)
    (hclock : now % wordSize + l.waitMillis * nanosPerMilli < wordSize) :
    (l.refill (l.nextAsk now % wordSize)).Steady rate burst (l.nextAsk now) ∧
      (l.refill (l.nextAsk now % wordSize)).millisLeft + l.waitMillis = l.millisLeft := by
  have sleep := waitMillis_le h.pos hshort
  have fits : l.rate * l.waitMillis < wordSize :=
    (Nat.mul_le_mul_left _ sleep).trans_lt (mul_millisLeft_lt h.pos h.word)
  have left := h.toSettled.millisLeft_refill h.toIsBucket h.pos hclock fits
  refine ⟨{ h.toIsBucket.refill _, h.toSettled.refill hclock fits with pos := ?_, word := ?_ }, ?_⟩
  · rw [refill_rate]
    exact h.pos
  · rw [refill_rate]
    exact h.word
  · unfold RateLimiter.nextAsk
    omega

theorem readyAt_nextAsk
    (left : (l.refill (l.nextAsk now % wordSize)).millisLeft + l.waitMillis = l.millisLeft) :
    (l.refill (l.nextAsk now % wordSize)).readyAt (l.nextAsk now) = l.readyAt now := by
  unfold readyAt
  rw [← left, RateLimiter.nextAsk, Nat.add_mul]
  omega

theorem reading_nextAsk (awake : now % wordSize + l.waitMillis * nanosPerMilli < wordSize) :
    l.nextAsk now % wordSize = now % wordSize + l.waitMillis * nanosPerMilli :=
  reading_add awake

/-- Until the milliseconds are over, the permit is not there. -/
theorem Steady.short_iff (h : l.Steady rate burst now) : l.tokens < permit ↔ now < l.readyAt now := by
  have spent := millisLeft_eq_zero_iff h.pos
  unfold readyAt nanosPerMilli
  omega

/-- A call that is left alone gets its permit when the milliseconds that are left are over, if the clock
does not start anew before. -/
theorem waitFrom_granted (hr : 0 < l.rate) (hl : l.refill (now % wordSize) = l')
    (h : l'.Steady rate burst now) (hfuel : l'.millisLeft < fuel)
    (hclock : now % wordSize + l'.millisLeft * nanosPerMilli < wordSize)
    (hc : isCancelledBy cancelAt (l'.readyAt now) = false) :
    ∃ bucket, waitFrom cancelAt fuel l now = (.granted (l'.readyAt now), bucket) ∧
      bucket.tokens + permit = min l'.capacity (l'.tokens + l'.rate * l'.millisLeft) := by
  induction fuel generalizing l l' now with
  | zero => omega
  | succ fuel ih =>
    have uncancelled := isCancelledBy_mono (Nat.le_add_right ..) hc
    by_cases hshort : l'.tokens < permit
    · have sleep := waitMillis_le h.pos hshort
      have awake : now % wordSize + l'.waitMillis * nanosPerMilli < wordSize :=
        (Nat.add_le_add_left (Nat.mul_le_mul_right _ sleep) _).trans_lt hclock
      obtain ⟨next, left⟩ := h.nextAsk hshort awake
      -- The instant at which the permit is there stays the same from ask to ask.
      have ready := readyAt_nextAsk left
      have later : l'.nextAsk now ≤ l'.readyAt now := by
        rw [← ready]
        exact Nat.le_add_right ..
      have slept := h.toSettled.tokens_refill h.toIsBucket awake
        ((Nat.mul_le_mul_left _ sleep).trans_lt (mul_millisLeft_lt h.pos h.word))
      have pos := l'.waitMillis_pos
      rw [← left, Nat.add_mul] at hclock
      obtain ⟨bucket, hwait, htokens⟩ := ih h.pos rfl next (by omega)
        (by have reading := reading_nextAsk awake; omega) (by rwa [ready])
      rw [waitFrom_of_short hr hl hshort uncancelled, isCancelledBy_mono later hc]
      refine ⟨bucket, by rw [← ready]; exact hwait, ?_⟩
      rw [htokens, refill_rate, refill_capacity, ← left, Nat.mul_add]
      change (l'.refill (l'.nextAsk now % wordSize)).tokens = _ at slept
      omega
    · have enough := Nat.not_lt.mp hshort
      have none : l'.millisLeft = 0 := (millisLeft_eq_zero_iff h.pos).mpr enough
      have ready : l'.readyAt now = now := by rw [readyAt, none, Nat.zero_mul, Nat.add_zero]
      refine ⟨_, by rw [ready]; exact waitFrom_of_enough hr hl enough uncancelled, ?_⟩
      have full := h.full
      rw [none, Nat.mul_zero, Nat.add_zero, Nat.min_eq_right full]
      exact Nat.sub_add_cancel enough

/-! ### When the clock starts anew -/

/-- Up to `stop` nothing is earned, and there is no permit. -/
structure Dry (l : RateLimiter) (now stop : Nat) : Prop where
  pos : 0 < l.rate
  short : l.tokens < permit
  refill_eq : ∀ instant, now ≤ instant → instant ≤ stop → l.refill (instant % wordSize) = l

theorem Dry.later (h : l.Dry now stop) {later : Nat} (hle : now ≤ later) : l.Dry later stop :=
  { h with refill_eq := fun instant hfrom => h.refill_eq instant (hle.trans hfrom) }

/-- A clock that starts anew shows less than the instant of the last refill. -/
theorem Steady.dry (h : l.Steady rate burst now) (hshort : l.tokens < permit)
    (hanew : wordSize ≤ now % wordSize + l.waitMillis * nanosPerMilli) :
    l.Dry (l.nextAsk now) (l.readyAt now) := by
  refine ⟨h.pos, hshort, fun instant hfrom hto => if_pos ?_⟩
  have soon := millisLeft_le h.pos
  have recent : now % wordSize - l.lastRefill < nanosPerThousandth :=
    (Nat.le_mul_of_pos_left _ h.pos).trans_lt h.rest
  have before : instant % wordSize - l.lastRefill = 0 := by
    unfold RateLimiter.nextAsk at hfrom
    unfold readyAt at hto
    unfold wordSize nanosPerMilli nanosPerThousandth permit at *
    omega
  rw [earned, before, Nat.mul_zero]
  rfl

theorem Dry.lt_granted (h : l.Dry now stop) {instant : Nat}
    (hgranted : (waitFrom cancelAt fuel l now).1 = .granted instant) : stop < instant := by
  induction fuel generalizing now with
  | zero => cases hgranted
  | succ fuel ih =>
    by_cases hover : stop < now
    · have later : now ≤ instant := le_instant_waitFrom (by rw [hgranted]; rfl)
      exact hover.trans_le later
    · have same := h.refill_eq now (Nat.le_refl now) (Nat.not_lt.mp hover)
      cases hc : isCancelledBy cancelAt now with
      | true =>
        rw [waitFrom, if_pos hc] at hgranted
        cases hgranted
      | false =>
        rw [waitFrom_of_short h.pos same h.short hc] at hgranted
        split at hgranted
        · cases hgranted
        · exact ih (h.later (l.lt_nextAsk now).le) hgranted

theorem Dry.waitFrom_eq (h : l.Dry now stop) {t : Nat} (hnow : now < t) (hstop : t ≤ stop)
    (hfuel : t ≤ now + fuel * nanosPerMilli) : waitFrom (some t) fuel l now = (.cancelled t, l) := by
  induction fuel generalizing now with
  | zero => omega
  | succ fuel ih =>
    have same := h.refill_eq now (Nat.le_refl now) (hnow.le.trans hstop)
    have uncancelled : isCancelledBy (some t) now = false := decide_eq_false (Nat.not_le.mpr hnow)
    rw [waitFrom_of_short h.pos same h.short uncancelled]
    split
    · rfl
    · rename_i hnext
      have pos := l.waitMillis_pos
      refine ih (h.later (l.lt_nextAsk now).le) (by simpa [isCancelledBy] using hnext) ?_
      unfold RateLimiter.nextAsk nanosPerMilli at *
      omega

/-- If the clock starts anew before the milliseconds are over, the permit is not there then. -/
theorem waitFrom_ne_granted (hr : 0 < l.rate) (hl : l.refill (now % wordSize) = l')
    (h : l'.Steady rate burst now)
    (hanew : wordSize ≤ now % wordSize + l'.millisLeft * nanosPerMilli) :
    (waitFrom cancelAt fuel l now).1 ≠ .granted (l'.readyAt now) := by
  induction fuel generalizing l l' now with
  | zero =>
    intro hgranted
    cases hgranted
  | succ fuel ih =>
    have shown : now % wordSize < wordSize := Nat.mod_lt _ (by decide)
    have hshort : l'.tokens < permit := by
      rw [h.short_iff, readyAt]
      omega
    cases hc : isCancelledBy cancelAt now with
    | true =>
      rw [waitFrom, if_pos hc]
      intro hgranted
      cases hgranted
    | false =>
      rw [waitFrom_of_short hr hl hshort hc]
      split
      · intro hgranted
        cases hgranted
      · by_cases awake : now % wordSize + l'.waitMillis * nanosPerMilli < wordSize
        · obtain ⟨next, left⟩ := h.nextAsk hshort awake
          rw [← readyAt_nextAsk left]
          refine ih h.pos rfl next ?_
          have reading := reading_nextAsk awake
          rw [← left, Nat.add_mul] at hanew
          omega
        · intro hgranted
          exact Nat.lt_irrefl _ ((h.dry hshort (Nat.not_lt.mp awake)).lt_granted hgranted)

/-! ### Cancellation -/

/-- A call that is cancelled before its permit is there leaves the bucket as the refills of its asks have
made it. -/
theorem waitFrom_cancelled (hr : 0 < l.rate) (hl : l.refill (now % wordSize) = l')
    (h : l'.Steady rate burst now) {t : Nat} (hnow : now < t) (hready : t < l'.readyAt now)
    (hfuel : t ≤ now + fuel * nanosPerMilli) :
    ∃ asks : List Nat, (∀ ask ∈ asks, now ≤ ask ∧ ask < t) ∧
      waitFrom (some t) fuel l now = (.cancelled t, l.refilled (asks.map (· % wordSize))) := by
  induction fuel generalizing l l' now with
  | zero => omega
  | succ fuel ih =>
    have hshort := h.short_iff.mpr (hnow.trans hready)
    have uncancelled : isCancelledBy (some t) now = false := decide_eq_false (Nat.not_le.mpr hnow)
    have once : ∀ ask ∈ [now], now ≤ ask ∧ ask < t := by simpa using hnow
    have refilled : l' = l.refilled ([now].map (· % wordSize)) := hl.symm
    rw [waitFrom_of_short hr hl hshort uncancelled]
    split
    · exact ⟨[now], once, by rw [← refilled]; rfl⟩
    · rename_i hnext
      have pos := l'.waitMillis_pos
      have hnext : l'.nextAsk now < t := by simpa [isCancelledBy] using hnext
      have fuelled : t ≤ l'.nextAsk now + fuel * nanosPerMilli := by
        unfold RateLimiter.nextAsk nanosPerMilli at *
        omega
      by_cases awake : now % wordSize + l'.waitMillis * nanosPerMilli < wordSize
      · obtain ⟨next, left⟩ := h.nextAsk hshort awake
        obtain ⟨asks, hasks, hwait⟩ :=
          ih h.pos rfl next hnext (by rwa [readyAt_nextAsk left]) fuelled
        refine ⟨now :: asks, List.forall_mem_cons.mpr ⟨⟨Nat.le_refl _, hnow⟩, fun ask hmem => ?_⟩, ?_⟩
        · obtain ⟨hfrom, hto⟩ := hasks ask hmem
          exact ⟨(l'.lt_nextAsk now).le.trans hfrom, hto⟩
        · rw [hwait, ← hl]
          rfl
      · have dry := h.dry hshort (Nat.not_lt.mp awake)
        exact ⟨[now], once, by rw [dry.waitFrom_eq hnext hready.le fuelled, ← refilled]⟩

/-- A call that is not cancelled before gets its permit after the milliseconds in which the rate earns what
is missing, rounded up, just if the clock does not start anew meanwhile; it takes one permit from what the
refills leave. A call that is cancelled earlier ends at that instant, or at once, and takes nothing. -/
theorem untilReady_exact_iff (h : l.IsBucket rate burst) (hrate : 1 ≤ rate) (hword : rate < 2 ^ 64)
    (hlast : l.lastRefill ≤ now % 2 ^ 64)
    (hdue : rate * (now % 2 ^ 64 - l.lastRefill) / 10 ^ 6 < 2 ^ 64) :
    let refilled := l.refill (now % 2 ^ 64)
    let millis := (1000 - min 1000 refilled.tokens) ⌈/⌉ rate
    let ready := now + millis * 10 ^ 6
    (∀ cancelAt : Option Nat, (∀ t ∈ cancelAt, ready < t) →
      ((l.untilReady now cancelAt).1 = .granted ready ↔ now % 2 ^ 64 + millis * 10 ^ 6 < 2 ^ 64) ∧
      ((l.untilReady now cancelAt).1 = .granted ready →
        (l.untilReady now cancelAt).2.tokens + 1000 =
          (refilled.refill (ready % 2 ^ 64)).tokens)) ∧
    (∀ t, t ≤ now → l.untilReady now (some t) = (.cancelled now, l)) ∧
    ∀ t, now < t → t < ready → ∃ asks : List Nat, (∀ ask ∈ asks, now ≤ ask ∧ ask < t) ∧
      l.untilReady now (some t) = (.cancelled t, l.refilled (asks.map (· % 2 ^ 64))) := by
  intro refilled millis ready
  obtain rfl := h.rate_eq
  have refills : l.refill (now % wordSize) = refilled := rfl
  have steady : refilled.Steady l.rate burst now :=
    { h.refill _, settled_refill hlast hdue with
      pos := by rwa [refill_rate]
      word := by rwa [refill_rate] }
  have left : refilled.millisLeft = millis := by
    have lacks : refilled.missing = 1000 - min 1000 refilled.tokens := by
      unfold missing permit
      omega
    rw [millisLeft, lacks, refill_rate]
  have readyAt : refilled.readyAt now = ready := by
    rw [RateLimiter.readyAt, left]
    rfl
  have soon : refilled.millisLeft ≤ permit := millisLeft_le steady.pos
  refine ⟨fun cancelAt hcancel => ?_, fun t ht => ?_, fun t hnow ht => ?_⟩
  · by_cases hclock : now % 2 ^ 64 + millis * 10 ^ 6 < 2 ^ 64
    · have uncancelled : isCancelledBy cancelAt (refilled.readyAt now) = false := by
        rw [readyAt]
        cases cancelAt with
        | none => rfl
        | some t => exact decide_eq_false (Nat.not_le.mpr (hcancel t rfl))
      have fuelled : refilled.millisLeft < permit + millisUntil now cancelAt + 1 := by omega
      have clock : now % wordSize + refilled.millisLeft * nanosPerMilli < wordSize := by rwa [left]
      obtain ⟨bucket, hwait, htokens⟩ :=
        waitFrom_granted hrate refills steady fuelled clock uncancelled
      have paid := steady.toSettled.tokens_refill steady.toIsBucket clock
        (mul_millisLeft_lt steady.pos steady.word)
      rw [readyAt] at hwait
      rw [untilReady, hwait]
      refine ⟨iff_of_true rfl hclock, fun _ => htokens.trans ?_⟩
      rw [← paid, left]
      rfl
    · have missed : (l.untilReady now cancelAt).1 ≠ .granted ready := by
        rw [← readyAt]
        refine waitFrom_ne_granted hrate refills steady ?_
        rw [left]
        exact Nat.not_lt.mp hclock
      exact ⟨iff_of_false missed hclock, fun hgranted => absurd hgranted missed⟩
  · have cancelled : isCancelledBy (some t) now = true := decide_eq_true ht
    rw [untilReady, waitFrom, if_pos cancelled]
  · refine waitFrom_cancelled hrate refills steady hnow (by rwa [readyAt]) ?_
    have late : t < now + refilled.millisLeft * nanosPerMilli := by
      rw [left]
      exact ht
    unfold nanosPerMilli at *
    omega

/-- Three permits in a second, of which seven tenths are missing, a little after the last refill: the
permit is there after 234 milliseconds, and a cancellation after 150 and a half comes in time. -/
theorem untilReady_exact_iff_threePerSecond :
    let l : RateLimiter := { ofRate 3 1 with tokens := 300, lastRefill := 6900000 }
    (l.IsBucket 3 1 ∧ 1 ≤ 3 ∧ 3 < 2 ^ 64 ∧ l.lastRefill ≤ 7000000 % 2 ^ 64) ∧
      (l.untilReady 7000000 none).1 = .granted (7000000 + 234 * 10 ^ 6) ∧
      (l.untilReady 7000000 none).2.tokens + 1000 = 1000 ∧
      (l.untilReady 7000000 (some 157500000)).1 = .cancelled 157500000 := by
  intro l
  have bucket : l.IsBucket 3 1 := ⟨rfl, rfl, by decide⟩
  have past : l.lastRefill ≤ 7000000 % 2 ^ 64 := by decide
  obtain ⟨uncancelled, -, cancelled⟩ :=
    untilReady_exact_iff bucket (by decide) (by decide) past (by decide)
  have millis : (1000 - min 1000 (l.refill (7000000 % 2 ^ 64)).tokens) ⌈/⌉ 3 = 234 := by decide
  rw [millis] at uncancelled cancelled
  obtain ⟨granted, paid⟩ := uncancelled none nofun
  have grants := granted.mpr (by decide)
  obtain ⟨asks, -, hwait⟩ := cancelled 157500000 (by decide) (by decide)
  exact ⟨⟨bucket, by decide, by decide, past⟩, grants, (paid grants).trans (by decide),
    by rw [hwait]⟩

/-- A thousand permits in a second, with an empty bucket less than a millisecond before the clock starts
anew: what is missing takes a millisecond, and after five the call still waits when it is cancelled. -/
theorem untilReady_outlasts_clock :
    let now := 18446744073709000000
    let l : RateLimiter := { ofRate 1000 1 with tokens := 0, lastRefill := now }
    l.IsBucket 1000 1 ∧ 10 ^ 6 ∣ now ∧ now < 2 ^ 64 ∧ l.lastRefill ≤ now ∧
      now + ((1000 - min 1000 (l.refill now).tokens) ⌈/⌉ 1000) * 10 ^ 6 < now + 5 * 10 ^ 6 ∧
      (l.untilReady now (some (now + 5 * 10 ^ 6))).1 = .cancelled (now + 5 * 10 ^ 6) :=
  ⟨⟨rfl, rfl, by decide⟩, by decide, by decide, by decide, by decide, by decide +kernel⟩

end
end Longbox.RateLimiter
