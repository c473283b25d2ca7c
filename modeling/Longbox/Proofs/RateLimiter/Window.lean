import Longbox.RateLimiter.Gate
import Mathlib.Data.Rat.Floor
import Mathlib.Tactic.Linarith

/-! How many permits are granted in a window of time.

A permit costs what the bucket holds, and the bucket gains no more than the rate earns in the time since
the last refill. `Owes` says how much of that is still to come: nothing right after a refill, less than
a thousandth where a refill found nothing to add. So whatever calls share the bucket, the permits of a
window are a full bucket and what the window earns, and a thousandth that may have come due before it
(`permits_in_window`). -/
namespace Longbox.RateLimiter

/-! ### What is still to be earned -/

/-- From the instant `now` on a refill adds what the time since then earns, and no more than `debt`
besides. Both are counted in millionths of a thousandth. -/
def Owes (l : RateLimiter) (now debt : Nat) : Prop :=
  ∀ later, now ≤ later →
    nanosPerThousandth * l.earned (later % wordSize) ≤ debt + l.rate * (later - now)

section
variable {l : RateLimiter} {now debt : Nat}

theorem mul_earned_le (l : RateLimiter) (reading : Nat) :
    nanosPerThousandth * l.earned reading ≤ l.rate * (reading - l.lastRefill) :=
  calc nanosPerThousandth * l.earned reading
      ≤ nanosPerThousandth * (l.rate * (reading - l.lastRefill) / nanosPerThousandth) :=
        Nat.mul_le_mul_left _ (Nat.mod_le ..)
    _ ≤ l.rate * (reading - l.lastRefill) := Nat.mul_div_le ..

/-- A clock that starts anew when its word is full shows no more time than goes by. -/
theorem reading_sub_le {later : Nat} (h : now ≤ later) :
    later % wordSize - now % wordSize ≤ later - now := by
  unfold wordSize
  omega

theorem Owes.later (h : l.Owes now debt) (nanos : Nat) :
    l.Owes (now + nanos) (debt + l.rate * nanos) := by
  intro later hle
  have split : later - now = nanos + (later - (now + nanos)) := by omega
  calc nanosPerThousandth * l.earned (later % wordSize)
      ≤ debt + l.rate * (later - now) := h later (by omega)
    _ = debt + l.rate * nanos + l.rate * (later - (now + nanos)) := by
        rw [split, Nat.mul_add, ← Nat.add_assoc]

/-- Right after a refill nothing is owed. -/
theorem owes_of_refilled (h : l.lastRefill = now % wordSize) : l.Owes now 0 := by
  intro later hle
  calc nanosPerThousandth * l.earned (later % wordSize)
      ≤ l.rate * (later % wordSize - l.lastRefill) := l.mul_earned_le _
    _ ≤ l.rate * (later - now) := by
        rw [h]
        exact Nat.mul_le_mul_left _ (reading_sub_le hle)
    _ = 0 + l.rate * (later - now) := (Nat.zero_add _).symm

/-- The words of two quotients: if that of the smaller is zero, the other is their difference at most. -/
theorem mod_le_sub {a b word : Nat} (hle : a ≤ b) (ha : a % word = 0) : b % word ≤ b - a := by
  obtain ⟨k, rfl⟩ := Nat.dvd_of_mod_eq_zero ha
  calc b % word = (word * k + (b - word * k)) % word := by rw [Nat.add_sub_cancel' hle]
    _ = (b - word * k) % word := Nat.mul_add_mod ..
    _ ≤ b - word * k := Nat.mod_le ..

/-- Where a refill finds nothing to add, less than a thousandth is owed. -/
theorem owes_of_earned_eq_zero (h : l.earned (now % wordSize) = 0) :
    l.Owes now nanosPerThousandth := by
  intro later hle
  have shown := reading_sub_le hle
  by_cases hback : later % wordSize < now % wordSize
  · -- The clock has started anew since, so all that it shows is later than `now`.
    have anew : later % wordSize ≤ later - now := by
      unfold wordSize at hback ⊢
      omega
    calc nanosPerThousandth * l.earned (later % wordSize)
        ≤ l.rate * (later % wordSize - l.lastRefill) := l.mul_earned_le _
      _ ≤ l.rate * (later - now) := Nat.mul_le_mul_left _ (by omega)
      _ ≤ nanosPerThousandth + l.rate * (later - now) := Nat.le_add_left ..
  · have grows : l.rate * (now % wordSize - l.lastRefill) ≤
        l.rate * (later % wordSize - l.lastRefill) := Nat.mul_le_mul_left _ (by omega)
    have gain : l.rate * (later % wordSize - l.lastRefill) ≤
        l.rate * (now % wordSize - l.lastRefill) + l.rate * (later - now) := by
      rw [← Nat.mul_add]
      exact Nat.mul_le_mul_left _ (by omega)
    have rest := Nat.div_add_mod (l.rate * (now % wordSize - l.lastRefill)) nanosPerThousandth
    have short : l.rate * (now % wordSize - l.lastRefill) % nanosPerThousandth < nanosPerThousandth :=
      Nat.mod_lt _ (by decide)
    have total := Nat.mul_div_le (l.rate * (later % wordSize - l.lastRefill)) nanosPerThousandth
    calc nanosPerThousandth * l.earned (later % wordSize)
        ≤ nanosPerThousandth * (l.rate * (later % wordSize - l.lastRefill) / nanosPerThousandth -
            l.rate * (now % wordSize - l.lastRefill) / nanosPerThousandth) :=
          Nat.mul_le_mul_left _ (mod_le_sub (Nat.div_le_div_right grows) h)
      _ ≤ nanosPerThousandth + l.rate * (later - now) := by
          rw [Nat.mul_sub]
          omega

/-! ### One call -/

theorem refill_rate (l : RateLimiter) (reading : Nat) : (l.refill reading).rate = l.rate := by
  unfold refill
  split <;> rfl

theorem refill_capacity (l : RateLimiter) (reading : Nat) :
    (l.refill reading).capacity = l.capacity := by
  unfold refill
  split <;> rfl

theorem refill_tokens_le (h : l.tokens ≤ l.capacity) (reading : Nat) :
    (l.refill reading).tokens ≤ l.capacity := by
  unfold refill
  split
  · exact h
  · exact Nat.min_le_left ..

/-- A refill adds what is owed at most, and either leaves nothing owed or has found nothing to add. -/
theorem refill_cases (l : RateLimiter) (now : Nat) :
    (l.earned (now % wordSize) = 0 ∧ l.refill (now % wordSize) = l) ∨
      ((l.refill (now % wordSize)).Owes now 0 ∧
        (l.refill (now % wordSize)).tokens ≤ l.tokens + l.earned (now % wordSize)) := by
  by_cases h : l.earned (now % wordSize) = 0
  · exact .inl ⟨h, if_pos h⟩
  · rw [refill, if_neg h]
    exact .inr ⟨owes_of_refilled rfl, (Nat.min_le_right ..).trans (Nat.min_le_right ..)⟩

/-- Besides a refill a call takes a permit or nothing. -/
theorem tryAcquire_cases (hr : l.rate ≠ 0) (reading : Nat) :
    (∃ tokens, (l.refill reading).tokens = tokens + permit ∧
        l.tryAcquire reading = (true, { l.refill reading with tokens })) ∨
      l.tryAcquire reading = (false, l.refill reading) := by
  unfold tryAcquire
  rw [if_neg hr]
  by_cases h : permit ≤ (l.refill reading).tokens
  · exact .inl ⟨_, (Nat.sub_add_cancel h).symm, if_pos h⟩
  · exact .inr (if_neg h)

/-- The permits `taken` since `start`, with what is left and what is owed, are paid for by a full bucket,
the time since then, and a thousandth. -/
def Covers (l : RateLimiter) (start taken now : Nat) : Prop :=
  ∃ debt, l.Owes now debt ∧
    nanosPerThousandth * (permit * taken + l.tokens) + debt ≤
      nanosPerThousandth * (l.capacity + 1) + l.rate * (now - start)

variable {start taken : Nat}

theorem Covers.later (h : l.Covers start taken now) (hle : start ≤ now) (nanos : Nat) :
    l.Covers start taken (now + nanos) := by
  obtain ⟨debt, howes, hpaid⟩ := h
  refine ⟨_, howes.later nanos, ?_⟩
  have split : now + nanos - start = (now - start) + nanos := by omega
  rw [split, Nat.mul_add l.rate]
  omega

theorem Covers.refill (h : l.Covers start taken now) :
    (l.refill (now % wordSize)).Covers start taken now := by
  obtain ⟨debt, howes, hpaid⟩ := h
  rcases l.refill_cases now with ⟨-, hsame⟩ | ⟨hfresh, hadded⟩
  · rw [hsame]
    exact ⟨debt, howes, hpaid⟩
  · have due := howes now (Nat.le_refl now)
    have added := Nat.mul_le_mul_left nanosPerThousandth hadded
    refine ⟨0, hfresh, ?_⟩
    rw [refill_rate, refill_capacity]
    simp only [Nat.mul_add, Nat.sub_self] at due added hpaid ⊢
    omega

/-- Before the first permit of a window a full bucket is enough. -/
theorem covers_refill (h : l.tokens ≤ l.capacity) (start now : Nat) :
    (l.refill (now % wordSize)).Covers start 0 now := by
  have full : nanosPerThousandth * (l.refill (now % wordSize)).tokens ≤
      nanosPerThousandth * l.capacity := Nat.mul_le_mul_left _ (refill_tokens_le h _)
  rcases l.refill_cases now with ⟨hnone, hsame⟩ | ⟨hfresh, -⟩
  · refine ⟨nanosPerThousandth, ?_, ?_⟩
    · rw [hsame]
      exact owes_of_earned_eq_zero hnone
    · rw [refill_capacity, Nat.mul_zero, Nat.zero_add, Nat.mul_add, Nat.mul_one]
      omega
  · refine ⟨0, hfresh, ?_⟩
    rw [refill_capacity, Nat.mul_zero, Nat.zero_add, Nat.mul_add]
    omega

theorem Covers.take {tokens : Nat} (h : l.Covers start taken now) (ht : l.tokens = tokens + permit) :
    { l with tokens }.Covers start (taken + 1) now := by
  obtain ⟨debt, howes, hpaid⟩ := h
  refine ⟨debt, howes, ?_⟩
  rw [ht] at hpaid
  have moved : permit * (taken + 1) + tokens = permit * taken + (tokens + permit) := by
    rw [Nat.mul_add]
    omega
  rw [moved]
  exact hpaid

/-- What is left and owed apart, the permits are paid for. -/
theorem Covers.paid (h : l.Covers start taken now) :
    nanosPerThousandth * (permit * taken) ≤
      nanosPerThousandth * (l.capacity + 1) + l.rate * (now - start) := by
  obtain ⟨debt, -, hpaid⟩ := h
  rw [Nat.mul_add nanosPerThousandth] at hpaid
  omega

end

/-! ### All calls -/

namespace Gate
variable {g g' : Gate} {rate capacity start stop : Nat}

/-- The bucket holds no more than it can, and the permits granted between `start` and `stop` are paid
for: as long as the window is open, together with what is left in the bucket. -/
structure Within (rate capacity start stop : Nat) (g : Gate) : Prop where
  rate_eq : g.bucket.rate = rate
  capacity_eq : g.bucket.capacity = capacity
  full : g.bucket.tokens ≤ capacity
  past : ∀ instant ∈ g.granted, instant ≤ g.now
  covered : g.now ≤ stop → g.grantedIn start stop = 0 ∨
    start ≤ g.now ∧ g.bucket.Covers start (g.grantedIn start stop) g.now
  paid : nanosPerThousandth * (permit * g.grantedIn start stop) ≤
    nanosPerThousandth * (capacity + 1) + rate * (stop - start)

theorem Within.of_bucket (h : g.Within rate capacity start stop) (hb : g'.bucket = g.bucket)
    (hn : g'.now = g.now) (hg : g'.granted = g.granted) : g'.Within rate capacity start stop := by
  have same : g'.grantedIn start stop = g.grantedIn start stop := by rw [grantedIn, hg, grantedIn]
  exact ⟨by rw [hb, h.rate_eq], by rw [hb, h.capacity_eq], by rw [hb]; exact h.full,
    by rw [hg, hn]; exact h.past, by rw [same, hb, hn]; exact h.covered, by rw [same]; exact h.paid⟩

theorem within_ofRate (rate burst start stop : Nat) :
    (ofRate rate burst).Within rate (min maxWord (max burst 1 * permit)) start stop where
  rate_eq := rfl
  capacity_eq := rfl
  full := Nat.le_refl _
  past := fun _ h => nomatch h
  covered := fun _ => .inl rfl
  paid := Nat.zero_le _

theorem Within.pass (h : g.Within rate capacity start stop) (nanos : Nat) :
    { g with now := g.now + nanos }.Within rate capacity start stop :=
  { h with
    past := fun instant hmem => (h.past instant hmem).trans (Nat.le_add_right ..)
    covered := fun hopen =>
      (h.covered ((Nat.le_add_right ..).trans hopen)).imp_right fun ⟨hle, hcovers⟩ =>
        ⟨hle.trans (Nat.le_add_right ..), hcovers.later hle nanos⟩ }

theorem grantedIn_cons (g : Gate) (start stop : Nat) (bucket : RateLimiter) :
    { g with bucket, granted := g.now :: g.granted }.grantedIn start stop =
      g.grantedIn start stop + if start < g.now ∧ g.now ≤ stop then 1 else 0 := by
  simp [grantedIn, List.countP_cons]

/-- Nothing has been granted in a window that has not begun. -/
theorem Within.grantedIn_eq_zero (h : g.Within rate capacity start stop) (hbefore : g.now ≤ start) :
    g.grantedIn start stop = 0 := by
  rw [grantedIn, List.countP_eq_zero]
  intro instant hmem
  have past := h.past instant hmem
  simp
  omega

theorem Within.refill_covers (h : g.Within rate capacity start stop) (hopen : g.now ≤ stop) :
    (g.bucket.refill g.reading).Covers start (g.grantedIn start stop) g.now := by
  rcases h.covered hopen with hnone | ⟨-, hcovers⟩
  · rw [hnone]
    exact covers_refill (by rw [h.capacity_eq]; exact h.full) start g.now
  · exact hcovers.refill

/-- A refill alone grants nothing. -/
theorem Within.refill (h : g.Within rate capacity start stop) :
    { g with bucket := g.bucket.refill g.reading }.Within rate capacity start stop where
  rate_eq := by rw [← h.rate_eq]; exact refill_rate ..
  capacity_eq := by rw [← h.capacity_eq]; exact refill_capacity ..
  full := by
    rw [← h.capacity_eq]
    exact refill_tokens_le (by rw [h.capacity_eq]; exact h.full) _
  past := h.past
  covered := fun hopen => by
    by_cases hstart : start ≤ g.now
    · exact .inr ⟨hstart, h.refill_covers hopen⟩
    · exact .inl (h.grantedIn_eq_zero (by omega))
  paid := h.paid

theorem Within.grant (h : g.Within rate capacity start stop) {tokens : Nat}
    (ht : (g.bucket.refill g.reading).tokens = tokens + permit) :
    { g with
      bucket := { g.bucket.refill g.reading with tokens }
      granted := g.now :: g.granted }.Within rate capacity start stop := by
  have refilled := h.refill
  have full : tokens ≤ capacity := by
    have := refilled.full
    simp only [ht] at this
    omega
  have past : ∀ instant ∈ g.now :: g.granted, instant ≤ g.now :=
    List.forall_mem_cons.mpr ⟨Nat.le_refl _, h.past⟩
  by_cases hin : start < g.now ∧ g.now ≤ stop
  · -- The permit is of the window, and the refilled bucket pays for it.
    have hcount := g.grantedIn_cons start stop { g.bucket.refill g.reading with tokens }
    rw [if_pos hin] at hcount
    have covers := (h.refill_covers hin.2).take ht
    have paid := covers.paid
    have longer : rate * (g.now - start) ≤ rate * (stop - start) :=
      Nat.mul_le_mul_left _ (by omega)
    refine ⟨refilled.rate_eq, refilled.capacity_eq, full, past, fun _ => .inr ⟨hin.1.le, ?_⟩, ?_⟩
    · rw [hcount]
      exact covers
    · rw [hcount]
      simp only [refill_capacity, refill_rate, h.rate_eq, h.capacity_eq] at paid
      exact paid.trans (Nat.add_le_add_left longer _)
  · have hcount := g.grantedIn_cons start stop { g.bucket.refill g.reading with tokens }
    rw [if_neg hin, Nat.add_zero] at hcount
    refine ⟨refilled.rate_eq, refilled.capacity_eq, full, past, fun hopen => .inl ?_, ?_⟩
    · rw [hcount]
      have hopen : g.now ≤ stop := hopen
      exact h.grantedIn_eq_zero (by omega)
    · rw [hcount]
      exact h.paid

theorem Within.ask (h : g.Within rate capacity start stop) (hr : rate ≠ 0) (waits : Bool) :
    (g.ask waits).Within rate capacity start stop := by
  unfold Gate.ask
  rcases tryAcquire_cases (by rw [h.rate_eq]; exact hr) g.reading with ⟨tokens, ht, hgranted⟩ | hrefused
  · rw [hgranted]
    exact h.grant ht
  · rw [hrefused]
    exact h.refill.of_bucket rfl rfl rfl

theorem Within.step? (h : g.Within rate capacity start stop) (hr : rate ≠ 0) {a : Action}
    (hs : g.step? a = some g') : g'.Within rate capacity start stop := by
  cases a with
  | pass nanos =>
    cases hs
    exact h.pass nanos
  | tryAcquire =>
    cases hs
    exact h.ask hr false
  | untilReady isCancelled =>
    cases hs
    cases isCancelled with
    | true => exact h
    | false => exact h.ask hr true
  | wake index =>
    have awake : { g with sleepers := g.sleepers.eraseIdx index }.Within rate capacity start stop :=
      h.of_bucket rfl rfl rfl
    simp only [Gate.step?] at hs
    split at hs
    · split at hs
      · cases hs
        exact awake.ask hr true
      · cases hs
    · cases hs
  | cancel index =>
    simp only [Gate.step?] at hs
    split at hs
    · cases hs
      exact h.of_bucket rfl rfl rfl
    · cases hs

theorem Within.run? (h : g.Within rate capacity start stop) (hr : rate ≠ 0) {actions : List Action}
    (hrun : g.run? actions = some g') : g'.Within rate capacity start stop := by
  induction actions generalizing g with
  | nil =>
    cases hrun
    exact h
  | cons a rest ih =>
    obtain ⟨g₁, hstep, hrest⟩ := Option.bind_eq_some_iff.mp hrun
    exact ih (h.step? hr hstep) hrest

/-- Whatever calls share a bucket, the permits granted in a window are no more than a full bucket and what
the rate earns in the window, but for a thousandth; and the bucket never holds more than it can. -/
theorem permits_in_window (rate burst : Nat) (hr : 1 ≤ rate) {actions : List Action} {g : Gate}
    (hrun : (ofRate rate burst).run? actions = some g) {start stop : Nat} (h : start ≤ stop) :
    let capacity := min (2 ^ 64 - 1) (max 1 burst * 1000)
    (1000 * g.grantedIn start stop : ℚ) ≤ capacity + rate * (stop - start) / 10 ^ 6 + 1 ∧
      g.bucket.tokens ≤ capacity := by
  intro capacity
  have within : g.Within rate capacity start stop := by
    have within := (within_ofRate rate burst start stop).run? (by omega) hrun
    rwa [Nat.max_comm] at within
  have paid : ((1000000 * (1000 * g.grantedIn start stop) : Nat) : ℚ) ≤
      ((1000000 * (capacity + 1) + rate * (stop - start) : Nat) : ℚ) :=
    Nat.cast_le.mpr within.paid
  push_cast [Nat.cast_sub h] at paid
  exact ⟨by linarith, within.full⟩

/-- Two calls wait for a permit of five in a second, and a third one tries in between. -/
theorem permits_in_window_twoWaiting :
    let actions : List Action :=
      [.tryAcquire, .untilReady false, .untilReady false, .pass 100000000, .wake 0, .wake 0,
        .pass 100000000, .tryAcquire, .wake 0, .cancel 0]
    ∃ g, (ofRate 5 1).run? actions = some g ∧ 1 ≤ 5 ∧ g.granted = [200000000, 0] ∧
      (1000 * g.grantedIn 0 200000000 : ℚ) ≤ 1000 + 5 * 200000000 / 10 ^ 6 + 1 := by
  intro actions
  have runs : ((ofRate 5 1).run? actions).isSome = true := by decide +kernel
  obtain ⟨g, hrun⟩ := Option.isSome_iff_exists.mp runs
  have granted : ((ofRate 5 1).run? actions).map granted = some [200000000, 0] := by decide +kernel
  rw [hrun] at granted
  have bound := (permits_in_window 5 1 (by decide) hrun (Nat.zero_le 200000000)).1
  exact ⟨g, hrun, by decide, Option.some.inj granted, by norm_num at bound ⊢; exact bound⟩

end Gate

/-! ### A call that is left alone -/

/-- A turn of a waiting call: it is cancelled, it gets a permit, or it sleeps and is cancelled
meanwhile or goes on. -/
theorem waitFrom_cases (cancelAt : Option Nat) (fuel : Nat) (l : RateLimiter) (now : Nat) :
    waitFrom cancelAt (fuel + 1) l now = (.cancelled now, l) ∧ isCancelledBy cancelAt now = true ∨
      (∃ l', l.tryAcquire (now % wordSize) = (true, l') ∧
        waitFrom cancelAt (fuel + 1) l now = (.granted now, l')) ∨
      ∃ l', l.tryAcquire (now % wordSize) = (false, l') ∧
        ((∃ instant, now ≤ instant ∧
            waitFrom cancelAt (fuel + 1) l now = (.cancelled instant, l')) ∨
          isCancelledBy cancelAt (now + l'.waitMillis * nanosPerMilli) = false ∧
            waitFrom cancelAt (fuel + 1) l now =
              waitFrom cancelAt fuel l' (now + l'.waitMillis * nanosPerMilli)) := by
  rw [waitFrom]
  cases hc : isCancelledBy cancelAt now with
  | true => exact .inl ⟨rfl, rfl⟩
  | false =>
    refine .inr ?_
    rcases hr : l.tryAcquire (now % wordSize) with ⟨success, l'⟩
    cases success with
    | true => exact .inl ⟨l', rfl, rfl⟩
    | false =>
      refine .inr ⟨l', rfl, ?_⟩
      cases cancelAt with
      | none => exact .inr ⟨rfl, rfl⟩
      | some instant =>
        have later : now < instant := by simpa [isCancelledBy] using hc
        by_cases hnext : instant ≤ now + l'.waitMillis * nanosPerMilli
        · exact .inl ⟨instant, later.le, by simp [hnext]⟩
        · exact .inr ⟨by simpa [isCancelledBy] using hnext, by simp [hnext]⟩

/-- The instant at which a wait ends. -/
def Wait.instant? : Wait → Option Nat
  | .granted instant | .cancelled instant => some instant
  | .starved => none

theorem le_instant_waitFrom {cancelAt : Option Nat} {fuel : Nat} {l : RateLimiter} {now instant : Nat}
    (h : (waitFrom cancelAt fuel l now).1.instant? = some instant) : now ≤ instant := by
  induction fuel generalizing l now with
  | zero => cases h
  | succ fuel ih =>
    rcases waitFrom_cases cancelAt fuel l now with ⟨hw, -⟩ | ⟨l', -, hw⟩ | ⟨l', -, ⟨t, hle, hw⟩ | ⟨-, hw⟩⟩
    · rw [hw] at h
      exact (Option.some.inj h).le
    · rw [hw] at h
      exact (Option.some.inj h).le
    · rw [hw] at h
      exact hle.trans (Option.some.inj h).le
    · rw [hw] at h
      exact (Nat.le_add_right ..).trans (ih h)

namespace Gate

/-- The gate after a call that has waited alone up to an instant. -/
def waited (g : Gate) (instant : Nat) (result : Wait × RateLimiter) : Gate :=
  { g with
    bucket := result.2
    now := instant
    granted := if result.1 = .granted instant then instant :: g.granted else g.granted }

variable {g : Gate} {bucket : RateLimiter}

theorem ask_of_granted (h : g.bucket.tryAcquire g.reading = (true, bucket)) (waits : Bool) :
    g.ask waits = { g with bucket, granted := g.now :: g.granted } := by
  rw [ask, h]

theorem ask_of_refused (h : g.bucket.tryAcquire g.reading = (false, bucket)) :
    g.ask true =
      { g with bucket, sleepers := g.sleepers ++ [g.now + bucket.waitMillis * nanosPerMilli] } := by
  rw [ask, h]
  rfl

/-- The call that came last sleeps and wakes. -/
theorem run?_wake (g : Gate) (bucket : RateLimiter) {wakeAt : Nat} (h : g.now ≤ wakeAt)
    (actions : List Action) :
    { g with bucket, sleepers := g.sleepers ++ [wakeAt] }.run?
        (.pass (wakeAt - g.now) :: .wake g.sleepers.length :: actions) =
      ({ g with bucket, now := wakeAt }.ask true).run? actions := by
  simp [run?, step?, Nat.add_sub_cancel' h, List.eraseIdx_append_of_length_le]

/-- The call that came last sleeps and is cancelled. -/
theorem run?_cancel (g : Gate) (bucket : RateLimiter) (wakeAt : Nat) {instant : Nat}
    (h : g.now ≤ instant) :
    { g with bucket, sleepers := g.sleepers ++ [wakeAt] }.run?
        [.pass (instant - g.now), .cancel g.sleepers.length] =
      some { g with bucket, now := instant } := by
  simp [run?, step?, Nat.add_sub_cancel' h, List.eraseIdx_append_of_length_le]

theorem exists_course_waitFrom {cancelAt : Option Nat} {fuel instant : Nat}
    (hc : isCancelledBy cancelAt g.now = false)
    (hends : (waitFrom cancelAt fuel g.bucket g.now).1.instant? = some instant) :
    ∃ actions, (g.ask true).run? actions =
      some (g.waited instant (waitFrom cancelAt fuel g.bucket g.now)) := by
  induction fuel generalizing g with
  | zero => cases hends
  | succ fuel ih =>
    rcases waitFrom_cases cancelAt fuel g.bucket g.now with
      ⟨-, hnow⟩ | ⟨l', hask, hw⟩ | ⟨l', hask, ⟨t, hle, hw⟩ | ⟨hgo, hw⟩⟩
    · rw [hc] at hnow
      cases hnow
    · rw [hw] at hends ⊢
      cases hends
      rw [ask_of_granted hask]
      exact ⟨[], by simp [run?, waited]⟩
    · rw [hw] at hends ⊢
      cases hends
      rw [ask_of_refused hask]
      exact ⟨_, (g.run?_cancel l' _ hle).trans (by simp [waited])⟩
    · rw [hw] at hends ⊢
      rw [ask_of_refused hask]
      obtain ⟨actions, hrun⟩ :=
        ih (g := { g with bucket := l', now := g.now + l'.waitMillis * nanosPerMilli }) hgo hends
      exact ⟨_, (g.run?_wake l' (Nat.le_add_right ..) actions).trans hrun⟩

/-- What `untilReady` does is a course of the gate in which no other call comes between. -/
theorem exists_course_untilReady {cancelAt : Option Nat} {instant : Nat}
    (hends : (g.bucket.untilReady g.now cancelAt).1.instant? = some instant) :
    ∃ actions, g.run? actions = some (g.waited instant (g.bucket.untilReady g.now cancelAt)) := by
  cases hc : isCancelledBy cancelAt g.now with
  | true =>
    have ends : g.bucket.untilReady g.now cancelAt = (.cancelled g.now, g.bucket) := by
      rw [untilReady, waitFrom, hc]
      rfl
    rw [ends] at hends ⊢
    cases hends
    exact ⟨[.untilReady true], by simp [run?, step?, waited]⟩
  | false =>
    obtain ⟨actions, hrun⟩ := exists_course_waitFrom hc hends
    exact ⟨.untilReady false :: actions, hrun⟩

end Gate
end Longbox.RateLimiter
