import Longbox.Number.Binary
import Mathlib.Algebra.Order.Field.Power
import Mathlib.Data.Int.Log
import Mathlib.Data.Rat.Floor
import Mathlib.Tactic.Linarith

/-! Rounding keeps the order of numbers.

A quotient that is no greater than another is no greater when both are rounded
(`BinaryFormat.value_round_mono`). So a part of a total is at most a hundred out of a hundred, though
each step of the calculation is rounded (`Single.value_percent_le`). -/
namespace Longbox

/-- The number that a magnitude stands for. -/
def Magnitude.value : Magnitude → WithTop ℚ
  | .finite m e => ((m * 2 ^ e : ℚ) : WithTop ℚ)
  | .infinite => ⊤

theorem Magnitude.value_nonneg (a : Magnitude) : 0 ≤ a.value := by
  cases a with
  | finite m e =>
    have number : (0 : ℚ) ≤ m * 2 ^ e := by positivity
    exact WithTop.coe_le_coe.mpr number
  | infinite => exact le_top

namespace BinaryFormat

theorem value_zero (f : BinaryFormat) : f.zero.value = 0 := by
  simp [zero, Magnitude.value]

/-! ### Quotients to the nearest natural -/

section
variable {n d n' d' : Nat}

theorem div_le_roundQuotient (n d : Nat) : n / d ≤ roundQuotient n d := by
  unfold roundQuotient
  dsimp only
  repeat' split
  all_goals omega

theorem roundQuotient_le (n d : Nat) : roundQuotient n d ≤ n / d + 1 := by
  unfold roundQuotient
  dsimp only
  repeat' split
  all_goals omega

/-- The greater quotient is greater without its remainder, or it is the same without and the remainder
is not smaller in its proportion to the divisor. -/
theorem div_cases (hd : 0 < d) (hd' : 0 < d') (h : n * d' ≤ n' * d) :
    n / d < n' / d' ∨ n / d = n' / d' ∧ n % d * d' ≤ n' % d' * d := by
  have le : n / d ≤ n' / d' := by
    rw [Nat.le_div_iff_mul_le hd']
    refine Nat.le_of_mul_le_mul_right ?_ hd
    calc n / d * d' * d = n / d * d * d' := Nat.mul_right_comm ..
      _ ≤ n * d' := Nat.mul_le_mul_right d' (Nat.div_mul_le_self n d)
      _ ≤ n' * d := h
  refine (Nat.lt_or_eq_of_le le).imp_right fun heq => ⟨heq, ?_⟩
  have whole : d * (n' / d') + n % d = n := heq ▸ Nat.div_add_mod n d
  have whole' : d' * (n' / d') + n' % d' = n' := Nat.div_add_mod n' d'
  nlinarith

theorem roundQuotient_mono (hd : 0 < d) (hd' : 0 < d') (h : n * d' ≤ n' * d) :
    roundQuotient n d ≤ roundQuotient n' d' := by
  rcases div_cases hd hd' h with hlt | ⟨heq, hrem⟩
  · calc roundQuotient n d ≤ n / d + 1 := roundQuotient_le n d
      _ ≤ n' / d' := hlt
      _ ≤ roundQuotient n' d' := div_le_roundQuotient n' d'
  · -- With the same quotient, it is the remainders that are compared with half of the divisors.
    have up : d < 2 * (n % d) → d' < 2 * (n' % d') := fun hup => by nlinarith
    have half : d ≤ 2 * (n % d) → d' ≤ 2 * (n' % d') := fun hhalf => by nlinarith
    unfold roundQuotient
    rw [heq]
    dsimp only
    repeat' split
    all_goals omega

end

/-! ### Exponents -/

section
variable {num den : Nat}

theorem scale_pos (num : Nat) (hd : 0 < den) (e : Int) : 0 < (scale num den e).2 := by
  unfold scale
  split
  · exact Nat.mul_pos hd (Nat.two_pow_pos _)
  · exact hd

theorem scale_eq (num den : Nat) (e : Int) :
    ((scale num den e).1 : ℚ) / (scale num den e).2 = num / den / 2 ^ e := by
  unfold scale
  split
  · rename_i he
    obtain ⟨k, rfl⟩ := Int.eq_ofNat_of_zero_le he
    simp [div_div]
  · rename_i he
    obtain ⟨k, rfl⟩ := Int.exists_eq_neg_ofNat (le_of_not_ge he)
    simp [mul_div_right_comm]

/-- A power of two is reached when the numbers over it reach each other. -/
theorem scale_le_iff (num : Nat) (hd : 0 < den) (k : Nat) (e : Int) :
    k * (scale num den e).2 ≤ (scale num den e).1 ↔ (k * 2 ^ e : ℚ) ≤ num / den := by
  have scaled : (0 : ℚ) < (scale num den e).2 := by exact_mod_cast scale_pos num hd e
  have power : (0 : ℚ) < 2 ^ e := zpow_pos two_pos e
  rw [← le_div_iff₀ power, ← scale_eq, le_div_iff₀ scaled]
  exact_mod_cast Iff.rfl

/-- It is the exponent of the quotient. -/
theorem floorLog_eq (hn : 0 < num) (hd : 0 < den) :
    floorLog num den = Int.log 2 (num / den : ℚ) := by
  have hn' : (0 : ℚ) < num := by exact_mod_cast hn
  have hd' : (0 : ℚ) < den := by exact_mod_cast hd
  have pos : (0 : ℚ) < num / den := div_pos hn' hd'
  have le_log (e : Int) : e ≤ Int.log 2 (num / den : ℚ) ↔ (2 : ℚ) ^ e ≤ num / den := by
    exact_mod_cast (Int.zpow_le_iff_le_log (by decide : 1 < 2) pos).symm
  have reached (e : Int) : (scale num den e).2 ≤ (scale num den e).1 ↔
      e ≤ Int.log 2 (num / den : ℚ) := by
    rw [le_log]
    simpa using scale_le_iff num hd 1 e
  have low : (num.log2 : Int) - den.log2 - 1 ≤ Int.log 2 (num / den : ℚ) := by
    rw [le_log]
    calc (2 : ℚ) ^ ((num.log2 : Int) - den.log2 - 1) = 2 ^ num.log2 / 2 ^ (den.log2 + 1) := by
          rw [sub_sub, zpow_sub₀ two_ne_zero]
          norm_cast
      _ ≤ num / den := div_le_div₀ hn'.le (by exact_mod_cast Nat.log2_self_le hn.ne') hd'
          (by exact_mod_cast Nat.lt_log2_self.le)
  have high : Int.log 2 (num / den : ℚ) < (num.log2 : Int) - den.log2 + 1 := by
    rw [← Int.lt_zpow_iff_log_lt (by decide) pos]
    calc (num / den : ℚ) < 2 ^ (num.log2 + 1) / 2 ^ den.log2 :=
          div_lt_div₀ (by exact_mod_cast Nat.lt_log2_self) (by exact_mod_cast Nat.log2_self_le hd.ne')
            (by positivity) (by positivity)
      _ = ((2 : Nat) : ℚ) ^ ((num.log2 : Int) - den.log2 + 1) := by
          rw [sub_add_eq_add_sub, Nat.cast_ofNat, zpow_sub₀ two_ne_zero]
          norm_cast
  unfold floorLog
  dsimp only
  split
  · rename_i h
    have := (reached _).mp h
    omega
  · rename_i h
    have := mt (reached _).mpr h
    omega

/-! ### Numbers of a format -/

variable (f : BinaryFormat)

/-- The exponent of a rounded quotient, but for a carry. -/
def exponent (num den : Nat) : Int :=
  max f.minExponent (floorLog num den - (f.precision - 1))

def mantissa (num den : Nat) : Nat :=
  roundQuotient (scale num den (f.exponent num den)).1 (scale num den (f.exponent num den)).2

/-- The number with a mantissa, which may be one too great, and an exponent. -/
def carry (m : Nat) (e : Int) : Magnitude :=
  let (m, e) := if m = 2 ^ f.precision then (2 ^ (f.precision - 1), e + 1) else (m, e)
  if f.maxExponent < e then .infinite else .finite m e

variable {f}

theorem round_eq (hn : num ≠ 0) :
    f.round num den = f.carry (f.mantissa num den) (f.exponent num den) := by
  unfold round
  rw [if_neg hn]
  rfl

theorem value_carry (hf : 0 < f.precision) (m : Nat) (e : Int) : (f.carry m e).value =
    if f.maxExponent < (if m = 2 ^ f.precision then e + 1 else e) then ⊤
    else ((m * 2 ^ e : ℚ) : WithTop ℚ) := by
  obtain ⟨p, hp⟩ : ∃ p, f.precision = p + 1 := ⟨f.precision - 1, by omega⟩
  unfold carry
  by_cases hm : m = 2 ^ f.precision
  · have carried : (m * 2 ^ e : ℚ) = (2 ^ (f.precision - 1) : Nat) * 2 ^ (e + 1) := by
      rw [hm, hp, Nat.add_sub_cancel, zpow_add_one₀ two_ne_zero]
      push_cast
      ring
    rw [if_pos hm, if_pos hm, carried]
    dsimp only
    split <;> rfl
  · rw [if_neg hm, if_neg hm]
    dsimp only
    split <;> rfl

/-- A greater mantissa, or a greater exponent with all the bits of the mantissa, is a greater number. -/
theorem value_carry_mono (hf : 0 < f.precision) {m m' : Nat} {e e' : Int} (hm : m ≤ 2 ^ f.precision)
    (h : e = e' ∧ m ≤ m' ∧ m' ≤ 2 ^ f.precision ∨ e < e' ∧ 2 ^ (f.precision - 1) ≤ m') :
    (f.carry m e).value ≤ (f.carry m' e').value := by
  have values : (m * 2 ^ e : ℚ) ≤ m' * 2 ^ e' := by
    rcases h with ⟨rfl, hle, -⟩ | ⟨hlt, hfull⟩
    · gcongr
    · calc (m * 2 ^ e : ℚ) ≤ (2 ^ f.precision : Nat) * 2 ^ e := by gcongr
        _ = (2 ^ (f.precision - 1) : Nat) * 2 ^ (e + 1) := by
            obtain ⟨p, hp⟩ : ∃ p, f.precision = p + 1 := ⟨f.precision - 1, by omega⟩
            rw [hp, Nat.add_sub_cancel, zpow_add_one₀ two_ne_zero]
            push_cast
            ring
        _ ≤ m' * 2 ^ e' := by
            gcongr
            · exact one_le_two
            · exact hlt
  have exponents : (if m = 2 ^ f.precision then e + 1 else e) ≤
      if m' = 2 ^ f.precision then e' + 1 else e' := by
    split <;> split <;> omega
  rw [value_carry hf, value_carry hf]
  by_cases hmax : f.maxExponent < if m' = 2 ^ f.precision then e' + 1 else e'
  · rw [if_pos hmax]
    exact le_top
  · rw [if_neg hmax, if_neg (fun h => hmax (lt_of_lt_of_le h exponents))]
    exact WithTop.coe_le_coe.mpr values

theorem zpow_floorLog_le (hn : 0 < num) (hd : 0 < den) :
    (2 : ℚ) ^ floorLog num den ≤ num / den := by
  have pos : (0 : ℚ) < num / den := div_pos (Nat.cast_pos.mpr hn) (Nat.cast_pos.mpr hd)
  rw [floorLog_eq hn hd]
  exact_mod_cast Int.zpow_log_le_self (by decide : 1 < 2) pos

theorem lt_zpow_floorLog (hn : 0 < num) (hd : 0 < den) :
    (num / den : ℚ) < 2 ^ (floorLog num den + 1) := by
  rw [floorLog_eq hn hd]
  exact_mod_cast Int.lt_zpow_succ_log_self (by decide) (num / den : ℚ)

/-- A mantissa has no more than the bits of the format, but for a carry. -/
theorem mantissa_le (f : BinaryFormat) (hn : 0 < num) (hd : 0 < den) :
    f.mantissa num den ≤ 2 ^ f.precision := by
  have above : ¬ 2 ^ f.precision * (scale num den (f.exponent num den)).2 ≤
      (scale num den (f.exponent num den)).1 := by
    rw [scale_le_iff num hd, not_le]
    calc (num / den : ℚ) < 2 ^ (floorLog num den + 1) := lt_zpow_floorLog hn hd
      _ ≤ 2 ^ (f.precision + f.exponent num den) := by
          refine zpow_le_zpow_right₀ one_le_two ?_
          unfold exponent
          omega
      _ = (2 ^ f.precision : Nat) * 2 ^ f.exponent num den := by
          rw [zpow_add₀ two_ne_zero]
          norm_cast
  have below := (Nat.div_lt_iff_lt_mul (scale_pos num hd _)).mpr (Nat.lt_of_not_le above)
  exact Nat.le_trans (roundQuotient_le ..) below

/-- A mantissa has all the bits of the format unless the exponent is the least. -/
theorem le_mantissa (hf : 0 < f.precision) (hn : 0 < num) (hd : 0 < den)
    (he : f.minExponent < f.exponent num den) : 2 ^ (f.precision - 1) ≤ f.mantissa num den := by
  have reached : 2 ^ (f.precision - 1) * (scale num den (f.exponent num den)).2 ≤
      (scale num den (f.exponent num den)).1 := by
    rw [scale_le_iff num hd]
    calc ((2 ^ (f.precision - 1) : Nat) * 2 ^ f.exponent num den : ℚ)
        = 2 ^ (((f.precision - 1 : Nat) : Int) + f.exponent num den) := by
          rw [zpow_add₀ two_ne_zero]
          norm_cast
      _ = 2 ^ floorLog num den := by
          congr 1
          unfold exponent at he ⊢
          omega
      _ ≤ num / den := zpow_floorLog_le hn hd
  exact Nat.le_trans ((Nat.le_div_iff_mul_le (scale_pos num hd _)).mpr reached)
    (div_le_roundQuotient ..)

variable {num' den' : Nat}

/-- A quotient that is no greater is no greater when both are rounded. -/
theorem value_round_mono (hf : 0 < f.precision) (hd : 0 < den) (hd' : 0 < den')
    (h : num * den' ≤ num' * den) : (f.round num den).value ≤ (f.round num' den').value := by
  rcases Nat.eq_zero_or_pos num with rfl | hn
  · have zero : f.round 0 den = f.zero := rfl
    rw [zero, value_zero]
    exact Magnitude.value_nonneg _
  have hn' : 0 < num' := Nat.pos_of_ne_zero fun h0 => by
    rw [h0, Nat.zero_mul] at h
    exact absurd (Nat.mul_pos hn hd') (Nat.not_lt.mpr h)
  have le : (num / den : ℚ) ≤ num' / den' := by
    rw [div_le_div_iff₀ (Nat.cast_pos.mpr hd) (Nat.cast_pos.mpr hd')]
    exact_mod_cast h
  have exponents : f.exponent num den ≤ f.exponent num' den' := by
    have logs : floorLog num den ≤ floorLog num' den' := by
      rw [floorLog_eq hn hd, floorLog_eq hn' hd']
      exact Int.log_mono_right (div_pos (Nat.cast_pos.mpr hn) (Nat.cast_pos.mpr hd)) le
    unfold exponent
    omega
  rw [round_eq hn.ne', round_eq hn'.ne']
  refine value_carry_mono hf (mantissa_le f hn hd) ?_
  rcases lt_or_eq_of_le exponents with hlt | heq
  · refine .inr ⟨hlt, le_mantissa hf hn' hd' (lt_of_le_of_lt ?_ hlt)⟩
    exact le_max_left ..
  · have pos := scale_pos num hd (f.exponent num den)
    have pos' := scale_pos num' hd' (f.exponent num' den')
    refine .inl ⟨heq, roundQuotient_mono pos pos' ?_, mantissa_le f hn' hd'⟩
    have scaled : ((scale num den (f.exponent num den)).1 : ℚ) /
          (scale num den (f.exponent num den)).2 ≤
        (scale num' den' (f.exponent num' den')).1 / (scale num' den' (f.exponent num' den')).2 := by
      rw [scale_eq, scale_eq, ← heq]
      gcongr
    rw [div_le_div_iff₀ (Nat.cast_pos.mpr pos) (Nat.cast_pos.mpr pos')] at scaled
    exact_mod_cast scaled

end

/-! ### Calculations -/

theorem exists_ratio {a : Magnitude} (ha : a ≠ .infinite) :
    ∃ num den, ratio? a = some (num, den) ∧ 0 < den ∧ a.value = ((num / den : ℚ) : WithTop ℚ) := by
  cases a with
  | infinite => exact absurd rfl ha
  | finite m e =>
    unfold ratio?
    dsimp only
    split
    · rename_i he
      obtain ⟨k, rfl⟩ := Int.eq_ofNat_of_zero_le he
      exact ⟨_, _, rfl, Nat.one_pos, by simp [Magnitude.value]⟩
    · rename_i he
      obtain ⟨k, rfl⟩ := Int.exists_eq_neg_ofNat (le_of_not_ge he)
      exact ⟨_, _, rfl, Nat.two_pow_pos _, by simp [Magnitude.value, div_eq_mul_inv]⟩

theorem ne_infinite_of_value_le {a b : Magnitude} (h : a.value ≤ b.value) (hb : b ≠ .infinite) :
    a ≠ .infinite := by
  rintro rfl
  cases b with
  | infinite => exact hb rfl
  | finite m e => exact absurd h (not_le.mpr (WithTop.coe_lt_top _))

variable {f : BinaryFormat}

/-- A quotient by a number that is no smaller is at most one. -/
theorem value_div_le (hf : 0 < f.precision) {a b : Magnitude} (h : a.value ≤ b.value)
    (hpos : 0 < b.value) (hb : b ≠ .infinite) : (f.div a b).value ≤ (f.round 1 1).value := by
  obtain ⟨n, d, ha, hd, hvalue⟩ := exists_ratio (ne_infinite_of_value_le h hb)
  obtain ⟨n', d', hb, hd', hvalue'⟩ := exists_ratio hb
  have hn' : 0 < n' := by
    rw [hvalue'] at hpos
    have pos : (0 : ℚ) < n' / d' := WithTop.coe_lt_coe.mp hpos
    exact Nat.pos_of_ne_zero fun h0 => by simp [h0] at pos
  rw [hvalue, hvalue', WithTop.coe_le_coe,
    div_le_div_iff₀ (Nat.cast_pos.mpr hd) (Nat.cast_pos.mpr hd')] at h
  have cross : n * d' ≤ n' * d := by exact_mod_cast h
  unfold div
  rw [ha, hb]
  refine value_round_mono hf (Nat.mul_pos hd hn') Nat.one_pos ?_
  rw [Nat.mul_one, Nat.one_mul, Nat.mul_comm d]
  exact cross

/-- A number that is at most one does not make another greater. -/
theorem value_mul_le (hf : 0 < f.precision) {a b : Magnitude} {n d : Nat}
    (h : a.value ≤ 1) (hb : ratio? b = some (n, d)) (hd : 0 < d) :
    (f.mul a b).value ≤ (f.round n d).value := by
  have finite : a ≠ .infinite := by
    rintro rfl
    exact absurd h (not_le.mpr (WithTop.coe_lt_top (1 : ℚ)))
  obtain ⟨n', d', ha, hd', hvalue⟩ := exists_ratio finite
  rw [hvalue, WithTop.coe_le_one, div_le_one (Nat.cast_pos.mpr hd')] at h
  have le : n' ≤ d' := by exact_mod_cast h
  unfold mul
  rw [ha, hb]
  refine value_round_mono hf (Nat.mul_pos hd' hd) hd ?_
  calc n' * n * d ≤ d' * n * d := by gcongr
    _ = n * (d' * d) := by ring

end BinaryFormat

/-- A part of a total is at most a hundred out of a hundred. -/
theorem Single.value_percent_le {done total : Nat} (h : done ≤ total) (ht : total < 2 ^ 64) :
    (percent done total).magnitude.value ≤ 100 := by
  have hf : 0 < BinaryFormat.single.precision := by decide
  have ofNat_mono {m n : Nat} (hmn : m ≤ n) :
      (BinaryFormat.single.ofNat m).value ≤ (BinaryFormat.single.ofNat n).value :=
    BinaryFormat.value_round_mono hf Nat.one_pos Nat.one_pos (by omega)
  have one : (BinaryFormat.single.round 1 1).value = 1 := by
    have rounded : BinaryFormat.single.round 1 1 = .finite 8388608 (-23) := by decide
    rw [rounded, Magnitude.value, WithTop.coe_eq_one]
    norm_num
  have hundred : (BinaryFormat.single.round 13107200 131072).value = 100 := by
    have rounded : BinaryFormat.single.round 13107200 131072 = .finite 13107200 (-17) := by decide
    have number : (13107200 * 2 ^ (-17 : Int) : ℚ) = 100 := by norm_num
    rw [rounded]
    exact congrArg WithTop.some number
  rcases Nat.eq_zero_or_pos total with rfl | hpos
  · rw [show (percent done 0).magnitude = BinaryFormat.single.zero from rfl,
      BinaryFormat.value_zero]
    exact WithTop.coe_le_coe.mpr (by norm_num : (0 : ℚ) ≤ 100)
  have finite : BinaryFormat.single.ofNat total ≠ .infinite :=
    BinaryFormat.ne_infinite_of_value_le (ofNat_mono ht.le) (by decide)
  have positive : 0 < (BinaryFormat.single.ofNat total).value :=
    lt_of_lt_of_le (one ▸ zero_lt_one) (ofNat_mono hpos)
  unfold percent
  dsimp only
  rw [if_neg hpos.ne']
  have divided := BinaryFormat.value_div_le hf (ofNat_mono h) positive finite
  rw [one] at divided
  rw [← hundred]
  exact BinaryFormat.value_mul_le hf divided (by decide) (by decide)

end Longbox
