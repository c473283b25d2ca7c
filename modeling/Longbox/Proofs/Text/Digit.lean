import Longbox.Text.Digit

/-! Digits and numbers, to and fro.

A number is read back from its digits, and digits without a zero in front are those of the number that
they write. -/
namespace Longbox.Text

theorem natOfDigits_toDigits (n : Nat) : natOfDigits (Nat.toDigits 10 n) = n := by
  have h := Nat.ofDigitChars_ten_toDigits (n := n)
  unfold Nat.ofDigitChars at h
  simpa [natOfDigits, digitValue, Nat.mul_comm] using h

variable {c : Char} {cs : List Char}

theorem digitValue_lt (h : c.isDigit = true) : digitValue c < 10 := by
  obtain ⟨hlow, hhigh⟩ := Char.isDigit_iff_toNat.mp h
  change 48 ≤ c.toNat at hlow
  change c.toNat ≤ 57 at hhigh
  unfold digitValue
  omega

theorem digitChar_digitValue (h : c.isDigit = true) : (digitValue c).digitChar = c := by
  have hlow : 48 ≤ c.toNat := (Char.isDigit_iff_toNat.mp h).1
  apply Char.toNat_inj.mp
  rw [Nat.toNat_digitChar_of_lt_ten (digitValue_lt h), digitValue]
  omega

theorem digitValue_pos (h : c.isDigit = true) (hz : c ≠ '0') : 0 < digitValue c := by
  refine Nat.pos_of_ne_zero fun h0 => hz ?_
  rw [← digitChar_digitValue h, h0]
  rfl

/-- Behind the digits of a number other than zero, further digits write on. -/
theorem toDigits_foldl {n : Nat} (hn : 0 < n) (hd : ∀ c ∈ cs, c.isDigit = true) :
    Nat.toDigits 10 (cs.foldl (fun n c => n * 10 + digitValue c) n) = Nat.toDigits 10 n ++ cs := by
  induction cs generalizing n with
  | nil => exact (List.append_nil _).symm
  | cons c cs ih =>
    obtain ⟨hc, hcs⟩ := List.forall_mem_cons.mp hd
    have next : Nat.toDigits 10 (n * 10 + digitValue c) = Nat.toDigits 10 n ++ [c] := by
      rw [Nat.mul_comm, ← Nat.toDigits_append_toDigits (by decide) hn (digitValue_lt hc),
        Nat.toDigits_of_lt_base (digitValue_lt hc), digitChar_digitValue hc]
    rw [List.foldl_cons, ih (by omega) hcs, next, List.append_assoc, List.singleton_append]

/-- Digits with no zero in front are those of their number. -/
theorem toDigits_natOfDigits_cons (hd : ∀ b ∈ c :: cs, b.isDigit = true) (hz : c ≠ '0') :
    Nat.toDigits 10 (natOfDigits (c :: cs)) = c :: cs := by
  obtain ⟨hc, hcs⟩ := List.forall_mem_cons.mp hd
  unfold natOfDigits
  rw [List.foldl_cons, Nat.zero_mul, Nat.zero_add, toDigits_foldl (digitValue_pos hc hz) hcs,
    Nat.toDigits_of_lt_base (digitValue_lt hc), digitChar_digitValue hc, List.singleton_append]

theorem natOfDigits_zero_cons (cs : List Char) : natOfDigits ('0' :: cs) = natOfDigits cs := rfl

end Longbox.Text
