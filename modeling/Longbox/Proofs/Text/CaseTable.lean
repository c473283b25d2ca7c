import Longbox.Text.Alphanumeric
import Longbox.Text.Lowercase

/-! What the case table says of letters.

Every character but the capital I with a dot has one small letter, which is its own small letter and is
alphanumeric just if the character is (`exists_small`). The tables are compared run by run and not
character by character: one range of alphanumeric characters holds the capitals of a run, another their
small letters, and the small letters of a run meet no capitals or lie between them. -/
namespace Longbox.Text

/-- One range of the table holds all code points from `first` to `last`. -/
def isSpanned (first last : Nat) : Bool :=
  alphanumericRanges.any fun r => last.ble r.2 && r.1.ble first

variable {first last n : Nat} {c d : Char}

theorem exists_range (h : isSpanned first last = true) :
    ∃ r ∈ alphanumericRanges, r.1 ≤ first ∧ last ≤ r.2 := by
  obtain ⟨r, hr, hspan⟩ := List.any_eq_true.mp h
  rw [Bool.and_eq_true] at hspan
  exact ⟨r, hr, Nat.le_of_ble_eq_true hspan.2, Nat.le_of_ble_eq_true hspan.1⟩

theorem isAlphanumeric_of_isSpanned (h : isSpanned first last = true) (hf : first ≤ c.toNat)
    (hl : c.toNat ≤ last) : isAlphanumeric c = true := by
  obtain ⟨r, hr, hfirst, hlast⟩ := exists_range h
  refine List.any_eq_true.mpr ⟨r, hr, ?_⟩
  rw [Bool.and_eq_true, decide_eq_true_iff, decide_eq_true_iff]
  exact ⟨Nat.le_trans hfirst hf, Nat.le_trans hl hlast⟩

/-- The ranges are of characters: none of them holds a surrogate. -/
theorem ranges_valid : ∀ r ∈ alphanumericRanges, r.2 < 0xD800 ∨ 0xDFFF < r.1 ∧ r.2 < 0x110000 := by
  decide +kernel

theorem toNat_ofNat_of_isSpanned (h : isSpanned first last = true) (hf : first ≤ n) (hl : n ≤ last) :
    (Char.ofNat n).toNat = n := by
  obtain ⟨r, hr, hfirst, hlast⟩ := exists_range h
  have valid : n.isValidChar := by
    unfold Nat.isValidChar
    have := ranges_valid r hr
    omega
  rw [Char.ofNat, dif_pos valid]
  rfl

namespace CaseRun

/-- The code point of the small letter of a capital. -/
def small (r : CaseRun) (n : Nat) : Nat :=
  (n + r.offset).toNat

def capitals (r : CaseRun) : List Nat :=
  List.range' r.first ((r.last - r.first) / r.step + 1) r.step

/-- No small letter of `r` is a capital of `q`: they lie apart, or in turn. -/
def isApartFrom (r q : CaseRun) : Bool :=
  q.last.blt (r.small r.first) || (r.small r.last).blt q.first ||
    (q.step.beq 2 && (r.step.beq 2 || r.first.beq r.last) &&
      ((r.small r.first + q.first) % 2).beq 1)

/-- What the tables say of a run: the capitals stand in one range, or each of them in one; the small letters
stand in one, with no capital of any run and without the capital I with a dot. -/
structure Sound (r : CaseRun) : Prop where
  offset : -(r.first : Int) ≤ r.offset
  capitals : (isSpanned r.first r.last || r.capitals.all fun n => isSpanned n n) = true
  smalls : isSpanned (r.small r.first) (r.small r.last) = true
  apart : caseRuns.all r.isApartFrom = true
  undotted : dottedCapitalI.toNat < r.small r.first ∨ r.small r.last < dottedCapitalI.toNat

instance (r : CaseRun) : Decidable r.Sound :=
  decidable_of_iff (-(r.first : Int) ≤ r.offset ∧
      (isSpanned r.first r.last || r.capitals.all fun n => isSpanned n n) = true ∧
      isSpanned (r.small r.first) (r.small r.last) = true ∧
      caseRuns.all r.isApartFrom = true ∧
      (dottedCapitalI.toNat < r.small r.first ∨ r.small r.last < dottedCapitalI.toNat))
    ⟨fun ⟨ho, hc, hs, ha, hu⟩ => ⟨ho, hc, hs, ha, hu⟩,
      fun h => ⟨h.offset, h.capitals, h.smalls, h.apart, h.undotted⟩⟩

/-- The one check of the tables. It takes some seconds, so everything else is read off its result. -/
theorem sound_of_mem : ∀ r ∈ caseRuns, r.Sound := by
  decide +kernel

/-! ### One capital of a run -/

variable {r q : CaseRun}

theorem covers_iff : r.covers n = true ↔ r.first ≤ n ∧ n ≤ r.last ∧ (n - r.first) % r.step = 0 := by
  simp [covers, and_assoc]

theorem small_eq (hr : r ∈ caseRuns) (hn : r.covers n = true) :
    r.small n = r.small r.first + (n - r.first) ∧ r.small n ≤ r.small r.last := by
  obtain ⟨hfirst, hlast, -⟩ := covers_iff.mp hn
  have := (sound_of_mem r hr).offset
  unfold small
  omega

theorem mem_capitals (hn : r.covers n = true) : n ∈ r.capitals := by
  obtain ⟨hfirst, hlast, hstep⟩ := covers_iff.mp hn
  refine List.mem_range'.mpr ⟨(n - r.first) / r.step, ?_, ?_⟩
  · exact Nat.lt_succ_of_le (Nat.div_le_div_right (by omega))
  · have := Nat.mul_div_cancel' (Nat.dvd_of_mod_eq_zero hstep)
    omega

theorem isAlphanumeric_capital (hr : r ∈ caseRuns) (hc : r.covers c.toNat = true) :
    isAlphanumeric c = true := by
  rcases Bool.or_eq_true_iff.mp (sound_of_mem r hr).capitals with h | h
  · obtain ⟨hfirst, hlast, -⟩ := covers_iff.mp hc
    exact isAlphanumeric_of_isSpanned h hfirst hlast
  · exact isAlphanumeric_of_isSpanned (List.all_eq_true.mp h _ (mem_capitals hc))
      (Nat.le_refl _) (Nat.le_refl _)

theorem isAlphanumeric_small (hr : r ∈ caseRuns) (hn : r.covers n = true)
    (hd : d.toNat = r.small n) : isAlphanumeric d = true := by
  have := small_eq hr hn
  exact isAlphanumeric_of_isSpanned (sound_of_mem r hr).smalls (by omega) (by omega)

/-- A small letter is no capital of any run. -/
theorem covers_small (hr : r ∈ caseRuns) (hn : r.covers n = true) (hq : q ∈ caseRuns) :
    q.covers (r.small n) = false := by
  rw [← Bool.not_eq_true, covers_iff]
  rintro ⟨hqfirst, hqlast, hqstep⟩
  have hsmall := small_eq hr hn
  obtain ⟨hfirst, hlast, hstep⟩ := covers_iff.mp hn
  have apart := List.all_eq_true.mp (sound_of_mem r hr).apart q hq
  simp only [isApartFrom, Nat.blt_eq, Nat.beq_eq, Bool.or_eq_true, Bool.and_eq_true] at apart
  rcases apart with (h | h) | ⟨⟨htwo, hwhich⟩, hodd⟩
  · omega
  · omega
  · rw [htwo] at hqstep
    rcases hwhich with hrtwo | hone
    · rw [hrtwo] at hstep
      omega
    · omega

theorem small_ne_dotted (hr : r ∈ caseRuns) (hn : r.covers n = true) :
    r.small n ≠ dottedCapitalI.toNat := by
  have := small_eq hr hn
  have := (sound_of_mem r hr).undotted
  omega

end CaseRun

/-! ### The small letter of a character -/

theorem lowercase_dottedCapitalI : lowercase dottedCapitalI = ['i', combiningDotAbove] := rfl

theorem lowercase_of_uncovered (h : c ≠ dottedCapitalI)
    (hc : ∀ r ∈ caseRuns, r.covers c.toNat = false) : lowercase c = [c] := by
  have unfound : caseRuns.find? (·.covers c.toNat) = none :=
    List.find?_eq_none.mpr fun r hr => by simp [hc r hr]
  rw [lowercase, if_neg h, unfound]

/-- **Every character but one has one small letter**, which stays as it is in lower case and belongs to
the alphanumeric characters as the character does. -/
theorem exists_small (h : c ≠ dottedCapitalI) :
    ∃ d, lowercase c = [d] ∧ lowercase d = [d] ∧ isAlphanumeric d = isAlphanumeric c := by
  cases hfind : caseRuns.find? (·.covers c.toNat) with
  | none =>
    have alone : lowercase c = [c] := lowercase_of_uncovered h fun r hr => by
      simpa using List.find?_eq_none.mp hfind r hr
    exact ⟨c, alone, alone, rfl⟩
  | some r =>
    have hr := List.mem_of_find?_eq_some hfind
    have hc : r.covers c.toNat = true := by simpa using List.find?_some hfind
    have hsmall := CaseRun.small_eq hr hc
    have code : (Char.ofNat (r.small c.toNat)).toNat = r.small c.toNat :=
      toNat_ofNat_of_isSpanned (CaseRun.sound_of_mem r hr).smalls (by omega) hsmall.2
    refine ⟨Char.ofNat (r.small c.toNat), ?_, ?_, ?_⟩
    · rw [lowercase, if_neg h, hfind]
      rfl
    · refine lowercase_of_uncovered ?_ fun q hq => ?_
      · intro hdotted
        rw [hdotted] at code
        exact CaseRun.small_ne_dotted hr hc code.symm
      · rw [code]
        exact CaseRun.covers_small hr hc hq
    · rw [CaseRun.isAlphanumeric_small hr hc code, CaseRun.isAlphanumeric_capital hr hc]

end Longbox.Text
