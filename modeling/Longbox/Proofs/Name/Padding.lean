import Longbox.Proofs.Name.Marker
import Longbox.Proofs.Text.Digit

/-! How padding and trimming of markers agree.

Padding puts zeros in front of a numeral and leaves the rest as it is, so it cannot be told from the trimmed
marker. It is answered for every numeral, but only as far as text can be formatted. What is trimmed from
digits are the zeros that a number is not written with, so trimmed digits tell numbers apart
(`trimChars_eq_toDigits`, `pad_trim_agree`). -/
namespace Longbox.Marker

open Text (natOfDigits natOfDigits_toDigits natOfDigits_zero_cons toDigits_natOfDigits_cons)

variable {cs : List Char} {c : Char} {marker padded : String} {width : Nat}

/-- Digits and at most one dot, and at least one digit. -/
structure IsNumber (marker : String) : Prop where
  chars : ∀ c ∈ marker.toList, c.isDigit = true ∨ c = '.'
  dots : marker.toList.count '.' ≤ 1
  digit : ∃ c ∈ marker.toList, c.isDigit = true

/-- What follows the whole part: the dot and the digits behind it, if any. -/
def fraction (cs : List Char) : List Char :=
  cs.dropWhile (· != '.')

/-- A marker of ASCII digits only. -/
structure IsDigits (marker : String) : Prop where
  nonempty : marker ≠ ""
  digits : ∀ c ∈ marker.toList, c.isDigit = true

/-! ### Padding -/

theorem isNumeral_iff : isNumeral marker.toList = true ↔ IsNumber marker := by
  simp only [isNumeral, isNumeralChar, Bool.and_eq_true, List.all_eq_true, List.any_eq_true,
    Bool.or_eq_true, beq_iff_eq, decide_eq_true_eq]
  exact ⟨fun ⟨⟨hc, hd⟩, hdots⟩ => ⟨hc, hdots, hd⟩, fun h => ⟨⟨h.chars, h.digit⟩, h.dots⟩⟩

theorem isSome_pad?_iff : (pad? marker width).isSome = true ↔ IsNumber marker := by
  rw [← isNumeral_iff]
  unfold pad? padChars?
  rw [Option.isSome_map]
  split <;> simp_all

theorem padding_eq_notNumeral_iff : padding marker width = .notNumeral ↔ ¬ IsNumber marker := by
  rw [← isSome_pad?_iff, padding]
  cases pad? marker width with
  | none => simp
  | some text => by_cases h : width ≤ maxWidth <;> simp [h]

theorem padding_eq_tooWide_iff :
    padding marker width = .tooWide ↔ IsNumber marker ∧ maxWidth < width := by
  rw [← isSome_pad?_iff, padding, ← Nat.not_le]
  cases pad? marker width with
  | none => simp
  | some text => by_cases h : width ≤ maxWidth <;> simp [h]

theorem padding_eq_padded_iff :
    padding marker width = .padded padded ↔ pad? marker width = some padded ∧ width ≤ maxWidth := by
  rw [padding]
  cases pad? marker width with
  | none => simp
  | some text => by_cases h : width ≤ maxWidth <;> simp [h]

theorem exists_padded_iff :
    (∃ padded, padding marker width = .padded padded) ↔ IsNumber marker ∧ width ≤ maxWidth := by
  simp only [padding_eq_padded_iff, exists_and_right]
  rw [← Option.isSome_iff_exists, isSome_pad?_iff]

theorem toList_pad? (h : pad? marker width = some padded) :
    padded.toList =
      List.replicate (width - (wholePart marker.toList).length) '0' ++ marker.toList := by
  obtain ⟨cs, hcs, rfl⟩ := Option.map_eq_some_iff.mp h
  rw [String.toList_ofList]
  unfold padChars? at hcs
  split at hcs
  · exact (Option.some.inj hcs).symm
  · cases hcs

theorem ne_nil_of_pad? (h : pad? marker width = some padded) : marker.toList ≠ [] := by
  intro hnil
  obtain ⟨c, hc, -⟩ := (isSome_pad?_iff.mp (Option.isSome_of_mem h)).digit
  rw [hnil] at hc
  cases hc

theorem trim_pad? (h : pad? marker width = some padded) : trim padded = trim marker := by
  unfold trim
  rw [toList_pad? h, trimChars_replicate _ (ne_nil_of_pad? h)]

theorem zeros_before_dot (zeros : Nat) : ∀ c ∈ List.replicate zeros '0', (c != '.') = true :=
  fun c hc => by
    rw [List.eq_of_mem_replicate hc]
    rfl

theorem length_wholePart_pad? (h : pad? marker width = some padded) :
    (wholePart padded.toList).length = max width (wholePart marker.toList).length := by
  rw [toList_pad? h]
  conv_lhs => rw [wholePart, List.takeWhile_append_of_pos (zeros_before_dot _), List.length_append,
    List.length_replicate, ← wholePart]
  omega

theorem fraction_pad? (h : pad? marker width = some padded) :
    fraction padded.toList = fraction marker.toList := by
  rw [toList_pad? h, fraction, List.dropWhile_append_of_pos (zeros_before_dot _), fraction]

/-! ### Trimming -/

theorem trimChars_cons_of_ne (hz : c ≠ '0') (hdot : c ≠ '.') : trimChars (c :: cs) = c :: cs := by
  unfold trimChars
  rw [List.dropWhile_cons_of_neg (by simpa using hz)]
  split
  · rename_i h
    cases h
  · rename_i h
    exact absurd (List.cons.inj h).1 hdot
  · rfl

/-- Trimmed digits are those that their number is written with. -/
theorem trimChars_eq_toDigits (hne : cs ≠ []) (hd : ∀ c ∈ cs, c.isDigit = true) :
    trimChars cs = Nat.toDigits 10 (natOfDigits cs) := by
  induction cs with
  | nil => exact absurd rfl hne
  | cons c cs ih =>
    by_cases hz : c = '0'
    · subst hz
      by_cases hcs : cs = []
      · subst hcs
        rfl
      · rw [natOfDigits_zero_cons, ← ih hcs (List.forall_mem_cons.mp hd).2]
        exact trimChars_replicate 1 hcs
    · have hdot : c ≠ '.' := by
        rintro rfl
        cases hd '.' List.mem_cons_self
      rw [trimChars_cons_of_ne hz hdot, toDigits_natOfDigits_cons hd hz]

theorem trim_eq_trim_iff {other : String} (h : IsDigits marker) (h' : IsDigits other) :
    trim marker = trim other ↔ natOfDigits marker.toList = natOfDigits other.toList := by
  have hne : marker.toList ≠ [] := mt String.toList_eq_nil_iff.mp h.nonempty
  have hne' : other.toList ≠ [] := mt String.toList_eq_nil_iff.mp h'.nonempty
  unfold trim
  rw [String.ofList_inj, trimChars_eq_toDigits hne h.digits, trimChars_eq_toDigits hne' h'.digits]
  constructor
  · intro heq
    rw [← natOfDigits_toDigits (natOfDigits marker.toList), heq, natOfDigits_toDigits]
  · exact congrArg (Nat.toDigits 10)

/-- **Padding and trimming agree, where a field of the width can be formatted.** Just the numerals are padded,
and just those wider than `maxWidth` get no answer. A padded marker is trimmed to what the marker is
trimmed to, and only its whole part is longer, if it was too short. A trimmed marker is trimmed already, is
empty only if the marker is, and tells the numbers apart that digits write. -/
theorem pad_trim_agree (marker : String) (width : Nat) :
    ((∃ padded, padding marker width = .padded padded) ↔ IsNumber marker ∧ width ≤ maxWidth) ∧
      (padding marker width = .notNumeral ↔ ¬ IsNumber marker) ∧
      (padding marker width = .tooWide ↔ IsNumber marker ∧ maxWidth < width) ∧
      (∀ padded, padding marker width = .padded padded →
        trim padded = trim marker ∧
          (wholePart padded.toList).length = max width (wholePart marker.toList).length ∧
          fraction padded.toList = fraction marker.toList) ∧
      trim (trim marker) = trim marker ∧ (trim marker = "" ↔ marker = "") ∧
      ∀ other, IsDigits marker → IsDigits other →
        (trim marker = trim other ↔ natOfDigits marker.toList = natOfDigits other.toList) := by
  refine ⟨exists_padded_iff, padding_eq_notNumeral_iff, padding_eq_tooWide_iff, fun padded h => ?_,
    trim_trim marker, trim_eq_empty, fun other => trim_eq_trim_iff⟩
  have hpad := (padding_eq_padded_iff.mp h).1
  exact ⟨trim_pad? hpad, length_wholePart_pad? hpad, fraction_pad? hpad⟩

/-- A numeral and the first width that is too great for it. -/
theorem padding_seven_tooWide : isNumeral "7".toList = true ∧ padding "7" 65536 = .tooWide := by
  decide +kernel

end Longbox.Marker
