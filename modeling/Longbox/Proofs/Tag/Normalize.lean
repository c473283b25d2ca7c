import Longbox.Proofs.Text.CaseTable
import Longbox.Tag
import Mathlib.Data.List.Basic

/-! What a normalized tag looks like.

Letters and digits are kept first and put in lower case afterwards, so one character gets through that is
neither: the accent that the capital I with a dot leaves behind in lower case. Values without that
capital are normalized to alphanumeric characters, normalizing them again changes nothing, and their
lower case is the same tag; with it none of the three holds (`normalize_canonical_iff`). -/
namespace Longbox.Tag

open Text (lowercase isAlphanumeric dottedCapitalI combiningDotAbove lowercase_dottedCapitalI
  exists_small)

/-- The value with every character in lower case. -/
def lowered (value : String) : String :=
  String.ofList (value.toList.flatMap lowercase)

variable {cs : List Char} {c : Char}

/-! ### The capital with a dot -/

/-- There is no capital in lower case. -/
theorem dottedCapitalI_not_mem_lowercase (c : Char) : dottedCapitalI ∉ lowercase c := by
  by_cases h : c = dottedCapitalI
  · rw [h]
    decide
  · obtain ⟨d, hc, hd, -⟩ := exists_small h
    rw [hc, List.mem_singleton]
    rintro rfl
    cases hd

theorem dottedCapitalI_not_mem_flatMap (cs : List Char) :
    dottedCapitalI ∉ cs.flatMap lowercase := by
  rw [List.mem_flatMap]
  rintro ⟨c, -, hc⟩
  exact dottedCapitalI_not_mem_lowercase c hc

theorem isAlphanumeric_dottedCapitalI : isAlphanumeric dottedCapitalI = true := by
  decide +kernel

theorem isAlphanumeric_combiningDotAbove : isAlphanumeric combiningDotAbove = false := by
  decide +kernel

/-- Its accent is in the normalized value, though it is not alphanumeric. -/
theorem combiningDotAbove_mem_normalizeChars (h : dottedCapitalI ∈ cs) :
    combiningDotAbove ∈ normalizeChars cs := by
  have kept : dottedCapitalI ∈ cs.filter isAlphanumeric :=
    List.mem_filter.mpr ⟨h, isAlphanumeric_dottedCapitalI⟩
  refine List.mem_flatMap.mpr ⟨dottedCapitalI, kept, ?_⟩
  rw [lowercase_dottedCapitalI]
  simp

/-! ### Values without it -/

theorem forall_normalizeChars_iff :
    (∀ c ∈ normalizeChars cs, isAlphanumeric c = true) ↔ dottedCapitalI ∉ cs := by
  constructor
  · intro h hdotted
    have accent := h _ (combiningDotAbove_mem_normalizeChars hdotted)
    rw [isAlphanumeric_combiningDotAbove] at accent
    cases accent
  · intro h c hc
    obtain ⟨b, hb, hcb⟩ := List.mem_flatMap.mp hc
    obtain ⟨hmem, halpha⟩ := List.mem_filter.mp hb
    obtain ⟨d, hsmall, -, hd⟩ := exists_small (ne_of_mem_of_not_mem hmem h)
    rw [hsmall, List.mem_singleton] at hcb
    rw [hcb, hd, halpha]

/-- Small letters stay as they are. -/
theorem flatMap_lowercase_normalizeChars (h : dottedCapitalI ∉ cs) :
    (normalizeChars cs).flatMap lowercase = normalizeChars cs := by
  unfold normalizeChars
  rw [List.flatMap_assoc]
  refine List.flatMap_congr fun c hc => ?_
  have hne := ne_of_mem_of_not_mem (List.mem_of_mem_filter hc) h
  obtain ⟨d, hsmall, hstays, -⟩ := exists_small hne
  rw [hsmall, List.flatMap_singleton, hstays]

theorem normalizeChars_of_alphanumeric (h : ∀ c ∈ cs, isAlphanumeric c = true) :
    normalizeChars cs = cs.flatMap lowercase := by
  rw [normalizeChars, List.filter_eq_self.mpr h]

theorem normalizeChars_normalizeChars (h : dottedCapitalI ∉ cs) :
    normalizeChars (normalizeChars cs) = normalizeChars cs := by
  rw [normalizeChars_of_alphanumeric (forall_normalizeChars_iff.mpr h),
    flatMap_lowercase_normalizeChars h]

theorem normalizeChars_cons (c : Char) (cs : List Char) :
    normalizeChars (c :: cs) = normalizeChars [c] ++ normalizeChars cs := by
  unfold normalizeChars
  rw [← List.flatMap_append, ← List.filter_append, List.singleton_append]

/-- A character and its small letter are kept or dropped together. -/
theorem normalizeChars_lowercase (h : dottedCapitalI ∉ cs) :
    normalizeChars (cs.flatMap lowercase) = normalizeChars cs := by
  induction cs with
  | nil => rfl
  | cons c cs ih =>
    rw [List.mem_cons, not_or] at h
    obtain ⟨d, hsmall, hstays, halpha⟩ := exists_small (Ne.symm h.1)
    have one : normalizeChars [d] = normalizeChars [c] := by
      unfold normalizeChars
      rw [List.filter_singleton, List.filter_singleton, halpha]
      cases isAlphanumeric c with
      | false => rfl
      | true => simp [hsmall, hstays]
    rw [List.flatMap_cons, hsmall, List.singleton_append, normalizeChars_cons, one, ih h.2,
      ← normalizeChars_cons]

/-- What normalizes like a value without the capital has none either. -/
theorem not_mem_of_normalizeChars_eq {cs' : List Char} (h : dottedCapitalI ∉ cs)
    (heq : normalizeChars cs = normalizeChars cs') : dottedCapitalI ∉ cs' := by
  rw [← forall_normalizeChars_iff, ← heq]
  exact forall_normalizeChars_iff.mpr h

/-! ### Texts -/

theorem toList_normalize (value : String) :
    (normalize value).toList = normalizeChars value.toList :=
  String.toList_ofList

theorem toList_lowered (value : String) : (lowered value).toList = value.toList.flatMap lowercase :=
  String.toList_ofList

theorem normalize_eq_iff {value other : String} :
    normalize value = normalize other ↔ normalizeChars value.toList = normalizeChars other.toList := by
  rw [String.ext_iff, toList_normalize, toList_normalize]

end Longbox.Tag
