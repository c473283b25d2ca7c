import Longbox.Naming
import Mathlib.Data.List.DropRight

/-! How markers are trimmed and padded.

Zeros in front make no difference to a trimmed marker (`trimChars_replicate`), so padding one does not
either: what a name shows of a chapter's number determines the trimmed number (`trim_paddedNumber`). -/
namespace Longbox

namespace Marker

theorem trimChars_eq_nil {cs : List Char} : trimChars cs = [] ↔ cs = [] := by
  constructor
  · intro h
    unfold trimChars at h
    split at h
    · split at h
      · rename_i hempty
        exact List.isEmpty_iff.mp hempty
      · cases h
    · cases h
    · rename_i hne _
      exact absurd h hne
  · rintro rfl
    rfl

theorem trim_eq_empty {marker : String} : trim marker = "" ↔ marker = "" := by
  unfold trim
  rw [String.ofList_eq_empty_iff, trimChars_eq_nil, String.toList_eq_nil_iff]

theorem trimChars_replicate {cs : List Char} (zeros : Nat) (h : cs ≠ []) :
    trimChars (List.replicate zeros '0' ++ cs) = trimChars cs := by
  have zero : ∀ c ∈ List.replicate zeros '0', (c == '0') = true := fun c hc => by
    rw [List.eq_of_mem_replicate hc]
    rfl
  have full : (List.replicate zeros '0' ++ cs).isEmpty = cs.isEmpty := by
    rw [List.isEmpty_eq_false_iff.mpr h]
    simp [h]
  unfold trimChars
  rw [List.dropWhile_append_of_pos zero, full]

/-- A trimmed marker is trimmed already. -/
theorem trimChars_trimChars (cs : List Char) : trimChars (trimChars cs) = trimChars cs := by
  fun_cases trimChars cs with
  | case1 hdrop hempty => rfl
  | case2 hdrop hempty => rfl
  | case3 rest hdrop => rfl
  | case4 hne hdot =>
    rw [trimChars, List.dropWhile_idempotent]
    split
    · rename_i hnil
      exact absurd hnil hne
    · rename_i hcons
      exact absurd hcons (hdot _)
    · rfl

theorem trim_trim (marker : String) : trim (trim marker) = trim marker := by
  unfold trim
  rw [String.toList_ofList, trimChars_trimChars]

/-- A marker of ASCII digits and dots. -/
def Dotted (marker : String) : Prop :=
  ∀ c ∈ marker.toList, isNumeralChar c = true

instance (marker : String) : Decidable (Dotted marker) :=
  decidable_of_iff (marker.toList.all isNumeralChar = true) List.all_eq_true

theorem Dotted.not_mem {marker : String} (h : Dotted marker) {c : Char}
    (hc : isNumeralChar c = false) : c ∉ marker.toList :=
  fun hmem => by
    rw [h c hmem] at hc
    cases hc

end Marker

namespace Naming

theorem toList_paddedNumber (number : String) :
    ∃ zeros, (paddedNumber number).toList = List.replicate zeros '0' ++ number.toList := by
  unfold paddedNumber Marker.pad? Marker.padChars?
  split
  · exact ⟨_, by rw [Option.map_some, Option.getD_some, String.toList_ofList]⟩
  · exact ⟨0, rfl⟩

theorem trim_paddedNumber {number : String} (h : number ≠ "") :
    Marker.trim (paddedNumber number) = Marker.trim number := by
  obtain ⟨zeros, hpadded⟩ := toList_paddedNumber number
  have hne : number.toList ≠ [] := fun hnil => h (String.toList_eq_nil_iff.mp hnil)
  unfold Marker.trim
  rw [hpadded, Marker.trimChars_replicate zeros hne]

theorem mem_paddedNumber {number : String} {c : Char} (h : c ∈ (paddedNumber number).toList) :
    c = '0' ∨ c ∈ number.toList := by
  obtain ⟨zeros, hpadded⟩ := toList_paddedNumber number
  rw [hpadded, List.mem_append] at h
  exact h.imp_left List.eq_of_mem_replicate

theorem dotted_paddedNumber {number : String} (h : Marker.Dotted number) :
    Marker.Dotted (paddedNumber number) := by
  intro c hc
  rcases mem_paddedNumber hc with rfl | hc
  · rfl
  · exact h c hc

end Naming
end Longbox
