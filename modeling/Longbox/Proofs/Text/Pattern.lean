import Longbox.Text.Pattern

/-! What a search with a pattern finds.

`Matches` says which texts a pattern is matched with and what is captured then, without an order in which the
ways are tried. A search finds a match if the pattern occurs at the end of the text, and finds nothing else
(`occurs_of_search?`, `isSome_search?`). Where all ways capture the same, it does not matter which one is
tried first (`search?_eq_some`). -/
namespace Longbox.Text.Piece

/-- The pieces match the text one after the other. -/
inductive Matches : List Piece → List Char → List (List Char) → Prop where
  | done : Matches [] [] []
  | text {pieces rest captures} (chars : List Char) (h : Matches pieces rest captures) :
      Matches (.text chars :: pieces) (chars ++ rest) captures
  | many {accepts pieces taken rest captures} (htaken : ∀ c ∈ taken, accepts c = true)
      (h : Matches pieces rest captures) :
      Matches (.many accepts :: pieces) (taken ++ rest) captures
  | captured {accepts pieces taken rest captures} (hne : taken ≠ [])
      (htaken : ∀ c ∈ taken, accepts c = true) (h : Matches pieces rest captures) :
      Matches (.captured accepts :: pieces) (taken ++ rest) (taken :: captures)

/-- The pattern matches the text from some place on. -/
def Occurs (pieces : List Piece) (cs : List Char) (captures : List (List Char)) : Prop :=
  ∃ front rest, cs = front ++ rest ∧ Matches pieces rest captures

variable {α : Type} {accepts : Char → Bool} {rest? : List Char → Option α} {pieces : List Piece}
  {cs taken rest : List Char} {captures found : List (List Char)} {a : α}

/-! ### Taking characters -/

theorem exists_of_greedily? (h : greedily? accepts rest? cs = some a) :
    ∃ taken rest, cs = taken ++ rest ∧ (∀ c ∈ taken, accepts c = true) ∧ rest? rest = some a := by
  induction cs with
  | nil => exact ⟨[], [], rfl, nofun, h⟩
  | cons c cs ih =>
    rw [greedily?] at h
    split at h
    · rename_i found hfound
      obtain ⟨hc, hfound⟩ := Option.ite_none_right_eq_some.mp hfound
      obtain ⟨taken, rest, rfl, htaken, hrest⟩ := ih (hfound.trans h)
      exact ⟨c :: taken, rest, rfl, List.forall_mem_cons.mpr ⟨hc, htaken⟩, hrest⟩
    · exact ⟨[], c :: cs, rfl, nofun, h⟩

theorem isSome_greedily? (htaken : ∀ c ∈ taken, accepts c = true)
    (h : (rest? rest).isSome = true) : (greedily? accepts rest? (taken ++ rest)).isSome = true := by
  induction taken with
  | nil =>
    cases rest with
    | nil => exact h
    | cons c cs =>
      rw [List.nil_append, greedily?]
      split
      · rfl
      · exact h
  | cons c taken ih =>
    obtain ⟨hc, htaken⟩ := List.forall_mem_cons.mp htaken
    have fewer := ih htaken
    rw [List.cons_append, greedily?, if_pos hc]
    split
    · rfl
    · rename_i hnone
      rw [hnone] at fewer
      cases fewer

theorem capture?_append :
    capture? (taken ++ rest) rest captures = some found ↔ taken ≠ [] ∧ taken :: captures = found := by
  rw [capture?, List.length_append, Nat.add_sub_cancel, List.take_left]
  cases taken <;> simp

/-! ### Matching a whole text -/

theorem matches_of_matchAll? (h : matchAll? pieces cs = some captures) :
    Matches pieces cs captures := by
  induction pieces generalizing cs captures with
  | nil =>
    obtain ⟨hnil, hcaptures⟩ := Option.ite_none_right_eq_some.mp h
    cases hcaptures
    rw [List.isEmpty_iff.mp hnil]
    exact .done
  | cons piece pieces ih =>
    cases piece with
    | text chars =>
      obtain ⟨hstarts, hrest⟩ := Option.ite_none_right_eq_some.mp h
      obtain ⟨rest, rfl⟩ := List.isPrefixOf_iff_prefix.mp hstarts
      rw [List.drop_left] at hrest
      exact .text chars (ih hrest)
    | many accepts =>
      obtain ⟨taken, rest, rfl, htaken, hrest⟩ := exists_of_greedily? h
      exact .many htaken (ih hrest)
    | captured accepts =>
      obtain ⟨taken, rest, rfl, htaken, hrest⟩ := exists_of_greedily? h
      obtain ⟨others, hothers, hcapture⟩ := Option.bind_eq_some_iff.mp hrest
      obtain ⟨hne, rfl⟩ := capture?_append.mp hcapture
      exact .captured hne htaken (ih hothers)

theorem Matches.isSome_matchAll? (h : Matches pieces cs captures) :
    (matchAll? pieces cs).isSome = true := by
  induction h with
  | done => rfl
  | text chars _ ih =>
    rw [matchAll?, if_pos (List.isPrefixOf_iff_prefix.mpr (List.prefix_append ..)), List.drop_left]
    exact ih
  | many htaken _ ih => exact isSome_greedily? htaken ih
  | captured hne htaken _ ih =>
    obtain ⟨others, hothers⟩ := Option.isSome_iff_exists.mp ih
    refine isSome_greedily? htaken ?_
    rw [hothers, Option.bind_some, capture?_append.mpr ⟨hne, rfl⟩]
    rfl

/-! ### Searching -/

theorem occurs_of_search? (h : search? pieces cs = some captures) : Occurs pieces cs captures := by
  induction cs with
  | nil => exact ⟨[], [], rfl, matches_of_matchAll? h⟩
  | cons c cs ih =>
    rw [search?] at h
    split at h
    · rename_i found hfound
      exact ⟨[], c :: cs, rfl, matches_of_matchAll? (hfound.trans h)⟩
    · obtain ⟨front, rest, rfl, hmatches⟩ := ih h
      exact ⟨c :: front, rest, rfl, hmatches⟩

theorem Occurs.isSome_search? (h : Occurs pieces cs captures) :
    (search? pieces cs).isSome = true := by
  obtain ⟨front, rest, rfl, hmatches⟩ := h
  have whole := hmatches.isSome_matchAll?
  induction front with
  | nil =>
    cases rest with
    | nil => exact whole
    | cons c cs =>
      rw [List.nil_append, search?]
      split
      · rfl
      · rename_i hnone
        rw [hnone] at whole
        cases whole
  | cons c front ih =>
    rw [List.cons_append, search?]
    split
    · rfl
    · exact ih

/-- If all ways to match capture the same, the search finds that. -/
theorem Occurs.search?_eq_some (h : Occurs pieces cs captures)
    (hall : ∀ captures', Occurs pieces cs captures' → captures' = captures) :
    search? pieces cs = some captures := by
  obtain ⟨found, hfound⟩ := Option.isSome_iff_exists.mp h.isSome_search?
  rw [hfound, hall found (occurs_of_search? hfound)]

theorem search?_eq_none (h : ∀ captures, ¬ Occurs pieces cs captures) : search? pieces cs = none := by
  cases hsearch : search? pieces cs with
  | none => rfl
  | some captures => exact absurd (occurs_of_search? hsearch) (h captures)

end Longbox.Text.Piece
