import Longbox.Json.Record
import Longbox.Proofs.Json.Text
import Longbox.Proofs.Text.Digit

/-! Values and fields are read back from their trees.

A value is restored when its tree is plain, so that it survives being written as text, and the
reader of the value finds it in the tree. Both pass from the parts of a value to the whole: from
elements to lists, and from fields to records. -/
namespace Longbox.Json

open Text (natOfDigits_toDigits)

/-- The tree of every value has a text and stands for the value. -/
structure Restores {α : Type} (toJson : α → Json) (ofJson? : Json → Option α) : Prop where
  plain : ∀ x, (toJson x).IsPlain
  reads : ∀ x, ofJson? (toJson x) = some x

namespace Restores
variable {α : Type} {toJson : α → Json} {ofJson? : Json → Option α}

theorem required (h : Restores toJson ofJson?) (x : α) :
    required? ofJson? (some (toJson x)) = some x :=
  h.reads x

theorem optional (h : Restores toJson ofJson?) (default x : α) :
    optional? ofJson? default (some (toJson x)) = some x :=
  h.reads x

end Restores

/-! ### Texts -/

theorem isPlain_pieceOf (c : Char) : (pieceOf c).IsPlain := by
  unfold pieceOf
  split
  · rename_i h
    simp only [Bool.and_eq_true, decide_eq_true_eq] at h
    exact Nat.lt_trans h.1 (by decide)
  · rename_i h
    by_contra hplain
    simp only [Piece.IsPlain, not_or, Nat.not_le] at hplain
    exact h (by simp [hplain])

theorem isPlain_piecesOf (text : String) : ∀ p ∈ piecesOf text, p.IsPlain := by
  intro p hp
  obtain ⟨c, -, rfl⟩ := List.mem_map.mp hp
  exact isPlain_pieceOf c

theorem chars?_pieceOf (c : Char) (rest : List Piece) :
    chars? (pieceOf c :: rest) = (chars? rest).map (c :: ·) := by
  unfold pieceOf
  split
  · rename_i h
    simp only [Bool.and_eq_true, decide_eq_true_eq] at h
    have hhigh : isHighSurrogate c.toNat = false := by simp [isHighSurrogate]; omega
    have hlow : isLowSurrogate c.toNat = false := by simp [isLowSurrogate]; omega
    rw [chars?.eq_def]
    simp [hhigh, hlow]
  · rfl

theorem chars?_piecesOf (text : String) : chars? (piecesOf text) = some text.toList := by
  unfold piecesOf
  induction text.toList with
  | nil => rfl
  | cons c cs ih => rw [List.map_cons, chars?_pieceOf, ih, Option.map_some]

theorem restores_text : Restores ofString text? where
  plain text := .string _ (isPlain_piecesOf text)
  reads text := by simp [ofString, text?, chars?_piecesOf]

theorem restores_bool : Restores Json.bool bool? where
  plain b := .bool b
  reads _ := rfl

/-- What has a name is restored by it, whatever else may stand for it. -/
theorem restores_name {α : Type} {name : α → String} {ofName? : String → Option α}
    (h : ∀ x, ofName? (name x) = some x) (isUnit : Json → Bool) :
    Restores (fun x => ofString (name x)) (named? ofName? isUnit) where
  plain x := restores_text.plain (name x)
  reads x := by
    have hread := restores_text.reads (name x)
    rw [ofString] at hread
    simp only [ofString, named?, hread, Option.bind_some, h]

/-! ### Numbers -/

theorem head_toDigits {n : Nat} (h : 0 < n) : (Nat.toDigits 10 n).head? ≠ some '0' := by
  induction n using Nat.strongRecOn with
  | ind n ih =>
    by_cases hn : n < 10
    · have hall : ∀ m < 10, 0 < m → (Nat.toDigits 10 m).head? ≠ some '0' := by decide
      exact hall n hn h
    · have hne : Nat.toDigits 10 (n / 10) ≠ [] := Nat.toDigits_ne_nil
      rw [Nat.toDigits_of_base_le (by decide) (by omega), List.head?_append_of_ne_nil _ hne]
      exact ih (n / 10) (by omega) (by omega)

theorem isPlain_ofNat (n : Nat) : (Numeral.ofNat n).IsPlain where
  whole _ hc := Nat.isDigit_of_mem_toDigits (by decide) (by decide) hc
  nonempty := Nat.toDigits_ne_nil
  shortest hhead := by
    rcases Nat.eq_zero_or_pos n with rfl | hn
    · decide
    · exact absurd hhead (head_toDigits hn)
  fraction := by simp [AreDigits, Numeral.ofNat]
  exponent := by simp [Numeral.ofNat]

theorem restores_word : Restores ofWord word? where
  plain n := .number _ (isPlain_ofNat n.toNat)
  reads n := by
    have hlt : n.toNat < wordSize := n.toNat_lt
    have hnumber : (Numeral.ofNat n.toNat).number? = some (.natural n.toNat) := by
      simp [Numeral.number?, Numeral.isInteger, Numeral.ofNat, natOfDigits_toDigits, hlt]
    simp [ofWord, ofNat, word?, Numeral.word?, hnumber]

/-! ### Lists and options -/

theorem mapM_map_of_forall {α β γ : Type} {f : β → Option γ} {g : α → β} {k : α → γ} {xs : List α}
    (h : ∀ x ∈ xs, f (g x) = some (k x)) : (xs.map g).mapM f = some (xs.map k) := by
  induction xs with
  | nil => rfl
  | cons x xs ih =>
    obtain ⟨hx, hxs⟩ := List.forall_mem_cons.mp h
    simp [List.mapM_cons, hx, ih hxs]

theorem restores_list {α : Type} {toJson : α → Json} {ofJson? : Json → Option α}
    (h : Restores toJson ofJson?) : Restores (ofList toJson) (list? ofJson?) where
  plain xs := .array _ (by simpa using fun x _ => h.plain x)
  reads xs := by
    have hread : (xs.map toJson).mapM ofJson? = some (xs.map id) :=
      mapM_map_of_forall fun x _ => h.reads x
    rwa [List.map_id] at hread

theorem nullable?_of_ne_null {α : Type} (ofJson? : Json → Option α) {v : Json} (h : v ≠ .null) :
    nullable? ofJson? v = (ofJson? v).map some := by
  cases v with
  | null => exact absurd rfl h
  | _ => rfl

theorem restores_option {α : Type} {toJson : α → Json} {ofJson? : Json → Option α}
    (h : Restores toJson ofJson?) (hnull : ∀ x, toJson x ≠ .null) :
    Restores (ofOption toJson) (nullable? ofJson?) where
  plain x := by
    cases x with
    | none => exact .null
    | some x => exact h.plain x
  reads x := by
    cases x with
    | none => rfl
    | some x => rw [ofOption, nullable?_of_ne_null _ (hnull x), h.reads x, Option.map_some]

/-! ### Records -/

theorem record_eq (members : List (String × Json)) :
    record members = .object (members.map fun m => (piecesOf m.1, m.2)) :=
  rfl

theorem isPlain_record {members : List (String × Json)} (h : ∀ m ∈ members, m.2.IsPlain) :
    (record members).IsPlain := by
  refine .object _ ?_ ?_
  · intro m hm
    obtain ⟨n, -, rfl⟩ := List.mem_map.mp hm
    exact isPlain_piecesOf n.1
  · intro m hm
    obtain ⟨n, hn, rfl⟩ := List.mem_map.mp hm
    exact h n hn

theorem keyed?_record (members : List (String × Json)) :
    keyed? (members.map fun m => (piecesOf m.1, m.2)) = some members := by
  have h : keyed? (members.map fun m => (piecesOf m.1, m.2)) = some (members.map id) :=
    mapM_map_of_forall fun m _ => by simp [chars?_piecesOf]
  rwa [List.map_id] at h

/-- Where no key is given twice, a member is the only one with its key. -/
theorem filter_key {members : List (String × Json)} (h : (members.map Prod.fst).Nodup)
    {m : String × Json} (hm : m ∈ members) : (members.filter fun n => n.1 == m.1) = [m] := by
  induction members with
  | nil => cases hm
  | cons n members ih =>
    obtain ⟨hn, hnodup⟩ := List.nodup_cons.mp h
    rcases List.mem_cons.mp hm with rfl | hm
    · have hothers : (members.filter fun n => n.1 == m.1) = [] := by
        refine List.filter_eq_nil_iff.mpr fun n hn' heq => hn ?_
        rw [← beq_iff_eq.mp heq]
        exact List.mem_map_of_mem hn'
      simp [hothers]
    · have hne : n.1 ≠ m.1 := fun heq => hn (heq ▸ List.mem_map_of_mem hm)
      rw [List.filter_cons_of_neg (by simpa using hne), ih hnodup hm]

/-- The fields of a record are found, whatever they are. -/
theorem fields?_record {members : List (String × Json)} (h : (members.map Prod.fst).Nodup) :
    fields? (members.map Prod.fst) (record members) =
      some (members.map fun m => some m.2) := by
  simp only [fields?, record_eq, keyed?_record, Option.bind_some, pick?]
  refine mapM_map_of_forall fun m hm => ?_
  rw [filter_key h hm]

end Longbox.Json
