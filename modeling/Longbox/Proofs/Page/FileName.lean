import Longbox.Proofs.Path.Resolution
import Mathlib.Algebra.Group.Nat.Defs

/-! What the names of page files tell.

The number of a page can be read off the name of its file (`index_of_fileName_eq`), whatever its address
is, so that pages with different numbers have different paths in one directory. As long as the numbers
fit the width that they are padded to, the names stand in the order of the numbers
(`fileName_lt_fileName`). -/
namespace Longbox.Page

/-! ### The number in a name -/

theorem ofDigitChars_paddedIndex (index : Nat) :
    Nat.ofDigitChars 10 (paddedIndex index) 0 = index := by
  unfold paddedIndex
  rw [Nat.ofDigitChars_append, Nat.ofDigitChars_replicate_zero, Nat.mul_zero,
    Nat.ofDigitChars_ten_toDigits]

theorem dot_not_mem_paddedIndex (index : Nat) : '.' ∉ paddedIndex index := by
  unfold paddedIndex
  rw [List.mem_append, not_or]
  constructor
  · intro h
    cases List.eq_of_mem_replicate h
  · intro h
    have digit : '.'.isDigit = true := Nat.isDigit_of_mem_toDigits (by decide) (by decide) h
    cases digit

/-- The number ends at the first dot, whatever extension follows. -/
theorem index_of_fileName_eq {a b : PageTask} (h : fileName a = fileName b) : a.index = b.index := by
  have chars := congrArg String.toList h
  rw [toList_fileName, toList_fileName, List.append_assoc, List.append_assoc,
    List.append_cancel_left_eq] at chars
  have pieces := congrArg (Path.splitChars '.') chars
  rw [Path.splitChars_append, Path.splitChars_append,
    Path.splitChars_of_not_mem (dot_not_mem_paddedIndex _),
    Path.splitChars_of_not_mem (dot_not_mem_paddedIndex _), List.singleton_append,
    List.singleton_append, List.cons.injEq] at pieces
  rw [← ofDigitChars_paddedIndex a.index, pieces.1, ofDigitChars_paddedIndex]

theorem isPlain_fileName (task : PageTask) : Path.IsPlain (fileName task) := by
  refine Path.isPlain_of_blank ?_ (slash_not_mem_fileName task)
  rw [toList_fileName]
  simp

/-- In one directory, pages with different numbers have different paths. -/
theorem isSame_path_eq_false (dir : String) {a b : PageTask} (h : a.index ≠ b.index) :
    Path.isSame (path dir a) (path dir b) = false := by
  rw [← Bool.not_eq_true, Path.isSame_iff]
  rintro ⟨-, -, components⟩
  unfold path at components
  rw [Path.components_join dir (isPlain_fileName a).isAbsolute_eq,
    Path.components_join dir (isPlain_fileName b).isAbsolute_eq, (isPlain_fileName a).components_eq,
    (isPlain_fileName b).components_eq, List.append_cancel_left_eq, List.cons.injEq] at components
  exact h (index_of_fileName_eq (String.ext components.1))

/-! ### The order of names -/

/-- The last digits of a number as bytes, so many as there is room for. -/
def numeral : Nat → Nat → List UInt8
  | 0, _ => []
  | width + 1, n => numeral width (n / 10) ++ [UInt8.ofNat (48 + n % 10)]

theorem length_numeral (width n : Nat) : (numeral width n).length = width := by
  induction width generalizing n with
  | zero => rfl
  | succ width ih => simp [numeral, ih]

/-- Words of one length that are in order stay so whatever comes behind them. -/
theorem append_lt_append {a b : List UInt8} (h : a < b) (hl : a.length = b.length)
    (x y : List UInt8) : a ++ x < b ++ y := by
  induction a generalizing b with
  | nil =>
    obtain rfl := List.eq_nil_of_length_eq_zero hl.symm
    exact absurd h (List.lt_irrefl _)
  | cons c cs ih =>
    cases b with
    | nil => cases hl
    | cons e es =>
      rw [List.cons_append, List.cons_append, List.cons_lt_cons_iff]
      rcases List.cons_lt_cons_iff.mp h with hc | ⟨rfl, hcs⟩
      · exact .inl hc
      · exact .inr ⟨rfl, ih hcs (Nat.succ.inj hl)⟩

theorem numeral_lt_numeral {width m n : Nat} (h : m < n) (hn : n < 10 ^ width) :
    numeral width m < numeral width n := by
  induction width generalizing m n with
  | zero => omega
  | succ width ih =>
    rw [numeral, numeral]
    by_cases hfront : m / 10 < n / 10
    · refine append_lt_append (ih hfront ?_) (by rw [length_numeral, length_numeral]) _ _
      rw [Nat.pow_succ] at hn
      omega
    · have same : m / 10 = n / 10 := by omega
      rw [same]
      refine List.append_left_lt (List.cons_lt_cons_iff.mpr (.inl ?_))
      rw [UInt8.lt_iff_toNat_lt, UInt8.toNat_ofNat', UInt8.toNat_ofNat']
      omega

theorem utf8EncodeChar_digitChar {digit : Nat} (h : digit < 10) :
    String.utf8EncodeChar digit.digitChar = [UInt8.ofNat (48 + digit)] := by
  have all : ∀ digit < 10,
      String.utf8EncodeChar (Nat.digitChar digit) = [UInt8.ofNat (48 + digit)] := by
    decide +kernel
  exact all digit h

/-- The digits of a number behind so many zeros that they are `width` characters. -/
def padded (width n : Nat) : List Char :=
  List.replicate (width - (Nat.toDigits 10 n).length) '0' ++ Nat.toDigits 10 n

theorem padded_succ (width n : Nat) :
    padded (width + 2) n = padded (width + 1) (n / 10) ++ [(n % 10).digitChar] := by
  unfold padded
  by_cases hn : n < 10
  · have front : n / 10 = 0 := by omega
    have last : n % 10 = n := by omega
    rw [Nat.toDigits_of_lt_base hn, front, last, Nat.toDigits_zero, List.length_singleton,
      List.length_singleton]
    show List.replicate (width + 1) '0' ++ _ = List.replicate width '0' ++ ['0'] ++ _
    rw [List.replicate_succ']
  · have room (length : Nat) : width + 2 - (length + 1) = width + 1 - length := by omega
    rw [Nat.toDigits_of_base_le (by decide) (by omega), List.length_append, List.length_singleton,
      room, List.append_assoc]

theorem utf8_padded (width n : Nat) (h : n < 10 ^ (width + 1)) :
    (padded (width + 1) n).flatMap String.utf8EncodeChar = numeral (width + 1) n := by
  induction width generalizing n with
  | zero =>
    have hn : n < 10 := h
    have last : n % 10 = n := by omega
    rw [padded, Nat.toDigits_of_lt_base hn, numeral, last]
    simpa [numeral] using utf8EncodeChar_digitChar hn
  | succ width ih =>
    have front : n / 10 < 10 ^ (width + 1) := by
      rw [Nat.pow_succ] at h
      omega
    rw [padded_succ, List.flatMap_append, ih _ front, List.flatMap_singleton,
      utf8EncodeChar_digitChar (Nat.mod_lt n (by decide))]
    rfl

theorem utf8_ofList (chars : List Char) :
    (String.ofList chars).toUTF8.data.toList = chars.flatMap String.utf8EncodeChar := by
  rw [String.toUTF8, String.toByteArray_ofList, List.utf8Encode, List.toList_data_toByteArray]

theorem utf8_fileName {task : PageTask} (h : task.index < 10 ^ indexWidth) :
    ∃ rest, (fileName task).toUTF8.data.toList =
      "page ".toList.flatMap String.utf8EncodeChar ++ (numeral indexWidth task.index ++ rest) := by
  have digits : (paddedIndex task.index).flatMap String.utf8EncodeChar =
      numeral indexWidth task.index := utf8_padded 3 task.index h
  refine ⟨('.' :: extension task.url).flatMap String.utf8EncodeChar, ?_⟩
  unfold fileName
  rw [utf8_ofList, List.append_assoc]
  -- The label is a literal that is not to be evaluated.
  generalize "page ".toList = label
  rw [List.flatMap_append, List.flatMap_append, digits]

/-- **The names of page files are in the order of the pages**, byte by byte, up to the widest number that
is padded. -/
theorem fileName_lt_fileName {a b : PageTask} (h : a.index < b.index)
    (hb : b.index < 10 ^ indexWidth) :
    (fileName a).toUTF8.data.toList < (fileName b).toUTF8.data.toList := by
  obtain ⟨x, hx⟩ := utf8_fileName (h.trans hb)
  obtain ⟨y, hy⟩ := utf8_fileName hb
  rw [hx, hy]
  refine List.append_left_lt (append_lt_append (numeral_lt_numeral h hb) ?_ x y)
  rw [length_numeral, length_numeral]

end Longbox.Page
