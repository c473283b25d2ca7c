import Longbox.Json.Reader
import Longbox.Json.Writer
import Mathlib.Data.List.Basic

/-! What is written is read back.

The reader takes many texts for one tree, with blanks and escapes that are not needed, so it is no
inverse on texts. It is one on trees, as far as a tree has a text at all: a plain one, whose
numerals are made of digits and whose strings hold no character that may not stand there as it is.
A value is read at the front of a text, so each statement speaks of what follows as well: a numeral
is at its end only where no digit follows. -/
namespace Longbox.Json

open Text (hexValue?)

/-! ### Strings -/

/-- A code of four hexadecimal digits, or a character other than the control characters that have
no short escape. -/
def Piece.IsPlain : Piece → Prop
  | .unit code => code < 0x10000
  | .char c => 0x20 ≤ c.toNat ∨ c = '\n' ∨ c = '\t' ∨ c = '\r' ∨ c.toNat = 0x8 ∨ c.toNat = 0xC

theorem hexValue?_hexChar {n : Nat} (h : n < 16) : hexValue? (hexChar n) = some n := by
  have hall : ∀ m < 16, hexValue? (hexChar m) = some m := by decide
  exact hall n h

theorem pieces?_escape {c d : Char} (h : shortEscape? c = some d) (rest : List Char) :
    pieces? ('\\' :: c :: rest) = (pieces? rest).map fun (ps, rest) => (.char d :: ps, rest) := by
  have hu : c ≠ 'u' := by
    rintro rfl
    simp [shortEscape?] at h
  rw [pieces?.eq_4 _ _ (by rintro _ _ _ _ _ rfl; exact absurd rfl hu)]
  simp only [h, Option.bind_eq_bind, Option.bind_some]
  cases pieces? rest <;> rfl

theorem pieces?_char {c : Char} (hc : 0x20 ≤ c.toNat) (hquote : c ≠ '"') (hslash : c ≠ '\\')
    (rest : List Char) :
    pieces? (c :: rest) = (pieces? rest).map fun (ps, rest) => (.char c :: ps, rest) := by
  have hcontrol : ¬ c.toNat < 0x20 := by omega
  rw [pieces?.eq_5]
  · simp only [hcontrol, beq_eq_false_iff_ne.mpr hslash, decide_false, Bool.or_self,
      Bool.false_eq_true, if_false, Option.bind_eq_bind]
    cases pieces? rest <;> rfl
  all_goals simp_all

theorem pieces?_writePiece {p : Piece} (h : p.IsPlain) (rest : List Char) :
    pieces? (writePiece p ++ rest) = (pieces? rest).map fun (ps, rest) => (p :: ps, rest) := by
  cases p with
  | unit code =>
    have hcode : code < 0x10000 := h
    have hvalue : ((code / 4096 % 16 * 16 + code / 256 % 16) * 16 + code / 16 % 16) * 16
        + code % 16 = code := by omega
    have hhex (n : Nat) : hexValue? (hexChar (n % 16)) = some (n % 16) :=
      hexValue?_hexChar (Nat.mod_lt _ (by decide))
    simp only [writePiece, hexDigits, List.cons_append, List.nil_append, pieces?, hhex,
      Option.bind_eq_bind, Option.bind_some, hvalue]
    cases pieces? rest <;> rfl
  | char c =>
    have hcode {n : Nat} (hn : c.toNat = n) : c = Char.ofNat n := by rw [← hn, Char.ofNat_toNat]
    simp only [writePiece, beq_iff_eq]
    split_ifs with hquote hslash hnewline hreturn htab hback hfeed
    · subst hquote
      exact pieces?_escape rfl rest
    · subst hslash
      exact pieces?_escape rfl rest
    · subst hnewline
      exact pieces?_escape rfl rest
    · subst hreturn
      exact pieces?_escape rfl rest
    · subst htab
      exact pieces?_escape rfl rest
    · obtain rfl := hcode hback
      exact pieces?_escape rfl rest
    · obtain rfl := hcode hfeed
      exact pieces?_escape rfl rest
    · have hc : 0x20 ≤ c.toNat := by
        rcases h with h | h | h | h | h | h
        · exact h
        all_goals contradiction
      exact pieces?_char hc hquote hslash rest

theorem pieces?_writePieces {ps : List Piece} (h : ∀ p ∈ ps, p.IsPlain) (rest : List Char) :
    pieces? (ps.flatMap writePiece ++ '"' :: rest) = some (ps, rest) := by
  induction ps with
  | nil => rfl
  | cons p ps ih =>
    have hp : p.IsPlain := h p List.mem_cons_self
    have hps : ∀ q ∈ ps, q.IsPlain := fun q hq => h q (List.mem_cons_of_mem p hq)
    rw [List.flatMap_cons, List.append_assoc, pieces?_writePiece hp, ih hps, Option.map_some]

/-! ### Numerals -/

def AreDigits (cs : List Char) : Prop :=
  ∀ c ∈ cs, c.isDigit = true

theorem ne_of_isDigit {c other : Char} (h : c.isDigit = true) (ho : other.isDigit = false) :
    c ≠ other := by
  rintro rfl
  cases h.symm.trans ho

/-- A numeral made of digits, without a zero in front of others. -/
structure Numeral.IsPlain (n : Numeral) : Prop where
  whole : AreDigits n.whole
  nonempty : n.whole ≠ []
  shortest : n.whole.head? = some '0' → n.whole.length ≤ 1
  fraction : AreDigits n.fraction
  exponent : ∀ negative digits, n.exponent = some (negative, digits) →
    AreDigits digits ∧ digits ≠ []

/-- What may follow a value that is written: nothing, or what separates or closes. -/
def Closes (rest : List Char) : Prop :=
  ∀ c ∈ rest.head?, c = ',' ∨ c = ']' ∨ c = '\x7d'

/-- No digit follows. -/
def EndsDigits (rest : List Char) : Prop :=
  ∀ c ∈ rest.head?, c.isDigit = false

theorem closes_comma (rest : List Char) : Closes (',' :: rest) :=
  fun _ hc => .inl (Option.some.inj hc).symm

theorem closes_bracket (rest : List Char) : Closes (']' :: rest) :=
  fun _ hc => .inr (.inl (Option.some.inj hc).symm)

theorem closes_brace (rest : List Char) : Closes ('\x7d' :: rest) :=
  fun _ hc => .inr (.inr (Option.some.inj hc).symm)

theorem Closes.endsDigits {rest : List Char} (h : Closes rest) : EndsDigits rest := by
  intro c hc
  rcases h c hc with rfl | rfl | rfl <;> rfl

theorem takeWhile_digits {digits rest : List Char} (h : AreDigits digits) (hr : EndsDigits rest) :
    (digits ++ rest).takeWhile Char.isDigit = digits := by
  rw [List.takeWhile_append_of_pos h]
  cases rest with
  | nil => simp
  | cons c rest => simp [hr c rfl]

theorem dropWhile_digits {digits rest : List Char} (h : AreDigits digits) (hr : EndsDigits rest) :
    (digits ++ rest).dropWhile Char.isDigit = rest := by
  rw [List.dropWhile_append_of_pos h]
  cases rest with
  | nil => rfl
  | cons c rest => simp [hr c rfl]

theorem exponentDigits?_digits {digits rest : List Char} (h : AreDigits digits)
    (hne : digits ≠ []) (hr : EndsDigits rest) (negative : Bool) :
    exponentDigits? negative (digits ++ rest) = some (some (negative, digits), rest) := by
  simp [exponentDigits?, takeWhile_digits h hr, dropWhile_digits h hr, hne]

/-- The exponent as it is written. -/
def writeExponent : Option (Bool × List Char) → List Char
  | some (negative, digits) => 'e' :: (if negative then ['-'] else []) ++ digits
  | none => []

def writeFraction (fraction : List Char) : List Char :=
  if fraction.isEmpty then [] else '.' :: fraction

theorem writeNumeral_eq (n : Numeral) :
    writeNumeral n = (if n.negative then ['-'] else []) ++
      (n.whole ++ (writeFraction n.fraction ++ writeExponent n.exponent)) := by
  obtain ⟨negative, whole, fraction, exponent⟩ := n
  cases exponent with
  | none => simp [writeNumeral, writeFraction, writeExponent]
  | some e => simp [writeNumeral, writeFraction, writeExponent]

theorem exponent?_writeExponent {exponent : Option (Bool × List Char)} {rest : List Char}
    (h : ∀ negative digits, exponent = some (negative, digits) → AreDigits digits ∧ digits ≠ [])
    (hr : Closes rest) : exponent? (writeExponent exponent ++ rest) = some (exponent, rest) := by
  cases exponent with
  | none =>
    cases rest with
    | nil => rfl
    | cons c rest => rcases hr c rfl with rfl | rfl | rfl <;> rfl
  | some e =>
    obtain ⟨negative, digits⟩ := e
    obtain ⟨hd, hne⟩ := h negative digits rfl
    have hread := exponentDigits?_digits hd hne hr.endsDigits
    cases negative with
    | true => exact hread true
    | false =>
      -- The first digit is no sign, so it is read as the digit that it is.
      obtain ⟨d, ds, rfl⟩ := List.exists_cons_of_ne_nil hne
      have hdigit : d.isDigit = true := hd d List.mem_cons_self
      have hminus : d ≠ '-' := ne_of_isDigit hdigit rfl
      have hplus : d ≠ '+' := ne_of_isDigit hdigit rfl
      rw [← hread false]
      simp [writeExponent, exponent?, hminus, hplus]

theorem head_writeExponent {rest : List Char} (exponent : Option (Bool × List Char))
    (hr : Closes rest) {c : Char} (hc : c ∈ (writeExponent exponent ++ rest).head?) :
    c = 'e' ∨ c = ',' ∨ c = ']' ∨ c = '\x7d' := by
  cases exponent with
  | none => exact .inr (hr c hc)
  | some e => exact .inl (Option.some.inj hc).symm

theorem fraction?_writeFraction {fraction rest : List Char} (h : AreDigits fraction)
    (hr : EndsDigits rest) (hdot : rest.head? ≠ some '.') :
    fraction? (writeFraction fraction ++ rest) = some (fraction, rest) := by
  cases fraction with
  | nil =>
    cases rest with
    | nil => rfl
    | cons c rest =>
      have hc : c ≠ '.' := by simpa using hdot
      simp [writeFraction, fraction?, hc]
  | cons d ds =>
    have htake := takeWhile_digits h hr
    have hdrop := dropWhile_digits h hr
    simp only [writeFraction, List.isEmpty_cons, Bool.false_eq_true, if_false, List.cons_append,
      fraction?] at htake hdrop ⊢
    rw [htake, hdrop]
    rfl

theorem endsDigits_writeFraction {rest : List Char} (fraction : List Char) (hr : EndsDigits rest) :
    EndsDigits (writeFraction fraction ++ rest) := by
  cases fraction with
  | nil => exact hr
  | cons d ds =>
    intro c hc
    obtain rfl : '.' = c := by simpa [writeFraction] using hc
    rfl

theorem whole?_whole {n : Numeral} (h : n.IsPlain) {rest : List Char} (hr : EndsDigits rest) :
    whole? (n.whole ++ rest) = some (n.whole, rest) := by
  simp only [whole?, takeWhile_digits h.whole hr, dropWhile_digits h.whole hr]
  simpa [h.nonempty] using h.shortest

theorem unsigned?_write {n : Numeral} (h : n.IsPlain) {rest : List Char} (hr : Closes rest) :
    unsigned? n.negative
      (n.whole ++ (writeFraction n.fraction ++ (writeExponent n.exponent ++ rest))) =
      some (n, rest) := by
  have hends : EndsDigits (writeExponent n.exponent ++ rest) := by
    intro c hc
    rcases head_writeExponent n.exponent hr hc with rfl | rfl | rfl | rfl <;> rfl
  have hdot : (writeExponent n.exponent ++ rest).head? ≠ some '.' := by
    intro hc
    rcases head_writeExponent n.exponent hr hc with h | h | h | h <;> cases h
  simp only [unsigned?, whole?_whole h (endsDigits_writeFraction _ hends),
    fraction?_writeFraction h.fraction hends hdot, exponent?_writeExponent h.exponent hr,
    Option.bind_eq_bind, Option.bind_some]

theorem numeral?_writeNumeral {n : Numeral} (h : n.IsPlain) {rest : List Char}
    (hr : Closes rest) : numeral? (writeNumeral n ++ rest) = some (n, rest) := by
  have hread := unsigned?_write h hr
  obtain ⟨d, ds, hwhole⟩ := List.exists_cons_of_ne_nil h.nonempty
  have hdigit : d.isDigit = true := h.whole d (by simp [hwhole])
  have hminus : d ≠ '-' := ne_of_isDigit hdigit rfl
  rw [writeNumeral_eq]
  cases hsign : n.negative with
  | true => simpa [hsign, numeral?] using hread
  | false => simpa [hsign, hwhole, numeral?, hminus] using hread

/-- A numeral starts with its sign or a digit. -/
def StartsNumeral (c : Char) : Prop :=
  c = '-' ∨ c.isDigit = true

theorem StartsNumeral.ne {c other : Char} (h : StartsNumeral c) (hm : other ≠ '-')
    (hd : other.isDigit = false) : c ≠ other := by
  rcases h with rfl | h
  · exact hm.symm
  · exact ne_of_isDigit h hd

theorem head_writeNumeral {n : Numeral} (h : n.IsPlain) :
    ∃ c cs, writeNumeral n = c :: cs ∧ StartsNumeral c := by
  obtain ⟨d, ds, hwhole⟩ := List.exists_cons_of_ne_nil h.nonempty
  rw [writeNumeral_eq, hwhole]
  cases n.negative with
  | true => exact ⟨'-', _, rfl, .inl rfl⟩
  | false => exact ⟨d, _, rfl, .inr (h.whole d (by simp [hwhole]))⟩

/-! ### Values -/

/-- No blank is in front, and nothing that closes an array. -/
def Opens (cs : List Char) : Prop :=
  ∃ c rest, cs = c :: rest ∧ isBlank c = false ∧ c ≠ ']'

theorem Opens.skipBlanks_append {cs : List Char} (h : Opens cs) (rest : List Char) :
    skipBlanks (cs ++ rest) = cs ++ rest := by
  obtain ⟨c, cs, rfl, hblank, -⟩ := h
  simp [skipBlanks, hblank]

theorem opens_writeNumeral {n : Numeral} (h : n.IsPlain) : Opens (writeNumeral n) := by
  obtain ⟨c, cs, hwrite, hc⟩ := head_writeNumeral h
  have hspace : c ≠ ' ' := hc.ne (by decide) rfl
  have hnewline : c ≠ '\n' := hc.ne (by decide) rfl
  have htab : c ≠ '\t' := hc.ne (by decide) rfl
  have hreturn : c ≠ '\r' := hc.ne (by decide) rfl
  refine ⟨c, cs, hwrite, ?_, hc.ne (by decide) rfl⟩
  simp [isBlank, hspace, hnewline, htab, hreturn]

/-- What is written of a value is read as the value, whatever follows. -/
structure Reads (v : Json) : Prop where
  opens : Opens (write v)
  value : ∀ (fuel : Nat) (rest : List Char), (write v).length ≤ fuel → Closes rest →
    value? fuel (write v ++ rest) = some (v, rest)

section
variable {v : Json} {fuel : Nat}

theorem elements?_last (h : Reads v) (hfuel : (write v).length ≤ fuel) (rest : List Char) :
    elements? (fuel + 1) (write v ++ ']' :: rest) = some ([v], rest) := by
  rw [elements?, h.opens.skipBlanks_append, h.value fuel _ hfuel (closes_bracket rest)]
  rfl

theorem elements?_next (h : Reads v) (hfuel : (write v).length ≤ fuel) (rest : List Char) :
    elements? (fuel + 1) (write v ++ ',' :: rest) =
      (elements? fuel rest).map fun (vs, rest) => (v :: vs, rest) := by
  rw [elements?, h.opens.skipBlanks_append, h.value fuel _ hfuel (closes_comma rest)]
  rfl

end

theorem elements?_write {vs : List Json} (hvs : ∀ v ∈ vs, Reads v) {v : Json} (hv : Reads v)
    {fuel : Nat} (hfuel : (write v ++ writeElements vs).length ≤ fuel) (rest : List Char) :
    elements? fuel (write v ++ (writeElements vs ++ rest)) = some (v :: vs, rest) := by
  induction vs generalizing v fuel with
  | nil =>
    simp only [writeElements, List.length_append, List.length_cons, List.length_nil] at hfuel
    obtain ⟨fuel, rfl⟩ : ∃ f, fuel = f + 1 := ⟨fuel - 1, by omega⟩
    exact elements?_last hv (by omega) rest
  | cons u us ih =>
    obtain ⟨hu, hus⟩ := List.forall_mem_cons.mp hvs
    simp only [writeElements, List.length_append, List.cons_append, List.length_cons] at hfuel
    obtain ⟨fuel, rfl⟩ : ∃ f, fuel = f + 1 := ⟨fuel - 1, by omega⟩
    have hfits : (write u ++ writeElements us).length ≤ fuel := by
      rw [List.length_append]
      omega
    simp only [writeElements, List.cons_append, List.append_assoc]
    rw [elements?_next hv (by omega), ih hus hu hfits]
    rfl

theorem value?_elements (fuel : Nat) {cs : List Char} (h : Opens cs) (rest : List Char) :
    value? (fuel + 1) ('[' :: (cs ++ rest)) =
      (elements? fuel (cs ++ rest)).map fun (vs, rest) => (.array vs, rest) := by
  rw [value?, h.skipBlanks_append]
  obtain ⟨c, cs, rfl, -, hc⟩ := h
  split
  · rename_i heq
    exact absurd (List.cons.inj heq).1 hc
  · rfl

theorem reads_array {vs : List Json} (h : ∀ v ∈ vs, Reads v) : Reads (.array vs) where
  opens := by cases vs <;> exact ⟨'[', _, rfl, rfl, by decide⟩
  value fuel rest hfuel _ := by
    cases vs with
    | nil =>
      obtain ⟨fuel, rfl⟩ : ∃ f, fuel = f + 1 := ⟨fuel - 1, by simp [write] at hfuel; omega⟩
      rfl
    | cons v vs =>
      obtain ⟨hv, hvs⟩ := List.forall_mem_cons.mp h
      simp only [write, List.length_cons, List.cons_append] at hfuel
      obtain ⟨fuel, rfl⟩ : ∃ f, fuel = f + 1 := ⟨fuel - 1, by omega⟩
      have hread := elements?_write hvs hv (Nat.le_of_succ_le_succ hfuel) rest
      simp only [write, List.cons_append, List.append_assoc]
      rw [value?_elements fuel hv.opens, hread]
      rfl

theorem pieces?_writeString {key : List Piece} (h : ∀ p ∈ key, p.IsPlain) (rest : List Char) :
    ∃ cs, writeString key ++ rest = '"' :: cs ∧ pieces? cs = some (key, rest) :=
  ⟨_, by simp [writeString], pieces?_writePieces h rest⟩

section
variable {key : List Piece} {v : Json} {fuel : Nat}

/-- The value of a member is looked for behind its key. -/
theorem members?_value (hkey : ∀ p ∈ key, p.IsPlain) (h : Reads v)
    (hfuel : (write v).length ≤ fuel) {rest : List Char} (hr : Closes rest) :
    ∃ cs after, writeString key ++ ':' :: (write v ++ rest) = '"' :: cs ∧
      pieces? cs = some (key, ':' :: after) ∧ value? fuel (skipBlanks after) = some (v, rest) := by
  obtain ⟨cs, hstring, hread⟩ := pieces?_writeString hkey (':' :: (write v ++ rest))
  exact ⟨cs, _, hstring, hread, by rw [h.opens.skipBlanks_append, h.value fuel rest hfuel hr]⟩

theorem members?_last (hkey : ∀ p ∈ key, p.IsPlain) (h : Reads v)
    (hfuel : (write v).length ≤ fuel) (rest : List Char) :
    members? (fuel + 1) (writeString key ++ ':' :: (write v ++ '\x7d' :: rest)) =
      some ([(key, v)], rest) := by
  obtain ⟨cs, after, hstring, hread, hvalue⟩ := members?_value hkey h hfuel (closes_brace rest)
  have hquote : skipBlanks ('"' :: cs) = '"' :: cs := rfl
  have hcolon : skipBlanks (':' :: after) = ':' :: after := rfl
  have hbrace : skipBlanks ('\x7d' :: rest) = '\x7d' :: rest := rfl
  simp only [hstring, members?, hquote, hread, hcolon, hvalue, hbrace]

theorem members?_next (hkey : ∀ p ∈ key, p.IsPlain) (h : Reads v)
    (hfuel : (write v).length ≤ fuel) (rest : List Char) :
    members? (fuel + 1) (writeString key ++ ':' :: (write v ++ ',' :: rest)) =
      (members? fuel rest).map fun (ms, rest) => ((key, v) :: ms, rest) := by
  obtain ⟨cs, after, hstring, hread, hvalue⟩ := members?_value hkey h hfuel (closes_comma rest)
  have hquote : skipBlanks ('"' :: cs) = '"' :: cs := rfl
  have hcolon : skipBlanks (':' :: after) = ':' :: after := rfl
  have hcomma : skipBlanks (',' :: rest) = ',' :: rest := rfl
  simp only [hstring, members?, hquote, hread, hcolon, hvalue, hcomma]

end

theorem members?_write {ms : List (List Piece × Json)}
    (hms : ∀ m ∈ ms, (∀ p ∈ m.1, p.IsPlain) ∧ Reads m.2) {key : List Piece} {v : Json}
    (hkey : ∀ p ∈ key, p.IsPlain) (hv : Reads v) {fuel : Nat}
    (hfuel : (write v ++ writeMembers ms).length ≤ fuel) (rest : List Char) :
    members? fuel (writeString key ++ ':' :: (write v ++ (writeMembers ms ++ rest))) =
      some ((key, v) :: ms, rest) := by
  induction ms generalizing key v fuel with
  | nil =>
    simp only [writeMembers, List.length_append, List.length_cons, List.length_nil] at hfuel
    obtain ⟨fuel, rfl⟩ : ∃ f, fuel = f + 1 := ⟨fuel - 1, by omega⟩
    exact members?_last hkey hv (by omega) rest
  | cons m ms ih =>
    obtain ⟨next, u⟩ := m
    obtain ⟨⟨hnext, hu⟩, hms⟩ := List.forall_mem_cons.mp hms
    simp only [writeMembers, List.length_append, List.cons_append, List.length_cons] at hfuel
    obtain ⟨fuel, rfl⟩ : ∃ f, fuel = f + 1 := ⟨fuel - 1, by omega⟩
    have hfits : (write u ++ writeMembers ms).length ≤ fuel := by
      rw [List.length_append]
      omega
    simp only [writeMembers, List.cons_append, List.append_assoc]
    rw [members?_next hkey hv (by omega), ih hms hnext hu hfits]
    rfl

theorem reads_object {ms : List (List Piece × Json)}
    (h : ∀ m ∈ ms, (∀ p ∈ m.1, p.IsPlain) ∧ Reads m.2) : Reads (.object ms) where
  opens := by cases ms <;> exact ⟨'\x7b', _, rfl, rfl, by decide⟩
  value fuel rest hfuel _ := by
    cases ms with
    | nil =>
      obtain ⟨fuel, rfl⟩ : ∃ f, fuel = f + 1 := ⟨fuel - 1, by simp [write] at hfuel; omega⟩
      rfl
    | cons m ms =>
      obtain ⟨key, v⟩ := m
      obtain ⟨⟨hkey, hv⟩, hms⟩ := List.forall_mem_cons.mp h
      simp only [write, List.length_append, List.length_cons, List.cons_append] at hfuel
      obtain ⟨fuel, rfl⟩ : ∃ f, fuel = f + 1 := ⟨fuel - 1, by omega⟩
      have hfits : (write v ++ writeMembers ms).length ≤ fuel := by
        rw [List.length_append]
        omega
      have hread := members?_write hms hkey hv hfits rest
      obtain ⟨cs, hstring, -⟩ := pieces?_writeString hkey
        (':' :: (write v ++ (writeMembers ms ++ rest)))
      have hwrite : write (.object ((key, v) :: ms)) ++ rest = '\x7b' :: '"' :: cs := by
        rw [← hstring]
        simp [write]
      have hmembers : value? (fuel + 1) ('\x7b' :: '"' :: cs) =
          (members? fuel ('"' :: cs)).map fun (ms, rest) => (.object ms, rest) := rfl
      rw [hwrite, hmembers, ← hstring, hread]
      rfl

theorem reads_string {ps : List Piece} (h : ∀ p ∈ ps, p.IsPlain) : Reads (.string ps) where
  opens := ⟨'"', _, rfl, rfl, by decide⟩
  value fuel rest hfuel _ := by
    obtain ⟨cs, hstring, hread⟩ := pieces?_writeString h rest
    obtain ⟨fuel, rfl⟩ : ∃ f, fuel = f + 1 :=
      ⟨fuel - 1, by simp [write, writeString] at hfuel; omega⟩
    rw [write, hstring, value?, hread]
    rfl

theorem value?_of_numeral {n : Numeral} {c : Char} {cs rest : List Char} (hc : StartsNumeral c)
    (h : numeral? (c :: cs) = some (n, rest)) (fuel : Nat) :
    value? (fuel + 1) (c :: cs) = some (.number n, rest) := by
  have hn : c ≠ 'n' := hc.ne (by decide) rfl
  have ht : c ≠ 't' := hc.ne (by decide) rfl
  have hf : c ≠ 'f' := hc.ne (by decide) rfl
  have hscalar : scalar? (c :: cs) = some (.number n, rest) := by
    simp [scalar?, afterWord?, hn.symm, ht.symm, hf.symm, h]
  rw [value?, hscalar]
  -- Nor is it a quote or a bracket.
  all_goals
    rintro _ ⟨⟩
    exact hc.ne (by decide) rfl rfl

theorem reads_number {n : Numeral} (h : n.IsPlain) : Reads (.number n) where
  opens := opens_writeNumeral h
  value fuel rest hfuel hr := by
    have hread := numeral?_writeNumeral h hr
    obtain ⟨c, cs, hwrite, hc⟩ := head_writeNumeral h
    obtain ⟨fuel, rfl⟩ : ∃ f, fuel = f + 1 := ⟨fuel - 1, by simp [write, hwrite] at hfuel; omega⟩
    rw [hwrite] at hread
    rw [write, hwrite]
    exact value?_of_numeral hc hread fuel

theorem reads_null : Reads .null where
  opens := ⟨'n', _, rfl, rfl, by decide⟩
  value fuel rest hfuel _ := by
    cases fuel with
    | zero => cases hfuel
    | succ fuel => rfl

theorem reads_bool (b : Bool) : Reads (.bool b) where
  opens := by
    cases b with
    | true => exact ⟨'t', _, rfl, rfl, by decide⟩
    | false => exact ⟨'f', _, rfl, rfl, by decide⟩
  value fuel rest hfuel _ := by
    cases fuel with
    | zero => cases b <;> cases hfuel
    | succ fuel => cases b <;> rfl

/-! ### Plain trees -/

/-- A tree that has a text: its numerals and the pieces of its strings and keys are plain. -/
inductive IsPlain : Json → Prop where
  | null : IsPlain .null
  | bool (b : Bool) : IsPlain (.bool b)
  | number (n : Numeral) (plain : n.IsPlain) : IsPlain (.number n)
  | string (ps : List Piece) (plain : ∀ p ∈ ps, p.IsPlain) : IsPlain (.string ps)
  | array (vs : List Json) (elements : ∀ v ∈ vs, IsPlain v) : IsPlain (.array vs)
  | object (ms : List (List Piece × Json)) (keys : ∀ m ∈ ms, ∀ p ∈ m.1, p.IsPlain)
    (values : ∀ m ∈ ms, IsPlain m.2) : IsPlain (.object ms)

theorem IsPlain.reads {v : Json} (h : v.IsPlain) : Reads v := by
  induction h with
  | null => exact reads_null
  | bool b => exact reads_bool b
  | number n plain => exact reads_number plain
  | string ps plain => exact reads_string plain
  | array vs _ ih => exact reads_array ih
  | object ms keys _ ih => exact reads_object fun m hm => ⟨keys m hm, ih m hm⟩

/-- A plain tree is read back from its text. -/
theorem parse?_toText {v : Json} (h : v.IsPlain) : parse? (toText v) = some v := by
  have hread := h.reads.value (2 * (write v).length + 2) [] (by omega) (by intro c hc; cases hc)
  have hskip := h.reads.opens.skipBlanks_append []
  rw [List.append_nil] at hread hskip
  rw [parse?, toText, String.toList_ofList, parseChars?, hskip, hread]
  rfl

end Longbox.Json
