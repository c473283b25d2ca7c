/-! Tokens of an XML document.

Markup begins at `<`. A tag ends at the first `>` outside quotes, a comment at `-->`, verbatim text
at `]]>`, a document type at a `>` that balances every `<` in it, an instruction at the first `>`.
Where no token can be read, the row of tokens ends in `malformed`. -/
namespace Longbox.Xml

inductive Token where
  /-- Text with references. -/
  | text (raw : List Char)
  | verbatim (raw : List Char)
  /-- Comments, instructions, declarations and document types. -/
  | aside
  | opening (name attributes : List Char)
  | closing (name : List Char)
  | malformed
  deriving DecidableEq, Repr

def isBlank (c : Char) : Bool :=
  c == ' ' || c == '\t' || c == '\r' || c == '\n'

/-- Cuts at the first `>` that the test accepts by the text in front of it, which it sees in
reverse. -/
def cutAt? (accepts : List Char → Bool) (before : List Char) :
    List Char → Option (List Char × List Char)
  | [] => none
  | c :: rest =>
    if c == '>' && accepts before then some (before.reverse, rest)
    else cutAt? accepts (c :: before) rest

theorem length_cutAt? {accepts : List Char → Bool} {before cs content rest : List Char}
    (h : cutAt? accepts before cs = some (content, rest)) : rest.length < cs.length := by
  induction cs generalizing before with
  | nil => simp [cutAt?] at h
  | cons c cs ih =>
    rw [cutAt?] at h
    split at h
    · simp only [Option.some.injEq, Prod.mk.injEq] at h
      simp [← h.2]
    · simp only [List.length_cons]
      have := ih h
      omega

/-- A quote is open at the end of a text. -/
def openQuote : Option Char → List Char → Option Char
  | quote, [] => quote
  | some q, c :: rest => openQuote (if c == q then none else some q) rest
  | none, c :: rest => openQuote (if c == '"' || c == '\'' then some c else none) rest

def endsTag (before : List Char) : Bool :=
  (openQuote none before.reverse).isNone

/-- The two dashes at the end are not those at the beginning. -/
def endsComment (before : List Char) : Bool :=
  decide (4 < before.length) && before.take 2 == ['-', '-']

def endsVerbatim (before : List Char) : Bool :=
  before.take 2 == [']', ']']

def endsDoctype (before : List Char) : Bool :=
  before.count '<' == before.count '>'

/-- A text begins with a label in any mixture of capitals and small letters. -/
def hasLabel (label : String) (cs : List Char) : Bool :=
  (cs.take label.length).map Char.toUpper == label.toList

def verbatimLabel : String := "![CDATA["

def doctypeLabel : String := "!DOCTYPE"

def verbatimToken (content : List Char) : Token :=
  if hasLabel verbatimLabel content then
    .verbatim ((content.drop verbatimLabel.length).take (content.length - verbatimLabel.length - 2))
  else .malformed

def doctypeToken (content : List Char) : Token :=
  if hasLabel doctypeLabel content && (content.drop doctypeLabel.length).any (!isBlank ·) then .aside
  else .malformed

def instructionToken (content : List Char) : Token :=
  if 2 < content.length && content.getLast? == some '?' then .aside else .malformed

/-- Blanks behind the name of an end tag do not count. -/
def closingToken (content : List Char) : Token :=
  .closing ((content.drop 1).reverse.dropWhile isBlank).reverse

def openingToken (content : List Char) : Token :=
  .opening (content.takeWhile (!isBlank ·)) (content.dropWhile (!isBlank ·))

/-- A tag that ends in a slash opens an element and closes it. -/
def tagTokens (content : List Char) : List Token :=
  if content.getLast? == some '/' then
    match openingToken content.dropLast with
    | .opening name attributes => [.opening name attributes, .closing name]
    | token => [token]
  else [openingToken content]

/-- The tokens of the markup behind a `<`, and what follows it. -/
def markup? (cs : List Char) : Option (List Token × List Char) :=
  match cs with
  | '!' :: '-' :: '-' :: _ => (cutAt? endsComment [] cs).map fun (_, rest) => ([.aside], rest)
  | '!' :: '[' :: _ =>
    (cutAt? endsVerbatim [] cs).map fun (content, rest) => ([verbatimToken content], rest)
  | '!' :: 'D' :: _ | '!' :: 'd' :: _ =>
    (cutAt? endsDoctype [] cs).map fun (content, rest) => ([doctypeToken content], rest)
  | '!' :: _ => none
  | '/' :: _ =>
    some (match cutAt? (fun _ => true) [] cs with
      | some (content, rest) => ([closingToken content], rest)
      | none => ([closingToken cs], []))
  | '?' :: _ =>
    (cutAt? (fun _ => true) [] cs).map fun (content, rest) => ([instructionToken content], rest)
  | _ => (cutAt? endsTag [] cs).map fun (content, rest) => (tagTokens content, rest)

theorem length_markup? {cs rest : List Char} {tokens : List Token}
    (h : markup? cs = some (tokens, rest)) : rest.length ≤ cs.length := by
  have cut {accepts : List Char → Bool} {f : List Char × List Char → List Token × List Char}
      (hf : ∀ p, (f p).2 = p.2) (h : (cutAt? accepts [] cs).map f = some (tokens, rest)) :
      rest.length ≤ cs.length := by
    obtain ⟨⟨content, behind⟩, hp, he⟩ := Option.map_eq_some_iff.1 h
    have : rest = behind := by simpa [he] using hf (content, behind)
    rw [this]
    exact Nat.le_of_lt (length_cutAt? hp)
  unfold markup? at h
  split at h
  · exact cut (fun _ => rfl) h
  · exact cut (fun _ => rfl) h
  · exact cut (fun _ => rfl) h
  · exact cut (fun _ => rfl) h
  · simp at h
  · split at h
    · rename_i content rest' hc
      simp only [Option.some.injEq, Prod.mk.injEq] at h
      rw [← h.2]
      exact Nat.le_of_lt (length_cutAt? hc)
    · simp only [Option.some.injEq, Prod.mk.injEq] at h
      simp [← h.2]
  · exact cut (fun _ => rfl) h
  · exact cut (fun _ => rfl) h

def tokens (cs : List Char) : List Token :=
  match cs with
  | [] => []
  | '<' :: rest =>
    match _h : markup? rest with
    | some (found, behind) => found ++ tokens behind
    | none => [.malformed]
  | c :: rest =>
    .text (c :: rest.takeWhile (· != '<')) :: tokens (rest.dropWhile (· != '<'))
  termination_by cs.length
  decreasing_by
    · have := length_markup? _h
      simp only [List.length_cons]
      omega
    · have := (List.dropWhile_sublist (· != '<') (l := rest)).length_le
      simp only [List.length_cons]
      omega

end Longbox.Xml
