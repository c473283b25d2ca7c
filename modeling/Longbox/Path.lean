/-! Paths as texts.

A path is the text it was given as: nothing in it is normalised. `join` puts a second path behind
a first one; `fileName?` and `extension?` read the last component, skipping empty components and
single dots, so a slash at the end changes nothing. `isSame` tells by the same components whether two
texts are one path. -/
namespace Longbox.Path

def isAbsolute (path : String) : Bool :=
  path.toList.head? == some '/'

/-- The second path behind the first with one slash between them; an absolute path replaces the
first, and an empty one leaves a slash at the end. -/
def join (base path : String) : String :=
  if isAbsolute path then path
  else if base.toList.isEmpty || base.toList.getLast? == some '/' then base ++ path
  else base ++ "/" ++ path

/-- The pieces of a text between separators. -/
def splitChars (separator : Char) : List Char → List (List Char)
  | [] => [[]]
  | c :: rest =>
    if c == separator then [] :: splitChars separator rest
    else match splitChars separator rest with
      | [] => [[c]]
      | piece :: pieces => (c :: piece) :: pieces

/-- The components that name something: neither empty nor a single dot. -/
def components (path : List Char) : List (List Char) :=
  (splitChars '/' path).filter fun piece => !piece.isEmpty && piece != ['.']

def fileNameChars? (path : List Char) : Option (List Char) :=
  match (components path).getLast? with
  | some name => if name == ['.', '.'] then none else some name
  | none => none

/-- A name cut at its last dot, if it has one. -/
def cutAtLastDot? (name : List Char) : Option (List Char × List Char) :=
  match name.reverse.dropWhile (· != '.') with
  | [] => none
  | _ :: stem => some (stem.reverse, (name.reverse.takeWhile (· != '.')).reverse)

/-- What follows the last dot of the file name; a dot in front of the name does not count. -/
def extensionChars? (path : List Char) : Option (List Char) := do
  let name ← fileNameChars? path
  let (stem, extension) ← cutAtLastDot? name
  if stem.isEmpty then none else some extension

def startsWithDot (path : String) : Bool :=
  (splitChars '/' path.toList).head? == some ['.']

/-- Two texts are one path: slashes at the end, doubled slashes and single dots make no difference,
except that a dot in front does. -/
def isSame (a b : String) : Bool :=
  isAbsolute a == isAbsolute b && startsWithDot a == startsWithDot b &&
    components a.toList == components b.toList

theorem isSame_iff {a b : String} :
    isSame a b = true ↔ isAbsolute a = isAbsolute b ∧ startsWithDot a = startsWithDot b ∧
      components a.toList = components b.toList := by
  simp only [isSame, Bool.and_eq_true, beq_iff_eq, and_assoc]

theorem isSame_refl (path : String) : isSame path path = true :=
  isSame_iff.mpr ⟨rfl, rfl, rfl⟩

theorem isSame_congr_left {a b : String} (h : isSame a b = true) (path : String) :
    isSame a path = isSame b path := by
  obtain ⟨habsolute, hdot, hcomponents⟩ := isSame_iff.mp h
  unfold isSame
  rw [habsolute, hdot, hcomponents]

theorem isSame_comm (a b : String) : isSame a b = isSame b a := by
  rw [Bool.eq_iff_iff, isSame_iff, isSame_iff, eq_comm, @eq_comm _ (startsWithDot a),
    @eq_comm _ (components a.toList)]

theorem isSame_congr_right {a b : String} (h : isSame a b = true) (path : String) :
    isSame path a = isSame path b := by
  rw [isSame_comm path, isSame_congr_left h, isSame_comm b]

def fileName? (path : String) : Option String :=
  (fileNameChars? path.toList).map String.ofList

def extension? (path : String) : Option String :=
  (extensionChars? path.toList).map String.ofList

end Longbox.Path
