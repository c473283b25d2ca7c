import Longbox.Url.Host

/-! Absolute addresses (URLs): whether a text is one, its scheme, and its path.

A text is read as browsers do: blanks and control characters around it and line breaks in it do not
count, the scheme ends at the first colon, and behind the host comes the path, whose dot segments
are resolved. In addresses of the schemes with a meaning of their own (`http`, `ftp`, `file` and
others) a backslash is a slash and there must be a host. -/
namespace Longbox

structure Url where
  scheme : List Char
  path : List Char
  deriving DecidableEq, Repr

namespace Url

/-- How an address of a scheme is read. -/
inductive SchemeKind where
  | file
  | special
  | other
  deriving DecidableEq, Repr

def specialSchemes : List (List Char) :=
  ["http".toList, "https".toList, "ws".toList, "wss".toList, "ftp".toList]

def SchemeKind.ofScheme (scheme : List Char) : SchemeKind :=
  if scheme == "file".toList then .file
  else if specialSchemes.contains scheme then .special
  else .other

def SchemeKind.isSlash (k : SchemeKind) (c : Char) : Bool :=
  c == '/' || (c == '\\' && k != .other)

/-! ### Paths -/

def hexUpper (n : Nat) : Char :=
  if n < 10 then Char.ofNat (48 + n) else Char.ofNat (55 + n)

def percentByte (b : UInt8) : List Char :=
  ['%', hexUpper (b.toNat / 16), hexUpper (b.toNat % 16)]

def percentChar (c : Char) : List Char :=
  (String.singleton c).toUTF8.toList.flatMap percentByte

def isControl (c : Char) : Bool :=
  decide (c.toNat < 0x20) || decide (0x7F ≤ c.toNat)

/-- Characters that a path shows by their bytes. -/
def isEncodedInPath (c : Char) : Bool :=
  isControl c || " \"#<>?`\x7b\x7d".toList.contains c

def encodePath (cs : List Char) : List Char :=
  cs.flatMap fun c => if isEncodedInPath c then percentChar c else [c]

def encodeOpaque (cs : List Char) : List Char :=
  cs.flatMap fun c => if isControl c then percentChar c else [c]

/-- A segment with its encoded dots read, in small letters. -/
def plainDots : List Char → List Char
  | '%' :: '2' :: c :: rest =>
    if c == 'e' || c == 'E' then '.' :: plainDots rest else '%' :: '2' :: c :: plainDots rest
  | c :: rest => c :: plainDots rest
  | [] => []

def isDriveLetter : List Char → Bool
  | [c, d] => c.isAlpha && (d == ':' || d == '|')
  | _ => false

/-- The segments without the last one; the drive of a file stays. -/
def dropSegment (k : SchemeKind) (segments : List (List Char)) : List (List Char) :=
  match k, segments with
  | .file, [drive] => if isDriveLetter drive then [drive] else []
  | _, _ => segments.dropLast

/-- Takes a segment behind those read so far; `isLast` if no slash comes behind it. -/
def addSegment (k : SchemeKind) (segments : List (List Char)) (segment : List Char)
    (isLast : Bool) : List (List Char) :=
  let plain := plainDots segment
  if plain == ['.', '.'] then dropSegment k segments ++ if isLast then [[]] else []
  else if plain == ['.'] then segments ++ if isLast then [[]] else []
  else if k == .file && segments.isEmpty && isDriveLetter segment then
    [segment.take 1 ++ [':']]
  else segments ++ [segment]

def resolveSegments (k : SchemeKind) (segments : List (List Char)) :
    List (List Char) → List (List Char)
  | [] => segments
  | [last] => addSegment k segments last true
  | segment :: rest => resolveSegments k (addSegment k segments segment false) rest

/-- The pieces of a text between slashes. -/
def splitSlashes (k : SchemeKind) (cs : List Char) : List (List Char) :=
  Path.splitChars '/' (cs.map fun c => if k.isSlash c then '/' else c)

/-- In the path of a file a drive ends its segment. -/
def splitDrive (k : SchemeKind) : List (List Char) → List (List Char)
  | (c :: ':' :: d :: rest) :: pieces =>
    if k == .file && c.isAlpha then [c, ':'] :: (d :: rest) :: pieces
    else (c :: ':' :: d :: rest) :: pieces
  | pieces => pieces

/-- The empty segments in front of a file's path do not count. -/
def trimFile (k : SchemeKind) (segments : List (List Char)) : List (List Char) :=
  if k == .file then
    match segments.dropWhile List.isEmpty with
    | [] => [[]]
    | rest => rest
  else segments

/-- The path that a text behind the first slash stands for. -/
def absolutePath (k : SchemeKind) (cs : List Char) : List Char :=
  let pieces := (splitDrive k (splitSlashes k cs)).map encodePath
  let segments := trimFile k (resolveSegments k [] pieces)
  '/' :: List.intercalate ['/'] segments

/-! ### The parts of an address -/

def isTrimmed (c : Char) : Bool :=
  decide (c.toNat ≤ 0x20)

def isDropped (c : Char) : Bool :=
  c == '\t' || c == '\n' || c == '\r'

/-- The text without what does not count. -/
def clean (cs : List Char) : List Char :=
  (((cs.dropWhile isTrimmed).reverse.dropWhile isTrimmed).reverse).filter fun c => !isDropped c

def isSchemeChar (c : Char) : Bool :=
  c.isAlphanum || c == '+' || c == '-' || c == '.'

/-- The scheme in small letters, and what follows the colon. -/
def scheme? (cs : List Char) : Option (List Char × List Char) :=
  let scheme := cs.takeWhile isSchemeChar
  match scheme.head?, cs.drop scheme.length with
  | some c, ':' :: rest => if c.isAlpha then some (scheme.map Char.toLower, rest) else none
  | _, _ => none

def isQueryMark (c : Char) : Bool :=
  c == '?' || c == '#'

/-- What belongs to the path: all up to the query or the fragment. -/
def beforeQuery (cs : List Char) : List Char :=
  cs.takeWhile fun c => !isQueryMark c

/-- The authority: all up to the path, the query or the fragment. -/
def splitAuthority (k : SchemeKind) (cs : List Char) : List Char × List Char :=
  let isInside (c : Char) : Bool := !(k.isSlash c || isQueryMark c)
  (cs.takeWhile isInside, cs.dropWhile isInside)

/-- The part of an authority in front of the last at sign, if there is one, and the part behind. -/
def splitUser (authority : List Char) : Option (List Char) × List Char :=
  if authority.contains '@' then
    let host := (authority.reverse.takeWhile (· != '@')).reverse
    (some (authority.take (authority.length - host.length - 1)), host)
  else (none, authority)

/-- The host and, behind the first colon outside brackets, the port. -/
def splitPort (inBrackets : Bool) : List Char → List Char × Option (List Char)
  | [] => ([], none)
  | c :: rest =>
    if c == ':' && !inBrackets then ([], some rest)
    else
      let inBrackets := if c == '[' then true else if c == ']' then false else inBrackets
      let (host, port) := splitPort inBrackets rest
      (c :: host, port)

def maxPort : Nat := 65535

/-- A port is digits up to 65535; a backslash ends it in any address. -/
def checkPort (cs : List Char) : Except UrlError Unit :=
  let digits := cs.takeWhile (· != '\\')
  if digits.all Char.isDigit && Text.natOfDigits digits ≤ maxPort then .ok ()
  else .error .invalidPort

/-- A user or a password is given. -/
def namesUser (user : Option (List Char)) : Bool :=
  user.isSome && user != some [] && user != some [':']

/-- Checks the host and then the port. A host may be missing in an address of no special scheme if
neither user nor port is given; `atEnd` if nothing comes behind the authority. -/
def checkAuthority (k : SchemeKind) (authority : List Char) (atEnd : Bool) :
    Except UrlError Unit :=
  let (user, hostPort) := splitUser authority
  let (host, port) := splitPort false hostPort
  let needsHost := k == .special || port.isSome || namesUser user || (user == some [] && !atEnd)
  if host.isEmpty && needsHost then .error .emptyHost
  else do
    if k == .special then checkHost host else checkOpaqueHost host
    match port with
    | some digits => checkPort digits
    | none => .ok ()

/-- An address with an authority, its text given from there on. -/
def withAuthority (k : SchemeKind) (scheme cs : List Char) : Except UrlError Url := do
  let (authority, rest) := splitAuthority k cs
  checkAuthority k authority rest.isEmpty
  let path := beforeQuery rest
  match k, path with
  | .special, [] => .ok ⟨scheme, ['/']⟩
  | _, [] => .ok ⟨scheme, []⟩
  | _, _ :: path => .ok ⟨scheme, absolutePath k path⟩

/-- An address without an authority. -/
def withoutAuthority (scheme cs : List Char) : Url :=
  match beforeQuery cs with
  | '/' :: path => ⟨scheme, absolutePath .other path⟩
  | path => ⟨scheme, encodeOpaque path⟩

/-- The address of a file: the host may be missing, and a drive is none. -/
def ofFile (scheme cs : List Char) : Except UrlError Url := do
  let k := SchemeKind.file
  match cs with
  | a :: b :: rest =>
    if k.isSlash a && k.isSlash b then
      let (host, path) := splitAuthority k rest
      if isDriveLetter host then .ok ⟨scheme, absolutePath k (beforeQuery rest)⟩
      else
        if !host.isEmpty then checkHost host
        .ok ⟨scheme, absolutePath k ((beforeQuery path).drop 1)⟩
    else if k.isSlash a then .ok ⟨scheme, absolutePath k (beforeQuery (b :: rest))⟩
    else .ok ⟨scheme, absolutePath k (beforeQuery cs)⟩
  | _ => .ok ⟨scheme, absolutePath k ((beforeQuery cs).dropWhile k.isSlash)⟩

def parseChars (cs : List Char) : Except UrlError Url :=
  match scheme? (clean cs) with
  | none => .error .relativeWithoutBase
  | some (scheme, rest) =>
    match SchemeKind.ofScheme scheme, rest with
    | .file, rest => ofFile scheme rest
    | .special, rest => withAuthority .special scheme (rest.dropWhile SchemeKind.special.isSlash)
    | .other, '/' :: '/' :: rest => withAuthority .other scheme rest
    | .other, rest => .ok (withoutAuthority scheme rest)

def parse (text : String) : Except UrlError Url :=
  parseChars text.toList

end Url
end Longbox
