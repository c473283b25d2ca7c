import Longbox.Path
import Longbox.Text.Lowercase
import Longbox.Url.DomainTable
import Longbox.Url.Punycode

/-! Domain names as hosts of addresses.

A name is brought to its common spelling first: small letters, plain dots and digits, nothing
ignorable. Then every label must be allowed as it stands or, behind the mark `xn--`, once decoded,
and no character with a meaning in addresses may occur. -/
namespace Longbox.Url

/-- ASCII characters that no domain has. -/
def isForbiddenInDomain (c : Char) : Bool :=
  c.toNat ≤ 0x20 || c.toNat == 0x7F || "%#/:<>?@[\\]^|".toList.contains c

/-- The common spelling of a character: none of an ignorable one, nothing for a disallowed one. -/
def foldDomainChar? (c : Char) : Option (List Char) :=
  if c.toNat < 0x80 then some [c.toLower]
  else if isWithin ignoredRanges c then some []
  else if isWithin disallowedRanges c then none
  else if c.toNat == 0x3002 || c.toNat == 0xFF61 then some ['.']
  else if 0xFF01 ≤ c.toNat && c.toNat ≤ 0xFF5E then
    some [(Char.ofNat (c.toNat - 0xFEE0)).toLower]
  else some (Text.lowercase c)

def encodedMark : List Char := ['x', 'n', '-', '-']

/-- A decoded label stands for characters beyond ASCII, each in its common spelling. -/
def isDecodedLabel (label : List Char) : Bool :=
  label.any (fun c => decide (0x80 ≤ c.toNat)) &&
    label.all fun c => foldDomainChar? c == some [c] && !isForbiddenInDomain c

def isDomainLabel (label : List Char) : Bool :=
  if encodedMark.isPrefixOf label then
    match Punycode.decode? (label.drop encodedMark.length) with
    | some decoded => isDecodedLabel decoded
    | none => false
  else true

/-- The common spelling of a domain name, if it is one. -/
def domain? (cs : List Char) : Option (List Char) := do
  let folded := (← cs.mapM foldDomainChar?).flatten
  if (Path.splitChars '.' folded).all isDomainLabel && !folded.any isForbiddenInDomain then
    some folded
  else none

end Longbox.Url
