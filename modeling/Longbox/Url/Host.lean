import Longbox.Text.Digit
import Longbox.Url.Domain

/-! Hosts of addresses: domain names and numeric addresses.

Only whether a host is well formed matters here, and which rule it breaks. -/
namespace Longbox

/-- The rule that a text breaks as an address. -/
inductive UrlError where
  | emptyHost
  | invalidDomain
  | invalidPort
  | invalidIpv4
  | invalidIpv6
  | invalidHostCharacter
  | relativeWithoutBase
  deriving DecidableEq, Repr

def UrlError.message : UrlError → String
  | emptyHost => "empty host"
  | invalidDomain => "invalid international domain name"
  | invalidPort => "invalid port number"
  | invalidIpv4 => "invalid IPv4 address"
  | invalidIpv6 => "invalid IPv6 address"
  | invalidHostCharacter => "invalid domain character"
  | relativeWithoutBase => "relative URL without a base"

namespace Url

open Text (hexValue? isHex natOfDigits natOfHex)

/-! ### Numbers of four parts -/

/-- What a part of a numeric host is. -/
inductive HostNumber where
  | value (n : Nat)
  | tooLarge
  | noNumber
  deriving DecidableEq, Repr

def boundedNumber (valid : Bool) (n : Nat) : HostNumber :=
  if !valid then .noNumber else if n < 0x100000000 then .value n else .tooLarge

/-- A part is hexadecimal behind `0x`, octal behind a zero, else decimal. -/
def hostNumber : List Char → HostNumber
  | [] => .noNumber
  | ['0', 'x'] | ['0', 'X'] => .value 0
  | '0' :: 'x' :: digits | '0' :: 'X' :: digits => boundedNumber (digits.all isHex) (natOfHex digits)
  | '0' :: c :: digits =>
    boundedNumber ((c :: digits).all fun d => '0' ≤ d && d ≤ '7')
      ((c :: digits).foldl (fun n d => n * 8 + (d.toNat - 48)) 0)
  | digits => boundedNumber (digits.all Char.isDigit) (natOfDigits digits)

/-- The parts of a host; a dot at its end does not count. -/
def hostParts (cs : List Char) : List (List Char) :=
  let parts := Path.splitChars '.' cs
  if parts.getLast? == some [] then parts.dropLast else parts

/-- A host whose last part is a number is to be read as an address of four bytes. -/
def endsInNumber (cs : List Char) : Bool :=
  match (hostParts cs).getLast? with
  | none => false
  | some last => (!last.isEmpty && last.all Char.isDigit) || hostNumber last != .noNumber

/-- All parts but the last are bytes; the last fills the bytes that are left. -/
def isIpv4 (cs : List Char) : Bool :=
  let parts := (hostParts cs).map hostNumber
  let isByte : HostNumber → Bool
    | .value n => decide (n < 256)
    | _ => false
  match parts.getLast? with
  | some (.value last) =>
    decide (parts.length ≤ 4) && parts.dropLast.all isByte &&
      decide (last < Nat.pow 256 (5 - parts.length))
  | _ => false

/-! ### Groups of sixteen bits -/

def isDottedByte (cs : List Char) : Bool :=
  !cs.isEmpty && cs.all Char.isDigit && (cs.length == 1 || cs.head? != some '0') &&
    decide (cs.length ≤ 3) && decide (natOfDigits cs < 256)

/-- Four bytes in decimal, in the place of the last two groups. -/
def isDottedQuad (cs : List Char) : Bool :=
  let parts := Path.splitChars '.' cs
  parts.length == 4 && parts.all isDottedByte

def isGroup (cs : List Char) : Bool :=
  !cs.isEmpty && cs.all isHex && decide (cs.length ≤ 4)

/-- How many groups a text between double colons is; the last may be two in decimal. -/
def groupCount? (cs : List Char) (quadAllowed : Bool) : Option Nat :=
  if cs.isEmpty then some 0
  else
    let groups := Path.splitChars ':' cs
    match groups.getLast? with
    | none => none
    | some last =>
      if !groups.dropLast.all isGroup then none
      else if isGroup last then some groups.length
      else if quadAllowed && isDottedQuad last then some (groups.length + 1)
      else none

/-- The text in front of the first double colon and behind it. -/
def cutAtDoubleColon? : List Char → Option (List Char × List Char)
  | ':' :: ':' :: rest => some ([], rest)
  | c :: rest => (cutAtDoubleColon? rest).map fun (front, back) => (c :: front, back)
  | [] => none

/-- Eight groups, or fewer with a double colon in the place of the others. -/
def isIpv6 (cs : List Char) : Bool :=
  match cutAtDoubleColon? cs with
  | none => groupCount? cs true == some 8
  | some (front, back) =>
    match groupCount? front false, groupCount? back true with
    | some a, some b => decide (a + b ≤ 7)
    | _, _ => false

/-! ### Hosts -/

/-- Bytes with `%` and two hexadecimal digits decoded. -/
def percentDecode : List UInt8 → List UInt8
  | 37 :: a :: b :: rest =>
    match hexValue? (Char.ofNat a.toNat), hexValue? (Char.ofNat b.toNat) with
    | some x, some y => UInt8.ofNat (x * 16 + y) :: percentDecode rest
    | _, _ => 37 :: percentDecode (a :: b :: rest)
  | c :: rest => c :: percentDecode rest
  | [] => []

def decodedHost? (cs : List Char) : Option (List Char) :=
  let bytes := percentDecode (String.ofList cs).toUTF8.toList
  (String.fromUTF8? (ByteArray.mk bytes.toArray)).map String.toList

def checkBracketed (cs : List Char) : Except UrlError Unit :=
  if cs.getLast? == some ']' && isIpv6 (cs.drop 1).dropLast then .ok () else .error .invalidIpv6

/-- The host of an address of a scheme with a meaning of its own. -/
def checkHost (cs : List Char) : Except UrlError Unit :=
  if cs.head? == some '[' then checkBracketed cs
  else match (decodedHost? cs).bind domain? with
    | none => .error .invalidDomain
    | some [] => .error .emptyHost
    | some name => if endsInNumber name && !isIpv4 name then .error .invalidIpv4 else .ok ()

def isForbiddenInHost (c : Char) : Bool :=
  c.toNat == 0 || "\t\n\r #/:<>?@[\\]^|".toList.contains c

/-- The host of any other address. -/
def checkOpaqueHost (cs : List Char) : Except UrlError Unit :=
  if cs.head? == some '[' then checkBracketed cs
  else if cs.any isForbiddenInHost then .error .invalidHostCharacter
  else .ok ()

end Url
end Longbox
