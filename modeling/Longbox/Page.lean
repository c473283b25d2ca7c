import Longbox.Disk.Change
import Longbox.Error
import Longbox.Url

/-! Pages of a chapter and the files that they are kept in.

A page's file is named by its number in the chapter and by the extension of its address's path, if
the address is well formed and the extension short. -/
namespace Longbox

/-- A page to fetch; pages are counted from one. -/
structure PageTask where
  index : Nat
  url : String
  deriving DecidableEq, Repr

/-- A page on its way to the directory of its chapter. -/
structure FetchedPage where
  dir : String
  task : PageTask
  bytes : ByteArray
  deriving DecidableEq

namespace Page

def defaultExtension : List Char := ['j', 'p', 'g']

def maxExtensionBytes : Nat := 5

def isUsableExtension (extension : List Char) : Bool :=
  !extension.isEmpty && decide ((String.ofList extension).utf8ByteSize ≤ maxExtensionBytes)

def extension (url : String) : List Char :=
  match Url.parse url with
  | .error _ => defaultExtension
  | .ok address =>
    match Path.extensionChars? address.path with
    | some e => if isUsableExtension e then e.map Char.toLower else defaultExtension
    | none => defaultExtension

def indexWidth : Nat := 4

def paddedIndex (index : Nat) : List Char :=
  let digits := Nat.toDigits 10 index
  List.replicate (indexWidth - digits.length) '0' ++ digits

def fileName (task : PageTask) : String :=
  String.ofList ("page ".toList ++ paddedIndex task.index ++ '.' :: extension task.url)

def path (dir : String) (task : PageTask) : String :=
  Path.join dir (fileName task)

/-- Where a page's file comes to stand. -/
def target (d : Disk) (page : FetchedPage) : Except Error Place :=
  match d.writable (path page.dir page.task) with
  | .ok place => .ok place
  | .error fault => .error (.persistence (path page.dir page.task) fault.message)

/-- Writes a page to its file, in place of what the file held before. -/
def store (d : Disk) (page : FetchedPage) : Except Error Disk :=
  (target d page).map fun place => d.put place (.file page.bytes)

/-- Why an address is refused before anything is fetched: it is none, or not one of the web. -/
def refusal? (url : String) : Option Error :=
  match Url.parse url with
  | .error e => some (.transport ("invalid page url '" ++ url ++ "': " ++ e.message))
  | .ok address =>
    if address.scheme == "http".toList || address.scheme == "https".toList then none
    else some (.transport ("unsupported scheme '" ++ String.ofList address.scheme ++
      "' in page url '" ++ url ++ "'"))

end Page
end Longbox
