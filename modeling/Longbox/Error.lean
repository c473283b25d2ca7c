import Longbox.Disk
import Longbox.Lifecycle

/-! What can go wrong, and how it is told. -/
namespace Longbox

inductive DownloadError where
  /-- A page failed on both attempts. -/
  | pageFailed (index : Nat) (url reason : String)
  | directoryFailed (path reason : String)
  | unexpectedStatus (status : Nat) (url : String)
  deriving DecidableEq, Repr

def DownloadError.message : DownloadError → String
  | pageFailed _ url reason => "final download failed on url " ++ url ++ "; " ++ reason
  | directoryFailed path reason => "unable to create chapter directory " ++ path ++ ": " ++ reason
  | unexpectedStatus status url => "unexpected status " ++ toString status ++ " for " ++ url

inductive Error where
  /-- The caller asked to stop; never reported as a failure. -/
  | cancelled
  | download (cause : DownloadError)
  | persistence (path message : String)
  | transport (message : String)
  | io (fault : Fault)
  /-- The file is no archive that can be read. -/
  | archive
  /-- The metadata inside an archive is malformed. -/
  | xml
  | serialization
  | config (message : String) (key : Option String)
  | invalidState (operation : String) (state : Lifecycle)
  | provider (message : String)
  | other (message : String)
  deriving DecidableEq, Repr

namespace Error

def isCancelled : Error → Bool
  | cancelled => true
  | _ => false

def message : Error → String
  | cancelled => "download cancelled"
  | download cause => "download error: " ++ cause.message
  | persistence path message => "unable to run task '" ++ path ++ "': " ++ message
  | transport message => "transport error: " ++ message
  | io fault => "I/O error: " ++ fault.message
  | archive => "archive error: not a readable archive"
  | xml => "XML error: malformed document"
  | serialization => "serialization error: unexpected JSON"
  | config message _ => "configuration error: " ++ message
  | invalidState operation state =>
    "cannot " ++ operation ++ " while session is " ++ state.name
  | provider message => "provider error: " ++ message
  | other message => message

end Error
end Longbox
