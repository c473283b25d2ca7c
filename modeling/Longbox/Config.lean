/-! Settings of the library. -/
namespace Longbox

structure DownloadConfig where
  downloadDir : String := "./downloads"
  maxConcurrentImages : UInt64 := 4
  disableVolumeDirs : Bool := false
  disableOneShotSuffix : Bool := false
  deriving DecidableEq, Repr

structure TagConfig where
  includeUnmatched : Bool := false
  skipTagsOnFailure : Bool := false
  deriving DecidableEq, Repr

structure Config where
  download : DownloadConfig := {}
  tags : TagConfig := {}
  deriving DecidableEq, Repr

namespace Config

def minConcurrentImages : Nat := 1

def maxConcurrentImages : Nat := 5

/-- How many pages of a chapter may be fetched at once: the setting, held between one and five. -/
def workers (c : Config) : Nat :=
  min maxConcurrentImages (max minConcurrentImages c.download.maxConcurrentImages.toNat)

end Config
end Longbox
