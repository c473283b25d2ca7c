import Longbox.Config
import Longbox.Error
import Longbox.Json.Reader
import Longbox.Json.Record

/-! Settings as JSON, and from a file. Every field may be missing and then has its default. -/
namespace Longbox

open Json (ofString ofWord text? bool? word? fields? optional?)

def DownloadConfig.toJson (c : DownloadConfig) : Json :=
  Json.record [("download_dir", ofString c.downloadDir),
    ("max_concurrent_images", ofWord c.maxConcurrentImages),
    ("disable_volume_dirs", .bool c.disableVolumeDirs),
    ("disable_one_shot_suffix", .bool c.disableOneShotSuffix)]

def DownloadConfig.ofJson? (v : Json) : Option DownloadConfig := do
  match ← fields? ["download_dir", "max_concurrent_images", "disable_volume_dirs",
      "disable_one_shot_suffix"] v with
  | [dir, images, volumeDirs, oneShotSuffix] =>
    let defaults : DownloadConfig := {}
    some {
      downloadDir := ← optional? text? defaults.downloadDir dir
      maxConcurrentImages := ← optional? word? defaults.maxConcurrentImages images
      disableVolumeDirs := ← optional? bool? defaults.disableVolumeDirs volumeDirs
      disableOneShotSuffix := ← optional? bool? defaults.disableOneShotSuffix oneShotSuffix }
  | _ => none

def TagConfig.toJson (c : TagConfig) : Json :=
  Json.record [("include_unmatched", .bool c.includeUnmatched),
    ("skip_tags_on_failure", .bool c.skipTagsOnFailure)]

def TagConfig.ofJson? (v : Json) : Option TagConfig := do
  match ← fields? ["include_unmatched", "skip_tags_on_failure"] v with
  | [unmatched, skip] =>
    some {
      includeUnmatched := ← optional? bool? false unmatched
      skipTagsOnFailure := ← optional? bool? false skip }
  | _ => none

namespace Config

def toJson (c : Config) : Json :=
  Json.record [("download", c.download.toJson), ("tags", c.tags.toJson)]

def ofJson? (v : Json) : Option Config := do
  match ← fields? ["download", "tags"] v with
  | [download, tags] =>
    some {
      download := ← optional? DownloadConfig.ofJson? {} download
      tags := ← optional? TagConfig.ofJson? {} tags }
  | _ => none

/-- There must be a place to download to. -/
def validate (c : Config) : Except Error Config :=
  if c.download.downloadDir.isEmpty then
    .error (.config "download directory must not be empty" (some "download_dir"))
  else .ok c

def load (d : Disk) (path : String) : Except Error Config :=
  match d.readText path with
  | .error fault => .error (.io fault)
  | .ok text =>
    match (Json.parse? text).bind ofJson? with
    | some c => c.validate
    | none => .error .serialization

end Config
end Longbox
