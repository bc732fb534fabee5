/-
# Where a completed file is archived

`file_pipeline.rs` derives two paths for a completed file: one for its bytes, from its
receiver, time, office, family, checksum and name, and one for the sidecar with its metadata,
by changing the extension of the first.  Nothing in them tells one delivery of a product from
another.
-/
import Emwin.Lib.Chrono
import Emwin.Lib.Text
import Emwin.Persist.Worker

namespace Live

open Calendar Chrono Persist

/-! ## Checksums -/

/-- Take one byte into a CRC-32. -/
def crc32Byte (crc : UInt32) (byte : UInt8) : UInt32 :=
  (List.range 8).foldl
    (fun crc _ => if crc &&& 1 = 1 then (crc >>> 1) ^^^ 0xEDB88320 else crc >>> 1)
    (crc ^^^ byte.toUInt32)

/-- The CRC-32 of some bytes. -/
def crc32 (data : List UInt8) : UInt32 := data.foldl crc32Byte 0xFFFFFFFF ^^^ 0xFFFFFFFF

/-- `crc32_hex`. -/
def crc32Hex (data : List UInt8) : Str :=
  let digits := Nat.toDigits 16 (crc32 data).toNat
  List.replicate (8 - digits.length) '0' ++ digits

example : crc32Hex "payload".toUTF8.toList = "422c6a15".toList := by decide +kernel

/-! ## Paths -/

/-- The last component of a relative path: not the empty ones, not `.`, and never `..`. -/
def fileName (path : Str) : Option Str :=
  match ((path.splitOn '/').filter fun c => c ≠ [] ∧ c ≠ ['.']).getLast? with
  | some ['.', '.'] => none
  | file => file

/-- The stem and the extension of a file name; a dot in front does not begin an extension. -/
def splitFileAtDot (file : Str) : Str × Option Str :=
  match Str.rsplitOnce '.' file with
  | some (stem, extension) => if stem = [] then (file, none) else (stem, some extension)
  | none => (file, none)

/-- `Path::extension`. -/
def extension (path : Str) : Option Str := (fileName path).bind fun file => (splitFileAtDot file).2

/-- What stands behind the last component of a path, the path being read backwards. -/
def dropTail : List Char → List Char
  | '/' :: rest => dropTail rest
  | '.' :: '/' :: rest => dropTail rest
  | rest => rest

/-- `Path::with_extension`. -/
def withExtension (path : Str) (extension : Str) : Str :=
  match fileName path with
  | none => path
  | some file =>
      let kept := (dropTail path.reverse).reverse
      kept.take (kept.length - (file.length - (splitFileAtDot file).1.length)) ++ '.' :: extension

/-- `Path::join`. -/
def join (directory path : Str) : Str :=
  if path.head? = some '/' ∨ directory = [] then path
  else if directory.getLast? = some '/' then directory ++ path
  else directory ++ '/' :: path

/-- `metadata_sidecar_path`. -/
def metadataSidecarPath (outputDir filename : Str) : Str :=
  let target := join outputDir filename
  match extension target with
  | some _ => withExtension target "JSON".toList
  | none => target ++ ".JSON".toList

/-- `basename_segment`. -/
def basenameSegment (filename : Str) : Str :=
  ((filename.splitOnP fun c => c = '/' ∨ c = '\\').reverse.find? fun segment => segment ≠ []).getD
    filename

/-! ## The plan -/

/-- The receiver a product came from. -/
inductive SourceKind where
  | qbt
  | wxWire (messageId subject : Str) (delayStampUtc : Option Str)
  | unknown
  deriving DecidableEq, Repr

/-- `origin_segment`. -/
def originSegment : SourceKind → Str
  | .qbt => "qbt".toList
  | .wxWire _ _ _ => "wxwire".toList
  | .unknown => "unknown".toList

/-- What the summary of a product says that the plan reads. -/
structure ProductSummary where
  /-- The code of the issuing office. -/
  office : Option Str
  family : Option Str
  deriving DecidableEq, Repr

/-- The metadata of a completed file. -/
structure CompletedFileMetadata where
  filename : Str
  size : ℕ
  /-- Seconds since the epoch. -/
  timestampUtc : ℕ
  origin : SourceKind
  productSummary : ProductSummary
  deriving DecidableEq, Repr

/-- `timestamp_utc`: what is no time of the calendar is the epoch. -/
def timestampUtc (seconds : ℕ) : DateTime :=
  (fromTimestamp (if seconds < 2 ^ 63 then seconds else 0)).getD 0

/-- The paths and the key of a completed file. -/
structure ArchiveStoragePlan where
  payloadRelativePath : Str
  metadataRelativePath : Str
  requestKey : Str
  deriving DecidableEq, Repr

/-- `build_archive_storage_plan`. -/
def buildArchiveStoragePlan (filename : Str) (data : List UInt8)
    (metadata : CompletedFileMetadata) : ArchiveStoragePlan :=
  let timestamp := timestampUtc metadata.timestampUtc
  let day := date timestamp
  let office := (metadata.productSummary.office.filter fun code => code ≠ []).getD "UNK".toList
  let family := metadata.productSummary.family.getD "unknown".toList
  let stamp := printYear day.year ++ padded 2 day.month ++ padded 2 day.day ++ "T".toList ++
    padded 2 (hour timestamp) ++ padded 2 (minute timestamp) ++ padded 2 (second timestamp) ++
    "Z".toList
  let leaf := stamp ++ "-".toList ++ crc32Hex data ++ "-".toList ++ basenameSegment filename
  let payload := originSegment metadata.origin ++ "/".toList ++ printYear day.year ++ "/".toList ++
    padded 2 day.month ++ "/".toList ++ padded 2 day.day ++ "/".toList ++ office ++ "/".toList ++
    family ++ "/".toList ++ leaf
  { payloadRelativePath := payload
    metadataRelativePath := (metadataSidecarPath [] payload).dropWhile (· = '/')
    requestKey := payload }

/-- The plan of a file with a name that is its own path segment. -/
example : buildArchiveStoragePlan "nested/UNKNOWN.BIN".toList "payload".toUTF8.toList
      ⟨"nested/UNKNOWN.BIN".toList, 7, 1, .qbt, ⟨none, none⟩⟩ =
    ⟨"qbt/1970/01/01/UNK/unknown/19700101T000001Z-422c6a15-UNKNOWN.BIN".toList,
      "qbt/1970/01/01/UNK/unknown/19700101T000001Z-422c6a15-UNKNOWN.JSON".toList,
      "qbt/1970/01/01/UNK/unknown/19700101T000001Z-422c6a15-UNKNOWN.BIN".toList⟩ := by
  decide +kernel

/-- `build_persist_request`.  The metadata are serialized by `metadataJsonBytes`, which can fail. -/
def buildPersistRequest (metadataJsonBytes : CompletedFileMetadata → Option (List UInt8))
    (filename : Str) (data : List UInt8) (metadata : CompletedFileMetadata) :
    Option (BlobRequest CompletedFileMetadata) := do
  let plan := buildArchiveStoragePlan filename data metadata
  let metadataBytes ← metadataJsonBytes metadata
  return {
    requestKey := plan.requestKey
    metadata
    blobs := [
      ⟨.payload, plan.payloadRelativePath, data, some "application/octet-stream".toList⟩,
      ⟨.metadataSidecar, plan.metadataRelativePath, metadataBytes,
        some "application/json".toList⟩] }

end Live
