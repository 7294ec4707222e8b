import TrustCore.ArchiveVerify
import TrustCore.ImportPlan

/-!
# Assembly of an archive

`assembleArchiveEntries` writes the blobs, the records of every kind in the order
of their ids, the manifest, a note and the checksum file. `none` is a thrown
error: bytes that do not match their digest, or a value without canonical text.
`signArchiveEntries` rewrites the manifest and the checksum file of an unsigned
archive and adds the signature.
-/

namespace TrustCore.ArchiveAssemble

open TrustCore.Utf TrustCore.Json TrustCore.Dynamic TrustCore.Sha256 TrustCore.ArchiveFormat
open TrustCore.ImportPlan TrustCore.ArchiveVerify

structure ArchiveBlobInput where
  sha256 : JsString
  byteLength : Nat
  bytes : Bytes

structure ArchiveSource where
  exportId : JsString
  workspaceId : JsString
  datasetIds : List JsString
  createdAt : JsString
  createdBy : JsString
  sourceVersion : JsString
  records : Records
  blobs : List ArchiveBlobInput

/-- What the source of an archive is read for. -/
structure ReadExport where
  exportId : JsString
  workspaceId : JsString
  datasetIds : List JsString
  createdAt : JsString
  createdBy : JsString

def joinLines : List JsString → JsString
  | [] => []
  | [line] => line
  | line :: lines => line ++ 10 :: joinLines lines

/-- The id a record is sorted by. -/
def sortId (record : ArchiveRecord) : Option JsString :=
  match idOf record with
  | .string s => some s
  | _ => canonicalJson (.object record)

/-- The records of one kind in the order of `compareRecords`. -/
def sortedRecords (localeLe : JsString → JsString → Bool) (records : List ArchiveRecord) :
    Option (List ArchiveRecord) := do
  let ids ← records.mapM sortId
  return ((ids.zip records).insertionSort fun a b => localeLe a.1 b.1 = true).map Prod.snd

def recordLines (localeLe : JsString → JsString → Bool) (records : List ArchiveRecord) :
    Option JsString := do
  let sorted ← sortedRecords localeLe records
  let lines ← sorted.mapM fun record => canonicalJson (.object record)
  return joinLines lines

def addBlob (entries : EntryMap) (blob : ArchiveBlobInput) : Option EntryMap :=
  if blob.bytes.length = blob.byteLength ∧ sha256 blob.bytes = blob.sha256 then
    (blobArchivePath blob.sha256).bind fun path => entries.add path blob.bytes
  else none

def addRecords (localeLe : JsString → JsString → Bool) (source : ArchiveSource)
    (entries : EntryMap) (kind : ArchiveRecordKind) : Option EntryMap :=
  if source.records kind = [] then some entries
  else do
    let lines ← recordLines localeLe (source.records kind)
    entries.add (recordsPath kind) (textEncode (lines ++ [10]))

def auditLineage (source : ArchiveSource) : AuditLineage :=
  let events := source.records .auditEvents
  let hashes := events.filterMap fun event => asString (field event (js "eventHash"))
  let referenced := events.filterMap fun event => asString (field event (js "previousEventHash"))
  let first := match events.find? fun event => isNullish (field event (js "previousEventHash")) with
    | some event => field event (js "eventHash")
    | none => .null
  { sourceWorkspaceId := source.workspaceId
    eventCount := events.length
    firstEventHash := if isNullish first then .null else first
    lastEventHash := match hashes.find? fun hash => !referenced.contains hash with
      | some hash => .string hash
      | none => .null }

def manifestOf (source : ArchiveSource) : TrustArchiveManifest where
  formatVersion := .v02
  exportId := source.exportId
  workspaceId := source.workspaceId
  datasetIds := source.datasetIds.insertionSort fun a b => unitsLe a b = true
  createdAt := source.createdAt
  createdBy := source.createdBy
  sourceVersion := source.sourceVersion
  signatureProfile := .unsigned
  auditLineage := auditLineage source
  recordCounts := fun kind => (source.records kind).length
  blobCount := source.blobs.length
  totalBlobBytes := (source.blobs.map ArchiveBlobInput.byteLength).sum

def readme : JsString :=
  js "Trust Core portable archive\nVerify checksums before reading or importing records.\n"

def checksumText (localeLe : JsString → JsString → Bool) (entries : List (JsString × Bytes)) :
    JsString :=
  joinLines ((entries.insertionSort fun a b => localeLe a.1 b.1 = true).map
    fun entry => sha256 entry.2 ++ js "  " ++ entry.1)

def assembleArchiveEntries (localeLe : JsString → JsString → Bool) (source : ArchiveSource) :
    Option (EntryMap × TrustArchiveManifest) := do
  let blobs := source.blobs.insertionSort fun a b => localeLe a.sha256 b.sha256 = true
  let entries ← blobs.foldlM addBlob EntryMap.empty
  let entries ← archiveRecordKinds.foldlM (addRecords localeLe source) entries
  let manifestText ← canonicalJson (manifestOf source).value
  let entries ← entries.add manifestPath (textEncode (manifestText ++ [10]))
  let entries ← entries.add (js "README.txt") (textEncode readme)
  let entries ← entries.add checksumsPath
    (textEncode (checksumText localeLe entries.entries ++ [10]))
  return (entries, manifestOf source)

structure ArchiveManifestSigner where
  keyId : JsString
  signManifest : Bytes → Bytes

/-- The manifest of the signed archive. -/
def signedManifest (manifest : TrustArchiveManifest) (keyId : JsString) : TrustArchiveManifest :=
  { manifest with
    formatVersion := .v03
    signatureProfile := .signed keyId }

def checksumFile (localeLe : JsString → JsString → Bool) (entries : EntryMap) : Bytes :=
  textEncode (checksumText localeLe
    (entries.entries.filter fun entry => !isUnchecked entry.1) ++ [10])

def signatureArtifact (keyId : JsString) (signature : Bytes) : JsValue :=
  .object [(js "profile", .string signatureProfileName), (js "algorithm", .string (js "Ed25519")),
    (js "keyId", .string keyId),
    (js "signedEntries", .array [.string manifestPath, .string checksumsPath]),
    (js "signatureEncoding", .string (js "base64")),
    (js "signature", .string (encodeBase64 signature))]

def signArchiveEntries (localeLe : JsString → JsString → Bool) (entries : EntryMap)
    (manifest : TrustArchiveManifest) (signer : ArchiveManifestSigner) :
    Option (EntryMap × TrustArchiveManifest) := do
  if !(manifest.formatVersion == .v02 && manifest.signatureProfile == .unsigned &&
      validKeyId (.string signer.keyId)) then none
  let manifestText ← canonicalJson (signedManifest manifest signer.keyId).value
  let manifestBytes := textEncode (manifestText ++ [10])
  let entries := entries.set manifestPath manifestBytes
  let checksumBytes := checksumFile localeLe entries
  let entries := entries.set checksumsPath checksumBytes
  let signature := signer.signManifest (signaturePayload manifestBytes checksumBytes)
  if signature = [] then none
  let artifact ← canonicalJson (signatureArtifact signer.keyId signature)
  return (entries.set manifestSignaturePath (textEncode (artifact ++ [10])),
    signedManifest manifest signer.keyId)

end TrustCore.ArchiveAssemble
