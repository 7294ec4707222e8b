import TrustCore.ArchiveBinding
import TrustCore.SwiftText

/-!
# The verifier of the client

`TrustArchiveVerifier` of TrustCoreKit checks the same entries as `verifyArchiveEntries`, on Swift
strings and dictionaries. What Foundation makes of bytes, their text and their JSON, is a parameter.
-/

namespace TrustCore.SwiftArchive

open TrustCore.Utf TrustCore.Json TrustCore.Numbers TrustCore.Dynamic TrustCore.Sha256
open TrustCore.ArchiveFormat TrustCore.Swift
open TrustCore.ArchiveVerify (checksumsPath manifestPath)

/-! ## The manifest -/

inductive SignatureProfile where
  | unsigned
  | managed (name algorithm keyId : JsString)

structure AuditLineage where
  mode : JsString
  sourceWorkspaceId : JsString
  eventCount : Int
  firstEventHash : Option JsString
  lastEventHash : Option JsString

structure Manifest where
  format : JsString
  formatVersion : JsString
  exportId : JsString
  workspaceId : JsString
  datasetIds : List JsString
  createdAt : JsString
  createdBy : JsString
  sourceVersion : JsString
  checksumAlgorithm : JsString
  canonicalJsonProfile : JsString
  signatureProfile : SignatureProfile
  auditLineage : AuditLineage
  recordCounts : List (JsString × Int)
  blobCount : Int
  totalBlobBytes : Int

/-- Why a manifest is refused. -/
inductive ManifestError where
  | decoding
  | archive (issue : ArchiveIssue)

/-- Foundation: `String(data:encoding:)`, the JSON that `JSONDecoder` reads, and the description of
an error. -/
structure Platform where
  tables : Tables
  utf8String : Bytes → Option JsString
  jsonValue : Bytes → Option JsValue
  localizedDescription : ManifestError → JsString

def member (members : List (JsString × JsValue)) (key : String) : Option JsValue :=
  members.lookup (js key)

def decodeString : JsValue → Option JsString
  | .string s => some s
  | _ => none

/-- The integer that a decimal is. -/
def integer (d : Decimal) : Option Int :=
  let magnitude := ratio d.coeff d.exp
  if magnitude.1 % magnitude.2 = 0 then
    some (if d.neg then -(magnitude.1 / magnitude.2 : Nat) else (magnitude.1 / magnitude.2 : Nat))
  else none

/-- `Int` has 64 bits. -/
def decodeInt : JsValue → Option Int
  | .number (.finite d _) =>
    match integer d with
    | some n => if -2 ^ 63 ≤ n ∧ n < 2 ^ 63 then some n else none
    | none => none
  | _ => none

/-- `decodeIfPresent(String.self, …)`. -/
def decodeOptional : Option JsValue → Option (Option JsString)
  | none | some .null => some none
  | some (.string s) => some (some s)
  | some _ => none

def decodeStrings : JsValue → Option (List JsString)
  | .array items => items.mapM decodeString
  | _ => none

def decodeCounts : JsValue → Option (List (JsString × Int))
  | .object members => members.mapM fun m => (decodeInt m.2).map fun n => (m.1, n)
  | _ => none

section Manifest

variable (P : Platform)

def decodeProfile (value : JsValue) : Option SignatureProfile :=
  match value with
  | .string s => if P.tables.same s (js "unsigned") then some .unsigned else none
  | .object members => do
    let name ← (member members "name").bind decodeString
    let algorithm ← (member members "algorithm").bind decodeString
    let keyId ← (member members "keyId").bind decodeString
    return .managed name algorithm keyId
  | _ => none

def decodeLineage : JsValue → Option AuditLineage
  | .object members => do
    let mode ← (member members "mode").bind decodeString
    let sourceWorkspaceId ← (member members "sourceWorkspaceId").bind decodeString
    let eventCount ← (member members "eventCount").bind decodeInt
    let firstEventHash ← decodeOptional (member members "firstEventHash")
    let lastEventHash ← decodeOptional (member members "lastEventHash")
    return { mode, sourceWorkspaceId, eventCount, firstEventHash, lastEventHash }
  | _ => none

/-- The synthesized `init(from:)`. -/
def decodeFields : JsValue → Option Manifest
  | .object members => do
    let format ← (member members "format").bind decodeString
    let formatVersion ← (member members "formatVersion").bind decodeString
    let exportId ← (member members "exportId").bind decodeString
    let workspaceId ← (member members "workspaceId").bind decodeString
    let datasetIds ← (member members "datasetIds").bind decodeStrings
    let createdAt ← (member members "createdAt").bind decodeString
    let createdBy ← (member members "createdBy").bind decodeString
    let sourceVersion ← (member members "sourceVersion").bind decodeString
    let checksumAlgorithm ← (member members "checksumAlgorithm").bind decodeString
    let canonicalJsonProfile ← (member members "canonicalJsonProfile").bind decodeString
    let signatureProfile ← (member members "signatureProfile").bind (decodeProfile P)
    let auditLineage ← (member members "auditLineage").bind decodeLineage
    let recordCounts ← (member members "recordCounts").bind decodeCounts
    let blobCount ← (member members "blobCount").bind decodeInt
    let totalBlobBytes ← (member members "totalBlobBytes").bind decodeInt
    return { format, formatVersion, exportId, workspaceId, datasetIds, createdAt, createdBy,
             sourceVersion, checksumAlgorithm, canonicalJsonProfile, signatureProfile, auditLineage,
             recordCounts, blobCount, totalBlobBytes }
  | _ => none

/-- The guards of `decodeManifest`. -/
def isCompatible (m : Manifest) : Bool :=
  P.tables.same m.format (js "trustarchive") && P.tables.same m.checksumAlgorithm (js "sha256") &&
    P.tables.same m.canonicalJsonProfile (js "trust-core-canonical-json-v1") &&
    P.tables.same m.auditLineage.mode (js "source_chain") &&
    P.tables.same m.auditLineage.sourceWorkspaceId m.workspaceId

def isKnownProfile (m : Manifest) : Bool :=
  match m.signatureProfile with
  | .unsigned => P.tables.same m.formatVersion (js "0.2")
  | .managed name algorithm keyId =>
    P.tables.same m.formatVersion (js "0.3") &&
      P.tables.same name (js "trust-core-manifest-signature-v1") &&
      P.tables.same algorithm (js "Ed25519") && keyId != []

def decodeManifest (data : Bytes) : Except ManifestError Manifest :=
  match (P.jsonValue data).bind (decodeFields P) with
  | none => .error .decoding
  | some manifest =>
    if !isCompatible P manifest then
      .error (.archive ⟨js "ARCHIVE_MANIFEST_INVALID",
        js "The manifest format or verification profile is incompatible.", some manifestPath⟩)
    else if !isKnownProfile P manifest then
      .error (.archive ⟨js "ARCHIVE_SIGNATURE_PROFILE_UNKNOWN",
        js "The archive signature profile is incompatible.", some manifestPath⟩)
    else .ok manifest

end Manifest

/-! ## Paths and checksums -/

section Paths

variable (T : Tables)

def isSafeArchivePath (path : JsString) : Bool :=
  path != [] && !T.hasPrefix path (js "/") && !T.hasPrefix path (js "\\") &&
    !T.containsCharacter path (js "\\") && !T.containsCharacter path (js ":") &&
    !(scalars path).any isControl &&
    (T.split (js "/") (T.characters path)).all fun segment =>
      segment != [] && !T.same segment.flatten (js ".") && !T.same segment.flatten (js "..")

/-- `Character.isHexDigit`: ASCII and fullwidth digits. -/
def isHexDigit : JsString → Bool
  | [u] =>
    let n := u.toNat
    decide (48 ≤ n ∧ n ≤ 57) || decide (65 ≤ n ∧ n ≤ 70) || decide (97 ≤ n ∧ n ≤ 102) ||
      decide (0xFF10 ≤ n ∧ n ≤ 0xFF19) || decide (0xFF21 ≤ n ∧ n ≤ 0xFF26) ||
      decide (0xFF41 ≤ n ∧ n ≤ 0xFF46)
  | _ => false

/-- `lowercased()`, of hexadecimal digits. -/
def lowercased (s : JsString) : JsString :=
  s.map fun u =>
    if 65 ≤ u.toNat ∧ u.toNat ≤ 90 ∨ 0xFF21 ≤ u.toNat ∧ u.toNat ≤ 0xFF3A then u + 32 else u

/-- What a dictionary has under a key. -/
def value {α : Type} (d : List (JsString × α)) (key : JsString) : Option α :=
  (d.find? fun e => T.same e.1 key).map Prod.snd

abbrev Checksums := List (JsString × JsString)

/-- One line of the checksum file, as its Characters. -/
def parseLine (state : List ArchiveIssue × Checksums) (rawLine : List JsString) :
    List ArchiveIssue × Checksums :=
  let line := if rawLine.getLast?.any (fun c => T.same c [13]) then rawLine.dropLast else rawLine
  if line.length ≤ 66 then
    (state.1 ++ [⟨js "ARCHIVE_CHECKSUM_FILE_INVALID", js "Checksum line is invalid.", none⟩], state.2)
  else
    let digest := (line.take 64).flatten
    let separator := ((line.drop 64).take 2).flatten
    let path := (line.drop 66).flatten
    if T.same separator (js "  ") && (T.characters digest).all isHexDigit &&
        T.same digest (lowercased digest) && isSafeArchivePath T path then
      if (value T state.2 path).isSome then
        (state.1 ++ [⟨js "ARCHIVE_CHECKSUM_DUPLICATE", js "Checksum path is duplicated.", some path⟩],
          state.2)
      else (state.1, state.2 ++ [(path, digest)])
    else
      (state.1 ++ [⟨js "ARCHIVE_CHECKSUM_FILE_INVALID", js "Checksum line is invalid.", some path⟩],
        state.2)

/-- `text.split(separator: "\n", omittingEmptySubsequences: true)`. -/
def lines (text : JsString) : List (List JsString) :=
  (T.split [10] (T.characters text)).filter (· != [])

def parseChecksums (text : JsString) : List ArchiveIssue × Checksums :=
  (lines T text).foldl (parseLine T) ([], [])

/-- `CryptoKitSHA256Verifier.verify`. -/
def hashVerify (data : Bytes) (expectedHexDigest : JsString) : Bool :=
  let expected := lowercased expectedHexDigest
  (textEncode expected).length == 64 && (T.characters expected).all isHexDigit &&
    textEncode (sha256 data) == textEncode expected

end Paths

/-! ## The verifier -/

structure Report where
  valid : Bool
  checkedEntries : Nat
  issues : List ArchiveIssue
  manifest : Option Manifest

section Verify

variable (P : Platform) (entries : EntryMap)

def pathIssues : List ArchiveIssue :=
  entries.entries.flatMap fun e =>
    if isSafeArchivePath P.tables e.1 then []
    else [⟨js "ARCHIVE_PATH_UNSAFE", js "Archive path is unsafe.", some e.1⟩]

def readManifest : List ArchiveIssue × Option Manifest :=
  match value P.tables entries.entries manifestPath with
  | none => ([⟨js "ARCHIVE_MANIFEST_MISSING", js "Manifest is missing.", some manifestPath⟩], none)
  | some data =>
    match decodeManifest P data with
    | .ok manifest => ([], some manifest)
    | .error e =>
      ([⟨js "ARCHIVE_MANIFEST_INVALID", P.localizedDescription e, some manifestPath⟩], none)

def checksumIssues (checksums : Checksums) : List ArchiveIssue :=
  checksums.flatMap (fun checksum =>
    match value P.tables entries.entries checksum.1 with
    | none => [⟨js "ARCHIVE_ENTRY_MISSING", js "Checksummed entry is missing.", some checksum.1⟩]
    | some data =>
      if hashVerify P.tables data checksum.2 then []
      else [⟨js "ARCHIVE_CHECKSUM_INVALID", js "Entry checksum does not match.", some checksum.1⟩]) ++
  entries.entries.flatMap fun e =>
    if !P.tables.same e.1 checksumsPath && !P.tables.hasPrefix e.1 (js "signatures/") &&
        (value P.tables checksums e.1).isNone then
      [⟨js "ARCHIVE_ENTRY_UNCHECKED", js "Archive entry is not checksummed.", some e.1⟩]
    else []

/-- `verify(entries:)`; the entries of a dictionary come in any order. -/
def verify : Report :=
  let manifest := readManifest P entries
  match (value P.tables entries.entries checksumsPath).bind P.utf8String with
  | none =>
    { valid := false, checkedEntries := 0, manifest := manifest.2
      issues := pathIssues P entries ++ manifest.1 ++ [⟨js "ARCHIVE_CHECKSUM_FILE_MISSING",
        js "Checksum file is missing or invalid UTF-8.", some checksumsPath⟩] }
  | some text =>
    let checksums := parseChecksums P.tables text
    let issues := pathIssues P entries ++ manifest.1 ++ checksums.1 ++
      checksumIssues P entries checksums.2
    { valid := issues.isEmpty, checkedEntries := checksums.2.length, issues, manifest := manifest.2 }

end Verify

end TrustCore.SwiftArchive
