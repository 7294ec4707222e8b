import TrustCore.ArchiveFormat

/-!
# Verification of archive entries

`verifyArchiveEntries` and `verifyArchiveEntriesWithSignatures`, from the limits
and the checksum file to the manifest, the records and the blobs. Manifest and
records are untyped values as `JSON.parse` returns them; `none` is a thrown
`TypeError`, of a record that is not an object.
-/

namespace TrustCore.ArchiveVerify

open TrustCore.Utf TrustCore.Json TrustCore.Numbers TrustCore.Dynamic TrustCore.Sha256
open TrustCore.ArchiveFormat

structure ArchiveVerificationLimits where
  maxEntries : Nat
  maxEntryBytes : Nat
  maxTotalBytes : Nat

def defaults : ArchiveVerificationLimits :=
  ⟨100000, 2 * 1024 * 1024 * 1024, 20 * 1024 * 1024 * 1024⟩

structure VerificationReport where
  valid : Bool
  checkedEntries : Nat
  issues : List ArchiveIssue
  manifest : Option JsValue
  records : ArchiveRecordKind → List JsValue

def checksumsPath : JsString := js "checksums/sha256sums.txt"

def manifestPath : JsString := js "manifest.json"

def manifestSignaturePath : JsString := js "signatures/manifest-signature.json"

def recordsPath (kind : ArchiveRecordKind) : JsString := js "records/" ++ kind.text ++ js ".jsonl"

/-- An empty path is left out of the issue. -/
def issue (code message : String) (path : JsString) : ArchiveIssue :=
  ⟨js code, js message, if path = [] then none else some path⟩

def limitIssues (limits : ArchiveVerificationLimits) (entries : EntryMap) : List ArchiveIssue :=
  (if limits.maxEntries < entries.entries.length then
    [issue "ARCHIVE_ENTRY_LIMIT" "Archive contains too many entries." []] else []) ++
  entries.entries.flatMap (fun entry =>
    (if isSafeArchivePath entry.1 then []
      else [issue "ARCHIVE_PATH_UNSAFE" "Archive path is unsafe." entry.1]) ++
    (if limits.maxEntryBytes < entry.2.length then
      [issue "ARCHIVE_ENTRY_TOO_LARGE" "Archive entry exceeds its size limit." entry.1] else [])) ++
  (if limits.maxTotalBytes < (entries.entries.map fun entry => entry.2.length).sum then
    [issue "ARCHIVE_TOTAL_TOO_LARGE" "Archive exceeds its total size limit." []] else [])

/-- What `.` does not match. -/
def isLineTerminator (u : UInt16) : Bool := u == 10 || u == 13 || u == 0x2028 || u == 0x2029

/-- `/^([a-f0-9]{64})  (.+)$/`: the digest and the path. -/
def checksumLine (line : JsString) : Option (JsString × JsString) :=
  match line.drop 64 with
  | 32 :: 32 :: path =>
    if isSha256 (line.take 64) && path != [] && path.all (fun u => !isLineTerminator u) then
      some (line.take 64, path)
    else none
  | _ => none

abbrev Checksums := List (JsString × JsString)

/-- One line of the checksum file; the map has the last digest of a path. -/
def readChecksum (state : List ArchiveIssue × Checksums) (line : JsString) :
    List ArchiveIssue × Checksums :=
  match checksumLine line with
  | none => (state.1 ++ [issue "ARCHIVE_CHECKSUM_FILE_INVALID" "Checksum line is invalid." []], state.2)
  | some (digest, path) =>
    if isSafeArchivePath path then
      (state.1 ++ (if (state.2.lookup path).isSome then
          [issue "ARCHIVE_CHECKSUM_DUPLICATE" "Checksum path is duplicated." path] else []),
        setMember path digest state.2)
    else (state.1 ++ [issue "ARCHIVE_PATH_UNSAFE" "Checksummed path is unsafe." path], state.2)

def readChecksums (bytes : Option Bytes) : List ArchiveIssue × Checksums :=
  match bytes with
  | none => ([issue "ARCHIVE_CHECKSUM_FILE_MISSING" "Checksum file is missing." []], [])
  | some bytes =>
    match textDecode bytes with
    | none => ([issue "ARCHIVE_CHECKSUM_FILE_INVALID" "Checksum file is invalid UTF-8." []], [])
    | some text => (splitAt 10 (trimEnd text)).foldl readChecksum ([], [])

def startsWith (s start : JsString) : Bool := start.isPrefixOf s

/-- The paths that need no checksum. -/
def isUnchecked (path : JsString) : Bool :=
  path == checksumsPath || startsWith path (js "signatures/")

/-- Every checksum has its entry, and every entry its checksum. -/
def checksumIssues (entries : EntryMap) (checksums : Checksums) : List ArchiveIssue :=
  checksums.flatMap (fun checksum =>
    match entries.get checksum.1 with
    | none => [issue "ARCHIVE_ENTRY_MISSING" "Checksummed entry is missing." checksum.1]
    | some bytes =>
      if sha256 bytes = checksum.2 then []
      else [issue "ARCHIVE_CHECKSUM_INVALID" "Entry checksum does not match." checksum.1]) ++
  entries.entries.flatMap (fun entry =>
    if isUnchecked entry.1 || (checksums.lookup entry.1).isSome then []
    else [issue "ARCHIVE_ENTRY_UNCHECKED" "Archive entry is not checksummed." entry.1])

/-- `Number.isSafeInteger(value)` and not negative, of the double `x.1 * 2 ^ x.2`. -/
def isSafeCount : JsValue → Bool
  | .number (.finite d _) =>
    match roundBinary (ratio d.coeff d.exp) with
    | some x =>
      let num := x.1 * 2 ^ x.2.toNat
      let den := 2 ^ (-x.2).toNat
      num % den == 0 && decide (num / den ≤ 2 ^ 53 - 1) && !(d.neg && num != 0)
    | none => false
  | _ => false

def isUnsignedProfile (formatVersion profile : JsValue) : Bool :=
  strictEq formatVersion (.string (js "0.2")) && strictEq profile (.string (js "unsigned"))

def isSignedProfile (formatVersion profile : JsValue) : Bool :=
  match profile with
  | .object members =>
    strictEq formatVersion (.string (js "0.3")) &&
      strictEq (field members (js "name")) (.string signatureProfileName) &&
      strictEq (field members (js "algorithm")) (.string (js "Ed25519")) &&
      (match field members (js "keyId") with
        | .string keyId => keyId != []
        | _ => false)
  | _ => false

/-- `readManifest` up to its `catch`. -/
def parseManifest (bytes : Bytes) : Option (List ArchiveIssue × Option JsValue) := do
  let text ← textDecode bytes
  let value ← parseJson text
  let format ← property value (js "format")
  let formatVersion ← property value (js "formatVersion")
  let checksumAlgorithm ← property value (js "checksumAlgorithm")
  let canonicalJsonProfile ← property value (js "canonicalJsonProfile")
  if !(strictEq format (.string (js "trustarchive")) &&
      (strictEq formatVersion (.string (js "0.2")) || strictEq formatVersion (.string (js "0.3"))) &&
      strictEq checksumAlgorithm (.string (js "sha256")) &&
      strictEq canonicalJsonProfile (.string (js "trust-core-canonical-json-v1"))) then none
  let profile ← property value (js "signatureProfile")
  if !isUnsignedProfile formatVersion profile && !isSignedProfile formatVersion profile then
    return ([issue "ARCHIVE_SIGNATURE_PROFILE_UNKNOWN"
      "Archive signature profile or algorithm is not supported." manifestPath], none)
  let lineage ← property value (js "auditLineage")
  let mode ← property lineage (js "mode")
  let sourceWorkspaceId ← property lineage (js "sourceWorkspaceId")
  let workspaceId ← property value (js "workspaceId")
  let eventCount ← property lineage (js "eventCount")
  if !(strictEq mode (.string (js "source_chain")) && strictEq sourceWorkspaceId workspaceId &&
      isSafeCount eventCount) then none
  let canonical ← canonicalJson value
  return (if text = canonical ++ [10] then []
    else [issue "ARCHIVE_MANIFEST_NON_CANONICAL"
      "Manifest does not use the declared canonical JSON encoding." manifestPath], some value)

def readManifest (bytes : Option Bytes) : List ArchiveIssue × Option JsValue :=
  match bytes with
  | none => ([issue "ARCHIVE_MANIFEST_MISSING" "Manifest is missing." []], none)
  | some bytes =>
    (parseManifest bytes).getD
      ([issue "ARCHIVE_MANIFEST_INVALID" "Manifest is invalid or incompatible." []], none)

/-- `manifest.signatureProfile === "unsigned"`. -/
def isUnsigned (manifest : JsValue) : Bool :=
  match property manifest (js "signatureProfile") with
  | some profile => strictEq profile (.string (js "unsigned"))
  | none => false

def profileIssues (entries : EntryMap) (deferSignedVerification : Bool) :
    Option JsValue → List ArchiveIssue
  | none => []
  | some manifest =>
    (if !isUnsigned manifest && !deferSignedVerification then
      [issue "ARCHIVE_SIGNATURE_VERIFIER_REQUIRED"
        "Signed archive requires a manifest signature verifier." manifestSignaturePath] else []) ++
    (if isUnsigned manifest && (entries.get manifestSignaturePath).isSome then
      [issue "ARCHIVE_SIGNATURE_UNEXPECTED"
        "Unsigned archive contains a manifest signature artifact." manifestSignaturePath] else [])

/-- `manifest.recordCounts[kind]`. -/
def recordCount (manifest : JsValue) (kind : ArchiveRecordKind) : Option JsValue := do
  let counts ← property manifest (js "recordCounts")
  property counts kind.text

def parseRecords (bytes : Bytes) : Option (List JsValue) := do
  let text ← textDecode bytes
  ((splitAt 10 (trimEnd text)).filter fun line => line != []).mapM parseJson

/-- The issues and the records of one kind. -/
def readRecords (entries : EntryMap) (manifest : Option JsValue) (kind : ArchiveRecordKind) :
    Option (List ArchiveIssue × List JsValue) :=
  match entries.get (recordsPath kind) with
  | none =>
    match manifest with
    | none => some ([], [])
    | some manifest => do
      let count ← recordCount manifest kind
      return (if isNullish count || strictEq count (numberOf 0) then []
        else [issue "ARCHIVE_RECORD_FILE_MISSING" "Record file is missing." (recordsPath kind)], [])
  | some bytes =>
    let invalid := issue "ARCHIVE_RECORD_INVALID" "Record JSONL is invalid UTF-8 or JSON."
      (recordsPath kind)
    match parseRecords bytes with
    | none => some ([invalid], [])
    | some parsed =>
      match manifest with
      | none => some ([], parsed)
      | some manifest =>
        match recordCount manifest kind with
        | none => some ([invalid], parsed)
        | some count => some (if strictEq (numberOf parsed.length) count then []
            else [issue "ARCHIVE_RECORD_COUNT_INVALID" "Record count does not match manifest."
              (recordsPath kind)], parsed)

/-- `records.map((record) => record[key])`. -/
def column (records : List JsValue) (key : JsString) : Option (List JsValue) :=
  records.mapM fun record => property record key

def validateScope (workspaceId : JsValue) (kind : ArchiveRecordKind) (record : JsValue) :
    Option (List ArchiveIssue) := do
  let present ← hasProperty record (js "workspaceId")
  let value ← property record (js "workspaceId")
  return if present && !strictEq value workspaceId then
    [⟨js "ARCHIVE_WORKSPACE_MISMATCH", kind.text ++ js " record crosses workspace boundary.", none⟩]
    else []

def validateRevision (resources revisions : List JsString) (revision : JsValue) :
    Option (List ArchiveIssue) := do
  let resourceId ← property revision (js "resourceId")
  let parentRevisionId ← property revision (js "parentRevisionId")
  return (match resourceId with
      | .string s => if resources.contains s then []
          else [issue "ARCHIVE_REFERENCE_INVALID" "Revision resource does not exist." []]
      | _ => [issue "ARCHIVE_REFERENCE_INVALID" "Revision resource does not exist." []]) ++
    match parentRevisionId with
    | .string s => if revisions.contains s then []
        else [issue "ARCHIVE_REFERENCE_INVALID" "Revision parent does not exist." []]
    | _ => []

def validateScopeAndReferences (manifest : JsValue) (records : ArchiveRecordKind → List JsValue) :
    Option (List ArchiveIssue) := do
  let resources ← column (records .resources) (js "id")
  let revisions ← column (records .revisions) (js "id")
  let workspaceId ← property manifest (js "workspaceId")
  let scopes ← archiveRecordKinds.mapM fun kind =>
    (records kind).mapM (validateScope workspaceId kind)
  let references ← (records .revisions).mapM
    (validateRevision (resources.filterMap asString) (revisions.filterMap asString))
  return scopes.flatten.flatten ++ references.flatten

def lineageIssue (message : String) : ArchiveIssue := issue "ARCHIVE_AUDIT_LINEAGE_INVALID" message []

/-- `null`, `undefined` or the empty string. -/
def isRoot (previous : JsValue) : Bool := isNullish previous || strictEq previous (.string [])

def nonEmptyString : JsValue → Option JsString
  | .string (u :: s) => some (u :: s)
  | _ => none

/-- The walk from the tail to the root; each step but the last goes to another event. The empty
string ends it as `null` does. -/
def visitChain (byHash : List (JsString × JsValue)) : Nat → List JsString → JsString → List JsString
  | 0, visited, _ => visited
  | fuel + 1, visited, current =>
    if current.isEmpty || visited.contains current then visited
    else
      match (byHash.reverse.lookup current).bind nonEmptyString with
      | some previous => visitChain byHash fuel (visited ++ [current]) previous
      | none => visited ++ [current]

/-- The texts of the hashes with the hash before each: `new Map`, where the last of a
text counts. -/
def hashIndex (eventHashes previousHashes : List JsValue) : Option (List (JsString × JsValue)) := do
  let texts ← eventHashes.mapM toText
  return texts.zip previousHashes

/-- The lineage of events with these hashes. -/
def chainIssues (lineage : JsValue) (eventHashes previousHashes : List JsValue) :
    Option (List ArchiveIssue) := do
  let firstEventHash ← property lineage (js "firstEventHash")
  let lastEventHash ← property lineage (js "lastEventHash")
  let hashes := eventHashes.map fun v => (asString v).getD []
  let roots := (eventHashes.zip previousHashes).filter fun p => isRoot p.2
  let references := previousHashes.filterMap nonEmptyString
  let tails := hashes.filter fun hash => !references.contains hash
  let boundary := roots.length != 1 || tails.length != 1 ||
    !strictEq firstEventHash ((roots.head?.map Prod.fst).getD .undefined) ||
    !strictEq lastEventHash ((tails.head?.map JsValue.string).getD .undefined)
  let uncovered ← match tails with
    | [tail] => do
      let byHash ← hashIndex eventHashes previousHashes
      pure ((visitChain byHash (eventHashes.length + 2) [] tail).length != eventHashes.length)
    | _ => pure false
  return (if hashes.any (fun hash => !isSha256 hash) || hashes.dedup.length != hashes.length then
      [lineageIssue "Audit lineage contains an invalid or duplicate event hash."] else []) ++
    (if boundary then
      [lineageIssue "Audit lineage boundary hashes do not identify one complete chain."] else []) ++
    (if references.any (fun previous => !hashes.contains previous) ||
        references.dedup.length != references.length then
      [lineageIssue "Audit lineage event links are discontinuous or branching."] else []) ++
    (if uncovered then
      [lineageIssue "Audit lineage does not cover every exported audit event."] else [])

def validateAuditLineage (manifest : JsValue) (events : List JsValue) :
    Option (List ArchiveIssue) := do
  let lineage ← property manifest (js "auditLineage")
  let eventCount ← property lineage (js "eventCount")
  let counted := if strictEq eventCount (numberOf events.length) then []
    else [lineageIssue "Audit lineage count does not match exported audit records."]
  let eventHashes ← column events (js "eventHash")
  let previousHashes ← column events (js "previousEventHash")
  if events = [] then
    let firstEventHash ← property lineage (js "firstEventHash")
    let lastEventHash ← property lineage (js "lastEventHash")
    return counted ++ (if strictEq firstEventHash .null && strictEq lastEventHash .null then []
      else [lineageIssue "Empty audit lineage must have null boundary hashes."])
  else
    let chain ← chainIssues lineage eventHashes previousHashes
    return counted ++ chain

/-- The issues of one blob record, and the bytes it stands for. -/
def validateBlob (entries : EntryMap) (record : JsValue) : Option (List ArchiveIssue × Nat) := do
  let digest ← property record (js "sha256")
  let byteLength ← property record (js "byteLength")
  match digest, byteLength with
  | .string digest, .number n =>
    match blobArchivePath digest with
    | none => some ([issue "ARCHIVE_BLOB_RECORD_INVALID" "Blob digest is invalid." []], 0)
    | some path =>
      match entries.get path with
      | none => some ([issue "ARCHIVE_BLOB_MISSING" "Blob bytes are missing." path], 0)
      | some bytes =>
        some (if strictEq (numberOf bytes.length) (.number n) && sha256 bytes == digest then []
          else [issue "ARCHIVE_BLOB_INVALID" "Blob bytes do not match metadata." path], bytes.length)
  | _, _ => some ([issue "ARCHIVE_BLOB_RECORD_INVALID" "Blob record is invalid." []], 0)

def validateBlobs (manifest : Option JsValue) (blobRecords : List JsValue) (entries : EntryMap) :
    Option (List ArchiveIssue) := do
  let checked ← blobRecords.mapM (validateBlob entries)
  let total := (checked.map Prod.snd).sum
  let totals ← match manifest with
    | none => some []
    | some manifest => do
      let blobCount ← property manifest (js "blobCount")
      let totalBlobBytes ← property manifest (js "totalBlobBytes")
      pure (if strictEq blobCount (numberOf blobRecords.length) &&
          strictEq totalBlobBytes (numberOf total) then []
        else [issue "ARCHIVE_BLOB_COUNT_INVALID" "Blob totals do not match manifest." []])
  return checked.flatMap Prod.fst ++ totals

/-- What the manifest is checked against: the scope, the references and the lineage. -/
def validateRecords (manifest : Option JsValue) (records : ArchiveRecordKind → List JsValue) :
    Option (List ArchiveIssue) :=
  match manifest with
  | none => some []
  | some manifest => do
    let references ← validateScopeAndReferences manifest records
    let lineage ← validateAuditLineage manifest (records .auditEvents)
    return references ++ lineage

/-- The issues and the records of all kinds. -/
def readAllRecords (entries : EntryMap) (manifest : Option JsValue) :
    Option (ArchiveRecordKind → List ArchiveIssue × List JsValue) := do
  let read ← archiveRecordKinds.mapM (readRecords entries manifest)
  return fun kind => ((archiveRecordKinds.zip read).lookup kind).getD ([], [])

def verifyArchiveEntriesBase (entries : EntryMap) (limits : ArchiveVerificationLimits)
    (deferSignedVerification : Bool) : Option VerificationReport := do
  let checksums := readChecksums (entries.get checksumsPath)
  let manifest := readManifest (entries.get manifestPath)
  let read ← readAllRecords entries manifest.2
  let records := fun kind => (read kind).2
  let checked ← validateRecords manifest.2 records
  let blobs ← validateBlobs manifest.2 (records .blobs) entries
  let issues := limitIssues limits entries ++ checksums.1 ++ checksumIssues entries checksums.2 ++
    manifest.1 ++ profileIssues entries deferSignedVerification manifest.2 ++
    archiveRecordKinds.flatMap (fun kind => (read kind).1) ++ checked ++ blobs
  return {
    valid := issues.isEmpty, checkedEntries := checksums.2.length, issues,
    manifest := manifest.2, records }

def verifyArchiveEntries (entries : EntryMap) (limits : ArchiveVerificationLimits) :
    Option VerificationReport := verifyArchiveEntriesBase entries limits false

inductive VerifierAnswer where
  | valid
  | invalid
  | unknownKey
  deriving DecidableEq

/-- `verifyManifest`, of the algorithm, the key, the signed bytes and the signature. -/
abbrev ArchiveManifestVerifier := JsValue → JsValue → Bytes → Bytes → VerifierAnswer

def signatureIssue (code message : String) : ArchiveIssue := issue code message manifestSignaturePath

def isKeyIdUnit (u : UInt16) : Bool :=
  decide (65 ≤ u.toNat ∧ u.toNat ≤ 90) || decide (97 ≤ u.toNat ∧ u.toNat ≤ 122) ||
    decide (48 ≤ u.toNat ∧ u.toNat ≤ 57) || (js "._:/@-").contains u

def validKeyId : JsValue → Bool
  | .string s => s != [] && decide (s.length ≤ 256) && s.all isKeyIdUnit
  | _ => false

structure ManifestSignature where
  profile : JsValue
  algorithm : JsValue
  keyId : JsValue
  signature : JsString

def signatureKeys : List JsString :=
  [js "algorithm", js "keyId", js "profile", js "signature", js "signatureEncoding",
    js "signedEntries"]

/-- `readSignatureArtifact`, where `none` is the invalid artifact. -/
def readSignatureArtifact (bytes : Bytes) : Option ManifestSignature := do
  let text ← textDecode bytes
  let value ← parseJson text
  match value with
  | .object members =>
    let keys := (members.map Prod.fst).insertionSort fun a b => unitsLe a b = true
    match field members (js "signedEntries"), field members (js "signature") with
    | .array [first, second], .string signature =>
      if joinComma keys = joinComma signatureKeys &&
          strictEq (field members (js "profile")) (.string signatureProfileName) &&
          strictEq (field members (js "algorithm")) (.string (js "Ed25519")) &&
          validKeyId (field members (js "keyId")) &&
          strictEq first (.string manifestPath) && strictEq second (.string checksumsPath) &&
          strictEq (field members (js "signatureEncoding")) (.string (js "base64")) then
        some ⟨field members (js "profile"), field members (js "algorithm"),
          field members (js "keyId"), signature⟩
      else none
    | _, _ => none
  | _ => none

def signaturePayload (manifestBytes checksumBytes : Bytes) : Bytes :=
  textEncode ((canonicalJson (.object
    [(js "checksumsSha256", .string (sha256 checksumBytes)),
      (js "manifestSha256", .string (sha256 manifestBytes)),
      (js "profile", .string signatureProfileName)])).getD [] ++ [10])

def base64Value (u : UInt16) : Option Nat :=
  let n := u.toNat
  if 65 ≤ n ∧ n ≤ 90 then some (n - 65)
  else if 97 ≤ n ∧ n ≤ 122 then some (n - 71)
  else if 48 ≤ n ∧ n ≤ 57 then some (n + 4)
  else if n = 43 then some 62
  else if n = 47 then some 63
  else none

/-- Groups of four characters; the last may be padded. A padding that hides set bits is
not canonical. -/
def decodeBase64Groups : JsString → Option Bytes
  | [] => some []
  | [a, b, 61, 61] => do
    let x := (← base64Value a) * 64 + (← base64Value b)
    if x % 16 = 0 then some [.ofNat (x / 16)] else none
  | [a, b, c, 61] => do
    let x := ((← base64Value a) * 64 + (← base64Value b)) * 64 + (← base64Value c)
    if x % 4 = 0 then some [.ofNat (x / 1024), .ofNat (x / 4)] else none
  | a :: b :: c :: d :: rest => do
    let x := (((← base64Value a) * 64 + (← base64Value b)) * 64 + (← base64Value c)) * 64 +
      (← base64Value d)
    let bytes ← decodeBase64Groups rest
    return [.ofNat (x / 65536), .ofNat (x / 256), .ofNat x] ++ bytes
  | _ => none

def decodeBase64 (value : JsString) : Option Bytes :=
  if value = [] then none else decodeBase64Groups value

def base64Unit (n : Nat) : UInt16 :=
  .ofNat (if n < 26 then 65 + n else if n < 52 then 71 + n else if n < 62 then n - 4
    else if n = 62 then 43 else 47)

/-- `Buffer.from(bytes).toString("base64")`. -/
def encodeBase64 : Bytes → JsString
  | [] => []
  | [a] => [base64Unit (a.toNat / 4), base64Unit (a.toNat % 4 * 16), 61, 61]
  | [a, b] =>
    let x := a.toNat * 256 + b.toNat
    [base64Unit (x / 1024), base64Unit (x / 16 % 64), base64Unit (x % 16 * 4), 61]
  | a :: b :: c :: rest =>
    let x := (a.toNat * 256 + b.toNat) * 256 + c.toNat
    [base64Unit (x / 262144), base64Unit (x / 4096 % 64), base64Unit (x / 64 % 64),
      base64Unit (x % 64)] ++ encodeBase64 rest

/-- The issues of the signature of a signed manifest. -/
def verifyManifestSignature (entries : EntryMap) (manifest : JsValue)
    (verifier : ArchiveManifestVerifier) : List ArchiveIssue :=
  let profile := ((property manifest (js "signatureProfile")).bind fun profile =>
    match profile with
    | .object members => some members
    | _ => none).getD []
  if !(strictEq (field profile (js "name")) (.string signatureProfileName) &&
      strictEq (field profile (js "algorithm")) (.string (js "Ed25519"))) then
    [signatureIssue "ARCHIVE_SIGNATURE_PROFILE_UNKNOWN"
      "Archive signature profile or algorithm is not supported."]
  else
    match entries.get manifestSignaturePath with
    | none => [signatureIssue "ARCHIVE_SIGNATURE_MISSING"
        "Signed archive is missing its manifest signature artifact."]
    | some artifactBytes =>
      match readSignatureArtifact artifactBytes with
      | none => [signatureIssue "ARCHIVE_SIGNATURE_ARTIFACT_INVALID"
          "Manifest signature artifact is invalid."]
      | some artifact =>
        if !(strictEq artifact.profile (field profile (js "name")) &&
            strictEq artifact.algorithm (field profile (js "algorithm")) &&
            strictEq artifact.keyId (field profile (js "keyId"))) then
          [signatureIssue "ARCHIVE_SIGNATURE_PROFILE_MISMATCH"
            "Signature artifact does not match the manifest signature profile."]
        else
          match entries.get manifestPath, entries.get checksumsPath with
          | some manifestBytes, some checksumBytes =>
            match decodeBase64 artifact.signature with
            | none => [signatureIssue "ARCHIVE_SIGNATURE_ARTIFACT_INVALID"
                "Manifest signature is not canonical base64."]
            | some signature =>
              match verifier (field profile (js "algorithm")) (field profile (js "keyId"))
                  (signaturePayload manifestBytes checksumBytes) signature with
              | .unknownKey => [signatureIssue "ARCHIVE_SIGNATURE_KEY_UNKNOWN"
                  "Manifest signature key is not available."]
              | .invalid => [signatureIssue "ARCHIVE_SIGNATURE_INVALID"
                  "Manifest signature verification failed."]
              | .valid => []
          | _, _ => []

def verifyArchiveEntriesWithSignatures (entries : EntryMap) (verifier : ArchiveManifestVerifier)
    (limits : ArchiveVerificationLimits) : Option VerificationReport := do
  let report ← verifyArchiveEntriesBase entries limits true
  let signature := match report.manifest with
    | some manifest =>
      if isUnsigned manifest then [] else verifyManifestSignature entries manifest verifier
    | none => []
  return { report with
    valid := (report.issues ++ signature).isEmpty
    issues := report.issues ++ signature }

end TrustCore.ArchiveVerify
