import TrustCore.Columns
import TrustCore.Dynamic

/-!
# The Trust Archive format

The record kinds, the manifest, the map of entries and the paths that may occur
in it, as `types.ts`, `canonical.ts` and `paths.ts` define them.
-/

namespace TrustCore.ArchiveFormat

open TrustCore.Utf TrustCore.Json TrustCore.Numbers TrustCore.Dynamic TrustCore.Sha256

inductive ArchiveRecordKind where
  | workspaces
  | schemaPackages
  | datasets
  | resources
  | revisions
  | revisionBlobs
  | blobs
  | relations
  | tombstones
  | auditEvents
  | retention
  deriving DecidableEq

def ArchiveRecordKind.text : ArchiveRecordKind → JsString
  | .workspaces => js "workspaces"
  | .schemaPackages => js "schema-packages"
  | .datasets => js "datasets"
  | .resources => js "resources"
  | .revisions => js "revisions"
  | .revisionBlobs => js "revision-blobs"
  | .blobs => js "blobs"
  | .relations => js "relations"
  | .tombstones => js "tombstones"
  | .auditEvents => js "audit-events"
  | .retention => js "retention"

def archiveRecordKinds : List ArchiveRecordKind :=
  [.workspaces, .schemaPackages, .datasets, .resources, .revisions, .revisionBlobs, .blobs,
    .relations, .tombstones, .auditEvents, .retention]

theorem mem_archiveRecordKinds (kind : ArchiveRecordKind) : kind ∈ archiveRecordKinds := by
  cases kind <;> decide

theorem archiveRecordKinds_nodup : archiveRecordKinds.Nodup := by decide

/-- The members of a record, an object of unknown fields. -/
abbrev ArchiveRecord := List (JsString × JsValue)

/-- The records of an archive; a kind that is absent has none. -/
abbrev Records := ArchiveRecordKind → List ArchiveRecord

def canonicalEncoder : Encoder := ⟨unitsLe, none, none⟩

/-- `canonicalJson`, which throws on an undefined value anywhere inside. -/
def canonicalJson (v : JsValue) : Option JsString := encode canonicalEncoder v

/-- `sha256` of a string hashes its UTF-8 bytes. -/
def sha256Text (s : JsString) : JsString := sha256 (textEncode s)

def numberOf (n : Nat) : JsValue := .number (ofDecimal ⟨false, n, 0⟩)

structure ArchiveIssue where
  code : JsString
  message : JsString
  path : Option JsString
  deriving DecidableEq

inductive FormatVersion where
  | v02
  | v03
  deriving DecidableEq

def FormatVersion.text : FormatVersion → JsString
  | .v02 => js "0.2"
  | .v03 => js "0.3"

inductive SignatureProfile where
  | unsigned
  | signed (keyId : JsString)
  deriving DecidableEq

def signatureProfileName : JsString := js "trust-core-manifest-signature-v1"

def SignatureProfile.value : SignatureProfile → JsValue
  | .unsigned => .string (js "unsigned")
  | .signed keyId => .object
      [(js "name", .string signatureProfileName), (js "algorithm", .string (js "Ed25519")),
        (js "keyId", .string keyId)]

structure AuditLineage where
  sourceWorkspaceId : JsString
  eventCount : Nat
  firstEventHash : JsValue
  lastEventHash : JsValue

def AuditLineage.value (l : AuditLineage) : JsValue :=
  .object [(js "mode", .string (js "source_chain")),
    (js "sourceWorkspaceId", .string l.sourceWorkspaceId),
    (js "eventCount", numberOf l.eventCount), (js "firstEventHash", l.firstEventHash),
    (js "lastEventHash", l.lastEventHash)]

structure TrustArchiveManifest where
  formatVersion : FormatVersion
  exportId : JsString
  workspaceId : JsString
  datasetIds : List JsString
  createdAt : JsString
  createdBy : JsString
  sourceVersion : JsString
  signatureProfile : SignatureProfile
  auditLineage : AuditLineage
  recordCounts : ArchiveRecordKind → Nat
  blobCount : Nat
  totalBlobBytes : Nat

def TrustArchiveManifest.value (m : TrustArchiveManifest) : JsValue :=
  .object [(js "format", .string (js "trustarchive")),
    (js "formatVersion", .string m.formatVersion.text), (js "exportId", .string m.exportId),
    (js "workspaceId", .string m.workspaceId),
    (js "datasetIds", .array (m.datasetIds.map .string)), (js "createdAt", .string m.createdAt),
    (js "createdBy", .string m.createdBy), (js "sourceVersion", .string m.sourceVersion),
    (js "checksumAlgorithm", .string (js "sha256")),
    (js "canonicalJsonProfile", .string (js "trust-core-canonical-json-v1")),
    (js "signatureProfile", m.signatureProfile.value), (js "auditLineage", m.auditLineage.value),
    (js "recordCounts",
      .object (archiveRecordKinds.map fun kind => (kind.text, numberOf (m.recordCounts kind)))),
    (js "blobCount", numberOf m.blobCount), (js "totalBlobBytes", numberOf m.totalBlobBytes)]

/-- A `Map` from paths to bytes, in insertion order. -/
structure EntryMap where
  entries : List (JsString × Bytes)
  nodup : (entries.map Prod.fst).Nodup

def EntryMap.get (m : EntryMap) (path : JsString) : Option Bytes := m.entries.lookup path

def EntryMap.empty : EntryMap := ⟨[], List.nodup_nil⟩

/-- `assertSafeArchivePath` does not throw. -/
def isSafeArchivePath (path : JsString) : Bool :=
  !(path.length == 0 || decide (512 < path.length) || path.head? == some 47 ||
      path.head? == some 92 || hasDriveLetter path || path.contains 92 ||
      path.any (fun u => decide (u.toNat < 32) || u == 127)) &&
    (splitAt 47 path).all (fun segment =>
      !(segment == [] || segment == js "." || segment == js ".."))
where
  hasDriveLetter : JsString → Bool
    | u :: 58 :: _ => decide (65 ≤ u.toNat ∧ u.toNat ≤ 90) || decide (97 ≤ u.toNat ∧ u.toNat ≤ 122)
    | _ => false

def blobArchivePath (digest : JsString) : Option JsString :=
  if isSha256 digest then some (js "blobs/" ++ digest.take 2 ++ js "/" ++ digest) else none

theorem nodup_paths_append {entries : List (JsString × Bytes)} {path : JsString} {bytes : Bytes}
    (hn : (entries.map Prod.fst).Nodup) (h : path ∉ entries.map Prod.fst) :
    ((entries ++ [(path, bytes)]).map Prod.fst).Nodup := by
  rw [List.map_append, List.map_cons, List.map_nil]
  apply List.nodup_append.mpr
  refine ⟨hn, List.nodup_singleton _, ?_⟩
  intro a ha b hb hab
  rw [List.mem_singleton] at hb
  rw [hab, hb] at ha
  exact h ha

/-- `add` of the archive writer: a safe path that is not there yet. -/
def EntryMap.add (m : EntryMap) (path : JsString) (bytes : Bytes) : Option EntryMap :=
  if isSafeArchivePath path then
    if h : path ∈ m.entries.map Prod.fst then none
    else some ⟨m.entries ++ [(path, bytes)], nodup_paths_append m.nodup h⟩
  else none

theorem keys_setMember {α : Type} (k : JsString) (v : α) (ms : List (JsString × α)) :
    (setMember k v ms).map Prod.fst =
      if k ∈ ms.map Prod.fst then ms.map Prod.fst else ms.map Prod.fst ++ [k] := by
  induction ms with
  | nil => rfl
  | cons m ms ih =>
    obtain ⟨k', x⟩ := m
    by_cases h : k' = k
    · simp [setMember, h]
    · rw [setMember, if_neg h, List.map_cons, ih, List.map_cons]
      by_cases hk : k ∈ ms.map Prod.fst
      · rw [if_pos hk, if_pos (List.mem_cons_of_mem _ hk)]
      · rw [if_neg hk, if_neg (by simp [hk, Ne.symm h]), List.cons_append]

/-- `Map.prototype.set`. -/
def EntryMap.set (m : EntryMap) (path : JsString) (bytes : Bytes) : EntryMap where
  entries := setMember path bytes m.entries
  nodup := by
    rw [keys_setMember]
    split
    · exact m.nodup
    · rename_i h
      apply List.nodup_append.mpr
      refine ⟨m.nodup, List.nodup_singleton _, ?_⟩
      intro a ha b hb hab
      rw [List.mem_singleton] at hb
      rw [hab, hb] at ha
      exact h ha

end TrustCore.ArchiveFormat
