import TrustCore.ArchiveContainer
import TrustCore.HistoryTombstones

/-!
# The reader of an export

`PostgresPortabilityExportReader.read` selects the rows of a workspace and of some of its datasets in
one snapshot, names their columns as the archive does and checks that every reference stays inside
the selection. The rows of the history are those of its tables; what the other queries return is
given. How PostgreSQL writes a timestamp into JSON and `Date` reads it is given, too.
-/

namespace TrustCore.PortabilityExport

open TrustCore.Utf TrustCore.Json TrustCore.Dynamic TrustCore.Sha256 TrustCore.Columns
open TrustCore.ArchiveFormat TrustCore.ArchiveAssemble TrustCore.ArchiveContainer TrustCore.History

structure Timestamps where
  toJson : Instant → JsString
  /-- `new Date(value).toISOString()`, or nothing for an invalid date. -/
  isoDate : JsString → Option JsString

/-! ## Rows and records -/

def isLowerLetter (u : UInt16) : Bool := decide (97 ≤ u.toNat ∧ u.toNat ≤ 122)

/-- `replace(/_([a-z])/g, (_, letter) => letter.toUpperCase())`. -/
def camelKey : JsString → JsString
  | [] => []
  | [u] => [u]
  | u :: v :: rest =>
    if u == 95 && isLowerLetter v then (v - 32) :: camelKey rest else u :: camelKey (v :: rest)

def logicalNames : List (JsString × JsString) :=
  [(js "manifest_json", js "manifest"), (js "canonical_payload_json", js "canonicalPayload"),
    (js "metadata_json", js "metadata"), (js "extensions_json", js "extensions")]

def endsWith (s suffix : JsString) : Bool := suffix.isSuffixOf s

def normalizeValue (T : Timestamps) (key : JsString) : JsValue → JsValue
  | .string s =>
    if endsWith key (js "At") || endsWith key (js "Until") || key == js "occurredAt" ||
        key == js "importedAt" then
      match T.isoDate s with
      | some iso => .string iso
      | none => .string s
    else .string s
  | v => v

def logicalKey (key : JsString) : JsString := (logicalNames.lookup key).getD (camelKey key)

def camelizeRecord (T : Timestamps) (record : ArchiveRecord) : ArchiveRecord :=
  buildObject (record.map fun m => (logicalKey m.1, normalizeValue T (logicalKey m.1) m.2))

/-- A column of a row whose columns keep different names. -/
theorem field_camelizeRecord {T : Timestamps} {record : ArchiveRecord} {column key : JsString}
    {v : JsValue} (hn : ((record.map Prod.fst).map logicalKey).Nodup) (hkey : logicalKey column = key)
    (hmem : (column, v) ∈ record) :
    field (camelizeRecord T record) key = normalizeValue T key v := by
  have hnames : ((record.map fun m => (logicalKey m.1, normalizeValue T (logicalKey m.1) m.2)).map
      Prod.fst).Nodup := by
    rw [List.map_map] at hn ⊢
    exact hn
  rw [camelizeRecord, buildObject_nodup _ hnames, field]
  rw [lookup_of_mem hnames (List.mem_map.mpr ⟨(column, v), hmem, by rw [hkey]⟩)]
  rfl

def textOrNull : Option JsString → JsValue
  | some s => .string s
  | none => .null

def timeOrNull (T : Timestamps) : Option Instant → JsValue
  | some t => .string (T.toJson t)
  | none => .null

def statusText : ResourceStatus → JsString
  | .active => js "active"
  | .archived => js "archived"
  | .deletedLogically => js "deleted_logically"
  | .legalHold => js "legal_hold"

def purgeText : PurgeState → JsString
  | .notEligible => js "not_eligible"
  | .eligible => js "eligible"
  | .planned => js "planned"
  | .purged => js "purged"

/-- `to_jsonb` of a row of `resources`. -/
def resourceRow (T : Timestamps) (r : Resource) : ArchiveRecord :=
  [(js "id", .string r.id), (js "workspace_id", .string r.workspaceId),
    (js "dataset_id", .string r.datasetId), (js "resource_type", .string r.resourceType),
    (js "title", textOrNull r.title), (js "status", .string (statusText r.status)),
    (js "current_revision_id", textOrNull r.currentRevisionId),
    (js "created_by", .string r.createdBy), (js "created_at", .string (T.toJson r.createdAt)),
    (js "updated_at", .string (T.toJson r.updatedAt))]

/-- `to_jsonb` of a row of `revisions`. -/
def revisionRow (T : Timestamps) (v : Revision) : ArchiveRecord :=
  [(js "id", .string v.id), (js "workspace_id", .string v.workspaceId),
    (js "dataset_id", .string v.datasetId), (js "resource_id", .string v.resourceId),
    (js "revision_number", numberOf v.revisionNumber),
    (js "parent_revision_id", textOrNull v.parentRevisionId),
    (js "merge_parent_revision_ids", .array (v.mergeParentRevisionIds.map .string)),
    (js "schema_package_id", .string v.schemaPackageId),
    (js "schema_version", .string v.schemaVersion),
    (js "canonical_payload_json", v.canonicalPayload.value),
    (js "canonical_payload_hash", .string v.canonicalPayloadHash),
    (js "created_by", .string v.createdBy),
    (js "created_on_device_id", textOrNull v.createdOnDeviceId),
    (js "source", .string v.source.text), (js "change_note", textOrNull v.changeNote),
    (js "restored_from_revision_id", textOrNull v.restoredFromRevisionId),
    (js "created_at", .string (T.toJson v.createdAt))]

/-- `to_jsonb` of a row of `tombstones`. -/
def tombstoneRow (T : Timestamps) (t : Tombstone) : ArchiveRecord :=
  [(js "id", .string t.id), (js "workspace_id", .string t.workspaceId),
    (js "dataset_id", .string t.datasetId), (js "subject_kind", .string t.subjectKind.text),
    (js "subject_id", .string t.subjectId), (js "deleted_by", .string t.deletedBy),
    (js "deleted_at", .string (T.toJson t.deletedAt)), (js "reason", textOrNull t.reason),
    (js "recover_until", timeOrNull T t.recoverUntil),
    (js "prior_revision_id", textOrNull t.priorRevisionId),
    (js "purge_state", .string (purgeText t.purgeState)),
    (js "restored_at", timeOrNull T t.restoredAt), (js "restored_by", textOrNull t.restoredBy)]

section Columns

variable (T : Timestamps)

/-- The columns of the three tables keep different names. -/
theorem columns_nodup :
    ([js "id", js "workspace_id", js "dataset_id", js "resource_type", js "title",
      js "status", js "current_revision_id", js "created_by", js "created_at",
      js "updated_at"].map logicalKey).Nodup ∧
    ([js "id", js "workspace_id", js "dataset_id", js "resource_id",
      js "revision_number", js "parent_revision_id", js "merge_parent_revision_ids",
      js "schema_package_id", js "schema_version", js "canonical_payload_json",
      js "canonical_payload_hash", js "created_by", js "created_on_device_id", js "source",
      js "change_note", js "restored_from_revision_id", js "created_at"].map logicalKey).Nodup ∧
    ([js "id", js "workspace_id", js "dataset_id", js "subject_kind",
      js "subject_id", js "deleted_by", js "deleted_at", js "reason", js "recover_until",
      js "prior_revision_id", js "purge_state", js "restored_at", js "restored_by"].map
        logicalKey).Nodup := by
  decide +kernel

theorem column_keys : logicalKey (js "id") = js "id" ∧ logicalKey (js "resource_id") = js "resourceId" ∧
    logicalKey (js "subject_kind") = js "subjectKind" ∧
    logicalKey (js "subject_id") = js "subjectId" := by
  decide +kernel

theorem resource_names (r : Resource) : (((resourceRow T r).map Prod.fst).map logicalKey).Nodup :=
  columns_nodup.1

theorem revision_names (v : Revision) : (((revisionRow T v).map Prod.fst).map logicalKey).Nodup :=
  columns_nodup.2.1

theorem tombstone_names (t : Tombstone) :
    (((tombstoneRow T t).map Prod.fst).map logicalKey).Nodup :=
  columns_nodup.2.2

theorem resource_id (r : Resource) :
    field (camelizeRecord T (resourceRow T r)) (js "id") = .string r.id :=
  field_camelizeRecord (resource_names T r) column_keys.1 List.mem_cons_self

theorem revision_resourceId (v : Revision) :
    field (camelizeRecord T (revisionRow T v)) (js "resourceId") = .string v.resourceId :=
  field_camelizeRecord (revision_names T v) column_keys.2.1
    (List.mem_of_getElem? (show (revisionRow T v)[3]? = _ from rfl))

theorem tombstone_subjectKind (t : Tombstone) :
    field (camelizeRecord T (tombstoneRow T t)) (js "subjectKind") = .string t.subjectKind.text :=
  field_camelizeRecord (tombstone_names T t) column_keys.2.2.1
    (List.mem_of_getElem? (show (tombstoneRow T t)[3]? = _ from rfl))

theorem tombstone_subjectId (t : Tombstone) :
    field (camelizeRecord T (tombstoneRow T t)) (js "subjectId") = .string t.subjectId :=
  field_camelizeRecord (tombstone_names T t) column_keys.2.2.2
    (List.mem_of_getElem? (show (tombstoneRow T t)[4]? = _ from rfl))

end Columns

/-! ## The reader -/

structure BlobRow where
  id : JsString
  sha256 : JsString
  byteLength : Nat
  storageProvider : JsString
  storageKey : JsString

/-- What the queries return, each row by `to_jsonb`. -/
structure QueryResults where
  workspace : List ArchiveRecord
  datasets : List ArchiveRecord
  retention : List ArchiveRecord
  resources : List ArchiveRecord
  revisions : List ArchiveRecord
  revisionBlobs : List ArchiveRecord
  blobRows : List BlobRow
  blobRecords : List ArchiveRecord
  schemas : List ArchiveRecord
  relations : List ArchiveRecord
  tombstones : List ArchiveRecord
  auditEvents : List ArchiveRecord

def QueryResults.map (f : ArchiveRecord → ArchiveRecord) (rows : QueryResults) : QueryResults where
  workspace := rows.workspace.map f
  datasets := rows.datasets.map f
  retention := rows.retention.map f
  resources := rows.resources.map f
  revisions := rows.revisions.map f
  revisionBlobs := rows.revisionBlobs.map f
  blobRows := rows.blobRows
  blobRecords := rows.blobRecords.map f
  schemas := rows.schemas.map f
  relations := rows.relations.map f
  tombstones := rows.tombstones.map f
  auditEvents := rows.auditEvents.map f

/-- The rows of the export in the tables of the history. -/
structure SelectedResource (db : Db) (workspaceId : JsString) (datasetIds : List JsString)
    (res : Resource) : Prop where
  row : db.resources res.id = some res
  workspace : res.workspaceId = workspaceId
  dataset : res.datasetId ∈ datasetIds

theorem SelectedResource.unique {db : Db} {workspaceId : JsString} {datasetIds : List JsString}
    {res res' : Resource} (h : SelectedResource db workspaceId datasetIds res)
    (h' : SelectedResource db workspaceId datasetIds res') (hid : res.id = res'.id) : res = res' := by
  have hrow := h'.row
  rw [← hid, h.row, Option.some.injEq] at hrow
  exact hrow

def selectedRevision (workspaceId : JsString) (datasetIds : List JsString) (v : Revision) : Bool :=
  decide (v.workspaceId = workspaceId ∧ v.datasetId ∈ datasetIds)

def selectedTombstone (workspaceId : JsString) (datasetIds : List JsString) (t : Tombstone) : Bool :=
  decide (t.workspaceId = workspaceId ∧ t.datasetId ∈ datasetIds)

/-- The queries on `resources`, `revisions` and `tombstones` in a snapshot, in any order. -/
structure Selects (T : Timestamps) (db : Db) (workspaceId : JsString) (datasetIds : List JsString)
    (results : QueryResults) : Prop where
  resources : ∃ rows : List Resource,
    (∀ res, res ∈ rows ↔ SelectedResource db workspaceId datasetIds res) ∧ rows.Nodup ∧
      results.resources = rows.map (resourceRow T)
  revisions : ∃ rows : List Revision,
    rows.Perm (db.revisions.filter (selectedRevision workspaceId datasetIds)) ∧
      results.revisions = rows.map (revisionRow T)
  tombstones : ∃ rows : List Tombstone,
    rows.Perm (db.tombstones.filter (selectedTombstone workspaceId datasetIds)) ∧
      results.tombstones = rows.map (tombstoneRow T)

def codedError (code message : String) : ServiceError := ⟨some code, message⟩

def plainError (message : String) : ServiceError := ⟨none, message⟩

def ids (records : List ArchiveRecord) : List JsString :=
  records.filterMap fun record => asString (field record (js "id"))

def assertReference (values : List JsString) (value : JsValue) (description : String) :
    Except ServiceError Unit :=
  match value with
  | .string s =>
    if values.contains s then .ok ()
    else .error (plainError ("Export is missing referenced " ++ description ++ "."))
  | _ => .error (plainError ("Export is missing referenced " ++ description ++ "."))

def assertRelationReference (kind value : JsValue) (resources revisions blobs : List JsString) :
    Except ServiceError Unit :=
  if strictEq kind (.string (js "external")) then .ok ()
  else
    let outside := codedError "EXPORT_DEPENDENCY_OUTSIDE_SELECTION"
      "Selected datasets contain a relation to an unselected dataset."
    let values := if strictEq kind (.string (js "resource")) then some resources
      else if strictEq kind (.string (js "revision")) then some revisions
      else if strictEq kind (.string (js "blob")) then some blobs
      else none
    match values, value with
    | some values, .string s => if values.contains s then .ok () else .error outside
    | _, _ => .error outside

def assertReferences (rows : QueryResults) : Except ServiceError Unit := do
  rows.datasets.forM fun dataset =>
    assertReference (ids rows.schemas) (field dataset (js "schemaPackageId"))
      "dataset schema package"
  rows.datasets.forM fun dataset =>
    match field dataset (js "retentionPolicyId") with
    | .string s => assertReference (ids rows.retention) (.string s) "dataset retention policy"
    | _ => .ok ()
  rows.resources.forM fun resource =>
    assertReference (ids rows.datasets) (field resource (js "datasetId")) "resource dataset"
  rows.revisions.forM fun revision => do
    assertReference (ids rows.datasets) (field revision (js "datasetId")) "revision dataset"
    assertReference (ids rows.resources) (field revision (js "resourceId")) "revision resource"
    assertReference (ids rows.schemas) (field revision (js "schemaPackageId"))
      "revision schema package"
  rows.revisionBlobs.forM fun attachment => do
    assertReference (ids rows.revisions) (field attachment (js "revisionId")) "attachment revision"
    assertReference (ids rows.blobRecords) (field attachment (js "blobObjectId")) "attachment blob"
  rows.relations.forM fun relation => do
    assertRelationReference (field relation (js "sourceKind")) (field relation (js "sourceId"))
      (ids rows.resources) (ids rows.revisions) (ids rows.blobRecords)
    assertRelationReference (field relation (js "targetKind")) (field relation (js "targetId"))
      (ids rows.resources) (ids rows.revisions) (ids rows.blobRecords)

def declaredLength (row : BlobRow) : Except ServiceError Nat :=
  if row.byteLength ≤ 2 ^ 53 - 1 then .ok row.byteLength
  else .error (plainError "Export blob has an invalid byte length.")

/-- `openReadStream` is the object storage. -/
def readBlob (openReadStream : JsString → Except ServiceError Bytes) (storageProvider : JsString)
    (row : BlobRow) : Except ServiceError ArchiveBlobInput :=
  if row.storageProvider ≠ storageProvider then
    .error (plainError "Export blob belongs to a different storage provider.")
  else do
    let expectedLength ← declaredLength row
    let bytes ← openReadStream row.storageKey
    if bytes.length ≠ expectedLength ∨ sha256 bytes ≠ row.sha256 then
      .error (plainError "Export blob bytes do not match PostgreSQL metadata.")
    else .ok ⟨row.sha256, bytes.length, bytes⟩

/-- `[...new Set(datasetIds)].sort()`. -/
def selectedDatasets (datasetIds : List JsString) : List JsString :=
  datasetIds.dedup.insertionSort fun a b => unitsLe a b = true

def recordsOf (rows : QueryResults) : Records
  | .workspaces => rows.workspace
  | .schemaPackages => rows.schemas
  | .retention => rows.retention
  | .datasets => rows.datasets
  | .resources => rows.resources
  | .revisions => rows.revisions
  | .revisionBlobs => rows.revisionBlobs
  | .blobs => rows.blobRecords
  | .relations => rows.relations
  | .tombstones => rows.tombstones
  | .auditEvents => rows.auditEvents

theorem recordsOf_map (rows : QueryResults) (f : ArchiveRecord → ArchiveRecord)
    (kind : ArchiveRecordKind) : recordsOf (rows.map f) kind = (recordsOf rows kind).map f := by
  cases kind <;> rfl

/-- The checks of the rows, and the bytes of their blobs. -/
def readRows (openReadStream : JsString → Except ServiceError Bytes) (storageProvider : JsString)
    (datasetIds : List JsString) (rows : QueryResults) : Except ServiceError (List ArchiveBlobInput) :=
  if rows.workspace.length ≠ 1 then
    .error (codedError "DATASET_NOT_FOUND" "Export workspace was not found.")
  else if rows.datasets.length ≠ datasetIds.length then
    .error (codedError "DATASET_NOT_FOUND"
      "A selected dataset is missing or belongs to another workspace.")
  else if rows.blobRows.length ≠ rows.blobRecords.length then
    .error (plainError "Export blob metadata selection is inconsistent.")
  else do
    let declaredBlobBytes ← rows.blobRows.mapM declaredLength
    if declaredBlobBytes.any (fun value => decide (maxBlobBytes < value)) ||
        decide (maxTotalBlobBytes < declaredBlobBytes.sum) then
      .error (codedError "REQUEST_TOO_LARGE"
        "Selected blob bytes exceed the bounded 0.2H archive limits.")
    else do
      assertReferences rows
      rows.blobRows.mapM (readBlob openReadStream storageProvider)

def read (T : Timestamps) (openReadStream : JsString → Except ServiceError Bytes) (storageProvider : JsString)
    (input : ReadExport) (results : QueryResults) : Except ServiceError ArchiveSource :=
  let datasetIds := selectedDatasets input.datasetIds
  if datasetIds = [] then .error (codedError "INVALID_COMMAND" "At least one dataset is required.")
  else do
    let rows := results.map (camelizeRecord T)
    let blobs ← readRows openReadStream storageProvider datasetIds rows
    return {
      exportId := input.exportId, workspaceId := input.workspaceId, datasetIds
      createdAt := input.createdAt, createdBy := input.createdBy, sourceVersion := js "0.3"
      records := recordsOf rows, blobs }

theorem ok_of_bind {α β : Type} {x : Except ServiceError α} {f : α → Except ServiceError β} {b : β}
    (h : x >>= f = .ok b) : ∃ a, x = .ok a ∧ f a = .ok b := by
  cases x with
  | error e => cases h
  | ok a => exact ⟨a, rfl, h⟩

/-- The records of a source are the rows that were read. -/
theorem read_records {T : Timestamps} {openReadStream : JsString → Except ServiceError Bytes}
    {storageProvider : JsString} {input : ReadExport} {results : QueryResults} {source : ArchiveSource}
    (h : read T openReadStream storageProvider input results = .ok source) :
    source.records = recordsOf (results.map (camelizeRecord T)) := by
  rw [read] at h
  split at h
  · cases h
  · obtain ⟨blobs, -, h⟩ := ok_of_bind h
    cases h
    rfl

end TrustCore.PortabilityExport
