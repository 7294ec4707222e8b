import Mathlib.Data.Set.List
import TrustCore.ImportExecutor
import TrustCore.ImportReplanning
import TrustCore.ObjectStorage
import TrustCore.PlainTexts
import TrustCore.PolicyAssignments

/-!
# The rows of an import

`commitMetadata` sends one `INSERT ... ON CONFLICT DO NOTHING` for every record that the plan inserts,
in one transaction. A row that meets another under the columns of its conflict target is left out
without a word, so two records of one archive are both stored only if these columns keep them apart.
Most rows are kept apart by `id(targetId)` in a `uuid` column, where more texts are one than in the
archive.
-/

namespace TrustCore.ImportCommits

open TrustCore.Utf TrustCore.Json TrustCore.Dynamic TrustCore.Numbers TrustCore.ArchiveFormat
open TrustCore.ImportPlan TrustCore.ImportReferences TrustCore.ImportActions
open TrustCore.Sha256 (isSha256)
open TrustCore.ImportExecutor (ImportError metadataActions)
open TrustCore.EntityIds (storedId deterministicUuid)
open TrustCore.ImportReplanning (inserts mem_inserts)
open TrustCore.ObjectStorage (canonicalObjectKey canonicalKeyMessage)
open TrustCore.Columns (textColumn plain_of_isSha256 textColumn_jsonbText)
open TrustCore.PolicyAssignments (uuidColumn)

/-! ## What is read of a record -/

def importError (message : JsString) : ImportError := ⟨none, message⟩

def text (record : ArchiveRecord) (key : JsString) : Except ImportError JsString :=
  match field record key with
  | .string (u :: s) => .ok (u :: s)
  | _ => .error (importError (js "Imported " ++ key ++ js " must be a non-empty string."))

def optionalText (record : ArchiveRecord) (key : JsString) : Option JsString :=
  match field record key with
  | .string (u :: s) => some (u :: s)
  | _ => none

/-- `Number.isSafeInteger(value)`. -/
def isSafeInteger : JsValue → Bool
  | .number (.finite d _) =>
    match roundBinary (ratio d.coeff d.exp) with
    | some x =>
      let num := x.1 * 2 ^ x.2.toNat
      let den := 2 ^ (-x.2).toNat
      num % den == 0 && decide (num / den ≤ 2 ^ 53 - 1)
    | none => false
  | _ => false

def number (record : ArchiveRecord) (key : JsString) : Except ImportError JsValue :=
  if isSafeInteger (field record key) then .ok (field record key)
  else .error (importError (js "Imported " ++ key ++ js " must be a safe integer."))

def boolean (record : ArchiveRecord) (key : JsString) : Except ImportError Bool :=
  match field record key with
  | .bool b => .ok b
  | _ => .error (importError (js "Imported " ++ key ++ js " must be a boolean."))

/-- The value whose text `json` returns; `undefined` is the fallback of a call without one. -/
def json (record : ArchiveRecord) (key : JsString) (fallback : JsValue) :
    Except ImportError JsValue :=
  match if isNullish (field record key) then fallback else field record key with
  | .undefined => .error (importError (js "Imported " ++ key ++ js " is required."))
  | value => .ok value

def stringArray (record : ArchiveRecord) (key : JsString) : Except ImportError (List JsString) :=
  match field record key with
  | .undefined => .ok []
  | .array items =>
    match items.mapM asString with
    | some texts => .ok texts
    | none => .error (importError (js "Imported " ++ key ++ js " must be a string array."))
  | _ => .error (importError (js "Imported " ++ key ++ js " must be a string array."))

def referenceId (record : ArchiveRecord) (kindKey idKey : JsString) :
    Except ImportError JsString :=
  if strictEq (field record kindKey) (.string (js "external")) then text record idKey
  else (text record idKey).map storedId

/-! ## The statements -/

/-- A parameter of an `INSERT`; `databaseTime` is `now()`. -/
inductive Param where
  | null
  | text (value : JsString)
  | uuid (value : JsString)
  | uuids (values : List JsString)
  | number (value : JsValue)
  | boolean (value : Bool)
  | json (value : JsValue)
  | databaseTime

abbrev Reading := Except ImportError Param

section Readings

variable (record : ArchiveRecord) (key : JsString)

def textParam : Reading := (text record key).map .text

def idParam : Reading := (text record key).map fun value => .uuid (storedId value)

def optionalParam : Reading := .ok ((optionalText record key).elim .null .text)

def optionalOr (default : JsString) : Reading := .ok (.text ((optionalText record key).getD default))

def optionalId : Reading :=
  .ok ((optionalText record key).elim .null fun value => .uuid (storedId value))

def numberParam : Reading := (number record key).map .number

def jsonParam (fallback : JsValue) : Reading := (json record key fallback).map .json

end Readings

/-- What a target is built with, the time that its process reads, and the operation. -/
structure ImportRun where
  workspaceId : JsString
  storageProvider : JsString
  now : JsString
  operationId : JsString

/-- The columns of the row that `commitAction` inserts, with their parameters in order. -/
def columns (run : ImportRun) (sourceWorkspaceId targetId : JsString) (record : ArchiveRecord) :
    ArchiveRecordKind → List (String × Reading)
  | .workspaces => []
  | .schemaPackages =>
    [("id", .ok (.uuid (storedId targetId))),
      ("namespace", textParam record (js "namespace")),
      ("name", textParam record (js "name")),
      ("semantic_version", textParam record (js "semanticVersion")),
      ("schema_digest", textParam record (js "schemaDigest")),
      ("manifest_json", jsonParam record (js "manifest") .undefined),
      ("status", optionalOr record (js "status") (js "active")),
      ("created_at", optionalOr record (js "createdAt") run.now)]
  | .datasets =>
    [("id", .ok (.uuid (storedId targetId))), ("workspace_id", .ok (.uuid run.workspaceId)),
      ("schema_package_id", idParam record (js "schemaPackageId")),
      ("dataset_type", textParam record (js "datasetType")),
      ("name", textParam record (js "name")),
      ("status", optionalOr record (js "status") (js "active")),
      ("retention_policy_id", optionalId record (js "retentionPolicyId")),
      ("created_by", textParam record (js "createdBy")),
      ("created_at", textParam record (js "createdAt")),
      ("updated_at", textParam record (js "updatedAt"))]
  | .resources =>
    [("id", .ok (.uuid (storedId targetId))), ("workspace_id", .ok (.uuid run.workspaceId)),
      ("dataset_id", idParam record (js "datasetId")),
      ("resource_type", textParam record (js "resourceType")),
      ("title", optionalParam record (js "title")),
      ("status", optionalOr record (js "status") (js "active")),
      ("current_revision_id", optionalId record (js "currentRevisionId")),
      ("created_by", textParam record (js "createdBy")),
      ("created_at", textParam record (js "createdAt")),
      ("updated_at", textParam record (js "updatedAt"))]
  | .blobs =>
    [("id", .ok (.uuid (storedId targetId))), ("workspace_id", .ok (.uuid run.workspaceId)),
      ("sha256", textParam record (js "sha256")),
      ("byte_length", numberParam record (js "byteLength")),
      ("media_type", textParam record (js "mediaType")),
      ("storage_provider", .ok (.text run.storageProvider)),
      ("storage_key", (text record (js "sha256")).bind fun digest =>
        match canonicalObjectKey run.workspaceId digest with
        | some key => .ok (.text key)
        | none => .error (importError (canonicalKeyMessage run.workspaceId))),
      ("encryption_key_ref", optionalParam record (js "encryptionKeyRef")),
      ("encryption_state", optionalOr record (js "encryptionState") (js "provider_managed")),
      ("verification_state", .ok (.text (js "verified"))),
      ("created_at", textParam record (js "createdAt"))]
  | .revisions =>
    [("id", .ok (.uuid (storedId targetId))), ("workspace_id", .ok (.uuid run.workspaceId)),
      ("dataset_id", idParam record (js "datasetId")),
      ("resource_id", idParam record (js "resourceId")),
      ("revision_number", numberParam record (js "revisionNumber")),
      ("parent_revision_id", optionalId record (js "parentRevisionId")),
      ("merge_parent_revision_ids",
        (stringArray record (js "mergeParentRevisionIds")).map fun ids => .uuids (ids.map storedId)),
      ("schema_package_id", idParam record (js "schemaPackageId")),
      ("schema_version", textParam record (js "schemaVersion")),
      ("canonical_payload_json", jsonParam record (js "canonicalPayload") .undefined),
      ("canonical_payload_hash", textParam record (js "canonicalPayloadHash")),
      ("created_by", textParam record (js "createdBy")),
      ("created_on_device_id", optionalId record (js "createdOnDeviceId")),
      ("source", optionalOr record (js "source") (js "import")),
      ("change_note", optionalParam record (js "changeNote")),
      ("restored_from_revision_id", optionalId record (js "restoredFromRevisionId")),
      ("created_at", textParam record (js "createdAt"))]
  | .revisionBlobs =>
    [("id", .ok (.uuid (storedId targetId))), ("workspace_id", .ok (.uuid run.workspaceId)),
      ("revision_id", idParam record (js "revisionId")),
      ("blob_object_id", idParam record (js "blobObjectId")),
      ("role", textParam record (js "role")),
      ("logical_name", optionalParam record (js "logicalName")),
      ("metadata_json", jsonParam record (js "metadata") (.object [])),
      ("created_at", textParam record (js "createdAt"))]
  | .relations =>
    [("id", .ok (.uuid (storedId targetId))), ("workspace_id", .ok (.uuid run.workspaceId)),
      ("dataset_id", idParam record (js "datasetId")),
      ("source_kind", textParam record (js "sourceKind")),
      ("source_id", (referenceId record (js "sourceKind") (js "sourceId")).map .text),
      ("target_kind", textParam record (js "targetKind")),
      ("target_id", (referenceId record (js "targetKind") (js "targetId")).map .text),
      ("relation_type", textParam record (js "relationType")),
      ("metadata_json", jsonParam record (js "metadata") (.object [])),
      ("created_by", textParam record (js "createdBy")),
      ("created_at", textParam record (js "createdAt")),
      ("ended_at", optionalParam record (js "endedAt"))]
  | .tombstones =>
    [("id", .ok (.uuid (storedId targetId))), ("workspace_id", .ok (.uuid run.workspaceId)),
      ("dataset_id", idParam record (js "datasetId")),
      ("subject_kind", textParam record (js "subjectKind")),
      ("subject_id", (text record (js "subjectId")).map fun value => .text (storedId value)),
      ("deleted_by", textParam record (js "deletedBy")),
      ("deleted_at", textParam record (js "deletedAt")),
      ("reason", optionalParam record (js "reason")),
      ("recover_until", optionalParam record (js "recoverUntil")),
      ("prior_revision_id", optionalId record (js "priorRevisionId")),
      ("restored_at", optionalParam record (js "restoredAt")),
      ("restored_by", optionalParam record (js "restoredBy")),
      ("purge_state", optionalOr record (js "purgeState") (js "not_eligible"))]
  | .auditEvents =>
    [("id", (text record (js "id")).map fun eventId => .uuid
        (deterministicUuid (js "imported-audit:" ++ run.operationId ++ js ":" ++ eventId))),
      ("workspace_id", .ok (.uuid run.workspaceId)),
      ("import_operation_id", .ok (.uuid run.operationId)),
      ("source_workspace_id", .ok (.uuid sourceWorkspaceId)),
      ("source_event_id", textParam record (js "id")),
      ("source_previous_event_hash", optionalParam record (js "previousEventHash")),
      ("source_event_hash", textParam record (js "eventHash")),
      ("source_event_json", .ok (.json (.object record))),
      ("imported_at", .ok .databaseTime)]
  | .retention =>
    [("id", .ok (.uuid (storedId targetId))), ("workspace_id", .ok (.uuid run.workspaceId)),
      ("name", textParam record (js "name")),
      ("recovery_window_days", numberParam record (js "recoveryWindowDays")),
      ("minimum_history_days", numberParam record (js "minimumHistoryDays")),
      ("backup_retention_days", numberParam record (js "backupRetentionDays")),
      ("purge_enabled", (boolean record (js "purgeEnabled")).map .boolean),
      ("extensions_json", jsonParam record (js "extensions") (.object [])),
      ("created_by", textParam record (js "createdBy")),
      ("updated_by", textParam record (js "updatedBy")),
      ("created_at", textParam record (js "createdAt")),
      ("updated_at", textParam record (js "updatedAt"))]

/-- The parameters in their order, or the first error. -/
def readParams : List (String × Reading) → Except ImportError (List (String × Param))
  | [] => .ok []
  | (name, reading) :: rest => do
    let param ← reading
    let params ← readParams rest
    return (name, param) :: params

/-- A row of the table of a kind. -/
structure Row where
  table : ArchiveRecordKind
  columns : List (String × Param)

/-- The columns of `ON CONFLICT`. -/
def conflictTarget : ArchiveRecordKind → List String
  | .blobs => ["workspace_id", "sha256"]
  | .auditEvents => ["workspace_id", "import_operation_id", "source_event_id"]
  | .retention => ["workspace_id", "id"]
  | _ => ["id"]

/-- A `uuid` column holds one text for all that are read as one. -/
def uuidValue (value : JsString) : JsString := (uuidColumn value).getD value

def textValue (value : JsString) : JsString := (textColumn value).getD value

def Param.keyText : Param → Option JsString
  | .text value => some (textValue value)
  | .uuid value => some (uuidValue value)
  | _ => none

/-- What no other row of the table may have. -/
def Row.key (row : Row) : ArchiveRecordKind × List (Option JsString) :=
  (row.table, (conflictTarget row.table).map fun name =>
    (row.columns.lookup name).bind Param.keyText)

section Keys

variable {run : ImportRun} {sourceWorkspaceId targetId : JsString} {record : ArchiveRecord}
  {kind : ArchiveRecordKind}

theorem lookup_readParams {readings : List (String × Reading)} {params : List (String × Param)}
    (h : readParams readings = .ok params) (name : String) :
    params.lookup name = (readings.lookup name).bind Except.toOption := by
  induction readings generalizing params with
  | nil =>
    cases h
    rfl
  | cons head rest ih =>
    obtain ⟨name', reading⟩ := head
    rw [readParams] at h
    cases reading with
    | error e => cases h
    | ok param =>
      cases hrest : readParams rest with
      | error e =>
        rw [hrest] at h
        cases h
      | ok params' =>
        rw [hrest] at h
        cases h
        rw [List.lookup_cons, List.lookup_cons, ih hrest]
        cases name == name' <;> rfl

/-- What the key of a row has before its last part. -/
def keyPrefix (run : ImportRun) : ArchiveRecordKind → List (Option JsString)
  | .blobs => [some (uuidValue run.workspaceId)]
  | .auditEvents => [some (uuidValue run.workspaceId), some (uuidValue run.operationId)]
  | .retention => [some (uuidValue run.workspaceId)]
  | _ => []

/-- What tells the rows of one kind apart. -/
def rowId (kind : ArchiveRecordKind) (targetId : JsString) (record : ArchiveRecord) :
    Option JsString :=
  match kind with
  | .blobs => (optionalText record (js "sha256")).map textValue
  | .auditEvents => (optionalText record (js "id")).map textValue
  | _ => some (uuidValue (storedId targetId))

theorem textParam_keyText {key : JsString} :
    ((textParam record key).toOption).bind Param.keyText =
      (optionalText record key).map textValue := by
  rw [textParam, text, optionalText]
  split <;> rfl

theorem ok_of_readParams {readings : List (String × Reading)} {params : List (String × Param)}
    (h : readParams readings = .ok params) {reading : String × Reading} (hmem : reading ∈ readings) :
    ∃ param, reading.2 = .ok param := by
  induction readings generalizing params with
  | nil => cases hmem
  | cons head rest ih =>
    obtain ⟨name, first⟩ := head
    rw [readParams] at h
    cases first with
    | error e => cases h
    | ok param =>
      cases hrest : readParams rest with
      | error e =>
        rw [hrest] at h
        cases h
      | ok params' =>
        obtain rfl | hmem := List.mem_cons.mp hmem
        · exact ⟨param, rfl⟩
        · exact ih hrest hmem

/-- The storage key of a blob is composed of a digest only. -/
theorem digest_of_columns {params : List (String × Param)}
    (h : readParams (columns run sourceWorkspaceId targetId record .blobs) = .ok params) :
    ∃ digest key, field record (js "sha256") = .string digest ∧
      text record (js "sha256") = .ok digest ∧ canonicalObjectKey run.workspaceId digest = some key := by
  have hmem : ("storage_key", (text record (js "sha256")).bind fun digest =>
      match canonicalObjectKey run.workspaceId digest with
      | some key => Except.ok (Param.text key)
      | none => .error (importError (canonicalKeyMessage run.workspaceId))) ∈
        columns run sourceWorkspaceId targetId record .blobs := by
    simp [columns]
  obtain ⟨param, hparam⟩ := ok_of_readParams h hmem
  rw [text] at hparam ⊢
  split at hparam
  · rename_i u s hdigest
    simp only [Except.bind] at hparam
    split at hparam
    · rename_i key hkey
      exact ⟨u :: s, key, hdigest, rfl, hkey⟩
    · cases hparam
  · cases hparam

theorem isSha256_of_canonicalObjectKey {workspaceId digest key : JsString}
    (h : canonicalObjectKey workspaceId digest = some key) : isSha256 digest = true := by
  rw [canonicalObjectKey] at h
  split at h
  · rename_i hsafe
    rw [Bool.and_eq_true] at hsafe
    exact hsafe.2
  · cases h

theorem textValue_of_isSha256 {digest : JsString} (h : isSha256 digest = true) :
    textValue digest = digest := by
  rw [textValue, textColumn_jsonbText (plain_of_isSha256 h).jsonbText]
  rfl

theorem rowId_blob {digest key : JsString} (h : text record (js "sha256") = .ok digest)
    (hkey : canonicalObjectKey run.workspaceId digest = some key) :
    rowId .blobs targetId record = some digest := by
  rw [text] at h
  rw [rowId, optionalText]
  split at h
  · rename_i u s hdigest
    cases h
    rw [Option.map_some, textValue_of_isSha256 (isSha256_of_canonicalObjectKey hkey)]
  · cases h

theorem key_of_columns {params : List (String × Param)} (hk : kind ≠ .workspaces)
    (h : readParams (columns run sourceWorkspaceId targetId record kind) = .ok params) :
    Row.key ⟨kind, params⟩ = (kind, keyPrefix run kind ++ [rowId kind targetId record]) := by
  rw [Row.key]
  congr 1
  cases kind with
  | workspaces => exact absurd rfl hk
  | blobs =>
    simp only [conflictTarget, List.map_cons, List.map_nil, lookup_readParams h]
    rw [rowId, ← textParam_keyText]
    rfl
  | auditEvents =>
    simp only [conflictTarget, List.map_cons, List.map_nil, lookup_readParams h]
    rw [rowId, ← textParam_keyText]
    rfl
  | _ =>
    simp only [conflictTarget, List.map_cons, List.map_nil, lookup_readParams h]
    rfl

end Keys

/-- The row that `commitAction` inserts for an action, or the error of reading its record. -/
def insertOf (run : ImportRun) (sourceWorkspaceId : JsString) (action : ArchiveImportAction) :
    Option (Except ImportError Row) :=
  match action.record, action.kind with
  | some record, .record kind =>
    if action.disposition ≠ .insert ∨ kind = .workspaces then none
    else some ((readParams (columns run sourceWorkspaceId action.targetId record kind)).map
      fun columns => ⟨kind, columns⟩)
  | _, _ => none

/-- The other constraints of the tables: the types and checks that a statement is refused for, and
those that are deferred to the end of the transaction. -/
structure Constraints where
  insert : Row → List Row → Option ImportError
  commit : List Row → Option ImportError

/-- `ON CONFLICT DO NOTHING`. -/
def put (tables : List Row) (row : Row) : List Row :=
  if tables.any fun old => old.key == row.key then tables else tables ++ [row]

def commitAction (constraints : Constraints) (run : ImportRun) (plan : ArchiveImportPlan)
    (tables : List Row) (action : ArchiveImportAction) : Except ImportError (List Row) :=
  match insertOf run plan.sourceWorkspaceId action with
  | none => .ok tables
  | some (.error e) => .error e
  | some (.ok row) =>
    match constraints.insert row tables with
    | some e => .error e
    | none => .ok (put tables row)

def assertCommittedBlob (run : ImportRun) (stored : JsString → Bool)
    (action : ArchiveImportAction) : Except ImportError Unit :=
  if action.kind = .record .blobs ∧ action.disposition = .insert then
    (text (action.record.getD []) (js "sha256")).bind fun digest =>
      match canonicalObjectKey run.workspaceId digest with
      | some key =>
        if stored key then .ok ()
        else .error (importError (js "Blob metadata cannot commit before immutable bytes exist."))
      | none => .error (importError (canonicalKeyMessage run.workspaceId))
  else .ok ()

def assertCommittedBlobs (run : ImportRun) (stored : JsString → Bool)
    (actions : List ArchiveImportAction) : Except ImportError Unit :=
  actions.forM (assertCommittedBlob run stored)

/-- `commitMetadata` where the object storage has the keys that are `stored`. -/
def commitMetadata (constraints : Constraints) (run : ImportRun) (stored : JsString → Bool)
    (plan : ArchiveImportPlan) (actions : List ArchiveImportAction) (tables : List Row) :
    Except ImportError (List Row) := do
  assertCommittedBlobs run stored actions
  let tables ← actions.foldlM (commitAction constraints run plan) tables
  match constraints.commit tables with
  | some e => .error e
  | none => .ok tables

/-- The actions have different identities, and a commit that goes through adds the row of every
insert, where nothing is stored under its key before. -/
structure FaithfulInserts (run : ImportRun) (plan : ArchiveImportPlan) : Prop where
  identities : (plan.actions.map identity).Nodup
  rows : ∀ constraints stored tables tables',
    (∀ action ∈ plan.actions, ∀ row,
      insertOf run plan.sourceWorkspaceId action = some (.ok row) →
        ∀ old ∈ tables, old.key ≠ row.key) →
    commitMetadata constraints run stored plan (metadataActions plan) tables = .ok tables' →
      ∃ rows : List Row, (metadataActions plan).filterMap (insertOf run plan.sourceWorkspaceId) =
        rows.map .ok ∧ tables' = tables ++ rows

/-! ## Commits -/

section Commits

variable {constraints : Constraints} {run : ImportRun} {plan : ArchiveImportPlan}

theorem insertOf_cases {source : JsString} {a : ArchiveImportAction}
    {reading : Except ImportError Row} (h : insertOf run source a = some reading) :
    ∃ record kind, a.record = some record ∧ a.kind = .record kind ∧ a.disposition = .insert ∧
      kind ≠ .workspaces ∧ reading =
        (readParams (columns run source a.targetId record kind)).map fun columns => ⟨kind, columns⟩ := by
  rw [insertOf] at h
  split at h
  · rename_i record kind hrecord hkind
    split at h
    · cases h
    · rename_i hcond
      push Not at hcond
      cases h
      exact ⟨record, kind, hrecord, hkind, hcond.1, hcond.2, rfl⟩
  · cases h

theorem insertOf_record {source : JsString} {a : ArchiveImportAction} {record : ArchiveRecord}
    {kind : ArchiveRecordKind} (hrecord : a.record = some record) (hkind : a.kind = .record kind)
    (hinsert : a.disposition = .insert) (hk : kind ≠ .workspaces) :
    insertOf run source a = some ((readParams (columns run source a.targetId record kind)).map
      fun columns => ⟨kind, columns⟩) := by
  simp only [insertOf, hrecord, hkind, hinsert, hk, ne_eq, not_true, or_self, if_false]

theorem put_of_fresh {tables : List Row} {row : Row} (h : ∀ old ∈ tables, old.key ≠ row.key) :
    put tables row = tables ++ [row] := by
  have hnone : (tables.any fun old => old.key == row.key) = false := by
    rw [List.any_eq_false]
    intro old hold
    simpa using h old hold
  rw [put, hnone]
  rfl

theorem nodup_put {tables : List Row} {row : Row} (h : (tables.map Row.key).Nodup) :
    ((put tables row).map Row.key).Nodup := by
  rw [put]
  split
  · exact h
  · rename_i hany
    rw [List.map_append, List.map_singleton, ← List.concat_eq_append, List.nodup_concat]
    refine ⟨?_, h⟩
    intro hmem
    obtain ⟨old, hold, hkey⟩ := List.mem_map.mp hmem
    exact hany (List.any_eq_true.mpr ⟨old, hold, beq_iff_eq.mpr hkey⟩)

theorem nodup_puts {rows tables : List Row} (h : (tables.map Row.key).Nodup) :
    ((rows.foldl put tables).map Row.key).Nodup := by
  induction rows generalizing tables with
  | nil => exact h
  | cons row rows ih => exact ih (nodup_put h)

theorem puts_of_fresh {rows tables : List Row} (hnodup : (rows.map Row.key).Nodup)
    (hfresh : ∀ row ∈ rows, ∀ old ∈ tables, old.key ≠ row.key) :
    rows.foldl put tables = tables ++ rows := by
  induction rows generalizing tables with
  | nil => rw [List.append_nil, List.foldl_nil]
  | cons row rows ih =>
    rw [List.map_cons, List.nodup_cons] at hnodup
    rw [List.foldl_cons, put_of_fresh (hfresh row List.mem_cons_self), ih hnodup.2,
      List.append_assoc]
    · rfl
    · intro row' hrow' old hold
      obtain hold | hold := List.mem_append.mp hold
      · exact hfresh row' (List.mem_cons_of_mem _ hrow') old hold
      · rw [List.mem_singleton.mp hold]
        intro hkey
        exact hnodup.1 (hkey ▸ List.mem_map_of_mem hrow')

theorem commitAction_cases {action : ArchiveImportAction} {tables tables' : List Row}
    (h : commitAction constraints run plan tables action = .ok tables') :
    (insertOf run plan.sourceWorkspaceId action = none ∧ tables' = tables) ∨
      ∃ row, insertOf run plan.sourceWorkspaceId action = some (.ok row) ∧
        tables' = put tables row := by
  rw [commitAction] at h
  split at h
  · rename_i hinsert
    cases h
    exact Or.inl ⟨hinsert, rfl⟩
  · cases h
  · rename_i row hinsert
    split at h
    · cases h
    · cases h
      exact Or.inr ⟨row, hinsert, rfl⟩

/-- A commit that goes through has read every record and has put every row. -/
theorem commitActions_ok {actions : List ArchiveImportAction} {tables tables' : List Row}
    (h : actions.foldlM (commitAction constraints run plan) tables = .ok tables') :
    ∃ rows : List Row, actions.filterMap (insertOf run plan.sourceWorkspaceId) = rows.map .ok ∧
      tables' = rows.foldl put tables := by
  induction actions generalizing tables with
  | nil =>
    cases h
    exact ⟨[], rfl, rfl⟩
  | cons action actions ih =>
    rw [List.foldlM_cons] at h
    cases hstep : commitAction constraints run plan tables action with
    | error e =>
      rw [hstep] at h
      cases h
    | ok stored =>
      rw [hstep] at h
      obtain ⟨rows, hrows, htables⟩ := ih h
      obtain ⟨hinsert, rfl⟩ | ⟨row, hinsert, rfl⟩ := commitAction_cases hstep
      · exact ⟨rows, by rw [List.filterMap_cons_none hinsert, hrows], htables⟩
      · exact ⟨row :: rows, by rw [List.filterMap_cons_some hinsert, hrows, List.map_cons],
          htables⟩

/-- Tables without other constraints. -/
def unconstrained : Constraints := ⟨fun _ _ => none, fun _ => none⟩

theorem commitActions_unconstrained {actions : List ArchiveImportAction} {tables rows : List Row}
    (h : actions.filterMap (insertOf run plan.sourceWorkspaceId) = rows.map .ok) :
    actions.foldlM (commitAction unconstrained run plan) tables = .ok (rows.foldl put tables) := by
  induction actions generalizing tables rows with
  | nil =>
    rw [List.map_eq_nil_iff.mp h.symm]
    rfl
  | cons action actions ih =>
    rw [List.foldlM_cons]
    cases hinsert : insertOf run plan.sourceWorkspaceId action with
    | none =>
      rw [List.filterMap_cons_none hinsert] at h
      have hstep : commitAction unconstrained run plan tables action = .ok tables := by
        rw [commitAction, hinsert]
      rw [hstep]
      exact ih h
    | some reading =>
      rw [List.filterMap_cons_some hinsert] at h
      obtain ⟨row, rest, rfl, rfl, hrest⟩ := List.map_eq_cons_iff.mp h.symm
      have hstep : commitAction unconstrained run plan tables action = .ok (put tables row) := by
        rw [commitAction, hinsert]
        rfl
      rw [hstep]
      exact ih hrest.symm

theorem commitMetadata_ok {stored : JsString → Bool} {actions : List ArchiveImportAction}
    {tables tables' : List Row}
    (h : commitMetadata constraints run stored plan actions tables = .ok tables') :
    ∃ rows : List Row, actions.filterMap (insertOf run plan.sourceWorkspaceId) = rows.map .ok ∧
      tables' = rows.foldl put tables := by
  rw [commitMetadata] at h
  cases hblobs : assertCommittedBlobs run stored actions with
  | error e =>
    rw [hblobs] at h
    cases h
  | ok _ =>
    cases hactions : actions.foldlM (commitAction constraints run plan) tables with
    | error e =>
      rw [hblobs, hactions] at h
      cases h
    | ok inserted =>
      rw [hblobs, hactions] at h
      cases hdeferred : constraints.commit inserted with
      | some e =>
        simp [hdeferred, bind, Except.bind] at h
      | none =>
        simp only [hdeferred, bind, Except.bind, Except.ok.injEq] at h
        exact h ▸ commitActions_ok hactions

/-- The blobs that can be inserted are all found in a storage that has every key. -/
theorem assertCommittedBlobs_all {actions : List ArchiveImportAction} {rows : List Row}
    (hrecords : ∀ a ∈ actions, a.kind = .record .blobs → a.record ≠ none)
    (h : actions.filterMap (insertOf run plan.sourceWorkspaceId) = rows.map .ok) :
    assertCommittedBlobs run (fun _ => true) actions = .ok () := by
  have hok : ∀ a ∈ actions, assertCommittedBlob run (fun _ => true) a = .ok () := by
    intro a ha
    rw [assertCommittedBlob]
    split
    · rename_i hblob
      obtain ⟨record, hrecord⟩ := Option.ne_none_iff_exists'.mp (hrecords a ha hblob.1)
      have hreading := @insertOf_record run plan.sourceWorkspaceId a record .blobs hrecord hblob.1
        hblob.2 (by decide)
      have hmem := List.mem_filterMap.mpr ⟨a, ha, hreading⟩
      rw [h] at hmem
      obtain ⟨row, -, hrow⟩ := List.mem_map.mp hmem
      cases hparams : readParams (columns run plan.sourceWorkspaceId a.targetId record .blobs) with
      | error e =>
        rw [hparams] at hrow
        cases hrow
      | ok params =>
        obtain ⟨digest, key, -, htext, hkey⟩ := digest_of_columns hparams
        simp [hrecord, htext, hkey, Except.bind]
    · rfl
  rw [assertCommittedBlobs]
  clear hrecords h
  induction actions with
  | nil => rfl
  | cons a actions ih =>
    rw [List.forM, hok a List.mem_cons_self]
    exact ih fun b hb => hok b (List.mem_cons_of_mem _ hb)

/-- Every commit that goes through adds all rows exactly if their keys are different, where it
reads every record at all. -/
theorem faithfulInserts_iff
    (hrecords : ∀ a ∈ plan.actions, a.kind = .record .blobs → a.record ≠ none) :
    FaithfulInserts run plan ↔ (plan.actions.map identity).Nodup ∧
      ∀ rows : List Row,
        (metadataActions plan).filterMap (insertOf run plan.sourceWorkspaceId) = rows.map .ok →
          (rows.map Row.key).Nodup := by
  have hinjective : Function.Injective (Except.ok : Row → Except ImportError Row) :=
    fun _ _ h => Except.ok.inj h
  constructor
  · intro hf
    refine ⟨hf.identities, ?_⟩
    intro rows hrows
    have hblobs : assertCommittedBlobs run (fun _ => true) (metadataActions plan) = .ok () :=
      assertCommittedBlobs_all (fun a ha => hrecords a (List.mem_of_mem_filter ha)) hrows
    have hcommit : commitMetadata unconstrained run (fun _ => true) plan (metadataActions plan) [] =
        .ok (rows.foldl put []) := by
      rw [commitMetadata, hblobs, commitActions_unconstrained hrows]
      rfl
    obtain ⟨rows', hrows', htables⟩ := hf.rows unconstrained _ [] _ (by simp) hcommit
    rw [hrows] at hrows'
    rw [List.nil_append, ← List.map_injective_iff.mpr hinjective hrows'] at htables
    rw [← htables]
    exact nodup_puts List.nodup_nil
  · rintro ⟨hidentities, hkeys⟩
    refine ⟨hidentities, ?_⟩
    intro constraints stored tables tables' hfresh hcommit
    obtain ⟨rows, hrows, rfl⟩ := commitMetadata_ok hcommit
    refine ⟨rows, hrows, puts_of_fresh (hkeys rows hrows) ?_⟩
    intro row hrow
    have hmem : Except.ok row ∈ (metadataActions plan).filterMap
        (insertOf run plan.sourceWorkspaceId) := hrows ▸ List.mem_map_of_mem hrow
    obtain ⟨action, haction, hinsert⟩ := List.mem_filterMap.mp hmem
    exact hfresh action (List.mem_of_mem_filter haction) row hinsert

end Commits

/-! ## The archive -/

/-- What tells the rows of a kind other than blobs apart: an audit event keeps the id that it has in
the archive in a text column. -/
def storedKey (kind : ArchiveRecordKind) (id : JsString) : JsString :=
  if kind = .auditEvents then textValue id else uuidValue (storedId id)

/-- The ids of a kind under which records are inserted. -/
def insertedIds (request : ArchiveImportRequest) (kind : ArchiveRecordKind) : Set JsString :=
  { id | ∃ r ∈ request.archive.verification.records kind,
    importedId request kind r = some id ∧ request.target.find kind id = .absent }

/-- No two records are inserted under ids that their column does not tell apart. -/
def SeparateIds (request : ArchiveImportRequest) : Prop :=
  ∀ kind, kind ≠ .workspaces → kind ≠ .blobs →
    Set.InjOn (storedKey kind) (insertedIds request kind)

/-- Every record that is inserted has what its statement reads. -/
def Readable (run : ImportRun) (request : ArchiveImportRequest) : Prop :=
  ∀ kind, kind ≠ .workspaces → ∀ r ∈ request.archive.verification.records kind, ∀ id,
    importedId request kind r = some id → request.target.find kind id = .absent →
      ∃ params, readParams (columns run request.archive.manifest.workspaceId id
        (rewritten request kind r) kind) = .ok params

section Archive

variable {localeLe : JsString → JsString → Bool} {request : ArchiveImportRequest}
  {plan : ArchiveImportPlan} {run : ImportRun}

theorem sourceWorkspaceId_plan (h : planArchiveImport localeLe request = some plan) :
    plan.sourceWorkspaceId = request.archive.manifest.workspaceId := by
  obtain ⟨_, _, _, _, -, -, -, -, rfl⟩ := planArchiveImport_eq.mp h
  rfl

/-- The record of an action that inserts. -/
theorem inserted_of_action (h : planArchiveImport localeLe request = some plan)
    (hr : plan.status = .ready) {a : ArchiveImportAction} (ha : a ∈ plan.actions)
    {kind : ArchiveRecordKind} (hk : a.kind = .record kind) (hinsert : a.disposition = .insert) :
    ∃ r ∈ request.archive.verification.records kind,
      importedId request kind r = some a.targetId ∧
      request.target.find kind a.targetId = .absent ∧ a.record = some (rewritten request kind r) := by
  obtain ⟨record, -, hrecord⟩ := action_record h hr ha hk
  have hmem : (a.targetId, record) ∈ inserts kind plan.actions := by
    refine List.mem_filterMap.mpr ⟨a, ha, ?_⟩
    rw [if_pos ⟨hk, hinsert⟩, hrecord, Option.map_some]
  obtain ⟨r, hrecords, hid, habsent, hrewritten⟩ := (mem_inserts h hr).mp hmem
  exact ⟨r, hrecords, hid, habsent, by rw [hrecord, hrewritten]⟩

/-- The action of a record that is inserted. -/
theorem action_of_inserted (h : planArchiveImport localeLe request = some plan)
    (hr : plan.status = .ready) {kind : ArchiveRecordKind} {r : ArchiveRecord}
    (hrecords : r ∈ request.archive.verification.records kind) {id : JsString}
    (hid : importedId request kind r = some id) (habsent : request.target.find kind id = .absent) :
    ∃ a ∈ plan.actions, a.kind = .record kind ∧ a.disposition = .insert ∧ a.targetId = id ∧
      a.record = some (rewritten request kind r) := by
  have hmem : (id, rewritten request kind r) ∈ inserts kind plan.actions :=
    (mem_inserts h hr).mpr ⟨r, hrecords, hid, habsent, rfl⟩
  obtain ⟨a, ha, hinsert⟩ := List.mem_filterMap.mp hmem
  split at hinsert
  · rename_i hcond
    obtain ⟨record, hrecord, heq⟩ := Option.map_eq_some_iff.mp hinsert
    obtain ⟨htarget, rfl⟩ := Prod.mk.inj heq
    exact ⟨a, ha, hcond.1, hcond.2, htarget, hrecord⟩
  · cases hinsert

theorem mem_metadataActions {a : ArchiveImportAction} {kind : ArchiveRecordKind}
    (ha : a ∈ plan.actions) (hk : a.kind = .record kind) (hinsert : a.disposition = .insert) :
    a ∈ metadataActions plan := by
  refine List.mem_filter.mpr ⟨ha, ?_⟩
  rw [hk, hinsert]
  rfl

/-- The row of an action, and its key. -/
theorem row_cases {source : JsString} {a : ArchiveImportAction} {row : Row}
    (h : insertOf run source a = some (.ok row)) :
    ∃ record kind, a.record = some record ∧ a.kind = .record kind ∧ a.disposition = .insert ∧
      kind ≠ .workspaces ∧
      readParams (columns run source a.targetId record kind) = .ok row.columns ∧
      row.key = (kind, keyPrefix run kind ++ [rowId kind a.targetId record]) := by
  obtain ⟨record, kind, hrecord, hkind, hinsert, hk, hreading⟩ := insertOf_cases h
  refine ⟨record, kind, hrecord, hkind, hinsert, hk, ?_⟩
  cases hparams : readParams (columns run source a.targetId record kind) with
  | error e =>
    rw [hparams] at hreading
    cases hreading
  | ok params =>
    rw [hparams] at hreading
    cases hreading
    exact ⟨rfl, key_of_columns hk hparams⟩

theorem row_of_action {source : JsString} {actions : List ArchiveImportAction} {rows : List Row}
    (hrows : actions.filterMap (insertOf run source) = rows.map .ok) {a : ArchiveImportAction}
    (ha : a ∈ actions) {record : ArchiveRecord} {kind : ArchiveRecordKind}
    (hrecord : a.record = some record) (hkind : a.kind = .record kind)
    (hinsert : a.disposition = .insert) (hk : kind ≠ .workspaces) :
    ∃ row, insertOf run source a = some (.ok row) ∧
      row.key = (kind, keyPrefix run kind ++ [rowId kind a.targetId record]) := by
  have hreading := @insertOf_record run source a record kind hrecord hkind hinsert hk
  have hmem := List.mem_filterMap.mpr ⟨a, ha, hreading⟩
  rw [hrows] at hmem
  obtain ⟨row, -, hrow⟩ := List.mem_map.mp hmem
  rw [← hrow] at hreading
  obtain ⟨record', kind', hrecord', hkind', -, -, -, hkey⟩ := row_cases hreading
  cases hrecord.symm.trans hrecord'
  cases hkind.symm.trans hkind'
  exact ⟨row, hreading, hkey⟩

/-- All records that are inserted can be read exactly if every statement is composed. -/
theorem readable_iff (h : planArchiveImport localeLe request = some plan)
    (hr : plan.status = .ready) : Readable run request ↔
      ∃ rows : List Row,
        (metadataActions plan).filterMap (insertOf run plan.sourceWorkspaceId) = rows.map .ok := by
  have hall : (∃ rows : List Row,
      (metadataActions plan).filterMap (insertOf run plan.sourceWorkspaceId) = rows.map .ok) ↔
        ∀ reading ∈ (metadataActions plan).filterMap (insertOf run plan.sourceWorkspaceId),
          ∃ row, Except.ok row = reading := by
    simp only [eq_comm (b := List.map _ _)]
    exact Set.ext_iff.mp (Set.range_list_map Except.ok) _
  rw [hall, sourceWorkspaceId_plan h]
  constructor
  · intro hreadable reading hmem
    obtain ⟨a, ha, hreading⟩ := List.mem_filterMap.mp hmem
    obtain ⟨record, kind, hrecord, hkind, hinsert, hk, rfl⟩ := insertOf_cases hreading
    obtain ⟨r, hrecords, hid, habsent, hrewritten⟩ :=
      inserted_of_action h hr (List.mem_of_mem_filter ha) hkind hinsert
    rw [hrecord, Option.some.injEq] at hrewritten
    subst hrewritten
    obtain ⟨params, hparams⟩ := hreadable kind hk r hrecords a.targetId hid habsent
    exact ⟨⟨kind, params⟩, by rw [hparams]; rfl⟩
  · intro hok kind hk r hrecords id hid habsent
    obtain ⟨a, ha, hkind, hinsert, rfl, hrecord⟩ := action_of_inserted h hr hrecords hid habsent
    obtain ⟨row, hrow⟩ := hok _ (List.mem_filterMap.mpr
      ⟨a, mem_metadataActions ha hkind hinsert, insertOf_record hrecord hkind hinsert hk⟩)
    cases hparams : readParams (columns run request.archive.manifest.workspaceId a.targetId
        (rewritten request kind r) kind) with
    | error e =>
      rw [hparams] at hrow
      cases hrow
    | ok params => exact ⟨params, rfl⟩

theorem optionalText_id {kind : ArchiveRecordKind} {r : ArchiveRecord} {id : JsString}
    (h : importedId request kind r = some id) (hk : kind ≠ .retention) :
    optionalText (rewritten request kind r) (js "id") = some id := by
  have hid : idOf (rewritten request kind r) = imported request kind (idOf r) := idOf_mapRecord kind
  rw [importedId] at h
  split at h
  · rename_i u s himported
    rw [himported] at hid
    rw [optionalText, ← idOf, hid]
    exact h
  · cases (if_neg hk).symm.trans h

/-- The last part of the key of an inserted row. -/
theorem rowId_inserted {kind : ArchiveRecordKind} {r : ArchiveRecord} {id : JsString}
    (h : importedId request kind r = some id) (hk : kind ≠ .blobs) :
    rowId kind id (rewritten request kind r) = some (storedKey kind id) := by
  cases kind with
  | blobs => exact absurd rfl hk
  | auditEvents => rw [rowId, optionalText_id h (by decide), Option.map_some, storedKey, if_pos rfl]
  | _ => rfl

theorem separateIds_of_nodup (h : ∀ kind, kind ≠ .workspaces → kind ≠ .blobs →
    (((request.archive.verification.records kind).filterMap (importedId request kind)).map
      (storedKey kind)).Nodup) : SeparateIds request := by
  rintro kind hw hb id ⟨r, hrecords, himported, -⟩ id' ⟨r', hrecords', himported', -⟩ hkey
  exact List.inj_on_of_nodup_map (h kind hw hb) (List.mem_filterMap.mpr ⟨r, hrecords, himported⟩)
    (List.mem_filterMap.mpr ⟨r', hrecords', himported'⟩) hkey

/-- Two blobs of one digest are one record of an archive with distinct records. -/
theorem blob_of_digest (hd : DistinctRecords request) {r r' : ArchiveRecord}
    (hr : r ∈ request.archive.verification.records .blobs)
    (hr' : r' ∈ request.archive.verification.records .blobs) {digest : JsString}
    (h : field r (js "sha256") = .string digest) (h' : field r' (js "sha256") = .string digest) :
    r = r' := by
  have hpairs := List.pairwise_filterMap.mp hd.digests
  have hsymm : Std.Symm fun r r' => ∀ digest, blobDigest r = some digest →
      ∀ digest', blobDigest r' = some digest' → digest ≠ digest' :=
    ⟨fun _ _ h digest hdigest digest' hdigest' => (h digest' hdigest' digest hdigest).symm⟩
  by_contra hne
  refine hpairs.forall hr hr' hne digest ?_ digest ?_ rfl
  · rw [blobDigest, h, asString]
  · rw [blobDigest, h', asString]

/-- The rows of two actions, where both have one, have different keys. -/
def DifferentKeys (run : ImportRun) (source : JsString) (a a' : ArchiveImportAction) : Prop :=
  ∀ row, insertOf run source a = some (.ok row) →
    ∀ row', insertOf run source a' = some (.ok row') → row.key ≠ row'.key

theorem differentKeys_symm (run : ImportRun) (source : JsString) :
    Std.Symm (DifferentKeys run source) :=
  ⟨fun _ _ h row hrow row' hrow' => (h row' hrow' row hrow).symm⟩

theorem nodup_keys_iff_pairwise {source : JsString} {actions : List ArchiveImportAction}
    {rows : List Row} (hrows : actions.filterMap (insertOf run source) = rows.map .ok) :
    (rows.map Row.key).Nodup ↔ actions.Pairwise (DifferentKeys run source) := by
  have hok : ∀ a row, (insertOf run source a).bind Except.toOption = some row ↔
      insertOf run source a = some (.ok row) := by
    intro a row
    cases insertOf run source a with
    | none => simp
    | some reading => cases reading <;> simp [Except.toOption]
  have hread : rows = actions.filterMap fun a => (insertOf run source a).bind Except.toOption := by
    rw [← List.filterMap_filterMap, hrows, List.filterMap_map]
    exact (List.filterMap_some).symm
  rw [List.Nodup, List.pairwise_map, hread, List.pairwise_filterMap]
  simp only [hok]
  rfl

/-- Two records that are inserted under ids of one key have one action between them. -/
theorem separateIds_of_differentKeys (h : planArchiveImport localeLe request = some plan)
    (hr : plan.status = .ready) {rows : List Row}
    (hrows : (metadataActions plan).filterMap (insertOf run plan.sourceWorkspaceId) = rows.map .ok)
    (hpairs : (metadataActions plan).Pairwise (DifferentKeys run plan.sourceWorkspaceId)) :
    SeparateIds request := by
  intro kind hw hb id hid id' hid' hkey
  obtain ⟨r, hrecords, himported, habsent⟩ := hid
  obtain ⟨r', hrecords', himported', habsent'⟩ := hid'
  obtain ⟨a, ha, hkind, hinsert, rfl, hrecord⟩ :=
    action_of_inserted h hr hrecords himported habsent
  obtain ⟨a', ha', hkind', hinsert', rfl, hrecord'⟩ :=
    action_of_inserted h hr hrecords' himported' habsent'
  by_contra hne
  have hmem := mem_metadataActions ha hkind hinsert
  have hmem' := mem_metadataActions ha' hkind' hinsert'
  obtain ⟨row, hrow, hrowKey⟩ := row_of_action hrows hmem hrecord hkind hinsert hw
  obtain ⟨row', hrow', hrowKey'⟩ := row_of_action hrows hmem' hrecord' hkind' hinsert' hw
  have hsymm := differentKeys_symm run plan.sourceWorkspaceId
  have hactions : a ≠ a' := fun heq => hne (congrArg ArchiveImportAction.targetId heq)
  apply hpairs.forall hmem hmem' hactions row hrow row' hrow'
  rw [hrowKey, hrowKey', rowId_inserted himported hb, rowId_inserted himported' hb, hkey]

/-- Two actions whose rows have one key insert one record. -/
theorem targetId_of_key (h : planArchiveImport localeLe request = some plan)
    (hr : plan.status = .ready) (hd : DistinctRecords request) (hseparate : SeparateIds request)
    {a a' : ArchiveImportAction} (ha : a ∈ plan.actions) (ha' : a' ∈ plan.actions) {row row' : Row}
    (hrow : insertOf run plan.sourceWorkspaceId a = some (.ok row))
    (hrow' : insertOf run plan.sourceWorkspaceId a' = some (.ok row')) (hkey : row.key = row'.key) :
    a.kind = a'.kind ∧ a.targetId = a'.targetId := by
  obtain ⟨record, kind, hrecord, hkind, hinsert, hw, hread, hrowKey⟩ := row_cases hrow
  obtain ⟨record', kind', hrecord', hkind', hinsert', -, hread', hrowKey'⟩ := row_cases hrow'
  rw [hrowKey, hrowKey'] at hkey
  obtain ⟨rfl, hlast⟩ := Prod.mk.inj hkey
  have hlast := List.singleton_inj.mp (List.append_cancel_left hlast)
  refine ⟨hkind.trans hkind'.symm, ?_⟩
  obtain ⟨r, hrecords, himported, habsent, hrewritten⟩ := inserted_of_action h hr ha hkind hinsert
  obtain ⟨r', hrecords', himported', habsent', hrewritten'⟩ :=
    inserted_of_action h hr ha' hkind' hinsert'
  obtain rfl := Option.some.inj (hrecord.symm.trans hrewritten)
  obtain rfl := Option.some.inj (hrecord'.symm.trans hrewritten')
  by_cases hb : kind = .blobs
  · subst hb
    obtain ⟨digest, key, hfield, htext, hobject⟩ := digest_of_columns hread
    obtain ⟨digest', key', hfield', htext', hobject'⟩ := digest_of_columns hread'
    rw [rowId_blob htext hobject, rowId_blob htext' hobject', Option.some.injEq] at hlast
    rw [rewritten, blob_sha256] at hfield hfield'
    obtain rfl := blob_of_digest hd hrecords hrecords' hfield (hlast ▸ hfield')
    exact Option.some.inj (himported.symm.trans himported')
  · rw [rowId_inserted himported hb, rowId_inserted himported' hb, Option.some.injEq] at hlast
    exact hseparate kind hw hb ⟨r, hrecords, himported, habsent⟩
      ⟨r', hrecords', himported', habsent'⟩ hlast

/-- The rows of an archive with distinct records have different keys exactly if their ids are kept
apart. -/
theorem nodup_keys_iff (h : planArchiveImport localeLe request = some plan)
    (hr : plan.status = .ready) (hd : DistinctRecords request) {rows : List Row}
    (hrows : (metadataActions plan).filterMap (insertOf run plan.sourceWorkspaceId) =
      rows.map .ok) : (rows.map Row.key).Nodup ↔ SeparateIds request := by
  rw [nodup_keys_iff_pairwise hrows]
  constructor
  · exact separateIds_of_differentKeys h hr hrows
  · intro hseparate
    have hidentities := List.pairwise_map.mp ((nodup_identities_iff h hr).mpr hd)
    refine (hidentities.sublist List.filter_sublist).imp_of_mem ?_
    intro a a' ha ha' hne row hrow row' hrow' hkey
    obtain ⟨hkind, htarget⟩ := targetId_of_key h hr hd hseparate (List.mem_of_mem_filter ha)
      (List.mem_of_mem_filter ha') hrow hrow' hkey
    exact hne (by rw [identity, identity, hkind, htarget])

end Archive

/-- The actions of a ready plan have different identities, and the rows of its inserts are all stored
by a commit that goes through, exactly when no two records of the archive are imported under one id,
no two blobs have one digest, and the ids of the inserted records stay apart in their columns. Of
records that cannot all be read no commit goes through. -/
theorem ready_inserts_faithful_iff (localeLe : JsString → JsString → Bool)
    (request : ArchiveImportRequest) (plan : ArchiveImportPlan) (run : ImportRun)
    (h : planArchiveImport localeLe request = some plan) (hr : plan.status = .ready) :
    FaithfulInserts run plan ↔
      DistinctRecords request ∧ (Readable run request → SeparateIds request) := by
  have hrecords : ∀ a ∈ plan.actions, a.kind = .record .blobs → a.record ≠ none := by
    intro a ha hkind
    obtain ⟨record, -, hrecord⟩ := action_record h hr ha hkind
    simp [hrecord]
  rw [faithfulInserts_iff hrecords, nodup_identities_iff h hr, readable_iff h hr]
  constructor
  · rintro ⟨hd, hkeys⟩
    exact ⟨hd, fun ⟨rows, hrows⟩ => (nodup_keys_iff h hr hd hrows).mp (hkeys rows hrows)⟩
  · rintro ⟨hd, hseparate⟩
    exact ⟨hd, fun rows hrows => (nodup_keys_iff h hr hd hrows).mpr (hseparate ⟨rows, hrows⟩)⟩

section Sample

def sampleResource (id title : JsString) (revision : JsValue) : ArchiveRecord :=
  [(js "id", .string id), (js "workspaceId", .string (js "11111111-1111-4111-8111-111111111111")),
    (js "datasetId", .string (js "33333333-3333-4333-8333-333333333333")),
    (js "resourceType", .string (js "note")), (js "title", .string title),
    (js "currentRevisionId", revision), (js "createdBy", .string (js "u")),
    (js "createdAt", .string (js "2026-01-01T00:00:00.000Z")),
    (js "updatedAt", .string (js "2026-01-01T00:00:00.000Z"))]

/-- A dataset of two resources, of which the first has a revision. -/
def resourceRecords (second : JsString) : Records
  | .workspaces => [[(js "id", .string (js "11111111-1111-4111-8111-111111111111"))]]
  | .schemaPackages =>
    [[(js "id", .string (js "22222222-2222-4222-8222-222222222222")),
      (js "namespace", .string (js "core")), (js "name", .string (js "notes")),
      (js "semanticVersion", .string (js "1.0.0")),
      (js "schemaDigest", .string (List.replicate 64 48)), (js "manifest", .object [])]]
  | .datasets =>
    [[(js "id", .string (js "33333333-3333-4333-8333-333333333333")),
      (js "workspaceId", .string (js "11111111-1111-4111-8111-111111111111")),
      (js "schemaPackageId", .string (js "22222222-2222-4222-8222-222222222222")),
      (js "datasetType", .string (js "notes")), (js "name", .string (js "notes")),
      (js "retentionPolicyId", .null), (js "createdBy", .string (js "u")),
      (js "createdAt", .string (js "2026-01-01T00:00:00.000Z")),
      (js "updatedAt", .string (js "2026-01-01T00:00:00.000Z"))]]
  | .resources =>
    [sampleResource (js "aaaaaaaa-aaaa-4aaa-8aaa-aaaaaaaaaaaa") (js "a")
      (.string (js "55555555-5555-4555-8555-555555555555")),
      sampleResource second (js "b") .null]
  | .revisions =>
    [[(js "id", .string (js "55555555-5555-4555-8555-555555555555")),
      (js "workspaceId", .string (js "11111111-1111-4111-8111-111111111111")),
      (js "datasetId", .string (js "33333333-3333-4333-8333-333333333333")),
      (js "resourceId", .string (js "aaaaaaaa-aaaa-4aaa-8aaa-aaaaaaaaaaaa")),
      (js "schemaPackageId", .string (js "22222222-2222-4222-8222-222222222222")),
      (js "schemaVersion", .string (js "1.0.0")), (js "revisionNumber", numberOf 1),
      (js "parentRevisionId", .null), (js "restoredFromRevisionId", .null),
      (js "mergeParentRevisionIds", .array []), (js "canonicalPayload", .object []),
      (js "canonicalPayloadHash", .string (List.replicate 64 48)),
      (js "createdBy", .string (js "u")), (js "createdAt", .string (js "2026-01-01T00:00:00.000Z"))]]
  | _ => []

/-- The archive of these records, imported into an empty target under its own ids. -/
def resourceRequest (second : JsString) : ArchiveImportRequest where
  archive :=
    { entries := EntryMap.empty
      manifest := { sampleManifest with
        workspaceId := js "11111111-1111-4111-8111-111111111111"
        datasetIds := [js "33333333-3333-4333-8333-333333333333"]
        auditLineage := ⟨js "11111111-1111-4111-8111-111111111111", 0, .null, .null⟩
        recordCounts := fun kind => (resourceRecords second kind).length }
      verification := ⟨true, resourceRecords second⟩ }
  mode := .preserveIds
  conflictMode := .rejectOnError
  target := ⟨none, fun _ => none, []⟩

def sampleRun : ImportRun where
  workspaceId := js "11111111-1111-4111-8111-111111111111"
  storageProvider := js "s3"
  now := js "2026-01-01T00:00:00.000Z"
  operationId := js "77777777-7777-5777-8777-777777777777"

/-- The status of the plan, the identities, and the rows that a commit into empty tables leaves. -/
def resourceOutcome (second : JsString) : Option (Bool × Bool × Option Nat) :=
  (planArchiveImport unitsLe (resourceRequest second)).map fun plan =>
    (plan.status == .ready, decide (plan.actions.map identity).Nodup,
      (commitMetadata unconstrained sampleRun (fun _ => true) plan (metadataActions plan) []).toOption.map
        List.length)

/-- Two ids of one row, which the plan takes for two. -/
example : resourceOutcome (js "AAAAAAAA-AAAA-4AAA-8AAA-AAAAAAAAAAAA") =
    some (true, true, some 4) := by decide +kernel

theorem planned_resources {second : JsString} {distinct : Bool} {count : Nat}
    (h : resourceOutcome second = some (true, distinct, some count)) :
    ∃ plan tables, planArchiveImport unitsLe (resourceRequest second) = some plan ∧
      plan.status = .ready ∧ decide (plan.actions.map identity).Nodup = distinct ∧
      commitMetadata unconstrained sampleRun (fun _ => true) plan (metadataActions plan) [] =
        .ok tables ∧ tables.length = count := by
  obtain ⟨plan, hplan, houtcome⟩ := Option.map_eq_some_iff.mp h
  obtain ⟨hready, houtcome⟩ := Prod.mk.inj houtcome
  obtain ⟨hdistinct, hcount⟩ := Prod.mk.inj houtcome
  obtain ⟨tables, htables, hlength⟩ := Option.map_eq_some_iff.mp hcount
  refine ⟨plan, tables, hplan, beq_iff_eq.mp hready, hdistinct, ?_, hlength⟩
  cases hcommit : commitMetadata unconstrained sampleRun (fun _ => true) plan
      (metadataActions plan) [] with
  | error e =>
    rw [hcommit] at htables
    cases htables
  | ok tables' =>
    rw [hcommit] at htables
    cases htables
    rfl

/-- The two resources of different ids are both stored. -/
theorem ready_inserts_faithful_resources : ∃ plan tables,
    planArchiveImport unitsLe (resourceRequest (js "bbbbbbbb-bbbb-4bbb-8bbb-bbbbbbbbbbbb")) =
      some plan ∧ plan.status = .ready ∧ FaithfulInserts sampleRun plan ∧
    commitMetadata unconstrained sampleRun (fun _ => true) plan (metadataActions plan) [] =
      .ok tables ∧ tables.length = 5 := by
  obtain ⟨plan, tables, h, hr, -, hcommit, hlength⟩ := planned_resources
    (show resourceOutcome (js "bbbbbbbb-bbbb-4bbb-8bbb-bbbbbbbbbbbb") = some (true, true, some 5) by
      decide +kernel)
  refine ⟨plan, tables, h, hr, ?_, hcommit, hlength⟩
  refine (ready_inserts_faithful_iff unitsLe _ plan sampleRun h hr).mpr ⟨⟨?_, List.nodup_nil⟩, ?_⟩
  · intro kind
    cases kind <;> decide +kernel
  · intro _
    apply separateIds_of_nodup
    intro kind _ _
    cases kind <;> decide +kernel

/-- Two resources of one id: the plan is ready, and the commit leaves one of them out. -/
theorem twin_resources_dropped : ∃ plan tables,
    (resourceRequest (js "aaaaaaaa-aaaa-4aaa-8aaa-aaaaaaaaaaaa")).archive.verification.valid = true ∧
    planArchiveImport unitsLe (resourceRequest (js "aaaaaaaa-aaaa-4aaa-8aaa-aaaaaaaaaaaa")) =
      some plan ∧ plan.status = .ready ∧
    commitMetadata unconstrained sampleRun (fun _ => true) plan (metadataActions plan) [] =
      .ok tables ∧ tables.length = 4 ∧ ¬ FaithfulInserts sampleRun plan := by
  obtain ⟨plan, tables, h, hr, hdistinct, hcommit, hlength⟩ := planned_resources
    (show resourceOutcome (js "aaaaaaaa-aaaa-4aaa-8aaa-aaaaaaaaaaaa") = some (true, false, some 4) by
      decide +kernel)
  refine ⟨plan, tables, rfl, h, hr, hcommit, hlength, ?_⟩
  intro hf
  exact of_decide_eq_false hdistinct hf.identities

end Sample

end TrustCore.ImportCommits
