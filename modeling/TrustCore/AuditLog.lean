import TrustCore.AuditChain
import TrustCore.Runs

/-!
# The writers of the audit log

Seven writers append to `audit_events`, each in one transaction under the
advisory lock of the workspace. Every one of them takes the event that is last in
`(occurred_at, id)` order as the predecessor, which is also the order the
verifier and the exporter read. The chain they leave is accepted as long as every
append comes last in that order and the first event of a workspace is not written
by the contract repository, whose empty predecessor comes back as 64 blanks.
-/

namespace TrustCore.AuditLog

open TrustCore.Utf TrustCore.Json TrustCore.Columns TrustCore.Sha256 TrustCore.AuditChain
open TrustCore.Runs

/-- JSON data, as every caller passes for metadata. -/
structure JsonObject where
  members : List (JsString × JsValue)
  json : isJson (.object members) = true

theorem isJson_empty : isJson (.object []) = true := rfl

def JsonObject.value (m : JsonObject) : JsValue := .object m.members

def hyphenate (hex : JsString) : JsString :=
  hex.take 8 ++ js "-" ++ (hex.drop 8).take 4 ++ js "-" ++ (hex.drop 12).take 4 ++ js "-" ++
    (hex.drop 16).take 4 ++ js "-" ++ hex.drop 20

def deterministicUuid (value : JsString) : JsString :=
  let hex := (sha256 (textEncode value)).take 32
  let variant := (js "89ab").getD ((hexValue (hex.getD 16 48)).getD 0 % 4) 56
  hyphenate ((hex.set 12 52).set 16 variant)

/-- A row of `audit_events`; the columns no reader of the chain selects are left out. -/
structure AuditRow where
  id : JsString
  workspaceId : JsString
  actorType : ActorType
  actorId : JsString
  action : JsString
  subjectKind : JsString
  subjectId : JsString
  occurredAt : Instant
  requestId : JsString
  correlationId : JsString
  previousEventHash : Option JsString
  eventHash : JsString
  metadataJson : JsValue

/-- The table in insertion order, all workspaces together. -/
abbrev Table := List AuditRow

/-- The order `ORDER BY occurred_at, id`; a UUID compares as its text does. -/
def before (t : Instant) (i : JsString) (t' : Instant) (i' : JsString) : Bool :=
  decide (t.ms < t'.ms) || (t.ms == t'.ms && unitsLe i i')

def rowLe (r r' : AuditRow) : Bool := before r.occurredAt r.id r'.occurredAt r'.id

def workspaceRows (t : Table) (workspaceId : JsString) : List AuditRow :=
  t.filter fun r => r.workspaceId == workspaceId

def orderedRows (t : Table) (workspaceId : JsString) : List AuditRow :=
  (workspaceRows t workspaceId).insertionSort fun r r' => rowLe r r' = true

/-- `SELECT event_hash … ORDER BY occurred_at DESC,id DESC LIMIT 1`, or the empty string. -/
def previousHash (t : Table) (workspaceId : JsString) : JsString :=
  ((orderedRows t workspaceId).getLast?.map AuditRow.eventHash).getD []

def mapAuditEvent (r : AuditRow) : ChainedAuditEvent where
  body :=
    { id := r.id, workspaceId := r.workspaceId, actorType := r.actorType, actorId := r.actorId,
      action := r.action, subjectKind := r.subjectKind, subjectId := r.subjectId,
      timestamp := toISOString r.occurredAt, requestId := r.requestId,
      correlationId := r.correlationId, metadata := r.metadataJson }
  previousEventHash := r.previousEventHash.getD []
  eventHash := r.eventHash

/-- The events as the verifier and the exporter read them. -/
def readEvents (t : Table) (workspaceId : JsString) : List ChainedAuditEvent :=
  (orderedRows t workspaceId).map mapAuditEvent

/-- `event.previousEventHash || null` in a `char(64)` column. -/
def orNull (hash : JsString) : Option JsString := if hash = [] then none else some (char64Column hash)

/-- `event.previousEventHash` in a `char(64)` column. -/
def asGiven (hash : JsString) : Option JsString := some (char64Column hash)

/-- The row of an event, unless one of its columns refuses the value. -/
def eventRow (e : ChainedAuditEvent) (occurredAt : Instant) (previous : Option JsString) :
    Option AuditRow := do
  let actorId ← textColumn e.body.actorId
  let action ← textColumn e.body.action
  let subjectKind ← textColumn e.body.subjectKind
  let subjectId ← textColumn e.body.subjectId
  let requestId ← textColumn e.body.requestId
  let correlationId ← textColumn e.body.correlationId
  let metadataJson ← jsonbColumn e.body.metadata
  return { id := e.body.id, workspaceId := e.body.workspaceId, actorType := e.body.actorType,
           actorId, action, subjectKind, subjectId, occurredAt, requestId, correlationId,
           previousEventHash := previous, eventHash := char64Column e.eventHash, metadataJson }

/-- What a writer does about an id that is already stored. -/
inductive Duplicate where
  | refuse
  | doNothing
  | returnEarly
  deriving DecidableEq

/-- The transaction of every writer; `none` is an error, which rolls back. -/
def appendEvent (duplicate : Duplicate) (column : JsString → Option JsString) (t : Table)
    (b : AuditEventBody) (occurredAt : Instant) : Option Table :=
  if duplicate = .returnEarly ∧ ∃ r ∈ t, r.workspaceId = b.workspaceId ∧ r.id = b.id then some t
  else
    let chained := appendAuditEvent b (previousHash t b.workspaceId)
    match eventRow chained occurredAt (column chained.previousEventHash) with
    | none => none
    | some row =>
      if ∃ r ∈ t, r.id = row.id then if duplicate = .doNothing then some t else none
      else some (t ++ [row])

structure HistoryAuditEvent where
  workspaceId : JsString
  actorId : JsString
  action : JsString
  subjectId : JsString
  occurredAt : Instant
  metadata : JsonObject

def HistoryAuditEvent.body (e : HistoryAuditEvent) (id requestId correlationId : JsString) :
    AuditEventBody :=
  { id, workspaceId := e.workspaceId, actorType := .user, actorId := e.actorId,
    action := e.action, subjectKind := js "resource", subjectId := e.subjectId,
    timestamp := toISOString e.occurredAt, requestId, correlationId,
    metadata := e.metadata.value }

/-- `PostgresHistoryRepository.appendAudit`; its three ids are random. -/
def historyAppendAudit (t : Table) (id requestId correlationId : JsString)
    (event : HistoryAuditEvent) : Option Table :=
  appendEvent .refuse orNull t (event.body id requestId correlationId) event.occurredAt

/-- The recorded blob of an ingest, as `recordBlob` returns it, and the ingest. -/
structure VerifiedIngest where
  workspaceId : JsString
  blobId : JsString
  sha256 : JsString
  byteLength : Numbers.Decimal
  double : Numbers.nearestDouble byteLength = some byteLength
  storageKey : JsString
  operationId : JsString
  actorId : JsString
  actorType : ActorType
  occurredAt : Instant

def VerifiedIngest.metadata (i : VerifiedIngest) : JsValue :=
  .object [(js "sha256", .string i.sha256), (js "byteLength", .number (.finite i.byteLength i.double)),
    (js "storageKey", .string i.storageKey)]

def VerifiedIngest.body (i : VerifiedIngest) : AuditEventBody :=
  { id := deterministicUuid (js "ingest-audit:" ++ i.operationId), workspaceId := i.workspaceId,
    actorType := i.actorType, actorId := i.actorId, action := js "blob.ingested",
    subjectKind := js "blob", subjectId := i.blobId, timestamp := toISOString i.occurredAt,
    requestId := deterministicUuid (js "ingest-request:" ++ i.operationId),
    correlationId := i.operationId, metadata := i.metadata }

def commitVerifiedIngest (t : Table) (i : VerifiedIngest) : Option Table :=
  appendEvent .doNothing orNull t i.body i.occurredAt

inductive Outcome where
  | succeeded
  | failed

def Outcome.text : Outcome → JsString
  | .succeeded => js "succeeded"
  | .failed => js "failed"

structure PortabilityAudit where
  workspaceId : JsString
  actorId : JsString
  principalType : ActorType
  action : JsString
  subjectKind : JsString
  subjectId : JsString
  requestId : JsString
  correlationId : JsString
  outcome : Outcome
  errorCode : Option JsString
  occurredAt : Instant

def PortabilityAudit.metadata (i : PortabilityAudit) : JsValue :=
  .object ((js "outcome", .string i.outcome.text) ::
    match i.errorCode with
    | none | some [] => []
    | some code => [(js "errorCode", .string code)])

def PortabilityAudit.body (i : PortabilityAudit) : AuditEventBody :=
  { id := deterministicUuid (js "portability-audit:" ++ i.workspaceId ++ js ":" ++ i.action ++
      js ":" ++ i.requestId ++ js ":" ++ i.outcome.text),
    workspaceId := i.workspaceId, actorType := i.principalType, actorId := i.actorId,
    action := i.action, subjectKind := i.subjectKind, subjectId := i.subjectId,
    timestamp := toISOString i.occurredAt, requestId := i.requestId,
    correlationId := i.correlationId, metadata := i.metadata }

def portabilityAppendAudit (t : Table) (i : PortabilityAudit) : Option Table :=
  appendEvent .returnEarly orNull t i.body i.occurredAt

/-- The audit input of an archive import, with the principal type of its operation row. -/
structure ImportAudit where
  workspaceId : JsString
  operationId : JsString
  requestedBy : JsString
  principalType : ActorType
  planId : JsString
  archiveExportId : JsString
  sourceWorkspaceId : JsString
  sourceAuditLineage : JsonObject
  occurredAt : Instant

def ImportAudit.metadata (i : ImportAudit) : JsValue :=
  .object [(js "planId", .string i.planId), (js "archiveExportId", .string i.archiveExportId),
    (js "sourceWorkspaceId", .string i.sourceWorkspaceId),
    (js "sourceAuditLineage", i.sourceAuditLineage.value)]

def ImportAudit.body (i : ImportAudit) : AuditEventBody :=
  { id := deterministicUuid (js "archive-import-audit:" ++ i.operationId),
    workspaceId := i.workspaceId, actorType := i.principalType, actorId := i.requestedBy,
    action := js "archive.imported", subjectKind := js "archive", subjectId := i.archiveExportId,
    timestamp := toISOString i.occurredAt,
    requestId := deterministicUuid (js "archive-import-request:" ++ i.operationId),
    correlationId := i.operationId, metadata := i.metadata }

def importAppendAudit (t : Table) (i : ImportAudit) : Option Table :=
  appendEvent .returnEarly orNull t i.body i.occurredAt

structure BreakGlassUse where
  workspaceId : JsString
  principalId : JsString
  grantId : JsString
  action : JsString
  reason : JsString
  requestId : Option JsString
  occurredAt : Instant

def BreakGlassUse.metadata (i : BreakGlassUse) : JsValue :=
  .object [(js "authorizedAction", .string i.action), (js "reason", .string i.reason)]

/-- A random id stands in for a missing request id. -/
def BreakGlassUse.body (i : BreakGlassUse) (id randomId : JsString) : AuditEventBody :=
  { id, workspaceId := i.workspaceId, actorType := .user, actorId := i.principalId,
    action := js "break_glass.used", subjectKind := js "break_glass_grant",
    subjectId := i.grantId, timestamp := toISOString i.occurredAt,
    requestId := i.requestId.getD randomId, correlationId := i.requestId.getD randomId,
    metadata := i.metadata }

def recordBreakGlassUse (t : Table) (id randomId : JsString) (i : BreakGlassUse) : Option Table :=
  appendEvent .refuse asGiven t (i.body id randomId) i.occurredAt

structure PolicyAssignmentChange where
  workspaceId : JsString
  actorId : JsString
  principalType : Option ActorType
  assignmentId : JsString
  created : Bool
  requestId : JsString
  occurredAt : Instant
  metadata : JsonObject

def PolicyAssignmentChange.body (i : PolicyAssignmentChange) (id : JsString) : AuditEventBody :=
  { id, workspaceId := i.workspaceId, actorType := i.principalType.getD .user,
    actorId := i.actorId,
    action := if i.created then js "policy_assignment.created"
      else js "policy_assignment.revoked",
    subjectKind := js "policy_assignment", subjectId := i.assignmentId,
    timestamp := toISOString i.occurredAt, requestId := i.requestId,
    correlationId := i.requestId, metadata := i.metadata.value }

def recordPolicyAssignmentChange (t : Table) (id : JsString) (i : PolicyAssignmentChange) :
    Option Table :=
  appendEvent .refuse asGiven t (i.body id) i.occurredAt

structure StorageProbe where
  workspaceId : JsString
  actorId : JsString
  principalType : Option ActorType
  requestId : JsString
  occurredAt : Instant
  metadata : JsonObject

def StorageProbe.body (i : StorageProbe) (id : JsString) : AuditEventBody :=
  { id, workspaceId := i.workspaceId, actorType := i.principalType.getD .user,
    actorId := i.actorId, action := js "storage.health.probed", subjectKind := js "workspace",
    subjectId := i.workspaceId, timestamp := toISOString i.occurredAt,
    requestId := i.requestId, correlationId := i.requestId, metadata := i.metadata.value }

def recordStorageProbe (t : Table) (id : JsString) (i : StorageProbe) : Option Table :=
  appendEvent .refuse asGiven t (i.body id) i.occurredAt

/-- One append by one of the writers, with the random ids it draws. -/
inductive Append where
  | history (id requestId correlationId : JsString) (event : HistoryAuditEvent)
  | ingest (input : VerifiedIngest)
  | portability (input : PortabilityAudit)
  | archiveImport (input : ImportAudit)
  | breakGlass (id randomId : JsString) (input : BreakGlassUse)
  | policyAssignment (id : JsString) (input : PolicyAssignmentChange)
  | storageProbe (id : JsString) (input : StorageProbe)

def Append.write (t : Table) : Append → Option Table
  | .history id requestId correlationId event => historyAppendAudit t id requestId correlationId event
  | .ingest i => commitVerifiedIngest t i
  | .portability i => portabilityAppendAudit t i
  | .archiveImport i => importAppendAudit t i
  | .breakGlass id randomId i => recordBreakGlassUse t id randomId i
  | .policyAssignment id i => recordPolicyAssignmentChange t id i
  | .storageProbe id i => recordStorageProbe t id i

/-- An append that fails leaves the table as it was. -/
def append (t : Table) (a : Append) : Table := (a.write t).getD t

/-- The log, from an empty table. -/
def auditLog : Machine Table Append where
  init t := t = []
  step t a t' := t' = append t a

def Append.body : Append → AuditEventBody
  | .history id requestId correlationId e => e.body id requestId correlationId
  | .ingest i => i.body
  | .portability i => i.body
  | .archiveImport i => i.body
  | .breakGlass id randomId i => i.body id randomId
  | .policyAssignment id i => i.body id
  | .storageProbe id i => i.body id

def Append.occurredAt : Append → Instant
  | .history _ _ _ e => e.occurredAt
  | .ingest i => i.occurredAt
  | .portability i => i.occurredAt
  | .archiveImport i => i.occurredAt
  | .breakGlass _ _ i => i.occurredAt
  | .policyAssignment _ i => i.occurredAt
  | .storageProbe _ i => i.occurredAt

/-- The writers of the contract repository, which store the predecessor as given. -/
def Append.isContract : Append → Bool
  | .breakGlass .. | .policyAssignment .. | .storageProbe .. => true
  | _ => false

theorem write_eq (a : Append) : ∃ duplicate, ∀ t, a.write t = appendEvent duplicate
    (if a.isContract then asGiven else orNull) t a.body a.occurredAt := by
  cases a with
  | history => exact ⟨.refuse, fun _ => rfl⟩
  | ingest => exact ⟨.doNothing, fun _ => rfl⟩
  | portability => exact ⟨.returnEarly, fun _ => rfl⟩
  | archiveImport => exact ⟨.returnEarly, fun _ => rfl⟩
  | breakGlass => exact ⟨.refuse, fun _ => rfl⟩
  | policyAssignment => exact ⟨.refuse, fun _ => rfl⟩
  | storageProbe => exact ⟨.refuse, fun _ => rfl⟩

theorem timestamp_eq (a : Append) : a.body.timestamp = toISOString a.occurredAt := by
  cases a <;> rfl

theorem isJson_portability (i : PortabilityAudit) : isJson i.metadata = true := by
  have hk : js "outcome" ≠ js "errorCode" := by decide
  unfold PortabilityAudit.metadata
  split <;> simp [isJson, isJsonMembers, hk]

theorem isJson_archiveImport (i : ImportAudit) : isJson i.metadata = true := by
  have hk : [js "planId", js "archiveExportId", js "sourceWorkspaceId",
      js "sourceAuditLineage"].Nodup := by decide
  simp [ImportAudit.metadata, isJson, isJsonMembers, JsonObject.value] at hk ⊢
  exact ⟨by simpa [isJson] using i.sourceAuditLineage.json, hk⟩

theorem isJson_metadata (a : Append) : isJson a.body.metadata = true := by
  cases a with
  | history _ _ _ e => exact e.metadata.json
  | ingest i =>
    have hk : [js "sha256", js "byteLength", js "storageKey"].Nodup := by decide
    simp [Append.body, VerifiedIngest.body, VerifiedIngest.metadata, isJson, isJsonMembers] at hk ⊢
    exact hk
  | portability i => exact isJson_portability i
  | archiveImport i => exact isJson_archiveImport i
  | breakGlass _ _ i =>
    have hk : js "authorizedAction" ≠ js "reason" := by decide
    simp [Append.body, BreakGlassUse.body, BreakGlassUse.metadata, isJson, isJsonMembers, hk]
  | policyAssignment _ i => exact i.metadata.json
  | storageProbe _ i => exact i.metadata.json

/-- No text of the event has an unpaired surrogate, which would be stored replaced. -/
structure WellFormedTexts (b : AuditEventBody) : Prop where
  actorId : isWellFormed b.actorId = true
  action : isWellFormed b.action = true
  subjectKind : isWellFormed b.subjectKind = true
  subjectId : isWellFormed b.subjectId = true
  requestId : isWellFormed b.requestId = true
  correlationId : isWellFormed b.correlationId = true

/-- The append comes after every stored event of its workspace, and the contract
repository does not write the first one. -/
structure InOrder (t : Table) (a : Append) : Prop where
  last : ∀ r ∈ workspaceRows t a.body.workspaceId,
    before r.occurredAt r.id a.occurredAt a.body.id = true
  first : workspaceRows t a.body.workspaceId = [] → a.isContract = false
  texts : WellFormedTexts a.body

/-- An append of a stored id stores nothing; any other one has to be in order. -/
def Orderly (t : Table) (a : Append) : Prop := (∃ r ∈ t, r.id = a.body.id) ∨ InOrder t a

/-- The columns of a row that come from the texts of its event. -/
theorem eventRow_texts {e : ChainedAuditEvent} {occurredAt : Instant} {previous : Option JsString}
    {row : AuditRow} (h : eventRow e occurredAt previous = some row) :
    row.id = e.body.id ∧ textColumn e.body.action = some row.action ∧
      textColumn e.body.correlationId = some row.correlationId := by
  simp only [eventRow, Option.bind_eq_bind, Option.bind_eq_some_iff, Option.pure_def,
    Option.some.injEq] at h
  obtain ⟨actorId, -, action, haction, subjectKind, -, subjectId, -, requestId, -, correlationId,
    hcorrelation, metadataJson, -, rfl⟩ := h
  exact ⟨rfl, haction, hcorrelation⟩

/-- The row of an in-order append, column by column. -/
theorem eventRow_eq {b : AuditEventBody} {p : JsString} {occurredAt : Instant}
    {previous : Option JsString} {row : AuditRow}
    (h : eventRow (appendAuditEvent b p) occurredAt previous = some row)
    (hw : WellFormedTexts b) : row =
      { id := b.id, workspaceId := b.workspaceId, actorType := b.actorType, actorId := b.actorId,
        action := b.action, subjectKind := b.subjectKind, subjectId := b.subjectId,
        occurredAt, requestId := b.requestId, correlationId := b.correlationId,
        previousEventHash := previous, eventHash := sha256 (message b p),
        metadataJson := sortKeys jsonbOrder b.metadata } := by
  simp only [eventRow, appendAuditEvent, Option.bind_eq_bind, Option.bind_eq_some_iff,
    Option.pure_def, Option.some.injEq] at h
  obtain ⟨actorId, h₁, action, h₂, subjectKind, h₃, subjectId, h₄, requestId, h₅, correlationId,
    h₆, metadataJson, h₇, rfl⟩ := h
  have hm : metadataJson = sortKeys jsonbOrder b.metadata := by
    unfold jsonbColumn at h₇
    split at h₇
    · exact (Option.some.inj h₇).symm
    · cases h₇
  rw [textColumn_eq h₁ hw.actorId, textColumn_eq h₂ hw.action, textColumn_eq h₃ hw.subjectKind,
    textColumn_eq h₄ hw.subjectId, textColumn_eq h₅ hw.requestId,
    textColumn_eq h₆ hw.correlationId, hm,
    char64Column_of_length (isSha256_length (isSha256_sha256 _))]

/-- The key order of stored metadata does not reach the hash. -/
theorem message_sortKeys (b : AuditEventBody) (E : Encoder) (h : isJson b.metadata = true)
    (p : JsString) : message { b with metadata := sortKeys E b.metadata } p = message b p := by
  have he := encode_sortKeys (keyOrder_units (some []) (some (js "undefined"))) E b.metadata h
  simp only [message, canonicalValue, AuditEventBody.value, AuditEventBody.members, encode,
    encodeMembers, auditEncoder, he]

/-- Either nothing is stored, or one row with a new id that follows `previousHash`. -/
theorem appendEvent_eq {duplicate : Duplicate} {column : JsString → Option JsString} {t : Table}
    {b : AuditEventBody} {occurredAt : Instant} {row : AuditRow}
    (hrow : eventRow (appendAuditEvent b (previousHash t b.workspaceId)) occurredAt
      (column (previousHash t b.workspaceId)) = some row) :
    appendEvent duplicate column t b occurredAt =
      if duplicate = .returnEarly ∧ ∃ r ∈ t, r.workspaceId = b.workspaceId ∧ r.id = b.id then some t
      else if ∃ r ∈ t, r.id = row.id then if duplicate = .doNothing then some t else none
      else some (t ++ [row]) := by
  unfold appendEvent
  simp only [appendAuditEvent] at hrow ⊢
  simp only [hrow]

theorem appendEvent_cases (duplicate : Duplicate) (column : JsString → Option JsString)
    (t : Table) (b : AuditEventBody) (occurredAt : Instant) :
    (appendEvent duplicate column t b occurredAt).getD t = t ∨
    ∃ row, eventRow (appendAuditEvent b (previousHash t b.workspaceId)) occurredAt
        (column (previousHash t b.workspaceId)) = some row ∧ (∀ r ∈ t, r.id ≠ row.id) ∧
      (appendEvent duplicate column t b occurredAt).getD t = t ++ [row] := by
  by_cases h₁ : duplicate = .returnEarly ∧ ∃ r ∈ t, r.workspaceId = b.workspaceId ∧ r.id = b.id
  · rw [appendEvent, if_pos h₁]
    exact Or.inl rfl
  cases hrow : eventRow (appendAuditEvent b (previousHash t b.workspaceId)) occurredAt
      (column (previousHash t b.workspaceId)) with
  | none =>
    refine Or.inl ?_
    rw [appendEvent, if_neg h₁]
    simp only [appendAuditEvent] at hrow ⊢
    simp [hrow]
  | some row =>
    rw [appendEvent_eq hrow, if_neg h₁]
    by_cases h₂ : ∃ r ∈ t, r.id = row.id
    · rw [if_pos h₂]
      refine Or.inl ?_
      split <;> rfl
    · rw [if_neg h₂]
      exact Or.inr ⟨row, rfl, fun r hr he => h₂ ⟨r, hr, he⟩, rfl⟩

theorem append_cases (t : Table) (a : Append) : append t a = t ∨
    ∃ row, eventRow (appendAuditEvent a.body (previousHash t a.body.workspaceId)) a.occurredAt
        ((if a.isContract then asGiven else orNull) (previousHash t a.body.workspaceId)) =
          some row ∧ (∀ r ∈ t, r.id ≠ row.id) ∧ append t a = t ++ [row] := by
  obtain ⟨duplicate, hw⟩ := write_eq a
  rw [append, hw t]
  exact appendEvent_cases _ _ _ _ _

/-- What the log keeps along an orderly run. -/
structure Chained (t : Table) : Prop where
  ids : (t.map AuditRow.id).Nodup
  json : ∀ r ∈ t, isJson r.metadataJson = true
  sorted : ∀ w, (workspaceRows t w).Pairwise fun r r' => rowLe r r' = true
  chain : ∀ w, verifyAuditChain ((workspaceRows t w).map mapAuditEvent) = true

theorem Chained.orderedRows_eq {t : Table} (h : Chained t) (w : JsString) :
    orderedRows t w = workspaceRows t w := List.Pairwise.insertionSort_eq (h.sorted w)

theorem workspaceRows_append (t : Table) (row : AuditRow) (w : JsString) :
    workspaceRows (t ++ [row]) w =
      if row.workspaceId = w then workspaceRows t w ++ [row] else workspaceRows t w := by
  unfold workspaceRows
  rw [List.filter_append]
  by_cases h : row.workspaceId = w <;> simp [h]

theorem Chained.previousHash_eq {t : Table} (h : Chained t) (w : JsString) :
    previousHash t w = lastHash [] ((workspaceRows t w).map mapAuditEvent) := by
  rw [previousHash, h.orderedRows_eq, lastHash, List.getLast?_map, Option.map_map]
  rfl

theorem Chained.previousHash_length {t : Table} (h : Chained t) (w : JsString)
    (hne : workspaceRows t w ≠ []) : (previousHash t w).length = 64 := by
  obtain ⟨rows, r, hr⟩ := (List.eq_nil_or_concat (workspaceRows t w)).resolve_left hne
  rw [List.concat_eq_append] at hr
  have hc := h.chain w
  rw [h.previousHash_eq, hr]
  rw [hr, List.map_append, List.map_singleton] at hc
  have hh := ((verifyFrom_append [] _ _).mp hc).2.2
  simp only [lastHash, List.map_append, List.map_cons, List.map_nil, List.getLast?_append,
    List.getLast?_singleton, Option.some_or, Option.map_some, Option.getD_some]
  rw [hh]
  exact isSha256_length (isSha256_sha256 _)

/-- The stored predecessor reads back as the hash that was chosen. -/
theorem Chained.column_previous {t : Table} (h : Chained t) {a : Append} (ho : InOrder t a) :
    ((if a.isContract then asGiven else orNull) (previousHash t a.body.workspaceId)).getD [] =
      previousHash t a.body.workspaceId := by
  by_cases hne : workspaceRows t a.body.workspaceId = []
  · have hp : previousHash t a.body.workspaceId = [] := by
      rw [h.previousHash_eq, hne]
      rfl
    simp [ho.first hne, orNull, hp]
  · have hl := h.previousHash_length _ hne
    cases a.isContract with
    | true => simp [asGiven, char64Column_of_length hl]
    | false =>
      have hp : previousHash t a.body.workspaceId ≠ [] := by
        intro hp
        simp [hp] at hl
      simp [orNull, hp, char64Column_of_length hl]

theorem Chained.append {t : Table} (h : Chained t) {a : Append} (ho : Orderly t a) :
    Chained (append t a) := by
  rcases append_cases t a with heq | ⟨row, hrow, hfresh, heq⟩
  · rw [heq]
    exact h
  rw [heq]
  have hin : InOrder t a := by
    rcases ho with ⟨r, hr, hid⟩ | hin
    · refine absurd ?_ (hfresh r hr)
      rw [hid]
      simp only [eventRow, Option.bind_eq_bind, Option.bind_eq_some_iff, Option.pure_def,
        Option.some.injEq] at hrow
      obtain ⟨_, _, _, _, _, _, _, _, _, _, _, _, _, _, rfl⟩ := hrow
      rfl
    · exact hin
  have hr := eventRow_eq hrow hin.texts
  have hprev := h.column_previous hin
  have hws : row.workspaceId = a.body.workspaceId := by rw [hr]
  refine ⟨?_, ?_, ?_, ?_⟩
  · rw [List.map_append, List.map_singleton, List.nodup_append]
    refine ⟨h.ids, by simp, ?_⟩
    intro i hi j hj
    obtain ⟨r, hr, rfl⟩ := List.mem_map.mp hi
    rw [List.mem_singleton.mp hj]
    exact hfresh r hr
  · intro r hmem
    rcases List.mem_append.mp hmem with hmem | hmem
    · exact h.json r hmem
    · rw [List.mem_singleton.mp hmem, hr]
      exact isJson_sortKeys _ _ (isJson_metadata a)
  · intro w
    rw [workspaceRows_append]
    split_ifs with hw
    · rw [List.pairwise_append]
      refine ⟨h.sorted w, List.pairwise_singleton _ _, ?_⟩
      intro r hrw r' hr'
      rw [List.mem_singleton.mp hr', hr]
      subst hw
      exact hin.last r (hws ▸ hrw)
    · exact h.sorted w
  · intro w
    rw [workspaceRows_append]
    split_ifs with hw
    · subst hw
      rw [List.map_append, List.map_singleton, verifyAuditChain, verifyFrom_append]
      refine ⟨h.chain _, ?_, ?_⟩
      · rw [← h.previousHash_eq, hws, hr]
        exact hprev
      · rw [← h.previousHash_eq, hws, hr]
        have hm := message_sortKeys a.body jsonbOrder (isJson_metadata a)
          (previousHash t a.body.workspaceId)
        simp only [mapAuditEvent, ← timestamp_eq a]
        exact congrArg sha256 hm.symm
    · exact h.chain w

theorem chained_of_reaches {t : Table} (h : auditLog.Reaches Orderly t) : Chained t := by
  refine h.invariant ?_ ?_
  · intro t ht
    rw [show t = [] from ht]
    exact ⟨by simp, by simp, by simp [workspaceRows], by simp [workspaceRows]; rfl⟩
  · intro t a t' hi ho hs
    rw [show t' = append t a from hs]
    exact hi.append ho

/-- In every orderly run the events of every workspace read back as an accepted
chain, and no two of them name the same predecessor. -/
theorem readEvents_chain {t : Table} (h : auditLog.Reaches Orderly t) (w : JsString)
    (hc : CollisionFree (messages (readEvents t w))) :
    verifyAuditChain (readEvents t w) = true ∧
      ((readEvents t w).map ChainedAuditEvent.previousEventHash).Nodup := by
  have hi := chained_of_reaches h
  have hread : readEvents t w = (workspaceRows t w).map mapAuditEvent := by
    rw [readEvents, hi.orderedRows_eq]
  have hchain : verifyAuditChain (readEvents t w) = true := by
    rw [hread]
    exact hi.chain w
  refine ⟨hchain, nodup_previousEventHash hchain ?_ ?_ hc⟩
  · rw [hread, List.map_map]
    exact hi.ids.sublist (List.Sublist.map _ List.filter_sublist)
  · intro e he
    rw [hread] at he
    obtain ⟨r, hr, rfl⟩ := List.mem_map.mp he
    exact hi.json r (List.mem_of_mem_filter hr)

def sampleWorkspace : JsString := js "00000000-0000-4000-8000-0000000000aa"

/-- An edit of one resource whose clock was read at the given second. -/
def sampleAppend (id : String) (second : Nat) (h : second < 1000) : Append :=
  .history (js id) (js "00000000-0000-4000-8000-0000000000f1")
    (js "00000000-0000-4000-8000-0000000000f2")
    { workspaceId := sampleWorkspace, actorId := js "user-1", action := js "revision.created",
      subjectId := js "00000000-0000-4000-8000-0000000000bb",
      occurredAt := ⟨second * 1000, by omega⟩, metadata := ⟨[], isJson_empty⟩ }

def firstSample : Append :=
  sampleAppend "00000000-0000-4000-8000-000000000001" 2 (by decide)

def secondSample : Append :=
  sampleAppend "00000000-0000-4000-8000-000000000002" 3 (by decide)

/-- Two edits one second apart, in clock order. -/
theorem readEvents_chain_two :
    auditLog.Reaches Orderly (append (append [] firstSample) secondSample) ∧
      verifyAuditChain
        (readEvents (append (append [] firstSample) secondSample) sampleWorkspace) = true := by
  have h₁ : Orderly [] firstSample :=
    Or.inr ⟨by decide, fun _ => rfl, ⟨rfl, rfl, rfl, rfl, rfl, rfl⟩⟩
  have h₂ : Orderly (append [] firstSample) secondSample :=
    Or.inr ⟨by decide +kernel, fun _ => rfl, ⟨rfl, rfl, rfl, rfl, rfl, rfl⟩⟩
  have hr : auditLog.Reaches Orderly (append (append [] firstSample) secondSample) :=
    ((Machine.Reaches.init rfl).step h₁ rfl).step h₂ rfl
  refine ⟨hr, (readEvents_chain hr sampleWorkspace ?_).1⟩
  exact collisionFree_messages (by decide +kernel)

def lateSample : Append :=
  sampleAppend "00000000-0000-4000-8000-000000000003" 1 (by decide)

theorem late_append_read :
    ((readEvents (append (append (append [] firstSample) lateSample) secondSample) sampleWorkspace).map
      fun e => sha256 (message e.body e.previousEventHash)).Nodup ∧
    verifyAuditChain (readEvents (append (append (append [] firstSample) lateSample) secondSample)
      sampleWorkspace) = false ∧
    ¬((readEvents (append (append (append [] firstSample) lateSample) secondSample)
      sampleWorkspace).map ChainedAuditEvent.previousEventHash).Nodup := by
  decide +kernel

/-- An edit that read the clock first and took the lock second breaks the chain,
and the edit after it repeats a predecessor. -/
theorem late_append_breaks_chain : ∃ t w, auditLog.Reachable t ∧
    CollisionFree (messages (readEvents t w)) ∧ verifyAuditChain (readEvents t w) = false ∧
      ¬((readEvents t w).map ChainedAuditEvent.previousEventHash).Nodup := by
  obtain ⟨hdigests, hbroken⟩ := late_append_read
  refine ⟨append (append (append [] firstSample) lateSample) secondSample, sampleWorkspace, ?_,
    collisionFree_messages hdigests, hbroken⟩
  exact (((Machine.Reaches.init rfl).step trivial rfl).step trivial rfl).step trivial rfl

end TrustCore.AuditLog
