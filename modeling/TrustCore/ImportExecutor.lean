import TrustCore.AuditLog
import TrustCore.ImportPlan
import TrustCore.Programs

/-!
# Executing an import plan

`execute` advances one durable operation through eight checkpoints, with one
effect on the target between two of them. The operation store keeps the
checkpoint in PostgreSQL and moves it by compare and swap, so any number of
executors may work on one plan and crash anywhere; each acts on its own copy of
the operation, as of its last `begin` or `advance`.
-/

namespace TrustCore.ImportExecutor

open TrustCore.Utf TrustCore.Json TrustCore.Columns TrustCore.Sha256 TrustCore.ArchiveFormat
open TrustCore.ImportPlan TrustCore.Programs TrustCore.AuditLog

inductive ArchiveImportCheckpoint where
  | authorised
  | targetRevalidated
  | temporaryBlobsStaged
  | stagedBlobsVerified
  | immutableBlobsCommitted
  | metadataCommitted
  | auditCommitted
  | completed
  deriving DecidableEq

def archiveImportCheckpoints : List ArchiveImportCheckpoint :=
  [.authorised, .targetRevalidated, .temporaryBlobsStaged, .stagedBlobsVerified,
    .immutableBlobsCommitted, .metadataCommitted, .auditCommitted, .completed]

def nextImportCheckpoint (value : ArchiveImportCheckpoint) : Option ArchiveImportCheckpoint :=
  archiveImportCheckpoints[archiveImportCheckpoints.idxOf value + 1]?

structure ImportError where
  code : Option String
  message : JsString

structure ArchiveImportOperation where
  id : JsString
  planId : JsString
  archiveExportId : JsString
  requestedBy : JsString
  checkpoint : ArchiveImportCheckpoint
  resumed : Option Bool
  createdAt : Instant
  updatedAt : Instant
  completedAt : Option Instant

inductive PrincipalType where
  | user
  | service
  | application
  deriving DecidableEq

/-- The identity an operation store was made with. -/
structure RequestIdentity where
  principalType : PrincipalType
  idempotencyKey : JsString
  fingerprint : JsString
  deriving DecidableEq

/-- A row of `portability_import_operations`. -/
structure ImportOperationRow where
  id : JsString
  workspaceId : JsString
  planId : JsString
  archiveExportId : JsString
  requestedBy : JsString
  principalType : PrincipalType
  idempotencyKey : JsString
  fingerprint : JsString
  checkpoint : ArchiveImportCheckpoint
  createdAt : Instant
  updatedAt : Instant
  completedAt : Option Instant

structure BeginInput where
  planId : JsString
  archiveExportId : JsString
  requestedBy : JsString
  startedAt : Instant

structure AdvanceInput where
  operationId : JsString
  planId : JsString
  expected : ArchiveImportCheckpoint
  next : ArchiveImportCheckpoint
  movedAt : Instant

def mapOperation (row : ImportOperationRow) : ArchiveImportOperation :=
  { id := row.id, planId := row.planId, archiveExportId := row.archiveExportId,
    requestedBy := row.requestedBy, checkpoint := row.checkpoint, resumed := none,
    createdAt := row.createdAt, updatedAt := row.updatedAt, completedAt := row.completedAt }

/-- The id of the operation of a plan. -/
def operationIdOf (workspaceId planId : JsString) : JsString :=
  deterministicUuid (js "archive-import:" ++ workspaceId ++ js ":" ++ planId)

/-- `btrim(s) <> ''`. -/
def nonBlank (s : JsString) : Bool := s.any (· != 32)

/-- The row of a new operation of a stored plan, unless a column refuses one of its
texts. The plan id and the fingerprint are 64 hexadecimal digits. -/
def operationRow (workspaceId : JsString) (request : RequestIdentity) (input : BeginInput) :
    Option ImportOperationRow := do
  let archiveExportId ← textColumn input.archiveExportId
  let requestedBy ← textColumn input.requestedBy
  let idempotencyKey ← textColumn request.idempotencyKey
  if nonBlank archiveExportId && nonBlank requestedBy && nonBlank idempotencyKey &&
      isSha256 request.fingerprint then
    return { id := operationIdOf workspaceId input.planId, workspaceId, planId := input.planId,
             archiveExportId, requestedBy, principalType := request.principalType, idempotencyKey,
             fingerprint := request.fingerprint, checkpoint := .authorised,
             createdAt := input.startedAt, updatedAt := input.startedAt, completedAt := none }
  else none

/-- The plan or the request identity of a row is the one of the call. -/
def ofPlan (workspaceId planId : JsString) (row : ImportOperationRow) : Bool :=
  row.workspaceId == workspaceId && row.planId == planId

def ofRequest (workspaceId : JsString) (principalType : PrincipalType)
    (requestedBy idempotencyKey : JsString) (row : ImportOperationRow) : Bool :=
  row.workspaceId == workspaceId && row.principalType == principalType &&
    row.requestedBy == requestedBy && row.idempotencyKey == idempotencyKey

/-- The unique keys of the table. -/
def conflicts (row old : ImportOperationRow) : Bool :=
  old.id == row.id || ofPlan row.workspaceId row.planId old ||
    ofRequest row.workspaceId row.principalType row.requestedBy row.idempotencyKey old

/-- `INSERT … ON CONFLICT DO NOTHING`, with the rows after it and whether it inserted. -/
def insertOperation (rows : List ImportOperationRow) (row : ImportOperationRow) :
    List ImportOperationRow × Bool :=
  if rows.any (conflicts row) then (rows, false) else (rows ++ [row], true)

/-- The row of the plan or of the request, one that is both before others. -/
def selectOperation (rows : List ImportOperationRow) (workspaceId : JsString)
    (request : RequestIdentity) (input : BeginInput) : Option ImportOperationRow :=
  let plan := ofPlan workspaceId input.planId
  let same := ofRequest workspaceId request.principalType input.requestedBy request.idempotencyKey
  (rows.find? fun row => plan row && same row) <|> rows.find? fun row => plan row || same row

def sameRequest (row : ImportOperationRow) (request : RequestIdentity) (input : BeginInput) : Bool :=
  row.planId == input.planId && row.archiveExportId == input.archiveExportId &&
    row.requestedBy == input.requestedBy && row.principalType == request.principalType &&
    row.idempotencyKey == request.idempotencyKey && row.fingerprint == request.fingerprint

/-- `PostgresArchiveImportOperationStore.begin`, one transaction. -/
def begin (rows : List ImportOperationRow) (workspaceId : JsString)
    (request : Option RequestIdentity) (input : BeginInput) :
    Except ImportError (ArchiveImportOperation × List ImportOperationRow) :=
  match request with
  | none => .error ⟨none, js "Import request identity is required to begin execution."⟩
  | some request =>
    match operationRow workspaceId request input with
    | none => .error ⟨none, js "constraint violation"⟩
    | some row =>
      let inserted := insertOperation rows row
      match selectOperation inserted.1 workspaceId request input with
      | none => .error ⟨none, js "Import operation was not found."⟩
      | some row =>
        if sameRequest row request input then
          .ok ({ mapOperation row with resumed := some (!inserted.2) }, inserted.1)
        else
          .error ⟨some "IDEMPOTENCY_CONFLICT", js "Import plan already belongs to another request."⟩

/-- The row that an `advance` is about. -/
def isOperation (workspaceId : JsString) (input : AdvanceInput) (row : ImportOperationRow) : Bool :=
  row.workspaceId == workspaceId && row.id == input.operationId && row.planId == input.planId

def movedRow (row : ImportOperationRow) (next : ArchiveImportCheckpoint) (movedAt : Instant) :
    ImportOperationRow :=
  { row with
    checkpoint := next
    updatedAt := movedAt
    completedAt := if next = .completed then some movedAt else row.completedAt }

/-- `UPDATE … SET checkpoint … WHERE … AND checkpoint = expected`. -/
def moveRow (workspaceId : JsString) (input : AdvanceInput) (row : ImportOperationRow) :
    ImportOperationRow :=
  if isOperation workspaceId input row && row.checkpoint == input.expected then
    movedRow row input.next input.movedAt
  else row

/-- `PostgresArchiveImportOperationStore.advance`, one transaction; whoever loses
the compare and swap gets the operation as it is stored. -/
def advance (rows : List ImportOperationRow) (workspaceId : JsString) (input : AdvanceInput) :
    Except ImportError (ArchiveImportOperation × List ImportOperationRow) :=
  if nextImportCheckpoint input.expected ≠ some input.next then
    .error ⟨none, js "Import checkpoint transition is not sequential."⟩
  else
    let moved := rows.map (moveRow workspaceId input)
    match moved.find? (isOperation workspaceId input) with
    | none => .error ⟨none, js "Import operation was not found."⟩
    | some row => .ok (mapOperation row, moved)

/-- The calls an executor makes on its target. -/
inductive TargetCall where
  | revalidate (plan : ArchiveImportPlan)
  | stageBlob (operationId digest : JsString) (bytes : Bytes)
  | verifyStagedBlob (operationId digest : JsString) (byteLength : Nat)
  | commitBlob (operationId digest : JsString)
  | commitMetadata (operationId : JsString) (plan : ArchiveImportPlan)
      (actions : List ArchiveImportAction)
  | appendAudit (operationId : JsString) (plan : ArchiveImportPlan) (requestedBy : JsString)
      (occurredAt : Instant) (sourceAuditLineage : AuditLineage)

@[reducible] def TargetCall.Answer : TargetCall → Type
  | .revalidate _ => List ArchiveIssue
  | .verifyStagedBlob _ _ _ => Bool
  | _ => Unit

/-- What an executor waits for. A call of the target is two statements, so that it
can be pending when its executor stops. -/
inductive Stmt where
  | now
  | begin (request : Option RequestIdentity) (input : BeginInput)
  | advance (input : AdvanceInput)
  | afterCheckpoint (checkpoint : ArchiveImportCheckpoint) (operation : ArchiveImportOperation)
  | call (c : TargetCall)
  | settle (c : TargetCall)

@[reducible] def Stmt.Result : Stmt → Type
  | .now => Instant
  | .begin _ _ => Except ImportError ArchiveImportOperation
  | .advance _ => Except ImportError ArchiveImportOperation
  | .afterCheckpoint _ _ => Except ImportError Unit
  | .call _ => Unit
  | .settle c => Except ImportError c.Answer

abbrev ImportProg (α : Type) := Prog Stmt Stmt.Result ImportError α

/-- A rejected promise ends the executor. -/
def unwrap {α : Type} : Except ImportError α → ImportProg α
  | .ok a => .pure a
  | .error e => .throw e

def now : ImportProg Instant := Prog.perform Stmt.now

def afterCheckpoint (checkpoint : ArchiveImportCheckpoint) (operation : ArchiveImportOperation) :
    ImportProg Unit :=
  (Prog.perform (Stmt.afterCheckpoint checkpoint operation)).bind unwrap

def target (c : TargetCall) : ImportProg c.Answer :=
  (Prog.perform (Stmt.call c)).bind fun _ => (Prog.perform (Stmt.settle c)).bind unwrap

structure ExecuteInput where
  archive : ParsedTrustArchive
  plan : ArchiveImportPlan
  requestedBy : JsString
  request : Option RequestIdentity

structure ArchiveImportExecutionResult where
  operation : ArchiveImportOperation
  resumed : Bool
  insertedRecords : Nat
  insertedBlobs : Nat

def validateInput (archive : ParsedTrustArchive) (plan : ArchiveImportPlan) :
    Except ImportError Unit :=
  if !archive.verification.valid then
    .error ⟨some "IMPORT_ARCHIVE_INVALID", js "Archive verification must pass before execution."⟩
  else if plan.status ≠ .ready ∨ plan.counts .blocked > 0 then
    .error ⟨some "IMPORT_PLAN_NOT_EXECUTABLE", js "Only a ready reject-on-error plan can execute."⟩
  else if plan.archiveExportId ≠ archive.manifest.exportId ∨
      plan.sourceWorkspaceId ≠ archive.manifest.workspaceId then
    .error ⟨some "IMPORT_PLAN_ARCHIVE_MISMATCH", js "Import plan does not describe this archive."⟩
  else
    match calculateArchiveImportPlanId archive.manifest plan.sourceWorkspaceId
      plan.targetWorkspaceId plan.mode plan.conflictMode plan.actions with
    | none => .error ⟨none, js "Value is not JSON encodable."⟩
    | some expectedPlanId =>
      if plan.planId ≠ expectedPlanId then
        .error ⟨some "IMPORT_PLAN_ID_INVALID", js "Import plan content does not match its identity."⟩
      else .ok ()

def blobActions (plan : ArchiveImportPlan) : List ArchiveImportAction :=
  plan.actions.filter fun action => action.kind == .blobBytes && action.disposition == .insert

/-- The actions that `commitMetadata` is handed. -/
def metadataActions (plan : ArchiveImportPlan) : List ArchiveImportAction :=
  plan.actions.filter fun action => action.kind != .blobBytes && action.disposition == .insert

def stageBlobs (operationId : JsString) (archive : ParsedTrustArchive) :
    List ArchiveImportAction → ImportProg Unit
  | [] => .pure ()
  | action :: rest =>
    match blobArchivePath action.sourceId with
    | none => .throw ⟨none, js "Blob SHA-256 is invalid."⟩
    | some path =>
      match archive.entries.get path with
      | none => .throw ⟨some "IMPORT_BLOB_MISSING", js "Verified archive blob bytes are missing."⟩
      | some bytes =>
        if sha256 bytes ≠ action.sourceId then
          .throw ⟨some "IMPORT_BLOB_HASH_MISMATCH", js "Archive blob changed after planning."⟩
        else
          (target (.stageBlob operationId action.sourceId bytes)).bind fun _ =>
            stageBlobs operationId archive rest

def verifyStaged (operationId : JsString) (archive : ParsedTrustArchive) :
    List ArchiveImportAction → ImportProg Unit
  | [] => .pure ()
  | action :: rest =>
    match blobArchivePath action.sourceId with
    | none => .throw ⟨none, js "Blob SHA-256 is invalid."⟩
    | some path =>
      match archive.entries.get path with
      | none =>
        .throw ⟨some "IMPORT_STAGED_BLOB_INVALID", js "Staged blob verification failed."⟩
      | some bytes =>
        (target (.verifyStagedBlob operationId action.sourceId bytes.length)).bind fun verified =>
          if verified then verifyStaged operationId archive rest
          else .throw ⟨some "IMPORT_STAGED_BLOB_INVALID", js "Staged blob verification failed."⟩

def commitBlobs (operationId : JsString) : List ArchiveImportAction → ImportProg Unit
  | [] => .pure ()
  | action :: rest =>
    (target (.commitBlob operationId action.sourceId)).bind fun _ => commitBlobs operationId rest

/-- The executor's own `advance`: the store's, then the hook. -/
def advanceTo (operation : ArchiveImportOperation) (next : ArchiveImportCheckpoint) :
    ImportProg ArchiveImportOperation :=
  now.bind fun movedAt =>
    (Prog.perform (Stmt.advance
      { operationId := operation.id, planId := operation.planId, expected := operation.checkpoint,
        next, movedAt })).bind fun answer =>
      (unwrap answer).bind fun advanced =>
        (afterCheckpoint next advanced).bind fun _ => .pure advanced

/-- The body of the loop: the effect of the checkpoint, then the next checkpoint. -/
def runCheckpoint (input : ExecuteInput) (operation : ArchiveImportOperation) :
    ImportProg ArchiveImportOperation :=
  match operation.checkpoint with
  | .authorised =>
    (target (.revalidate input.plan)).bind fun issues =>
      if issues.length > 0 then
        .throw ⟨some "IMPORT_TARGET_STALE", js "Import target changed after the plan was created."⟩
      else advanceTo operation .targetRevalidated
  | .targetRevalidated =>
    (stageBlobs operation.id input.archive (blobActions input.plan)).bind fun _ =>
      advanceTo operation .temporaryBlobsStaged
  | .temporaryBlobsStaged =>
    (verifyStaged operation.id input.archive (blobActions input.plan)).bind fun _ =>
      advanceTo operation .stagedBlobsVerified
  | .stagedBlobsVerified =>
    (commitBlobs operation.id (blobActions input.plan)).bind fun _ =>
      advanceTo operation .immutableBlobsCommitted
  | .immutableBlobsCommitted =>
    (target (.commitMetadata operation.id input.plan (metadataActions input.plan))).bind fun _ =>
      advanceTo operation .metadataCommitted
  | .metadataCommitted =>
    now.bind fun occurredAt =>
      (target (.appendAudit operation.id input.plan input.requestedBy occurredAt
        input.archive.manifest.auditLineage)).bind fun _ => advanceTo operation .auditCommitted
  | .auditCommitted => advanceTo operation .completed
  | .completed => .pure operation

/-- The loop, unrolled as often as `fuel` says; what it leaves out it does as if the
executor had stopped there. -/
def runLoop (input : ExecuteInput) : Nat → ArchiveImportOperation → ImportProg ArchiveImportOperation
  | 0, _ => .throw ⟨none, js "stopped"⟩
  | fuel + 1, operation =>
    if operation.checkpoint = .completed then .pure operation
    else (runCheckpoint input operation).bind fun operation => runLoop input fuel operation

/-- `ArchiveImportExecutor.execute`. -/
def execute (fuel : Nat) (input : ExecuteInput) : ImportProg ArchiveImportExecutionResult :=
  (unwrap (validateInput input.archive input.plan)).bind fun _ =>
  now.bind fun startedAt =>
  (Prog.perform (Stmt.begin input.request
    { planId := input.plan.planId, archiveExportId := input.archive.manifest.exportId,
      requestedBy := input.requestedBy, startedAt })).bind fun answer =>
  (unwrap answer).bind fun begun =>
  (if begun.checkpoint = .authorised then afterCheckpoint .authorised begun
    else .pure ()).bind fun _ =>
  (runLoop input fuel begun).bind fun operation =>
    .pure
      { operation
        resumed := begun.resumed.getD (begun.checkpoint ≠ .authorised)
        insertedRecords := (metadataActions input.plan).length
        insertedBlobs := (blobActions input.plan).length }

/-- A target with a state of its own. -/
structure Target (τ : Type) where
  answer : (c : TargetCall) → τ → Except ImportError c.Answer × τ

/-- Where an executor runs alone: the table of operations, the target and how often
the clock was read. -/
structure Alone (τ : Type) where
  rows : List ImportOperationRow
  target : τ
  ticks : Nat

section Alone

variable {τ : Type} (T : Target τ) (workspaceId : JsString) (clock : Nat → Instant)

/-- One statement without a fault; the hook is absent. -/
def performAlone : (st : Stmt) → Alone τ → st.Result × Alone τ
  | .now, s => (clock s.ticks, { s with ticks := s.ticks + 1 })
  | .begin request input, s =>
    match begin s.rows workspaceId request input with
    | .ok (operation, rows) => (.ok operation, { s with rows })
    | .error e => (.error e, s)
  | .advance input, s =>
    match advance s.rows workspaceId input with
    | .ok (operation, rows) => (.ok operation, { s with rows })
    | .error e => (.error e, s)
  | .afterCheckpoint _ _, s => (.ok (), s)
  | .call _, s => ((), s)
  | .settle c, s => ((T.answer c s.target).1, { s with target := (T.answer c s.target).2 })

end Alone

end TrustCore.ImportExecutor
