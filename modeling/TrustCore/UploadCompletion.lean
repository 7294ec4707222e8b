import TrustCore.ArchiveVerify
import TrustCore.ObjectIngest
import TrustCore.QuarantineScan

/-!
# Completing an upload

`completeUpload` ingests the bytes of an upload session, stores a scan job for them, and
completes the session. The three write to tables of their own, each in transactions of its
own: the ingest under a key that is made from the upload, the scan under an id that is drawn
in every attempt.
-/

namespace TrustCore.UploadCompletion

open TrustCore.Utf TrustCore.Sha256 TrustCore.Columns TrustCore.KeyedMaps TrustCore.Programs
open TrustCore.AuditChain TrustCore.ObjectIngest TrustCore.QuarantineScan
open TrustCore.ArchiveVerify (base64Value)

structure UploadError where
  code : Option String
  message : JsString
  deriving DecidableEq

def codedError (code message : String) : UploadError := ⟨some code, js message⟩

structure AuthenticatedActor where
  id : JsString
  principalType : Option ActorType
  deriving DecidableEq

/-! ## The sessions -/

/-- `OperationState`. -/
inductive UploadState where
  | requested
  | authorised
  | temporaryUploadCreated
  | bytesReceived
  | hashVerified
  | immutableObjectCommitted
  | metadataCommitted
  | auditCommitted
  | completed
  | rejected
  | failedRetryable
  | failedTerminal
  | quarantined
  deriving DecidableEq

inductive OperationStatus where
  | pending
  | running
  | succeeded
  | failed
  | quarantined
  deriving DecidableEq

def operationStatus : UploadState → OperationStatus
  | .requested => .pending
  | .completed => .succeeded
  | .rejected => .failed
  | .failedRetryable => .failed
  | .failedTerminal => .failed
  | .quarantined => .quarantined
  | _ => .running

/-- A row of `upload_sessions` with the row of its operation. -/
structure UploadRow where
  id : JsString
  workspaceId : JsString
  operationId : JsString
  requestedBy : JsString
  requestedByPrincipalType : ActorType
  state : UploadState
  mediaType : JsString
  expectedByteLength : Nat
  expectedSha256 : JsString
  expiresAt : Instant
  createdAt : JsString
  updatedAt : JsString
  completedAt : Option JsString
  blobId : Option JsString
  ingestOperationId : Option JsString
  deriving DecidableEq

structure UploadSession where
  id : JsString
  workspaceId : JsString
  operationId : JsString
  state : UploadState
  status : OperationStatus
  mediaType : JsString
  expectedByteLength : Nat
  expectedSha256 : JsString
  expiresAt : Instant
  createdAt : JsString
  updatedAt : JsString
  completedAt : Option JsString
  blobId : Option JsString

def mapUpload (row : UploadRow) : UploadSession where
  id := row.id
  workspaceId := row.workspaceId
  operationId := row.operationId
  state := row.state
  status := operationStatus row.state
  mediaType := row.mediaType
  expectedByteLength := row.expectedByteLength
  expectedSha256 := row.expectedSha256
  expiresAt := row.expiresAt
  createdAt := row.createdAt
  updatedAt := row.updatedAt
  completedAt := row.completedAt
  blobId := row.blobId

/-- `applicationOwnerClause`: an application sees what it has requested itself. -/
def ownedBy (actor : AuthenticatedActor) (row : UploadRow) : Bool :=
  actor.principalType != some .application ||
    (row.requestedByPrincipalType == .application && row.requestedBy == actor.id)

abbrev UploadSessions := KeyedMap fun row : UploadRow => row.id

/-- The row that a statement of the actor on the upload is about. -/
def visible (sessions : UploadSessions) (workspaceId uploadId : JsString)
    (actor : AuthenticatedActor) : Option UploadRow :=
  (sessions.get uploadId).filter fun row => row.workspaceId == workspaceId && ownedBy actor row

def completeRow (blobId ingestOperationId completedAt : JsString) (row : UploadRow) : UploadRow :=
  { row with
    state := .completed
    updatedAt := completedAt
    completedAt := some completedAt
    blobId := some blobId
    ingestOperationId := some ingestOperationId }

def sessionNotFound : UploadError := codedError "OPERATION_NOT_FOUND" "Upload session was not found."

/-- The transaction of `completeUploadSession`. -/
def completeUploadSession (sessions : UploadSessions) (workspaceId uploadId : JsString)
    (actor : AuthenticatedActor) (blobId ingestOperationId completedAt : JsString) :
    Except UploadError UploadSession × UploadSessions :=
  match visible sessions workspaceId uploadId actor with
  | none => (.error sessionNotFound, sessions)
  | some row =>
    if row.state = .completed then (.ok (mapUpload row), sessions)
    else
      let row := completeRow blobId ingestOperationId completedAt row
      (.ok (mapUpload row), sessions.set row)

/-! ## The table of scan jobs -/

/-- `PostgresQuarantineScanStore.save`: a job is looked up in its workspace, and its id is the
primary key of all workspaces. -/
def saveScan (store : ScanStore) (record : QuarantineScanRecord) :
    Except ScanError Unit × ScanStore :=
  match resolveQuarantineScanSave (ScanStore.getByScanJobId store record.workspaceId record.scanJobId)
      (ScanStore.getByUploadId store record.workspaceId record.uploadId) record with
  | .error e => (.error e, store)
  | .ok .insert =>
    if (store.get record.scanJobId).isSome then
      (.error (scanConflict "Quarantine scan identity conflict."), store)
    else (.ok (), store.set record)
  | .ok .update =>
    if (store.get record.scanJobId).any fun existing =>
        existing.toScanJob == record.toScanJob && existing.createdAt == record.createdAt then
      (.ok (), store.set record)
    else
      (.error (scanConflict "Quarantine scan update did not match the immutable identity."), store)

/-- A statement of the orchestrator over the table. -/
def execScan : (statement : ScanStatement) → ScanWorld → statement.Result × ScanWorld
  | .save record, s => ((saveScan s.store record).1, { s with store := (saveScan s.store record).2 })
  | .getByScanJobId workspaceId scanJobId, s =>
    ScanStatement.exec (.getByScanJobId workspaceId scanJobId) s
  | .submit job, s => ScanStatement.exec (.submit job) s
  | .hasProcessed key, s => ScanStatement.exec (.hasProcessed key) s
  | .addProcessed key, s => ScanStatement.exec (.addProcessed key) s

/-! ## The command -/

structure UploadWorld (κ : Type) where
  sessions : UploadSessions
  ingest : IngestState κ
  scans : ScanWorld

inductive UploadStatement (κ : Type) where
  | getUploadSession (workspaceId uploadId : JsString) (actor : AuthenticatedActor)
  | ingest (statement : Stmt κ)
  | scan (statement : ScanStatement)
  | completeUploadSession (workspaceId uploadId : JsString) (actor : AuthenticatedActor)
      (blobId ingestOperationId completedAt : JsString)

@[reducible] def UploadStatement.Result {κ : Type} : UploadStatement κ → Type
  | .getUploadSession _ _ _ => Option UploadSession
  | .ingest statement => statement.Result
  | .scan statement => statement.Result
  | .completeUploadSession _ _ _ _ _ _ => Except UploadError UploadSession

def UploadStatement.exec {κ : Type} [DecidableEq κ] (supplies : Supplies) :
    (statement : UploadStatement κ) → UploadWorld κ → statement.Result × UploadWorld κ
  | .getUploadSession workspaceId uploadId actor, w =>
    ((visible w.sessions workspaceId uploadId actor).map mapUpload, w)
  | .ingest statement, w =>
    ((performIngest supplies statement w.ingest).1,
      { w with ingest := (performIngest supplies statement w.ingest).2 })
  | .scan statement, w =>
    ((execScan statement w.scans).1, { w with scans := (execScan statement w.scans).2 })
  | .completeUploadSession workspaceId uploadId actor blobId ingestOperationId completedAt, w =>
    let done := UploadCompletion.completeUploadSession w.sessions workspaceId uploadId actor blobId
      ingestOperationId completedAt
    (done.1, { w with sessions := done.2 })

abbrev UploadProg (κ α : Type) := Prog (UploadStatement κ) UploadStatement.Result UploadError α

section Command

variable {κ : Type}

def onIngest {α : Type} : IngestProg κ α → UploadProg κ α :=
  Prog.embed UploadStatement.ingest (fun _ r => r) fun e => ⟨e.code, e.message⟩

def onScans {α : Type} : ScanProg α → UploadProg κ α :=
  Prog.embed UploadStatement.scan (fun _ r => r) fun e => ⟨e.code, e.message⟩

/-- Four characters are three bytes; bits that the padding hides are dropped. -/
def decodeBase64Groups : JsString → Option Bytes
  | [] => some []
  | [a, b, 61, 61] => do
    let x := (← base64Value a) * 64 + (← base64Value b)
    return [.ofNat (x / 16)]
  | [a, b, c, 61] => do
    let x := ((← base64Value a) * 64 + (← base64Value b)) * 64 + (← base64Value c)
    return [.ofNat (x / 1024), .ofNat (x / 4)]
  | a :: b :: c :: d :: rest => do
    let x := (((← base64Value a) * 64 + (← base64Value b)) * 64 + (← base64Value c)) * 64 +
      (← base64Value d)
    let bytes ← decodeBase64Groups rest
    return [.ofNat (x / 65536), .ofNat (x / 256), .ofNat x] ++ bytes
  | _ => none

def decodeBase64 (value : JsString) : Except UploadError Bytes :=
  match decodeBase64Groups value with
  | some bytes => .ok bytes
  | none => .error (codedError "INVALID_COMMAND" "Object bytes are not valid base64.")

structure CompleteUploadCommand where
  workspaceId : JsString
  bytesBase64 : JsString

/-- The storage and the scanner that a server is set up with. -/
structure UploadServer (κ : Type) where
  platform : κ
  provider : JsString
  fakeScannerEnabled : Bool

/-- What one attempt draws and reads: the clock, the route of its bytes, a new scan job. -/
structure UploadAttempt (κ : Type) where
  now : Instant
  routing : Except UploadError (RoutingFields κ)
  scanJobId : JsString
  queueTimes : QueueTimes
  callbackAt : JsString
  pendingAt : JsString
  promotedAt : JsString
  completedAt : JsString

def advanceFakePromotion (attempt : UploadAttempt κ) (record : QuarantineScanRecord) :
    ScanProg Unit :=
  if record.state ≠ .accepted then .pure ()
  else do
    let pending := { record with state := .promotionPending, updatedAt := attempt.pendingAt }
    saveRecord pending
    saveRecord { pending with state := .promoted, updatedAt := attempt.promotedAt }

def queueScanAfterIngest (server : UploadServer κ) (attempt : UploadAttempt κ)
    (workspaceId uploadId storageKey : JsString) : ScanProg Unit := do
  let _ ← queueUploaded attempt.queueTimes ⟨attempt.scanJobId, workspaceId, uploadId, storageKey⟩
  if !server.fakeScannerEnabled then pure ()
  else do
    let record ← handleCallback attempt.callbackAt ⟨attempt.scanJobId, workspaceId, .clean, true⟩
    advanceFakePromotion attempt record

def ingestInput (uploadId : JsString) (actor : AuthenticatedActor)
    (command : CompleteUploadCommand) (session : UploadSession) (bytes : Bytes) : IngestInput where
  workspaceId := command.workspaceId
  actorId := actor.id
  principalType := actor.principalType.getD .user
  idempotencyKey := js "upload:" ++ uploadId
  bytes
  mediaType := session.mediaType

/-- What comes after the checks. -/
def ingestAndComplete (server : UploadServer κ) (attempt : UploadAttempt κ) (uploadId : JsString)
    (actor : AuthenticatedActor) (command : CompleteUploadCommand) (session : UploadSession)
    (bytes : Bytes) : UploadProg κ UploadSession :=
  (Prog.ofExcept attempt.routing).bind fun fields =>
  (onIngest (ingest server.platform server.provider
    (ingestInput uploadId actor command session bytes) fields)).bind fun result =>
  (onScans (queueScanAfterIngest server attempt command.workspaceId uploadId
    result.blob.storageKey)).bind fun _ =>
  (Prog.perform (.completeUploadSession command.workspaceId uploadId actor result.blob.id
    result.operationId attempt.completedAt)).bind Prog.ofExcept

def completeUpload (server : UploadServer κ) (attempt : UploadAttempt κ) (uploadId : JsString)
    (actor : AuthenticatedActor) (command : CompleteUploadCommand) : UploadProg κ UploadSession :=
  (Prog.perform (.getUploadSession command.workspaceId uploadId actor)).bind
    fun found : Option UploadSession =>
  match found with
  | none => .throw sessionNotFound
  | some session =>
    (Prog.ofExcept (decodeBase64 command.bytesBase64)).bind fun bytes =>
    if bytes.length ≠ session.expectedByteLength then
      .throw (codedError "COMMAND_REJECTED"
        "Upload byte length does not match the session expectation.")
    else if sha256 bytes ≠ session.expectedSha256 then
      .throw (codedError "COMMAND_REJECTED" "Upload hash does not match the session expectation.")
    else if session.state = .completed then .pure session
    else if session.expiresAt.ms ≤ attempt.now.ms then
      .throw (codedError "COMMAND_REJECTED" "Upload session has expired.")
    else ingestAndComplete server attempt uploadId actor command session bytes

end Command

end TrustCore.UploadCompletion
