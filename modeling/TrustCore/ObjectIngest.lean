import TrustCore.ArchiveFormat
import TrustCore.AuditLog
import TrustCore.ObjectStorage
import TrustCore.Programs

/-!
# Ingesting an object

`ObjectIngestService.ingest` takes some bytes through eight checkpoints of a durable
operation: into a temporary object, to the canonical key of their digest, and into
the blob catalog, with an audit event and an outbox event in the same transaction. The
storage it works on is the one that the binding router returned
for this call; the operation keeps the checkpoints and the keys, not the storage.
-/

namespace TrustCore.ObjectIngest

open TrustCore.Utf TrustCore.Json TrustCore.Sha256 TrustCore.ArchiveFormat
open TrustCore.ObjectStorage TrustCore.Programs TrustCore.Columns TrustCore.AuditChain
open TrustCore.AuditLog (deterministicUuid VerifiedIngest)

inductive IngestCheckpoint where
  | authorised
  | temporaryUploadCreated
  | bytesReceived
  | hashVerified
  | immutableObjectCommitted
  | metadataCommitted
  | auditCommitted
  | completed
  deriving DecidableEq

def ingestCheckpoints : List IngestCheckpoint :=
  [.authorised, .temporaryUploadCreated, .bytesReceived, .hashVerified, .immutableObjectCommitted,
    .metadataCommitted, .auditCommitted, .completed]

inductive EncryptionState where
  | providerManaged
  | customerManaged
  deriving DecidableEq

inductive VerificationState where
  | pending
  | verified
  | failed
  deriving DecidableEq

/-- A blob, and a row of `blob_objects`. -/
structure BlobObject where
  id : JsString
  workspaceId : JsString
  sha256 : JsString
  byteLength : Nat
  mediaType : JsString
  storageProvider : JsString
  storageKey : JsString
  encryptionState : EncryptionState
  encryptionKeyRef : Option JsString
  verificationState : VerificationState
  createdAt : JsString
  storageBindingId : Option JsString
  storageBindingGeneration : Option Nat
  deriving DecidableEq

/-- The members that an ingest writes into the context of its operation. -/
structure IngestContext where
  temporaryKey : Option JsString
  sha256 : Option JsString
  byteLength : Option Nat
  storageKey : Option JsString

inductive OperationState where
  | requested
  | reached (checkpoint : IngestCheckpoint)
  | failedRetryable
  deriving DecidableEq

/-- A row of `operations` of the type `object.ingest`. -/
structure IngestOperation where
  id : JsString
  workspaceId : JsString
  idempotencyKey : JsString
  requestedBy : JsString
  requestHash : JsString
  state : OperationState
  checkpoints : List IngestCheckpoint
  context : IngestContext
  result : Option (BlobObject × Bool)
  errorCode : Option JsString
  retryCount : Nat

structure IngestError where
  code : Option String
  message : JsString

/-- What `ingestRoutingFields` adds to the input of an ingest. -/
structure RoutingFields (κ : Type) where
  storage : Option κ
  storageBindingId : Option JsString
  storageBindingGeneration : Option Nat

section Router

variable {κ π : Type}

structure ResolveResult (π : Type) where
  fromPlatform : Bool
  bindingId : Option JsString
  generation : Option Nat
  profile : Option π
  allowWrite : Bool
  reason : Option JsString

/-- `BindingStorageRouter.forIngest`, given what `resolveRoute` answers. -/
def forIngest (enabled : Bool) (platformStorage : κ) (createStorage : π → Option κ)
    (applicationId : Option JsString) (resolved : ResolveResult π) :
    Except IngestError (RoutingFields κ) :=
  if !enabled || (applicationId.getD []).isEmpty then .ok ⟨some platformStorage, none, none⟩
  else if resolved.fromPlatform then .ok ⟨some platformStorage, none, none⟩
  else
    match resolved.bindingId, resolved.profile with
    | some (u :: bindingId), some profile =>
      if !resolved.allowWrite then
        .error ⟨some "COMMAND_REJECTED", js "Storage routing denied for ingest (" ++
          resolved.reason.getD (js "not_connected") ++ js ")."⟩
      else
        match createStorage profile with
        | none => .error ⟨some "COMMAND_REJECTED", js "Binding ObjectStorage could not be constructed (credential mode unsupported or host credentials missing)."⟩
        | some storage => .ok ⟨some storage, some (u :: bindingId), resolved.generation⟩
    | _, _ => .ok ⟨some platformStorage, none, none⟩

end Router

/-- A row of `outbox_events`, as an ingest writes it. -/
structure OutboxEvent where
  id : JsString
  workspaceId : JsString
  operationId : JsString
  eventType : JsString
  storageKey : JsString
  sha256 : JsString
  byteLength : Nat

structure IngestState (κ : Type) where
  storages : κ → Objects
  operations : List IngestOperation
  blobs : List BlobObject
  auditEvents : AuditLog.Table
  outboxEvents : List OutboxEvent

/-- What an ingest waits for. -/
inductive Stmt (κ : Type) where
  | begin (workspaceId idempotencyKey actorId requestHash : JsString)
  | saveContext (workspaceId operationId : JsString) (context : IngestContext)
      (state : OperationState)
  | markCheckpoint (workspaceId operationId : JsString) (checkpoint : IngestCheckpoint)
  | complete (workspaceId operationId : JsString) (blob : BlobObject) (deduplicated : Bool)
  | fail (workspaceId operationId error : JsString)
  | findByHash (workspaceId sha256 : JsString)
  | commitVerifiedIngest (blob : BlobObject) (operationId actorId : JsString)
      (actorType : ActorType) (occurredAt : Instant)
  | createTemporaryUpload (storage : κ) (workspaceId operationId : JsString)
  | writeTemporary (storage : κ) (key : JsString) (body : Bytes) (mediaType : JsString)
  | commitImmutable (storage : κ) (temporary workspaceId sha256 : JsString) (byteLength : Nat)
      (mediaType : JsString)
  | now
  | nextId

@[reducible] def Stmt.Result {κ : Type} : Stmt κ → Type
  | .begin _ _ _ _ => Except IngestError IngestOperation
  | .saveContext _ _ _ _ => Except IngestError Unit
  | .markCheckpoint _ _ _ => Unit
  | .complete _ _ _ _ => Except IngestError Unit
  | .fail _ _ _ => Unit
  | .findByHash _ _ => Option BlobObject
  | .commitVerifiedIngest _ _ _ _ _ => Except IngestError BlobObject
  | .createTemporaryUpload _ _ _ => Except IngestError JsString
  | .writeTemporary _ _ _ _ => Except IngestError ObjectMetadata
  | .commitImmutable _ _ _ _ _ _ => Except IngestError ObjectMetadata
  | .now => Instant
  | .nextId => JsString

abbrev IngestProg (κ α : Type) := Prog (Stmt κ) Stmt.Result IngestError α

structure IngestInput where
  workspaceId : JsString
  actorId : JsString
  principalType : ActorType
  idempotencyKey : JsString
  bytes : Bytes
  mediaType : JsString

/-- The variables of a call: the checkpoints it has seen or made, its copy of the
context, and the blob. -/
structure Progress where
  completed : List IngestCheckpoint
  context : IngestContext
  blob : Option BlobObject
  deduplicated : Bool

structure ObjectIngestResult where
  operationId : JsString
  blob : BlobObject
  deduplicated : Bool
  resumed : Bool

/-- `JSON.stringify({ workspaceId, mediaType, sha256 })`. -/
def requestText (workspaceId mediaType digest : JsString) : JsString :=
  123 :: (joinComma ([(js "workspaceId", quote workspaceId), (js "mediaType", quote mediaType),
    (js "sha256", quote digest)].map memberText) ++ [125])

def requestHashOf (input : IngestInput) : JsString :=
  sha256Text (requestText input.workspaceId input.mediaType (sha256 input.bytes))

section Ingest

variable {κ : Type}

def requiredContextString (value : Option JsString) (key : JsString) : IngestProg κ JsString :=
  match value with
  | some (u :: s) => .pure (u :: s)
  | _ => .throw ⟨none, js "Ingest operation is missing " ++ key ++ js "."⟩

/-- The local `checkpoint`. -/
def checkpoint (workspaceId operationId : JsString) (name : IngestCheckpoint)
    (effect : Progress → IngestProg κ Progress) (p : Progress) : IngestProg κ Progress :=
  if name ∈ p.completed then .pure p
  else
    (effect p).bind fun p =>
      (Prog.perform (Stmt.markCheckpoint workspaceId operationId name)).bind fun _ =>
        .pure { p with completed := p.completed ++ [name] }

def authorise (input : IngestInput) (p : Progress) : IngestProg κ Progress :=
  if input.workspaceId.isEmpty || input.actorId.isEmpty || input.idempotencyKey.isEmpty ||
      input.mediaType.isEmpty then
    .throw ⟨none, js "Ingest authorization context is incomplete."⟩
  else .pure p

def createTemporary (storage : κ) (input : IngestInput) (operationId : JsString) (p : Progress) :
    IngestProg κ Progress :=
  (Prog.perform (Stmt.createTemporaryUpload storage input.workspaceId operationId)).bind fun answer =>
  (Prog.ofExcept answer).bind fun key =>
    let context := { p.context with temporaryKey := some key }
    (Prog.perform (Stmt.saveContext input.workspaceId operationId context
      (.reached .temporaryUploadCreated))).bind fun saved =>
    (Prog.ofExcept saved).bind fun _ => .pure { p with context }

def receiveBytes (storage : κ) (input : IngestInput) (p : Progress) : IngestProg κ Progress :=
  (requiredContextString p.context.temporaryKey (js "temporaryKey")).bind fun key =>
  (Prog.perform (Stmt.writeTemporary storage key input.bytes input.mediaType)).bind fun answer =>
  (Prog.ofExcept answer).bind fun received =>
    if received.byteLength ≠ input.bytes.length then
      .throw ⟨none, js "Stored byte length does not match the supplied object."⟩
    else .pure p

def verifyHash (input : IngestInput) (operationId : JsString) (p : Progress) :
    IngestProg κ Progress :=
  let context := { p.context with
    sha256 := some (sha256 input.bytes)
    byteLength := some input.bytes.length }
  (Prog.perform (Stmt.saveContext input.workspaceId operationId context
    (.reached .hashVerified))).bind fun saved =>
  (Prog.ofExcept saved).bind fun _ => .pure { p with context }

def commitObject (storage : κ) (input : IngestInput) (operationId : JsString) (p : Progress) :
    IngestProg κ Progress :=
  (requiredContextString p.context.temporaryKey (js "temporaryKey")).bind fun key =>
  (Prog.perform (Stmt.commitImmutable storage key input.workspaceId (sha256 input.bytes)
    input.bytes.length input.mediaType)).bind fun answer =>
  (Prog.ofExcept answer).bind fun stored =>
    if stored.digest ≠ sha256 input.bytes ∨ stored.byteLength ≠ input.bytes.length then
      .throw ⟨none, js "Immutable object verification failed."⟩
    else
      let context := { p.context with storageKey := some stored.key }
      (Prog.perform (Stmt.saveContext input.workspaceId operationId context
        (.reached .immutableObjectCommitted))).bind fun saved =>
      (Prog.ofExcept saved).bind fun _ => .pure { p with context }

/-- `input.storageBindingId ? … : {}`: an empty id is no id. -/
def bindingOf (fields : RoutingFields κ) : Option JsString :=
  match fields.storageBindingId with
  | some (u :: s) => some (u :: s)
  | _ => none

def commitMetadata (provider : JsString) (input : IngestInput) (fields : RoutingFields κ)
    (operationId : JsString) (p : Progress) : IngestProg κ Progress :=
  (Prog.perform Stmt.nextId).bind fun id =>
  (requiredContextString p.context.storageKey (js "storageKey")).bind fun storageKey =>
  (Prog.perform Stmt.now).bind fun createdAt =>
  (Prog.perform (Stmt.commitVerifiedIngest
    { id, workspaceId := input.workspaceId, sha256 := sha256 input.bytes,
      byteLength := input.bytes.length, mediaType := input.mediaType, storageProvider := provider,
      storageKey, encryptionState := .providerManaged, encryptionKeyRef := none,
      verificationState := .verified, createdAt := toISOString createdAt,
      storageBindingId := bindingOf fields,
      storageBindingGeneration := fields.storageBindingGeneration }
    operationId input.actorId input.principalType createdAt)).bind fun answer =>
  (Prog.ofExcept answer).bind fun blob => .pure { p with blob := some blob }

/-- The bytes are already catalogued. -/
def commitExisting (input : IngestInput) (operationId : JsString) (existing : BlobObject)
    (p : Progress) : IngestProg κ Progress :=
  (Prog.perform Stmt.now).bind fun occurredAt =>
  (Prog.perform (Stmt.commitVerifiedIngest existing operationId input.actorId input.principalType
    occurredAt)).bind fun answer =>
  (Prog.ofExcept answer).bind fun blob => .pure { p with blob := some blob }

/-- The branch for bytes that the catalog has. -/
def deduplicate (input : IngestInput) (operationId : JsString) (existing : BlobObject)
    (p : Progress) : IngestProg κ Progress :=
  let mark (name : IngestCheckpoint) := checkpoint input.workspaceId operationId name Prog.pure
  (mark .temporaryUploadCreated { p with blob := some existing, deduplicated := true }).bind fun p =>
  (mark .bytesReceived p).bind fun p =>
  (mark .hashVerified p).bind fun p =>
  (mark .immutableObjectCommitted p).bind fun p =>
  (checkpoint input.workspaceId operationId .metadataCommitted
    (commitExisting input operationId existing) p).bind fun p =>
  mark .auditCommitted p

/-- The branch for new bytes. -/
def store (provider : JsString) (storage : κ) (input : IngestInput) (fields : RoutingFields κ)
    (operationId : JsString) (p : Progress) : IngestProg κ Progress :=
  let step := checkpoint input.workspaceId operationId
  (step .temporaryUploadCreated (createTemporary storage input operationId) p).bind fun p =>
  (step .bytesReceived (receiveBytes storage input) p).bind fun p =>
  (step .hashVerified (verifyHash input operationId) p).bind fun p =>
  (step .immutableObjectCommitted (commitObject storage input operationId) p).bind fun p =>
  (step .metadataCommitted (commitMetadata provider input fields operationId) p).bind fun p =>
  step .auditCommitted Prog.pure p

/-- The body of the `try`. -/
def runIngest (provider : JsString) (storage : κ) (input : IngestInput) (fields : RoutingFields κ)
    (operation : IngestOperation) (p : Progress) : IngestProg κ ObjectIngestResult :=
  (checkpoint input.workspaceId operation.id .authorised (authorise input) p).bind fun p =>
  (Prog.perform (Stmt.findByHash input.workspaceId (sha256 input.bytes))).bind fun existing =>
  (match existing with
    | some existing => deduplicate input operation.id existing p
    | none => store provider storage input fields operation.id p).bind fun p =>
  match p.blob with
  | none => .throw ⟨none, js "Ingest completed without canonical blob metadata."⟩
  | some blob =>
    (checkpoint input.workspaceId operation.id .completed (fun p =>
      (Prog.perform (Stmt.complete input.workspaceId operation.id blob p.deduplicated)).bind
        fun answer => (Prog.ofExcept answer).bind fun _ => .pure p) p).bind fun p =>
      .pure
        { operationId := operation.id, blob, deduplicated := p.deduplicated,
          resumed := !operation.checkpoints.isEmpty }

/-- `ObjectIngestService.ingest` of a service whose own storage is `platform`. -/
def ingest (platform : κ) (provider : JsString) (input : IngestInput) (fields : RoutingFields κ) :
    IngestProg κ ObjectIngestResult :=
  (Prog.perform (Stmt.begin input.workspaceId input.idempotencyKey input.actorId
    (requestHashOf input))).bind fun answer =>
  (Prog.ofExcept answer).bind fun operation =>
    if operation.requestHash ≠ requestHashOf input then
      .throw ⟨none, js "Idempotency key was already used for a different ingest request."⟩
    else
      (runIngest provider (fields.storage.getD platform) input fields operation
        { completed := operation.checkpoints, context := operation.context,
          blob := operation.result.map Prod.fst,
          deduplicated := (operation.result.map Prod.snd).getD false }).catchError fun e =>
        (Prog.perform (Stmt.fail input.workspaceId operation.id e.message)).bind fun _ => .throw e

end Ingest

/-- The values that one call draws: a time, an id for a blob and one for an operation. -/
structure Supplies where
  now : Instant
  nextId : JsString
  operationId : JsString

section Store

variable {κ : Type}

def ofKey (workspaceId idempotencyKey : JsString) (row : IngestOperation) : Bool :=
  row.workspaceId == workspaceId && row.idempotencyKey == idempotencyKey

def ofId (workspaceId operationId : JsString) (row : IngestOperation) : Bool :=
  row.workspaceId == workspaceId && row.id == operationId

def ofDigest (workspaceId digest : JsString) (row : BlobObject) : Bool :=
  row.workspaceId == workspaceId && row.sha256 == digest

/-- `PostgresIngestOperationStore.begin`: the row of the key, or a new one. -/
def begin (rows : List IngestOperation) (workspaceId idempotencyKey actorId requestHash id : JsString) :
    Except IngestError (IngestOperation × List IngestOperation) :=
  match rows.find? (ofKey workspaceId idempotencyKey) with
  | some row => .ok (row, rows)
  | none =>
    if rows.any fun row => row.id == id then .error ⟨none, js "constraint violation"⟩
    else
      let row : IngestOperation :=
        { id, workspaceId, idempotencyKey, requestedBy := actorId, requestHash, state := .requested,
          checkpoints := [], context := ⟨none, none, none, none⟩, result := none,
          errorCode := none, retryCount := 0 }
      .ok (row, rows ++ [row])

/-- `UPDATE operations SET … WHERE id = $1`. -/
def updateOperation (rows : List IngestOperation) (workspaceId operationId : JsString)
    (set : IngestOperation → IngestOperation) : List IngestOperation :=
  rows.map fun row => if ofId workspaceId operationId row then set row else row

def setContext (context : IngestContext) (state : OperationState) (row : IngestOperation) :
    IngestOperation := { row with context, state }

/-- A checkpoint that is already there is not added again. -/
def addCheckpoint (checkpoint : IngestCheckpoint) (row : IngestOperation) : IngestOperation :=
  if checkpoint ∈ row.checkpoints then row
  else { row with checkpoints := row.checkpoints ++ [checkpoint], state := .reached checkpoint }

def setResult (blob : BlobObject) (deduplicated : Bool) (row : IngestOperation) : IngestOperation :=
  { row with state := .reached .completed, result := some (blob, deduplicated), errorCode := none }

def setFailed (error : JsString) (row : IngestOperation) : IngestOperation :=
  if row.state = .reached .completed then row
  else
    { row with
      state := .failedRetryable
      errorCode := some (error.take 512)
      retryCount := row.retryCount + 1 }

/-- An update that has to change one row. -/
def requireUpdated (s : IngestState κ) (workspaceId operationId : JsString)
    (set : IngestOperation → IngestOperation) : Except IngestError Unit × IngestState κ :=
  if (s.operations.filter (ofId workspaceId operationId)).length = 1 then
    (.ok (), { s with operations := updateOperation s.operations workspaceId operationId set })
  else (.error ⟨none, js "Ingest operation update was not applied."⟩, s)

/-- The `DO UPDATE` of `recordBlob`. -/
def mergeBlob (blob row : BlobObject) : BlobObject :=
  { row with
    verificationState := .verified
    storageBindingId := blob.storageBindingId <|> row.storageBindingId
    storageBindingGeneration := blob.storageBindingGeneration <|> row.storageBindingGeneration }

def recordBlob (blobs : List BlobObject) (blob : BlobObject) :
    Except IngestError (BlobObject × List BlobObject) :=
  match blobs.find? (ofDigest blob.workspaceId blob.sha256) with
  | some row =>
    .ok (mergeBlob blob row, blobs.map fun row =>
      if ofDigest blob.workspaceId blob.sha256 row then mergeBlob blob row else row)
  | none =>
    if blobs.any fun row => row.id == blob.id ||
        (row.storageProvider == blob.storageProvider && row.storageKey == blob.storageKey) then
      .error ⟨none, js "constraint violation"⟩
    else
      .ok ({ blob with verificationState := .verified },
        blobs ++ [{ blob with verificationState := .verified }])

/-- The event of `commitVerifiedIngest`; a length that is no number is none of a row. -/
def verifiedIngest (row : BlobObject) (operationId actorId : JsString) (actorType : ActorType)
    (occurredAt : Instant) : Option VerifiedIngest :=
  match h : Numbers.nearestDouble ⟨false, row.byteLength, 0⟩ with
  | none => none
  | some byteLength => some
      { workspaceId := row.workspaceId, blobId := row.id, sha256 := row.sha256, byteLength,
        double := Numbers.nearestDouble_idem h, storageKey := row.storageKey, operationId, actorId,
        actorType, occurredAt }

def outboxEvent (row : BlobObject) (operationId : JsString) : OutboxEvent :=
  { id := deterministicUuid (js "ingest-outbox:" ++ operationId), workspaceId := row.workspaceId,
    operationId, eventType := js "blob.reconcile_requested", storageKey := row.storageKey,
    sha256 := row.sha256, byteLength := row.byteLength }

/-- `ON CONFLICT (id) DO NOTHING`. -/
def insertOutbox (events : List OutboxEvent) (event : OutboxEvent) : List OutboxEvent :=
  if events.any fun e => e.id == event.id then events else events ++ [event]

/-- The transaction of `PostgresBlobCatalog.commitVerifiedIngest`. -/
def commitVerifiedIngest (s : IngestState κ) (blob : BlobObject) (operationId actorId : JsString)
    (actorType : ActorType) (occurredAt : Instant) :
    Except IngestError (BlobObject × IngestState κ) :=
  match recordBlob s.blobs blob with
  | .error e => .error e
  | .ok (row, blobs) =>
    match (verifiedIngest row operationId actorId actorType occurredAt).bind
        (AuditLog.commitVerifiedIngest s.auditEvents) with
    | none => .error ⟨none, js "constraint violation"⟩
    | some auditEvents =>
      .ok (row, { s with
        blobs
        auditEvents
        outboxEvents := insertOutbox s.outboxEvents (outboxEvent row operationId) })

theorem commitVerifiedIngest_eq_ok {s s' : IngestState κ} {blob row : BlobObject}
    {operationId actorId : JsString} {actorType : ActorType} {occurredAt : Instant}
    (h : commitVerifiedIngest s blob operationId actorId actorType occurredAt = .ok (row, s')) :
    ∃ blobs auditEvents, recordBlob s.blobs blob = .ok (row, blobs) ∧
      (verifiedIngest row operationId actorId actorType occurredAt).bind
        (AuditLog.commitVerifiedIngest s.auditEvents) = some auditEvents ∧
      s' = { s with
        blobs
        auditEvents
        outboxEvents := insertOutbox s.outboxEvents (outboxEvent row operationId) } := by
  rw [commitVerifiedIngest] at h
  split at h
  · cases h
  · rename_i recorded blobs hrecord
    split at h
    · cases h
    · rename_i auditEvents haudit
      cases h
      exact ⟨blobs, auditEvents, hrecord, haudit, rfl⟩

def storageError (e : StorageError) : IngestError := ⟨e.code, e.message⟩

variable [DecidableEq κ]

/-- A call of one storage. -/
def onStorage {α : Type} (s : IngestState κ) (storage : κ) :
    Except StorageError (α × Objects) → Except IngestError α × IngestState κ
  | .ok (a, objects) => (.ok a, { s with storages := Function.update s.storages storage objects })
  | .error e => (.error (storageError e), s)

/-- One statement; a statement that is lost or refused for another reason stops the
call where it stands. -/
def performIngest (supplies : Supplies) : (st : Stmt κ) → IngestState κ → st.Result × IngestState κ
  | .begin workspaceId idempotencyKey actorId requestHash, s =>
    match begin s.operations workspaceId idempotencyKey actorId requestHash supplies.operationId with
    | .ok (operation, operations) => (.ok operation, { s with operations })
    | .error e => (.error e, s)
  | .saveContext workspaceId operationId context state, s =>
    requireUpdated s workspaceId operationId (setContext context state)
  | .markCheckpoint workspaceId operationId name, s =>
    ((), { s with operations :=
      updateOperation s.operations workspaceId operationId (addCheckpoint name) })
  | .complete workspaceId operationId blob deduplicated, s =>
    requireUpdated s workspaceId operationId (setResult blob deduplicated)
  | .fail workspaceId operationId error, s =>
    ((), (requireUpdated s workspaceId operationId (setFailed error)).2)
  | .findByHash workspaceId digest, s => (s.blobs.find? (ofDigest workspaceId digest), s)
  | .commitVerifiedIngest blob operationId actorId actorType occurredAt, s =>
    match commitVerifiedIngest s blob operationId actorId actorType occurredAt with
    | .ok (row, s') => (.ok row, s')
    | .error e => (.error e, s)
  | .createTemporaryUpload _ workspaceId operationId, s =>
    match temporaryObjectKey workspaceId operationId with
    | some key => (.ok key, s)
    | none => (.error ⟨none, js "Unsafe identifier"⟩, s)
  | .writeTemporary storage key body mediaType, s =>
    onStorage s storage (writeTemporary (s.storages storage) key body mediaType)
  | .commitImmutable storage temporary workspaceId digest byteLength mediaType, s =>
    onStorage s storage
      (commitImmutable (s.storages storage) temporary workspaceId digest byteLength mediaType)
  | .now, s => (supplies.now, s)
  | .nextId, s => (supplies.nextId, s)

end Store

end TrustCore.ObjectIngest
