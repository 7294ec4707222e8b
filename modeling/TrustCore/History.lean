import TrustCore.AuditLog
import TrustCore.Programs

/-!
# Resource history

`createRevision`, `deleteResource` and `restoreResource` as programs of single
SQL statements, and the tables they run on. An open transaction keeps its writes
to itself until `COMMIT`; what it holds meanwhile (updated rows, entries of unique
indexes, advisory locks) is its list of keys, and no other transaction gets past
a statement that needs one of them. Reads see committed rows and own writes.
-/

namespace TrustCore.History

open TrustCore.Utf TrustCore.Json TrustCore.Columns TrustCore.Programs TrustCore.AuditLog

inductive ResourceStatus where
  | active
  | archived
  | deletedLogically
  | legalHold
  deriving DecidableEq

structure Resource where
  id : JsString
  workspaceId : JsString
  datasetId : JsString
  resourceType : JsString
  title : Option JsString
  status : ResourceStatus
  currentRevisionId : Option JsString
  createdBy : JsString
  createdAt : Instant
  updatedAt : Instant

inductive RevisionSource where
  | user
  | application
  | importer
  | restore
  | merge
  deriving DecidableEq

def RevisionSource.text : RevisionSource → JsString
  | .user => js "user"
  | .application => js "application"
  | .importer => js "import"
  | .restore => js "restore"
  | .merge => js "merge"

structure Revision where
  id : JsString
  workspaceId : JsString
  datasetId : JsString
  resourceId : JsString
  revisionNumber : Nat
  parentRevisionId : Option JsString
  mergeParentRevisionIds : List JsString
  schemaPackageId : JsString
  schemaVersion : JsString
  canonicalPayload : JsonObject
  canonicalPayloadHash : JsString
  createdBy : JsString
  createdOnDeviceId : Option JsString
  source : RevisionSource
  changeNote : Option JsString
  restoredFromRevisionId : Option JsString
  createdAt : Instant

inductive SubjectKind where
  | dataset
  | resource
  | relation
  deriving DecidableEq

def SubjectKind.text : SubjectKind → JsString
  | .dataset => js "dataset"
  | .resource => js "resource"
  | .relation => js "relation"

inductive PurgeState where
  | notEligible
  | eligible
  | planned
  | purged
  deriving DecidableEq

structure Tombstone where
  id : JsString
  workspaceId : JsString
  datasetId : JsString
  subjectKind : SubjectKind
  subjectId : JsString
  deletedBy : JsString
  deletedAt : Instant
  reason : Option JsString
  recoverUntil : Option Instant
  priorRevisionId : Option JsString
  restoredAt : Option Instant
  restoredBy : Option JsString
  purgeState : PurgeState

/-- The condition of `one_open_resource_tombstone`. -/
def Tombstone.isOpen (t : Tombstone) : Bool :=
  decide (t.subjectKind = .resource) && t.restoredAt.isNone && !decide (t.purgeState = .purged)

structure Operation where
  id : JsString
  workspaceId : JsString
  operationType : JsString
  idempotencyKey : JsString
  requestedBy : JsString

structure OutboxEvent where
  id : JsString
  workspaceId : JsString
  operationId : JsString
  eventType : JsString
  payload : JsValue
  availableAt : Instant

/-- The writes of an open transaction, newest row version first. -/
structure Tx where
  resources : List Resource := []
  revisions : List Revision := []
  tombstones : List Tombstone := []
  closed : List (JsString × Instant × JsString) := []
  locks : List JsString := []
  audit : List AuditRow := []
  operations : List Operation := []
  outbox : List OutboxEvent := []

/-- The committed rows, and the transactions that were committed, in order. -/
structure Db where
  resources : JsString → Option Resource
  revisions : List Revision
  tombstones : List Tombstone
  audit : Table
  operations : List Operation
  outbox : List OutboxEvent
  log : List (Nat × Tx)

/-- What a transaction holds until it ends. -/
inductive Key where
  | resource (id : JsString)
  | advisory (workspaceId : JsString)
  | revision (id : JsString)
  | revisionNumber (resourceId : JsString) (n : Nat)
  | tombstone (id : JsString)
  | openTombstone (workspaceId subjectId : JsString)
  | closed (id : JsString)
  | audit (id : JsString)
  | operation (id : JsString)
  | operationKey (operationType workspaceId idempotencyKey : JsString)
  | outbox (id : JsString)
  deriving DecidableEq

def Tx.keys (tx : Tx) : List Key :=
  tx.resources.map (.resource ·.id) ++ tx.locks.map .advisory ++
    tx.revisions.map (.revision ·.id) ++
    tx.revisions.map (fun v => .revisionNumber v.resourceId v.revisionNumber) ++
    tx.tombstones.map (.tombstone ·.id) ++
    tx.tombstones.map (fun t => .openTombstone t.workspaceId t.subjectId) ++
    tx.closed.map (.closed ·.1) ++ tx.audit.map (.audit ·.id) ++
    tx.operations.map (.operation ·.id) ++
    tx.operations.map (fun o => .operationKey o.operationType o.workspaceId o.idempotencyKey) ++
    tx.outbox.map (.outbox ·.id)

structure HeadUpdate where
  workspaceId : JsString
  resourceId : JsString
  expectedRevisionId : Option JsString
  nextRevisionId : Option JsString
  status : ResourceStatus
  updatedAt : Instant

/-- The clock, random ids and SQL statements of the history repository. -/
inductive Stmt where
  | now
  | nextId
  | getResource (workspaceId resourceId : JsString)
  | getRevision (workspaceId revisionId : JsString)
  | insertRevision (v : Revision)
  | setResourceHead (i : HeadUpdate)
  | insertTombstone (t : Tombstone)
  | getOpenTombstone (workspaceId resourceId : JsString)
  | closeTombstone (workspaceId tombstoneId restoredBy : JsString)
  | advisoryLock (workspaceId : JsString)
  | previousHash (workspaceId : JsString)
  | insertAudit (row : Option AuditRow)
  | insertOperation (o : Operation)
  | insertOutbox (o : OutboxEvent)
  | commit

@[reducible] def Stmt.Result : Stmt → Type
  | .now => Instant
  | .nextId => JsString
  | .getResource .. => Option Resource
  | .getRevision .. => Option Revision
  | .setResourceHead .. => Bool
  | .getOpenTombstone .. => Option Tombstone
  | .previousHash .. => JsString
  | _ => Unit

def visibleResource (db : Db) (tx : Tx) (id : JsString) : Option Resource :=
  (tx.resources.find? (·.id = id)).or (db.resources id)

def visibleRevisions (db : Db) (tx : Tx) : List Revision := db.revisions ++ tx.revisions

def closeWith (closed : List (JsString × Instant × JsString)) (t : Tombstone) : Tombstone :=
  match closed.find? (·.1 = t.id) with
  | some c => { t with restoredAt := some c.2.1, restoredBy := some c.2.2 }
  | none => t

def visibleTombstones (db : Db) (tx : Tx) : List Tombstone :=
  (db.tombstones ++ tx.tombstones).map (closeWith tx.closed)

/-- `INSERT INTO revisions`, with its unique and foreign keys; no `uuid` is empty. -/
def insertRevision (db : Db) (tx : Tx) (v : Revision) : Option Tx :=
  let rows := visibleRevisions db tx
  if v.id = [] ∨ (∃ u ∈ rows, u.id = v.id) ∨
      (∃ u ∈ rows, u.resourceId = v.resourceId ∧ u.revisionNumber = v.revisionNumber) then none
  else
    match visibleResource db tx v.resourceId with
    | none => none
    | some r =>
      if r.workspaceId = v.workspaceId ∧ r.datasetId = v.datasetId ∧
          (∀ id ∈ v.parentRevisionId, ∃ u ∈ rows, u.id = id) ∧
          (∀ id ∈ v.restoredFromRevisionId, ∃ u ∈ rows, u.id = id) then
        some { tx with revisions := tx.revisions ++ [v] }
      else none

/-- `UPDATE resources … WHERE current_revision_id IS NOT DISTINCT FROM …`, on the
newest committed row version; the result is `rowCount === 1`. -/
def setResourceHead (db : Db) (tx : Tx) (i : HeadUpdate) : Bool × Tx :=
  match visibleResource db tx i.resourceId with
  | none => (false, tx)
  | some r =>
    if r.workspaceId = i.workspaceId ∧ r.currentRevisionId = i.expectedRevisionId then
      (true, { tx with resources :=
        { r with currentRevisionId := i.nextRevisionId, status := i.status,
                 updatedAt := i.updatedAt } :: tx.resources })
    else (false, tx)

def insertTombstone (db : Db) (tx : Tx) (t : Tombstone) : Option Tx :=
  let rows := visibleTombstones db tx
  if (∃ u ∈ rows, u.id = t.id) ∨ (t.isOpen ∧ ∃ u ∈ rows, u.isOpen = true ∧
      u.workspaceId = t.workspaceId ∧ u.subjectId = t.subjectId) then none
  else if ∀ id ∈ t.priorRevisionId, ∃ v ∈ visibleRevisions db tx, v.id = id then
    some { tx with tombstones := tx.tombstones ++ [t] }
  else none

/-- The open tombstones of a resource, which the index keeps to at most one. -/
def openTombstones (db : Db) (tx : Tx) (workspaceId resourceId : JsString) : List Tombstone :=
  (visibleTombstones db tx).filter fun t =>
    t.isOpen && t.workspaceId == workspaceId && t.subjectId == resourceId

def insertAudit (db : Db) (tx : Tx) (row : Option AuditRow) : Option Tx :=
  match row with
  | none => none
  | some row =>
    if ∃ r ∈ db.audit ++ tx.audit, r.id = row.id then none
    else some { tx with audit := tx.audit ++ [row] }

/-- `ON CONFLICT (operation_type, …) DO NOTHING`; another row with the id is an error. -/
def insertOperation (db : Db) (tx : Tx) (o : Operation) : Option Tx :=
  let rows := db.operations ++ tx.operations
  if ∃ u ∈ rows, u.operationType = o.operationType ∧ u.workspaceId = o.workspaceId ∧
      u.idempotencyKey = o.idempotencyKey then some tx
  else if ∃ u ∈ rows, u.id = o.id then none
  else some { tx with operations := tx.operations ++ [o] }

def insertOutbox (db : Db) (tx : Tx) (o : OutboxEvent) : Tx :=
  if ∃ u ∈ db.outbox ++ tx.outbox, u.id = o.id then tx
  else { tx with outbox := tx.outbox ++ [o] }

/-- The rows of a transaction become the committed ones. -/
def applyTx (call : Nat) (db : Db) (tx : Tx) : Db where
  resources id := visibleResource db tx id
  revisions := visibleRevisions db tx
  tombstones := visibleTombstones db tx
  audit := db.audit ++ tx.audit
  operations := db.operations ++ tx.operations
  outbox := db.outbox ++ tx.outbox
  log := db.log ++ [(call, tx)]

/-- `UPDATE tombstones SET restored_at=now() … WHERE restored_at IS NULL`. -/
def closeRow (db : Db) (tx : Tx) (workspaceId id restoredBy : JsString) (restoredAt : Instant) :
    Tx :=
  if ∃ t ∈ visibleTombstones db tx, t.workspaceId = workspaceId ∧ t.id = id ∧ t.restoredAt = none
  then { tx with closed := (id, restoredAt, restoredBy) :: tx.closed } else tx

/-- What a statement answers and leaves, when the clock reads `clock` and the next
random id is `fresh`; `none` is an error. -/
def answer (clock : Instant) (fresh : JsString) (call : Nat) (db : Db) (tx : Tx) :
    (s : Stmt) → Option (s.Result × Db × Tx)
  | .now => some (clock, db, tx)
  | .nextId => some (fresh, db, tx)
  | .getResource ws id => some ((visibleResource db tx id).filter (·.workspaceId = ws), db, tx)
  | .getRevision ws id =>
    some ((visibleRevisions db tx).find? fun v => v.workspaceId = ws ∧ v.id = id, db, tx)
  | .insertRevision v => (insertRevision db tx v).map ((), db, ·)
  | .setResourceHead i => some ((setResourceHead db tx i).1, db, (setResourceHead db tx i).2)
  | .insertTombstone t => (insertTombstone db tx t).map ((), db, ·)
  | .getOpenTombstone ws id => some ((openTombstones db tx ws id).head?, db, tx)
  | .closeTombstone ws id restoredBy => some ((), db, closeRow db tx ws id restoredBy clock)
  | .advisoryLock ws => some ((), db, { tx with locks := ws :: tx.locks })
  | .previousHash ws => some (AuditLog.previousHash (db.audit ++ tx.audit) ws, db, tx)
  | .insertAudit row => (insertAudit db tx row).map ((), db, ·)
  | .insertOperation o => (insertOperation db tx o).map ((), db, ·)
  | .insertOutbox o => some ((), db, insertOutbox db tx o)
  | .commit => some ((), applyTx call db tx, {})

def exec (call : Nat) (db : Db) (tx : Tx) (s : Stmt) (x : s.Result) (db' : Db) (tx' : Tx) : Prop :=
  ∃ clock fresh, answer clock fresh call db tx s = some (x, db', tx')

/-- PostgreSQL under READ COMMITTED, for the statements of this repository. -/
def database : System Nat Db Tx Stmt Stmt.Result where
  start := {}
  exec := exec
  compatible tx tx' := ∀ k ∈ tx.keys, k ∉ tx'.keys

/-- A call alone on the database: each statement takes the next clock reading and
random id from the list. -/
def runAlone {ε α : Type} (call : Nat) : List (Instant × JsString) → Prog Stmt Stmt.Result ε α →
    Db → Tx → Option (α × Db × Tx)
  | _, .pure a, db, tx => some (a, db, tx)
  | _, .throw _, _, _ => none
  | [], .stmt _ _, _, _ => none
  | (clock, fresh) :: rest, .stmt s k, db, tx =>
    match answer clock fresh call db tx s with
    | none => none
    | some (x, db', tx') => runAlone call rest (k x) db' tx'

theorem solo_of_runAlone {ε α : Type} {call : Nat} {oracle : List (Instant × JsString)}
    {p : Prog Stmt Stmt.Result ε α} {db db' : Db} {tx tx' : Tx} {a : α}
    (h : runAlone call oracle p db tx = some (a, db', tx')) :
    database.Solo call db tx p db' tx' a := by
  induction p generalizing oracle db tx with
  | pure b =>
    rw [runAlone, Option.some.injEq, Prod.mk.injEq, Prod.mk.injEq] at h
    obtain ⟨rfl, rfl, rfl⟩ := h
    exact .pure _ _ _
  | throw e => simp [runAlone] at h
  | stmt st k ih =>
    cases oracle with
    | nil => simp [runAlone] at h
    | cons o rest =>
      obtain ⟨clock, fresh⟩ := o
      rw [runAlone] at h
      cases hx : answer clock fresh call db tx st with
      | none => simp [hx] at h
      | some y =>
        obtain ⟨x, db₁, tx₁⟩ := y
        rw [hx] at h
        exact .stmt ⟨clock, fresh, hx⟩ (ih x h)

structure ServiceError where
  code : Option String
  message : String

abbrev HistoryProg := Prog Stmt Stmt.Result ServiceError

def historyConflict : ServiceError :=
  ⟨some "BASE_REVISION_CONFLICT", "The resource changed after the supplied base revision."⟩

/-- `assertNextRevision`: the first violated rule, if any. -/
def assertNextRevision (resource : Resource) (current : Option Revision) (proposed : Revision) :
    Option ServiceError :=
  if proposed.resourceId ≠ resource.id ∨ proposed.workspaceId ≠ resource.workspaceId ∨
      proposed.datasetId ≠ resource.datasetId then
    some ⟨some "WORKSPACE_MISMATCH", "Proposed revision must remain within the resource boundary."⟩
  else
    match current with
    | none =>
      if proposed.parentRevisionId ≠ none ∨ proposed.revisionNumber ≠ 1 then
        some ⟨some "INVALID_REVISION_NUMBER", "First revision must be revision 1 with no parent."⟩
      else none
    | some current =>
      if resource.currentRevisionId ≠ some current.id then
        some ⟨some "INVALID_CURRENT_REVISION", "Supplied current revision is not the resource head."⟩
      else if proposed.parentRevisionId ≠ some current.id then
        some ⟨some "BASE_REVISION_CONFLICT",
          "Proposed revision was based on a stale or different head."⟩
      else if proposed.revisionNumber ≠ current.revisionNumber + 1 then
        some ⟨some "INVALID_REVISION_NUMBER", "Revision number must increase by one."⟩
      else none

structure CreateRevisionInput where
  workspaceId : JsString
  resourceId : JsString
  expectedRevisionId : Option JsString
  schemaPackageId : JsString
  schemaVersion : JsString
  canonicalPayload : JsonObject
  actorId : JsString
  source : Option RevisionSource := none
  changeNote : Option JsString := none
  restoredFromRevisionId : Option JsString := none

structure DeleteResourceInput where
  workspaceId : JsString
  resourceId : JsString
  expectedRevisionId : Option JsString
  actorId : JsString
  recoverUntil : Option Instant
  reason : Option JsString

structure RestoreResourceInput where
  workspaceId : JsString
  resourceId : JsString
  actorId : JsString
  changeNote : Option JsString

def now : HistoryProg Instant := Prog.perform Stmt.now

def nextId : HistoryProg JsString := Prog.perform Stmt.nextId

def getResource (workspaceId resourceId : JsString) : HistoryProg (Option Resource) :=
  Prog.perform (Stmt.getResource workspaceId resourceId)

def getRevision (workspaceId revisionId : JsString) : HistoryProg (Option Revision) :=
  Prog.perform (Stmt.getRevision workspaceId revisionId)

def appendRevision (v : Revision) : HistoryProg Unit := Prog.perform (Stmt.insertRevision v)

def setHead (i : HeadUpdate) : HistoryProg Bool := Prog.perform (Stmt.setResourceHead i)

def addTombstone (t : Tombstone) : HistoryProg Unit := Prog.perform (Stmt.insertTombstone t)

def getOpenTombstone (workspaceId resourceId : JsString) : HistoryProg (Option Tombstone) :=
  Prog.perform (Stmt.getOpenTombstone workspaceId resourceId)

def closeTombstone (workspaceId tombstoneId restoredBy : JsString) : HistoryProg Unit :=
  Prog.perform (Stmt.closeTombstone workspaceId tombstoneId restoredBy)

def selectPreviousHash (workspaceId : JsString) : HistoryProg JsString :=
  Prog.perform (Stmt.previousHash workspaceId)

/-- `PostgresHistoryRepository.appendAudit`, statement by statement. -/
def appendAudit (event : HistoryAuditEvent) : HistoryProg Unit := do
  let _ ← (Prog.perform (Stmt.advisoryLock event.workspaceId) : HistoryProg Unit)
  let previous ← selectPreviousHash event.workspaceId
  let id ← nextId
  let requestId ← nextId
  let correlationId ← nextId
  let chained := AuditChain.appendAuditEvent (event.body id requestId correlationId) previous
  Prog.perform (Stmt.insertAudit (eventRow chained event.occurredAt (orNull chained.previousEventHash)))

inductive OutboxEventType where
  | revisionCreated
  | deleted
  | restored
  deriving DecidableEq

def OutboxEventType.text : OutboxEventType → JsString
  | .revisionCreated => js "resource.revision_created"
  | .deleted => js "resource.deleted"
  | .restored => js "resource.restored"

structure HistoryOutboxEvent where
  id : JsString
  workspaceId : JsString
  actorId : JsString
  eventType : OutboxEventType
  subjectId : JsString
  occurredAt : Instant
  payload : List (JsString × JsValue)

def enqueueOutbox (event : HistoryOutboxEvent) : HistoryProg Unit := do
  let _ ← (Prog.perform (Stmt.insertOperation
    { id := event.id, workspaceId := event.workspaceId, operationType := event.eventType.text,
      idempotencyKey := event.id, requestedBy := event.actorId }) : HistoryProg Unit)
  Prog.perform (Stmt.insertOutbox
    { id := deterministicUuid (js "history-outbox:" ++ event.id),
      workspaceId := event.workspaceId, operationId := event.id,
      eventType := event.eventType.text,
      payload := .object ((js "subjectId", .string event.subjectId) :: event.payload),
      availableAt := event.occurredAt })

def requiredResource (workspaceId resourceId : JsString) : HistoryProg Resource := do
  match ← getResource workspaceId resourceId with
  | some r => pure r
  | none => .throw ⟨none, "Resource not found."⟩

def requiredRevision (workspaceId revisionId : JsString) : HistoryProg Revision := do
  match ← getRevision workspaceId revisionId with
  | some v => pure v
  | none => .throw ⟨none, "Revision not found."⟩

section Service

variable (localeLe : JsString → JsString → Bool)

/-- Keys in the order of the host's `localeCompare`, which is a parameter. -/
def hashCanonical (payload : JsonObject) : JsString :=
  Sha256.sha256 (textEncode
    ((encode ⟨localeLe, some [], some (js "undefined")⟩ payload.value).getD []))

/-- The revision `createRevision` proposes over the revision it read as current. -/
def proposedRevision (input : CreateRevisionInput) (resource : Resource)
    (current : Option Revision) (id : JsString) (createdAt : Instant) : Revision where
  id := id
  workspaceId := resource.workspaceId
  datasetId := resource.datasetId
  resourceId := resource.id
  revisionNumber := (current.map Revision.revisionNumber).getD 0 + 1
  parentRevisionId := current.map Revision.id
  mergeParentRevisionIds := []
  schemaPackageId := input.schemaPackageId
  schemaVersion := input.schemaVersion
  canonicalPayload := input.canonicalPayload
  canonicalPayloadHash := hashCanonical localeLe input.canonicalPayload
  createdBy := input.actorId
  createdOnDeviceId := none
  source := input.source.getD .user
  changeNote := input.changeNote
  restoredFromRevisionId := input.restoredFromRevisionId
  createdAt := createdAt

/-- A number in the form it has in JSON text. -/
def numberValue : Numbers.JsNumber → JsValue
  | .finite d h => .number (.finite d h)
  | _ => .null

theorem isJson_numberValue (n : Numbers.JsNumber) : isJson (numberValue n) = true := by
  cases n <;> rfl

def revisionMembers (v : Revision) : List (JsString × JsValue) :=
  [(js "revisionId", .string v.id),
    (js "revisionNumber", numberValue (Numbers.ofDecimal ⟨false, v.revisionNumber, 0⟩)),
    (js "source", .string v.source.text)]

def revisionMetadata (v : Revision) : JsonObject where
  members := revisionMembers v
  json := by
    have hk : [js "revisionId", js "revisionNumber", js "source"].Nodup := by decide
    simp [revisionMembers, isJson, isJsonMembers, isJson_numberValue] at hk ⊢
    exact hk

def instantValue : Option Instant → JsValue
  | some t => .string (toISOString t)
  | none => .null

def tombstoneMembers (t : Tombstone) : List (JsString × JsValue) :=
  [(js "tombstoneId", .string t.id), (js "recoverUntil", instantValue t.recoverUntil)]

def tombstoneMetadata (t : Tombstone) : JsonObject where
  members := tombstoneMembers t
  json := by
    have hk : js "tombstoneId" ≠ js "recoverUntil" := by decide
    cases h : t.recoverUntil <;>
      simp [tombstoneMembers, instantValue, isJson, isJsonMembers, hk, h]

def currentRevision (workspaceId : JsString) (resource : Resource) :
    HistoryProg (Option Revision) :=
  match resource.currentRevisionId with
  | some id => do
    let v ← requiredRevision workspaceId id
    pure (some v)
  | none => pure none

def createRevisionWithin (input : CreateRevisionInput) : HistoryProg Revision := do
  let resource ← requiredResource input.workspaceId input.resourceId
  let current ← currentRevision input.workspaceId resource
  if resource.currentRevisionId ≠ input.expectedRevisionId then .throw historyConflict
  else
    let createdAt ← now
    let id ← nextId
    let revision := proposedRevision localeLe input resource current id createdAt
    match assertNextRevision resource current revision with
    | some e => .throw e
    | none =>
      let _ ← appendRevision revision
      let moved ← setHead
        { workspaceId := resource.workspaceId, resourceId := resource.id,
          expectedRevisionId := input.expectedRevisionId, nextRevisionId := some revision.id,
          status := .active, updatedAt := createdAt }
      if moved then
        let _ ← appendAudit
          { workspaceId := resource.workspaceId, actorId := input.actorId,
            action := js "revision.created", subjectId := resource.id, occurredAt := createdAt,
            metadata := revisionMetadata revision }
        let _ ← enqueueOutbox
          { id := revision.id, workspaceId := resource.workspaceId, actorId := input.actorId,
            eventType := if revision.source = .restore then .restored else .revisionCreated,
            subjectId := resource.id, occurredAt := createdAt,
            payload := (js "datasetId", .string resource.datasetId) :: revisionMembers revision }
        pure revision
      else .throw historyConflict

/-- `inTransaction`: the work, then `COMMIT`; an error anywhere rolls back. -/
def inTransaction {α : Type} (work : HistoryProg α) : HistoryProg α := do
  let a ← work
  let _ ← (Prog.perform Stmt.commit : HistoryProg Unit)
  pure a

def createRevision (input : CreateRevisionInput) : HistoryProg Revision :=
  inTransaction (createRevisionWithin localeLe input)

def deletionTombstone (input : DeleteResourceInput) (resource : Resource) (id : JsString)
    (deletedAt : Instant) : Tombstone where
  id := id
  workspaceId := resource.workspaceId
  datasetId := resource.datasetId
  subjectKind := .resource
  subjectId := resource.id
  deletedBy := input.actorId
  deletedAt := deletedAt
  reason := input.reason
  recoverUntil := input.recoverUntil
  priorRevisionId := resource.currentRevisionId
  restoredAt := none
  restoredBy := none
  purgeState := .notEligible

def deleteResourceWithin (input : DeleteResourceInput) : HistoryProg Tombstone := do
  let resource ← requiredResource input.workspaceId input.resourceId
  if resource.currentRevisionId ≠ input.expectedRevisionId then .throw historyConflict
  else
    let deletedAt ← now
    let id ← nextId
    let tombstone := deletionTombstone input resource id deletedAt
    let _ ← addTombstone tombstone
    let moved ← setHead
      { workspaceId := resource.workspaceId, resourceId := resource.id,
        expectedRevisionId := input.expectedRevisionId,
        nextRevisionId := resource.currentRevisionId, status := .deletedLogically,
        updatedAt := deletedAt }
    if moved then
      let _ ← appendAudit
        { workspaceId := resource.workspaceId, actorId := input.actorId,
          action := js "resource.deleted_logically", subjectId := resource.id,
          occurredAt := deletedAt, metadata := tombstoneMetadata tombstone }
      let _ ← enqueueOutbox
        { id := tombstone.id, workspaceId := resource.workspaceId, actorId := input.actorId,
          eventType := .deleted, subjectId := resource.id, occurredAt := deletedAt,
          payload := (js "datasetId", .string resource.datasetId) :: tombstoneMembers tombstone }
      pure tombstone
    else .throw historyConflict

def deleteResource (input : DeleteResourceInput) : HistoryProg Tombstone :=
  inTransaction (deleteResourceWithin input)

/-- Timestamps are ISO strings of one width, so they compare as their instants do. -/
def recoveryExpired (recoverUntil : Option Instant) (at_ : Instant) : Bool :=
  match recoverUntil with
  | some t => decide (t.ms < at_.ms)
  | none => false

def restoreResourceWithin (input : RestoreResourceInput) : HistoryProg Revision := do
  let resource ← requiredResource input.workspaceId input.resourceId
  match ← getOpenTombstone input.workspaceId input.resourceId with
  | none => .throw ⟨none, "No recoverable deletion exists for this resource."⟩
  | some tombstone =>
    match tombstone.priorRevisionId with
    | none => .throw ⟨none, "No recoverable deletion exists for this resource."⟩
    | some priorRevisionId =>
      let at_ ← now
      if recoveryExpired tombstone.recoverUntil at_ then
        .throw ⟨none, "The recovery window has expired."⟩
      else
        let prior ← requiredRevision input.workspaceId priorRevisionId
        let restored ← createRevisionWithin localeLe
          { workspaceId := input.workspaceId, resourceId := input.resourceId,
            expectedRevisionId := resource.currentRevisionId,
            schemaPackageId := prior.schemaPackageId, schemaVersion := prior.schemaVersion,
            canonicalPayload := prior.canonicalPayload, actorId := input.actorId,
            source := some .restore,
            changeNote := some (input.changeNote.getD (js "Restored deleted resource")),
            restoredFromRevisionId := some prior.id }
        let _ ← closeTombstone input.workspaceId tombstone.id input.actorId
        pure restored

def restoreResource (input : RestoreResourceInput) : HistoryProg Revision :=
  inTransaction (restoreResourceWithin localeLe input)

/-- A call of the service, its result aside. -/
inductive Call where
  | create (input : CreateRevisionInput)
  | delete (input : DeleteResourceInput)
  | restore (input : RestoreResourceInput)

def Call.program : Call → HistoryProg Unit
  | .create input => do
    let _ ← createRevision localeLe input
    pure ()
  | .delete input => do
    let _ ← deleteResource input
    pure ()
  | .restore input => do
    let _ ← restoreResource localeLe input
    pure ()

end Service

end TrustCore.History
