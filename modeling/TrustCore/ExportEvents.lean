import TrustCore.ArchiveContainer
import TrustCore.PolicyAssignments

/-!
# Exports and their audit events

`createExport` saves a request, builds its archive, sets the export to `ready` in one transaction and
appends the event `archive.exported` in a later one. A request whose export is ready already is
answered at once. Any transaction may fail, or be carried out without an answer, and any call may be
cut off. Between the two transactions an export is ready and not recorded; a call that is lost there,
or whose event takes the id of another one, leaves it so.
-/

namespace TrustCore.ExportEvents

open TrustCore.Utf TrustCore.Json TrustCore.Sha256 TrustCore.Columns TrustCore.AuditChain
open TrustCore.AuditLog TrustCore.ComposedIds TrustCore.ArchiveFormat TrustCore.ArchiveVerify
open TrustCore.ArchiveAssemble TrustCore.ArchiveContainer TrustCore.Runs TrustCore.Sessions
open TrustCore.PolicyAssignments (uuidColumn)
open TrustCore.Programs (Prog)

/-! ## The catalog -/

structure PortabilityStorageLocation where
  provider : JsString
  key : JsString

/-- The columns of an export that are set where it is ready. -/
structure ExportArchive where
  archiveSha256 : JsString
  byteLength : Nat
  storage : PortabilityStorageLocation
  manifest : TrustArchiveManifest
  completedAt : Instant

inductive ExportStatus where
  | pending
  | failed
  | ready (archive : ExportArchive)

/-- A row of `portability_exports`. -/
structure ExportRow where
  id : JsString
  workspaceId : JsString
  datasetIds : List JsString
  status : ExportStatus
  requestedBy : JsString
  principalType : PortabilityPrincipalType
  idempotencyKey : JsString
  requestFingerprint : JsString
  createdAt : Instant
  updatedAt : Instant

structure Catalog where
  exports : List ExportRow
  auditEvents : Table

structure Actor where
  id : JsString
  principalType : Option PortabilityPrincipalType

structure CreateArchiveExportCommand where
  workspaceId : WorkspaceId
  datasetIds : List JsString
  idempotencyKey : JsString

structure Call where
  actor : Actor
  command : CreateArchiveExportCommand

structure ArchiveExportSummary where
  id : JsString
  workspaceId : JsString
  datasetIds : List JsString
  sha256 : JsString
  byteLength : Nat
  createdAt : JsString

/-- An error with a code of the service, or one of the database or the storage. -/
inductive PortabilityError where
  | coded (code message : JsString)
  | failure (code : Option JsString)

def PortabilityError.code : PortabilityError → JsString
  | .coded code _ => code
  | .failure code => code.getD (js "PORTABILITY_OPERATION_FAILED")

structure SaveExport where
  id : JsString
  workspaceId : JsString
  datasetIds : List JsString
  requestedBy : JsString
  principalType : PortabilityPrincipalType
  idempotencyKey : JsString
  requestFingerprint : JsString
  createdAt : Instant

structure PersistArchive where
  workspaceId : JsString
  requestId : JsString
  bytes : Bytes

structure PersistedArchive where
  sha256 : JsString
  byteLength : Nat
  storage : PortabilityStorageLocation

structure CompleteExport where
  workspaceId : JsString
  exportId : JsString
  archiveSha256 : JsString
  byteLength : Nat
  storage : PortabilityStorageLocation
  manifest : TrustArchiveManifest
  completedAt : Instant

inductive Stmt where
  | clock
  | saveExport (input : SaveExport)
  | read (input : ReadExport)
  | persist (input : PersistArchive)
  | completeExport (input : CompleteExport)
  | failExport (workspaceId exportId : JsString) (now : Instant)
  | appendAudit (input : PortabilityAudit)

abbrev Stmt.Result : Stmt → Type
  | .clock => Instant
  | .saveExport _ => Except PortabilityError ExportRow
  | .read _ => Except PortabilityError ArchiveSource
  | .persist _ => Except PortabilityError PersistedArchive
  | .completeExport _ => Except PortabilityError ExportRow
  | .failExport _ _ _ => Except PortabilityError Unit
  | .appendAudit _ => Except PortabilityError Unit

abbrev ExportProg := Prog Stmt Stmt.Result PortabilityError ArchiveExportSummary

/-- A transaction that fails is rolled back, or is carried out and its answer lost. -/
inductive Fault where
  | lost
  | unanswered
  deriving DecidableEq

/-- What a statement takes from outside the catalog. -/
structure Supplies where
  now : Instant
  fault : Option Fault
  failureCode : Option JsString
  exported : Option (Records × List ArchiveBlobInput)
  storageKey : Option JsString

/-- What the provider is built with, and the library functions it calls. -/
structure Provider where
  allowLocalUnsignedProfile : Bool
  storageProvider : JsString
  zip : ZipLibrary
  localeLe : JsString → JsString → Bool
  dateParse : JsString → Option Int

/-! ## The transactions -/

/-- `btrim(value) = ''`. -/
def isBlank (value : JsString) : Bool := value.all fun u => u == 32

/-- The row of a request, unless one of its columns refuses the value. -/
def exportRow (input : SaveExport) : Option ExportRow := do
  let id ← textColumn input.id
  let datasetIds ← input.datasetIds.mapM uuidColumn
  let requestedBy ← textColumn input.requestedBy
  let idempotencyKey ← textColumn input.idempotencyKey
  if datasetIds.isEmpty || isBlank requestedBy || isBlank idempotencyKey then none
  else return { id, workspaceId := input.workspaceId, datasetIds, status := .pending, requestedBy,
                principalType := input.principalType, idempotencyKey,
                requestFingerprint := input.requestFingerprint, createdAt := input.createdAt,
                updatedAt := input.createdAt }

/-- The columns that `ON CONFLICT` names. -/
def sameRequest (row stored : ExportRow) : Bool :=
  stored.workspaceId == row.workspaceId && stored.principalType == row.principalType &&
    stored.requestedBy == row.requestedBy && stored.idempotencyKey == row.idempotencyKey

def profileDisabled : PortabilityError :=
  .coded (js "UNSIGNED_ARCHIVE_PROFILE_DISABLED")
    (js "Unsigned trust archives are disabled outside the explicit local profile.")

def assertFingerprint (row : ExportRow) (expected : JsString) : Except PortabilityError ExportRow :=
  if row.requestFingerprint = expected then .ok row
  else .error (.coded (js "IDEMPOTENCY_CONFLICT")
    (js "Idempotency key was already used for a different portability request."))

/-- `INSERT … ON CONFLICT … DO UPDATE … RETURNING *`; a row of the same id and another request violates
the primary key. -/
def saveExport (P : Provider) (supplies : Supplies) (s : Catalog) (input : SaveExport) :
    Except PortabilityError ExportRow × Catalog :=
  if P.allowLocalUnsignedProfile then
    match exportRow input with
    | none => (.error (.failure supplies.failureCode), s)
    | some row =>
      match s.exports.find? (sameRequest row) with
      | some stored => (assertFingerprint stored input.requestFingerprint, s)
      | none =>
        if s.exports.any (fun stored => stored.id == row.id) then
          (.error (.failure supplies.failureCode), s)
        else (.ok row, { s with exports := s.exports ++ [row] })
  else (.error profileDisabled, s)

/-- What the reader selects and the storage holds is given, or an error. -/
def readExport (supplies : Supplies) (input : ReadExport) : Except PortabilityError ArchiveSource :=
  match supplies.exported with
  | none => .error (.failure supplies.failureCode)
  | some (records, blobs) => .ok
    { exportId := input.exportId, workspaceId := input.workspaceId, datasetIds := input.datasetIds
      createdAt := input.createdAt, createdBy := input.createdBy, sourceVersion := js "0.3"
      records, blobs }

def persist (P : Provider) (supplies : Supplies) (input : PersistArchive) :
    Except PortabilityError PersistedArchive :=
  if maxArchiveBytes < input.bytes.length then
    .error (.coded (js "REQUEST_TOO_LARGE") (js "Archive exceeds the bounded 0.2H container limit."))
  else
    match supplies.storageKey with
    | none => .error (.failure supplies.failureCode)
    | some key => .ok ⟨sha256 input.bytes, input.bytes.length, ⟨P.storageProvider, key⟩⟩

/-- `WHERE workspace_id=$1 AND id=$2`. -/
def ofId (workspaceId exportId : JsString) (row : ExportRow) : Bool :=
  row.workspaceId == workspaceId && row.id == exportId

/-- The rows that `completeExport` updates. -/
def completes (input : CompleteExport) (row : ExportRow) : Bool :=
  ofId input.workspaceId input.exportId row &&
    match row.status with
    | .ready archive => archive.archiveSha256 == input.archiveSha256
    | _ => true

def completed (input : CompleteExport) (row : ExportRow) : ExportRow :=
  { row with
    status := .ready ⟨input.archiveSha256, input.byteLength, input.storage, input.manifest,
      input.completedAt⟩
    updatedAt := input.completedAt }

def completeExport (P : Provider) (s : Catalog) (input : CompleteExport) :
    Except PortabilityError ExportRow × Catalog :=
  if P.allowLocalUnsignedProfile then
    match s.exports.find? (completes input) with
    | none => (.error (.failure none), s)
    | some row =>
      (.ok (completed input row),
        { s with exports := s.exports.map fun row =>
            if completes input row then completed input row else row })
  else (.error profileDisabled, s)

/-- `SET status='failed' … AND status='pending'`. -/
def setFailed (workspaceId exportId : JsString) (now : Instant) (row : ExportRow) : ExportRow :=
  match row.status with
  | .pending =>
    if ofId workspaceId exportId row then { row with status := .failed, updatedAt := now } else row
  | _ => row

def failExport (s : Catalog) (workspaceId exportId : JsString) (now : Instant) :
    Except PortabilityError Unit × Catalog :=
  (.ok (), { s with exports := s.exports.map (setFailed workspaceId exportId now) })

def appendAudit (supplies : Supplies) (s : Catalog) (input : PortabilityAudit) :
    Except PortabilityError Unit × Catalog :=
  match portabilityAppendAudit s.auditEvents input with
  | none => (.error (.failure supplies.failureCode), s)
  | some auditEvents => (.ok (), { s with auditEvents })

/-- The answer of a transaction under a fault. -/
def Supplies.faulted {α : Type} (supplies : Supplies) (s : Catalog)
    (r : Except PortabilityError α × Catalog) : Except PortabilityError α × Catalog :=
  match supplies.fault with
  | none => r
  | some .lost => (.error (.failure supplies.failureCode), s)
  | some .unanswered => (.error (.failure supplies.failureCode), r.2)

def perform (P : Provider) (supplies : Supplies) : (st : Stmt) → Catalog → st.Result × Catalog
  | .clock, s => (supplies.now, s)
  | .saveExport input, s => supplies.faulted s (saveExport P supplies s input)
  | .read input, s => supplies.faulted s (readExport supplies input, s)
  | .persist input, s => supplies.faulted s (persist P supplies input, s)
  | .completeExport input, s => supplies.faulted s (completeExport P s input)
  | .failExport workspaceId exportId now, s =>
    supplies.faulted s (failExport s workspaceId exportId now)
  | .appendAudit input, s => supplies.faulted s (appendAudit supplies s input)

/-! ## The call -/

def Call.principalType (call : Call) : PortabilityPrincipalType :=
  call.actor.principalType.getD .user

def Call.workspaceId (call : Call) : JsString := call.command.workspaceId.text

def Call.exportId (call : Call) : JsString :=
  ComposedIds.exportId ⟨call.command.workspaceId, call.principalType, call.actor.id,
    call.command.idempotencyKey⟩

/-- `[...new Set(command.datasetIds)].sort()`. -/
def Call.datasetIds (call : Call) : List JsString :=
  call.command.datasetIds.dedup.insertionSort fun a b => unitsLe a b = true

/-- `JSON.stringify({ datasetIds })`. -/
def fingerprintText (datasetIds : List JsString) : JsString :=
  js "\x7b\"datasetIds\":[" ++ joinComma (datasetIds.map quote) ++ js "]\x7d"

def actorTypeOf : PortabilityPrincipalType → ActorType
  | .user => .user
  | .service => .service
  | .application => .application

/-- The input of `audit` about the export of a call. -/
def Call.audit (call : Call) (action : PortabilityAction) (outcome : Outcome)
    (errorCode : Option JsString) (now : Instant) : PortabilityAudit where
  workspaceId := call.workspaceId
  actorId := call.actor.id
  principalType := actorTypeOf call.principalType
  action := action.text
  subjectKind := js "export"
  subjectId := call.exportId
  requestId := call.command.idempotencyKey
  correlationId := deterministicUuid (js "portability-correlation:" ++ call.workspaceId ++ js ":" ++
    call.command.idempotencyKey)
  outcome := outcome
  errorCode := errorCode
  occurredAt := now

def summary (row : ExportRow) (archive : ExportArchive) : ArchiveExportSummary where
  id := row.id
  workspaceId := row.workspaceId
  datasetIds := row.datasetIds
  sha256 := archive.archiveSha256
  byteLength := archive.byteLength
  createdAt := toISOString row.createdAt

def exportSummary (row : ExportRow) : ExportProg :=
  match row.status with
  | .ready archive => .pure (summary row archive)
  | _ => .throw (.failure none)

/-- What is left of a call once its export is ready: its event, at an instant, and its answer. -/
def recordAt (call : Call) (row : ExportRow) (now : Instant) : ExportProg := do
  Prog.ofExcept (← Prog.perform (.appendAudit (call.audit .exported .succeeded none now)))
  exportSummary row

def record (call : Call) (row : ExportRow) : ExportProg := do
  let now ← Prog.perform .clock
  recordAt call row now

def thrown {α : Type} : Option α → Prog Stmt Stmt.Result PortabilityError α
  | some a => .pure a
  | none => .throw (.failure none)

/-- From the container to the answer. -/
def store (call : Call) (manifest : TrustArchiveManifest) (bytes : Bytes) : ExportProg := do
  let persisted : PersistedArchive ← Prog.ofExcept (← Prog.perform (.persist
    { workspaceId := call.workspaceId, requestId := call.exportId, bytes }))
  let completedAt ← Prog.perform .clock
  let completed ← Prog.ofExcept (← Prog.perform (.completeExport
    { workspaceId := call.workspaceId, exportId := call.exportId
      archiveSha256 := persisted.sha256, byteLength := persisted.byteLength
      storage := persisted.storage, manifest, completedAt }))
  record call completed

/-- From the source to the answer. -/
def write (P : Provider) (call : Call) (source : ArchiveSource) : ExportProg := do
  let (entries, manifest) ← thrown (assembleArchiveEntries P.localeLe source)
  let bytes ← thrown (writeTrustArchive P.zip P.localeLe P.dateParse entries manifest)
  store call manifest bytes

def readInput (call : Call) (durable : ExportRow) : ReadExport where
  exportId := call.exportId
  workspaceId := call.workspaceId
  datasetIds := call.datasetIds
  createdAt := toISOString durable.createdAt
  createdBy := call.actor.id

/-- From the reader to the answer. -/
def build (P : Provider) (call : Call) (durable : ExportRow) : ExportProg := do
  let source : ArchiveSource ← Prog.ofExcept (← Prog.perform (.read (readInput call durable)))
  write P call source

def saveInput (call : Call) (createdAt : Instant) : SaveExport where
  id := call.exportId
  workspaceId := call.workspaceId
  datasetIds := call.datasetIds
  requestedBy := call.actor.id
  principalType := call.principalType
  idempotencyKey := call.command.idempotencyKey
  requestFingerprint := sha256 (textEncode (fingerprintText call.datasetIds))
  createdAt := createdAt

/-- What follows a saved request. -/
def proceed (P : Provider) (call : Call) (durable : ExportRow) : ExportProg :=
  match durable.status with
  | .ready archive => .pure (summary durable archive)
  | _ => build P call durable

/-- The block under `try`. -/
def attempt (P : Provider) (call : Call) (createdAt : Instant) : ExportProg := do
  let durable ← Prog.ofExcept (← Prog.perform (.saveExport (saveInput call createdAt)))
  proceed P call durable

/-- The `catch` clause, which ignores what its own transactions throw. -/
def onError (call : Call) (error : PortabilityError) : ExportProg := do
  let failedAt ← Prog.perform .clock
  let _ ← Prog.perform (.failExport call.workspaceId call.exportId failedAt)
  let now ← Prog.perform .clock
  let _ ← Prog.perform (.appendAudit (call.audit .exportFailed .failed (some error.code) now))
  Prog.throw error

def createExport (P : Provider) (call : Call) : ExportProg := do
  let createdAt ← Prog.perform .clock
  (attempt P call createdAt).catchError (onError call)

def service (P : Provider) :
    Service Call Supplies Catalog Stmt Stmt.Result PortabilityError ArchiveExportSummary where
  program := createExport P
  perform := perform P

/-! ## Ready exports and their events -/

/-- An export of a workspace. -/
structure Subject where
  workspaceId : JsString
  exportId : JsString

def ExportRow.subject (row : ExportRow) : Subject := ⟨row.workspaceId, row.id⟩

def ArchiveExportSummary.subject (a : ArchiveExportSummary) : Subject := ⟨a.workspaceId, a.id⟩

def Call.subject (call : Call) : Subject := ⟨call.workspaceId, call.exportId⟩

def ExportRow.IsReady (row : ExportRow) : Prop := ∃ archive, row.status = .ready archive

/-- The event `archive.exported` of the export. -/
def IsEventOf (e : Subject) (event : AuditRow) : Prop :=
  event.workspaceId = e.workspaceId ∧ event.action = js "archive.exported" ∧
    event.subjectId = e.exportId

def Recorded (s : Catalog) (e : Subject) : Prop := ∃ event ∈ s.auditEvents, IsEventOf e event

def Appends (e : Subject) (input : PortabilityAudit) : Prop :=
  input.action = js "archive.exported" ∧ input.workspaceId = e.workspaceId ∧
    input.subjectId = e.exportId

/-- The program appends the event of the export next, but for a look at the clock. -/
def Owes (e : Subject) : ExportProg → Prop
  | .stmt .clock k => ∃ now, Owes e (k now)
  | .stmt (.appendAudit input) _ => Appends e input
  | _ => False

section Sessions

variable {ι : Type} [DecidableEq ι]

abbrev ExportSession := Session Call Stmt Stmt.Result PortabilityError ArchiveExportSummary

abbrev ExportWorld (ι : Type) :=
  World ι Call Catalog Stmt Stmt.Result PortabilityError ArchiveExportSummary

/-- The session has set the export to `ready`, and is to append its event. -/
def Owing (e : Subject) : ExportSession → Prop
  | .running _ p => Owes e p
  | _ => False

/-- What may run while other sessions are between their two transactions. -/
def StatementAdmitted (w : ExportWorld ι) (supplies : Supplies) : Stmt → Prop
  | .saveExport input =>
    ∀ row, exportRow input = some row → ∀ stored ∈ w.db.exports, sameRequest row stored = true →
      stored.IsReady → ∀ j, ¬ Owing stored.subject (w.sessions j)
  | .completeExport _ => supplies.fault ≠ some .unanswered
  | .appendAudit input =>
    input.action = js "archive.exported" → supplies.fault ≠ some .lost ∧
      (∃ auditEvents, portabilityAppendAudit w.db.auditEvents input = some auditEvents) ∧
      ∀ event ∈ w.db.auditEvents, event.workspaceId = input.workspaceId → event.id = input.body.id →
        IsEventOf ⟨input.workspaceId, input.subjectId⟩ event
  | _ => True

/-- No call is lost between its two transactions, or before the first has answered; each event is
accepted, and its id is not the id of another one; and no call finds its export ready while another
is to record it. -/
def Admits (w : ExportWorld ι) : Label ι Call Supplies → Prop
  | .stop i => ∀ e, ¬ Owing e (w.sessions i)
  | .run i supplies => ∀ call st, w.Next i call st → StatementAdmitted w supplies st
  | _ => True

/-- Every ready export is recorded, or is to be. -/
def Covered (w : ExportWorld ι) : Prop :=
  ∀ row ∈ w.db.exports, row.IsReady → Recorded w.db row.subject ∨ ∃ i, Owing row.subject (w.sessions i)

/-- Rows that come to be ready are owed, and what was owed is recorded or still owed. -/
theorem Covered.set {w : ExportWorld ι} {i : ι} {x : ExportSession} {s : Catalog} (h : Covered w)
    (hrecorded : ∀ e, Recorded w.db e → Recorded s e)
    (hready : ∀ row ∈ s.exports, row.IsReady → Owing row.subject x ∨
      ∃ stored ∈ w.db.exports, stored.IsReady ∧ stored.subject = row.subject)
    (howing : ∀ e, Owing e (w.sessions i) → Recorded s e ∨ Owing e x) :
    Covered { w.set i x with db := s } := by
  intro row hrow hrowReady
  have hlater : ∀ e, Recorded w.db e ∨ (∃ j, Owing e (w.sessions j)) →
      Recorded s e ∨ ∃ j, Owing e ((w.set i x).sessions j) := by
    rintro e (hevent | ⟨j, hj⟩)
    · exact Or.inl (hrecorded e hevent)
    · by_cases hji : j = i
      · subst hji
        exact (howing e hj).imp_right fun hx => ⟨j, by rwa [World.set_self]⟩
      · exact Or.inr ⟨j, by rwa [World.set_ne hji]⟩
  rcases hready row hrow hrowReady with hx | ⟨stored, hstored, hstoredReady, hsubject⟩
  · exact Or.inr ⟨i, by rwa [World.set_self]⟩
  · exact hlater _ (hsubject ▸ h stored hstored hstoredReady)

end Sessions

/-! ## What the transactions do -/

section Transactions

variable {P : Provider} {supplies : Supplies} {s : Catalog}

/-- The events stay, and no export comes to be ready. -/
structure Plain (s s' : Catalog) : Prop where
  recorded : ∀ e, Recorded s e → Recorded s' e
  ready : ∀ row ∈ s'.exports, row.IsReady →
    ∃ stored ∈ s.exports, stored.IsReady ∧ stored.subject = row.subject

theorem Plain.refl (s : Catalog) : Plain s s :=
  ⟨fun _ => id, fun row hrow hready => ⟨row, hrow, hready, rfl⟩⟩

theorem Plain.faulted {α : Type} {r : Except PortabilityError α × Catalog} (h : Plain s r.2) :
    Plain s (supplies.faulted s r).2 := by
  unfold Supplies.faulted
  split
  · exact h
  · exact .refl s
  · exact h

/-- A new row is pending, with the id, the workspace and the instant of its request. -/
theorem exportRow_eq {input : SaveExport} {row : ExportRow} (h : exportRow input = some row) :
    row.status = .pending ∧ row.workspaceId = input.workspaceId ∧ textColumn input.id = some row.id ∧
      row.requestFingerprint = input.requestFingerprint ∧ row.createdAt = input.createdAt := by
  simp only [exportRow, Option.bind_eq_bind, Option.bind_eq_some_iff] at h
  obtain ⟨id, hid, datasetIds, -, requestedBy, -, key, -, h⟩ := h
  split_ifs at h
  cases h
  exact ⟨rfl, rfl, hid, rfl, rfl⟩

theorem plain_saveExport (input : SaveExport) : Plain s (saveExport P supplies s input).2 := by
  unfold saveExport
  split
  · split
    · exact .refl s
    · rename_i row hrow
      split
      · exact .refl s
      · split
        · exact .refl s
        · refine ⟨fun _ => id, fun row' hrow' hready => ?_⟩
          rcases List.mem_append.mp hrow' with hold | hnew
          · exact ⟨row', hold, hready, rfl⟩
          · obtain ⟨archive, hstatus⟩ := hready
            rw [List.mem_singleton.mp hnew, (exportRow_eq hrow).1] at hstatus
            cases hstatus
  · exact .refl s

theorem plain_failExport (workspaceId exportId : JsString) (now : Instant) :
    Plain s (failExport s workspaceId exportId now).2 := by
  refine ⟨fun _ => id, fun row hrow hready => ?_⟩
  obtain ⟨stored, hstored, rfl⟩ := List.mem_map.mp hrow
  refine ⟨stored, hstored, ?_⟩
  unfold setFailed at hready ⊢
  split at hready
  · split_ifs at hready with hof
    · obtain ⟨archive, hstatus⟩ := hready
      cases hstatus
    · rename_i hpending
      obtain ⟨archive, hstatus⟩ := hready
      rw [hpending] at hstatus
      cases hstatus
  · exact ⟨hready, rfl⟩

/-- An append leaves the events that were there. -/
theorem appended {t auditEvents : Table} {input : PortabilityAudit}
    (h : portabilityAppendAudit t input = some auditEvents) :
    (auditEvents = t ∧ ∃ event ∈ t, event.workspaceId = input.workspaceId ∧ event.id = input.body.id) ∨
      ∃ chained previous event, eventRow (appendAuditEvent input.body chained) input.occurredAt
        previous = some event ∧ auditEvents = t ++ [event] := by
  rw [portabilityAppendAudit, appendEvent] at h
  split at h
  · rename_i hexists
    obtain ⟨event, hmem, hworkspace, hid⟩ := hexists.2
    cases h
    exact Or.inl ⟨rfl, event, hmem, hworkspace, hid⟩
  · dsimp only at h
    split at h
    · cases h
    · rename_i event hevent
      split at h
      · cases h
      · cases h
        exact Or.inr ⟨_, _, event, hevent, rfl⟩

theorem plain_appendAudit (input : PortabilityAudit) : Plain s (appendAudit supplies s input).2 := by
  unfold appendAudit
  split
  · exact .refl s
  · rename_i auditEvents hauditEvents
    refine ⟨fun e ⟨event, hevent, he⟩ => ?_, fun row hrow hready => ⟨row, hrow, hready, rfl⟩⟩
    rcases appended hauditEvents with ⟨rfl, -⟩ | ⟨_, _, _, -, rfl⟩
    · exact ⟨event, hevent, he⟩
    · exact ⟨event, List.mem_append_left _ hevent, he⟩

theorem isWellFormed_exportId (call : Call) : isWellFormed call.exportId = true := by
  refine isWellFormed_append _ _ (by decide) (isWellFormed_of_forall _ fun u hu => ?_)
  exact isLowerHex_not_surrogate
    (isSha256_isLowerHex (isSha256_sha256 _) u (List.mem_of_mem_take hu))

/-- The accepted event of a call is an event of its export. -/
theorem recorded_append {call : Call} {now : Instant} {auditEvents : Table}
    (h : portabilityAppendAudit s.auditEvents (call.audit .exported .succeeded none now) =
      some auditEvents)
    (hid : ∀ event ∈ s.auditEvents, event.workspaceId = call.workspaceId →
      event.id = (call.audit .exported .succeeded none now).body.id → IsEventOf call.subject event) :
    Recorded { s with auditEvents } call.subject := by
  rcases appended h with ⟨rfl, event, hmem, hworkspace, heventId⟩ | ⟨chained, previous, event, hrow, rfl⟩
  · exact ⟨event, hmem, hid event hmem hworkspace heventId⟩
  · refine ⟨event, List.mem_append_right _ List.mem_cons_self, ?_⟩
    simp only [eventRow, Option.bind_eq_bind, Option.bind_eq_some_iff, Option.pure_def,
      Option.some.injEq] at hrow
    obtain ⟨actorId, -, action, haction, subjectKind, -, subjectId, hsubject, requestId, -,
      correlationId, -, metadataJson, -, rfl⟩ := hrow
    exact ⟨rfl, textColumn_eq haction (by decide), textColumn_eq hsubject (isWellFormed_exportId call)⟩

/-- The export that a call has set to `ready`, and which others were so before. -/
theorem completeExport_ok {input : CompleteExport} {row : ExportRow} {s' : Catalog}
    (h : completeExport P s input = (.ok row, s')) :
    row.IsReady ∧ row.subject = ⟨input.workspaceId, input.exportId⟩ ∧
      s'.auditEvents = s.auditEvents ∧ ∀ later ∈ s'.exports, later.IsReady →
        later.subject = row.subject ∨
          ∃ stored ∈ s.exports, stored.IsReady ∧ stored.subject = later.subject := by
  have hsubject : ∀ stored, completes input stored = true →
      (completed input stored).subject = ⟨input.workspaceId, input.exportId⟩ := by
    intro stored hstored
    simp only [completes, ofId, Bool.and_eq_true, beq_iff_eq] at hstored
    rw [ExportRow.subject, completed, hstored.1.1, hstored.1.2]
  unfold completeExport at h
  split at h
  · split at h
    · cases h
    · rename_i found hfound
      cases h
      have hrow := hsubject found (List.find?_some hfound)
      refine ⟨⟨_, rfl⟩, hrow, rfl, fun later hlater hready => ?_⟩
      obtain ⟨stored, hstored, rfl⟩ := List.mem_map.mp hlater
      by_cases hcompletes : completes input stored = true
      · rw [if_pos hcompletes]
        exact Or.inl ((hsubject stored hcompletes).trans hrow.symm)
      · rw [if_neg hcompletes] at hready ⊢
        exact Or.inr ⟨stored, hstored, hready, rfl⟩
  · cases h

theorem completeExport_error {input : CompleteExport} {e : PortabilityError} {s' : Catalog}
    (h : completeExport P s input = (.error e, s')) : s' = s := by
  unfold completeExport at h
  split at h
  · split at h
    · cases h
      rfl
    · cases h
  · cases h
    rfl

/-- A request that is saved and ready is one that was stored. -/
theorem saveExport_ready {input : SaveExport} {row : ExportRow} {s' : Catalog}
    (h : saveExport P supplies s input = (.ok row, s')) (hready : row.IsReady) :
    s' = s ∧ row ∈ s.exports ∧ ∃ new, exportRow input = some new ∧ sameRequest new row = true := by
  unfold saveExport at h
  split at h
  · split at h
    · cases h
    · rename_i new hnew
      split at h
      · rename_i stored hstored
        rw [assertFingerprint] at h
        split at h
        · cases h
          exact ⟨rfl, List.mem_of_find?_eq_some hstored, new, hnew, List.find?_some hstored⟩
        · cases h
      · split at h
        · cases h
        · cases h
          obtain ⟨archive, hstatus⟩ := hready
          rw [(exportRow_eq hnew).1] at hstatus
          cases hstatus
  · cases h

end Transactions

/-! ## Where a call stands -/

section Stages

variable {P : Provider} {supplies : Supplies} {s s' : Catalog} {call : Call}

/-- The program saves nothing and returns nothing, but for what it does once the export is ready. -/
def Toward (call : Call) : ExportProg → Prop
  | .pure _ => False
  | .throw _ => True
  | .stmt .clock k => ∀ now, Toward call (k now)
  | .stmt (.saveExport _) _ => False
  | .stmt (.read _) k => ∀ r, Toward call (k r)
  | .stmt (.persist _) k => ∀ r, Toward call (k r)
  | .stmt (.completeExport input) k =>
    input.workspaceId = call.workspaceId ∧ input.exportId = call.exportId ∧
      (∀ row, k (.ok row) = (record call row).catchError (onError call)) ∧
      ∀ e, Toward call (k (.error e))
  | .stmt (.failExport _ _ _) k => ∀ r, Toward call (k r)
  | .stmt (.appendAudit input) k => input.action ≠ js "archive.exported" ∧ ∀ r, Toward call (k r)

theorem not_owes_of_toward {e : Subject} {p : ExportProg} (h : Toward call p) : ¬ Owes e p := by
  induction p with
  | pure a => exact id
  | throw e => exact id
  | stmt st k ih =>
    cases st with
    | clock => exact fun ⟨now, hnow⟩ => ih now (h now) hnow
    | appendAudit input => exact fun hinput => h.1 hinput.1
    | saveExport => exact id
    | read => exact id
    | persist => exact id
    | completeExport => exact id
    | failExport => exact id

theorem toward_onError (e : PortabilityError) : Toward call (onError call e) := by
  have haction : PortabilityAction.exportFailed.text ≠ js "archive.exported" := by decide
  exact fun _ _ _ => ⟨haction, fun _ => trivial⟩

theorem write_eq {source : ArchiveSource} {entries : EntryMap} {manifest : TrustArchiveManifest}
    {bytes : Bytes} (hassemble : assembleArchiveEntries P.localeLe source = some (entries, manifest))
    (hwrite : writeTrustArchive P.zip P.localeLe P.dateParse entries manifest = some bytes) :
    write P call source = store call manifest bytes := by
  rw [write, hassemble]
  change (thrown (writeTrustArchive P.zip P.localeLe P.dateParse entries manifest)).bind _ = _
  rw [hwrite]
  rfl

theorem toward_store (manifest : TrustArchiveManifest) (bytes : Bytes) :
    Toward call ((store call manifest bytes).catchError (onError call)) := by
  intro persisted
  cases persisted with
  | error e => exact toward_onError e
  | ok persisted => exact fun completedAt => ⟨rfl, rfl, fun row => rfl, fun e => toward_onError e⟩

theorem toward_build (durable : ExportRow) :
    Toward call ((build P call durable).catchError (onError call)) := by
  intro answer
  cases answer with
  | error e => exact toward_onError e
  | ok source =>
    change Toward call ((write P call source).catchError (onError call))
    cases hassemble : assembleArchiveEntries P.localeLe source with
    | none =>
      rw [write, hassemble]
      exact toward_onError _
    | some assembled =>
      obtain ⟨entries, manifest⟩ := assembled
      cases hwrite : writeTrustArchive P.zip P.localeLe P.dateParse entries manifest with
      | none =>
        rw [write, hassemble]
        change Toward call (((thrown (writeTrustArchive P.zip P.localeLe P.dateParse entries
          manifest)).bind _).catchError _)
        rw [hwrite]
        exact toward_onError _
      | some bytes =>
        rw [write_eq hassemble hwrite]
        exact toward_store manifest bytes

/-- What holds of a call at each of its statements. -/
inductive At (P : Provider) (s : Catalog) (call : Call) : ExportProg → Prop
  | begun : At P s call (createExport P call)
  | saving (createdAt : Instant) :
      At P s call ((attempt P call createdAt).catchError (onError call))
  | toward (p : ExportProg) (h : Toward call p) : At P s call p
  | recording (row : ExportRow) (hready : row.IsReady) (hsubject : row.subject = call.subject) :
      At P s call ((record call row).catchError (onError call))
  | recordingAt (row : ExportRow) (now : Instant) (hready : row.IsReady)
      (hsubject : row.subject = call.subject) :
      At P s call ((recordAt call row now).catchError (onError call))
  | answered (a : ArchiveExportSummary) (h : Recorded s a.subject) : At P s call (.pure a)

theorem At.mono {p : ExportProg} (hA : At P s call p) (h : ∀ e, Recorded s e → Recorded s' e) :
    At P s' call p := by
  cases hA with
  | begun => exact .begun
  | saving createdAt => exact .saving createdAt
  | toward p hp => exact .toward p hp
  | recording row hready hsubject => exact .recording row hready hsubject
  | recordingAt row now hready hsubject => exact .recordingAt row now hready hsubject
  | answered a ha => exact .answered a (h _ ha)

theorem owes_record (row : ExportRow) : Owes call.subject ((record call row).catchError (onError call)) :=
  ⟨⟨0, epoch_bound⟩, rfl, rfl, rfl⟩

theorem owes_recordAt_iff {e : Subject} (row : ExportRow) (now : Instant) :
    Owes e ((recordAt call row now).catchError (onError call)) ↔ e = call.subject := by
  constructor
  · rintro ⟨-, hworkspace, hsubject⟩
    obtain ⟨workspaceId, exportId⟩ := e
    cases hworkspace
    cases hsubject
    rfl
  · rintro rfl
    exact ⟨rfl, rfl, rfl⟩

theorem owes_record_iff {e : Subject} (row : ExportRow) :
    Owes e ((record call row).catchError (onError call)) ↔ e = call.subject := by
  constructor
  · rintro ⟨now, hnow⟩
    exact (owes_recordAt_iff row now).mp hnow
  · rintro rfl
    exact owes_record row

/-- A fault is the failure of the transaction or its loss. -/
theorem faulted_cases {α : Type} (supplies : Supplies) (s : Catalog)
    (r : Except PortabilityError α × Catalog) :
    supplies.faulted s r = r ∨
      (∃ e, supplies.faulted s r = (.error e, s) ∧ supplies.fault = some .lost) ∨
      ∃ e, supplies.faulted s r = (.error e, r.2) ∧ supplies.fault = some .unanswered := by
  unfold Supplies.faulted
  split
  · exact Or.inl rfl
  · exact Or.inr (Or.inl ⟨_, rfl, ‹_›⟩)
  · exact Or.inr (Or.inr ⟨_, rfl, ‹_›⟩)

variable {ι : Type} [DecidableEq ι] {w : ExportWorld ι} {i : ι} {st : Stmt}
  {k : st.Result → ExportProg}

/-- What the next statement of a session leads to. -/
structure Leads (P : Provider) (w : ExportWorld ι) (i : ι) (call : Call) (s : Catalog)
    (p : ExportProg) : Prop where
  recorded : ∀ e, Recorded w.db e → Recorded s e
  stage : At P s call p
  covered : Covered { w.set i (.running call p) with db := s }

/-- A statement between which and the answer no export comes to be ready. -/
theorem Leads.plain {p : ExportProg} (hc : Covered w) (hplain : Plain w.db s)
    (hbefore : ∀ e, ¬ Owing e (w.sessions i)) (hstage : At P s call p) : Leads P w i call s p :=
  ⟨hplain.recorded, hstage, hc.set hplain.recorded
    (fun row hrow hready => Or.inr (hplain.ready row hrow hready))
    fun e he => absurd he (hbefore e)⟩

/-- A request that has been saved. -/
theorem leads_save (hc : Covered w) {createdAt : Instant}
    (hbefore : ∀ e, ¬ Owing e (w.sessions i))
    (hg : StatementAdmitted w supplies (.saveExport (saveInput call createdAt))) :
    Leads P w i call (perform P supplies (.saveExport (saveInput call createdAt)) w.db).2
      (((Prog.ofExcept (perform P supplies (.saveExport (saveInput call createdAt)) w.db).1).bind
        (proceed P call)).catchError (onError call)) := by
  have hplain : Plain w.db (perform P supplies (.saveExport (saveInput call createdAt)) w.db).2 :=
    (plain_saveExport _).faulted
  rcases hperform : perform P supplies (.saveExport (saveInput call createdAt)) w.db with ⟨answer, s⟩
  rw [hperform] at hplain
  cases answer with
  | error e => exact .plain hc hplain hbefore (.toward _ (toward_onError e))
  | ok row =>
    have hsave : saveExport P supplies w.db (saveInput call createdAt) = (.ok row, s) := by
      have hanswer : supplies.faulted w.db (saveExport P supplies w.db (saveInput call createdAt)) =
        (.ok row, s) := hperform
      rcases faulted_cases supplies w.db
        (saveExport P supplies w.db (saveInput call createdAt)) with h | ⟨e, h, -⟩ | ⟨e, h, -⟩
      · exact h ▸ hanswer
      · cases h.symm.trans hanswer
      · cases h.symm.trans hanswer
    change Leads P w i call s ((proceed P call row).catchError (onError call))
    cases hstatus : row.status with
    | ready archive =>
      obtain ⟨rfl, hstored, new, hnew, hsame⟩ := saveExport_ready hsave ⟨archive, hstatus⟩
      have hrecorded : Recorded w.db row.subject := by
        rcases hc row hstored ⟨archive, hstatus⟩ with h | ⟨j, hj⟩
        · exact h
        · exact absurd hj (hg new hnew row hstored hsame ⟨archive, hstatus⟩ j)
      have hproceed : proceed P call row = .pure (summary row archive) := by
        simp only [proceed, hstatus]
      rw [hproceed]
      exact .plain hc hplain hbefore (.answered _ hrecorded)
    | pending =>
      have hproceed : proceed P call row = build P call row := by simp only [proceed, hstatus]
      rw [hproceed]
      exact .plain hc hplain hbefore (.toward _ (toward_build row))
    | failed =>
      have hproceed : proceed P call row = build P call row := by simp only [proceed, hstatus]
      rw [hproceed]
      exact .plain hc hplain hbefore (.toward _ (toward_build row))

/-- An export that has been set to `ready`, or not. -/
theorem leads_complete (hc : Covered w) {input : CompleteExport}
    {k : Except PortabilityError ExportRow → ExportProg}
    (htoward : Toward call (.stmt (.completeExport input) k))
    (hbefore : ∀ e, ¬ Owing e (w.sessions i)) (hg : supplies.fault ≠ some .unanswered) :
    Leads P w i call (perform P supplies (.completeExport input) w.db).2
      (k (perform P supplies (.completeExport input) w.db).1) := by
  obtain ⟨hworkspace, hid, hok, herror⟩ := htoward
  have hfault : perform P supplies (.completeExport input) w.db =
      supplies.faulted w.db (completeExport P w.db input) := rfl
  rw [hfault]
  rcases faulted_cases supplies w.db (completeExport P w.db input) with
    h | ⟨e, h, -⟩ | ⟨e, -, hunanswered⟩
  · rw [h]
    rcases hcomplete : completeExport P w.db input with ⟨answer, s⟩
    cases answer with
    | error e =>
      obtain rfl := completeExport_error hcomplete
      exact .plain hc (.refl w.db) hbefore (.toward _ (herror e))
    | ok row =>
      obtain ⟨hready, hsubject, hevents, hrows⟩ := completeExport_ok hcomplete
      have hcall : row.subject = call.subject := by
        rw [hsubject, hworkspace, hid, Call.subject]
      have hrecorded : ∀ e, Recorded w.db e → Recorded s e := by
        intro e he
        rwa [Recorded, hevents]
      dsimp only
      rw [hok row]
      refine ⟨hrecorded, .recording row hready hcall, hc.set hrecorded ?_ ?_⟩
      · intro later hlater hlaterReady
        rcases hrows later hlater hlaterReady with hsame | hstored
        · exact Or.inl (hsame.trans hcall ▸ owes_record row)
        · exact Or.inr hstored
      · exact fun e he => absurd he (hbefore e)
  · rw [h]
    exact .plain hc (.refl w.db) hbefore (.toward _ (herror e))
  · exact absurd hunanswered hg

/-- A statement of a call that is still to set its export to `ready`, or has failed. -/
theorem leads_toward (hc : Covered w) (htoward : Toward call (.stmt st k))
    (hi : w.sessions i = .running call (.stmt st k)) (hg : StatementAdmitted w supplies st) :
    Leads P w i call (perform P supplies st w.db).2 (k (perform P supplies st w.db).1) := by
  have hbefore : ∀ e, ¬ Owing e (w.sessions i) := by
    intro e
    rw [hi]
    exact not_owes_of_toward htoward
  cases st with
  | clock => exact .plain hc (.refl w.db) hbefore (.toward _ (htoward _))
  | saveExport input => exact htoward.elim
  | read input =>
    have hplain : Plain w.db (perform P supplies (.read input) w.db).2 :=
      Plain.faulted (r := (readExport supplies input, w.db)) (.refl w.db)
    exact .plain hc hplain hbefore (.toward _ (htoward _))
  | persist input =>
    have hplain : Plain w.db (perform P supplies (.persist input) w.db).2 :=
      Plain.faulted (r := (persist P supplies input, w.db)) (.refl w.db)
    exact .plain hc hplain hbefore (.toward _ (htoward _))
  | completeExport input => exact leads_complete hc htoward hbefore hg
  | failExport workspaceId exportId now =>
    exact .plain hc (plain_failExport workspaceId exportId now).faulted hbefore (.toward _ (htoward _))
  | appendAudit input =>
    exact .plain hc (plain_appendAudit input).faulted hbefore (.toward _ (htoward.2 _))

/-- A call that has appended its event. -/
theorem leads_record (hc : Covered w) {row : ExportRow} {now : Instant} (hready : row.IsReady)
    (hsubject : row.subject = call.subject)
    (hi : w.sessions i = .running call ((recordAt call row now).catchError (onError call)))
    (hg : StatementAdmitted w supplies (.appendAudit (call.audit .exported .succeeded none now))) :
    Leads P w i call
      (perform P supplies (.appendAudit (call.audit .exported .succeeded none now)) w.db).2
      (((Prog.ofExcept (perform P supplies (.appendAudit (call.audit .exported .succeeded none now))
        w.db).1).bind fun _ => exportSummary row).catchError (onError call)) := by
  obtain ⟨hlost, ⟨auditEvents, haccepted⟩, hid⟩ := hg rfl
  have happend : appendAudit supplies w.db (call.audit .exported .succeeded none now) =
      (.ok (), { w.db with auditEvents }) := by
    rw [appendAudit, haccepted]
  have hplain : Plain w.db (appendAudit supplies w.db _).2 :=
    plain_appendAudit (call.audit .exported .succeeded none now)
  rw [happend] at hplain
  have hevent : Recorded { w.db with auditEvents } call.subject := recorded_append haccepted hid
  have hcovered : ∀ p, Covered { w.set i (.running call p) with db := { w.db with auditEvents } } := by
    refine fun p => hc.set hplain.recorded (fun row hrow hready => Or.inr (hplain.ready row hrow hready))
      fun e he => ?_
    rw [hi] at he
    exact Or.inl ((owes_recordAt_iff row now).mp he ▸ hevent)
  have hfault : perform P supplies (.appendAudit (call.audit .exported .succeeded none now)) w.db =
      supplies.faulted w.db (appendAudit supplies w.db (call.audit .exported .succeeded none now)) := rfl
  rw [hfault, happend]
  rcases faulted_cases supplies w.db
    ((.ok (), { w.db with auditEvents }) : Except PortabilityError Unit × Catalog) with
    h | ⟨e, -, h⟩ | ⟨e, h, -⟩
  · obtain ⟨archive, hstatus⟩ := hready
    have hsummary : exportSummary row = .pure (summary row archive) := by
      simp only [exportSummary, hstatus]
    rw [h]
    change Leads P w i call { w.db with auditEvents } ((exportSummary row).catchError (onError call))
    rw [hsummary]
    refine ⟨hplain.recorded, .answered _ ?_, hcovered _⟩
    change Recorded { w.db with auditEvents } row.subject
    exact hsubject ▸ hevent
  · exact absurd h hlost
  · rw [h]
    exact ⟨hplain.recorded, .toward _ (toward_onError e), hcovered _⟩

/-- Every statement of a call leads on. -/
theorem At.run {p : ExportProg} (hA : At P w.db call p) (hc : Covered w) (hp : p = .stmt st k)
    (hi : w.sessions i = .running call p) (hg : StatementAdmitted w supplies st) :
    Leads P w i call (perform P supplies st w.db).2 (k (perform P supplies st w.db).1) := by
  cases hA with
  | begun =>
    cases hp
    have hbefore : ∀ e, ¬ Owing e (w.sessions i) := by
      intro e
      rw [hi]
      exact fun ⟨_, hnow⟩ => hnow
    exact .plain hc (.refl w.db) hbefore (.saving supplies.now)
  | saving createdAt =>
    cases hp
    have hbefore : ∀ e, ¬ Owing e (w.sessions i) := by
      intro e
      rw [hi]
      exact id
    exact leads_save hc hbefore hg
  | toward p htoward =>
    subst hp
    exact leads_toward hc htoward hi hg
  | recording row hready hsubject =>
    cases hp
    refine ⟨fun _ => id, .recordingAt row supplies.now hready hsubject, hc.set (fun _ => id)
      (fun row hrow hready => Or.inr ⟨row, hrow, hready, rfl⟩) fun e he => ?_⟩
    rw [hi] at he
    exact Or.inr ((owes_recordAt_iff row _).mpr ((owes_record_iff row).mp he))
  | recordingAt row now hready hsubject =>
    cases hp
    exact leads_record hc hready hsubject hi hg
  | answered a ha => cases hp

end Stages

/-! ## Runs -/

section Runs

variable {ι : Type} [DecidableEq ι] {P : Provider}

/-- No export yet. -/
def initial (s : Catalog) : Prop := s.exports = []

/-- What admitted runs keep. -/
structure Kept (P : Provider) (w : ExportWorld ι) : Prop where
  covered : Covered w
  served : Served (At P) (fun s _ a => Recorded s a.subject) w

theorem At.answer {s : Catalog} {call : Call} {a : ArchiveExportSummary} (h : At P s call (.pure a)) :
    Recorded s a.subject := by
  cases h with
  | toward _ htoward => exact htoward.elim
  | answered _ ha => exact ha

theorem Covered.idle {w : ExportWorld ι} {i : ι} {x : ExportSession} (h : Covered w)
    (hbefore : ∀ e, ¬ Owing e (w.sessions i)) : Covered { w.set i x with db := w.db } :=
  h.set (fun _ => id) (fun row hrow hready => Or.inr ⟨row, hrow, hready, rfl⟩)
    fun e he => absurd he (hbefore e)

theorem Kept.step {w w' : ExportWorld ι} {l : Label ι Call Supplies} (h : Kept P w)
    (hg : Admits w l) (hstep : (service P).Step w l w') : Kept P w' := by
  have hleads : ∀ i supplies call st k, l = .run i supplies →
      w.sessions i = .running call (.stmt st k) →
      Leads P w i call (perform P supplies st w.db).2 (k (perform P supplies st w.db).1) := by
    rintro i supplies call st k rfl hi
    exact (h.served.running i call _ hi).run h.covered rfl hi (hg call st ⟨k, hi⟩)
  refine ⟨?_, h.served.step hstep (fun s call => .begun) (fun s call a => At.answer) ?_⟩
  · cases hstep with
    | begin i call hi => exact h.covered.idle fun e => by rw [hi]; exact id
    | run i supplies call st k hi => exact (hleads i supplies call st k rfl hi).covered
    | finish i call a hi => exact h.covered.idle fun e => by rw [hi]; exact id
    | stop i call p hi => exact h.covered.idle hg
  · intro i supplies call st k hl hi
    have hnext := hleads i supplies call st k hl hi
    exact ⟨fun call p hA => hA.mono hnext.recorded, fun call a => hnext.recorded _, hnext.stage⟩

theorem kept_of_reaches {w : ExportWorld ι}
    (h : ((service P).machine initial).Reaches Admits w) : Kept P w := by
  refine h.invariant ?_ fun w l w' hw hg hstep => hw.step hg hstep
  rintro w ⟨hrows, hidle⟩
  refine ⟨fun row hrow => ?_, .init hidle⟩
  rw [hrows] at hrow
  cases hrow

/-- In every run in which each step is admitted, an export that a call has returned has an event
`archive.exported` in its workspace. -/
theorem exported_recorded (P : Provider) (w : ExportWorld ι)
    (h : ((service P).machine initial).Reaches Admits w) (i : ι) (call : Call)
    (a : ArchiveExportSummary) (hi : w.sessions i = .returned call a) :
    ∃ event ∈ w.db.auditEvents, event.workspaceId = a.workspaceId ∧
      event.action = js "archive.exported" ∧ event.subjectId = a.id :=
  (kept_of_reaches h).served.returned i call a hi

end Runs

/-! ## A call that is cut off -/

def sampleDataset : JsString := js "00000000-0000-4000-8000-000000000001"

def sampleCall : Call where
  actor := ⟨js "a", some .user⟩
  command := ⟨sampleWorkspaceId, [sampleDataset], js "k"⟩

/-- A workspace with one dataset. -/
def sampleRecords : Records
  | .workspaces => [[(js "id", .string sampleWorkspace)]]
  | .datasets => [[(js "id", .string sampleDataset), (js "workspaceId", .string sampleWorkspace)]]
  | _ => []

def sampleSupplies : Supplies where
  now := ⟨0, epoch_bound⟩
  fault := none
  failureCode := none
  exported := some (sampleRecords, [])
  storageKey := some (js "archives/1")

def sampleProvider : Provider := ⟨true, js "s3", zipOf List.length [], unitsLe, fun _ => some 0⟩

def sampleExport : ArchiveSource where
  exportId := sampleCall.exportId
  workspaceId := sampleWorkspace
  datasetIds := [sampleDataset]
  createdAt := toISOString sampleSupplies.now
  createdBy := js "a"
  sourceVersion := js "0.3"
  records := sampleRecords
  blobs := []

def emptyWorld : ExportWorld Bool := ⟨⟨[], []⟩, fun _ => .idle⟩

def sampleCompletion (manifest : TrustArchiveManifest) : CompleteExport where
  workspaceId := sampleCall.workspaceId
  exportId := sampleCall.exportId
  archiveSha256 := sha256 [80, 75]
  byteLength := 2
  storage := ⟨js "s3", js "archives/1"⟩
  manifest := manifest
  completedAt := sampleSupplies.now

theorem sample_row : ∃ row, exportRow (saveInput sampleCall sampleSupplies.now) = some row :=
  Option.isSome_iff_exists.mp (by decide +kernel)

theorem sample_completes {row : ExportRow} (manifest : TrustArchiveManifest)
    (hrow : exportRow (saveInput sampleCall sampleSupplies.now) = some row) :
    completes (sampleCompletion manifest) row = true := by
  obtain ⟨hstatus, hworkspace, hid, -, -⟩ := exportRow_eq hrow
  have hsame : row.id = sampleCall.exportId := textColumn_eq hid (isWellFormed_exportId sampleCall)
  have hof : ofId sampleCall.workspaceId sampleCall.exportId row = true := by
    rw [ofId, hworkspace, hsame, saveInput, beq_self_eq_true, beq_self_eq_true, Bool.and_true]
  simp only [completes, hstatus, Bool.and_true]
  exact hof

/-- A call has set its export to `ready`, and is to append its event. -/
theorem sample_completed {row : ExportRow}
    {guard : ExportWorld Bool → Label Bool Call Supplies → Prop}
    (hrow : exportRow (saveInput sampleCall sampleSupplies.now) = some row)
    (hguard : ∀ w l, Admits w l → guard w l) :
    ∃ manifest, ReachesWith (service sampleProvider) initial guard emptyWorld false
      (.running sampleCall ((record sampleCall (completed (sampleCompletion manifest) row)).catchError
        (onError sampleCall))) ⟨[completed (sampleCompletion manifest) row], []⟩ := by
  have hbegin : ReachesWith (service sampleProvider) initial guard emptyWorld false
      (.running sampleCall (createExport sampleProvider sampleCall)) ⟨[], []⟩ :=
    .begin (.init ⟨rfl, fun _ => rfl⟩) rfl (hguard _ _ trivial)
  have hclock : ReachesWith (service sampleProvider) initial guard emptyWorld false
      (.running sampleCall ((attempt sampleProvider sampleCall sampleSupplies.now).catchError
        (onError sampleCall))) ⟨[], []⟩ :=
    hbegin.run sampleSupplies rfl fun w _ hi _ => hguard _ _ (World.forall_next hi trivial)
  have hsave : ReachesWith (service sampleProvider) initial guard emptyWorld false
      (.running sampleCall ((proceed sampleProvider sampleCall row).catchError (onError sampleCall)))
      ⟨[row], []⟩ := by
    have hperform : (service sampleProvider).perform sampleSupplies
        (.saveExport (saveInput sampleCall sampleSupplies.now)) ⟨[], []⟩ = (.ok row, ⟨[row], []⟩) := by
      change saveExport sampleProvider sampleSupplies ⟨[], []⟩ _ = _
      rw [saveExport, if_pos (show sampleProvider.allowLocalUnsignedProfile = true from rfl), hrow]
      rfl
    refine hclock.run sampleSupplies hperform fun w hdb hi _ => hguard _ _ (World.forall_next hi ?_)
    intro _ _ stored hstored
    rw [hdb] at hstored
    cases hstored
  have hbuild : ReachesWith (service sampleProvider) initial guard emptyWorld false
      (.running sampleCall ((build sampleProvider sampleCall row).catchError (onError sampleCall)))
      ⟨[row], []⟩ := by
    have hproceed : proceed sampleProvider sampleCall row = build sampleProvider sampleCall row := by
      simp only [proceed, (exportRow_eq hrow).1]
    rwa [hproceed] at hsave
  have hsource : readExport sampleSupplies (readInput sampleCall row) = .ok sampleExport := by
    rw [readInput, (exportRow_eq hrow).2.2.2.2]
    rfl
  obtain ⟨⟨entries, manifest⟩, hassemble⟩ : ∃ assembled,
      assembleArchiveEntries unitsLe sampleExport = some assembled :=
    Option.isSome_iff_exists.mp (by decide +kernel)
  refine ⟨manifest, ?_⟩
  have hread : ReachesWith (service sampleProvider) initial guard emptyWorld false
      (.running sampleCall ((store sampleCall manifest [80, 75]).catchError (onError sampleCall)))
      ⟨[row], []⟩ := by
    have hperform : (service sampleProvider).perform sampleSupplies (.read (readInput sampleCall row))
        ⟨[row], []⟩ = (.ok sampleExport, ⟨[row], []⟩) := congrArg (·, _) hsource
    have hwrite : write sampleProvider sampleCall sampleExport = store sampleCall manifest [80, 75] :=
      write_eq hassemble (writeTrustArchive_assembled sampleProvider.zip hassemble rfl)
    rw [← hwrite]
    exact hbuild.run sampleSupplies hperform fun w _ hi _ => hguard _ _ (World.forall_next hi trivial)
  have hpersist : ReachesWith (service sampleProvider) initial guard emptyWorld false
      (.running sampleCall (Prog.catchError (do
        let completedAt ← Prog.perform .clock
        let completed ← Prog.ofExcept (← Prog.perform (.completeExport
          { sampleCompletion manifest with completedAt }))
        record sampleCall completed) (onError sampleCall))) ⟨[row], []⟩ :=
    hread.run sampleSupplies rfl fun w _ hi _ => hguard _ _ (World.forall_next hi trivial)
  have hnow := hpersist.run sampleSupplies rfl fun w _ hi _ => hguard _ _ (World.forall_next hi trivial)
  have hcomplete : (service sampleProvider).perform sampleSupplies
      (.completeExport (sampleCompletion manifest)) ⟨[row], []⟩ =
        (.ok (completed (sampleCompletion manifest) row),
          ⟨[completed (sampleCompletion manifest) row], []⟩) := by
    change completeExport sampleProvider ⟨[row], []⟩ _ = _
    simp [completeExport, sampleProvider, sample_completes manifest hrow]
  refine hnow.run sampleSupplies hcomplete fun w _ hi _ => hguard _ _ (World.forall_next hi ?_)
  exact fun h => by cases h

/-- The call goes on, and the export that it returns is recorded. -/
theorem exported_recorded_sample : ∃ (w : ExportWorld Bool) (a : ArchiveExportSummary),
    ((service sampleProvider).machine initial).Reaches Admits w ∧
      w.sessions false = .returned sampleCall a ∧
      ∃ event ∈ w.db.auditEvents, event.workspaceId = a.workspaceId ∧
        event.action = js "archive.exported" ∧ event.subjectId = a.id := by
  obtain ⟨row, hrow⟩ := sample_row
  obtain ⟨manifest, hcompleted⟩ := sample_completed hrow fun _ _ => id
  obtain ⟨auditEvents, haccepted⟩ : ∃ auditEvents, portabilityAppendAudit []
      (sampleCall.audit .exported .succeeded none sampleSupplies.now) = some auditEvents :=
    Option.isSome_iff_exists.mp (by decide +kernel)
  have hclock := hcompleted.run sampleSupplies rfl fun w _ hi _ => World.forall_next hi trivial
  have hperform : (service sampleProvider).perform sampleSupplies
      (.appendAudit (sampleCall.audit .exported .succeeded none sampleSupplies.now))
      ⟨[completed (sampleCompletion manifest) row], []⟩ =
        (.ok (), ⟨[completed (sampleCompletion manifest) row], auditEvents⟩) := by
    change appendAudit sampleSupplies _ _ = _
    rw [appendAudit, haccepted]
  have hrecord : ReachesWith (service sampleProvider) initial Admits emptyWorld false
      (.running sampleCall (.pure _)) ⟨[completed (sampleCompletion manifest) row], auditEvents⟩ :=
    hclock.run sampleSupplies hperform fun w hdb hi _ => by
      refine World.forall_next hi fun _ => ?_
      rw [hdb]
      exact ⟨by decide, ⟨auditEvents, haccepted⟩, fun event hevent => by cases hevent⟩
  obtain ⟨w, hw, -, hi, -⟩ := hrecord.finish fun _ => trivial
  exact ⟨w, _, hw, hi, exported_recorded sampleProvider w hw false sampleCall _ hi⟩

/-- The call is cut off before it appends its event; the client retries, and has the export without
an event. -/
theorem retry_leaves_no_event : ∃ (w : ExportWorld Bool) (a : ArchiveExportSummary),
    ((service sampleProvider).machine initial).Reachable w ∧
      w.sessions true = .returned sampleCall a ∧ w.db.auditEvents = [] := by
  obtain ⟨row, hrow⟩ := sample_row
  obtain ⟨manifest, hcompleted⟩ := sample_completed hrow fun _ _ _ => trivial
  obtain ⟨w, hw, hdb, -, hidle⟩ := hcompleted.stop fun _ => trivial
  have hbegin : ReachesWith (service sampleProvider) initial (fun _ _ => True) w true
      (.running sampleCall (createExport sampleProvider sampleCall))
      ⟨[completed (sampleCompletion manifest) row], []⟩ :=
    hdb ▸ .begin hw (hidle true (by decide)) trivial
  have hclock : ReachesWith (service sampleProvider) initial (fun _ _ => True) w true
      (.running sampleCall ((attempt sampleProvider sampleCall sampleSupplies.now).catchError
        (onError sampleCall))) ⟨[completed (sampleCompletion manifest) row], []⟩ :=
    hbegin.run sampleSupplies rfl fun _ _ _ _ => trivial
  have hperform : (service sampleProvider).perform sampleSupplies
      (.saveExport (saveInput sampleCall sampleSupplies.now))
      ⟨[completed (sampleCompletion manifest) row], []⟩ =
        (.ok (completed (sampleCompletion manifest) row),
          ⟨[completed (sampleCompletion manifest) row], []⟩) := by
    have hsame : sameRequest row (completed (sampleCompletion manifest) row) = true := by
      simp [sameRequest, completed]
    have hfingerprint : (completed (sampleCompletion manifest) row).requestFingerprint =
        (saveInput sampleCall sampleSupplies.now).requestFingerprint := (exportRow_eq hrow).2.2.2.1
    change saveExport sampleProvider sampleSupplies _ _ = _
    rw [saveExport, if_pos (show sampleProvider.allowLocalUnsignedProfile = true from rfl), hrow]
    simp [hsame, assertFingerprint, hfingerprint]
  have hsave : ReachesWith (service sampleProvider) initial (fun _ _ => True) w true
      (.running sampleCall (.pure _)) ⟨[completed (sampleCompletion manifest) row], []⟩ :=
    hclock.run sampleSupplies hperform fun _ _ _ _ => trivial
  obtain ⟨w', hw', hdb', hi, -⟩ := hsave.finish fun _ => trivial
  exact ⟨w', _, hw', hi, by rw [hdb']⟩

end TrustCore.ExportEvents
