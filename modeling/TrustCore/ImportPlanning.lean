import Mathlib.Data.List.DropRight
import TrustCore.ExportEvents
import TrustCore.ImportExecutor
import TrustCore.ImportPlanColumn

/-!
# Planning an import again

`createPlan` plans a stored archive against what the workspace holds at that moment and stores the
plan under its id and under the key of the request. The id of a plan leaves out what the workspace
holds, so that planning the same archive again, under another key, gives the id of the plan that is
stored already; the primary key refuses it, whatever became of the first plan.
-/

namespace TrustCore.ImportPlanning

open TrustCore.Utf TrustCore.Json TrustCore.Sha256 TrustCore.Columns TrustCore.Dynamic
open TrustCore.AuditChain TrustCore.AuditLog TrustCore.ComposedIds TrustCore.ArchiveFormat
open TrustCore.ImportPlan
open TrustCore.ImportExecutor (ImportError ImportOperationRow ArchiveImportOperation
  ArchiveImportCheckpoint ExecuteInput RequestIdentity Target Alone performAlone)
open TrustCore.ExportEvents (Actor PortabilityError isBlank actorTypeOf)
open TrustCore.PolicyAssignments (uuidColumn uuidText uuidColumn_hex)

/-! ## The catalog -/

inductive ArchiveStatus where
  | verified
  | rejected
  deriving DecidableEq

/-- A row of `portability_archives` with what reading its object gives, and what its columns have
checked at the upload. -/
structure StoredArchive where
  id : JsString
  workspaceId : JsString
  sourceExportId : JsString
  sourceWorkspaceId : JsString
  status : ArchiveStatus
  parsed : ParsedTrustArchive
  digest : isSha256 id = true
  workspace : uuidColumn workspaceId = some workspaceId
  verified : status = .verified ↔ parsed.verification.valid = true
  exportColumn : textColumn parsed.manifest.exportId = some sourceExportId
  workspaceColumn : uuidColumn parsed.manifest.workspaceId = some sourceWorkspaceId
  manifestJson : jsonbAccepts parsed.manifest.value = true
  verificationJson : ∀ kind, ∀ r ∈ parsed.verification.records kind, jsonbAccepts (.object r) = true

/-- A row of `portability_plans`. -/
structure PlanRow where
  id : JsString
  workspaceId : JsString
  archiveId : JsString
  sourceWorkspaceId : JsString
  plan : ArchiveImportPlan
  requestedBy : JsString
  principalType : PortabilityPrincipalType
  idempotencyKey : JsString
  requestFingerprint : JsString
  createdAt : Instant

structure Catalog (τ : Type) where
  archives : List StoredArchive
  plans : List PlanRow
  operations : List ImportOperationRow
  auditEvents : Table
  target : τ

/-- What a workspace holds, read as JSON data. -/
structure Content where
  records : ArchiveRecordKind → List (JsString × ArchiveRecord)
  blobDigests : List JsString
  json : ∀ kind, ∀ e ∈ records kind, ∃ text, canonicalJson (.object e.2) = some text

/-- What the provider is built with. -/
structure Provider (τ : Type) where
  localeLe : JsString → JsString → Bool
  content : JsString → τ → Content
  target : Target τ

/-- The instants that a call reads off the clock, and the code of a database error. -/
structure Moment where
  createdAt : Instant
  resumedAt : Instant
  finishedAt : Instant
  failedAt : Instant
  clock : Nat → Instant
  failureCode : Option JsString

structure CreateImportPlanCommand where
  workspaceId : WorkspaceId
  archiveId : JsString
  idempotencyKey : JsString
  mode : ArchiveImportMode
  conflictMode : ArchiveConflictMode

structure ExecuteImportCommand where
  workspaceId : WorkspaceId
  idempotencyKey : JsString
  confirmation : JsString

structure DurablePortabilityPlan where
  workspaceId : JsString
  archiveId : JsString
  plan : ArchiveImportPlan
  createdAt : JsString

structure ImportPlanSummary where
  id : JsString
  archiveId : JsString
  workspaceId : JsString
  sourceWorkspaceId : JsString
  mode : ArchiveImportMode
  conflictMode : ArchiveConflictMode
  status : PlanStatus
  issueCount : Nat
  insert : Nat
  alreadyPresent : Nat
  blocked : Nat
  createdAt : JsString

structure ImportOperationSummary where
  id : JsString
  workspaceId : JsString
  planId : JsString
  archiveId : JsString
  checkpoint : ArchiveImportCheckpoint
  completed : Bool
  resumed : Bool
  updatedAt : JsString
  completedAt : Option JsString

structure SavePlan where
  workspaceId : JsString
  archiveId : JsString
  plan : ArchiveImportPlan
  requestedBy : JsString
  principalType : PortabilityPrincipalType
  idempotencyKey : JsString
  requestFingerprint : JsString
  createdAt : Instant

/-! ## The store -/

/-- A parameter that is compared with a `char(64)` column: trailing blanks do not count. -/
def charParameter (s : JsString) : Option JsString :=
  (textColumn s).map fun s => s.rdropWhile (· == 32)

section Store

variable {τ : Type} (moment : Moment) (s : Catalog τ)

def getArchive (workspaceId archiveId : JsString) : Except PortabilityError (Option StoredArchive) :=
  match charParameter archiveId with
  | none => .error (.failure moment.failureCode)
  | some id => .ok (s.archives.find? fun a => a.workspaceId == workspaceId && a.id == id)

def mapPlan (row : PlanRow) : DurablePortabilityPlan where
  workspaceId := row.workspaceId
  archiveId := row.archiveId
  plan := row.plan
  createdAt := toISOString row.createdAt

def getPlan (workspaceId planId : JsString) : Except PortabilityError (Option DurablePortabilityPlan) :=
  match charParameter planId with
  | none => .error (.failure moment.failureCode)
  | some id =>
    .ok ((s.plans.find? fun row => row.workspaceId == workspaceId && row.id == id).map mapPlan)

/-- The row of a plan, unless one of its columns refuses the value. -/
def planRow (input : SavePlan) : Option PlanRow := do
  let archiveId ← charParameter input.archiveId
  let sourceWorkspaceId ← uuidColumn input.plan.sourceWorkspaceId
  let plan ← planColumn input.plan
  let requestedBy ← textColumn input.requestedBy
  let idempotencyKey ← textColumn input.idempotencyKey
  if isBlank requestedBy || isBlank idempotencyKey then none
  else return { id := input.plan.planId, workspaceId := input.workspaceId,
                archiveId := char64Column archiveId, sourceWorkspaceId, plan, requestedBy,
                principalType := input.principalType, idempotencyKey,
                requestFingerprint := input.requestFingerprint, createdAt := input.createdAt }

/-- The columns that `ON CONFLICT` names. -/
def sameRequest (row stored : PlanRow) : Bool :=
  stored.workspaceId == row.workspaceId && stored.principalType == row.principalType &&
    stored.requestedBy == row.requestedBy && stored.idempotencyKey == row.idempotencyKey

def assertFingerprint (row : PlanRow) (expected : JsString) :
    Except PortabilityError DurablePortabilityPlan :=
  if row.requestFingerprint = expected then .ok (mapPlan row)
  else .error (.coded (js "IDEMPOTENCY_CONFLICT")
    (js "Idempotency key was already used for a different portability request."))

/-- `INSERT … ON CONFLICT (…) DO UPDATE … RETURNING *`, with the rows after it; a plan of the same id
and another request violates the primary key. -/
def savePlan (input : SavePlan) : Except PortabilityError DurablePortabilityPlan × List PlanRow :=
  match planRow input with
  | none => (.error (.failure moment.failureCode), s.plans)
  | some row =>
    match s.plans.find? (sameRequest row) with
    | some stored => (assertFingerprint stored input.requestFingerprint, s.plans)
    | none =>
      if s.plans.any (fun stored => stored.id == row.id) then
        (.error (.failure moment.failureCode), s.plans)
      else (.ok (mapPlan row), s.plans ++ [row])

def appendAudit (input : PortabilityAudit) : Except PortabilityError Unit × Catalog τ :=
  match portabilityAppendAudit s.auditEvents input with
  | none => (.error (.failure moment.failureCode), s)
  | some auditEvents => (.ok (), { s with auditEvents })

end Store

/-! ## The provider -/

def Actor.type (actor : Actor) : PortabilityPrincipalType := actor.principalType.getD .user

/-- The input of `audit`; without a correlation id of its own, one of the request. -/
def auditOf (actor : Actor) (workspaceId : JsString) (action : PortabilityAction)
    (subjectKind subjectId requestId : JsString) (correlationId : Option JsString)
    (outcome : Outcome) (errorCode : Option JsString) (now : Instant) : PortabilityAudit where
  workspaceId := workspaceId
  actorId := actor.id
  principalType := actorTypeOf (Actor.type actor)
  action := action.text
  subjectKind := subjectKind
  subjectId := subjectId
  requestId := requestId
  correlationId := correlationId.getD (deterministicUuid (js "portability-correlation:" ++
    workspaceId ++ js ":" ++ requestId))
  outcome := outcome
  errorCode := errorCode
  occurredAt := now

/-- `JSON.stringify` of the texts of an object without escapes in its keys. -/
def stringifyTexts (fields : List (JsString × JsString)) : JsString :=
  js "\x7b" ++ joinComma (fields.map fun f => quote f.1 ++ 58 :: quote f.2) ++ js "\x7d"

def archiveNotFound : PortabilityError :=
  .coded (js "ARCHIVE_NOT_FOUND") (js "Archive candidate was not found.")

section Provider

variable {τ : Type} (P : Provider τ) (moment : Moment) (s : Catalog τ)

/-- `readArchive`; the object is the one of the upload. -/
def readArchive (archive : StoredArchive) : Except PortabilityError ParsedTrustArchive :=
  if !archive.parsed.verification.valid then
    .error (.coded (js "INVALID_COMMAND") (js "Durable archive failed strict verification."))
  else if archive.parsed.manifest.exportId ≠ archive.sourceExportId ∨
      archive.parsed.manifest.workspaceId ≠ archive.sourceWorkspaceId then
    .error (.failure none)
  else .ok archive.parsed

/-- `loadArchiveImportInventory`, which leaves out audit events. -/
def inventory (workspaceId : JsString) : ArchiveImportInventory :=
  let content := P.content workspaceId s.target
  { workspaceId := some workspaceId
    records := fun kind => if kind = .auditEvents then none else some (content.records kind)
    blobDigests := content.blobDigests }

/-- What `planArchiveImport` is called with. -/
def planRequest (command : CreateImportPlanCommand) (archive : ParsedTrustArchive) :
    ArchiveImportRequest where
  archive := archive
  mode := command.mode
  conflictMode := command.conflictMode
  target := inventory P s command.workspaceId.text

/-- From the archive to the plan. -/
def computePlan (command : CreateImportPlanCommand) : Except PortabilityError ArchiveImportPlan := do
  match ← getArchive moment s command.workspaceId.text command.archiveId with
  | none => .error archiveNotFound
  | some archive =>
    if archive.status ≠ .verified then
      .error (.coded (js "INVALID_COMMAND") (js "Rejected archives cannot be planned."))
    else if command.mode = .preserveIds ∧ archive.sourceWorkspaceId ≠ command.workspaceId.text then
      .error (.coded (js "INVALID_COMMAND")
        (js "Preserve-ID import requires matching source and target workspaces."))
    else
      let parsed ← readArchive archive
      match planArchiveImport P.localeLe (planRequest P s command parsed) with
      | none => .error (.failure none)
      | some plan => .ok plan

def planSummary (value : DurablePortabilityPlan) : ImportPlanSummary where
  id := value.plan.planId
  archiveId := value.archiveId
  workspaceId := value.workspaceId
  sourceWorkspaceId := value.plan.sourceWorkspaceId
  mode := value.plan.mode
  conflictMode := value.plan.conflictMode
  status := value.plan.status
  issueCount := value.plan.issues.length
  insert := value.plan.counts .insert
  alreadyPresent := value.plan.counts .alreadyPresent
  blocked := value.plan.counts .blocked
  createdAt := value.createdAt

def saveInput (actor : Actor) (command : CreateImportPlanCommand) (plan : ArchiveImportPlan) :
    SavePlan where
  workspaceId := command.workspaceId.text
  archiveId := command.archiveId
  plan := plan
  requestedBy := actor.id
  principalType := Actor.type actor
  idempotencyKey := command.idempotencyKey
  requestFingerprint := sha256 (textEncode (stringifyTexts [(js "archiveId", command.archiveId),
    (js "mode", command.mode.text), (js "conflictMode", command.conflictMode.text)]))
  createdAt := moment.createdAt

def plannedAudit (actor : Actor) (command : CreateImportPlanCommand) (planId : JsString) :
    PortabilityAudit :=
  auditOf actor command.workspaceId.text .importPlanned (js "import-plan") planId
    command.idempotencyKey none .succeeded none moment.finishedAt

/-- The block under `try`. -/
def attemptPlan (actor : Actor) (command : CreateImportPlanCommand) :
    Except PortabilityError ImportPlanSummary × Catalog τ :=
  match computePlan P moment s command with
  | .error e => (.error e, s)
  | .ok plan =>
    let saved := savePlan moment s (saveInput moment actor command plan)
    let s := { s with plans := saved.2 }
    match saved.1 with
    | .error e => (.error e, s)
    | .ok durable =>
      let audited := appendAudit moment s (plannedAudit moment actor command plan.planId)
      (audited.1.map fun _ => planSummary durable, audited.2)

/-- `auditFailure`, which ignores what its own transaction throws. -/
def auditFailure (input : PortabilityAudit) : Catalog τ := (appendAudit moment s input).2

def createPlan (actor : Actor) (command : CreateImportPlanCommand) :
    Except PortabilityError ImportPlanSummary × Catalog τ :=
  match attemptPlan P moment s actor command with
  | (.ok summary, s) => (.ok summary, s)
  | (.error e, s) => (.error e, auditFailure moment s (auditOf actor command.workspaceId.text
      .importPlanFailed (js "archive") command.archiveId command.idempotencyKey none .failed
      (some e.code) moment.failedAt))

def executorPrincipal : PortabilityPrincipalType → ImportExecutor.PrincipalType
  | .user => .user
  | .service => .service
  | .application => .application

/-- What `executePlan` hands to the executor, with the id of the archive. -/
def executeInput (planId : JsString) (actor : Actor) (command : ExecuteImportCommand) :
    Except PortabilityError (JsString × ExecuteInput) := do
  match ← getPlan moment s command.workspaceId.text planId with
  | none => .error (.coded (js "IMPORT_PLAN_NOT_FOUND") (js "Import plan was not found."))
  | some durablePlan =>
    match ← getArchive moment s command.workspaceId.text durablePlan.archiveId with
    | none => .error archiveNotFound
    | some durableArchive =>
      let archive ← readArchive durableArchive
      return (durablePlan.archiveId,
        { archive
          plan := durablePlan.plan
          requestedBy := actor.id
          request := some
            { principalType := executorPrincipal (Actor.type actor)
              idempotencyKey := command.idempotencyKey
              fingerprint := sha256 (textEncode (stringifyTexts [(js "planId", planId),
                (js "confirmation", command.confirmation)])) } })

def executionError (e : ImportError) : PortabilityError :=
  match e.code with
  | some code => .coded (js code) e.message
  | none => .failure none

def operationSummary (workspaceId archiveId : JsString) (operation : ArchiveImportOperation)
    (resumed : Bool) : ImportOperationSummary where
  id := operation.id
  workspaceId := workspaceId
  planId := operation.planId
  archiveId := archiveId
  checkpoint := operation.checkpoint
  completed := operation.checkpoint == .completed
  resumed := resumed
  updatedAt := toISOString operation.updatedAt
  completedAt := operation.completedAt.map toISOString

def operationAudit (actor : Actor) (command : ExecuteImportCommand) (action : PortabilityAction)
    (operationId : JsString) (now : Instant) : PortabilityAudit :=
  auditOf actor command.workspaceId.text action (js "import-operation") operationId
    command.idempotencyKey (some operationId) .succeeded none now

/-- The block under `try`; `fuel` bounds the rounds of the executor. -/
def attemptExecute (fuel : Nat) (planId : JsString) (actor : Actor) (command : ExecuteImportCommand) :
    Except PortabilityError ImportOperationSummary × Catalog τ :=
  match executeInput moment s planId actor command with
  | .error e => (.error e, s)
  | .ok (archiveId, input) =>
    let executed := (ImportExecutor.execute fuel input).run
      (performAlone P.target command.workspaceId.text moment.clock) ⟨s.operations, s.target, 0⟩
    let s := { s with operations := executed.2.rows, target := executed.2.target }
    match executed.1 with
    | .error e => (.error (executionError e), s)
    | .ok result =>
      let resumed := if result.resumed then
          appendAudit moment s (operationAudit actor command .importResumed result.operation.id
            moment.resumedAt)
        else (.ok (), s)
      match resumed.1 with
      | .error e => (.error e, resumed.2)
      | .ok _ =>
        let audited := appendAudit moment resumed.2 (operationAudit actor command .importExecuted
          result.operation.id moment.finishedAt)
        (audited.1.map fun _ => operationSummary command.workspaceId.text archiveId
          result.operation result.resumed, audited.2)

def executePlan (fuel : Nat) (planId : JsString) (actor : Actor) (command : ExecuteImportCommand) :
    Except PortabilityError ImportOperationSummary × Catalog τ :=
  match attemptExecute P moment s fuel planId actor command with
  | (.ok summary, s) => (.ok summary, s)
  | (.error e, s) => (.error e, auditFailure moment s (auditOf actor command.workspaceId.text
      .importFailed (js "import-plan") planId command.idempotencyKey none .failed (some e.code)
      moment.failedAt))

/-- One call after the other; other writes of the workspace change what the target holds and add
archives and events. -/
inductive Call (τ : Type) where
  | createPlan (moment : Moment) (actor : Actor) (command : CreateImportPlanCommand)
  | executePlan (moment : Moment) (fuel : Nat) (planId : JsString) (actor : Actor)
      (command : ExecuteImportCommand)
  | uploadArchive (archive : StoredArchive)
  | write (target : τ) (auditEvents : Table)

def perform : Call τ → Catalog τ
  | .createPlan moment actor command => (createPlan P moment s actor command).2
  | .executePlan moment fuel planId actor command =>
    (executePlan P moment s fuel planId actor command).2
  | .uploadArchive archive =>
    if s.archives.any (fun stored => stored.id == archive.id) then s
    else { s with archives := s.archives ++ [archive] }
  | .write target auditEvents => { s with target, auditEvents }

def after (calls : List (Call τ)) : Catalog τ := calls.foldl (perform P) s

end Provider

/-! ## Texts of the catalog -/

section Texts

theorem plain_uuidText {n : Nat} {digits : JsString}
    (hhex : ∀ u ∈ digits, ∃ x < 16, u = hexDigit x) : Plain (uuidText n digits) := by
  induction n generalizing digits with
  | zero => simp [uuidText, Plain]
  | succ n ih =>
    rcases digits with _ | ⟨a, _ | ⟨b, digits⟩⟩
    · simp [uuidText, Plain]
    · simp [uuidText, Plain]
    obtain ⟨x, hx, rfl⟩ := hhex a (by simp)
    obtain ⟨y, hy, rfl⟩ := hhex b (by simp)
    have hpair : Plain (hexDigit x :: hexDigit y :: uuidText n digits) :=
      plain_append (plain_hexDigit hx) (plain_append (plain_hexDigit hy)
        (ih fun u hu => hhex u (by simp [hu])))
    rw [uuidText]
    split
    · exact plain_append (s := [45]) (by decide) hpair
    · exact hpair

theorem plain_uuid {s t : JsString} (h : uuidColumn s = some t) : Plain t := by
  obtain ⟨digits, rfl, -, hhex⟩ := uuidColumn_hex h
  exact plain_uuidText hhex

/-- A digest is a parameter of itself. -/
theorem charParameter_digest {s : JsString} (h : isSha256 s = true) : charParameter s = some s := by
  rw [charParameter, textColumn_jsonbText ((plain_of_isSha256 h).jsonbText), Option.map_some,
    Option.some.injEq, List.rdropWhile_eq_self_iff]
  intro hne hblank
  have hlast := isSha256_isLowerHex h _ (List.getLast_mem hne)
  rw [beq_iff_eq.mp hblank] at hlast
  cases hlast

theorem plain_trim {s : JsString} (h : Plain s) : Plain (trim s) := by
  refine h.of_sublist ?_
  rw [trim, trimEnd, ← List.reverse_sublist, List.reverse_reverse]
  refine (List.dropWhile_sublist _).trans ?_
  rw [List.reverse_sublist]
  exact List.dropWhile_sublist _

end Texts

/-! ## What a call needs -/

section Needs

variable {τ : Type} {P : Provider τ} {moment : Moment} {s : Catalog τ} {actor : Actor}
  {command : CreateImportPlanCommand} {archive : StoredArchive} {plan : ArchiveImportPlan}

theorem StoredArchive.manifest_texts (archive : StoredArchive) :
    jsonbText archive.parsed.manifest.exportId = true ∧
      jsonbText archive.parsed.manifest.workspaceId = true := by
  have hmanifest := archive.manifestJson
  rw [TrustArchiveManifest.value, jsonbAccepts_object] at hmanifest
  exact ⟨(hmanifest (js "exportId", .string archive.parsed.manifest.exportId) (by simp)).2,
    (hmanifest (js "workspaceId", .string archive.parsed.manifest.workspaceId) (by simp)).2⟩

/-- A verified archive is read, unless its workspace id is not spelled as a `uuid` column gives it
back. -/
theorem readArchive_verified (hverified : archive.status = .verified) :
    readArchive archive = if archive.parsed.manifest.workspaceId = archive.sourceWorkspaceId then
      .ok archive.parsed else .error (.failure none) := by
  have hexport : archive.parsed.manifest.exportId = archive.sourceExportId := by
    have hsame := textColumn_jsonbText archive.manifest_texts.1
    rw [archive.exportColumn, Option.some.injEq] at hsame
    exact hsame.symm
  rw [readArchive, archive.verified.mp hverified, hexport]
  by_cases hspelled : archive.parsed.manifest.workspaceId = archive.sourceWorkspaceId
  · simp [hspelled]
  · simp [hspelled]

theorem storedRequest (s : Catalog τ) (archive : StoredArchive)
    (hworkspace : archive.workspaceId = command.workspaceId.text) :
    StoredRequest (planRequest P s command archive.parsed) where
  records := archive.verificationJson
  exportId := archive.manifest_texts.1
  workspaceId := archive.manifest_texts.2
  targetWorkspaceId := by
    have huuid : Plain command.workspaceId.text := hworkspace ▸ plain_uuid archive.workspace
    have hrequested : jsonbText (requestedWorkspace (planRequest P s command archive.parsed)) =
        true := by
      rw [requestedWorkspace]
      split
      · exact (plain_trim huuid).jsonbText
      · exact archive.manifest_texts.2
    rw [mappedWorkspaceId]
    split
    · exact archive.manifest_texts.2
    · exact hrequested

theorem inventory_json (P : Provider τ) (s : Catalog τ) (workspaceId : JsString) :
    ∀ kind id r, (inventory P s workspaceId).find kind id = .record r →
      ∃ text, canonicalJson (.object r) = some text := by
  intro kind id r h
  rw [ArchiveImportInventory.find] at h
  split at h
  · cases h
  · rename_i index hindex
    split at h
    · rename_i stored hlookup
      cases h
      simp only [inventory] at hindex
      split_ifs at hindex
      cases hindex
      exact (P.content workspaceId s.target).json kind _ (mem_of_lookup hlookup)
    · split_ifs at h
      cases h
      exact ⟨_, rfl⟩

/-- The archive that the command is about. -/
def Finds (s : Catalog τ) (command : CreateImportPlanCommand) (archive : StoredArchive) : Prop :=
  ∃ id, charParameter command.archiveId = some id ∧
    s.archives.find? (fun a => a.workspaceId == command.workspaceId.text && a.id == id) = some archive

theorem getArchive_eq_ok : getArchive moment s command.workspaceId.text command.archiveId =
    .ok (some archive) ↔ Finds s command archive := by
  rw [getArchive, Finds]
  cases charParameter command.archiveId with
  | none => simp
  | some id => simp

theorem Finds.workspace (h : Finds s command archive) :
    archive.workspaceId = command.workspaceId.text := by
  obtain ⟨id, -, hfind⟩ := h
  have hsame := List.find?_some hfind
  rw [Bool.and_eq_true, beq_iff_eq] at hsame
  exact hsame.1

theorem Finds.id (h : Finds s command archive) : charParameter command.archiveId = some archive.id := by
  obtain ⟨id, hid, hfind⟩ := h
  have hsame := List.find?_some hfind
  rw [Bool.and_eq_true, beq_iff_eq, beq_iff_eq] at hsame
  rw [hid, hsame.2]

/-- The modes that the provider admits for the archive. -/
def Admissible (command : CreateImportPlanCommand) (archive : StoredArchive) : Prop :=
  command.mode = .preserveIds → archive.sourceWorkspaceId = command.workspaceId.text

theorem computePlan_eq_ok (hfinds : Finds s command archive) (hverified : archive.status = .verified)
    (hadmissible : Admissible command archive) :
    computePlan P moment s command = .ok plan ↔
      archive.parsed.manifest.workspaceId = archive.sourceWorkspaceId ∧
        planArchiveImport P.localeLe (planRequest P s command archive.parsed) = some plan := by
  have hmode : ¬ (command.mode = .preserveIds ∧
      archive.sourceWorkspaceId ≠ command.workspaceId.text) := fun h => h.2 (hadmissible h.1)
  rw [computePlan, getArchive_eq_ok.mpr hfinds]
  simp only [bind, Except.bind, hverified, hmode, readArchive_verified hverified, ne_eq,
    not_true_eq_false, if_false]
  by_cases hspelled : archive.parsed.manifest.workspaceId = archive.sourceWorkspaceId
  · rw [if_pos hspelled]
    dsimp only
    cases hplan : planArchiveImport P.localeLe (planRequest P s command archive.parsed) with
    | none => simp
    | some plan => simp [hspelled]
  · rw [if_neg hspelled]
    simp [hspelled]

/-- No plan was stored under the key of the request. -/
def FreshKey (s : Catalog τ) (actor : Actor) (command : CreateImportPlanCommand) : Prop :=
  ∀ stored ∈ s.plans, ¬ (stored.workspaceId = command.workspaceId.text ∧
    stored.principalType = Actor.type actor ∧ textColumn actor.id = some stored.requestedBy ∧
    textColumn command.idempotencyKey = some stored.idempotencyKey)

theorem FreshKey.find (h : FreshKey s actor command) {row : PlanRow}
    (hworkspace : row.workspaceId = command.workspaceId.text)
    (htype : row.principalType = Actor.type actor)
    (hrequester : textColumn actor.id = some row.requestedBy)
    (hkey : textColumn command.idempotencyKey = some row.idempotencyKey) :
    s.plans.find? (sameRequest row) = none := by
  rw [List.find?_eq_none]
  intro stored hstored hsame
  simp only [sameRequest, Bool.and_eq_true, beq_iff_eq] at hsame
  exact h stored hstored ⟨hsame.1.1.1.trans hworkspace, hsame.1.1.2.trans htype,
    hsame.1.2 ▸ hrequester, hsame.2 ▸ hkey⟩

/-- No plan is stored under the id. -/
def FreshId (s : Catalog τ) (planId : JsString) : Prop := ∀ stored ∈ s.plans, stored.id ≠ planId

/-- The requester and the key of a request can be stored. -/
structure StoredIdentity (actor : Actor) (command : CreateImportPlanCommand)
    (requestedBy idempotencyKey : JsString) : Prop where
  requester : textColumn actor.id = some requestedBy
  key : textColumn command.idempotencyKey = some idempotencyKey
  requesterText : isBlank requestedBy = false
  keyText : isBlank idempotencyKey = false

/-- The row of a new plan. -/
def newRow (moment : Moment) (actor : Actor) (command : CreateImportPlanCommand)
    (archive : StoredArchive) (plan : ArchiveImportPlan) (requestedBy idempotencyKey : JsString) :
    PlanRow where
  id := plan.planId
  workspaceId := command.workspaceId.text
  archiveId := archive.id
  sourceWorkspaceId := archive.sourceWorkspaceId
  plan := plan.inColumn
  requestedBy := requestedBy
  principalType := Actor.type actor
  idempotencyKey := idempotencyKey
  requestFingerprint := (saveInput moment actor command plan).requestFingerprint
  createdAt := moment.createdAt

theorem planRow_eq_some (hfinds : Finds s command archive)
    (hplan : planArchiveImport P.localeLe (planRequest P s command archive.parsed) = some plan)
    {row : PlanRow} : planRow (saveInput moment actor command plan) = some row ↔
      ∃ requestedBy idempotencyKey, StoredIdentity actor command requestedBy idempotencyKey ∧
        row = newRow moment actor command archive plan requestedBy idempotencyKey := by
  have hsource : plan.sourceWorkspaceId = archive.parsed.manifest.workspaceId := by
    obtain ⟨planned, bytes, graphIssues, hparts⟩ := planArchiveImport_parts hplan
    exact hparts.sourceWorkspaceId
  have hcolumn := planColumn_eq (storedRequest s archive hfinds.workspace) hplan
  simp only [planRow, saveInput, hfinds.id, hsource, archive.workspaceColumn, hcolumn,
    Option.bind_eq_bind, Option.bind_some, char64Column_of_length (isSha256_length archive.digest)]
  constructor
  · intro h
    obtain ⟨requestedBy, hrequester, h⟩ := Option.bind_eq_some_iff.mp h
    obtain ⟨idempotencyKey, hkey, h⟩ := Option.bind_eq_some_iff.mp h
    split_ifs at h with hblank
    cases h
    rw [Bool.or_eq_true, not_or, Bool.not_eq_true, Bool.not_eq_true] at hblank
    exact ⟨requestedBy, idempotencyKey, ⟨hrequester, hkey, hblank.1, hblank.2⟩, rfl⟩
  · rintro ⟨requestedBy, idempotencyKey, hidentity, rfl⟩
    rw [hidentity.requester, hidentity.key]
    simp [hidentity.requesterText, hidentity.keyText, newRow, saveInput]

theorem savePlan_eq_ok (hfinds : Finds s command archive) (hfresh : FreshKey s actor command)
    (hplan : planArchiveImport P.localeLe (planRequest P s command archive.parsed) = some plan)
    {durable : DurablePortabilityPlan} {plans : List PlanRow} :
    savePlan moment s (saveInput moment actor command plan) = (.ok durable, plans) ↔
      FreshId s plan.planId ∧ ∃ requestedBy idempotencyKey,
        StoredIdentity actor command requestedBy idempotencyKey ∧
        let row := newRow moment actor command archive plan requestedBy idempotencyKey
        durable = mapPlan row ∧ plans = s.plans ++ [row] := by
  rw [savePlan]
  cases hrow : planRow (saveInput moment actor command plan) with
  | none =>
    refine iff_of_false (by simp) ?_
    rintro ⟨-, requestedBy, idempotencyKey, hidentity, -⟩
    rw [(planRow_eq_some hfinds hplan).mpr ⟨_, _, hidentity, rfl⟩] at hrow
    cases hrow
  | some row =>
    obtain ⟨requestedBy, idempotencyKey, hidentity, rfl⟩ := (planRow_eq_some hfinds hplan).mp hrow
    have hunique : ∀ requestedBy' idempotencyKey',
        StoredIdentity actor command requestedBy' idempotencyKey' →
          requestedBy' = requestedBy ∧ idempotencyKey' = idempotencyKey := by
      intro requestedBy' idempotencyKey' hidentity'
      have hrequester := hidentity'.requester.symm.trans hidentity.requester
      have hkey := hidentity'.key.symm.trans hidentity.key
      exact ⟨Option.some.inj hrequester, Option.some.inj hkey⟩
    have hnone : s.plans.find? (sameRequest (newRow moment actor command archive plan requestedBy
        idempotencyKey)) = none := hfresh.find rfl rfl hidentity.requester hidentity.key
    dsimp only
    rw [hnone]
    dsimp only
    split_ifs with hstored
    · refine iff_of_false (by simp) ?_
      rintro ⟨hid, -⟩
      rw [List.any_eq_true] at hstored
      obtain ⟨stored, hmem, hsame⟩ := hstored
      exact hid stored hmem (beq_iff_eq.mp hsame)
    · rw [List.any_eq_true, not_exists] at hstored
      constructor
      · intro h
        rw [Prod.mk.injEq, Except.ok.injEq] at h
        exact ⟨fun stored hmem hsame => hstored stored ⟨hmem, beq_iff_eq.mpr hsame⟩, requestedBy,
          idempotencyKey, hidentity, h.1.symm, h.2.symm⟩
      · rintro ⟨-, requestedBy', idempotencyKey', hidentity', rfl, rfl⟩
        obtain ⟨rfl, rfl⟩ := hunique requestedBy' idempotencyKey' hidentity'
        rfl

/-- The id of the event of a planned import. -/
def plannedEventId (command : CreateImportPlanCommand) : JsString :=
  deterministicUuid (js "portability-audit:" ++ command.workspaceId.text ++ js ":" ++
    PortabilityAction.importPlanned.text ++ js ":" ++ command.idempotencyKey ++ js ":" ++
    Outcome.succeeded.text)

/-- The id of the event is not one of another workspace. -/
def FreeEventId (s : Catalog τ) (command : CreateImportPlanCommand) : Prop :=
  ∀ event ∈ s.auditEvents, event.id = plannedEventId command →
    ∃ own ∈ s.auditEvents, own.workspaceId = command.workspaceId.text ∧
      own.id = plannedEventId command

theorem portabilityAppendAudit_planned (moment : Moment) {requestedBy idempotencyKey planId : JsString}
    (hidentity : StoredIdentity actor command requestedBy idempotencyKey) (hid : Plain planId) :
    (∃ auditEvents, portabilityAppendAudit s.auditEvents
      (plannedAudit moment actor command planId) = some auditEvents) ↔ FreeEventId s command := by
  have hkind : Plain (js "import-plan") := by decide
  have haction : Plain PortabilityAction.importPlanned.text := by decide
  have hmetadata : jsonbAccepts (.object [(js "outcome", .string (js "succeeded"))]) = true := by
    decide
  obtain ⟨row, hrow⟩ := exists_eventRow (plannedAudit moment actor command planId).body
    (previousHash s.auditEvents command.workspaceId.text) moment.finishedAt
    (orNull (previousHash s.auditEvents command.workspaceId.text)) hidentity.requester haction hkind
    hid hidentity.key (plain_deterministicUuid _) hmetadata
  have hrowId : row.id = plannedEventId command := (eventRow_texts hrow).1
  have happend : portabilityAppendAudit s.auditEvents (plannedAudit moment actor command planId) =
      if ∃ own ∈ s.auditEvents, own.workspaceId = command.workspaceId.text ∧
        own.id = plannedEventId command then some s.auditEvents
      else if ∃ event ∈ s.auditEvents, event.id = plannedEventId command then none
      else some (s.auditEvents ++ [row]) := by
    have hstored := @appendEvent_eq .returnEarly orNull s.auditEvents
      (plannedAudit moment actor command planId).body moment.finishedAt row hrow
    simp only [true_and, reduceCtorEq, if_false, hrowId] at hstored
    exact hstored
  rw [happend, FreeEventId]
  split_ifs with hown hevent
  · exact iff_of_true ⟨_, rfl⟩ fun _ _ _ => hown
  · refine iff_of_false (by simp) fun h => ?_
    obtain ⟨event, hmem, hid⟩ := hevent
    exact hown (h event hmem hid)
  · exact iff_of_true ⟨_, rfl⟩ fun event hmem hid => absurd ⟨event, hmem, hid⟩ hevent

/-- When `createPlan` answers, and what it leaves. -/
theorem createPlan_eq_ok (moment : Moment) (hfinds : Finds s command archive) (hverified : archive.status = .verified)
    (hadmissible : Admissible command archive) (hfresh : FreshKey s actor command)
    {summary : ImportPlanSummary} {s' : Catalog τ} :
    createPlan P moment s actor command = (.ok summary, s') ↔
      ∃ plan, computePlan P moment s command = .ok plan ∧ FreshId s plan.planId ∧
        ∃ requestedBy idempotencyKey, StoredIdentity actor command requestedBy idempotencyKey ∧
        ∃ auditEvents, portabilityAppendAudit s.auditEvents
          (plannedAudit moment actor command plan.planId) = some auditEvents ∧
        let row := newRow moment actor command archive plan requestedBy idempotencyKey
        summary = planSummary (mapPlan row) ∧
          s' = { s with plans := s.plans ++ [row], auditEvents } := by
  have hattempt : createPlan P moment s actor command = (.ok summary, s') ↔
      attemptPlan P moment s actor command = (.ok summary, s') := by
    rw [createPlan]
    split
    · rename_i summary' s'' hresult
      rw [hresult]
    · rename_i e s'' hresult
      rw [hresult]
      simp
  rw [hattempt, attemptPlan]
  cases hcompute : computePlan P moment s command with
  | error e => simp
  | ok plan =>
    have hplan := ((computePlan_eq_ok hfinds hverified hadmissible).mp hcompute).2
    dsimp only
    have hsaved : ∀ durable plans, savePlan moment s (saveInput moment actor command plan) =
        (.ok durable, plans) ↔ _ := fun _ _ => savePlan_eq_ok hfinds hfresh hplan
    constructor
    · intro h
      cases hanswer : savePlan moment s (saveInput moment actor command plan) with
      | mk answer plans =>
        rw [hanswer] at h
        cases answer with
        | error e => simp at h
        | ok durable =>
          obtain ⟨hid, requestedBy, idempotencyKey, hidentity, rfl, rfl⟩ :=
            (hsaved durable plans).mp hanswer
          dsimp only [appendAudit] at h
          cases haudit : portabilityAppendAudit s.auditEvents
              (plannedAudit moment actor command plan.planId) with
          | none =>
            rw [haudit] at h
            simp [Except.map] at h
          | some auditEvents =>
            rw [haudit] at h
            simp only [Except.map, Prod.mk.injEq, Except.ok.injEq] at h
            exact ⟨plan, rfl, hid, requestedBy, idempotencyKey, hidentity, auditEvents, haudit,
              h.1.symm, h.2.symm⟩
    · rintro ⟨plan', hsame, hid, requestedBy, idempotencyKey, hidentity, auditEvents, haudit, rfl,
        rfl⟩
      cases hsame
      rw [(hsaved _ _).mpr ⟨hid, requestedBy, idempotencyKey, hidentity, rfl, rfl⟩]
      simp only [appendAudit, haudit, Except.map]

/-! ## Later calls -/

/-- Plans and archives are only added. -/
structure Kept (s s' : Catalog τ) : Prop where
  plans : s.plans <+: s'.plans
  archives : s.archives <+: s'.archives

theorem Kept.refl (s : Catalog τ) : Kept s s := ⟨List.prefix_rfl, List.prefix_rfl⟩

theorem Kept.trans {r s t : Catalog τ} (h : Kept r s) (h' : Kept s t) : Kept r t :=
  ⟨h.plans.trans h'.plans, h.archives.trans h'.archives⟩

theorem kept_appendAudit (input : PortabilityAudit) : Kept s (appendAudit moment s input).2 := by
  rw [appendAudit]
  split
  · exact .refl s
  · exact ⟨List.prefix_rfl, List.prefix_rfl⟩

theorem kept_savePlan (input : SavePlan) : s.plans <+: (savePlan moment s input).2 := by
  rw [savePlan]
  split
  · exact List.prefix_rfl
  · split
    · exact List.prefix_rfl
    · split
      · exact List.prefix_rfl
      · exact List.prefix_append _ _

theorem kept_attemptPlan : Kept s (attemptPlan P moment s actor command).2 := by
  rw [attemptPlan]
  split
  · exact .refl s
  · rename_i plan hplan
    have hsaved : Kept s { s with
        plans := (savePlan moment s (saveInput moment actor command plan)).2 } :=
      ⟨kept_savePlan _, List.prefix_rfl⟩
    dsimp only
    split
    · exact hsaved
    · exact hsaved.trans (kept_appendAudit _)

theorem kept_createPlan : Kept s (createPlan P moment s actor command).2 := by
  have hattempt : Kept s (attemptPlan P moment s actor command).2 := kept_attemptPlan
  rw [createPlan]
  split
  · rename_i hresult
    rwa [hresult] at hattempt
  · rename_i hresult
    rw [hresult] at hattempt
    exact hattempt.trans (kept_appendAudit _)

theorem kept_attemptExecute {fuel : Nat} {planId : JsString} {executeCommand : ExecuteImportCommand} :
    Kept s (attemptExecute P moment s fuel planId actor executeCommand).2 := by
  rw [attemptExecute]
  split
  · exact .refl s
  · rename_i archiveId input hinput
    have hexecuted : ∀ operations target, Kept s { s with operations, target } := fun _ _ =>
      ⟨List.prefix_rfl, List.prefix_rfl⟩
    dsimp only
    split
    · exact hexecuted _ _
    · rename_i result hresult
      have hresumed : ∀ (s : Catalog τ) (resumed : Bool) (input : PortabilityAudit),
          Kept s (if resumed then appendAudit moment s input else (.ok (), s)).2 := by
        intro s resumed input
        split
        · exact kept_appendAudit input
        · exact .refl s
      split
      · exact (hexecuted _ _).trans (hresumed _ _ _)
      · exact ((hexecuted _ _).trans (hresumed _ _ _)).trans (kept_appendAudit _)

theorem kept_executePlan {fuel : Nat} {planId : JsString} {executeCommand : ExecuteImportCommand} :
    Kept s (executePlan P moment s fuel planId actor executeCommand).2 := by
  have hattempt : Kept s (attemptExecute P moment s fuel planId actor executeCommand).2 :=
    kept_attemptExecute
  rw [executePlan]
  split
  · rename_i hresult
    rwa [hresult] at hattempt
  · rename_i hresult
    rw [hresult] at hattempt
    exact hattempt.trans (kept_appendAudit _)

theorem kept_perform (call : Call τ) : Kept s (perform P s call) := by
  cases call with
  | createPlan moment actor command => exact kept_createPlan
  | executePlan moment fuel planId actor command => exact kept_executePlan
  | uploadArchive archive =>
    rw [perform]
    split
    · exact .refl s
    · exact ⟨List.prefix_rfl, List.prefix_append _ _⟩
  | write target auditEvents => exact ⟨List.prefix_rfl, List.prefix_rfl⟩

theorem kept_after (calls : List (Call τ)) : Kept s (after P s calls) := by
  induction calls generalizing s with
  | nil => exact .refl s
  | cons call calls ih => exact (kept_perform call).trans ih

theorem find_extended {α : Type} {p : α → Bool} {l l' : List α} {a : α} (h : l <+: l')
    (hfind : l.find? p = some a) : l'.find? p = some a := by
  obtain ⟨rest, rfl⟩ := h
  rw [List.find?_append, hfind, Option.some_or]

theorem find_new {α : Type} {p : α → Bool} {l : List α} {a : α} (hnone : ∀ b ∈ l, p b = false)
    (hp : p a = true) : (l ++ [a]).find? p = some a := by
  rw [List.find?_append, List.find?_eq_none.mpr fun b hb => by rw [hnone b hb]; simp,
    Option.none_or, List.find?_cons_of_pos hp]

theorem Finds.kept {s' : Catalog τ} (h : Finds s command archive) (hkept : Kept s s') :
    Finds s' command archive := by
  obtain ⟨id, hid, hfind⟩ := h
  exact ⟨id, hid, find_extended hkept.archives hfind⟩

/-- The plan under the id is read back by every later call. -/
theorem getPlan_kept {s' : Catalog τ} {requestedBy idempotencyKey : JsString}
    (hid : FreshId s plan.planId) (hplanId : isSha256 plan.planId = true)
    (hkept : s.plans ++ [newRow moment actor command archive plan requestedBy idempotencyKey] <+:
      s'.plans) (moment' : Moment) :
    getPlan moment' s' command.workspaceId.text plan.planId = .ok (some
      (mapPlan (newRow moment actor command archive plan requestedBy idempotencyKey))) := by
  rw [getPlan, charParameter_digest hplanId]
  dsimp only
  rw [find_extended hkept (find_new (fun stored hstored => ?_) ?_)]
  · rfl
  · simp [newRow]
  · rw [Bool.and_eq_false_iff]
    exact Or.inr (beq_eq_false_iff_ne.mpr (hid stored hstored))

/-- It is what the executor gets, with the archive. -/
theorem executeInput_kept {s' : Catalog τ} {planId : JsString} {createdAt : JsString}
    (hfinds : Finds s' command archive) (hverified : archive.status = .verified)
    (hspelled : archive.parsed.manifest.workspaceId = archive.sourceWorkspaceId) {moment' : Moment}
    (hplan : getPlan moment' s' command.workspaceId.text planId =
      .ok (some ⟨command.workspaceId.text, archive.id, plan.inColumn, createdAt⟩))
    (actor' : Actor) (command' : ExecuteImportCommand)
    (hworkspace : command'.workspaceId = command.workspaceId) :
    ∃ input, executeInput moment' s' planId actor' command' = .ok (archive.id, input) ∧
      input.archive = archive.parsed ∧ input.plan = plan.inColumn := by
  have harchive : getArchive moment' s' command.workspaceId.text archive.id = .ok (some archive) := by
    obtain ⟨id, hid, hfind⟩ := hfinds
    rw [getArchive, charParameter_digest archive.digest]
    have hsame := List.find?_some hfind
    rw [Bool.and_eq_true, beq_iff_eq, beq_iff_eq] at hsame
    dsimp only
    rw [hsame.2, hfind]
  rw [executeInput, hworkspace, hplan]
  simp only [bind, Except.bind, harchive, readArchive_verified hverified, hspelled, if_true, pure,
    Except.pure]
  exact ⟨_, rfl, rfl, rfl⟩

theorem isSha256_plan {request : ArchiveImportRequest}
    (hplan : planArchiveImport P.localeLe request = some plan) : isSha256 plan.planId = true := by
  obtain ⟨planned, bytes, graphIssues, hparts⟩ := planArchiveImport_parts hplan
  exact isSha256_planId hparts.planId

/-! ## When planning works -/

/-- The call answers with the plan of the archive against what the workspace holds, and the plan is
what every later call finds under its id, and what every later execution of it is handed. -/
def Replans (P : Provider τ) (moment : Moment) (s : Catalog τ) (actor : Actor)
    (command : CreateImportPlanCommand) (archive : StoredArchive) : Prop :=
  ∃ plan, planArchiveImport P.localeLe (planRequest P s command archive.parsed) = some plan ∧
    let durable : DurablePortabilityPlan :=
      ⟨command.workspaceId.text, archive.id, plan.inColumn, toISOString moment.createdAt⟩
    (createPlan P moment s actor command).1 = .ok (planSummary durable) ∧
    ∀ (calls : List (Call τ)) (moment' : Moment),
      let s' := after P (createPlan P moment s actor command).2 calls
      getPlan moment' s' command.workspaceId.text plan.planId = .ok (some durable) ∧
      ∀ (actor' : Actor) (command' : ExecuteImportCommand), command'.workspaceId = command.workspaceId →
        ∃ input, executeInput moment' s' plan.planId actor' command' = .ok (archive.id, input) ∧
          input.archive = archive.parsed ∧ input.plan = plan.inColumn

/-- The id of the plan, which the archive and the command determine, is not the one of a stored plan,
and planning throws nothing and the columns take the request and its event. -/
structure Fits (P : Provider τ) (s : Catalog τ) (actor : Actor) (command : CreateImportPlanCommand)
    (archive : StoredArchive) : Prop where
  spelled : archive.parsed.manifest.workspaceId = archive.sourceWorkspaceId
  planId : ∃ planId, importPlanId P.localeLe (planRequest P s command archive.parsed) = some planId ∧
    FreshId s planId
  noMethod : ¬ LooksUpMethod (planRequest P s command archive.parsed)
  identity : ∃ requestedBy idempotencyKey, StoredIdentity actor command requestedBy idempotencyKey
  eventId : FreeEventId s command

theorem Fits.replans (hfinds : Finds s command archive) (hverified : archive.status = .verified)
    (hadmissible : Admissible command archive) (hfresh : FreshKey s actor command)
    (h : Fits P s actor command archive) : Replans P moment s actor command archive := by
  obtain ⟨planId, hplanId, hfreshId⟩ := h.planId
  obtain ⟨plan, hplan⟩ := (exists_plan_iff (inventory_json P s _)).mpr ⟨⟨planId, hplanId⟩, h.noMethod⟩
  have hsame := importPlanId_eq hplan
  rw [hplanId, Option.some.injEq] at hsame
  subst hsame
  obtain ⟨requestedBy, idempotencyKey, hidentity⟩ := h.identity
  have hdigest := isSha256_plan hplan
  obtain ⟨auditEvents, haudit⟩ := (portabilityAppendAudit_planned moment hidentity
    (plain_of_isSha256 hdigest)).mpr h.eventId
  have hcreated := (createPlan_eq_ok (P := P) moment hfinds hverified hadmissible
    hfresh).mpr ⟨plan, (computePlan_eq_ok hfinds hverified hadmissible).mpr ⟨h.spelled, hplan⟩, hfreshId,
      requestedBy, idempotencyKey, hidentity, auditEvents, haudit, rfl, rfl⟩
  refine ⟨plan, hplan, ?_⟩
  rw [hcreated]
  refine ⟨rfl, fun calls moment' => ?_⟩
  have hkept := kept_after (P := P) (s := { s with
    plans := s.plans ++ [newRow moment actor command archive plan requestedBy idempotencyKey]
    auditEvents }) calls
  have hread := getPlan_kept hfreshId hdigest hkept.plans moment'
  have hfinds' := hfinds.kept ⟨(List.prefix_append _ _).trans hkept.plans, hkept.archives⟩
  exact ⟨hread, executeInput_kept hfinds' hverified h.spelled hread⟩

/-- With a new key and an admissible mode, planning works exactly where the id of the plan is new. -/
theorem replans_iff (P : Provider τ) (moment : Moment) (s : Catalog τ) (actor : Actor)
    (command : CreateImportPlanCommand) (archive : StoredArchive) (hfinds : Finds s command archive)
    (hverified : archive.status = .verified) (hadmissible : Admissible command archive)
    (hfresh : FreshKey s actor command) :
    Replans P moment s actor command archive ↔ Fits P s actor command archive := by
  refine ⟨?_, Fits.replans hfinds hverified hadmissible hfresh⟩
  rintro ⟨plan, hplan, hcreated, -⟩
  have hanswer : createPlan P moment s actor command = (_, (createPlan P moment s actor command).2) :=
    Prod.ext hcreated rfl
  obtain ⟨plan', hcomputed, hid, requestedBy, idempotencyKey, hidentity, auditEvents, haudit, -⟩ :=
    (createPlan_eq_ok moment hfinds hverified hadmissible hfresh).mp hanswer
  obtain ⟨hspelled, hplan'⟩ := (computePlan_eq_ok hfinds hverified hadmissible).mp hcomputed
  rw [hplan, Option.some.injEq] at hplan'
  subst hplan'
  exact ⟨hspelled, ⟨_, importPlanId_eq hplan, hid⟩,
    ((exists_plan_iff (inventory_json P s _)).mp ⟨plan, hplan⟩).2, ⟨_, _, hidentity⟩,
    (portabilityAppendAudit_planned moment hidentity (plain_of_isSha256 (isSha256_plan hplan))).mp
      ⟨auditEvents, haudit⟩⟩

end Needs

/-! ## An archive that is planned twice -/

def staleIssue (action : ArchiveImportAction) : ArchiveIssue :=
  planIssue (js "IMPORT_TARGET_STALE")
    (js "Target changed for " ++ action.kind.text ++ js ":" ++ action.targetId ++ js ".")

/-- Whether the inventory has changed under an action; `none` where `canonicalJson` throws. -/
def isStale (inventory : ArchiveImportInventory) (mode : ArchiveImportMode)
    (action : ArchiveImportAction) : Option Bool :=
  match action.kind with
  | .blobBytes =>
    let held := inventory.blobDigests.contains action.targetId
    some ((action.disposition == .insert && held) ||
      (action.disposition == .alreadyPresent && !held))
  | .record kind =>
    let current := inventory.find kind action.targetId
    if kind = .workspaces ∧ mode = .mappedWorkspace ∧ action.disposition = .alreadyPresent then
      some (match current with
        | .absent => true
        | _ => false)
    else do
      let same ← match current, action.record with
        | .record r, some record => do
          return (← canonicalJson (.object r)) == (← canonicalJson (.object record))
        | .inherited, some _ => none
        | _, _ => some false
      let held := match current with
        | .absent => false
        | _ => true
      return (action.disposition == .insert && held) ||
        (action.disposition == .alreadyPresent && !same)

/-- `PostgresArchiveImportTarget.revalidate`. -/
def revalidate (inventory : ArchiveImportInventory) (plan : ArchiveImportPlan) :
    Except ImportError (List ArchiveIssue) :=
  match plan.actions.mapM fun action => (isStale inventory plan.mode action).map (action, ·) with
  | none => .error ⟨none, js "Value is not JSON encodable."⟩
  | some actions => .ok ((actions.filter Prod.snd).map fun p => staleIssue p.1)

section Sample

def sampleWorkspaceText : JsString := js "00000000-0000-0000-0000-000000000000"

def sampleManifest : TrustArchiveManifest where
  formatVersion := .v02
  exportId := js "e"
  workspaceId := sampleWorkspaceText
  datasetIds := []
  createdAt := js "t"
  createdBy := js "u"
  sourceVersion := js "0.3"
  signatureProfile := .unsigned
  auditLineage := ⟨sampleWorkspaceText, 0, .null, .null⟩
  recordCounts := fun kind => if kind = .schemaPackages then 1 else 0
  blobCount := 0
  totalBlobBytes := 0

def samplePackageId : JsString := js "22222222-2222-4222-8222-222222222222"

def samplePackage : ArchiveRecord :=
  [(js "id", .string samplePackageId), (js "namespace", .string (js "core")),
    (js "name", .string (js "notes")), (js "semanticVersion", .string (js "1.0.0")),
    (js "schemaDigest", .string (List.replicate 64 48)), (js "manifest", .object []),
    (js "status", .string (js "active")),
    (js "createdAt", .string (js "2026-01-01T00:00:00.000Z"))]

def sampleArchive : StoredArchive where
  id := List.replicate 64 48
  workspaceId := sampleWorkspaceText
  sourceExportId := js "e"
  sourceWorkspaceId := sampleWorkspaceText
  status := .verified
  parsed := ⟨EntryMap.empty, sampleManifest,
    ⟨true, fun kind => if kind = .schemaPackages then [samplePackage] else []⟩⟩
  digest := by decide
  workspace := by decide +kernel
  verified := by decide
  exportColumn := by decide
  workspaceColumn := by decide +kernel
  manifestJson := by decide +kernel
  verificationJson kind r hr := by
    cases kind with
    | schemaPackages =>
      rw [List.mem_singleton.mp hr]
      decide +kernel
    | _ => cases hr

/-- The workspace holds the schema package, or it does not yet. -/
def sampleContent (_ : JsString) (held : Bool) : Content where
  records kind := if held ∧ kind = .schemaPackages then [(samplePackageId, samplePackage)] else []
  blobDigests := []
  json kind e he := by
    split_ifs at he
    · rw [List.mem_singleton.mp he]
      exact Option.isSome_iff_exists.mp (by decide +kernel)
    · cases he

def sampleInventory (held : Bool) : ArchiveImportInventory where
  workspaceId := some sampleWorkspaceText
  records kind := if kind = .auditEvents then none else
    some ((sampleContent sampleWorkspaceText held).records kind)
  blobDigests := []

def sampleProvider : Provider Bool where
  localeLe := unitsLe
  content := sampleContent
  target :=
    { answer := fun c held =>
        (match c with
          | .revalidate plan => revalidate (sampleInventory held) plan
          | .verifyStagedBlob _ _ _ => .ok true
          | .stageBlob _ _ _ | .commitBlob _ _ | .commitMetadata _ _ _ | .appendAudit _ _ _ _ _ =>
            .ok (), held) }

def epoch : Instant := ⟨0, epoch_bound⟩

def sampleMoment : Moment := ⟨epoch, epoch, epoch, epoch, fun _ => epoch, some (js "23505")⟩

def sampleActor : Actor := ⟨js "u", none⟩

def sampleWorkspace : WorkspaceId := ⟨sampleWorkspaceText, by decide⟩

def sampleCommand (key : JsString) : CreateImportPlanCommand :=
  ⟨sampleWorkspace, List.replicate 64 48, key, .preserveIds, .rejectOnError⟩

def sampleCatalog : Catalog Bool := ⟨[sampleArchive], [], [], [], false⟩

theorem sample_finds (key : JsString) : Finds sampleCatalog (sampleCommand key) sampleArchive := by
  have hdigest : isSha256 (List.replicate 64 48) = true := by decide
  exact ⟨_, charParameter_digest hdigest, rfl⟩

def plannedId : JsString :=
  match (createPlan sampleProvider sampleMoment sampleCatalog sampleActor
    (sampleCommand (js "k"))).1 with
  | .ok summary => summary.id
  | .error _ => []

def planCall : Call Bool := .createPlan sampleMoment sampleActor (sampleCommand (js "k"))

def planned : Catalog Bool := after sampleProvider sampleCatalog [planCall]

/-- The archive is planned, somebody else stores its schema package in the workspace, and the plan
is refused as stale. -/
def sampleCalls : List (Call Bool) :=
  [planCall, .write true planned.auditEvents,
    .executePlan sampleMoment 9 plannedId sampleActor ⟨sampleWorkspace, js "x", js "IMPORT"⟩]

def changed : Catalog Bool := after sampleProvider sampleCatalog (sampleCalls.take 2)

def refused : Catalog Bool := after sampleProvider sampleCatalog sampleCalls

def failsWith {α : Type} (code : JsString) : Except PortabilityError α → Bool
  | .ok _ => false
  | .error e => e.code == code

theorem replans_iff_sample : Replans sampleProvider sampleMoment sampleCatalog sampleActor
    (sampleCommand (js "k")) sampleArchive := by
  refine (replans_iff sampleProvider sampleMoment sampleCatalog sampleActor (sampleCommand (js "k"))
    sampleArchive (sample_finds _) rfl (fun _ => rfl) nofun).mpr ⟨rfl, ?_, ?_, ?_, nofun⟩
  · have hsome : (importPlanId sampleProvider.localeLe (planRequest sampleProvider sampleCatalog
        (sampleCommand (js "k")) sampleArchive.parsed)).isSome = true := by
      decide +kernel
    obtain ⟨planId, hplanId⟩ := Option.isSome_iff_exists.mp hsome
    exact ⟨planId, hplanId, nofun⟩
  · rintro ⟨kind, r, hr, id, hid, hfind, -⟩
    cases kind with
    | schemaPackages =>
      rw [List.mem_singleton.mp hr] at hid
      cases hid
      cases hfind
    | _ => cases hr
  · exact ⟨js "u", js "k", by decide, by decide, by decide, by decide⟩

theorem sample_runs :
    failsWith (js "IMPORT_TARGET_STALE") (executePlan sampleProvider sampleMoment changed 9 plannedId
      sampleActor ⟨sampleWorkspace, js "x", js "IMPORT"⟩).1 = true ∧
    refused.plans.all (fun row => row.idempotencyKey != js "l") = true ∧
    failsWith (js "23505") (createPlan sampleProvider sampleMoment refused sampleActor
      (sampleCommand (js "l"))).1 = true := by
  decide +kernel

/-- After a plan was refused as stale, its archive cannot be planned again. -/
theorem stale_plan_never_replaced :
    failsWith (js "IMPORT_TARGET_STALE") (executePlan sampleProvider sampleMoment changed 9 plannedId
      sampleActor ⟨sampleWorkspace, js "x", js "IMPORT"⟩).1 = true ∧
    Finds refused (sampleCommand (js "l")) sampleArchive ∧ sampleArchive.status = .verified ∧
    Admissible (sampleCommand (js "l")) sampleArchive ∧
    FreshKey refused sampleActor (sampleCommand (js "l")) ∧
    failsWith (js "23505") (createPlan sampleProvider sampleMoment refused sampleActor
      (sampleCommand (js "l"))).1 = true ∧
    ¬ Replans sampleProvider sampleMoment refused sampleActor (sampleCommand (js "l"))
      sampleArchive := by
  obtain ⟨hstale, hkeys, hfails⟩ := sample_runs
  refine ⟨hstale, (sample_finds _).kept (kept_after _), rfl, fun _ => rfl, ?_, hfails, ?_⟩
  · rintro stored hstored ⟨-, -, -, hkey⟩
    have hother := List.all_eq_true.mp hkeys stored hstored
    rw [show textColumn (sampleCommand (js "l")).idempotencyKey = some (js "l") from by decide,
      Option.some.injEq] at hkey
    rw [← hkey] at hother
    simp at hother
  · rintro ⟨plan, -, hcreated, -⟩
    rw [hcreated] at hfails
    cases hfails

end Sample


end TrustCore.ImportPlanning
