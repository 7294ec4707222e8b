import TrustCore.ArchiveFormat

/-!
# Import plans

`planArchiveImport` rewrites the records of a verified archive for the target
workspace, checks the references between them and decides record by record
whether it is inserted. `none` is a thrown error: a record without an id, or one
whose canonical text does not exist.
-/

namespace TrustCore.ImportPlan

open TrustCore.Utf TrustCore.Json TrustCore.Numbers TrustCore.Dynamic TrustCore.Sha256
open TrustCore.ArchiveFormat

inductive ArchiveImportMode where
  | preserveIds
  | mappedWorkspace
  deriving DecidableEq

def ArchiveImportMode.text : ArchiveImportMode → JsString
  | .preserveIds => js "preserve_ids"
  | .mappedWorkspace => js "mapped_workspace"

inductive ArchiveConflictMode where
  | rejectOnError
  | reportOnly
  deriving DecidableEq

def ArchiveConflictMode.text : ArchiveConflictMode → JsString
  | .rejectOnError => js "reject_on_error"
  | .reportOnly => js "report_only"

inductive Disposition where
  | insert
  | alreadyPresent
  | blocked
  deriving DecidableEq

inductive ActionKind where
  | record (kind : ArchiveRecordKind)
  | blobBytes
  deriving DecidableEq

def ActionKind.text : ActionKind → JsString
  | .record kind => kind.text
  | .blobBytes => js "blob-bytes"

def phases : ActionKind → Nat
  | .record .workspaces => 10
  | .record .schemaPackages => 20
  | .record .retention => 25
  | .record .datasets => 30
  | .record .blobs => 40
  | .blobBytes => 45
  | .record .resources => 50
  | .record .revisions => 60
  | .record .revisionBlobs => 70
  | .record .relations => 80
  | .record .tombstones => 90
  | .record .auditEvents => 100

/-- Of the verification report, what planning and execution read. -/
structure ArchiveVerificationReport where
  valid : Bool
  records : Records

structure ParsedTrustArchive where
  entries : EntryMap
  manifest : TrustArchiveManifest
  verification : ArchiveVerificationReport

/-- What the target holds, indexed by kind and id. -/
structure ArchiveImportInventory where
  workspaceId : Option JsString
  records : ArchiveRecordKind → Option (List (JsString × ArchiveRecord))
  blobDigests : List JsString

structure ArchiveImportRequest where
  archive : ParsedTrustArchive
  mode : ArchiveImportMode
  conflictMode : ArchiveConflictMode
  target : ArchiveImportInventory

structure ArchiveImportAction where
  index : Nat
  phase : Nat
  kind : ActionKind
  sourceId : JsString
  targetId : JsString
  disposition : Disposition
  record : Option ArchiveRecord
  dependsOn : List JsString

inductive PlanStatus where
  | ready
  | rejected
  | reportOnly
  deriving DecidableEq

structure ArchiveImportPlan where
  planId : JsString
  archiveExportId : JsString
  sourceWorkspaceId : JsString
  targetWorkspaceId : JsString
  mode : ArchiveImportMode
  conflictMode : ArchiveConflictMode
  status : PlanStatus
  issues : List ArchiveIssue
  actions : List ArchiveImportAction
  counts : Disposition → Nat

def planIssue (code message : JsString) : ArchiveIssue := ⟨code, message, none⟩

def idOf (record : ArchiveRecord) : JsValue := field record (js "id")

/-- The string ids of some records. -/
def stringIds (records : List ArchiveRecord) : List JsString :=
  records.filterMap fun record => asString (idOf record)

def hexByte (n : Nat) : JsString := [hexDigit (n / 16 % 16), hexDigit (n % 16)]

def mappedEntityId (workspaceId : JsString) (kind : ArchiveRecordKind) (sourceId : JsString) :
    JsString :=
  let digest := sha256Text <| (canonicalJson <| .object
    [(js "format", .string (js "trust-import-mapped-id-v1")), (js "workspaceId", .string workspaceId),
      (js "kind", .string kind.text), (js "sourceId", .string sourceId)]).getD []
  let nibble (i : Nat) : Nat := (hexValue (digest.getD i 48)).getD 0
  digest.take 8 ++ js "-" ++ (digest.drop 8).take 4 ++ js "-5" ++ (digest.drop 13).take 3 ++
    js "-" ++ hexByte ((nibble 16 * 16 + nibble 17) % 64 + 128) ++ (digest.drop 18).take 2 ++
    js "-" ++ (digest.drop 20).take 12

/-- The id under which a record of a scoped kind is imported. -/
def entityId (sourceWorkspaceId targetWorkspaceId : JsString) (kind : ArchiveRecordKind)
    (id : JsString) : JsString :=
  if sourceWorkspaceId = targetWorkspaceId then id else mappedEntityId targetWorkspaceId kind id

abbrev Mappings := ArchiveRecordKind → JsString → Option JsString

def scopedKinds : List ArchiveRecordKind :=
  [.datasets, .resources, .revisions, .revisionBlobs, .blobs, .relations, .tombstones, .retention]

/-- The maps as functions; a repeated id has one image. -/
def buildIdMappings (source : Records) (sourceWorkspaceId targetWorkspaceId : JsString) : Mappings :=
  fun kind id =>
    if kind = .workspaces then if id = sourceWorkspaceId then some targetWorkspaceId else none
    else if kind ∈ scopedKinds ∧ id ∈ stringIds (source kind) then
      some (entityId sourceWorkspaceId targetWorkspaceId kind id)
    else none

def mapReference (mapping : JsString → Option JsString) : JsValue → JsValue
  | .string s => .string ((mapping s).getD s)
  | v => v

def relationRecordKind (kind : JsValue) : Option ArchiveRecordKind :=
  if strictEq kind (.string (js "resource")) then some .resources
  else if strictEq kind (.string (js "revision")) then some .revisions
  else if strictEq kind (.string (js "blob")) then some .blobs
  else if strictEq kind (.string (js "relation")) then some .relations
  else if strictEq kind (.string (js "dataset")) then some .datasets
  else none

def mapRelationReference (mappings : Mappings) (kind value : JsValue) : JsValue :=
  match relationRecordKind kind with
  | some recordKind => mapReference (mappings recordKind) value
  | none => value

/-- `mapped[key] = mapReference(mapping, mapped[key])`. -/
def mapField (mapping : JsString → Option JsString) (key : JsString) (mapped : ArchiveRecord) :
    ArchiveRecord := setMember key (mapReference mapping (field mapped key)) mapped

/-- `mapped[key] = mapRelationReference(mappings, mapped[kindKey], mapped[key])`. -/
def mapEnd (mappings : Mappings) (kindKey key : JsString) (mapped : ArchiveRecord) :
    ArchiveRecord :=
  setMember key (mapRelationReference mappings (field mapped kindKey) (field mapped key)) mapped

def mapMergeParents (mappings : Mappings) (mapped : ArchiveRecord) : ArchiveRecord :=
  match field mapped (js "mergeParentRevisionIds") with
  | .array items =>
    setMember (js "mergeParentRevisionIds")
      (.array (items.map (mapReference (mappings .revisions)))) mapped
  | _ => mapped

def mapWorkspaceId (kind : ArchiveRecordKind) (sourceWorkspaceId targetWorkspaceId : JsString)
    (record : ArchiveRecord) : ArchiveRecord :=
  if kind ≠ .auditEvents ∧ strictEq (field record (js "workspaceId")) (.string sourceWorkspaceId) then
    setMember (js "workspaceId") (.string targetWorkspaceId) record
  else record

def mapRecord (kind : ArchiveRecordKind) (record : ArchiveRecord)
    (sourceWorkspaceId targetWorkspaceId : JsString) (mappings : Mappings) : ArchiveRecord :=
  let mapped := mapField (mappings kind) (js "id")
    (mapWorkspaceId kind sourceWorkspaceId targetWorkspaceId record)
  match kind with
  | .workspaces => mapped
  | .schemaPackages => mapped
  | .auditEvents => mapped
  | .retention => mapped
  | .datasets => mapField (mappings .retention) (js "retentionPolicyId") mapped
  | .resources =>
    mapField (mappings .revisions) (js "currentRevisionId")
      (mapField (mappings .datasets) (js "datasetId") mapped)
  | .revisions =>
    mapMergeParents mappings
      (mapField (mappings .revisions) (js "restoredFromRevisionId")
        (mapField (mappings .revisions) (js "parentRevisionId")
          (mapField (mappings .resources) (js "resourceId")
            (mapField (mappings .datasets) (js "datasetId") mapped))))
  | .revisionBlobs =>
    mapField (mappings .blobs) (js "blobObjectId")
      (mapField (mappings .revisions) (js "revisionId") mapped)
  | .blobs => mapped
  | .relations =>
    mapEnd mappings (js "targetKind") (js "targetId")
      (mapEnd mappings (js "sourceKind") (js "sourceId")
        (mapField (mappings .datasets) (js "datasetId") mapped))
  | .tombstones =>
    mapField (mappings .revisions) (js "priorRevisionId")
      (mapEnd mappings (js "subjectKind") (js "subjectId")
        (mapField (mappings .datasets) (js "datasetId") mapped))

def transformRecords (source : Records) (sourceWorkspaceId targetWorkspaceId : JsString) : Records :=
  fun kind => (source kind).map fun record =>
    mapRecord kind record sourceWorkspaceId targetWorkspaceId
      (buildIdMappings source sourceWorkspaceId targetWorkspaceId)

def requireId (ids : List JsString) (value : JsValue) (label : JsString) (allowAbsentKind : Bool) :
    List ArchiveIssue :=
  let missing := [planIssue (js "IMPORT_REFERENCE_INVALID")
    (label ++ js " does not exist in the archive.")]
  match value with
  | .string s => if !ids.contains s && !(allowAbsentKind && ids.isEmpty) then missing else []
  | _ => missing

def validateRelationEnd (kind id : JsValue) (ids : ArchiveRecordKind → List JsString)
    (side : JsString) : List ArchiveIssue :=
  if strictEq kind (.string (js "resource")) then
    requireId (ids .resources) id (js "relation " ++ side) false
  else if strictEq kind (.string (js "revision")) then
    requireId (ids .revisions) id (js "relation " ++ side) false
  else if strictEq kind (.string (js "blob")) then
    requireId (ids .blobs) id (js "relation " ++ side) false
  else if strictEq kind (.string (js "external")) then []
  else [planIssue (js "IMPORT_RELATION_INVALID") (js "Relation " ++ side ++ js " kind is invalid.")]

def validateWorkspace (workspaceId : JsString) (kind : ArchiveRecordKind) (record : ArchiveRecord) :
    List ArchiveIssue :=
  if kind ≠ .auditEvents ∧ (record.lookup (js "workspaceId")).isSome ∧
      !strictEq (field record (js "workspaceId")) (.string workspaceId) then
    [planIssue (js "IMPORT_WORKSPACE_MISMATCH") (kind.text ++ js " crosses workspace boundary.")]
  else []

def validateDataset (ids : ArchiveRecordKind → List JsString) (dataset : ArchiveRecord) :
    List ArchiveIssue :=
  requireId (ids .schemaPackages) (field dataset (js "schemaPackageId"))
    (js "dataset schema package") true

def validateResource (ids : ArchiveRecordKind → List JsString) (resource : ArchiveRecord) :
    List ArchiveIssue :=
  requireId (ids .datasets) (field resource (js "datasetId")) (js "resource dataset") false ++
    if isNullish (field resource (js "currentRevisionId")) then []
    else requireId (ids .revisions) (field resource (js "currentRevisionId"))
      (js "resource current revision") false

/-- `parent.resourceId !== revision.resourceId ||
    Number(parent.revisionNumber) >= Number(revision.revisionNumber)`. -/
def parentInvalid (parent revision : ArchiveRecord) : Option Bool :=
  if !strictEq (field parent (js "resourceId")) (field revision (js "resourceId")) then some true
  else
    match toNumber (field parent (js "revisionNumber")),
      toNumber (field revision (js "revisionNumber")) with
    | some parentNumber, some number => some (numberLe number parentNumber)
    | _, _ => none

def validateParent (revisions : List ArchiveRecord) (revision : ArchiveRecord) :
    Option (List ArchiveIssue) :=
  match field revision (js "parentRevisionId") with
  | .string parentId =>
    match revisions.reverse.find? fun record => strictEq (idOf record) (.string parentId) with
    | none => some [planIssue (js "IMPORT_REFERENCE_INVALID") (js "Revision parent does not exist.")]
    | some parent => (parentInvalid parent revision).map fun invalid =>
        if invalid then [planIssue (js "IMPORT_REVISION_PARENT_INVALID")
          (js "Revision parent ordering or ownership is invalid.")]
        else []
  | _ => some []

/-- The resource and number under which a revision is looked up for duplicates. -/
def numberKey (revision : ArchiveRecord) : Option (JsString × JsNumber) :=
  match field revision (js "resourceId"), field revision (js "revisionNumber") with
  | .string resourceId, .number n => some (resourceId, n)
  | _, _ => none

def validateNumber (seen : List (JsString × JsNumber)) (revision : ArchiveRecord) :
    List ArchiveIssue :=
  match numberKey revision with
  | some key =>
    if seen.contains key then
      [planIssue (js "IMPORT_REVISION_NUMBER_CONFLICT")
        (js "Revision number is duplicated for a resource.")]
    else []
  | none => []

def validateRevision (ids : ArchiveRecordKind → List JsString) (revision : ArchiveRecord) :
    List ArchiveIssue :=
  requireId (ids .resources) (field revision (js "resourceId")) (js "revision resource") false ++
    requireId (ids .datasets) (field revision (js "datasetId")) (js "revision dataset") false ++
    requireId (ids .schemaPackages) (field revision (js "schemaPackageId"))
      (js "revision schema package") true

/-- The loop over the revisions, with the numbers seen so far. -/
def validateRevisions (ids : ArchiveRecordKind → List JsString) (revisions : List ArchiveRecord) :
    List (JsString × JsNumber) → List ArchiveRecord → Option (List ArchiveIssue)
  | _, [] => some []
  | seen, revision :: rest =>
    match validateParent revisions revision,
      validateRevisions ids revisions ((numberKey revision).toList ++ seen) rest with
    | some parent, some later =>
      some (validateRevision ids revision ++ validateNumber seen revision ++ parent ++ later)
    | _, _ => none

def validateAttachment (ids : ArchiveRecordKind → List JsString) (attachment : ArchiveRecord) :
    List ArchiveIssue :=
  requireId (ids .revisions) (field attachment (js "revisionId"))
      (js "revision attachment revision") false ++
    requireId (ids .blobs) (field attachment (js "blobObjectId"))
      (js "revision attachment blob") false

def validateRelation (ids : ArchiveRecordKind → List JsString) (relation : ArchiveRecord) :
    List ArchiveIssue :=
  validateRelationEnd (field relation (js "sourceKind")) (field relation (js "sourceId")) ids
      (js "source") ++
    validateRelationEnd (field relation (js "targetKind")) (field relation (js "targetId")) ids
      (js "target")

def tombstoneSubjectKind (kind : JsValue) : Option ArchiveRecordKind :=
  if strictEq kind (.string (js "resource")) then some .resources
  else if strictEq kind (.string (js "dataset")) then some .datasets
  else if strictEq kind (.string (js "relation")) then some .relations
  else none

def validateTombstone (ids : ArchiveRecordKind → List JsString) (tombstone : ArchiveRecord) :
    List ArchiveIssue :=
  (match tombstoneSubjectKind (field tombstone (js "subjectKind")) with
    | none =>
      [planIssue (js "IMPORT_TOMBSTONE_INVALID") (js "Tombstone subject kind is invalid.")]
    | some targetKind =>
      requireId (ids targetKind) (field tombstone (js "subjectId")) (js "tombstone subject") false) ++
    match field tombstone (js "priorRevisionId") with
    | .string s => requireId (ids .revisions) (.string s) (js "tombstone prior revision") false
    | _ => []

def validateGraph (records : Records) (workspaceId : JsString) : Option (List ArchiveIssue) :=
  let ids := fun kind => stringIds (records kind)
  (validateRevisions ids (records .revisions) [] (records .revisions)).map fun revisions =>
    archiveRecordKinds.flatMap (fun kind => (records kind).flatMap (validateWorkspace workspaceId kind)) ++
      (records .datasets).flatMap (validateDataset ids) ++
      (records .resources).flatMap (validateResource ids) ++ revisions ++
      (records .revisionBlobs).flatMap (validateAttachment ids) ++
      (records .relations).flatMap (validateRelation ids) ++
      (records .tombstones).flatMap (validateTombstone ids)

def validateRetention (retentionIds : List JsString) (dataset : ArchiveRecord) : List ArchiveIssue :=
  match field dataset (js "retentionPolicyId") with
  | .string s =>
    if retentionIds.contains s then []
    else [planIssue (js "IMPORT_RETENTION_POLICY_UNAVAILABLE")
      (js "Dataset retention policy is not durably represented in the archive: " ++ s)]
  | _ => []

def validateRetentionAssignments (records : Records) : List ArchiveIssue :=
  (records .datasets).flatMap (validateRetention (stringIds (records .retention)))

def sameSchema (candidate schema : ArchiveRecord) : Bool :=
  [js "namespace", js "name", js "semanticVersion"].all fun key =>
    strictEq (field candidate key) (field schema key)

def validateSchemaConflicts (records : Records) (target : List ArchiveRecord) : List ArchiveIssue :=
  (records .schemaPackages).flatMap fun schema =>
    match target.find? fun candidate => sameSchema candidate schema with
    | some candidate =>
      if strictEq (field candidate (js "schemaDigest")) (field schema (js "schemaDigest")) then []
      else [planIssue (js "IMPORT_SCHEMA_CONFLICT")
        (js "Schema identity exists with a different digest.")]
    | none => []

/-- A retention record without an id goes by the digest of its text. -/
def recordId (record : ArchiveRecord) (kind : ArchiveRecordKind) : Option JsString :=
  match idOf record with
  | .string (u :: s) => some (u :: s)
  | _ => if kind = .retention then (canonicalJson (.object record)).map sha256Text else none

def relationKind (value : JsValue) : ArchiveRecordKind :=
  if strictEq value (.string (js "revision")) then .revisions
  else if strictEq value (.string (js "blob")) then .blobs
  else .resources

def dependency (kind : ArchiveRecordKind) (value : JsValue) : List JsString :=
  match value with
  | .string s => [kind.text ++ js ":" ++ s]
  | _ => []

def dependencies (kind : ArchiveRecordKind) (record : ArchiveRecord) : List JsString :=
  let add (dependencyKind : ArchiveRecordKind) (key : JsString) :=
    dependency dependencyKind (field record key)
  let values :=
    match kind with
    | .datasets => add .schemaPackages (js "schemaPackageId")
    | .resources => add .datasets (js "datasetId")
    | .revisions =>
      add .resources (js "resourceId") ++ add .datasets (js "datasetId") ++
        add .schemaPackages (js "schemaPackageId") ++ add .revisions (js "parentRevisionId")
    | .revisionBlobs => add .revisions (js "revisionId") ++ add .blobs (js "blobObjectId")
    | .relations =>
      add (relationKind (field record (js "sourceKind"))) (js "sourceId") ++
        add (relationKind (field record (js "targetKind"))) (js "targetId")
    | .tombstones => add .revisions (js "priorRevisionId")
    | _ => []
  values.dedup.insertionSort fun a b => unitsLe a b = true

/-- What reading a plain object by a key finds. -/
inductive Existing where
  | absent
  | inherited
  | record (r : ArchiveRecord)

/-- The methods every plain object inherits. -/
def objectMethods : List JsString :=
  [js "constructor", js "hasOwnProperty", js "isPrototypeOf", js "propertyIsEnumerable",
    js "toLocaleString", js "toString", js "valueOf", js "__defineGetter__", js "__defineSetter__",
    js "__lookupGetter__", js "__lookupSetter__"]

def ArchiveImportInventory.find (target : ArchiveImportInventory) (kind : ArchiveRecordKind)
    (id : JsString) : Existing :=
  match target.records kind with
  | none => .absent
  | some index =>
    match index.lookup id with
    | some r => .record r
    | none =>
      if id ∈ objectMethods then .inherited
      else if id = js "__proto__" then .record []
      else .absent

/-- The disposition of one record; `none` when a canonical text does not exist. -/
def dispositionOf (mode : ArchiveImportMode) (kind : ArchiveRecordKind) (record : ArchiveRecord) :
    Existing → Option Disposition
  | .absent => some .insert
  | existing =>
    if kind = .workspaces ∧ mode = .mappedWorkspace then some .alreadyPresent
    else
      match existing with
      | .record r =>
        match canonicalJson (.object r), canonicalJson (.object record) with
        | some old, some new => some (if old = new then .alreadyPresent else .blocked)
        | _, _ => none
      | _ => none

def planRecord (request : ArchiveImportRequest) (kind : ArchiveRecordKind)
    (pair : ArchiveRecord × ArchiveRecord) : Option (ArchiveImportAction × List ArchiveIssue) := do
  let sourceId ← recordId pair.1 kind
  let transformedId ← recordId pair.2 kind
  let disposition ← dispositionOf request.mode kind pair.2 (request.target.find kind transformedId)
  let action : ArchiveImportAction :=
    { index := 0, phase := phases (.record kind), kind := .record kind,
      sourceId := if kind = .workspaces ∧ request.mode = .mappedWorkspace then
          request.archive.manifest.workspaceId else sourceId,
      targetId := transformedId, disposition, record := some pair.2,
      dependsOn := dependencies kind pair.2 }
  return (action, if disposition = .blocked then
    [planIssue (js "IMPORT_ID_CONFLICT")
      (kind.text ++ js " ID already exists with different content: " ++ transformedId)] else [])

/-- `none` inside is a record without a digest, which is passed over. -/
def planBytes (request : ArchiveImportRequest) (record : ArchiveRecord) :
    Option (Option ArchiveImportAction) :=
  match field record (js "sha256") with
  | .string digest => (recordId record .blobs).map fun blobId => some
      { index := 0, phase := phases .blobBytes, kind := .blobBytes, sourceId := digest,
        targetId := digest,
        disposition := if digest ∈ request.target.blobDigests then .alreadyPresent else .insert,
        record := none, dependsOn := [js "blobs:" ++ blobId] }
  | _ => some none

/-- `left.localeCompare(right) < 0`, of the order `localeLe`. -/
def localeLt (localeLe : JsString → JsString → Bool) (a b : JsString) : Bool :=
  localeLe a b && !localeLe b a

/-- `compareActions(left, right) <= 0`. -/
def actionLe (localeLe : JsString → JsString → Bool) (left right : ArchiveImportAction) : Bool :=
  decide (left.phase < right.phase) || (left.phase == right.phase &&
    (localeLt localeLe left.kind.text right.kind.text ||
      (localeLe left.kind.text right.kind.text && localeLe left.targetId right.targetId)))

/-- The part of an action that its plan is identified by. -/
def actionIdentity (action : ArchiveImportAction) : Option JsValue := do
  let recordHash ← match action.record with
    | none => some []
    | some record => (canonicalJson (.object record)).map fun text =>
        [(js "recordHash", JsValue.string (sha256Text text))]
  return .object ([(js "phase", numberOf action.phase), (js "kind", .string action.kind.text),
    (js "sourceId", .string action.sourceId), (js "targetId", .string action.targetId),
    (js "dependsOn", .array (action.dependsOn.map .string))] ++ recordHash)

def calculateArchiveImportPlanId (manifest : TrustArchiveManifest)
    (sourceWorkspaceId targetWorkspaceId : JsString) (mode : ArchiveImportMode)
    (conflictMode : ArchiveConflictMode) (actions : List ArchiveImportAction) : Option JsString := do
  let manifestText ← canonicalJson manifest.value
  let identities ← actions.mapM actionIdentity
  let text ← canonicalJson (.object
    [(js "format", .string (js "trust-import-plan-v1")),
      (js "archiveExportId", .string manifest.exportId),
      (js "archiveManifestHash", .string (sha256Text manifestText)),
      (js "sourceWorkspaceId", .string sourceWorkspaceId),
      (js "targetWorkspaceId", .string targetWorkspaceId), (js "mode", .string mode.text),
      (js "conflictMode", .string conflictMode.text), (js "actions", .array identities)])
  return sha256Text text

/-- The workspace asked for, before it is known to be one. -/
def requestedWorkspace (request : ArchiveImportRequest) : JsString :=
  match request.mode with
  | .mappedWorkspace => (request.target.workspaceId.map trim).getD []
  | .preserveIds => request.archive.manifest.workspaceId

/-- `targetWorkspaceId || sourceWorkspaceId`. -/
def mappedWorkspaceId (request : ArchiveImportRequest) : JsString :=
  if requestedWorkspace request = [] then request.archive.manifest.workspaceId
  else requestedWorkspace request

def requestIssues (request : ArchiveImportRequest) : List ArchiveIssue :=
  (if request.archive.verification.valid then []
    else [planIssue (js "IMPORT_ARCHIVE_INVALID")
      (js "Archive verification must pass before import planning.")]) ++
  (if requestedWorkspace request ≠ [] then []
    else [planIssue (js "IMPORT_TARGET_WORKSPACE_REQUIRED")
      (js "Mapped-workspace import requires a target workspace ID.")]) ++
  (if request.mode = .preserveIds ∧ request.target.workspaceId.getD [] ≠ [] ∧
      request.target.workspaceId ≠ some request.archive.manifest.workspaceId then
      [planIssue (js "IMPORT_WORKSPACE_MODE_CONFLICT")
        (js "Preserve-ID import cannot substitute a workspace ID.")]
    else [])

def transformed (request : ArchiveImportRequest) : Records :=
  transformRecords request.archive.verification.records request.archive.manifest.workspaceId
    (mappedWorkspaceId request)

def schemaInventory (target : ArchiveImportInventory) : List ArchiveRecord :=
  ((target.records .schemaPackages).getD []).map Prod.snd

def planRecords (request : ArchiveImportRequest) :
    Option (List (ArchiveImportAction × List ArchiveIssue)) :=
  (archiveRecordKinds.mapM fun kind =>
    ((request.archive.verification.records kind).zip (transformed request kind)).mapM
      (planRecord request kind)).map List.flatten

/-- `actions.map(…)` after the sort: the position, and no inserts in a rejected plan. -/
def indexActions (blockedByGlobalError : Bool) (actions : List ArchiveImportAction) :
    List ArchiveImportAction :=
  actions.zipIdx.map fun p =>
    { p.1 with
      index := p.2
      disposition := if blockedByGlobalError && p.1.disposition == .insert then .blocked
        else p.1.disposition }

def planArchiveImport (localeLe : JsString → JsString → Bool) (request : ArchiveImportRequest) :
    Option ArchiveImportPlan := do
  let sourceWorkspaceId := request.archive.manifest.workspaceId
  let graphIssues ← validateGraph (transformed request) (mappedWorkspaceId request)
  let planned ← planRecords request
  let bytes ← (transformed request .blobs).mapM (planBytes request)
  let issues := requestIssues request ++ graphIssues ++
    validateRetentionAssignments (transformed request) ++
    validateSchemaConflicts (transformed request) (schemaInventory request.target) ++
    planned.flatMap Prod.snd
  let sorted := (planned.map Prod.fst ++ bytes.reduceOption).insertionSort
    fun a b => actionLe localeLe a b = true
  let indexed := indexActions
    (request.conflictMode == .rejectOnError && !issues.isEmpty) sorted
  let planId ← calculateArchiveImportPlanId request.archive.manifest sourceWorkspaceId
    (mappedWorkspaceId request) request.mode request.conflictMode indexed
  return {
    planId, archiveExportId := request.archive.manifest.exportId, sourceWorkspaceId,
    targetWorkspaceId := mappedWorkspaceId request, mode := request.mode,
    conflictMode := request.conflictMode,
    status := match request.conflictMode with
      | .reportOnly => .reportOnly
      | .rejectOnError => if issues.isEmpty then .ready else .rejected
    issues, actions := indexed,
    counts := fun disposition => (indexed.filter fun action =>
      action.disposition == disposition).length }

end TrustCore.ImportPlan
