import TrustCore.AuditChain
import TrustCore.History
import TrustCore.ObjectIngest
import TrustCore.SchemaRegistry
import TrustCore.SchemaValidation

/-!
# Verification runs

`BlobVerificationService` checks the blobs of a workspace against the storage,
`StructuralVerificationService` what the catalog has of a workspace, a dataset or a resource. Each
check gives issues; a run that has none has passed.
-/

namespace TrustCore.Verification

open TrustCore.Utf TrustCore.Numbers TrustCore.Json TrustCore.Columns TrustCore.Sha256
open TrustCore.AuditChain TrustCore.SchemaPackages TrustCore.SchemaValidation
open TrustCore.History (Resource Revision Tombstone)
open TrustCore.ObjectIngest (BlobObject VerificationState)
open TrustCore.SchemaRegistry (PackageStatus)

/-! ## Issues and runs -/

inductive Severity where
  | warning
  | error
  | critical
  deriving DecidableEq

inductive IssueSubject where
  | blob
  | resource
  | revision
  | relation
  | dataset
  | workspace
  | storage
  deriving DecidableEq

inductive Detail where
  | text (value : JsString)
  | number (value : Nat)
  deriving DecidableEq

/-- What was expected and what was there. -/
structure Difference where
  expected : Detail
  actual : Option Detail
  deriving DecidableEq

structure VerificationIssue where
  code : JsString
  severity : Severity
  subjectKind : IssueSubject
  subjectId : JsString
  message : JsString
  difference : Option Difference
  deriving DecidableEq

def issue (code : String) (severity : Severity) (subjectKind : IssueSubject) (subjectId : JsString)
    (message : String) : VerificationIssue :=
  ⟨js code, severity, subjectKind, subjectId, js message, none⟩

def VerificationIssue.comparing (found : VerificationIssue) (expected actual : Detail) :
    VerificationIssue :=
  { found with difference := some ⟨expected, some actual⟩ }

inductive VerificationLevel where
  | metadata
  | fullBlob
  | resource
  | dataset
  | workspace
  deriving DecidableEq

inductive ScopeKind where
  | workspace
  | dataset
  | resource
  | blob
  deriving DecidableEq

structure VerificationScope where
  kind : ScopeKind
  id : JsString

inductive VerificationStatus where
  | passed
  | failed
  | degraded
  deriving DecidableEq

structure VerificationRun where
  id : JsString
  workspaceId : JsString
  level : VerificationLevel
  scope : VerificationScope
  status : VerificationStatus
  startedAt : JsString
  completedAt : JsString
  objectsChecked : Nat
  bytesRead : Nat
  issues : List VerificationIssue

def statusOf (issues : List VerificationIssue) : VerificationStatus :=
  if issues.any fun found => found.severity = .critical ∨ found.severity = .error then .failed
  else if issues.isEmpty then .passed
  else .degraded

/-- The id and the times that a run takes from its surroundings. -/
structure RunDraw where
  id : JsString
  startedAt : JsString
  completedAt : JsString

/-- A run, and the states that it sets on blobs before it records itself. -/
structure Outcome where
  run : VerificationRun
  blobStates : List (JsString × VerificationState)

/-! ## Blobs -/

structure HeadMetadata where
  key : JsString
  byteLength : Nat
  sha256 : Option JsString

/-- What the storage answers; an error that is not an `Error` has no message, and a stream that
fails has given some bytes before. -/
structure BlobStorage where
  head : JsString → Except (Option JsString) HeadMetadata
  openReadStream : JsString → Bytes × Option (Option JsString)

inductive BlobLevel where
  | metadata
  | fullBlob
  deriving DecidableEq

def BlobLevel.level : BlobLevel → VerificationLevel
  | .metadata => .metadata
  | .fullBlob => .fullBlob

structure BlobResult where
  blobId : JsString
  level : BlobLevel
  passed : Bool
  bytesRead : Nat
  issues : List VerificationIssue

def BlobResult.state (result : BlobResult) : JsString × VerificationState :=
  (result.blobId, if result.passed then .verified else .failed)

def blobIssue (blob : BlobObject) (code : String) (severity : Severity) (message : String)
    (expected actual : Detail) : VerificationIssue :=
  (issue code severity .blob blob.id message).comparing expected actual

def headIssues (blob : BlobObject) (metadata : HeadMetadata) : List VerificationIssue :=
  (if metadata.key ≠ blob.storageKey then
    [blobIssue blob "STORAGE_KEY_MISMATCH" .error "Storage returned a different object key."
      (.text blob.storageKey) (.text metadata.key)]
  else []) ++
  (if metadata.byteLength ≠ blob.byteLength then
    [blobIssue blob "BLOB_LENGTH_MISMATCH" .critical
      "Stored byte length differs from canonical metadata."
      (.number blob.byteLength) (.number metadata.byteLength)]
  else []) ++
  match metadata.sha256 with
  | none => []
  | some stored =>
    if !stored.isEmpty && stored != blob.sha256 then
      [blobIssue blob "STORED_HASH_METADATA_MISMATCH" .critical
        "Storage hash metadata differs from the canonical hash."
        (.text blob.sha256) (.text stored)]
    else []

def streamIssues (blob : BlobObject) (bytes : Bytes) : List VerificationIssue :=
  (if bytes.length ≠ blob.byteLength then
    [blobIssue blob "FULL_LENGTH_MISMATCH" .critical
      "Streamed byte count differs from canonical metadata."
      (.number blob.byteLength) (.number bytes.length)]
  else []) ++
  if Sha256.sha256 bytes ≠ blob.sha256 then
    [blobIssue blob "FULL_HASH_MISMATCH" .critical
      "Streamed SHA-256 differs from the canonical hash."
      (.text blob.sha256) (.text (Sha256.sha256 bytes))]
  else []

section Blobs

variable (storage : BlobStorage)

def verifyBlob (blob : BlobObject) (level : BlobLevel) : BlobResult :=
  match storage.head blob.storageKey with
  | .error message =>
    ⟨blob.id, level, false, 0,
      [⟨js "BLOB_MISSING_OR_INACCESSIBLE", .critical, .blob, blob.id,
        message.getD (js "Canonical object is missing or inaccessible."),
        some ⟨.text blob.storageKey, none⟩⟩]⟩
  | .ok metadata =>
    let issues := headIssues blob metadata
    match level with
    | .metadata => ⟨blob.id, level, issues.isEmpty, 0, issues⟩
    | .fullBlob =>
      match storage.openReadStream blob.storageKey with
      | (bytes, some message) =>
        ⟨blob.id, level, false, bytes.length, issues ++
          [⟨js "BLOB_STREAM_FAILED", .critical, .storage, blob.id,
            message.getD (js "Object stream failed."),
            some ⟨.number blob.byteLength, some (.number bytes.length)⟩⟩]⟩
      | (bytes, none) =>
        let issues := issues ++ streamIssues blob bytes
        ⟨blob.id, level, issues.isEmpty, bytes.length, issues⟩

/-- `BlobVerificationService.run` over the blobs of a workspace. -/
def runBlobs (draw : RunDraw) (workspaceId : JsString) (level : BlobLevel) (workspaceExists : Bool)
    (blobs : List BlobObject) : Except JsString Outcome :=
  if !workspaceExists then .error (js "Verification workspace was not found.")
  else
    let results := blobs.map fun blob => verifyBlob storage blob level
    let issues :=
      if blobs.isEmpty then
        [issue "NO_OBJECTS_CHECKED" .warning .workspace workspaceId
          ("No catalogued blobs exist in this workspace; verification cannot pass without " ++
            "checking an object.")]
      else results.flatMap (·.issues)
    .ok
      { run :=
          { id := draw.id
            workspaceId := workspaceId
            level := level.level
            scope := ⟨.workspace, workspaceId⟩
            status := statusOf issues
            startedAt := draw.startedAt
            completedAt := draw.completedAt
            objectsChecked := results.length
            bytesRead := (results.map (·.bytesRead)).sum
            issues := issues }
        blobStates := results.map (·.state) }

end Blobs

/-! ## Snapshots -/

structure Dataset where
  id : JsString
  schemaPackageId : JsString

inductive EndpointKind where
  | resource
  | revision
  | blob
  | external
  deriving DecidableEq

def EndpointKind.text : EndpointKind → JsString
  | .resource => js "resource"
  | .revision => js "revision"
  | .blob => js "blob"
  | .external => js "external"

structure Relation where
  id : JsString
  datasetId : JsString
  sourceKind : EndpointKind
  sourceId : JsString
  targetKind : EndpointKind
  targetId : JsString

structure RevisionBlobReference where
  id : JsString
  revisionId : JsString
  blobObjectId : JsString

structure SchemaPackageRow where
  id : JsString
  version : JsString
  manifest : SchemaPackageManifest
  status : PackageStatus

structure Snapshot where
  workspaceExists : Bool
  datasets : List Dataset
  resources : List Resource
  revisions : List Revision
  blobs : List BlobObject
  revisionBlobs : List RevisionBlobReference
  relations : List Relation
  tombstones : List Tombstone
  auditEvents : List ChainedAuditEvent
  schemaPackages : List SchemaPackageRow

structure SelectedScope where
  datasets : List Dataset
  resources : List Resource
  revisions : List Revision
  relations : List Relation
  tombstones : List Tombstone
  scopeIssues : List VerificationIssue

def emptySelection (scopeIssue : VerificationIssue) : SelectedScope := ⟨[], [], [], [], [], [scopeIssue]⟩

def selectScope (snapshot : Snapshot) (scope : VerificationScope) : SelectedScope :=
  if !snapshot.workspaceExists then
    emptySelection (issue "SCOPE_NOT_FOUND" .critical .workspace scope.id
      "Workspace scope does not exist.")
  else
    match scope.kind with
    | .workspace =>
      ⟨snapshot.datasets, snapshot.resources, snapshot.revisions, snapshot.relations,
        snapshot.tombstones, []⟩
    | .dataset =>
      match snapshot.datasets.find? (·.id == scope.id) with
      | none =>
        emptySelection (issue "SCOPE_NOT_FOUND" .critical .dataset scope.id
          "Dataset scope does not exist in the workspace.")
      | some dataset =>
        ⟨[dataset], snapshot.resources.filter (·.datasetId == scope.id),
          snapshot.revisions.filter (·.datasetId == scope.id),
          snapshot.relations.filter (·.datasetId == scope.id),
          snapshot.tombstones.filter (·.datasetId == scope.id), []⟩
    | .resource =>
      match snapshot.resources.find? (·.id == scope.id) with
      | none =>
        emptySelection (issue "SCOPE_NOT_FOUND" .critical .resource scope.id
          "Resource scope does not exist in the workspace.")
      | some resource =>
        ⟨snapshot.datasets.filter (·.id == resource.datasetId), [resource],
          snapshot.revisions.filter (·.resourceId == resource.id),
          snapshot.relations.filter fun relation =>
            relation.sourceId == resource.id || relation.targetId == resource.id,
          snapshot.tombstones.filter fun tombstone =>
            tombstone.subjectKind = .resource ∧ tombstone.subjectId = resource.id, []⟩
    | .blob =>
      emptySelection (issue "SCOPE_KIND_INVALID" .critical .blob scope.id
        "Structural verification does not accept a blob scope.")

/-- The rows of a workspace, which a run over it selects. -/
def wholeSelection (snapshot : Snapshot) : SelectedScope :=
  ⟨snapshot.datasets, snapshot.resources, snapshot.revisions, snapshot.relations,
    snapshot.tombstones, []⟩

theorem selectScope_workspace (snapshot : Snapshot) {resolved : VerificationScope}
    (h : resolved.kind = .workspace) :
    selectScope snapshot resolved =
      if snapshot.workspaceExists then wholeSelection snapshot
      else emptySelection (issue "SCOPE_NOT_FOUND" .critical .workspace resolved.id
        "Workspace scope does not exist.") := by
  simp only [selectScope, h, wholeSelection]
  cases snapshot.workspaceExists with
  | true => rfl
  | false => rfl

/-! ## Checks of one entity -/

def datasetIssues (packages : List SchemaPackageRow) (dataset : Dataset) : List VerificationIssue :=
  match packages.find? (·.id == dataset.schemaPackageId) with
  | none =>
    [issue "DATASET_SCHEMA_PACKAGE_MISSING" .critical .dataset dataset.id
      "Dataset schema package does not resolve."]
  | some package =>
    match package.status with
    | .revoked =>
      [issue "DATASET_SCHEMA_PACKAGE_REVOKED" .error .dataset dataset.id
        "Dataset uses a revoked schema package."]
    | _ => []

def natText (n : Nat) : JsString := (decimalDigits n).map digitUnit

def graphIssue (resource : Resource) (code : String) (message : JsString) : VerificationIssue :=
  ⟨js code, .critical, .resource, resource.id, message, none⟩

/-- `byId.get(id)` of a map that was filled in order. -/
def lastById (revisions : List Revision) (id : JsString) : Option Revision :=
  revisions.reverse.find? (·.id == id)

/-- What the graph of a resource says of one of its revisions, after those before it. -/
def revisionGraphIssues (resource : Resource) (own : List Revision) (numbers : List Nat)
    (revision : Revision) : List VerificationIssue :=
  (if revision.workspaceId ≠ resource.workspaceId ∨ revision.datasetId ≠ resource.datasetId then
    [graphIssue resource "REVISION_SCOPE_MISMATCH"
      (js "Revision " ++ revision.id ++ js " crosses resource scope.")]
  else []) ++
  (if revision.revisionNumber ∈ numbers then
    [graphIssue resource "REVISION_NUMBER_DUPLICATE"
      (js "Revision number " ++ natText revision.revisionNumber ++ js " is duplicated.")]
  else []) ++
  (if revision.revisionNumber = 1 ∧ revision.parentRevisionId.isSome then
    [graphIssue resource "FIRST_REVISION_HAS_PARENT" (js "Revision 1 must not have a parent.")]
  else []) ++
  if 1 < revision.revisionNumber then
    match (truthy revision.parentRevisionId).bind (lastById own) with
    | none =>
      [graphIssue resource "REVISION_PARENT_MISSING"
        (js "Revision " ++ revision.id ++ js " has no resolvable parent.")]
    | some parent =>
      if revision.revisionNumber ≤ parent.revisionNumber then
        [graphIssue resource "REVISION_PARENT_ORDER_INVALID"
          (js "Revision " ++ revision.id ++ js " does not follow its parent.")]
      else []
  else []

def revisionsGraphIssues (resource : Resource) (own : List Revision) :
    List Nat → List Revision → List VerificationIssue
  | _, [] => []
  | numbers, revision :: revisions =>
    revisionGraphIssues resource own numbers revision ++
      revisionsGraphIssues resource own (revision.revisionNumber :: numbers) revisions

def verifyResourceGraph (resource : Resource) (revisions : List Revision) :
    List VerificationIssue :=
  let own := revisions.filter (·.resourceId == resource.id)
  (if (truthy resource.currentRevisionId).any fun id => (lastById own id).isNone then
    [graphIssue resource "CURRENT_REVISION_MISSING"
      (js "Current revision pointer does not resolve.")]
  else []) ++
  revisionsGraphIssues resource own [] own

/-- `code.toUpperCase()` after its prefix. -/
def schemaCode : IssueCode → JsString
  | .unknownResourceType => js "SCHEMA_UNKNOWN_RESOURCE_TYPE"
  | .missingRequiredField => js "SCHEMA_MISSING_REQUIRED_FIELD"
  | .invalidFieldType => js "SCHEMA_INVALID_FIELD_TYPE"
  | .invalidFormat => js "SCHEMA_INVALID_FORMAT"
  | .unknownField => js "SCHEMA_UNKNOWN_FIELD"

def schemaIssue (revision : Revision) (found : ValidationIssue) : VerificationIssue :=
  ⟨schemaCode found.code, .error, .revision, revision.id,
    found.path ++ js ": " ++ found.message, none⟩

section Schema

variable (isDate isUrl : JsString → Bool)

/-- The checks of `verifySchema` before it looks at the payload. -/
def packageIssues (revision : Revision) (dataset : Option Dataset) (package : SchemaPackageRow) :
    List VerificationIssue :=
  (match dataset with
    | none => []
    | some dataset =>
      if revision.schemaPackageId ≠ dataset.schemaPackageId then
        [(issue "REVISION_DATASET_SCHEMA_MISMATCH" .critical .revision revision.id
          "Revision schema package differs from its dataset schema package.").comparing
            (.text dataset.schemaPackageId) (.text revision.schemaPackageId)]
      else []) ++
  (if package.version ≠ revision.schemaVersion then
    [(issue "SCHEMA_VERSION_MISMATCH" .critical .revision revision.id
      "Revision schema version differs from its package.").comparing
        (.text package.version) (.text revision.schemaVersion)]
  else []) ++
  match package.status with
  | .revoked =>
    [issue "SCHEMA_PACKAGE_REVOKED" .error .revision revision.id
      "Revision uses a revoked schema package."]
  | _ => []

def verifySchema (resource : Resource) (revision : Revision) (dataset : Option Dataset)
    (packages : List SchemaPackageRow) : List VerificationIssue :=
  match packages.find? (·.id == revision.schemaPackageId) with
  | none =>
    [issue "SCHEMA_PACKAGE_MISSING" .critical .revision revision.id
      "Revision schema package does not resolve."]
  | some package =>
    packageIssues revision dataset package ++
      (validateResourcePayload isDate isUrl package.manifest resource.resourceType
        revision.canonicalPayload.members).issues.map (schemaIssue revision)

end Schema

def endpointExists (snapshot : Snapshot) (datasetId : JsString) (kind : EndpointKind)
    (id : JsString) : Bool :=
  match kind with
  | .resource => snapshot.resources.any fun r => r.id == id && r.datasetId == datasetId
  | .revision => snapshot.revisions.any fun r => r.id == id && r.datasetId == datasetId
  | .blob => snapshot.blobs.any (·.id == id)
  | .external => !id.isEmpty

def endpointIssues (snapshot : Snapshot) (relation : Relation) (side : String)
    (kind : EndpointKind) (id : JsString) : List VerificationIssue :=
  if endpointExists snapshot relation.datasetId kind id then []
  else
    [⟨js "RELATION_ENDPOINT_MISSING", .critical, .relation, relation.id,
      js "Relation " ++ js side ++ js " " ++ kind.text ++ js " endpoint does not resolve.", none⟩]

def verifyRelation (relation : Relation) (snapshot : Snapshot) : List VerificationIssue :=
  endpointIssues snapshot relation "source" relation.sourceKind relation.sourceId ++
    endpointIssues snapshot relation "target" relation.targetKind relation.targetId

def tombstoneTargetExists (tombstone : Tombstone) (snapshot : Snapshot) : Bool :=
  match tombstone.subjectKind with
  | .dataset => snapshot.datasets.any (·.id == tombstone.subjectId)
  | .resource => snapshot.resources.any (·.id == tombstone.subjectId)
  | .relation => snapshot.relations.any (·.id == tombstone.subjectId)

def subjectOf : History.SubjectKind → IssueSubject
  | .dataset => .dataset
  | .resource => .resource
  | .relation => .relation

/-- `recoverUntil < deletedAt`, two texts. -/
def precedesDeletion (tombstone : Tombstone) : Bool :=
  tombstone.recoverUntil.any fun recoverUntil =>
    !unitsLe (toISOString tombstone.deletedAt) (toISOString recoverUntil)

def statusMismatch (tombstone : Tombstone) (snapshot : Snapshot) : Option Resource :=
  if tombstone.subjectKind = .resource then
    (snapshot.resources.find? (·.id == tombstone.subjectId)).filter fun resource =>
      tombstone.purgeState ≠ .purged ∧ resource.status ≠ .deletedLogically
  else none

def verifyTombstone (tombstone : Tombstone) (snapshot : Snapshot) : List VerificationIssue :=
  (if !tombstoneTargetExists tombstone snapshot ∧ tombstone.purgeState ≠ .purged then
    [issue "TOMBSTONE_SUBJECT_MISSING" .critical (subjectOf tombstone.subjectKind)
      tombstone.subjectId "Unpurged tombstone subject does not resolve."]
  else []) ++
  (if precedesDeletion tombstone then
    [issue "RETENTION_WINDOW_INVALID" .error .resource tombstone.subjectId
      "Recovery deadline precedes deletion time."]
  else []) ++
  (if (truthy tombstone.priorRevisionId).any fun prior => !snapshot.revisions.any fun revision =>
      revision.id == prior && revision.resourceId == tombstone.subjectId then
    [issue "TOMBSTONE_PRIOR_REVISION_INVALID" .critical .resource tombstone.subjectId
      "Tombstone prior revision does not belong to its resource."]
  else []) ++
  match statusMismatch tombstone snapshot with
  | some resource =>
    [issue "TOMBSTONE_STATUS_MISMATCH" .error .resource resource.id
      "Open tombstone resource is not logically deleted."]
  | none => []

/-! ## A structural run -/

inductive StructuralLevel where
  | resource
  | dataset
  | workspace
  deriving DecidableEq

def StructuralLevel.level : StructuralLevel → VerificationLevel
  | .resource => .resource
  | .dataset => .dataset
  | .workspace => .workspace

def StructuralLevel.kind : StructuralLevel → ScopeKind
  | .resource => .resource
  | .dataset => .dataset
  | .workspace => .workspace

def StructuralLevel.text : StructuralLevel → JsString
  | .resource => js "resource"
  | .dataset => js "dataset"
  | .workspace => js "workspace"

def resolveScope (workspaceId : JsString) (level : StructuralLevel)
    (scope : Option VerificationScope) : Except JsString VerificationScope :=
  let scope := scope.or (if level = .workspace then some ⟨.workspace, workspaceId⟩ else none)
  match scope.filter fun scope => scope.kind = level.kind with
  | none => .error (level.text ++ js " verification requires a " ++ level.text ++ js " scope.")
  | some scope =>
    if scope.kind = .workspace ∧ scope.id ≠ workspaceId then
      .error (js "Workspace verification scope must match workspaceId.")
    else .ok scope

section Structural

variable (isDate isUrl : JsString → Bool) (storage : BlobStorage)

def resourceIssues (selected : SelectedScope) (packages : List SchemaPackageRow)
    (resource : Resource) : List VerificationIssue :=
  let revisions := selected.revisions.filter (·.resourceId == resource.id)
  let dataset := selected.datasets.find? (·.id == resource.datasetId)
  verifyResourceGraph resource selected.revisions ++
  (revisions.flatMap fun revision => verifySchema isDate isUrl resource revision dataset packages) ++
  if revisions.isEmpty ∧ resource.status ≠ .deletedLogically then
    [issue "ORPHAN_RESOURCE_WITHOUT_REVISION" .critical .resource resource.id
      "Resource has no revision history."]
  else []

def referenceIssues (snapshot : Snapshot) (reference : RevisionBlobReference) :
    List VerificationIssue :=
  if snapshot.blobs.any (·.id == reference.blobObjectId) then []
  else
    [⟨js "REVISION_BLOB_TARGET_MISSING", .critical, .revision, reference.revisionId,
      js "Blob reference " ++ reference.id ++ js " does not resolve.", none⟩]

def selectedReferences (snapshot : Snapshot) (selected : SelectedScope) :
    List RevisionBlobReference :=
  snapshot.revisionBlobs.filter fun reference =>
    selected.revisions.any (·.id == reference.revisionId)

def selectedBlobs (snapshot : Snapshot) (selected : SelectedScope) (level : StructuralLevel) :
    List BlobObject :=
  if level = .workspace then snapshot.blobs
  else
    snapshot.blobs.filter fun blob =>
      (selectedReferences snapshot selected).any (·.blobObjectId == blob.id)

/-- What only a run over the whole workspace checks. -/
def workspaceIssues (snapshot : Snapshot) (workspaceId : JsString) : List VerificationIssue :=
  (if !snapshot.auditEvents.isEmpty ∧ !verifyAuditChain snapshot.auditEvents then
    [issue "AUDIT_CHAIN_INVALID" .critical .workspace workspaceId
      "Workspace audit event hash chain is invalid."]
  else []) ++
  snapshot.blobs.flatMap fun blob =>
    if snapshot.revisionBlobs.any (·.blobObjectId == blob.id) then []
    else [issue "ORPHAN_BLOB" .warning .blob blob.id "Blob is not referenced by any revision."]

def structuralIssues (snapshot : Snapshot) (selected : SelectedScope) (level : StructuralLevel)
    (workspaceId : JsString) : List VerificationIssue :=
  selected.scopeIssues ++
  selected.datasets.flatMap (datasetIssues snapshot.schemaPackages) ++
  selected.resources.flatMap (resourceIssues isDate isUrl selected snapshot.schemaPackages) ++
  (selectedReferences snapshot selected).flatMap (referenceIssues snapshot) ++
  ((selectedBlobs snapshot selected level).flatMap fun blob =>
    (verifyBlob storage blob .metadata).issues) ++
  (selected.relations.flatMap fun relation => verifyRelation relation snapshot) ++
  (selected.tombstones.flatMap fun tombstone => verifyTombstone tombstone snapshot) ++
  if level = .workspace then workspaceIssues snapshot workspaceId else []

def countChecked (snapshot : Snapshot) (selected : SelectedScope) (level : StructuralLevel) : Nat :=
  (if selected.scopeIssues.isEmpty then selected.datasets.length else 0) +
  (selected.resources.map fun resource =>
    1 + (selected.revisions.filter (·.resourceId == resource.id)).length).sum +
  (selectedReferences snapshot selected).length +
  (selectedBlobs snapshot selected level).length +
  selected.relations.length + selected.tombstones.length +
  if level = .workspace then snapshot.auditEvents.length else 0

/-- `StructuralVerificationService.run` over the snapshot that the catalog loads. -/
def runStructural (draw : RunDraw) (workspaceId : JsString) (level : StructuralLevel)
    (scope : Option VerificationScope) (snapshot : Snapshot) : Except JsString Outcome :=
  match resolveScope workspaceId level scope with
  | .error message => .error message
  | .ok scope =>
    let selected := selectScope snapshot scope
    let issues := structuralIssues isDate isUrl storage snapshot selected level workspaceId
    .ok
      { run :=
          { id := draw.id
            workspaceId := workspaceId
            level := level.level
            scope := scope
            status := statusOf issues
            startedAt := draw.startedAt
            completedAt := draw.completedAt
            objectsChecked := countChecked snapshot selected level
            bytesRead := 0
            issues := issues }
        blobStates := (selectedBlobs snapshot selected level).map fun blob =>
          (verifyBlob storage blob .metadata).state }

end Structural

end TrustCore.Verification
