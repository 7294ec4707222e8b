import Mathlib.Data.List.Sort
import TrustCore.KeyedMaps
import TrustCore.Runs
import TrustCore.Utf

/-!
# The registry of application storage

`InMemoryAppStorageRegistry` keeps the tenants of applications, their storage bindings
with the profiles and versions of these, and the sticky routes of blobs. A command is a
function of the registry, its input and a `Draw`, what it takes from the clock and from
`randomUUID`; it gives a result or the error it throws, and the registry it leaves, which
a command that throws half way leaves half changed.
-/

namespace TrustCore.AppStorage

open TrustCore.Utf TrustCore.KeyedMaps

inductive TenantStatus where
  | active
  | suspended
  | closed
  deriving DecidableEq

structure ApplicationTenant where
  id : JsString
  workspaceId : JsString
  applicationId : JsString
  externalTenantKey : JsString
  displayName : JsString
  status : TenantStatus
  createdAt : JsString
  updatedAt : JsString
  deriving DecidableEq

inductive StorageProviderName where
  | minio
  | s3
  deriving DecidableEq

inductive StorageBindingTier where
  | managed
  | byob
  | premium
  deriving DecidableEq

inductive StorageBindingCredentialMode where
  | platformIam
  | crossAccountRole
  | staticKeysRef
  | missing
  deriving DecidableEq

inductive StorageBindingStatus where
  | draft
  | awaitingCustomerRole
  | configured
  | connected
  | needsAttention
  | disabled
  | migrating
  deriving DecidableEq

inductive StoragePlanSyncState where
  | synced
  | driftDetected
  | upgradeRecognised
  | unknown
  | overCapacity
  deriving DecidableEq

inductive StorageCostPosture where
  | customerBilledByob
  | platformManaged
  | unknown
  deriving DecidableEq

inductive StorageInheritedFrom where
  | platform
  | app
  | none
  deriving DecidableEq

inductive StorageScope where
  | platform
  | app
  | tenant
  deriving DecidableEq

structure StorageProfileSummary where
  id : JsString
  provider : StorageProviderName
  region : JsString
  bucket : JsString
  bucketPrefix : JsString
  tier : StorageBindingTier
  credentialMode : StorageBindingCredentialMode
  expectedBucketOwner : Option JsString
  endpointHost : Option JsString
  roleArn : Option JsString
  declaredPlanCode : Option JsString
  declaredCapacityBytes : Option Int
  deriving DecidableEq

structure StoredStorageProfile extends StorageProfileSummary where
  workspaceId : JsString
  externalId : Option JsString
  externalIdRevealed : Bool
  createdAt : JsString
  updatedAt : JsString
  deriving DecidableEq

structure StoredStorageBinding where
  id : JsString
  workspaceId : JsString
  applicationId : JsString
  applicationTenantId : Option JsString
  profileId : JsString
  status : StorageBindingStatus
  generation : Nat
  lastProbeOk : Option Bool
  lastProbeAt : Option JsString
  lastProbeSummary : Option JsString
  lastIssueClass : Option JsString
  planSyncState : StoragePlanSyncState
  observedUsageBytes : Option Int
  observedQuotaBytes : Option Int
  observedAt : Option JsString
  disabled : Bool
  createdAt : JsString
  updatedAt : JsString
  deriving DecidableEq

structure StorageBindingSummary where
  id : JsString
  workspaceId : JsString
  applicationId : JsString
  applicationTenantId : Option JsString
  profile : StorageProfileSummary
  status : StorageBindingStatus
  generation : Nat
  lastProbeOk : Option Bool
  lastProbeAt : Option JsString
  lastProbeSummary : Option JsString
  lastIssueClass : Option JsString
  planSyncState : StoragePlanSyncState
  observedUsageBytes : Option Int
  observedQuotaBytes : Option Int
  observedAt : Option JsString
  disabled : Bool
  costPosture : StorageCostPosture
  createdAt : JsString
  updatedAt : JsString
  deriving DecidableEq

structure BindingVersion where
  id : JsString
  workspaceId : JsString
  bindingId : JsString
  generation : Nat
  snapshot : StorageBindingSummary
  createdBy : JsString
  createdAt : JsString
  deriving DecidableEq

structure BlobStickyRoute where
  objectId : JsString
  workspaceId : JsString
  sha256 : JsString
  storageBindingId : JsString
  storageBindingGeneration : Nat
  deriving DecidableEq

inductive RoutingPurpose where
  | ingest
  | download
  | probe
  | migrate
  | portability
  deriving DecidableEq

structure RoutingContext where
  workspaceId : JsString
  applicationId : Option JsString
  applicationTenantId : Option JsString
  externalTenantKey : Option JsString
  purpose : RoutingPurpose
  blobStorageBindingId : Option JsString
  bindingGeneration : Option Int

inductive ResolvedStatus where
  | notConfigured
  | of (status : StorageBindingStatus)
  deriving DecidableEq

structure ResolveResult where
  bindingId : Option JsString
  generation : Option Nat
  inheritedFrom : StorageInheritedFrom
  scope : StorageScope
  status : ResolvedStatus
  allowWrite : Bool
  reason : Option JsString
  profile : Option StoredStorageProfile

structure StorageError where
  code : Option String
  message : JsString
  deriving DecidableEq

/-- What one command takes from the clock and from `randomUUID`. -/
structure Draw where
  now : JsString
  later : JsString
  tenantId : JsString
  profileId : JsString
  externalId : JsString
  bindingId : JsString
  versionId : JsString

structure Registry where
  tenants : KeyedMap ApplicationTenant.id
  profiles : KeyedMap fun p : StoredStorageProfile => p.id
  bindings : KeyedMap StoredStorageBinding.id
  versions : List BindingVersion
  blobs : KeyedMap BlobStickyRoute.objectId
  assumeWithoutExternalId : KeyedMap (Prod.fst : JsString × Bool → JsString)
  externalIds : KeyedMap (Prod.fst : JsString × JsString → JsString)

/-- The result or the error of a command, and the registry it leaves. -/
abbrev Outcome (α : Type) := Except StorageError α × Registry

def costPosture (tier : StorageBindingTier) (mode : StorageBindingCredentialMode) :
    StorageCostPosture :=
  if tier = .byob ∨ mode = .crossAccountRole then .customerBilledByob
  else if tier = .managed ∨ mode = .platformIam then .platformManaged
  else .unknown

def confusedDeputy : JsString :=
  js "This role is unsafe (confused deputy). Update trust policy using the template (require sts:ExternalId), then retry."

/-- The message of a refusal, if the role is refused. -/
def assertExternalIdHardening (assumeWithoutExternalIdSucceeds : Bool) : Option JsString :=
  if assumeWithoutExternalIdSucceeds then some confusedDeputy else none

def operatorErrorForIssue (issue : JsString) : JsString :=
  if issue = js "owner_mismatch" then
    js "ExpectedBucketOwner does not match HeadBucket owner — check AWS account id."
  else if issue = js "wrong_region" then
    js "Bucket region does not match the configured region. Update TRUST region / binding region, then Test connection."
  else if issue = js "external_id" then
    js "This role is unsafe (confused deputy). Update trust policy using the template, then retry."
  else if issue = js "permission" then
    js "Identity works but lacks bucket/prefix rights. Grant the minimal IAM actions from the checklist."
  else js "Storage binding needs attention. Open provider console and re-run Test connection."

/-- Whether both are numbers and the first is the greater one. -/
def exceeds (n m : Option Int) : Bool :=
  match n, m with
  | some n, some m => decide (m < n)
  | _, _ => false

def evaluatePlanSync (declaredCapacityBytes observedUsageBytes observedQuotaBytes
    previousQuotaBytes : Option Int) : StoragePlanSyncState :=
  if observedQuotaBytes.isNone && observedUsageBytes.isNone && declaredCapacityBytes.isNone then
    .unknown
  else if exceeds observedUsageBytes declaredCapacityBytes then .overCapacity
  else if exceeds observedQuotaBytes previousQuotaBytes ||
      previousQuotaBytes.isNone && exceeds observedQuotaBytes declaredCapacityBytes then
    .upgradeRecognised
  else if declaredCapacityBytes.isSome && observedQuotaBytes.isSome &&
      observedQuotaBytes != declaredCapacityBytes then
    .driftDetected
  else if declaredCapacityBytes.isSome || observedQuotaBytes.isSome then .synced
  else .unknown

/-- What the engine throws on a profile that is `undefined`. -/
def undefinedProfile (access property : String) : StorageError :=
  ⟨none, js "Cannot " ++ js access ++ js " properties of undefined (" ++
    js (if access = "set" then "setting" else "reading") ++ js " '" ++ js property ++ js "')"⟩

namespace Registry

def empty : Registry where
  tenants := .empty
  profiles := .empty
  bindings := .empty
  versions := []
  blobs := .empty
  assumeWithoutExternalId := .empty
  externalIds := .empty

/-! ## Tenants -/

def listTenants (r : Registry) (workspaceId applicationId : JsString) : List ApplicationTenant :=
  r.tenants.values.filter fun t => t.workspaceId == workspaceId && t.applicationId == applicationId

def getTenant (r : Registry) (workspaceId applicationId tenantId : JsString) :
    Option ApplicationTenant :=
  (r.tenants.get tenantId).filter fun t =>
    t.workspaceId == workspaceId && t.applicationId == applicationId

end Registry

structure CreateTenantInput where
  workspaceId : JsString
  applicationId : JsString
  externalTenantKey : JsString
  displayName : JsString

structure UpdateTenantInput where
  workspaceId : JsString
  applicationId : JsString
  tenantId : JsString
  displayName : JsString
  expectedUpdatedAt : JsString

structure SetTenantStatusInput where
  workspaceId : JsString
  applicationId : JsString
  tenantId : JsString
  status : TenantStatus
  expectedUpdatedAt : JsString

namespace Registry

/-- The tenant that an application knows under an external key. -/
def tenantOfKey (r : Registry) (workspaceId applicationId externalTenantKey : JsString) :
    Option ApplicationTenant :=
  (r.listTenants workspaceId applicationId).find? fun t =>
    t.externalTenantKey == externalTenantKey

def mapExternalTenantKey (r : Registry) (workspaceId applicationId externalTenantKey : JsString) :
    Option JsString :=
  (r.tenantOfKey workspaceId applicationId externalTenantKey).map (·.id)

def createTenant (r : Registry) (d : Draw) (input : CreateTenantInput) :
    Outcome ApplicationTenant :=
  match r.tenantOfKey input.workspaceId input.applicationId input.externalTenantKey with
  | some existing => (.ok existing, r)
  | none =>
    let tenant : ApplicationTenant :=
      { id := d.tenantId
        workspaceId := input.workspaceId
        applicationId := input.applicationId
        externalTenantKey := input.externalTenantKey
        displayName := input.displayName
        status := .active
        createdAt := d.now
        updatedAt := d.now }
    (.ok tenant, { r with tenants := r.tenants.set tenant })

def requireTenant (r : Registry) (workspaceId applicationId tenantId : JsString) :
    Except StorageError ApplicationTenant :=
  match r.getTenant workspaceId applicationId tenantId with
  | none => .error ⟨some "RESOURCE_NOT_FOUND", js "Application tenant was not found."⟩
  | some tenant => .ok tenant

/-- `updateTenant` and `setTenantStatus`, which change one field of the tenant. -/
def changeTenant (r : Registry) (d : Draw)
    (workspaceId applicationId tenantId expectedUpdatedAt : JsString)
    (change : ApplicationTenant → ApplicationTenant) : Outcome ApplicationTenant :=
  match r.requireTenant workspaceId applicationId tenantId with
  | .error e => (.error e, r)
  | .ok tenant =>
    if tenant.updatedAt ≠ expectedUpdatedAt then
      (.error ⟨some "CONFLICT", js "Application tenant update conflict."⟩, r)
    else
      let tenant := { change tenant with updatedAt := d.now }
      (.ok tenant, { r with tenants := r.tenants.set tenant })

def updateTenant (r : Registry) (d : Draw) (input : UpdateTenantInput) :
    Outcome ApplicationTenant :=
  r.changeTenant d input.workspaceId input.applicationId input.tenantId input.expectedUpdatedAt
    fun tenant => { tenant with displayName := input.displayName }

def setTenantStatus (r : Registry) (d : Draw) (input : SetTenantStatusInput) :
    Outcome ApplicationTenant :=
  r.changeTenant d input.workspaceId input.applicationId input.tenantId input.expectedUpdatedAt
    fun tenant => { tenant with status := input.status }

/-! ## Bindings -/

def toSummary (r : Registry) (binding : StoredStorageBinding) :
    Except StorageError StorageBindingSummary :=
  match r.profiles.get binding.profileId with
  | none => .error (undefinedProfile "read" "id")
  | some profile =>
    .ok
      { id := binding.id
        workspaceId := binding.workspaceId
        applicationId := binding.applicationId
        applicationTenantId := binding.applicationTenantId
        profile := profile.toStorageProfileSummary
        status := if binding.disabled then .disabled else binding.status
        generation := binding.generation
        lastProbeOk := binding.lastProbeOk
        lastProbeAt := binding.lastProbeAt
        lastProbeSummary := binding.lastProbeSummary
        lastIssueClass := binding.lastIssueClass
        planSyncState := binding.planSyncState
        observedUsageBytes := binding.observedUsageBytes
        observedQuotaBytes := binding.observedQuotaBytes
        observedAt := binding.observedAt
        disabled := binding.disabled
        costPosture := costPosture profile.tier profile.credentialMode
        createdAt := binding.createdAt
        updatedAt := binding.updatedAt }

/-- The summary as the result of a command that leaves this registry. -/
def summarised (r : Registry) (binding : StoredStorageBinding) : Outcome StorageBindingSummary :=
  (r.toSummary binding, r)

def setBinding (r : Registry) (binding : StoredStorageBinding) : Registry :=
  { r with bindings := r.bindings.set binding }

def setProfile (r : Registry) (profile : StoredStorageProfile) : Registry :=
  { r with profiles := r.profiles.set profile }

@[simp] theorem setBinding_profiles (r : Registry) (binding : StoredStorageBinding) :
    (r.setBinding binding).profiles = r.profiles := rfl

@[simp] theorem setProfile_bindings (r : Registry) (profile : StoredStorageProfile) :
    (r.setProfile profile).bindings = r.bindings := rfl

theorem get_setBinding (r : Registry) (binding : StoredStorageBinding) (id : JsString) :
    (r.setBinding binding).bindings.get id =
      if binding.id = id then some binding else r.bindings.get id := KeyedMap.get_set _ _ _

theorem get_setProfile (r : Registry) (profile : StoredStorageProfile) (id : JsString) :
    (r.setProfile profile).profiles.get id =
      if profile.id = id then some profile else r.profiles.get id := KeyedMap.get_set _ _ _

def bindingNotFound : StorageError := ⟨none, js "Binding not found"⟩

/-- A command on a binding that has to exist. -/
def withBinding {α : Type} (r : Registry) (bindingId : JsString)
    (act : StoredStorageBinding → Outcome α) : Outcome α :=
  match r.bindings.get bindingId with
  | none => (.error bindingNotFound, r)
  | some binding => act binding

/-- Adds a version of the binding and returns its snapshot. -/
def versioned (r : Registry) (versionId actorId : JsString) (binding : StoredStorageBinding) :
    Outcome StorageBindingSummary :=
  match r.toSummary binding with
  | .error e => (.error e, r)
  | .ok summary =>
    (.ok summary,
      { r with
        versions := r.versions ++ [
          { id := versionId
            workspaceId := binding.workspaceId
            bindingId := binding.id
            generation := binding.generation
            snapshot := summary
            createdBy := actorId
            createdAt := binding.updatedAt }] })

end Registry

structure UpsertStorageBindingCommand where
  workspaceId : JsString
  applicationId : JsString
  applicationTenantId : Option JsString
  provider : StorageProviderName
  region : JsString
  bucket : JsString
  bucketPrefix : Option JsString
  tier : StorageBindingTier
  credentialMode : StorageBindingCredentialMode
  expectedBucketOwner : Option JsString
  endpointHost : Option JsString
  roleArn : Option JsString
  declaredPlanCode : Option JsString
  declaredCapacityBytes : Option Int
  expectedGeneration : Option Int

structure UpsertResult where
  binding : StorageBindingSummary
  externalId : Option JsString
  onboardingTemplate : JsString

structure ProbeInput where
  ok : Bool
  summary : JsString
  issueClass : Option JsString
  expectedOwnerMatch : Option Bool

structure PlanObservation where
  observedUsageBytes : Option Int
  observedQuotaBytes : Option Int

structure Handshake where
  ok : Bool
  message : Option JsString

structure ObjectDigest where
  objectId : JsString
  sha256 : JsString

structure CutoverInput where
  sourceBindingId : JsString
  targetBindingId : JsString
  objectDigests : List ObjectDigest
  actorId : JsString

structure CommitBlobInput where
  objectId : JsString
  workspaceId : JsString
  sha256 : JsString
  bindingId : JsString
  generation : Nat

namespace UpsertStorageBindingCommand

/-- The fields of a profile that an upsert writes. -/
def profileFields (command : UpsertStorageBindingCommand) (id : JsString) :
    StorageProfileSummary where
  id := id
  provider := command.provider
  region := command.region
  bucket := command.bucket
  bucketPrefix := command.bucketPrefix.getD []
  tier := command.tier
  credentialMode := command.credentialMode
  expectedBucketOwner := command.expectedBucketOwner
  endpointHost := command.endpointHost
  roleArn := command.roleArn
  declaredPlanCode := command.declaredPlanCode
  declaredCapacityBytes := command.declaredCapacityBytes

/-- The status of an existing binding after an upsert. -/
def statusAfter (command : UpsertStorageBindingCommand) : StorageBindingStatus :=
  if command.credentialMode = .crossAccountRole ∧ (truthy command.roleArn).isSome then .configured
  else if command.credentialMode = .platformIam then .configured
  else .draft

/-- The status of a new binding. -/
def statusCreated (command : UpsertStorageBindingCommand) : StorageBindingStatus :=
  if command.credentialMode = .crossAccountRole ∧ (truthy command.roleArn).isNone then
    .awaitingCustomerRole
  else .configured

def newProfile (command : UpsertStorageBindingCommand) (d : Draw) : StoredStorageProfile where
  toStorageProfileSummary := command.profileFields d.profileId
  workspaceId := command.workspaceId
  externalId := if command.credentialMode = .crossAccountRole then some d.externalId else none
  externalIdRevealed := decide (command.credentialMode = .crossAccountRole)
  createdAt := d.now
  updatedAt := d.now

def newBinding (command : UpsertStorageBindingCommand) (d : Draw) : StoredStorageBinding where
  id := d.bindingId
  workspaceId := command.workspaceId
  applicationId := command.applicationId
  applicationTenantId := command.applicationTenantId
  profileId := d.profileId
  status := command.statusCreated
  generation := 1
  lastProbeOk := none
  lastProbeAt := none
  lastProbeSummary := none
  lastIssueClass := none
  planSyncState := .unknown
  observedUsageBytes := none
  observedQuotaBytes := none
  observedAt := none
  disabled := false
  createdAt := d.now
  updatedAt := d.now

end UpsertStorageBindingCommand

/-! What the commands make of a binding and of its profile. -/

namespace StoredStorageProfile

def upserted (profile : StoredStorageProfile) (d : Draw) (command : UpsertStorageBindingCommand) :
    StoredStorageProfile :=
  { profile with
    toStorageProfileSummary := command.profileFields profile.id
    updatedAt := d.now }

def planAccepted (profile : StoredStorageProfile) (d : Draw) (declaredCapacityBytes : Int)
    (planCode : Option JsString) : StoredStorageProfile :=
  { profile with
    declaredCapacityBytes := some declaredCapacityBytes
    declaredPlanCode := (truthy planCode).or profile.declaredPlanCode
    updatedAt := d.now }

def rolledBack (profile : StoredStorageProfile) (d : Draw) (snapshot : StorageProfileSummary) :
    StoredStorageProfile :=
  { profile with
    toStorageProfileSummary := { snapshot with id := profile.id }
    updatedAt := d.now }

end StoredStorageProfile

namespace StoredStorageBinding

def upserted (binding : StoredStorageBinding) (d : Draw) (command : UpsertStorageBindingCommand) :
    StoredStorageBinding :=
  { binding with
    generation := binding.generation + 1
    status := command.statusAfter
    updatedAt := d.now
    lastProbeOk := none }

def hardeningFailed (binding : StoredStorageBinding) (d : Draw) (message : JsString) :
    StoredStorageBinding :=
  { binding with
    status := .needsAttention
    lastIssueClass := some (js "auth")
    lastProbeSummary := some message
    updatedAt := d.now }

def probed (binding : StoredStorageBinding) (d : Draw) (input : ProbeInput) :
    StoredStorageBinding :=
  if input.expectedOwnerMatch = some false then
    { binding with
      status := .needsAttention
      lastProbeOk := some false
      lastIssueClass := some (js "permission")
      lastProbeSummary := some (operatorErrorForIssue (js "owner_mismatch"))
      lastProbeAt := some d.now
      updatedAt := d.now }
  else
    { binding with
      lastProbeOk := some input.ok
      lastProbeAt := some d.now
      lastProbeSummary := some input.summary
      lastIssueClass := input.issueClass
      status := if input.ok then .connected else .needsAttention
      updatedAt := d.now }

def observed (binding : StoredStorageBinding) (d : Draw) (observation : PlanObservation) :
    StoredStorageBinding :=
  { binding with
    observedUsageBytes := observation.observedUsageBytes.or binding.observedUsageBytes
    observedQuotaBytes := observation.observedQuotaBytes.or binding.observedQuotaBytes
    observedAt := some d.now }

def refreshed (binding : StoredStorageBinding) (d : Draw) (observation : PlanObservation)
    (declaredCapacityBytes : Option Int) : StoredStorageBinding :=
  let previousQuota := binding.observedQuotaBytes
  let binding := binding.observed d observation
  { binding with
    planSyncState := evaluatePlanSync declaredCapacityBytes binding.observedUsageBytes
      binding.observedQuotaBytes previousQuota
    updatedAt := d.now }

def planAccepted (binding : StoredStorageBinding) (d : Draw) (declaredCapacityBytes : Int) :
    StoredStorageBinding :=
  { binding with
    planSyncState := evaluatePlanSync (some declaredCapacityBytes) binding.observedUsageBytes
      binding.observedQuotaBytes binding.observedQuotaBytes
    updatedAt := d.now }

def disable (binding : StoredStorageBinding) (d : Draw) : StoredStorageBinding :=
  { binding with
    disabled := true
    status := .disabled
    generation := binding.generation + 1
    updatedAt := d.now }

def probeDeferred (binding : StoredStorageBinding) (d : Draw) (summary : JsString) :
    StoredStorageBinding :=
  { binding with
    status :=
      match binding.status with
      | .connected | .draft | .awaitingCustomerRole => .configured
      | status => status
    lastProbeOk := none
    lastProbeAt := some d.now
    lastProbeSummary := some summary
    lastIssueClass := none
    updatedAt := d.now }

def rolledBack (binding : StoredStorageBinding) (d : Draw) : StoredStorageBinding :=
  { binding with
    generation := binding.generation + 1
    status := .configured
    lastProbeOk := none
    disabled := false
    updatedAt := d.now }

def migrates (binding : StoredStorageBinding) (d : Draw) : StoredStorageBinding :=
  { binding with
    status := .migrating
    generation := binding.generation + 1
    updatedAt := d.now }

end StoredStorageBinding

namespace Registry

def listBindings (r : Registry) (workspaceId : JsString) (applicationId : Option JsString)
    (applicationTenantId : Option (Option JsString)) :
    Except StorageError (List StorageBindingSummary) :=
  (r.bindings.values.filter fun b =>
    b.workspaceId == workspaceId && applicationId.all (b.applicationId == ·) &&
      applicationTenantId.all (b.applicationTenantId == ·)).mapM r.toSummary

/-- The binding of a tenant of an application, or the default one of the application. -/
def findBinding (r : Registry) (workspaceId applicationId : JsString)
    (applicationTenantId : Option JsString) : Option StoredStorageBinding :=
  r.bindings.values.find? fun b =>
    b.workspaceId == workspaceId && b.applicationId == applicationId &&
      b.applicationTenantId == applicationTenantId

def onboardingTemplate (r : Registry) (profile : StoredStorageProfile) (bindingId : JsString) :
    JsString :=
  let externalId := (((r.externalIds.get profile.id).map (·.2)).or profile.externalId).getD
    (js "<EXTERNAL_ID>")
  List.intercalate [10] ([js "# Trust Core BYOB role (CloudFormation-style sketch)",
    js "Description: Binding " ++ bindingId,
    js "TrustedExternalId: " ++ externalId,
    js "Bucket: " ++ profile.bucket,
    js "Prefix: " ++ (truthy (some profile.bucketPrefix)).getD (js "(bucket root)"),
    js "ExpectedBucketOwner: " ++ profile.expectedBucketOwner.getD (js "<ACCOUNT_ID>"),
    js "Actions: s3:ListBucket, s3:GetObject, s3:PutObject, s3:DeleteObject, multipart equivalents",
    js "Condition: sts:ExternalId must match TrustedExternalId"])

/-- The upsert of a binding that exists. -/
def updateBinding (r : Registry) (d : Draw) (command : UpsertStorageBindingCommand)
    (actorId : JsString) (existing : StoredStorageBinding) : Outcome UpsertResult :=
  if command.expectedGeneration.any fun g : Int => decide (g ≠ existing.generation) then
    (.error ⟨some "CONFLICT", js "Storage binding generation conflict."⟩, r)
  else
    match r.profiles.get existing.profileId with
    | none => (.error (undefinedProfile "set" "provider"), r)
    | some profile =>
      let profile := profile.upserted d command
      let existing := existing.upserted d command
      let out := ((r.setProfile profile).setBinding existing).versioned d.versionId actorId existing
      (out.1.map fun summary => ⟨summary, none, out.2.onboardingTemplate profile existing.id⟩, out.2)

/-- The upsert of a new binding. -/
def createBinding (r : Registry) (d : Draw) (command : UpsertStorageBindingCommand)
    (actorId : JsString) : Outcome UpsertResult :=
  let profile := command.newProfile d
  let binding := command.newBinding d
  let r := { r with
    profiles := r.profiles.set profile
    externalIds := match profile.externalId with
      | some externalId => r.externalIds.set (profile.id, externalId)
      | none => r.externalIds }
  let out := (r.setBinding binding).versioned d.versionId actorId binding
  (out.1.map fun summary =>
    ⟨summary, profile.externalId, out.2.onboardingTemplate profile binding.id⟩, out.2)

def upsertBinding (r : Registry) (d : Draw) (command : UpsertStorageBindingCommand)
    (actorId : JsString) : Outcome UpsertResult :=
  match r.findBinding command.workspaceId command.applicationId command.applicationTenantId with
  | some existing => r.updateBinding d command actorId existing
  | none => r.createBinding d command actorId

def revealExternalId (r : Registry) (profileId : JsString) : Option JsString × Registry :=
  match r.profiles.get profileId with
  | none => (none, r)
  | some profile =>
    match truthy profile.externalId with
    | none => (none, r)
    | some externalId =>
      if profile.externalIdRevealed then
        (none, { r with externalIds := r.externalIds.erase profileId })
      else
        (some (((r.externalIds.get profileId).map (·.2)).getD externalId),
          r.setProfile { profile with externalIdRevealed := true })

def runHandshakeHardening (r : Registry) (d : Draw) (bindingId : JsString) :
    Handshake × Registry :=
  let allowUnsafe := r.assumeWithoutExternalId.get bindingId == some (bindingId, true)
  match assertExternalIdHardening allowUnsafe with
  | none => (⟨true, none⟩, r)
  | some message =>
    (⟨false, some message⟩,
      match r.bindings.get bindingId with
      | none => r
      | some binding => r.setBinding (binding.hardeningFailed d message))

def recordProbe (r : Registry) (d : Draw) (bindingId : JsString) (input : ProbeInput) :
    Outcome StorageBindingSummary :=
  r.withBinding bindingId fun binding =>
    let binding := binding.probed d input
    (r.setBinding binding).summarised binding

def refreshPlan (r : Registry) (d : Draw) (bindingId : JsString) (observation : PlanObservation) :
    Outcome StorageBindingSummary :=
  r.withBinding bindingId fun binding =>
    match r.profiles.get binding.profileId with
    -- the observation is in the binding by the time the profile is read
    | none => (.error (undefinedProfile "read" "declaredCapacityBytes"),
        r.setBinding (binding.observed d observation))
    | some profile =>
      let binding := binding.refreshed d observation profile.declaredCapacityBytes
      (r.setBinding binding).summarised binding

def acceptPlan (r : Registry) (d : Draw) (bindingId : JsString) (declaredCapacityBytes : Int)
    (planCode : Option JsString) : Outcome StorageBindingSummary :=
  r.withBinding bindingId fun binding =>
    match r.profiles.get binding.profileId with
    | none => (.error (undefinedProfile "set" "declaredCapacityBytes"), r)
    | some profile =>
      let profile := profile.planAccepted d declaredCapacityBytes planCode
      let binding := binding.planAccepted d declaredCapacityBytes
      ((r.setProfile profile).setBinding binding).summarised binding

def disableBinding (r : Registry) (d : Draw) (bindingId : JsString) :
    Outcome StorageBindingSummary :=
  r.withBinding bindingId fun binding =>
    let binding := binding.disable d
    { r.setBinding binding with
      assumeWithoutExternalId := r.assumeWithoutExternalId.erase bindingId }.summarised binding

def deleteBinding (r : Registry) (bindingId : JsString) (force : Bool) :
    Outcome StorageBindingSummary :=
  r.withBinding bindingId fun binding =>
    if !force && (binding.status = .connected || binding.status = .migrating) then
      (.error ⟨some "COMMAND_REJECTED",
        js "Connected or migrating bindings cannot be deleted without force."⟩, r)
    else if !force && r.blobs.values.any (·.storageBindingId == bindingId) then
      (.error ⟨some "COMMAND_REJECTED",
        js "Binding still referenced by sticky blob routes; disable or force-delete."⟩, r)
    else
      match r.toSummary binding with
      | .error e => (.error e, r)
      | .ok summary =>
        let bindings := r.bindings.erase bindingId
        (.ok summary,
          { r with
            bindings := bindings
            assumeWithoutExternalId := r.assumeWithoutExternalId.erase bindingId
            profiles :=
              if bindings.values.any (·.profileId == binding.profileId) then r.profiles
              else r.profiles.erase binding.profileId })

def markProbeDeferred (r : Registry) (d : Draw) (bindingId summary : JsString) :
    Outcome StorageBindingSummary :=
  r.withBinding bindingId fun binding =>
    let binding := binding.probeDeferred d summary
    (r.setBinding binding).summarised binding

def clearTenantOverride (r : Registry) (bindingId : JsString) : Outcome Unit :=
  match (r.bindings.get bindingId).bind fun b => truthy b.applicationTenantId with
  | none => (.error ⟨none, js "Not a tenant override binding"⟩, r)
  | some _ => (.ok (), { r with bindings := r.bindings.erase bindingId })

/-- The newest versions of a binding; versions of one generation keep their order. -/
def listBindingHistory (r : Registry) (bindingId : JsString) (limit : Nat) :
    List BindingVersion :=
  ((r.versions.filter (·.bindingId == bindingId)).insertionSort
    fun v w => w.generation ≤ v.generation).take limit

def rollbackBinding (r : Registry) (d : Draw) (bindingId actorId : JsString) :
    Outcome StorageBindingSummary :=
  r.withBinding bindingId fun binding =>
    match (r.listBindingHistory bindingId 2).find? fun v =>
      decide (v.generation < binding.generation) with
    | none => (.error ⟨none, js "No previous binding version"⟩, r)
    | some previous =>
      match r.profiles.get binding.profileId with
      | none => (.error (undefinedProfile "set" "provider"), r)
      | some profile =>
        let profile := profile.rolledBack d previous.snapshot.profile
        let binding := binding.rolledBack d
        ((r.setProfile profile).setBinding binding).versioned d.versionId actorId binding

def beginMigrate (r : Registry) (d : Draw) (bindingId : JsString) :
    Outcome StorageBindingSummary :=
  r.withBinding bindingId fun binding =>
    if binding.status ≠ .connected then
      (.error ⟨none, js "Migrate requires Connected source binding"⟩, r)
    else
      let binding := binding.migrates d
      (r.setBinding binding).summarised binding

def digestMismatch : StorageError :=
  ⟨some "MIGRATE_DIGEST_MISMATCH", js "Migrate cutover refused: digest mismatch"⟩

/-- The loop of a cutover, which moves the routes as it checks the digests. -/
def moveRoutes (r : Registry) (target : StoredStorageBinding) : List ObjectDigest → Outcome Unit
  | [] => (.ok (), r)
  | item :: items =>
    match r.blobs.get item.objectId with
    | none => (.error digestMismatch, r)
    | some route =>
      if route.sha256 ≠ item.sha256 then (.error digestMismatch, r)
      else
        { r with
          blobs := r.blobs.set { route with
            storageBindingId := target.id
            storageBindingGeneration := target.generation } }.moveRoutes target items

/-- A cutover once its routes are moved. -/
def finishCutover (r : Registry) (d : Draw) (actorId : JsString)
    (source target : StoredStorageBinding) : Outcome StorageBindingSummary :=
  let source := { source with status := .connected, updatedAt := d.now }
  let target := { target with generation := target.generation + 1, updatedAt := d.later }
  ((r.setBinding source).setBinding target).versioned d.versionId actorId target

def cutoverMigrate (r : Registry) (d : Draw) (input : CutoverInput) :
    Outcome StorageBindingSummary :=
  match r.bindings.get input.sourceBindingId, r.bindings.get input.targetBindingId with
  | some source, some target =>
    if source.status ≠ .migrating then
      (.error ⟨none, js "Source binding is not migrating"⟩, r)
    else if target.status ≠ .connected then
      (.error ⟨none, js "Target binding must be Connected before cutover"⟩, r)
    else
      match r.moveRoutes target input.objectDigests with
      | (.error e, r) => (.error e, r)
      | (.ok (), r) => r.finishCutover d input.actorId source target
  | _, _ => (.error bindingNotFound, r)

def commitBlob (r : Registry) (input : CommitBlobInput) : Registry :=
  { r with
    blobs := r.blobs.set
      { objectId := input.objectId
        workspaceId := input.workspaceId
        sha256 := input.sha256
        storageBindingId := input.bindingId
        storageBindingGeneration := input.generation } }

def readBlobRoute (r : Registry) (objectId : JsString) : Option BlobStickyRoute :=
  r.blobs.get objectId

end Registry

/-! ## Routes -/

/-- A key of the client's own for a tenant of the application, and no tenant. -/
def RoutingContext.spoofs (context : RoutingContext) : Bool :=
  (truthy context.externalTenantKey).isSome && (truthy context.applicationId).isSome &&
    (truthy context.applicationTenantId).isNone

namespace Registry

/-- The route through one binding. -/
def gate (r : Registry) (binding : StoredStorageBinding) (inheritedFrom : StorageInheritedFrom)
    (scope : StorageScope) (context : RoutingContext) : ResolveResult :=
  let result (status : StorageBindingStatus) (allowWrite : Bool) (reason : Option JsString) :
      ResolveResult :=
    { bindingId := some binding.id
      generation := some binding.generation
      inheritedFrom := inheritedFrom
      scope := scope
      status := .of status
      allowWrite := allowWrite
      reason := reason
      profile := r.profiles.get binding.profileId }
  if binding.disabled then result .disabled false (some (js "disabled"))
  else if binding.status = .migrating ∧
      context.bindingGeneration.any fun g : Int => decide (g ≠ binding.generation) then
    result binding.status false (some (js "epoch_mismatch"))
  else if binding.status = .migrating ∧ context.purpose = .ingest then
    result binding.status false (some (js "migrate_quarantine"))
  else if binding.status = .connected then result binding.status true none
  else result binding.status false (some (js "not_connected"))

/-- A route that names no binding. -/
def unbound (inheritedFrom : StorageInheritedFrom) (scope : StorageScope) (allowWrite : Bool)
    (reason : String) : ResolveResult where
  bindingId := none
  generation := none
  inheritedFrom := inheritedFrom
  scope := scope
  status := .notConfigured
  allowWrite := allowWrite
  reason := some (js reason)
  profile := none

/-- The binding that a blob sticks to, if the workspace of the context has it. -/
def stickyBinding (r : Registry) (context : RoutingContext) : Option StoredStorageBinding :=
  ((truthy context.blobStorageBindingId).bind r.bindings.get).filter
    (·.workspaceId == context.workspaceId)

def stickyRoute (r : Registry) (sticky : StoredStorageBinding) : ResolveResult where
  bindingId := some sticky.id
  generation := some sticky.generation
  inheritedFrom := .none
  scope := if (truthy sticky.applicationTenantId).isSome then .tenant else .app
  status := .of (if sticky.disabled then .disabled else sticky.status)
  allowWrite := false
  reason := some (js "sticky_read")
  profile := r.profiles.get sticky.profileId

/-- The default binding of the application, or the storage of the platform. -/
def resolveDefault (r : Registry) (context : RoutingContext)
    (applicationTenantId : Option JsString) : ResolveResult :=
  match (truthy context.applicationId).bind fun applicationId =>
    r.findBinding context.workspaceId applicationId none with
  | some binding =>
    r.gate binding (if applicationTenantId.isSome then .app else .none) .app context
  | none =>
    unbound .platform .platform (context.purpose = .ingest || context.purpose = .probe)
      "platform_fallback"

/-- The tenant that shuts its routes for new objects, if it is not active. -/
def shutTenant (r : Registry) (context : RoutingContext)
    (applicationId applicationTenantId : JsString) : Option ApplicationTenant :=
  (r.tenants.get applicationTenantId).filter fun t =>
    t.workspaceId == context.workspaceId && t.applicationId == applicationId &&
      t.status != .active && (context.purpose == .ingest || context.purpose == .probe)

def resolveTenant (r : Registry) (context : RoutingContext)
    (applicationId applicationTenantId : JsString) : ResolveResult :=
  match r.shutTenant context applicationId applicationTenantId with
  | some tenant =>
    unbound .none .tenant false
      (if tenant.status = .suspended then "tenant_suspended" else "tenant_closed")
  | none =>
    match r.findBinding context.workspaceId applicationId (some applicationTenantId) with
    | some binding => r.gate binding .none .tenant context
    | none => r.resolveDefault context (some applicationTenantId)

/-- The tenant of the context, looked up by its key; `none` is an unknown key. -/
def contextTenant (r : Registry) (context : RoutingContext) : Option (Option JsString) :=
  match truthy context.applicationTenantId, truthy context.applicationId,
    truthy context.externalTenantKey with
  | some applicationTenantId, _, _ => some (some applicationTenantId)
  | none, some applicationId, some externalTenantKey =>
    (truthy (r.mapExternalTenantKey context.workspaceId applicationId externalTenantKey)).map some
  | none, _, _ => some none

def resolve (r : Registry) (context : RoutingContext) : ResolveResult :=
  match r.stickyBinding context with
  | some sticky => r.stickyRoute sticky
  | none =>
    if context.spoofs then unbound .platform .platform false "tenant_spoof_rejected"
    else
      match r.contextTenant context with
      | none => unbound .platform .platform false "unknown_external_tenant"
      | some applicationTenantId =>
        match applicationTenantId, truthy context.applicationId with
        | some applicationTenantId, some applicationId =>
          r.resolveTenant context applicationId applicationTenantId
        | _, _ => r.resolveDefault context applicationTenantId

/-- Whether the context names a tenant that shuts its routes. -/
def shuts (r : Registry) (context : RoutingContext) : Bool :=
  (truthy context.applicationId).any fun applicationId =>
    (truthy context.applicationTenantId).any fun applicationTenantId =>
      (r.shutTenant context applicationId applicationTenantId).isSome

/-- The ways in which a context is resolved. -/
inductive Resolved (r : Registry) (context : RoutingContext) : ResolveResult → Prop
  | sticky {b : StoredStorageBinding} (h : r.stickyBinding context = some b) :
    Resolved r context (r.stickyRoute b)
  | spoofed (hsticky : r.stickyBinding context = none) (h : context.spoofs = true) :
    Resolved r context (unbound .platform .platform false "tenant_spoof_rejected")
  | shut {reason : String} (hsticky : r.stickyBinding context = none)
      (hspoofs : context.spoofs = false) (h : r.shuts context = true) :
    Resolved r context (unbound .none .tenant false reason)
  | bound {b : StoredStorageBinding} {inheritedFrom : StorageInheritedFrom} {scope : StorageScope}
      (hsticky : r.stickyBinding context = none) (hspoofs : context.spoofs = false)
      (hshuts : r.shuts context = false) (hb : b ∈ r.bindings.values)
      (hinherited : inheritedFrom ≠ .platform) :
    Resolved r context (r.gate b inheritedFrom scope context)
  | platform (hsticky : r.stickyBinding context = none) (hspoofs : context.spoofs = false)
      (hshuts : r.shuts context = false) :
    Resolved r context (unbound .platform .platform
      (context.purpose = .ingest || context.purpose = .probe) "platform_fallback")

variable {r : Registry} {context : RoutingContext}

/-- The key of a client is only looked up after it has been refused. -/
theorem contextTenant_of_not_spoofs (h : context.spoofs = false) :
    r.contextTenant context = some (truthy context.applicationTenantId) := by
  rw [contextTenant]
  rw [RoutingContext.spoofs] at h
  cases htenant : truthy context.applicationTenantId with
  | some applicationTenantId => rfl
  | none =>
    cases happlication : truthy context.applicationId with
    | none => rfl
    | some applicationId =>
      cases hkey : truthy context.externalTenantKey with
      | none => rfl
      | some externalTenantKey => simp [htenant, happlication, hkey] at h

theorem resolved_default (hsticky : r.stickyBinding context = none)
    (hspoofs : context.spoofs = false) (hshuts : r.shuts context = false)
    (applicationTenantId : Option JsString) :
    Resolved r context (r.resolveDefault context applicationTenantId) := by
  rw [resolveDefault]
  cases hfound : (truthy context.applicationId).bind fun applicationId =>
      r.findBinding context.workspaceId applicationId none with
  | none => exact .platform hsticky hspoofs hshuts
  | some b =>
    obtain ⟨applicationId, -, hb⟩ := Option.bind_eq_some_iff.mp hfound
    refine .bound hsticky hspoofs hshuts (List.mem_of_find?_eq_some hb) ?_
    split <;> decide

theorem resolved_resolve (r : Registry) (context : RoutingContext) :
    Resolved r context (r.resolve context) := by
  rw [resolve]
  cases hsticky : r.stickyBinding context with
  | some b => exact .sticky hsticky
  | none =>
    by_cases hspoofs : context.spoofs = true
    · simp only [hspoofs, if_true]
      exact .spoofed hsticky hspoofs
    · rw [Bool.not_eq_true] at hspoofs
      simp only [hspoofs, contextTenant_of_not_spoofs hspoofs]
      cases htenant : truthy context.applicationTenantId with
      | none =>
        exact resolved_default hsticky hspoofs (by simp [shuts, htenant]) none
      | some applicationTenantId =>
        cases happlication : truthy context.applicationId with
        | none => exact resolved_default hsticky hspoofs (by simp [shuts, happlication]) _
        | some applicationId =>
          have hshuts : r.shuts context =
              (r.shutTenant context applicationId applicationTenantId).isSome := by
            simp [shuts, htenant, happlication]
          dsimp only
          rw [resolveTenant]
          cases htenant : r.shutTenant context applicationId applicationTenantId with
          | some tenant => exact .shut hsticky hspoofs (by rw [hshuts, htenant]; rfl)
          | none =>
            have hopen : r.shuts context = false := by rw [hshuts, htenant]; rfl
            cases hfound : r.findBinding context.workspaceId applicationId
                (some applicationTenantId) with
            | some b =>
              exact .bound hsticky hspoofs hopen (List.mem_of_find?_eq_some hfound) (by decide)
            | none => exact resolved_default hsticky hspoofs hopen _

@[simp] theorem gate_bindingId (b : StoredStorageBinding) (inheritedFrom : StorageInheritedFrom)
    (scope : StorageScope) : (r.gate b inheritedFrom scope context).bindingId = some b.id := by
  unfold gate
  split_ifs <;> rfl

@[simp] theorem gate_profile (b : StoredStorageBinding) (inheritedFrom : StorageInheritedFrom)
    (scope : StorageScope) :
    (r.gate b inheritedFrom scope context).profile = r.profiles.get b.profileId := by
  unfold gate
  split_ifs <;> rfl

@[simp] theorem gate_inheritedFrom (b : StoredStorageBinding) (inheritedFrom : StorageInheritedFrom)
    (scope : StorageScope) :
    (r.gate b inheritedFrom scope context).inheritedFrom = inheritedFrom := by
  unfold gate
  split_ifs <;> rfl

/-- A binding whose route has permission to write is enabled. -/
theorem enabled_of_allowWrite {id : JsString} (hid : (r.resolve context).bindingId = some id)
    (hallow : (r.resolve context).allowWrite = true) :
    ∃ b, r.bindings.get id = some b ∧ b.disabled = false := by
  have hresolved := resolved_resolve r context
  generalize r.resolve context = result at hid hallow hresolved
  cases hresolved with
  | sticky h => cases hallow
  | spoofed hsticky h => cases hid
  | shut hsticky hspoofs h => cases hid
  | @bound b inheritedFrom scope hsticky hspoofs hshuts hb hinherited =>
    rw [gate_bindingId, Option.some_inj] at hid
    refine ⟨b, hid ▸ KeyedMap.get_of_mem hb, ?_⟩
    by_cases hdisabled : b.disabled = true
    · simp [gate, hdisabled] at hallow
    · simpa using hdisabled
  | platform hsticky hspoofs hshuts => cases hid

end Registry

end TrustCore.AppStorage
