import TrustCore.AppStorageSummaries
import TrustCore.Methods

/-!
# The commands of application storage

`createAppStorageCommandMethods` works over any registry. A `Backend` is what it takes of
one: the memory that the operations of the registry work on, and the steps that load this
memory and save it. The registry of a fixture has nothing to load or to save.
-/

namespace TrustCore.AppStorage

open TrustCore.Utf TrustCore.KeyedMaps TrustCore.Methods

/-- A registry with its optional steps of persistence. -/
structure Backend (σ : Type) where
  memory : σ → Registry
  setMemory : σ → Registry → σ
  ensureHydrated : (workspaceId : JsString) → Method σ StorageError Unit
  persistBinding : (bindingId actorId : JsString) → Method σ StorageError Unit
  persistTenant : (tenant : ApplicationTenant) → (expectedUpdatedAt : Option JsString) →
    Method σ StorageError Unit
  persistBindingState : (bindingId : JsString) → Method σ StorageError Unit
  persistPlan : (bindingId : JsString) → Method σ StorageError Unit
  deletePersistedBinding : (workspaceId bindingId : JsString) → Method σ StorageError Unit
  countStickyBlobs : Option ((workspaceId bindingId : JsString) → Method σ StorageError Nat)
  persistStickyCutover : (workspaceId targetBindingId : JsString) → (targetGeneration : Nat) →
    (objectIds : List JsString) → Method σ StorageError Unit

/-- `InMemoryAppStorageRegistry`. -/
def inMemory : Backend Registry where
  memory := id
  setMemory _ r := r
  ensureHydrated _ := pure ()
  persistBinding _ _ := pure ()
  persistTenant _ _ := pure ()
  persistBindingState _ := pure ()
  persistPlan _ := pure ()
  deletePersistedBinding _ _ := pure ()
  countStickyBlobs := none
  persistStickyCutover _ _ _ _ := pure ()

/-- The options of the command methods. A live probe throws the message of an error, or
something that is none. -/
structure CommandOptions where
  allowSyntheticConnectedProbe : Bool
  probeBindingLive : Option ((bindingId : JsString) → (profile : StorageProfileSummary) →
    Except (Option JsString) ProbeInput)

structure ProbeStorageBindingCommand where
  workspaceId : JsString
  bindingId : JsString
  tier : Option JsString

structure RefreshStoragePlanCommand where
  workspaceId : JsString
  bindingId : JsString
  observation : PlanObservation

structure AcceptStoragePlanCommand where
  workspaceId : JsString
  bindingId : JsString
  declaredCapacityBytes : Int
  planCode : Option JsString

structure CutoverStorageMigrateCommand where
  workspaceId : JsString
  sourceBindingId : JsString
  targetBindingId : JsString
  objectDigests : List ObjectDigest

def assertSafeRolePlaceholder (roleArn : JsString) : Bool :=
  !roleArn.contains 42 && decide (js ":role/" <:+: roleArn)

def UpsertStorageBindingCommand.hardeningOk (command : UpsertStorageBindingCommand) : Bool :=
  command.credentialMode != .crossAccountRole || command.roleArn.all assertSafeRolePlaceholder

def ProbeStorageBindingCommand.summary (command : ProbeStorageBindingCommand) : JsString :=
  js "Binding connectivity probe (" ++ command.tier.getD (js "connectivity") ++ js ")"

def storageBindingNotFound : StorageError :=
  ⟨some "RESOURCE_NOT_FOUND", js "Storage binding was not found."⟩

def tenantNotFound : StorageError :=
  ⟨some "RESOURCE_NOT_FOUND", js "Application tenant was not found."⟩

def unsafeRole : StorageError :=
  ⟨some "COMMAND_REJECTED",
    js "This role is unsafe (confused deputy). Update trust policy using the template, then retry."⟩

def stillReferenced : StorageError :=
  ⟨some "COMMAND_REJECTED",
    js "Binding still referenced by sticky blob routes; disable or force-delete."⟩

def deferredByob : JsString :=
  js "Live BYOB probe requires STS AssumeRole (not yet enabled); status remains configured (not Connected)."

def deferredTierA : JsString :=
  js "Live Tier-A connectivity probe is not configured for durable bindings; status remains configured (not Connected)."

/-- The error of a cutover, which always has a code. -/
def StorageError.coded (e : StorageError) : StorageError :=
  { e with code := some (e.code.getD "COMMAND_REJECTED") }

/-- `toSummary` of the binding that `getBinding` gives. -/
def Registry.bindingSummary (r : Registry) (bindingId : JsString) :
    Except StorageError StorageBindingSummary :=
  match r.bindings.get bindingId with
  | none => .error undefinedBinding
  | some binding => r.toSummary binding

namespace Backend

variable {σ α : Type} (B : Backend σ) (options : CommandOptions) (d : Draw)

/-- An operation of the registry. -/
def call (op : Registry → Outcome α) : Method σ StorageError α :=
  .of fun s =>
    let out := op (B.memory s)
    (out.1, B.setMemory s out.2)

/-- An operation that changes nothing. -/
def attempt (op : Registry → Except StorageError α) : Method σ StorageError α :=
  .of fun s => (op (B.memory s), s)

def ask (op : Registry → α) : Method σ StorageError α := B.attempt fun r => .ok (op r)

/-- A payload that `assertNoSecrets` lets through. -/
def published (text : α → JsString) (payload : α) : Method σ StorageError α := do
  B.attempt fun _ => assertNoSecrets (text payload)
  return payload

def requireWorkspaceBinding (bindingId workspaceId : JsString) :
    Method σ StorageError StoredStorageBinding := do
  B.ensureHydrated workspaceId
  B.attempt fun r =>
    match (r.bindings.get bindingId).filter (·.workspaceId == workspaceId) with
    | none => .error storageBindingNotFound
    | some binding => .ok binding

def listApplicationTenants (workspaceId applicationId : JsString) :
    Method σ StorageError (List ApplicationTenant) := do
  B.ensureHydrated workspaceId
  B.ask fun r => r.listTenants workspaceId applicationId

def getApplicationTenant (workspaceId applicationId tenantId : JsString) :
    Method σ StorageError ApplicationTenant := do
  B.ensureHydrated workspaceId
  B.attempt fun r =>
    match r.getTenant workspaceId applicationId tenantId with
    | none => .error tenantNotFound
    | some tenant => .ok tenant

def createApplicationTenant (command : CreateTenantInput) :
    Method σ StorageError ApplicationTenant := do
  B.ensureHydrated command.workspaceId
  let tenant ← B.call fun r => r.createTenant d command
  B.persistTenant tenant none
  return tenant

def updateApplicationTenant (command : UpdateTenantInput) :
    Method σ StorageError ApplicationTenant := do
  B.ensureHydrated command.workspaceId
  let tenant ← B.call fun r => r.updateTenant d command
  B.persistTenant tenant (some command.expectedUpdatedAt)
  return tenant

/-- `suspendApplicationTenant` and `closeApplicationTenant`. -/
def changeTenantStatus (status : TenantStatus)
    (workspaceId applicationId tenantId expectedUpdatedAt : JsString) :
    Method σ StorageError ApplicationTenant := do
  B.ensureHydrated workspaceId
  let tenant ← B.call fun r =>
    r.setTenantStatus d ⟨workspaceId, applicationId, tenantId, status, expectedUpdatedAt⟩
  B.persistTenant tenant (some expectedUpdatedAt)
  return tenant

def suspendApplicationTenant (workspaceId applicationId tenantId expectedUpdatedAt : JsString) :
    Method σ StorageError ApplicationTenant :=
  B.changeTenantStatus d .suspended workspaceId applicationId tenantId expectedUpdatedAt

def closeApplicationTenant (workspaceId applicationId tenantId expectedUpdatedAt : JsString) :
    Method σ StorageError ApplicationTenant :=
  B.changeTenantStatus d .closed workspaceId applicationId tenantId expectedUpdatedAt

def getEffectiveStorage (workspaceId applicationId : JsString)
    (applicationTenantId : Option JsString) : Method σ StorageError EffectiveStorageSummary := do
  B.ensureHydrated workspaceId
  let summary ← B.attempt fun r => r.effectiveSummary workspaceId applicationId applicationTenantId
  B.published EffectiveStorageSummary.text summary

def getStorageBindingRollup (workspaceId : JsString) (applications : List ApplicationName)
    (platform : Option (PlatformStatus × JsString)) :
    Method σ StorageError StorageBindingRollup := do
  B.ensureHydrated workspaceId
  let rollup ← B.ask fun r => r.rollup workspaceId ((platform.map (·.1)).getD .notConfigured)
    ((platform.map (·.2)).getD (js "Platform storage status unknown")) applications
  B.published StorageBindingRollup.text rollup

def listStorageBindings (workspaceId : JsString) (applicationId : Option JsString)
    (applicationTenantId : Option (Option JsString)) :
    Method σ StorageError (List StorageBindingSummary) := do
  B.ensureHydrated workspaceId
  let items ← B.attempt fun r => r.listBindings workspaceId applicationId applicationTenantId
  B.published (fun items => arrayText (items.map (·.text))) items

def getStorageBinding (workspaceId bindingId : JsString) :
    Method σ StorageError StorageBindingSummary := do
  let binding ← B.requireWorkspaceBinding bindingId workspaceId
  let summary ← B.attempt fun r => r.toSummary binding
  B.published StorageBindingSummary.text summary

def upsertStorageBinding (actorId : JsString) (command : UpsertStorageBindingCommand) :
    Method σ StorageError UpsertResult := do
  B.ensureHydrated command.workspaceId
  if command.hardeningOk then
    let created ← B.call fun r => r.upsertBinding d command actorId
    B.persistBinding created.binding.id actorId
    B.published (fun created : UpsertResult => created.binding.text) created
  else throw unsafeRole

/-- The check that a registry with rows of blobs makes before it deletes a binding. -/
def refuseSticky (workspaceId bindingId : JsString) (force : Bool) : Method σ StorageError Unit :=
  match B.countStickyBlobs with
  | none => pure ()
  | some countStickyBlobs =>
    if force then pure ()
    else do
      let sticky ← countStickyBlobs workspaceId bindingId
      if 0 < sticky then throw stillReferenced else pure ()

def deleteStorageBinding (bindingId workspaceId : JsString) (force : Bool) :
    Method σ StorageError StorageBindingSummary := do
  let _ ← B.requireWorkspaceBinding bindingId workspaceId
  B.refuseSticky workspaceId bindingId force
  let summary ← B.call fun r => r.deleteBinding bindingId force
  B.deletePersistedBinding workspaceId bindingId
  B.published StorageBindingSummary.text summary

/-- A change of a binding that is saved with `persistBindingState`. -/
def changeBindingState (bindingId : JsString) (op : Registry → Outcome StorageBindingSummary) :
    Method σ StorageError StorageBindingSummary := do
  let summary ← B.call op
  B.persistBindingState bindingId
  B.published StorageBindingSummary.text summary

def probeStorageBinding (command : ProbeStorageBindingCommand) :
    Method σ StorageError StorageBindingSummary := do
  let bindingId := command.bindingId
  let _ ← B.requireWorkspaceBinding bindingId command.workspaceId
  let hardening ← B.call fun r =>
    let out := r.runHandshakeHardening d bindingId
    (.ok out.1, out.2)
  if hardening.ok then
    let summary ← B.attempt fun r => r.bindingSummary bindingId
    match options.probeBindingLive with
    | some probeBindingLive =>
      if summary.profile.credentialMode = .crossAccountRole then
        B.changeBindingState bindingId fun r => r.markProbeDeferred d bindingId deferredByob
      else
        tryCatch
          (do
            let live ← B.attempt fun _ =>
              match probeBindingLive bindingId summary.profile with
              | .error thrown =>
                .error ⟨none, thrown.getD (js "Binding connectivity probe failed.")⟩
              | .ok live => .ok live
            B.changeBindingState bindingId fun r => r.recordProbe d bindingId live)
          -- also what the step that saves the answer throws ends here
          fun e => B.changeBindingState bindingId fun r =>
            r.recordProbe { d with now := d.later } bindingId
              ⟨false, e.message, some (js "network"), none⟩
    | none =>
      if options.allowSyntheticConnectedProbe then
        B.changeBindingState bindingId fun r =>
          r.recordProbe d bindingId ⟨true, command.summary, none, some true⟩
      else
        B.changeBindingState bindingId fun r => r.markProbeDeferred d bindingId deferredTierA
  else
    B.persistBindingState bindingId
    B.attempt fun r => r.bindingSummary bindingId

def refreshStoragePlan (command : RefreshStoragePlanCommand) :
    Method σ StorageError StorageBindingSummary := do
  let _ ← B.requireWorkspaceBinding command.bindingId command.workspaceId
  B.changeBindingState command.bindingId fun r =>
    r.refreshPlan d command.bindingId command.observation

def acceptStoragePlan (command : AcceptStoragePlanCommand) :
    Method σ StorageError StorageBindingSummary := do
  let _ ← B.requireWorkspaceBinding command.bindingId command.workspaceId
  let summary ← B.call fun r =>
    r.acceptPlan d command.bindingId command.declaredCapacityBytes command.planCode
  B.persistPlan command.bindingId
  B.published StorageBindingSummary.text summary

def disableStorageBinding (bindingId workspaceId : JsString) :
    Method σ StorageError StorageBindingSummary := do
  let _ ← B.requireWorkspaceBinding bindingId workspaceId
  B.changeBindingState bindingId fun r => r.disableBinding d bindingId

def rollbackStorageBinding (actorId bindingId workspaceId : JsString) :
    Method σ StorageError StorageBindingSummary := do
  let _ ← B.requireWorkspaceBinding bindingId workspaceId
  let summary ← B.call fun r => r.rollbackBinding d bindingId actorId
  B.persistBinding bindingId actorId
  B.published StorageBindingSummary.text summary

def cutoverStorageMigrate (actorId : JsString) (command : CutoverStorageMigrateCommand) :
    Method σ StorageError StorageBindingSummary := do
  let _ ← B.requireWorkspaceBinding command.sourceBindingId command.workspaceId
  let _ ← B.requireWorkspaceBinding command.targetBindingId command.workspaceId
  tryCatch
    (do
      let summary ← B.call fun r => r.cutoverMigrate d
        ⟨command.sourceBindingId, command.targetBindingId, command.objectDigests, actorId⟩
      B.persistStickyCutover command.workspaceId command.targetBindingId summary.generation
        (command.objectDigests.map (·.objectId))
      B.persistBindingState command.sourceBindingId
      B.persistBinding command.targetBindingId actorId
      B.published StorageBindingSummary.text summary)
    fun e => throw e.coded

def resolveStorageRoute (context : RoutingContext) : Method σ StorageError ResolveResult := do
  B.ensureHydrated context.workspaceId
  B.ask fun r => r.resolve context

end Backend

inductive AppStorageCommand where
  | listApplicationTenants (workspaceId applicationId : JsString)
  | getApplicationTenant (workspaceId applicationId tenantId : JsString)
  | createApplicationTenant (command : CreateTenantInput)
  | updateApplicationTenant (command : UpdateTenantInput)
  | suspendApplicationTenant (workspaceId applicationId tenantId expectedUpdatedAt : JsString)
  | closeApplicationTenant (workspaceId applicationId tenantId expectedUpdatedAt : JsString)
  | getEffectiveStorage (workspaceId applicationId : JsString)
    (applicationTenantId : Option JsString)
  | getStorageBindingRollup (workspaceId : JsString) (applications : List ApplicationName)
    (platform : Option (PlatformStatus × JsString))
  | listStorageBindings (workspaceId : JsString) (applicationId : Option JsString)
    (applicationTenantId : Option (Option JsString))
  | getStorageBinding (workspaceId bindingId : JsString)
  | upsertStorageBinding (actorId : JsString) (command : UpsertStorageBindingCommand)
  | deleteStorageBinding (bindingId workspaceId : JsString) (force : Bool)
  | probeStorageBinding (command : ProbeStorageBindingCommand)
  | refreshStoragePlan (command : RefreshStoragePlanCommand)
  | acceptStoragePlan (command : AcceptStoragePlanCommand)
  | disableStorageBinding (bindingId workspaceId : JsString)
  | rollbackStorageBinding (actorId bindingId workspaceId : JsString)
  | cutoverStorageMigrate (actorId : JsString) (command : CutoverStorageMigrateCommand)
  | resolveStorageRoute (context : RoutingContext)

inductive Reply where
  | tenants (items : List ApplicationTenant)
  | tenant (tenant : ApplicationTenant)
  | effective (summary : EffectiveStorageSummary)
  | rollup (rollup : StorageBindingRollup)
  | bindings (items : List StorageBindingSummary)
  | binding (summary : StorageBindingSummary)
  | upserted (result : UpsertResult)
  | route (result : ResolveResult)

/-- `createAppStorageCommandMethods`. -/
def Backend.perform {σ : Type} (B : Backend σ) (options : CommandOptions) (d : Draw) :
    AppStorageCommand → Method σ StorageError Reply
  | .listApplicationTenants workspaceId applicationId => do
    return .tenants (← B.listApplicationTenants workspaceId applicationId)
  | .getApplicationTenant workspaceId applicationId tenantId => do
    return .tenant (← B.getApplicationTenant workspaceId applicationId tenantId)
  | .createApplicationTenant command => do
    return .tenant (← B.createApplicationTenant d command)
  | .updateApplicationTenant command => do
    return .tenant (← B.updateApplicationTenant d command)
  | .suspendApplicationTenant workspaceId applicationId tenantId expectedUpdatedAt => do
    return .tenant
      (← B.suspendApplicationTenant d workspaceId applicationId tenantId expectedUpdatedAt)
  | .closeApplicationTenant workspaceId applicationId tenantId expectedUpdatedAt => do
    return .tenant
      (← B.closeApplicationTenant d workspaceId applicationId tenantId expectedUpdatedAt)
  | .getEffectiveStorage workspaceId applicationId applicationTenantId => do
    return .effective (← B.getEffectiveStorage workspaceId applicationId applicationTenantId)
  | .getStorageBindingRollup workspaceId applications platform => do
    return .rollup (← B.getStorageBindingRollup workspaceId applications platform)
  | .listStorageBindings workspaceId applicationId applicationTenantId => do
    return .bindings (← B.listStorageBindings workspaceId applicationId applicationTenantId)
  | .getStorageBinding workspaceId bindingId => do
    return .binding (← B.getStorageBinding workspaceId bindingId)
  | .upsertStorageBinding actorId command => do
    return .upserted (← B.upsertStorageBinding d actorId command)
  | .deleteStorageBinding bindingId workspaceId force => do
    return .binding (← B.deleteStorageBinding bindingId workspaceId force)
  | .probeStorageBinding command => do
    return .binding (← B.probeStorageBinding options d command)
  | .refreshStoragePlan command => do
    return .binding (← B.refreshStoragePlan d command)
  | .acceptStoragePlan command => do
    return .binding (← B.acceptStoragePlan d command)
  | .disableStorageBinding bindingId workspaceId => do
    return .binding (← B.disableStorageBinding d bindingId workspaceId)
  | .rollbackStorageBinding actorId bindingId workspaceId => do
    return .binding (← B.rollbackStorageBinding d actorId bindingId workspaceId)
  | .cutoverStorageMigrate actorId command => do
    return .binding (← B.cutoverStorageMigrate d actorId command)
  | .resolveStorageRoute context => do
    return .route (← B.resolveStorageRoute context)

end TrustCore.AppStorage
