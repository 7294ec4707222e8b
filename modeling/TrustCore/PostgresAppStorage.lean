import Mathlib.Data.Finset.Insert
import TrustCore.AppStorageCommands

/-!
# The registry of application storage over Postgres

`PostgresAppStorageRegistry` keeps an in-memory registry for the operations and loads a
workspace into it from the tables when the workspace is not marked as hydrated. A step
that saves takes the mark away. Every transaction that saves is answered by the database:
it may be executed, executed on the tables that another process has left, or raise, as it
does when a constraint of the tables refuses a row.
-/

namespace TrustCore.AppStorage

open TrustCore.Utf TrustCore.KeyedMaps TrustCore.Json TrustCore.Methods

/-- A row of `storage_profiles`; nothing reads the hash of the external id. -/
structure StorageProfileRow extends StorageProfileSummary where
  workspaceId : JsString
  createdAt : JsString
  updatedAt : JsString
  deriving DecidableEq

/-- A row of `blob_objects`, as far as the registry reads and writes it. -/
structure BlobObjectRow where
  id : JsString
  workspaceId : JsString
  storageBindingId : Option JsString
  storageBindingGeneration : Option Nat

structure Database where
  tenants : KeyedMap ApplicationTenant.id
  profiles : KeyedMap fun p : StorageProfileRow => p.id
  bindings : KeyedMap StoredStorageBinding.id
  versions : List BindingVersion
  blobs : KeyedMap BlobObjectRow.id

/-- The result of a transaction and the tables it leaves, or the error that rolls it back. -/
abbrev Transaction (α : Type) := Database → Except StorageError (α × Database)

namespace Database

def empty : Database := ⟨.empty, .empty, .empty, [], .empty⟩

def listAllTenants (db : Database) (workspaceId : JsString) : List ApplicationTenant :=
  (db.tenants.values.filter (·.workspaceId == workspaceId)).insertionSort fun t t' =>
    if t.applicationId = t'.applicationId then unitsLe t.externalTenantKey t'.externalTenantKey
    else unitsLe t.applicationId t'.applicationId

def listProfiles (db : Database) (workspaceId : JsString) : List StorageProfileRow :=
  db.profiles.values.filter (·.workspaceId == workspaceId)

def listBindings (db : Database) (workspaceId : JsString) : List StoredStorageBinding :=
  (db.bindings.values.filter (·.workspaceId == workspaceId)).insertionSort fun b b' =>
    unitsLe b.createdAt b'.createdAt

def listBindingVersions (db : Database) (workspaceId bindingId : JsString) :
    List BindingVersion :=
  (db.versions.filter fun v =>
    v.workspaceId == workspaceId && v.bindingId == bindingId).insertionSort fun v v' =>
      v'.generation ≤ v.generation

def countStickyBlobs (db : Database) (workspaceId bindingId : JsString) : Nat :=
  db.blobs.values.countP fun blob =>
    blob.workspaceId == workspaceId && blob.storageBindingId == some bindingId

def getTenant (workspaceId applicationId tenantId : JsString) :
    Transaction (Option ApplicationTenant) := fun db =>
  .ok ((db.tenants.get tenantId).filter fun t =>
    t.workspaceId == workspaceId && t.applicationId == applicationId, db)

def createTenant (tenant : ApplicationTenant) : Transaction Unit := fun db =>
  if db.tenants.values.any fun t => t.workspaceId == tenant.workspaceId &&
      t.applicationId == tenant.applicationId && t.externalTenantKey == tenant.externalTenantKey
  then .ok ((), db)
  else .ok ((), { db with tenants := db.tenants.set tenant })

def tenantConflict : StorageError :=
  ⟨some "CONFLICT", js "Application tenant update conflict."⟩

def updateTenant (tenant : ApplicationTenant) (expectedUpdatedAt : JsString) :
    Transaction Unit := fun db =>
  match (db.tenants.get tenant.id).filter fun t => t.workspaceId == tenant.workspaceId &&
    t.applicationId == tenant.applicationId && t.updatedAt == expectedUpdatedAt with
  | none => .error tenantConflict
  | some row =>
    .ok ((), { db with
      tenants := db.tenants.set { row with
        displayName := tenant.displayName
        status := tenant.status
        updatedAt := tenant.updatedAt } })

/-- `INSERT … ON CONFLICT (id) DO UPDATE` of a profile. -/
def putProfile (db : Database) (row : StorageProfileRow) : Database :=
  { db with
    profiles := db.profiles.set
      (match db.profiles.get row.id with
      | none => row
      | some old => { row with workspaceId := old.workspaceId, createdAt := old.createdAt }) }

/-- `INSERT … ON CONFLICT (id) DO UPDATE` of a binding. -/
def putBinding (db : Database) (row : StoredStorageBinding) : Database :=
  { db with
    bindings := db.bindings.set
      (match db.bindings.get row.id with
      | none => row
      | some old => { row with
          workspaceId := old.workspaceId
          applicationId := old.applicationId
          applicationTenantId := old.applicationTenantId
          createdAt := old.createdAt }) }

def upsertProfileAndBinding (profile : StorageProfileRow) (binding : StoredStorageBinding)
    (version : Option BindingVersion) : Transaction Unit := fun db =>
  let db := (db.putProfile profile).putBinding binding
  .ok ((), { db with versions := db.versions ++ version.toList })

def updateBindingState (binding : StoredStorageBinding) : Transaction Unit := fun db =>
  match (db.bindings.get binding.id).filter (·.workspaceId == binding.workspaceId) with
  | none => .ok ((), db)
  | some row =>
    .ok ((), { db with
      bindings := db.bindings.set { binding with
        applicationId := row.applicationId
        applicationTenantId := row.applicationTenantId
        profileId := row.profileId
        createdAt := row.createdAt } })

def updateProfilePlan (workspaceId profileId : JsString) (declaredCapacityBytes : Option Int)
    (declaredPlanCode : Option JsString) (updatedAt : JsString) : Transaction Unit := fun db =>
  match (db.profiles.get profileId).filter (·.workspaceId == workspaceId) with
  | none => .ok ((), db)
  | some row =>
    .ok ((), { db with
      profiles := db.profiles.set { row with
        declaredCapacityBytes := declaredCapacityBytes
        declaredPlanCode := declaredPlanCode
        updatedAt := updatedAt } })

/-- Deletes a profile that no binding of the workspace has. -/
def sweepProfile (db : Database) (workspaceId profileId : JsString) : Database :=
  match (db.profiles.get profileId).filter (·.workspaceId == workspaceId) with
  | none => db
  | some _ =>
    if db.bindings.values.any fun b => b.workspaceId == workspaceId && b.profileId == profileId
    then db
    else { db with profiles := db.profiles.erase profileId }

def deleteBinding (workspaceId bindingId : JsString) : Transaction Unit := fun db =>
  let db := { db with
    versions := db.versions.filter fun v =>
      !(v.workspaceId == workspaceId && v.bindingId == bindingId) }
  match (db.bindings.get bindingId).filter (·.workspaceId == workspaceId) with
  | none => .ok ((), db)
  | some row =>
    .ok ((), { db with bindings := db.bindings.erase bindingId }.sweepProfile workspaceId
      row.profileId)

def updateStickyBindings (workspaceId targetBindingId : JsString) (targetGeneration : Nat)
    (objectIds : List JsString) : Transaction Unit := fun db =>
  .ok ((), { db with
    blobs := (db.blobs.values.filter fun blob =>
      blob.workspaceId == workspaceId && objectIds.contains blob.id).foldl
        (fun blobs blob => blobs.set { blob with
          storageBindingId := some targetBindingId
          storageBindingGeneration := some targetGeneration }) db.blobs })

end Database

/-- How the database answers a transaction that saves. -/
inductive Answer where
  | executes
  /-- Another process has left these tables. -/
  | executesOn (database : Database)
  | raises (e : StorageError)

/-- The process and the database; `errors` are those that the transactions raised. -/
structure Durable where
  memory : Registry
  hydratedWorkspaces : Finset JsString
  database : Database
  answers : List Answer
  errors : List StorageError

def StorageProfileRow.stored (row : StorageProfileRow) : StoredStorageProfile where
  toStorageProfileSummary := row.toStorageProfileSummary
  workspaceId := row.workspaceId
  externalId := none
  externalIdRevealed := true
  createdAt := row.createdAt
  updatedAt := row.updatedAt

def StoredStorageProfile.row (p : StoredStorageProfile) : StorageProfileRow where
  toStorageProfileSummary := p.toStorageProfileSummary
  workspaceId := p.workspaceId
  createdAt := p.createdAt
  updatedAt := p.updatedAt

/-- The registry with the rows of a workspace loaded over it. -/
def Registry.load (r : Registry) (db : Database) (workspaceId : JsString) : Registry :=
  { r with
    tenants := (db.listAllTenants workspaceId).foldl .set r.tenants
    profiles := (db.listProfiles workspaceId).foldl (fun ps row => ps.set row.stored) r.profiles
    bindings := (db.listBindings workspaceId).foldl .set r.bindings
    versions := r.versions ++ (db.listBindings workspaceId).flatMap fun b =>
      db.listBindingVersions workspaceId b.id }

namespace Durable

/-- A process that has just started. -/
def fresh (db : Database) : Durable := ⟨.empty, ∅, db, [], []⟩

/-- `ensureHydrated`. -/
def hydrate (s : Durable) (workspaceId : JsString) : Durable :=
  if workspaceId ∈ s.hydratedWorkspaces then s
  else
    { s with
      memory := s.memory.load s.database workspaceId
      hydratedWorkspaces := insert workspaceId s.hydratedWorkspaces }

def fail (s : Durable) (e : StorageError) : Durable := { s with errors := s.errors ++ [e] }

def execute {α : Type} (s : Durable) (q : Transaction α) : Except StorageError α × Durable :=
  match q s.database with
  | .error e => (.error e, s.fail e)
  | .ok (a, db) => (.ok a, { s with database := db })

end Durable

/-- A transaction that saves. -/
def transact {α : Type} (q : Transaction α) : Method Durable StorageError α := .of fun s =>
  match s.answers with
  | [] => s.execute q
  | .executes :: rest => { s with answers := rest }.execute q
  | .executesOn db :: rest => { s with answers := rest, database := db }.execute q
  | .raises e :: rest => (.error e, { s with answers := rest }.fail e)

/-- `hydratedWorkspaces.delete`. -/
def unmark (workspaceId : JsString) : Method Durable StorageError Unit := .of fun s =>
  (.ok (), { s with hydratedWorkspaces := s.hydratedWorkspaces.erase workspaceId })

/-- `getBinding` on the memory, inside a step that saves. -/
def withMemory (step : Registry → Method Durable StorageError Unit) :
    Method Durable StorageError Unit := .of fun s => (step s.memory).exec s

/-- `PostgresAppStorageRegistry`; `rowId` is the id of the version that a step saves. -/
def postgres (rowId : JsString) : Backend Durable where
  memory := Durable.memory
  setMemory s r := { s with memory := r }
  ensureHydrated workspaceId := .of fun s => (.ok (), s.hydrate workspaceId)
  persistBinding bindingId actorId := withMemory fun r =>
    match r.bindings.get bindingId with
    | none => pure ()
    | some binding =>
      match r.profiles.get binding.profileId, r.toSummary binding with
      | some profile, .ok snapshot => do
        transact (Database.upsertProfileAndBinding profile.row binding
          ((truthy (some actorId)).map fun createdBy =>
            { id := rowId
              workspaceId := binding.workspaceId
              bindingId := binding.id
              generation := binding.generation
              snapshot := snapshot
              createdBy := createdBy
              createdAt := binding.updatedAt }))
        unmark binding.workspaceId
      | _, _ => pure ()
  persistTenant tenant expectedUpdatedAt := do
    let existing ← transact (Database.getTenant tenant.workspaceId tenant.applicationId tenant.id)
    match existing with
    | none => transact (Database.createTenant tenant)
    | some existing =>
      transact (Database.updateTenant tenant (expectedUpdatedAt.getD existing.updatedAt))
    unmark tenant.workspaceId
  persistBindingState bindingId := withMemory fun r =>
    match r.bindings.get bindingId with
    | none => pure ()
    | some binding => do
      transact (Database.updateBindingState binding)
      unmark binding.workspaceId
  persistPlan bindingId := withMemory fun r =>
    match r.bindings.get bindingId with
    | none => pure ()
    | some binding =>
      match r.profiles.get binding.profileId with
      | none => pure ()
      | some profile => do
        transact (Database.updateProfilePlan binding.workspaceId profile.id
          profile.declaredCapacityBytes profile.declaredPlanCode profile.updatedAt)
        transact (Database.updateBindingState binding)
        unmark binding.workspaceId
  deletePersistedBinding workspaceId bindingId := do
    transact (Database.deleteBinding workspaceId bindingId)
    unmark workspaceId
  countStickyBlobs := some fun workspaceId bindingId =>
    .of fun s => (.ok (s.database.countStickyBlobs workspaceId bindingId), s)
  persistStickyCutover workspaceId targetBindingId targetGeneration objectIds := do
    if objectIds.isEmpty then pure ()
    else
      transact (Database.updateStickyBindings workspaceId targetBindingId targetGeneration objectIds)
    unmark workspaceId

end TrustCore.AppStorage
