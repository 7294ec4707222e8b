import TrustCore.AppStorageCutover
import TrustCore.IngestRoutes

/-!
# Routes to storage

`BindingStorageRouter` turns what the registry resolves into the storage of an ingest or
the signer of a download. It looks at the binding and the profile of a route before it
looks at the permission to write, so a refusal without a binding reads as the default of
the platform, and so does the route of a blob whose binding is gone.
-/

namespace TrustCore.AppStorage

open TrustCore.Utf TrustCore.KeyedMaps TrustCore.Runs

variable {κ ψ : Type}

structure IngestStorageRoute (κ : Type) where
  storage : κ
  bindingId : Option JsString
  generation : Option Nat
  reason : Option JsString

structure DownloadStorageRoute (ψ : Type) where
  signer : Option ψ
  bindingId : Option JsString
  generation : Option Nat
  reason : Option JsString

structure BindingStorageRouter (κ ψ : Type) where
  enabled : Bool
  platformStorage : κ
  platformSigner : Option ψ
  createStorage : StorageProfileSummary → Option κ
  createSigner : StorageProfileSummary → Option ψ

namespace BindingStorageRouter

def forIngest (router : BindingStorageRouter κ ψ) (resolveRoute : RoutingContext → ResolveResult)
    (context : RoutingContext) : Except StorageError (IngestStorageRoute κ) :=
  if !router.enabled || (truthy context.applicationId).isNone then
    .ok ⟨router.platformStorage, none, none, some (js "platform_default")⟩
  else
    let resolved := resolveRoute context
    let platform : IngestStorageRoute κ := ⟨router.platformStorage, none, none,
      some (resolved.reason.getD (js "platform_fallback"))⟩
    if resolved.inheritedFrom = .platform then .ok platform
    else
      match truthy resolved.bindingId, resolved.profile with
      | some bindingId, some profile =>
        if !resolved.allowWrite then
          .error ⟨some "COMMAND_REJECTED", js "Storage routing denied for ingest (" ++
            resolved.reason.getD (js "not_connected") ++ js ")."⟩
        else
          match router.createStorage profile.toStorageProfileSummary with
          | none => .error ⟨some "COMMAND_REJECTED", js "Binding ObjectStorage could not be constructed (credential mode unsupported or host credentials missing)."⟩
          | some storage => .ok ⟨storage, some bindingId, resolved.generation, resolved.reason⟩
      | _, _ => .ok platform

def forDownload (router : BindingStorageRouter κ ψ) (resolveRoute : RoutingContext → ResolveResult)
    (workspaceId : JsString) (storageBindingId : Option JsString) :
    Except StorageError (DownloadStorageRoute ψ) :=
  if !router.enabled || (truthy storageBindingId).isNone then
    .ok ⟨router.platformSigner, none, none, some (js "platform_default")⟩
  else
    let resolved := resolveRoute
      { workspaceId := workspaceId
        applicationId := none
        applicationTenantId := none
        externalTenantKey := none
        purpose := .download
        blobStorageBindingId := storageBindingId
        bindingGeneration := none }
    match truthy resolved.bindingId, resolved.profile with
    | some bindingId, some profile =>
      match router.createSigner profile.toStorageProfileSummary with
      | none => .error ⟨some "COMMAND_REJECTED",
          js "Binding transfer signer could not be constructed for sticky download."⟩
      | some signer => .ok ⟨some signer, some bindingId, resolved.generation, resolved.reason⟩
    | _, _ =>
      .ok ⟨router.platformSigner, none, none,
        some (resolved.reason.getD (js "platform_fallback"))⟩

variable {router : BindingStorageRouter κ ψ} {resolveRoute : RoutingContext → ResolveResult}
  {context : RoutingContext}

theorem isNone_truthy (s : Option JsString) : (truthy s).isNone = (s.getD []).isEmpty := by
  rcases s with - | (- | ⟨u, s⟩) <;> rfl

/-- What `ObjectIngest.forIngest` answers to an ingest is what the router does, apart from the reason. -/
theorem forIngest_fields : ((router.forIngest resolveRoute context).map fun route =>
      (⟨some route.storage, route.bindingId, route.generation⟩ : ObjectIngest.RoutingFields κ)).mapError
        (fun e => (⟨e.code, e.message⟩ : ObjectIngest.IngestError)) =
    ObjectIngest.forIngest router.enabled router.platformStorage
      (fun profile : StoredStorageProfile => router.createStorage profile.toStorageProfileSummary)
      context.applicationId
      { fromPlatform := decide ((resolveRoute context).inheritedFrom = .platform)
        bindingId := (resolveRoute context).bindingId
        generation := (resolveRoute context).generation
        profile := (resolveRoute context).profile
        allowWrite := (resolveRoute context).allowWrite
        reason := (resolveRoute context).reason } := by
  rw [forIngest, ObjectIngest.forIngest, isNone_truthy]
  generalize resolveRoute context = resolved
  obtain ⟨bindingId, generation, inheritedFrom, scope, status, allowWrite, reason, profile⟩ := resolved
  split
  · rfl
  · by_cases hplatform : inheritedFrom = .platform
    · simp [hplatform, Except.map, Except.mapError]
    · simp only [hplatform, if_false, decide_false]
      rcases bindingId with - | (- | ⟨u, bindingId⟩)
      · rfl
      · rfl
      · cases profile with
        | none => rfl
        | some profile =>
          cases allowWrite with
          | false => rfl
          | true =>
            have hid : truthy (some (u :: bindingId)) = some (u :: bindingId) := rfl
            rw [hid]
            dsimp only
            generalize router.createStorage profile.toStorageProfileSummary = storage
            cases storage with
            | none => rfl
            | some storage => rfl

/-- The fields that an ingest is told are routed, when every profile is built into the storage of its
binding. -/
theorem routed_forIngest {storageOf : JsString → κ} {route : IngestStorageRoute κ}
    (hprofile : ∀ bindingId profile storage, (resolveRoute context).bindingId = some bindingId →
      (resolveRoute context).profile = some profile →
      router.createStorage profile.toStorageProfileSummary = some storage →
      storage = storageOf bindingId)
    (h : router.forIngest resolveRoute context = .ok route) :
    ObjectIngest.Routed router.platformStorage storageOf
      ⟨some route.storage, route.bindingId, route.generation⟩ := by
  have hfields := @forIngest_fields _ _ router resolveRoute context
  rw [h] at hfields
  exact ObjectIngest.forIngest_routed _ _ hprofile hfields.symm

theorem forIngest_enabled (henabled : router.enabled = true)
    (happlication : (truthy context.applicationId).isSome = true) :
    router.forIngest resolveRoute context =
      let resolved := resolveRoute context
      let platform : IngestStorageRoute κ := ⟨router.platformStorage, none, none,
        some (resolved.reason.getD (js "platform_fallback"))⟩
      if resolved.inheritedFrom = .platform then .ok platform
      else
        match truthy resolved.bindingId, resolved.profile with
        | some bindingId, some profile =>
          if !resolved.allowWrite then
            .error ⟨some "COMMAND_REJECTED", js "Storage routing denied for ingest (" ++
              resolved.reason.getD (js "not_connected") ++ js ")."⟩
          else
            match router.createStorage profile.toStorageProfileSummary with
            | none => .error ⟨some "COMMAND_REJECTED", js "Binding ObjectStorage could not be constructed (credential mode unsupported or host credentials missing)."⟩
            | some storage => .ok ⟨storage, some bindingId, resolved.generation, resolved.reason⟩
        | _, _ => .ok platform := by
  rw [forIngest, henabled]
  exact if_neg (by simp [Option.isNone_eq_false_iff.mpr happlication])

/-- A route through a binding is given only with permission to write. -/
theorem forIngest_bound (henabled : router.enabled = true)
    (happlication : (truthy context.applicationId).isSome = true)
    (hinherited : (resolveRoute context).inheritedFrom ≠ .platform)
    (hid : (truthy (resolveRoute context).bindingId).isSome = true)
    (hprofile : (resolveRoute context).profile.isSome = true) {route : IngestStorageRoute κ}
    (h : router.forIngest resolveRoute context = .ok route) :
    (resolveRoute context).allowWrite = true := by
  obtain ⟨id, hid⟩ := Option.isSome_iff_exists.mp hid
  obtain ⟨profile, hprofile⟩ := Option.isSome_iff_exists.mp hprofile
  rw [forIngest_enabled henabled happlication] at h
  dsimp only at h
  rw [if_neg hinherited, hid, hprofile] at h
  dsimp only at h
  by_contra hallow
  rw [if_pos (by simpa using hallow)] at h
  cases h

/-- A route that names no binding is the platform's. -/
theorem forIngest_unbound (henabled : router.enabled = true)
    (happlication : (truthy context.applicationId).isSome = true)
    (hid : (resolveRoute context).bindingId = none) :
    router.forIngest resolveRoute context = .ok ⟨router.platformStorage, none, none,
      some ((resolveRoute context).reason.getD (js "platform_fallback"))⟩ := by
  rw [forIngest_enabled henabled happlication]
  dsimp only
  rw [hid]
  split <;> rfl

end BindingStorageRouter

section Ingest

variable {r : Registry} {used : List JsString} {context : RoutingContext}

/-- A binding of a sound registry has an id and a profile. -/
theorem Registry.Sound.bound (hsound : r.Sound used) {b : StoredStorageBinding}
    (hb : b ∈ r.bindings.values) :
    truthy (some b.id) = some b.id ∧ ∃ p, r.profiles.get b.profileId = some p := by
  obtain ⟨p, hp, -⟩ := hsound.profiled b hb
  exact ⟨truthy_eq_some (hsound.nonempty _ (hsound.knownBindings b hb).1), p, hp⟩

theorem stickyBinding_mem {b : StoredStorageBinding} (h : r.stickyBinding context = some b) :
    b ∈ r.bindings.values := by
  obtain ⟨hbind, -⟩ := Option.filter_eq_some_iff.mp h
  obtain ⟨id, -, hget⟩ := Option.bind_eq_some_iff.mp hbind
  exact KeyedMap.mem_of_get hget

/-- With routing enabled and an application named, an ingest is given a storage only with
permission to write, exactly for the contexts that name a sticky binding, or neither a key
without a tenant nor a tenant that is suspended or closed. -/
theorem ingest_allowed_iff {s : Session} (hs : registryMachine.Reachable s)
    (router : BindingStorageRouter κ ψ) (henabled : router.enabled = true)
    (happlication : (truthy context.applicationId).isSome = true)
    (hpurpose : context.purpose = .ingest) :
    (∀ route, router.forIngest s.registry.resolve context = .ok route →
      (s.registry.resolve context).allowWrite = true) ↔
    ((s.registry.stickyBinding context).isSome = true ∨
      context.spoofs = false ∧ s.registry.shuts context = false) := by
  have hsound := sound_of_reachable hs
  have hresolved := Registry.resolved_resolve s.registry context
  have hbound (hinherited : (s.registry.resolve context).inheritedFrom ≠ .platform)
      (hid : (truthy (s.registry.resolve context).bindingId).isSome = true)
      (hprofile : (s.registry.resolve context).profile.isSome = true) :
      ∀ route, router.forIngest s.registry.resolve context = .ok route →
        (s.registry.resolve context).allowWrite = true :=
    fun _ => BindingStorageRouter.forIngest_bound henabled happlication hinherited hid hprofile
  have hunbound (hid : (s.registry.resolve context).bindingId = none) :
      router.forIngest s.registry.resolve context = .ok ⟨router.platformStorage, none, none,
        some ((s.registry.resolve context).reason.getD (js "platform_fallback"))⟩ :=
    BindingStorageRouter.forIngest_unbound henabled happlication hid
  generalize s.registry.resolve context = result at hresolved hbound hunbound
  cases hresolved with
  | @sticky b hsticky =>
    obtain ⟨hid, p, hp⟩ := hsound.bound (stickyBinding_mem hsticky)
    refine iff_of_true (hbound (by simp [Registry.stickyRoute]) ?_ ?_) (.inl ?_)
    · simp [Registry.stickyRoute, hid]
    · simp [Registry.stickyRoute, hp]
    · rw [hsticky]
      rfl
  | spoofed hsticky hspoofs =>
    refine iff_of_false ?_ (by simp [hsticky, hspoofs])
    intro h
    cases h _ (hunbound rfl)
  | shut hsticky hspoofs hshuts =>
    refine iff_of_false ?_ (by simp [hsticky, hshuts])
    intro h
    cases h _ (hunbound rfl)
  | bound hsticky hspoofs hshuts hb hinherited =>
    obtain ⟨hid, p, hp⟩ := hsound.bound hb
    refine iff_of_true (hbound ?_ ?_ ?_) (.inr ⟨hspoofs, hshuts⟩)
    · rw [Registry.gate_inheritedFrom]
      exact hinherited
    · rw [Registry.gate_bindingId, hid]
      rfl
    · rw [Registry.gate_profile, hp]
      rfl
  | platform hsticky hspoofs hshuts =>
    refine iff_of_true ?_ (.inr ⟨hspoofs, hshuts⟩)
    intro route _
    simp [Registry.unbound, hpurpose]

/-- A tenant with a binding of its own, suspended. -/
def suspendedSession : Session :=
  sampleSession [.createTenant ⟨sampleWorkspace, sampleApplication, js "k", js "n"⟩,
    .setTenantStatus ⟨sampleWorkspace, sampleApplication, [1, 0], .suspended, js "now"⟩]

theorem suspendedSession_reachable : registryMachine.Reachable suspendedSession := by
  have hempty : registryMachine.Reachable (sampleSession []) := .init rfl
  exact next_reaches (next_reaches hempty trivial (by decide)) trivial (by decide)

/-- An ingest of the tenant. -/
def tenantContext : RoutingContext where
  workspaceId := sampleWorkspace
  applicationId := some sampleApplication
  applicationTenantId := some [1, 0]
  externalTenantKey := none
  purpose := .ingest
  blobStorageBindingId := none
  bindingGeneration := none

/-- A router whose only storage is the platform's. -/
def platformRouter : BindingStorageRouter Unit Unit := ⟨true, (), some (), fun _ => none, fun _ => none⟩

theorem ingest_allowed_disabled : ¬ ∃ route,
    platformRouter.forIngest disabledSession.registry.resolve tenantContext = .ok route ∧
      (disabledSession.registry.resolve tenantContext).allowWrite = false := by
  have hs : registryMachine.Reachable disabledSession := by
    have hempty : registryMachine.Reachable (sampleSession []) := .init rfl
    exact next_reaches (next_reaches (next_reaches hempty trivial (by decide)) trivial (by decide))
      trivial (by decide)
  have hallowed : ∀ route,
      platformRouter.forIngest disabledSession.registry.resolve tenantContext = .ok route →
        (disabledSession.registry.resolve tenantContext).allowWrite = true :=
    (ingest_allowed_iff hs platformRouter rfl (by decide) rfl).mpr (.inr (by decide))
  rintro ⟨route, hroute, hrefused⟩
  exact absurd (hallowed route hroute) (by rw [hrefused]; decide)

/-- The storage of the platform is handed out for a tenant that is suspended. -/
theorem suspended_tenant_ingests : registryMachine.Reachable suspendedSession ∧
    ∃ route, platformRouter.forIngest suspendedSession.registry.resolve tenantContext = .ok route ∧
      (suspendedSession.registry.resolve tenantContext).allowWrite = false :=
  ⟨suspendedSession_reachable, _, rfl, by decide⟩

end Ingest

/-! ## Sticky downloads -/

section Download

variable {r r' : Registry} {d : Draw} {c : RegistryCommand} {used : List JsString}

/-- The download of a blob is refused, or signed with the profile of the blob's binding. -/
def SignedByBinding (router : BindingStorageRouter κ ψ) (r : Registry)
    (workspaceId bindingId : JsString) : Prop :=
  match router.forDownload r.resolve workspaceId (some bindingId) with
  | .error _ => True
  | .ok route => route.bindingId = some bindingId ∧ ∃ b p signer,
      r.bindings.get bindingId = some b ∧ r.profiles.get b.profileId = some p ∧
        router.createSigner p.toStorageProfileSummary = some signer ∧ route.signer = some signer

/-- The registry has the binding, in this workspace. -/
def Registry.Holds (r : Registry) (workspaceId bindingId : JsString) : Prop :=
  ∃ b, r.bindings.get bindingId = some b ∧ b.workspaceId = workspaceId

/-- The context that a download is resolved in. -/
def downloadContext (workspaceId : JsString) (storageBindingId : Option JsString) :
    RoutingContext where
  workspaceId := workspaceId
  applicationId := none
  applicationTenantId := none
  externalTenantKey := none
  purpose := .download
  blobStorageBindingId := storageBindingId
  bindingGeneration := none

/-- Without its binding, a blob is looked for on the platform. -/
theorem resolve_of_unstuck {workspaceId : JsString} {storageBindingId : Option JsString}
    (h : r.stickyBinding (downloadContext workspaceId storageBindingId) = none) :
    r.resolve (downloadContext workspaceId storageBindingId) =
      Registry.unbound .platform .platform false "platform_fallback" := by
  rw [Registry.resolve, h]
  rfl

/-- With routing enabled, a download is signed by its blob's binding or refused exactly as long
as the registry has the binding. -/
theorem signed_iff_holds (hsound : r.Sound used) (router : BindingStorageRouter κ ψ)
    (henabled : router.enabled = true) (workspaceId bindingId : JsString) :
    SignedByBinding router r workspaceId bindingId ↔ r.Holds workspaceId bindingId := by
  have hrouted (hid : truthy (some bindingId) = some bindingId) :
      router.forDownload r.resolve workspaceId (some bindingId) =
        let resolved := r.resolve (downloadContext workspaceId (some bindingId))
        match truthy resolved.bindingId, resolved.profile with
        | some bindingId, some profile =>
          match router.createSigner profile.toStorageProfileSummary with
          | none => .error ⟨some "COMMAND_REJECTED",
              js "Binding transfer signer could not be constructed for sticky download."⟩
          | some signer => .ok ⟨some signer, some bindingId, resolved.generation, resolved.reason⟩
        | _, _ => .ok ⟨router.platformSigner, none, none,
            some (resolved.reason.getD (js "platform_fallback"))⟩ := by
    rw [BindingStorageRouter.forDownload, henabled, hid]
    rfl
  constructor
  · intro h
    by_contra hnot
    by_cases hempty : bindingId = []
    · rw [SignedByBinding, BindingStorageRouter.forDownload, henabled, hempty] at h
      cases h.1
    · have hid := truthy_eq_some hempty
      have hunstuck : r.stickyBinding (downloadContext workspaceId (some bindingId)) = none := by
        rw [Registry.stickyBinding, downloadContext, hid, Option.bind_some,
          Option.filter_eq_none_iff]
        intro b hb hworkspace
        exact hnot ⟨b, hb, beq_iff_eq.mp hworkspace⟩
      rw [SignedByBinding, hrouted hid, resolve_of_unstuck hunstuck] at h
      cases h.1
  · rintro ⟨b, hb, hworkspace⟩
    obtain ⟨hid, p, hp⟩ := hsound.bound (KeyedMap.mem_of_get hb)
    rw [KeyedMap.key_of_get hb] at hid
    have hsticky : r.stickyBinding (downloadContext workspaceId (some bindingId)) = some b := by
      rw [Registry.stickyBinding, downloadContext, hid, Option.bind_some, hb, Option.filter_some,
        if_pos (beq_iff_eq.mpr hworkspace)]
    rw [SignedByBinding, hrouted hid, Registry.resolve, hsticky]
    simp only [Registry.stickyRoute, KeyedMap.key_of_get hb, hid, hp]
    cases hsigner : router.createSigner p.toStorageProfileSummary with
    | none => trivial
    | some signer => exact ⟨rfl, b, p, signer, hb, hp, hsigner, rfl⟩

theorem withBinding_blobs {α : Type} {bindingId : JsString} {act : StoredStorageBinding → Outcome α}
    (h : ∀ b, (act b).2.blobs = r.blobs) : (r.withBinding bindingId act).2.blobs = r.blobs := by
  rw [Registry.withBinding]
  split
  · rfl
  · exact h _

theorem versioned_blobs (r : Registry) (versionId actorId : JsString) (b : StoredStorageBinding) :
    (r.versioned versionId actorId b).2.blobs = r.blobs := by
  rw [Registry.versioned]
  split <;> rfl

/-- The commands that write routes of blobs. -/
def RegistryCommand.routes : RegistryCommand → Bool
  | .cutoverMigrate _ => true
  | .commitBlob _ => true
  | _ => false

theorem perform_blobs (h : c.routes = false) : (r.perform d c).2.blobs = r.blobs := by
  cases c with
  | createTenant input =>
    simp only [Registry.perform, Outcome.done, Registry.createTenant]
    split <;> rfl
  | updateTenant input =>
    simp only [Registry.perform, Outcome.done, Registry.updateTenant, Registry.changeTenant]
    split
    · rfl
    · split <;> rfl
  | setTenantStatus input =>
    simp only [Registry.perform, Outcome.done, Registry.setTenantStatus, Registry.changeTenant]
    split
    · rfl
    · split <;> rfl
  | upsertBinding command actorId =>
    simp only [Registry.perform, Outcome.done, Registry.upsertBinding]
    split
    · rw [Registry.updateBinding]
      split
      · rfl
      · split
        · rfl
        · exact versioned_blobs _ _ _ _
    · exact versioned_blobs _ _ _ _
  | revealExternalId profileId =>
    simp only [Registry.perform, Registry.revealExternalId]
    split
    · rfl
    · split
      · rfl
      · split <;> rfl
  | setAssumeWithoutExternalId bindingId succeeds => rfl
  | runHandshakeHardening bindingId =>
    simp only [Registry.perform, Registry.runHandshakeHardening]
    split
    · rfl
    · dsimp only
      split <;> rfl
  | recordProbe bindingId input => exact withBinding_blobs fun b => rfl
  | refreshPlan bindingId observation =>
    apply withBinding_blobs
    intro b
    dsimp only
    split <;> rfl
  | acceptPlan bindingId capacity planCode =>
    apply withBinding_blobs
    intro b
    dsimp only
    split <;> rfl
  | disableBinding bindingId => exact withBinding_blobs fun b => rfl
  | deleteBinding bindingId force =>
    apply withBinding_blobs
    intro b
    dsimp only
    split
    · rfl
    · split
      · rfl
      · split <;> rfl
  | markProbeDeferred bindingId summary => exact withBinding_blobs fun b => rfl
  | clearTenantOverride bindingId =>
    simp only [Registry.perform, Registry.clearTenantOverride]
    split <;> rfl
  | rollbackBinding bindingId actorId =>
    apply withBinding_blobs
    intro b
    dsimp only
    split
    · rfl
    · split
      · rfl
      · exact versioned_blobs _ _ _ _
  | beginMigrate bindingId =>
    apply withBinding_blobs
    intro b
    dsimp only
    split <;> rfl
  | cutoverMigrate input => cases h
  | commitBlob input => cases h

theorem cutoverMigrate_blobs (r : Registry) (d : Draw) (input : CutoverInput) :
    (r.cutoverMigrate d input).2.blobs = r.blobs ∨
      ∃ source target, r.bindings.get input.sourceBindingId = some source ∧
        r.bindings.get input.targetBindingId = some target ∧ source.status = .migrating ∧
        target.status = .connected ∧
        (r.cutoverMigrate d input).2.blobs = (r.moveRoutes target input.objectDigests).2.blobs := by
  by_cases hrefused : ∀ source target, r.bindings.get input.sourceBindingId = some source →
      r.bindings.get input.targetBindingId = some target → source.status = .migrating →
        target.status ≠ .connected
  · obtain ⟨e, hout⟩ := cutoverMigrate_refused (d := d) hrefused
    exact .inl (by rw [hout])
  · push Not at hrefused
    obtain ⟨source, target, hs, ht, hmigrating, hconnected⟩ := hrefused
    refine .inr ⟨source, target, hs, ht, hmigrating, hconnected, ?_⟩
    rw [cutoverMigrate_started hs ht hmigrating hconnected]
    split
    · rename_i heq
      rw [heq]
    · rename_i heq
      rw [heq, finishCutover_blobs]

/-- The items that the loop of a cutover gets to move. -/
def movedItems (r : Registry) (items : List ObjectDigest) : List ObjectDigest :=
  items.takeWhile fun item => (checkedRoute r item).isSome

theorem movedItems_moveRoute {item : ObjectDigest} {route : BlobStickyRoute}
    {target : StoredStorageBinding} (h : checkedRoute r item = some route)
    (items : List ObjectDigest) : movedItems (r.moveRoute target route) items = movedItems r items := by
  rw [movedItems, movedItems]
  congr 1
  funext x
  rw [checkedRoute_moveRoute h, Option.isSome_map]

/-- A route after the loop is the one before it, or the moved one of an item. -/
theorem moveRoutes_route (r : Registry) (target : StoredStorageBinding) (items : List ObjectDigest)
    {route' : BlobStickyRoute} (h : route' ∈ (r.moveRoutes target items).2.blobs.values) :
    route' ∈ r.blobs.values ∨ ∃ item ∈ movedItems r items, ∃ route,
      checkedRoute r item = some route ∧ route' = route.moved target := by
  induction items generalizing r with
  | nil => exact .inl h
  | cons item items ih =>
    rw [moveRoutes_cons] at h
    cases hroute : checkedRoute r item with
    | none =>
      rw [hroute] at h
      exact .inl h
    | some route =>
      rw [hroute] at h
      have hmoved : movedItems r (item :: items) = item :: movedItems r items :=
        List.takeWhile_cons_of_pos (by rw [hroute]; rfl)
      rw [hmoved]
      obtain hold | ⟨x, hx, route₁, hchecked, rfl⟩ := ih _ h
      · obtain rfl | ⟨hold, -⟩ := KeyedMap.mem_set.mp hold
        · exact .inr ⟨item, List.mem_cons_self, route, hroute, rfl⟩
        · exact .inl hold
      · rw [movedItems_moveRoute hroute] at hx
        rw [checkedRoute_moveRoute hroute] at hchecked
        obtain ⟨old, hold, rfl⟩ := Option.map_eq_some_iff.mp hchecked
        refine .inr ⟨x, List.mem_cons_of_mem _ hx, old, hold, ?_⟩
        split <;> rfl

/-- A binding is only deleted without force when no blob sticks to it. -/
theorem deleteBinding_unused {bindingId : JsString} {force : Bool}
    (h : (r.deleteBinding bindingId force).done.1 = .ok ()) (hforce : force = false) :
    ∀ route ∈ r.blobs.values, route.storageBindingId ≠ bindingId := by
  obtain ⟨b, -, hact, -⟩ := withBinding_ok h
  rw [hforce] at hact
  dsimp only at hact
  split at hact
  · cases hact
  · split at hact
    · cases hact
    · rename_i hsticky
      intro route hroute heq
      exact hsticky (by simpa using ⟨route, hroute, heq⟩)

theorem clearTenantOverride_ok {bindingId : JsString}
    (h : (r.clearTenantOverride bindingId).1 = .ok ()) :
    ((r.bindings.get bindingId).bind fun b => truthy b.applicationTenantId).isSome = true := by
  rw [Registry.clearTenantOverride] at h
  cases htenant : (r.bindings.get bindingId).bind fun b => truthy b.applicationTenantId with
  | none =>
    rw [htenant] at h
    cases h
  | some applicationTenantId => rfl

/-- The steps that take no blob its binding and route no blob to a binding that its workspace
does not have. -/
def keepsRoutes (s : Session) (e : RegistryCommand × Draw) : Prop :=
  let r := s.registry
  match e.1 with
  | .deleteBinding bindingId force =>
    force = true → ∀ route ∈ r.blobs.values, route.storageBindingId ≠ bindingId
  | .clearTenantOverride bindingId =>
    ((r.bindings.get bindingId).bind fun b => truthy b.applicationTenantId).isSome = true →
      ∀ route ∈ r.blobs.values, route.storageBindingId ≠ bindingId
  | .commitBlob input => r.Holds input.workspaceId input.bindingId
  | .cutoverMigrate input =>
    ∀ source target, r.bindings.get input.sourceBindingId = some source →
      r.bindings.get input.targetBindingId = some target → source.status = .migrating →
      target.status = .connected → ∀ item ∈ movedItems r input.objectDigests,
        ∀ route, checkedRoute r item = some route → target.workspaceId = route.workspaceId
  | _ => True

/-- Every recorded blob has its binding, in its workspace. -/
def Registry.Routed (r : Registry) : Prop :=
  ∀ route ∈ r.blobs.values, r.Holds route.workspaceId route.storageBindingId

/-- A binding stays until a command takes it away. -/
theorem Registry.Holds.perform (hsound : r.Sound used) (hfresh : d.Fresh used)
    {workspaceId bindingId : JsString} (h : r.Holds workspaceId bindingId)
    (hkept : ¬ (c.removes = some bindingId ∧ (r.perform d c).1 = .ok ())) :
    (r.perform d c).2.Holds workspaceId bindingId := by
  obtain ⟨b, hb, hworkspace⟩ := h
  cases hcreates : c.creates r with
  | none =>
    have hfollows : Follows (fun _ => True)
        (fun id => c.removes = some id ∧ (r.perform d c).1 = .ok ()) r (r.perform d c).2 :=
      follows_perform hcreates (fun _ _ _ _ => trivial) fun _ hremoves hok => ⟨hremoves, hok⟩
    obtain ⟨b', hb', hdescends⟩ := hfollows.kept b (KeyedMap.mem_of_get hb)
      (by rw [KeyedMap.key_of_get hb]; exact hkept)
    refine ⟨b', ?_, hdescends.workspaceId.trans hworkspace⟩
    rw [← KeyedMap.key_of_get hb, ← hdescends.id]
    exact KeyedMap.get_of_mem hb'
  | some command =>
    obtain ⟨-, hbindings, -⟩ := perform_creates (d := d) hcreates
    refine ⟨b, ?_, hworkspace⟩
    have hne : (command.newBinding d).id ≠ bindingId := by
      rintro rfl
      exact hfresh.unused _ bindingId_mem (hsound.used_of_get hb)
    rw [hbindings, KeyedMap.get_set_of_ne _ hne]
    exact hb

theorem Registry.Routed.perform (hsound : r.Sound used) (hfresh : d.Fresh used) (h : r.Routed)
    (hguard : keepsRoutes ⟨r, used⟩ (c, d)) : (r.perform d c).2.Routed := by
  -- no binding of a recorded blob is taken away
  have hold : ∀ route ∈ r.blobs.values,
      (r.perform d c).2.Holds route.workspaceId route.storageBindingId := by
    intro route hroute
    refine (h route hroute).perform hsound hfresh ?_
    rintro ⟨hremoves, hok⟩
    cases c with
    | deleteBinding bindingId force =>
      obtain rfl : bindingId = route.storageBindingId := Option.some_inj.mp hremoves
      cases force with
      | true => exact hguard rfl route hroute rfl
      | false => exact deleteBinding_unused hok rfl route hroute rfl
    | clearTenantOverride bindingId =>
      obtain rfl : bindingId = route.storageBindingId := Option.some_inj.mp hremoves
      exact hguard (clearTenantOverride_ok hok) route hroute rfl
    | _ => cases hremoves
  by_cases hroutes : c.routes = false
  · intro route hroute
    rw [perform_blobs hroutes] at hroute
    exact hold route hroute
  · cases c with
    | commitBlob input =>
      intro route hroute
      obtain rfl | ⟨hroute, -⟩ := KeyedMap.mem_set.mp hroute
      · exact hguard
      · exact hold route hroute
    | cutoverMigrate input =>
      obtain hsame | ⟨source, target, hs, ht, hmigrating, hconnected, hblobs⟩ :=
        cutoverMigrate_blobs r d input
      · intro route hroute
        rw [← hsame] at hold
        exact hold route hroute
      · intro route' hroute'
        rw [Registry.perform, Outcome.done, hblobs] at hroute'
        obtain hroute | ⟨item, hitem, route, hchecked, rfl⟩ := moveRoutes_route r target _ hroute'
        · exact hold route' hroute
        · have hholds : r.Holds route.workspaceId target.id := by
            refine ⟨target, ?_, hguard source target hs ht hmigrating hconnected item hitem route hchecked⟩
            rw [KeyedMap.key_of_get ht]
            exact ht
          exact hholds.perform hsound hfresh (by rintro ⟨hremoves, -⟩; cases hremoves)
    | _ => exact absurd rfl hroutes

theorem routed_of_reaches {s : Session} (hs : registryMachine.Reaches keepsRoutes s) :
    s.registry.Sound s.used ∧ s.registry.Routed := by
  have hinit : ∀ s : Session, s = ⟨.empty, []⟩ → s.registry.Sound s.used ∧ s.registry.Routed := by
    rintro s rfl
    exact ⟨Registry.sound_empty, fun _ hroute => absurd hroute List.not_mem_nil⟩
  have hstep : ∀ (s : Session) (e : RegistryCommand × Draw) (s' : Session),
      s.registry.Sound s.used ∧ s.registry.Routed → keepsRoutes s e →
        registryMachine.step s e s' → s'.registry.Sound s'.used ∧ s'.registry.Routed := by
    rintro s e s' ⟨hsound, hrouted⟩ hguard ⟨hfresh, rfl⟩
    exact ⟨hsound.perform hfresh, hrouted.perform hsound hfresh hguard⟩
  exact hs.invariant hinit hstep

end Download

/-- With routing enabled, in the runs whose steps take no blob its binding and route no blob to a
binding that its workspace does not have, the download of every recorded blob is refused or
signed with the profile of its own binding. -/
theorem downloads_signed {s : Session} (hs : registryMachine.Reaches keepsRoutes s)
    (router : BindingStorageRouter κ ψ) (henabled : router.enabled = true) :
    ∀ objectId route, s.registry.readBlobRoute objectId = some route →
      SignedByBinding router s.registry route.workspaceId route.storageBindingId := by
  obtain ⟨hsound, hrouted⟩ := routed_of_reaches hs
  intro objectId route hroute
  exact (signed_iff_holds hsound router henabled _ _).mpr (hrouted route (KeyedMap.mem_of_get hroute))

section Samples

/-- A router that signs with the bucket of a profile. -/
def bucketRouter : BindingStorageRouter JsString JsString where
  enabled := true
  platformStorage := js "platform"
  platformSigner := some (js "platform")
  createStorage := fun profile => some profile.bucket
  createSigner := fun profile => some profile.bucket

/-- A blob on a binding that is disabled since. -/
def stuckSession : Session :=
  sampleSession [.upsertBinding (sampleUpsert none) (js "u"), .recordProbe [4, 0] sampleProbe,
    .commitBlob ⟨js "x", sampleWorkspace, js "1", [4, 0], 1⟩, .disableBinding [4, 0]]

theorem downloads_signed_disabled :
    SignedByBinding bucketRouter stuckSession.registry sampleWorkspace [4, 0] := by
  have hempty : registryMachine.Reaches keepsRoutes (sampleSession []) := .init rfl
  have hprobed := next_reaches (c := .recordProbe [4, 0] sampleProbe)
    (next_reaches (c := .upsertBinding (sampleUpsert none) (js "u")) hempty trivial (by decide))
    trivial (by decide)
  have hcommitted := next_reaches (c := .commitBlob ⟨js "x", sampleWorkspace, js "1", [4, 0], 1⟩) hprobed
    ⟨_, rfl, rfl⟩ (by decide)
  have hdisabled := next_reaches (c := .disableBinding [4, 0]) hcommitted trivial (by decide)
  exact downloads_signed hdisabled bucketRouter rfl (js "x") ⟨js "x", sampleWorkspace, js "1", [4, 0], 1⟩ rfl

/-- A blob whose binding was deleted with force. -/
def unstuckSession : Session :=
  sampleSession [.upsertBinding (sampleUpsert none) (js "u"), .recordProbe [4, 0] sampleProbe,
    .commitBlob ⟨js "x", sampleWorkspace, js "1", [4, 0], 1⟩, .deleteBinding [4, 0] true]

/-- The blob is still recorded on its binding, and its download is signed by the platform. -/
theorem deleted_binding_signed_by_platform : registryMachine.Reachable unstuckSession ∧
    unstuckSession.registry.readBlobRoute (js "x") = some ⟨js "x", sampleWorkspace, js "1", [4, 0], 1⟩ ∧
    ¬ SignedByBinding bucketRouter unstuckSession.registry sampleWorkspace [4, 0] := by
  refine ⟨?_, rfl, ?_⟩
  · have hempty : registryMachine.Reachable (sampleSession []) := .init rfl
    exact next_reaches (next_reaches (next_reaches (next_reaches hempty trivial (by decide)) trivial
      (by decide)) trivial (by decide)) trivial (by decide)
  · rintro ⟨hid, -⟩
    cases hid

end Samples

end TrustCore.AppStorage
