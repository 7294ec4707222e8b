import Mathlib.Data.List.Perm.Basic
import TrustCore.AppStorageHoldings

/-!
# What a caller sees

Two registries that hold the same of a workspace answer a read of it in the same way: the
items of a list come in any order, a route carries the public part of its profile, a
rollup counts the same bindings.
-/

namespace TrustCore.AppStorage

open TrustCore.Utf TrustCore.KeyedMaps TrustCore.Json TrustCore.Methods

/-- A reply without what the claims about it leave open. -/
inductive Observation where
  | tenants (items : Multiset ApplicationTenant)
  | tenant (tenant : ApplicationTenant)
  | effective (summary : EffectiveStorageSummary)
  | rollup (rollup : StorageBindingRollup)
  | bindings (items : Multiset StorageBindingSummary)
  | binding (summary : StorageBindingSummary)
  | upserted (binding : StorageBindingSummary) (externalId : Option JsString)
  | route (result : ResolveResult) (profile : Option StorageProfileSummary)

def ResolveResult.bare (route : ResolveResult) : ResolveResult := { route with profile := none }

def ResolveResult.observed (route : ResolveResult) : Observation :=
  .route route.bare (route.profile.map (·.toStorageProfileSummary))

def Reply.observed : Reply → Observation
  | .tenants items => .tenants ↑items
  | .tenant t => .tenant t
  | .effective e => .effective e
  | .rollup u => .rollup u.counts
  | .bindings items => .bindings ↑items
  | .binding b => .binding b
  | .upserted result => .upserted result.binding result.externalId
  | .route result => result.observed

/-- The summary of a binding with a given profile. -/
def StoredStorageBinding.summary (b : StoredStorageBinding) (p : StorageProfileSummary) :
    StorageBindingSummary where
  id := b.id
  workspaceId := b.workspaceId
  applicationId := b.applicationId
  applicationTenantId := b.applicationTenantId
  profile := p
  status := if b.disabled then .disabled else b.status
  generation := b.generation
  lastProbeOk := b.lastProbeOk
  lastProbeAt := b.lastProbeAt
  lastProbeSummary := b.lastProbeSummary
  lastIssueClass := b.lastIssueClass
  planSyncState := b.planSyncState
  observedUsageBytes := b.observedUsageBytes
  observedQuotaBytes := b.observedQuotaBytes
  observedAt := b.observedAt
  disabled := b.disabled
  costPosture := costPosture p.tier p.credentialMode
  createdAt := b.createdAt
  updatedAt := b.updatedAt

theorem toSummary_eq {r : Registry} {b : StoredStorageBinding} {p : StoredStorageProfile}
    (hp : r.profiles.get b.profileId = some p) :
    r.toSummary b = .ok (b.summary p.toStorageProfileSummary) := by
  rw [Registry.toSummary, hp]
  rfl

theorem toSummary_congr {r x : Registry} {b : StoredStorageBinding}
    (h : x.holdings.profile b.profileId = r.holdings.profile b.profileId) :
    x.toSummary b = r.toSummary b := by
  simp only [Registry.holdings] at h
  simp only [Registry.toSummary]
  cases hx : x.profiles.get b.profileId with
  | none =>
    rw [hx, Option.map_none] at h
    rw [Option.map_eq_none_iff.mp h.symm]
  | some p =>
    rw [hx, Option.map_some] at h
    obtain ⟨q, hq, heq⟩ := Option.map_eq_some_iff.mp h.symm
    have hsummary : q.toStorageProfileSummary = p.toStorageProfileSummary :=
      congrArg HeldProfile.toStorageProfileSummary heq
    rw [hq]
    dsimp only
    rw [hsummary]

theorem mapM_of_forall₂ {α β ε : Type} {f : α → Except ε β} {l : List α} {t : List β}
    (h : List.Forall₂ (fun a b => f a = .ok b) l t) : l.mapM f = .ok t := by
  induction h with
  | nil => rfl
  | cons hab _ ih =>
    rw [List.mapM_cons, hab, ih]
    rfl

theorem exists_forall₂ {α β : Type} {R : α → β → Prop} {l : List α}
    (h : ∀ a ∈ l, ∃ b, R a b) : ∃ t, List.Forall₂ R l t := by
  induction l with
  | nil => exact ⟨[], .nil⟩
  | cons a l ih =>
    obtain ⟨b, hb⟩ := h a List.mem_cons_self
    obtain ⟨t, ht⟩ := ih fun a ha => h a (List.mem_cons_of_mem _ ha)
    exact ⟨b :: t, .cons hb ht⟩

section Agreement

variable {loaded : JsString → Prop} {r x : Registry} {used : List JsString} {W : JsString}

theorem getTenant_agrees (h : Mirrors loaded r.holdings x.holdings) (hW : loaded W)
    (applicationId tenantId : JsString) :
    r.getTenant W applicationId tenantId = x.getTenant W applicationId tenantId := by
  apply KeyedMap.filter_get_eq h.tenants_known
  intro t ht hq
  rw [Bool.and_eq_true, beq_iff_eq] at hq
  exact h.tenants t ht (hq.1 ▸ hW)

theorem listTenants_perm (h : Mirrors loaded r.holdings x.holdings) (hW : loaded W)
    (applicationId : JsString) :
    (r.listTenants W applicationId).Perm (x.listTenants W applicationId) := by
  apply KeyedMap.filter_values_perm h.tenants_known
  intro t ht hq
  rw [Bool.and_eq_true, beq_iff_eq] at hq
  exact h.tenants t ht (hq.1 ▸ hW)

theorem tenantOfKey_agrees (hr : Regular r used) (h : Mirrors loaded r.holdings x.holdings)
    (hW : loaded W) (applicationId externalTenantKey : JsString) :
    r.tenantOfKey W applicationId externalTenantKey =
      x.tenantOfKey W applicationId externalTenantKey := by
  simp only [Registry.tenantOfKey, Registry.listTenants, List.find?_filter]
  apply KeyedMap.find_eq h.tenants_known
  · intro t ht hq
    simp only [Bool.and_eq_true, decide_eq_true_eq, beq_iff_eq] at hq
    exact h.tenants t ht (hq.1.1 ▸ hW)
  · intro t ht t' ht' hq hq'
    simp only [Bool.and_eq_true, decide_eq_true_eq, beq_iff_eq] at hq hq'
    exact hr.tenantKeys t ht t' ht' (hq.1.1.trans hq'.1.1.symm) (hq.1.2.trans hq'.1.2.symm)
      (hq.2.trans hq'.2.symm)

theorem findBinding_agrees (hr : Regular r used) (h : Mirrors loaded r.holdings x.holdings)
    (hW : loaded W) (applicationId : JsString) (applicationTenantId : Option JsString) :
    r.findBinding W applicationId applicationTenantId =
      x.findBinding W applicationId applicationTenantId := by
  apply KeyedMap.find_eq h.bindings_known
  · intro b hb hq
    simp only [Bool.and_eq_true, beq_iff_eq] at hq
    exact h.bindings b hb (hq.1.1 ▸ hW)
  · intro b hb b' hb' hq hq'
    simp only [Bool.and_eq_true, beq_iff_eq] at hq hq'
    exact hr.sound.scopes b hb b' hb' ⟨hq.1.1.trans hq'.1.1.symm, hq.1.2.trans hq'.1.2.symm,
      hq.2.trans hq'.2.symm⟩

theorem workspaceBinding_agrees (h : Mirrors loaded r.holdings x.holdings) (hW : loaded W)
    (bindingId : JsString) :
    (r.bindings.get bindingId).filter (·.workspaceId == W) =
      (x.bindings.get bindingId).filter (·.workspaceId == W) := by
  apply KeyedMap.filter_get_eq h.bindings_known
  intro b hb hq
  exact h.bindings b hb (beq_iff_eq.mp hq ▸ hW)

theorem toSummary_agrees (h : Mirrors loaded r.holdings x.holdings) {b : StoredStorageBinding}
    (hb : b ∈ x.bindings.values) : r.toSummary b = x.toSummary b :=
  (toSummary_congr (h.profiles b hb)).symm

/-- The public part of the profile of a binding. -/
theorem profile_agrees (h : Mirrors loaded r.holdings x.holdings) {b : StoredStorageBinding}
    (hb : b ∈ x.bindings.values) :
    (r.profiles.get b.profileId).map (·.toStorageProfileSummary) =
      (x.profiles.get b.profileId).map (·.toStorageProfileSummary) := by
  have hprofile := congrArg (Option.map HeldProfile.toStorageProfileSummary) (h.profiles b hb)
  simp only [Registry.holdings, Option.map_map] at hprofile
  exact hprofile.symm

/-- A registry summarises every binding that it has. -/
theorem Registry.Sound.toSummary_ok (hr : r.Sound used) {b : StoredStorageBinding}
    (hb : b ∈ r.bindings.values) : ∃ summary, r.toSummary b = .ok summary := by
  obtain ⟨p, hp, -⟩ := hr.profiled b hb
  exact ⟨_, toSummary_eq hp⟩

theorem listBindings_agrees (hr : Regular r used) (h : Mirrors loaded r.holdings x.holdings)
    (hW : loaded W) (applicationId : Option JsString)
    (applicationTenantId : Option (Option JsString)) :
    ∃ items items', r.listBindings W applicationId applicationTenantId = .ok items ∧
      x.listBindings W applicationId applicationTenantId = .ok items' ∧ items.Perm items' := by
  have hperm := KeyedMap.filter_values_perm (q := fun b : StoredStorageBinding =>
    b.workspaceId == W && applicationId.all (b.applicationId == ·) &&
      applicationTenantId.all (b.applicationTenantId == ·)) h.bindings_known (by
    intro b hb hq
    simp only [Bool.and_eq_true, beq_iff_eq] at hq
    exact h.bindings b hb (hq.1.1 ▸ hW))
  have hall : ∀ b ∈ r.bindings.values.filter fun b => b.workspaceId == W &&
      applicationId.all (b.applicationId == ·) && applicationTenantId.all (b.applicationTenantId == ·),
      ∃ summary, r.toSummary b = .ok summary ∧ x.toSummary b = .ok summary := by
    intro b hb
    obtain ⟨summary, hsummary⟩ := hr.sound.toSummary_ok (List.mem_of_mem_filter hb)
    have hx : b ∈ x.bindings.values := List.mem_of_mem_filter (hperm.mem_iff.mp hb)
    exact ⟨summary, hsummary, (toSummary_agrees h hx).symm.trans hsummary⟩
  obtain ⟨items, hitems⟩ := exists_forall₂ hall
  obtain ⟨items', hitems', hsame⟩ := List.perm_comp_forall₂ hperm.symm hitems
  exact ⟨items, items', mapM_of_forall₂ (hitems.imp fun _ _ => And.left),
    mapM_of_forall₂ (hitems'.imp fun _ _ => And.right), hsame.symm⟩

theorem shutTenant_agrees (h : Mirrors loaded r.holdings x.holdings) {context : RoutingContext}
    (hW : loaded context.workspaceId) (applicationId applicationTenantId : JsString) :
    r.shutTenant context applicationId applicationTenantId =
      x.shutTenant context applicationId applicationTenantId := by
  apply KeyedMap.filter_get_eq h.tenants_known
  intro t ht hq
  simp only [Bool.and_eq_true, beq_iff_eq] at hq
  exact h.tenants t ht (hq.1.1.1 ▸ hW)

theorem stickyBinding_agrees (h : Mirrors loaded r.holdings x.holdings) {context : RoutingContext}
    (hW : loaded context.workspaceId) : r.stickyBinding context = x.stickyBinding context := by
  rw [Registry.stickyBinding, Registry.stickyBinding]
  cases truthy context.blobStorageBindingId with
  | none => rfl
  | some bindingId => exact workspaceBinding_agrees h hW bindingId

/-- The routes through one binding differ at most in the profile. -/
theorem gate_agrees {b : StoredStorageBinding} (h : Mirrors loaded r.holdings x.holdings)
    (hb : b ∈ x.bindings.values) (inheritedFrom : StorageInheritedFrom) (scope : StorageScope)
    (context : RoutingContext) :
    (r.gate b inheritedFrom scope context).observed =
      (x.gate b inheritedFrom scope context).observed := by
  have hprofile := profile_agrees h hb
  unfold Registry.gate
  split_ifs <;> simp only [ResolveResult.observed, ResolveResult.bare, hprofile]

theorem resolveDefault_agrees (hr : Regular r used) (h : Mirrors loaded r.holdings x.holdings)
    {context : RoutingContext} (hW : loaded context.workspaceId)
    (applicationTenantId : Option JsString) :
    (r.resolveDefault context applicationTenantId).observed =
      (x.resolveDefault context applicationTenantId).observed := by
  have hfound : ((truthy context.applicationId).bind fun applicationId =>
      r.findBinding context.workspaceId applicationId none) =
      (truthy context.applicationId).bind fun applicationId =>
        x.findBinding context.workspaceId applicationId none := by
    simp only [findBinding_agrees hr h hW]
  rw [Registry.resolveDefault, Registry.resolveDefault, hfound]
  cases hx : (truthy context.applicationId).bind fun applicationId =>
      x.findBinding context.workspaceId applicationId none with
  | none => rfl
  | some b =>
    obtain ⟨applicationId, -, hb⟩ := Option.bind_eq_some_iff.mp hx
    exact gate_agrees h (List.mem_of_find?_eq_some hb) _ _ _

theorem resolve_agrees (hr : Regular r used) (h : Mirrors loaded r.holdings x.holdings)
    {context : RoutingContext} (hW : loaded context.workspaceId) :
    (r.resolve context).observed = (x.resolve context).observed := by
  rw [Registry.resolve, Registry.resolve, stickyBinding_agrees h hW]
  cases hsticky : x.stickyBinding context with
  | some b =>
    have hb : b ∈ x.bindings.values := by
      obtain ⟨hbind, -⟩ := Option.filter_eq_some_iff.mp hsticky
      obtain ⟨bindingId, -, hget⟩ := Option.bind_eq_some_iff.mp hbind
      exact KeyedMap.mem_of_get hget
    simp only [Registry.stickyRoute, ResolveResult.observed, ResolveResult.bare,
      profile_agrees h hb]
  | none =>
    by_cases hspoofs : context.spoofs = true
    · simp only [hspoofs, if_true]
    · rw [Bool.not_eq_true] at hspoofs
      simp only [hspoofs, Registry.contextTenant_of_not_spoofs hspoofs]
      cases htenant : truthy context.applicationTenantId with
      | none => exact resolveDefault_agrees hr h hW none
      | some applicationTenantId =>
        cases happlication : truthy context.applicationId with
        | none => exact resolveDefault_agrees hr h hW _
        | some applicationId =>
          dsimp only
          rw [Registry.resolveTenant, Registry.resolveTenant, shutTenant_agrees h hW,
            findBinding_agrees hr h hW]
          cases x.shutTenant context applicationId applicationTenantId with
          | some tenant => rfl
          | none =>
            cases hfound : x.findBinding context.workspaceId applicationId
                (some applicationTenantId) with
            | some b => exact gate_agrees h (List.mem_of_find?_eq_some hfound) _ _ _
            | none => exact resolveDefault_agrees hr h hW _

/-- The binding of a route is there. -/
theorem get_of_resolve (r : Registry) {context : RoutingContext} {id : JsString}
    (h : (r.resolve context).bindingId = some id) : ∃ b, r.bindings.get id = some b := by
  have hresolved := Registry.resolved_resolve r context
  generalize r.resolve context = route at h hresolved
  cases hresolved with
  | @sticky b hsticky =>
    obtain ⟨hbind, -⟩ := Option.filter_eq_some_iff.mp hsticky
    obtain ⟨bindingId, -, hget⟩ := Option.bind_eq_some_iff.mp hbind
    obtain rfl : b.id = id := Option.some_inj.mp h
    exact ⟨b, KeyedMap.get_of_mem (KeyedMap.mem_of_get hget)⟩
  | spoofed hsticky hspoofed => cases h
  | shut hsticky hspoofs hshuts => cases h
  | bound hsticky hspoofs hshuts hb hinherited =>
    rw [Registry.gate_bindingId, Option.some_inj] at h
    exact ⟨_, h ▸ KeyedMap.get_of_mem hb⟩
  | platform hsticky hspoofs hshuts => cases h

theorem effectiveSummary_agrees (hr : Regular r used) (h : Mirrors loaded r.holdings x.holdings)
    (hW : loaded W) (applicationId : JsString) (applicationTenantId : Option JsString) :
    r.effectiveSummary W applicationId applicationTenantId =
      x.effectiveSummary W applicationId applicationTenantId := by
  rw [Registry.effectiveSummary, Registry.effectiveSummary]
  generalize hcontext : RoutingContext.mk W (some applicationId) (truthy applicationTenantId) none
    .probe none none = context
  have hobserved : (r.resolve context).observed = (x.resolve context).observed :=
    resolve_agrees hr h (hcontext ▸ hW)
  have hroute : (r.resolve context).bare = (x.resolve context).bare :=
    (Observation.route.inj hobserved).1
  have hid : (r.resolve context).bare.bindingId = (x.resolve context).bare.bindingId :=
    congrArg ResolveResult.bindingId hroute
  have heffective : (r.resolve context).effective = (x.resolve context).effective := by
    funext binding
    have heq := congrArg (fun route : ResolveResult => route.effective binding) hroute
    exact heq
  have hbound : r.boundSummary (r.resolve context) = x.boundSummary (x.resolve context) := by
    simp only [ResolveResult.bare] at hid
    rw [Registry.boundSummary, Registry.boundSummary, hid]
    cases hgiven : truthy (x.resolve context).bindingId with
    | none => rfl
    | some id =>
      have hsome : (x.resolve context).bindingId = some id :=
        (Option.filter_eq_some_iff.mp hgiven).1
      obtain ⟨b, hb⟩ := get_of_resolve x hsome
      have hmem := KeyedMap.mem_of_get hb
      have hget : r.bindings.get id = some b :=
        KeyedMap.get_eq_some.mpr ⟨h.bindings_known b hmem, KeyedMap.key_of_get hb⟩
      dsimp only
      rw [hb, hget]
      dsimp only
      rw [toSummary_agrees h hmem]
  rw [hbound, heffective]

theorem related_perm (h : Mirrors loaded r.holdings x.holdings) (hW : loaded W)
    (applicationId : JsString) :
    (r.related W applicationId).Perm (x.related W applicationId) := by
  apply KeyedMap.filter_values_perm h.bindings_known
  intro b hb hq
  rw [Bool.and_eq_true, beq_iff_eq] at hq
  exact h.bindings b hb (hq.1 ▸ hW)

theorem rollup_agrees (h : Mirrors loaded r.holdings x.holdings) (hW : loaded W)
    (platformStatus : PlatformStatus) (platformSummary : JsString)
    (applications : List ApplicationName) :
    (r.rollup W platformStatus platformSummary applications).counts =
      (x.rollup W platformStatus platformSummary applications).counts := by
  have happlication (app : ApplicationName) :
      (r.rollupApplication W app).counts = (x.rollupApplication W app).counts := by
    have hperm := related_perm h hW app.id
    have hempty : (r.related W app.id).isEmpty = (x.related W app.id).isEmpty := hperm.isEmpty_eq
    simp only [Registry.rollupApplication, ApplicationRollup.counts, hperm.countP_eq, hempty]
  have hattention (app : ApplicationName) :
      (r.rollupApplication W app).attention = (x.rollupApplication W app).attention := by
    have heq := congrArg ApplicationRollup.attention (happlication app)
    exact heq
  simp only [Registry.rollup, StorageBindingRollup.counts, List.map_map, Function.comp_def,
    happlication, hattention]

/-- A rollup whose issues are free of secrets, in the registry that has all tenants. -/
def RollupClear (r : Registry) (W : JsString) (applications : List ApplicationName) : Prop :=
  ∀ app ∈ applications, ∀ b ∈ r.related W app.id, b.needsAttention = true →
    leaks (r.issue b).text = false

theorem issue_clear (h : Mirrors loaded r.holdings x.holdings) {b : StoredStorageBinding}
    (hclear : leaks (r.issue b).text = false) : leaks (x.issue b).text = false := by
  cases hx : (truthy b.applicationTenantId).bind x.tenants.get with
  | none =>
    have hkey : leaks (memberText (js "externalTenantKey", js "null")) = false := by decide
    simp only [TopIssue.text, leaks_objectText, Registry.issue, hx, List.any_cons, List.any_nil,
      Bool.or_eq_false_iff, nullable, Option.map_none, Option.getD_none] at hclear ⊢
    exact ⟨hclear.1, hkey, hclear.2.2⟩
  | some t =>
    obtain ⟨id, hid, hget⟩ := Option.bind_eq_some_iff.mp hx
    have hmem := h.tenants_known t (KeyedMap.mem_of_get hget)
    have hr : (truthy b.applicationTenantId).bind r.tenants.get = some t :=
      Option.bind_eq_some_iff.mpr ⟨id, hid, KeyedMap.get_eq_some.mpr
        ⟨hmem, KeyedMap.key_of_get hget⟩⟩
    have hissue : x.issue b = r.issue b := by
      simp only [Registry.issue, hx, hr]
    rw [hissue]
    exact hclear

theorem rollup_clear (h : Mirrors loaded r.holdings x.holdings) (hW : loaded W)
    {platformStatus : PlatformStatus} {platformSummary : JsString}
    {applications : List ApplicationName} (hclear : RollupClear r W applications) :
    leaks (r.rollup W platformStatus platformSummary applications).text =
      leaks (x.rollup W platformStatus platformSummary applications).text := by
  have hissues (y : Registry) (hy : ∀ app ∈ applications, ∀ b ∈ y.related W app.id,
      b.needsAttention = true → leaks (y.issue b).text = false) :
      leaks (y.rollup W platformStatus platformSummary applications).text =
        leaks (y.rollup W platformStatus platformSummary applications).counts.text := by
    apply leaks_counts
    intro a ha i hi
    obtain ⟨app, happ, rfl⟩ := List.mem_map.mp ha
    obtain ⟨b, hb, rfl⟩ := List.mem_map.mp (List.mem_of_mem_take hi)
    obtain ⟨hb, hattention⟩ := List.mem_filter.mp hb
    exact hy app happ b hb hattention
  have hx : ∀ app ∈ applications, ∀ b ∈ x.related W app.id, b.needsAttention = true →
      leaks (x.issue b).text = false := by
    intro app happ b hb hattention
    have hb' := (related_perm h hW app.id).mem_iff.mpr hb
    exact issue_clear h (hclear app happ b hb' hattention)
  rw [hissues r hclear, hissues x hx, rollup_agrees h hW]

end Agreement

end TrustCore.AppStorage
