import TrustCore.AppStorageRuns
import TrustCore.PostgresAppStorage

/-!
# What a registry holds

The memory of a process, the tables of the database and the registry of a fixture hold the
same kinds of things: tenants, bindings, the profiles of these and their versions. What
one of them `Mirrors` of another is all that it has, and everything of the workspaces that
it has loaded. A command writes the same to both sides, and the two stay mirrors.
-/

namespace TrustCore.AppStorage

open TrustCore.Utf TrustCore.KeyedMaps TrustCore.Methods

structure HeldProfile extends StorageProfileSummary where
  workspaceId : JsString
  deriving DecidableEq

structure HeldVersion where
  workspaceId : JsString
  bindingId : JsString
  generation : Nat
  snapshot : StorageBindingSummary

def StoredStorageProfile.held (p : StoredStorageProfile) : HeldProfile :=
  ⟨p.toStorageProfileSummary, p.workspaceId⟩

def StorageProfileRow.held (p : StorageProfileRow) : HeldProfile :=
  ⟨p.toStorageProfileSummary, p.workspaceId⟩

def BindingVersion.held (v : BindingVersion) : HeldVersion :=
  ⟨v.workspaceId, v.bindingId, v.generation, v.snapshot⟩

structure Holdings where
  tenants : KeyedMap ApplicationTenant.id
  bindings : KeyedMap StoredStorageBinding.id
  profile : JsString → Option HeldProfile
  versions : List HeldVersion

def Registry.holdings (r : Registry) : Holdings where
  tenants := r.tenants
  bindings := r.bindings
  profile id := (r.profiles.get id).map (·.held)
  versions := r.versions.map (·.held)

def Database.holdings (db : Database) : Holdings where
  tenants := db.tenants
  bindings := db.bindings
  profile id := (db.profiles.get id).map (·.held)
  versions := db.versions.map (·.held)

namespace Holdings

def setTenant (a : Holdings) (t : ApplicationTenant) : Holdings :=
  { a with tenants := a.tenants.set t }

/-- A binding with its profile and the versions that are added for it. -/
def put (a : Holdings) (p : HeldProfile) (b : StoredStorageBinding) (vs : List HeldVersion) :
    Holdings where
  tenants := a.tenants
  bindings := a.bindings.set b
  profile := Function.update a.profile b.profileId (some p)
  versions := a.versions ++ vs

def remove (a : Holdings) (b : StoredStorageBinding) (vs : List HeldVersion) : Holdings where
  tenants := a.tenants
  bindings := a.bindings.erase b.id
  profile := Function.update a.profile b.profileId none
  versions := vs

end Holdings

/-- `x` has nothing that `a` does not have, and all that `a` has of some workspaces. -/
structure Mirrors (loaded : JsString → Prop) (a x : Holdings) : Prop where
  tenants_known : ∀ t ∈ x.tenants.values, t ∈ a.tenants.values
  tenants : ∀ t ∈ a.tenants.values, loaded t.workspaceId → t ∈ x.tenants.values
  bindings_known : ∀ b ∈ x.bindings.values, b ∈ a.bindings.values
  bindings : ∀ b ∈ a.bindings.values, loaded b.workspaceId → b ∈ x.bindings.values
  profiles_known : ∀ id P, x.profile id = some P → a.profile id = some P
  profiles : ∀ b ∈ x.bindings.values, x.profile b.profileId = a.profile b.profileId
  versions_known : ∀ v ∈ x.versions, v ∈ a.versions
  versions : ∀ b ∈ a.bindings.values, loaded b.workspaceId → ∀ v ∈ a.versions,
    v.bindingId = b.id → v ∈ x.versions

namespace Mirrors

variable {loaded loaded' : JsString → Prop} {a x : Holdings} {b : StoredStorageBinding}
  {p : HeldProfile} {t : ApplicationTenant} {vs : List HeldVersion}

theorem mono (h : Mirrors loaded a x) (hmono : ∀ w, loaded' w → loaded w) :
    Mirrors loaded' a x where
  tenants_known := h.tenants_known
  tenants t ht hw := h.tenants t ht (hmono _ hw)
  bindings_known := h.bindings_known
  bindings b hb hw := h.bindings b hb (hmono _ hw)
  profiles_known := h.profiles_known
  profiles := h.profiles
  versions_known := h.versions_known
  versions b hb hw := h.versions b hb (hmono _ hw)

protected theorem refl (a : Holdings) : Mirrors loaded a a where
  tenants_known _ ht := ht
  tenants _ ht _ := ht
  bindings_known _ hb := hb
  bindings _ hb _ := hb
  profiles_known _ _ hP := hP
  profiles _ _ := rfl
  versions_known _ hv := hv
  versions _ _ _ _ hv _ := hv

/-- An empty memory, of which no workspace is said to be loaded. -/
theorem unloaded (h : ∀ w, ¬ loaded w) : Mirrors loaded a Registry.empty.holdings where
  tenants_known _ ht := absurd ht List.not_mem_nil
  tenants _ _ hw := absurd hw (h _)
  bindings_known _ hb := absurd hb List.not_mem_nil
  bindings _ _ hw := absurd hw (h _)
  profiles_known _ _ hP := nomatch hP
  profiles _ hb := absurd hb List.not_mem_nil
  versions_known _ hv := absurd hv List.not_mem_nil
  versions _ _ hw := absurd hw (h _)

theorem setTenant (h : Mirrors loaded a x) : Mirrors loaded (a.setTenant t) (x.setTenant t) where
  tenants_known t' ht' := by
    obtain rfl | ⟨ht', hne⟩ := KeyedMap.mem_set.mp ht'
    · exact KeyedMap.mem_set.mpr (.inl rfl)
    · exact KeyedMap.mem_set.mpr (.inr ⟨h.tenants_known t' ht', hne⟩)
  tenants t' ht' hw := by
    obtain rfl | ⟨ht', hne⟩ := KeyedMap.mem_set.mp ht'
    · exact KeyedMap.mem_set.mpr (.inl rfl)
    · exact KeyedMap.mem_set.mpr (.inr ⟨h.tenants t' ht' hw, hne⟩)
  bindings_known := h.bindings_known
  bindings := h.bindings
  profiles_known := h.profiles_known
  profiles := h.profiles
  versions_known := h.versions_known
  versions := h.versions

/-- The versions there are under the id of `b` are those of the binding in its place. -/
theorem put (h : Mirrors loaded a x)
    (hb : ∀ v ∈ a.versions, v.bindingId = b.id →
      ∃ b₀ ∈ a.bindings.values, b₀.id = b.id ∧ b₀.workspaceId = b.workspaceId) :
    Mirrors loaded (a.put p b vs) (x.put p b vs) where
  tenants_known := h.tenants_known
  tenants := h.tenants
  bindings_known c hc := by
    obtain rfl | ⟨hc, hne⟩ := KeyedMap.mem_set.mp hc
    · exact KeyedMap.mem_set.mpr (.inl rfl)
    · exact KeyedMap.mem_set.mpr (.inr ⟨h.bindings_known c hc, hne⟩)
  bindings c hc hw := by
    obtain rfl | ⟨hc, hne⟩ := KeyedMap.mem_set.mp hc
    · exact KeyedMap.mem_set.mpr (.inl rfl)
    · exact KeyedMap.mem_set.mpr (.inr ⟨h.bindings c hc hw, hne⟩)
  profiles_known id P hP := by
    by_cases hid : id = b.profileId
    · simpa only [Holdings.put, hid, Function.update_self] using hP
    · simp only [Holdings.put, Function.update_of_ne hid] at hP ⊢
      exact h.profiles_known id P hP
  profiles c hc := by
    by_cases hid : c.profileId = b.profileId
    · rw [hid]
      simp only [Holdings.put, Function.update_self]
    · obtain rfl | ⟨hc, -⟩ := KeyedMap.mem_set.mp hc
      · exact absurd rfl hid
      · simp only [Holdings.put, Function.update_of_ne hid]
        exact h.profiles c hc
  versions_known v hv := by
    obtain hv | hv := List.mem_append.mp hv
    · exact List.mem_append_left _ (h.versions_known v hv)
    · exact List.mem_append_right _ hv
  versions c hc hw v hv hid := by
    obtain hold | hnew := List.mem_append.mp hv
    · apply List.mem_append_left
      obtain rfl | ⟨hc, -⟩ := KeyedMap.mem_set.mp hc
      · obtain ⟨b₀, hb₀, hid₀, hworkspace⟩ := hb v hold hid
        exact h.versions b₀ hb₀ (hworkspace ▸ hw) v hold (hid.trans hid₀.symm)
      · exact h.versions c hc hw v hold hid
    · exact List.mem_append_right _ hnew

/-- The versions of a binding may stay when it goes, or go with it. -/
theorem remove (h : Mirrors loaded a x) (hknown : ∀ v ∈ vs, v ∈ x.versions)
    (hkept : ∀ v ∈ x.versions, v.bindingId ≠ b.id → v ∈ vs) :
    Mirrors loaded (a.remove b a.versions) (x.remove b vs) where
  tenants_known := h.tenants_known
  tenants := h.tenants
  bindings_known c hc := by
    obtain ⟨hc, hne⟩ := KeyedMap.mem_erase.mp hc
    exact KeyedMap.mem_erase.mpr ⟨h.bindings_known c hc, hne⟩
  bindings c hc hw := by
    obtain ⟨hc, hne⟩ := KeyedMap.mem_erase.mp hc
    exact KeyedMap.mem_erase.mpr ⟨h.bindings c hc hw, hne⟩
  profiles_known id P hP := by
    by_cases hid : id = b.profileId
    · simp only [Holdings.remove, hid, Function.update_self, reduceCtorEq] at hP
    · simp only [Holdings.remove, Function.update_of_ne hid] at hP ⊢
      exact h.profiles_known id P hP
  profiles c hc := by
    obtain ⟨hc, -⟩ := KeyedMap.mem_erase.mp hc
    by_cases hid : c.profileId = b.profileId
    · rw [hid]
      simp only [Holdings.remove, Function.update_self]
    · simp only [Holdings.remove, Function.update_of_ne hid]
      exact h.profiles c hc
  versions_known v hv := h.versions_known v (hknown v hv)
  versions c hc hw v hv hid := by
    obtain ⟨hc, hne⟩ := KeyedMap.mem_erase.mp hc
    exact hkept v (h.versions c hc hw v hv hid) fun heq => hne (hid.symm.trans heq)

end Mirrors

/-- The registry of a fixture that only the command methods have worked on. -/
structure Regular (r : Registry) (used : List JsString) : Prop where
  sound : r.Sound used
  tenantKeys : ∀ t ∈ r.tenants.values, ∀ t' ∈ r.tenants.values, t.workspaceId = t'.workspaceId →
    t.applicationId = t'.applicationId → t.externalTenantKey = t'.externalTenantKey → t = t'
  knownTenants : ∀ t ∈ r.tenants.values, t.id ∈ used
  knownVersions : ∀ v ∈ r.holdings.versions, v.bindingId ∈ used
  bounded : ∀ b ∈ r.bindings.values, ∀ v ∈ r.holdings.versions, v.bindingId = b.id →
    v.workspaceId = b.workspaceId ∧ v.generation ≤ b.generation
  increasing : r.holdings.versions.Pairwise fun v w =>
    v.bindingId = w.bindingId → v.generation < w.generation
  still : ∀ b ∈ r.bindings.values, b.status ≠ .migrating
  noBlobs : r.blobs = .empty
  noAssume : r.assumeWithoutExternalId = .empty

theorem Regular.empty : Regular .empty [] where
  sound := Registry.sound_empty
  tenantKeys _ ht := absurd ht List.not_mem_nil
  knownTenants _ ht := absurd ht List.not_mem_nil
  knownVersions _ hv := absurd hv List.not_mem_nil
  bounded _ hb := absurd hb List.not_mem_nil
  increasing := List.Pairwise.nil
  still _ hb := absurd hb List.not_mem_nil
  noBlobs := rfl
  noAssume := rfl

end TrustCore.AppStorage
