import TrustCore.AppStorageReads

/-!
# Loading and saving

A process over the tables is `Linked` to the registry of a fixture that took the same
commands: the tables hold what the registry holds, and the memory of the process holds
that of the workspaces it has loaded. Loading a workspace keeps the two linked, and so does
every operation together with the step that saves it.
-/

namespace TrustCore.AppStorage

open TrustCore.Utf TrustCore.KeyedMaps TrustCore.Methods

variable {loaded : JsString → Prop} {r r' m : Registry} {db : Database} {used : List JsString}
  {W : JsString}

/-! ## Loading -/

theorem mem_listAllTenants {t : ApplicationTenant} :
    t ∈ db.listAllTenants W ↔ t ∈ db.tenants.values ∧ t.workspaceId = W := by
  rw [Database.listAllTenants, List.mem_insertionSort, List.mem_filter, beq_iff_eq]

theorem mem_listBindings {b : StoredStorageBinding} :
    b ∈ db.listBindings W ↔ b ∈ db.bindings.values ∧ b.workspaceId = W := by
  rw [Database.listBindings, List.mem_insertionSort, List.mem_filter, beq_iff_eq]

theorem mem_listProfiles {p : StorageProfileRow} :
    p ∈ db.listProfiles W ↔ p ∈ db.profiles.values ∧ p.workspaceId = W := by
  rw [Database.listProfiles, List.mem_filter, beq_iff_eq]

theorem mem_listBindingVersions {v : BindingVersion} {bindingId : JsString} :
    v ∈ db.listBindingVersions W bindingId ↔
      v ∈ db.versions ∧ v.workspaceId = W ∧ v.bindingId = bindingId := by
  rw [Database.listBindingVersions, List.mem_insertionSort, List.mem_filter, Bool.and_eq_true,
    beq_iff_eq, beq_iff_eq]

theorem profile_id {id : JsString} {p : StoredStorageProfile} (h : r.profiles.get id = some p) :
    p.id = id := by
  rw [← KeyedMap.key_of_get h]

/-- The profile of a binding is loaded with it, and is what it was otherwise. -/
theorem load_profile (hr : Regular r used)
    (htables : Mirrors (fun _ => True) r.holdings db.holdings)
    (hmemory : Mirrors loaded r.holdings m.holdings) {b : StoredStorageBinding}
    (hb : b ∈ r.bindings.values) (hloaded : b.workspaceId = W ∨ b ∈ m.bindings.values) :
    (m.load db W).holdings.profile b.profileId = r.holdings.profile b.profileId := by
  obtain ⟨p, hp, hworkspace⟩ := hr.sound.profiled b hb
  have hheld : r.holdings.profile b.profileId = some p.held := by
    simp only [Registry.holdings, hp, Option.map_some]
  have hrow := htables.profiles b (htables.bindings b hb trivial)
  rw [hheld] at hrow ⊢
  obtain ⟨row, hget, hsame⟩ := Option.map_eq_some_iff.mp hrow
  have hrowWorkspace : row.workspaceId = b.workspaceId :=
    (congrArg HeldProfile.workspaceId hsame).trans hworkspace
  have hprofiles : (m.load db W).profiles =
      ((db.listProfiles W).map StorageProfileRow.stored).foldl KeyedMap.set m.profiles := by
    rw [List.foldl_map]
    rfl
  have hkey : row.id = b.profileId := by
    rw [← KeyedMap.key_of_get hget]
  simp only [Registry.holdings, hprofiles]
  by_cases hW : b.workspaceId = W
  · have hmem : row.stored ∈ (db.listProfiles W).map StorageProfileRow.stored :=
      List.mem_map_of_mem (mem_listProfiles.mpr ⟨KeyedMap.mem_of_get hget, hrowWorkspace.trans hW⟩)
    have hset := KeyedMap.mem_foldl_set (m := m.profiles) (.inl hmem) (by
      intro q hq hid
      obtain ⟨row', hrow', rfl⟩ := List.mem_map.mp hq
      have hmem' := (mem_listProfiles.mp hrow').1
      rw [KeyedMap.eq_of_key hmem' (KeyedMap.mem_of_get hget) hid])
    rw [KeyedMap.get_eq_some.mpr ⟨hset, hkey⟩, Option.map_some, ← hsame]
    rfl
  · have hold := hmemory.profiles b (hloaded.resolve_left hW)
    rw [hheld] at hold
    obtain ⟨q, hq, hqheld⟩ := Option.map_eq_some_iff.mp hold
    have hset := KeyedMap.mem_foldl_set (m := m.profiles)
      (l := (db.listProfiles W).map StorageProfileRow.stored) (.inr (KeyedMap.mem_of_get hq)) (by
      intro q' hq' hid
      obtain ⟨row', hrow', rfl⟩ := List.mem_map.mp hq'
      obtain ⟨hmem', hworkspace'⟩ := mem_listProfiles.mp hrow'
      have heq := KeyedMap.eq_of_key hmem' (KeyedMap.mem_of_get hget)
        (hid.trans ((profile_id hq).trans hkey.symm))
      rw [heq, hrowWorkspace] at hworkspace'
      exact absurd hworkspace' hW)
    rw [KeyedMap.get_eq_some.mpr ⟨hset, profile_id hq⟩, Option.map_some, hqheld]

theorem Mirrors.load (hr : Regular r used)
    (htables : Mirrors (fun _ => True) r.holdings db.holdings)
    (hmemory : Mirrors loaded r.holdings m.holdings) :
    Mirrors (fun w => loaded w ∨ w = W) r.holdings (m.load db W).holdings where
  tenants_known t ht := by
    obtain ht | ht := KeyedMap.mem_of_mem_foldl_set ht
    · exact htables.tenants_known t (mem_listAllTenants.mp ht).1
    · exact hmemory.tenants_known t ht
  tenants t ht hw := by
    refine KeyedMap.mem_foldl_set (hw.symm.imp ?_ (hmemory.tenants t ht)) ?_
    · intro hW
      exact mem_listAllTenants.mpr ⟨htables.tenants t ht trivial, hW⟩
    · intro t' ht' hid
      exact KeyedMap.eq_of_key (htables.tenants_known t' (mem_listAllTenants.mp ht').1) ht hid
  bindings_known b hb := by
    obtain hb | hb := KeyedMap.mem_of_mem_foldl_set hb
    · exact htables.bindings_known b (mem_listBindings.mp hb).1
    · exact hmemory.bindings_known b hb
  bindings b hb hw := by
    refine KeyedMap.mem_foldl_set (hw.symm.imp ?_ (hmemory.bindings b hb)) ?_
    · intro hW
      exact mem_listBindings.mpr ⟨htables.bindings b hb trivial, hW⟩
    · intro b' hb' hid
      exact KeyedMap.eq_of_key (htables.bindings_known b' (mem_listBindings.mp hb').1) hb hid
  profiles_known id P hP := by
    obtain ⟨p, hp, rfl⟩ := Option.map_eq_some_iff.mp hP
    have hmem : p ∈ (((db.listProfiles W).map StorageProfileRow.stored).foldl KeyedMap.set
        m.profiles).values := by
      rw [List.foldl_map]
      exact KeyedMap.mem_of_get hp
    obtain hloaded | hold := KeyedMap.mem_of_mem_foldl_set hmem
    · obtain ⟨row, hrow, rfl⟩ := List.mem_map.mp hloaded
      apply htables.profiles_known
      simp only [Database.holdings, ← KeyedMap.key_of_get hp]
      exact Option.map_eq_some_iff.mpr
        ⟨row, KeyedMap.get_of_mem (mem_listProfiles.mp hrow).1, rfl⟩
    · apply hmemory.profiles_known
      simp only [Registry.holdings, ← KeyedMap.key_of_get hp]
      exact Option.map_eq_some_iff.mpr ⟨p, KeyedMap.get_of_mem hold, rfl⟩
  profiles b hb := by
    obtain hb | hb := KeyedMap.mem_of_mem_foldl_set hb
    · obtain ⟨hb, hW⟩ := mem_listBindings.mp hb
      exact load_profile hr htables hmemory (htables.bindings_known b hb) (.inl hW)
    · exact load_profile hr htables hmemory (hmemory.bindings_known b hb) (.inr hb)
  versions_known v hv := by
    obtain ⟨v₀, hv₀, rfl⟩ := List.mem_map.mp hv
    obtain hold | hnew := List.mem_append.mp hv₀
    · exact hmemory.versions_known _ (List.mem_map_of_mem hold)
    · obtain ⟨b, -, hlisted⟩ := List.mem_flatMap.mp hnew
      exact htables.versions_known _ (List.mem_map_of_mem (mem_listBindingVersions.mp hlisted).1)
  versions b hb hw v hv hid := by
    obtain hw | hW := hw
    · obtain ⟨v₀, hv₀, rfl⟩ := List.mem_map.mp (hmemory.versions b hb hw v hv hid)
      exact List.mem_map_of_mem (List.mem_append_left _ hv₀)
    · obtain ⟨v₀, hv₀, rfl⟩ := List.mem_map.mp (htables.versions b hb trivial v hv hid)
      have hworkspace : v₀.workspaceId = W := (hr.bounded b hb _ hv hid).1.trans hW
      have hlisted := mem_listBindings.mpr ⟨htables.bindings b hb trivial, hW⟩
      refine List.mem_map_of_mem (List.mem_append_right _ (List.mem_flatMap.mpr ⟨b, hlisted, ?_⟩))
      exact mem_listBindingVersions.mpr ⟨hv₀, hworkspace, hid⟩

/-! ## Operations on a binding -/

/-- A binding and what a command method makes of it. -/
structure Updates (b b' : StoredStorageBinding) : Prop where
  id : b'.id = b.id
  workspaceId : b'.workspaceId = b.workspaceId
  applicationId : b'.applicationId = b.applicationId
  applicationTenantId : b'.applicationTenantId = b.applicationTenantId
  profileId : b'.profileId = b.profileId
  createdAt : b'.createdAt = b.createdAt
  generation : b.generation ≤ b'.generation
  still : b.status ≠ .migrating → b'.status ≠ .migrating

section Updates

variable (b : StoredStorageBinding) (d : Draw)

theorem updates_probed (input : ProbeInput) : Updates b (b.probed d input) := by
  rw [StoredStorageBinding.probed]
  split
  · exact ⟨rfl, rfl, rfl, rfl, rfl, rfl, le_rfl, fun _ => by simp⟩
  · refine ⟨rfl, rfl, rfl, rfl, rfl, rfl, le_rfl, fun _ => ?_⟩
    dsimp only
    split <;> decide

theorem updates_probeDeferred (summary : JsString) : Updates b (b.probeDeferred d summary) := by
  refine ⟨rfl, rfl, rfl, rfl, rfl, rfl, le_rfl, fun h => ?_⟩
  simp only [StoredStorageBinding.probeDeferred]
  split <;> first | decide | exact h

theorem updates_refreshed (observation : PlanObservation) (declaredCapacityBytes : Option Int) :
    Updates b (b.refreshed d observation declaredCapacityBytes) :=
  ⟨rfl, rfl, rfl, rfl, rfl, rfl, le_rfl, fun h => h⟩

theorem updates_planAccepted (declaredCapacityBytes : Int) :
    Updates b (b.planAccepted d declaredCapacityBytes) :=
  ⟨rfl, rfl, rfl, rfl, rfl, rfl, le_rfl, fun h => h⟩

theorem updates_disable : Updates b (b.disable d) :=
  ⟨rfl, rfl, rfl, rfl, rfl, rfl, Nat.le_succ _, fun _ => by simp [StoredStorageBinding.disable]⟩

theorem updates_rolledBack : Updates b (b.rolledBack d) :=
  ⟨rfl, rfl, rfl, rfl, rfl, rfl, Nat.le_succ _, fun _ => by simp [StoredStorageBinding.rolledBack]⟩

theorem updates_upserted (command : UpsertStorageBindingCommand) :
    Updates b (b.upserted d command) := by
  refine ⟨rfl, rfl, rfl, rfl, rfl, rfl, Nat.le_succ _, fun _ => ?_⟩
  simp only [StoredStorageBinding.upserted, UpsertStorageBindingCommand.statusAfter]
  split_ifs <;> decide

end Updates

/-- A registry with a binding and its profile changed, and a version added. -/
def Registry.write (r : Registry) (p : StoredStorageProfile) (b : StoredStorageBinding)
    (v : Option BindingVersion) : Registry :=
  { (r.setProfile p).setBinding b with versions := r.versions ++ v.toList }

def StoredStorageBinding.version (b : StoredStorageBinding) (p : StorageProfileSummary)
    (id createdBy : JsString) : BindingVersion where
  id := id
  workspaceId := b.workspaceId
  bindingId := b.id
  generation := b.generation
  snapshot := b.summary p
  createdBy := createdBy
  createdAt := b.updatedAt

section Operations

variable {b b' : StoredStorageBinding} {p p' : StoredStorageProfile} {v : Option BindingVersion}
  {d : Draw}

theorem write_holdings (hid : p.id = b.profileId) :
    (r.write p b v).holdings = r.holdings.put p.held b (v.toList.map (·.held)) := by
  have hprofile : (fun id => ((r.profiles.set p).get id).map (·.held)) =
      Function.update (fun id => (r.profiles.get id).map (·.held)) b.profileId (some p.held) := by
    funext id
    rw [KeyedMap.get_set, hid]
    by_cases h : b.profileId = id
    · rw [if_pos h, ← h, Function.update_self, Option.map_some]
    · rw [if_neg h, Function.update_of_ne (Ne.symm h)]
  have hversions : (r.versions ++ v.toList).map (·.held) =
      r.versions.map (·.held) ++ v.toList.map (·.held) := List.map_append
  simp only [Registry.holdings, Holdings.put, Registry.write, Registry.setProfile,
    Registry.setBinding, hprofile, hversions]

/-- An operation that leaves the profile as it is. -/
theorem setBinding_eq_write (b' : StoredStorageBinding)
    (hp : r.profiles.get b.profileId = some p) : r.setBinding b' = r.write p b' none := by
  have hsame : r.profiles.set p = r.profiles :=
    KeyedMap.set_of_get ((profile_id hp).symm ▸ hp)
  simp only [Registry.write, Registry.setProfile, hsame, Registry.setBinding, Option.toList_none,
    List.append_nil]

theorem summarised_eq (hp : r.profiles.get b.profileId = some p)
    (hid : b'.profileId = b.profileId) :
    (r.setBinding b').summarised b' =
      (.ok (b'.summary p.toStorageProfileSummary), r.write p b' none) := by
  rw [← setBinding_eq_write b' hp]
  have hp' : (r.setBinding b').profiles.get b'.profileId = some p := by
    rw [hid]
    exact hp
  rw [Registry.summarised, toSummary_eq hp']

theorem get_write_profile (hid : p'.id = b'.profileId) :
    ((r.setProfile p').setBinding b').profiles.get b'.profileId = some p' := by
  rw [Registry.setBinding_profiles, Registry.get_setProfile, if_pos hid]

theorem summarised_both (hid : p'.id = b'.profileId) :
    ((r.setProfile p').setBinding b').summarised b' =
      (.ok (b'.summary p'.toStorageProfileSummary), r.write p' b' none) := by
  rw [Registry.summarised, toSummary_eq (get_write_profile hid), Registry.write,
    Option.toList_none, List.append_nil]
  rfl

theorem versioned_both (hid : p'.id = b'.profileId) (versionId actorId : JsString) :
    ((r.setProfile p').setBinding b').versioned versionId actorId b' =
      (.ok (b'.summary p'.toStorageProfileSummary),
        r.write p' b' (some (b'.version p'.toStorageProfileSummary versionId actorId))) := by
  rw [Registry.versioned, toSummary_eq (get_write_profile hid)]
  rfl

/-- An operation that changes a binding, and no profile. -/
def Changes (bindingId : JsString) (op : Registry → Outcome StorageBindingSummary)
    (f : StoredStorageBinding → StorageProfileSummary → StoredStorageBinding) : Prop :=
  ∀ (r : Registry) (b : StoredStorageBinding) (p : StoredStorageProfile),
    r.assumeWithoutExternalId = .empty → r.bindings.get bindingId = some b →
      r.profiles.get b.profileId = some p →
        op r = (.ok ((f b p.toStorageProfileSummary).summary p.toStorageProfileSummary),
          r.write p (f b p.toStorageProfileSummary) none)

theorem changes_recordProbe (d : Draw) (bindingId : JsString) (input : ProbeInput) :
    Changes bindingId (fun r => r.recordProbe d bindingId input) fun b _ => b.probed d input := by
  intro r b p _ hb hp
  simp only [Registry.recordProbe, Registry.withBinding, hb]
  exact summarised_eq hp (updates_probed b d input).profileId

theorem changes_markProbeDeferred (d : Draw) (bindingId summary : JsString) :
    Changes bindingId (fun r => r.markProbeDeferred d bindingId summary)
      fun b _ => b.probeDeferred d summary := by
  intro r b p _ hb hp
  simp only [Registry.markProbeDeferred, Registry.withBinding, hb]
  exact summarised_eq hp rfl

theorem changes_refreshPlan (d : Draw) (bindingId : JsString) (observation : PlanObservation) :
    Changes bindingId (fun r => r.refreshPlan d bindingId observation)
      fun b p => b.refreshed d observation p.declaredCapacityBytes := by
  intro r b p _ hb hp
  simp only [Registry.refreshPlan, Registry.withBinding, hb, hp]
  exact summarised_eq hp rfl

theorem changes_disableBinding (d : Draw) (bindingId : JsString) :
    Changes bindingId (fun r => r.disableBinding d bindingId) fun b _ => b.disable d := by
  intro r b p hassume hb hp
  have herase : r.assumeWithoutExternalId.erase bindingId = r.assumeWithoutExternalId := by
    rw [hassume]
    rfl
  simp only [Registry.disableBinding, Registry.withBinding, hb, herase]
  exact summarised_eq hp rfl

theorem acceptPlan_eq {bindingId : JsString} (hb : r.bindings.get bindingId = some b)
    (hp : r.profiles.get b.profileId = some p) (capacity : Int) (planCode : Option JsString) :
    r.acceptPlan d bindingId capacity planCode =
      (.ok ((b.planAccepted d capacity).summary
          (p.planAccepted d capacity planCode).toStorageProfileSummary),
        r.write (p.planAccepted d capacity planCode) (b.planAccepted d capacity) none) := by
  have hid : (p.planAccepted d capacity planCode).id = (b.planAccepted d capacity).profileId :=
    (profile_id hp : p.id = b.profileId)
  simp only [Registry.acceptPlan, Registry.withBinding, hb, hp]
  exact summarised_both hid

theorem rollbackBinding_eq {bindingId actorId : JsString} {previous : BindingVersion}
    (hb : r.bindings.get bindingId = some b) (hp : r.profiles.get b.profileId = some p)
    (hprevious : (r.listBindingHistory bindingId 2).find? (fun v =>
      decide (v.generation < b.generation)) = some previous) :
    r.rollbackBinding d bindingId actorId =
      (.ok ((b.rolledBack d).summary
          (p.rolledBack d previous.snapshot.profile).toStorageProfileSummary),
        r.write (p.rolledBack d previous.snapshot.profile) (b.rolledBack d)
          (some ((b.rolledBack d).version
            (p.rolledBack d previous.snapshot.profile).toStorageProfileSummary d.versionId
            actorId))) := by
  have hid : (p.rolledBack d previous.snapshot.profile).id = (b.rolledBack d).profileId :=
    (profile_id hp : p.id = b.profileId)
  simp only [Registry.rollbackBinding, Registry.withBinding, hb, hprevious, hp]
  exact versioned_both hid d.versionId actorId

end Operations

/-! ## What every command keeps -/

section Keeps

variable {b b' : StoredStorageBinding} {p p' : StoredStorageProfile} {v : Option BindingVersion}
  {t : ApplicationTenant} {d : Draw}

theorem Regular.grow (h : Regular r used) (hfresh : d.Fresh used) : Regular r (d.ids ++ used) where
  sound := h.sound.grow hfresh
  tenantKeys := h.tenantKeys
  knownTenants t ht := List.mem_append_right _ (h.knownTenants t ht)
  knownVersions v hv := List.mem_append_right _ (h.knownVersions v hv)
  bounded := h.bounded
  increasing := h.increasing
  still := h.still
  noBlobs := h.noBlobs
  noAssume := h.noAssume

/-- A version of the binding as it is after a change that raises its generation. -/
structure Versions (b b' : StoredStorageBinding) (v : BindingVersion) : Prop where
  workspaceId : v.workspaceId = b'.workspaceId
  bindingId : v.bindingId = b'.id
  generation : v.generation = b'.generation
  raised : b.generation < b'.generation

theorem Regular.write (h : Regular r used) (hb : b ∈ r.bindings.values) (hu : Updates b b')
    (hp : r.profiles.get b.profileId = some p) (hid : p'.id = p.id)
    (hworkspace : p'.workspaceId = p.workspaceId) (hv : ∀ w ∈ v, Versions b b' w) :
    Regular (r.write p' b' v) used := by
  have hkey : p'.id = b'.profileId := hid.trans ((profile_id hp).trans hu.profileId.symm)
  have hversions : (r.write p' b' v).holdings.versions =
      r.holdings.versions ++ v.toList.map (·.held) := by
    rw [write_holdings hkey]
    rfl
  have hnew : ∀ w ∈ v.toList.map BindingVersion.held, w.workspaceId = b'.workspaceId ∧
      w.bindingId = b'.id ∧ w.generation = b'.generation ∧ b.generation < b'.generation := by
    intro w hw
    obtain ⟨w, hmem, rfl⟩ := List.mem_map.mp hw
    have hversion := hv w (Option.mem_toList.mp hmem)
    exact ⟨hversion.workspaceId, hversion.bindingId, hversion.generation, hversion.raised⟩
  have hold : ∀ w ∈ r.holdings.versions, w.bindingId = b'.id →
      w.workspaceId = b'.workspaceId ∧ w.generation ≤ b.generation := by
    intro w hw hwid
    obtain ⟨hwWorkspace, hgeneration⟩ := h.bounded b hb w hw (hwid.trans hu.id)
    exact ⟨hwWorkspace.trans hu.workspaceId.symm, hgeneration⟩
  have hfollows : Follows (fun _ => True) (fun _ => True) r (r.write p' b' v) := by
    refine .trans (.setBoth (KeyedMap.mem_of_get hp) hb hid hworkspace ?_) (.of_eq rfl rfl)
    exact ⟨hu.id, hu.workspaceId, hu.applicationId, hu.applicationTenantId, hu.profileId,
      hu.generation, fun _ hnot => absurd trivial hnot⟩
  refine ⟨h.sound.keeps hfollows, h.tenantKeys, h.knownTenants, ?_, ?_, ?_, ?_, h.noBlobs,
    h.noAssume⟩
  · intro w hw
    rw [hversions] at hw
    obtain hw | hw := List.mem_append.mp hw
    · exact h.knownVersions w hw
    · rw [(hnew w hw).2.1, hu.id]
      exact (h.sound.knownBindings b hb).1
  · intro c hc w hw hwid
    rw [hversions] at hw
    obtain rfl | ⟨hc, hne⟩ := KeyedMap.mem_set.mp hc
    · obtain hw | hw := List.mem_append.mp hw
      · obtain ⟨hwWorkspace, hgeneration⟩ := hold w hw hwid
        exact ⟨hwWorkspace, hgeneration.trans hu.generation⟩
      · exact ⟨(hnew w hw).1, (hnew w hw).2.2.1.le⟩
    · obtain hw | hw := List.mem_append.mp hw
      · exact h.bounded c hc w hw hwid
      · exact absurd (hwid.symm.trans (hnew w hw).2.1) hne
  · rw [hversions, List.pairwise_append]
    refine ⟨h.increasing, ?_, ?_⟩
    · cases v with
      | none => exact List.Pairwise.nil
      | some v => exact List.pairwise_singleton _ _
    · intro w hw w' hw' hsame
      obtain ⟨-, hid', hgeneration', hraised⟩ := hnew w' hw'
      rw [hgeneration']
      exact (hold w hw (hsame.trans hid')).2.trans_lt hraised
  · intro c hc
    obtain rfl | ⟨hc, -⟩ := KeyedMap.mem_set.mp hc
    · exact hu.still (h.still b hb)
    · exact h.still c hc

theorem sound_setTenant (h : r.Sound used) : { r with tenants := r.tenants.set t }.Sound used := by
  have hfollows : Follows (fun _ => True) (fun _ => True) r { r with tenants := r.tenants.set t } :=
    .of_eq rfl rfl
  exact h.keeps hfollows

theorem Regular.setTenant (h : Regular r used) (hid : t.id ∈ used)
    (hkey : ∀ t' ∈ r.tenants.values, t'.workspaceId = t.workspaceId →
      t'.applicationId = t.applicationId → t'.externalTenantKey = t.externalTenantKey →
        t'.id = t.id) : Regular { r with tenants := r.tenants.set t } used where
  sound := sound_setTenant h.sound
  tenantKeys t₁ ht₁ t₂ ht₂ hworkspace happlication hexternal := by
    obtain rfl | ⟨hold₁, hne₁⟩ := KeyedMap.mem_set.mp ht₁
    · obtain rfl | ⟨hold₂, hne₂⟩ := KeyedMap.mem_set.mp ht₂
      · rfl
      · exact absurd (hkey t₂ hold₂ hworkspace.symm happlication.symm hexternal.symm) hne₂
    · obtain rfl | ⟨hold₂, -⟩ := KeyedMap.mem_set.mp ht₂
      · exact absurd (hkey t₁ hold₁ hworkspace happlication hexternal) hne₁
      · exact h.tenantKeys t₁ hold₁ t₂ hold₂ hworkspace happlication hexternal
  knownTenants t' ht' := by
    obtain rfl | ⟨hold, -⟩ := KeyedMap.mem_set.mp ht'
    · exact hid
    · exact h.knownTenants t' hold
  knownVersions := h.knownVersions
  bounded := h.bounded
  increasing := h.increasing
  still := h.still
  noBlobs := h.noBlobs
  noAssume := h.noAssume

def Registry.setExternalIds (r : Registry)
    (externalIds : KeyedMap (Prod.fst : JsString × JsString → JsString)) : Registry :=
  { r with externalIds := externalIds }

/-- External ids are no part of what a registry holds. -/
theorem Regular.setExternalIds (h : Regular r used)
    (externalIds : KeyedMap (Prod.fst : JsString × JsString → JsString)) :
    Regular (r.setExternalIds externalIds) used where
  sound := by
    have hfollows : Follows (fun _ => True) (fun _ => True) r (r.setExternalIds externalIds) :=
      .of_eq rfl rfl
    exact h.sound.keeps hfollows
  tenantKeys := h.tenantKeys
  knownTenants := h.knownTenants
  knownVersions := h.knownVersions
  bounded := h.bounded
  increasing := h.increasing
  still := h.still
  noBlobs := h.noBlobs
  noAssume := h.noAssume

/-- The upsert of a new binding, but for the text that its caller is given. -/
theorem createBinding_eq (command : UpsertStorageBindingCommand) (actorId : JsString) :
    ∃ externalIds template, r.createBinding d command actorId =
      (.ok ⟨(command.newBinding d).summary (command.newProfile d).toStorageProfileSummary,
          (command.newProfile d).externalId, template⟩,
        (r.write (command.newProfile d) (command.newBinding d)
          (some ((command.newBinding d).version (command.newProfile d).toStorageProfileSummary
            d.versionId actorId))).setExternalIds externalIds) := by
  have hget : (r.profiles.set (command.newProfile d)).get (command.newBinding d).profileId =
      some (command.newProfile d) := KeyedMap.get_set_self r.profiles (command.newProfile d)
  have hsummary : ∀ r' : Registry, r'.profiles = r.profiles.set (command.newProfile d) →
      r'.toSummary (command.newBinding d) =
        .ok ((command.newBinding d).summary (command.newProfile d).toStorageProfileSummary) := by
    intro r' hprofiles
    exact toSummary_eq (hprofiles ▸ hget)
  rw [Registry.createBinding, Registry.versioned, hsummary _ rfl]
  exact ⟨_, _, rfl⟩

theorem Regular.create (h : Regular r used) (hfresh : d.Fresh used)
    {command : UpsertStorageBindingCommand} (hfound : r.findBinding command.workspaceId
      command.applicationId command.applicationTenantId = none) {actorId : JsString}
    (hr' : r' = r.write (command.newProfile d) (command.newBinding d)
      (some ((command.newBinding d).version (command.newProfile d).toStorageProfileSummary
        d.versionId actorId))) : Regular r' (d.ids ++ used) := by
  have hversions : r'.holdings.versions = r.holdings.versions ++
      [((command.newBinding d).version (command.newProfile d).toStorageProfileSummary
        d.versionId actorId).held] := by
    rw [hr', write_holdings (p := command.newProfile d) (b := command.newBinding d) rfl]
    rfl
  have hunknown : ∀ w ∈ r.holdings.versions, w.bindingId ≠ d.bindingId := by
    intro w hw hid
    exact hfresh.unused _ bindingId_mem (hid ▸ h.knownVersions w hw)
  have hold : ∀ b ∈ r.bindings.values, b.id ≠ d.bindingId := by
    intro b hb hid
    exact hfresh.unused _ bindingId_mem (hid ▸ (h.sound.knownBindings b hb).1)
  have hcases : ∀ c ∈ r'.bindings.values, c = command.newBinding d ∨ c ∈ r.bindings.values := by
    intro c hc
    rw [hr'] at hc
    exact (KeyedMap.mem_set.mp hc).imp id And.left
  refine ⟨?_, ?_, ?_, ?_, ?_, ?_, ?_, ?_, ?_⟩
  · exact h.sound.create hfresh hfound (by rw [hr']; rfl) (by rw [hr']; rfl)
  · rw [hr']
    exact h.tenantKeys
  · rw [hr']
    exact (h.grow hfresh).knownTenants
  · intro w hw
    rw [hversions] at hw
    obtain hw | hw := List.mem_append.mp hw
    · exact List.mem_append_right _ (h.knownVersions w hw)
    · rw [List.mem_singleton.mp hw]
      exact List.mem_append_left _ bindingId_mem
  · intro c hc w hw hid
    rw [hversions] at hw
    obtain hw | hw := List.mem_append.mp hw
    · obtain rfl | hc := hcases c hc
      · exact absurd hid (hunknown w hw)
      · exact h.bounded c hc w hw hid
    · rw [List.mem_singleton.mp hw] at hid ⊢
      obtain rfl | hc := hcases c hc
      · exact ⟨rfl, le_rfl⟩
      · exact absurd hid.symm (hold c hc)
  · rw [hversions, List.pairwise_append]
    refine ⟨h.increasing, List.pairwise_singleton _ _, ?_⟩
    intro w hw w' hw' hsame
    rw [List.mem_singleton.mp hw'] at hsame
    exact absurd hsame (hunknown w hw)
  · intro c hc
    obtain rfl | hc := hcases c hc
    · simp only [UpsertStorageBindingCommand.newBinding, UpsertStorageBindingCommand.statusCreated]
      split <;> decide
    · exact h.still c hc
  · rw [hr']
    exact h.noBlobs
  · rw [hr']
    exact h.noAssume

/-- A registry without a binding and its profile. -/
def Registry.discard (r : Registry) (b : StoredStorageBinding) : Registry :=
  { r with
    bindings := r.bindings.erase b.id
    profiles := r.profiles.erase b.profileId }

theorem discard_holdings : (r.discard b).holdings = r.holdings.remove b r.holdings.versions := by
  have hprofile : (fun id => ((r.profiles.erase b.profileId).get id).map (·.held)) =
      Function.update (fun id => (r.profiles.get id).map (·.held)) b.profileId none := by
    funext id
    rw [KeyedMap.get_erase]
    by_cases h : id = b.profileId
    · rw [if_pos h, h, Function.update_self, Option.map_none]
    · rw [if_neg h, Function.update_of_ne h]
  simp only [Registry.holdings, Holdings.remove, Registry.discard, hprofile]

/-- Whether a binding is refused to be deleted as it is in use. -/
def StoredStorageBinding.kept (b : StoredStorageBinding) (force : Bool) : Bool :=
  !force && (b.status = .connected || b.status = .migrating)

def keptBinding : StorageError :=
  ⟨some "COMMAND_REJECTED",
    js "Connected or migrating bindings cannot be deleted without force."⟩

theorem deleteBinding_eq {bindingId : JsString} (force : Bool) (hassume :
      r.assumeWithoutExternalId = .empty) (hblobs : r.blobs = .empty)
    (hb : r.bindings.get bindingId = some b) (hp : r.profiles.get b.profileId = some p)
    (howned : ∀ c ∈ r.bindings.values, c.profileId = b.profileId → c = b) :
    r.deleteBinding bindingId force =
      if b.kept force then (.error keptBinding, r)
      else (.ok (b.summary p.toStorageProfileSummary), r.discard b) := by
  have hid : b.id = bindingId := KeyedMap.key_of_get hb
  have hunused : ((r.bindings.erase bindingId).values.any (·.profileId == b.profileId)) = false := by
    rw [List.any_eq_false]
    intro c hc hprofile
    obtain ⟨hc, hne⟩ := KeyedMap.mem_erase.mp hc
    rw [howned c hc (beq_iff_eq.mp hprofile)] at hne
    exact hne hid
  have herase : r.assumeWithoutExternalId.erase bindingId = r.assumeWithoutExternalId := by
    rw [hassume]
    rfl
  have hroutes : r.blobs.values.any (·.storageBindingId == bindingId) = false := by
    rw [hblobs]
    rfl
  simp only [Registry.deleteBinding, Registry.withBinding, hb, hroutes, Bool.and_false,
    toSummary_eq hp, hunused, herase]
  change (if b.kept force = true then _ else _) = _
  cases b.kept force with
  | true => rfl
  | false =>
    rw [Registry.discard, hid]
    rfl

theorem Regular.discard (h : Regular r used) (hb : b ∈ r.bindings.values) :
    Regular (r.discard b) used := by
  have hfollows : Follows (fun _ => True) (fun _ => True) r (r.discard b) := by
    have hbindings : Follows (fun _ => True) (fun _ => True) r
        { r with bindings := r.bindings.erase b.id } := .eraseBinding rfl rfl trivial
    refine hbindings.trans (.eraseProfile rfl rfl ?_)
    intro c hc hprofile
    obtain ⟨hc, hne⟩ := KeyedMap.mem_erase.mp hc
    exact hne (h.sound.owned c hc b hb hprofile ▸ rfl)
  refine ⟨h.sound.keeps hfollows, h.tenantKeys, h.knownTenants, h.knownVersions, ?_, h.increasing,
    ?_, h.noBlobs, h.noAssume⟩
  · intro c hc
    exact h.bounded c (KeyedMap.mem_erase.mp hc).1
  · intro c hc
    exact h.still c (KeyedMap.mem_erase.mp hc).1

end Keeps

end TrustCore.AppStorage
