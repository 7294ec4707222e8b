import TrustCore.AppStorageWrites

/-!
# Saving what an operation wrote

Each transaction writes to the tables what the operation before it wrote to the memory,
and a process stays linked to the registry of a fixture whose operations have nothing to
save.
-/

namespace TrustCore.AppStorage

open TrustCore.Utf TrustCore.KeyedMaps TrustCore.Methods

variable {loaded : JsString → Prop} {r r' m : Registry} {db : Database} {used : List JsString}
  {W : JsString} {b b' : StoredStorageBinding} {p p' : StoredStorageProfile} {P : HeldProfile}
  {t t' : ApplicationTenant} {d : Draw}

/-! ## Transactions -/

/-- A binding with the profile that it has. -/
theorem put_same {a : Holdings} (h : a.profile b.profileId = some P) :
    a.put P b [] = { a with bindings := a.bindings.set b } := by
  have hprofile : Function.update a.profile b.profileId (some P) = a.profile :=
    Function.update_eq_self_iff.mpr h.symm
  simp only [Holdings.put, hprofile, List.append_nil]

theorem updateBindingState_eq (hb : db.bindings.get b.id = some b) (hu : Updates b b') :
    Database.updateBindingState b' db = .ok ((), { db with bindings := db.bindings.set b' }) := by
  have hrow : (db.bindings.get b'.id).filter (·.workspaceId == b'.workspaceId) = some b := by
    rw [hu.id, hb, Option.filter_some, hu.workspaceId, beq_self_eq_true, if_pos rfl]
  have hsame : { b' with
      applicationId := b.applicationId
      applicationTenantId := b.applicationTenantId
      profileId := b.profileId
      createdAt := b.createdAt } = b' := by
    rw [← hu.applicationId, ← hu.applicationTenantId, ← hu.profileId, ← hu.createdAt]
  rw [Database.updateBindingState, hrow]
  dsimp only
  rw [hsame]

theorem putBinding_eq (h : ∀ row, db.bindings.get b'.id = some row → Updates row b') :
    db.putBinding b' = { db with bindings := db.bindings.set b' } := by
  rw [Database.putBinding]
  cases hrow : db.bindings.get b'.id with
  | none => rfl
  | some row =>
    have hu := h row hrow
    dsimp only
    rw [← hu.workspaceId, ← hu.applicationId, ← hu.applicationTenantId, ← hu.createdAt]

theorem putProfile_eq
    (h : ∀ row, db.profiles.get p.id = some row → row.workspaceId = p.workspaceId) :
    ∃ row : StorageProfileRow, db.putProfile p.row = { db with profiles := db.profiles.set row } ∧
      row.held = p.held ∧ row.id = p.id := by
  rw [Database.putProfile]
  cases hrow : db.profiles.get p.row.id with
  | none => exact ⟨p.row, rfl, rfl, rfl⟩
  | some row =>
    refine ⟨_, rfl, ?_, rfl⟩
    have hworkspace : row.workspaceId = p.workspaceId := h row hrow
    simp only [StorageProfileRow.held, hworkspace]
    rfl

theorem set_row_holdings {row : StorageProfileRow} {id : JsString} (hid : row.id = id) :
    { db with profiles := db.profiles.set row }.holdings =
      { db.holdings with profile := Function.update db.holdings.profile id (some row.held) } := by
  have hprofile : (fun id => ((db.profiles.set row).get id).map (·.held)) =
      Function.update (fun id => (db.profiles.get id).map (·.held)) id (some row.held) := by
    funext id'
    rw [KeyedMap.get_set, hid]
    by_cases h : id = id'
    · rw [if_pos h, ← h, Function.update_self, Option.map_some]
    · rw [if_neg h, Function.update_of_ne (Ne.symm h)]
  simp only [Database.holdings, hprofile]

theorem upsertProfileAndBinding_eq (v : Option BindingVersion) (hid : p.id = b'.profileId)
    (hprofile : ∀ row, db.profiles.get p.id = some row → row.workspaceId = p.workspaceId)
    (hbinding : ∀ row, db.bindings.get b'.id = some row → Updates row b') :
    ∃ db', Database.upsertProfileAndBinding p.row b' v db = .ok ((), db') ∧
      db'.holdings = db.holdings.put p.held b' (v.toList.map (·.held)) ∧ db'.blobs = db.blobs := by
  obtain ⟨row, hput, hheld, hrow⟩ := putProfile_eq hprofile
  refine ⟨_, rfl, ?_, ?_⟩
  · have hbindings : ({ db with profiles := db.profiles.set row } : Database).putBinding b' =
        { db with profiles := db.profiles.set row, bindings := db.bindings.set b' } :=
      putBinding_eq hbinding
    have hset := congrArg Holdings.profile (@set_row_holdings db row b'.profileId (hrow.trans hid))
    rw [hput, hbindings, ← hheld]
    simp only [Database.holdings, Holdings.put, List.map_append] at hset ⊢
    rw [hset]
  · rw [hput]
    rfl

theorem updateProfilePlan_eq {row : StorageProfileRow} (hrow : db.profiles.get p.id = some row)
    (hheld : row.held = p.held) (capacity : Int) (planCode : Option JsString) :
    ∃ db', Database.updateProfilePlan p.workspaceId p.id
        (p.planAccepted d capacity planCode).declaredCapacityBytes
        (p.planAccepted d capacity planCode).declaredPlanCode
        (p.planAccepted d capacity planCode).updatedAt db = .ok ((), db') ∧
      db'.holdings = { db.holdings with
        profile := Function.update db.holdings.profile p.id
          (some (p.planAccepted d capacity planCode).held) } ∧
      db'.bindings = db.bindings ∧ db'.blobs = db.blobs := by
  have hworkspace : row.workspaceId = p.workspaceId := congrArg HeldProfile.workspaceId hheld
  have hsummary : row.toStorageProfileSummary = p.toStorageProfileSummary :=
    congrArg HeldProfile.toStorageProfileSummary hheld
  have hfound : (db.profiles.get p.id).filter (·.workspaceId == p.workspaceId) = some row := by
    rw [hrow, Option.filter_some, hworkspace, beq_self_eq_true, if_pos rfl]
  have hid : row.id = p.id := congrArg StorageProfileSummary.id hsummary
  rw [Database.updateProfilePlan, hfound]
  refine ⟨_, rfl, ?_, rfl, rfl⟩
  rw [@set_row_holdings db _ p.id]
  · simp only [StorageProfileRow.held, StoredStorageProfile.held, hsummary, hworkspace]
    rfl
  · exact hid

theorem deleteBinding_row_eq {row : StorageProfileRow} (hb : db.bindings.get b.id = some b)
    (hrow : db.profiles.get b.profileId = some row) (hworkspace : row.workspaceId = b.workspaceId)
    (howned : ∀ c ∈ db.bindings.values, c.profileId = b.profileId → c = b) :
    ∃ db', Database.deleteBinding b.workspaceId b.id db = .ok ((), db') ∧
      db'.holdings = db.holdings.remove b ((db.versions.filter fun v =>
        !(v.workspaceId == b.workspaceId && v.bindingId == b.id)).map (·.held)) ∧
      db'.blobs = db.blobs := by
  have hfound : (db.bindings.get b.id).filter (·.workspaceId == b.workspaceId) = some b := by
    rw [hb, Option.filter_some, beq_self_eq_true, if_pos rfl]
  have hprofile : (db.profiles.get b.profileId).filter (·.workspaceId == b.workspaceId) =
      some row := by
    rw [hrow, Option.filter_some, hworkspace, beq_self_eq_true, if_pos rfl]
  have hunused : (db.bindings.erase b.id).values.any (fun c =>
      c.workspaceId == b.workspaceId && c.profileId == b.profileId) = false := by
    rw [List.any_eq_false]
    intro c hc hsame
    obtain ⟨hc, hne⟩ := KeyedMap.mem_erase.mp hc
    rw [Bool.and_eq_true, beq_iff_eq, beq_iff_eq] at hsame
    exact hne (howned c hc hsame.2 ▸ rfl)
  have herase : (fun id => ((db.profiles.erase b.profileId).get id).map (·.held)) =
      Function.update (fun id => (db.profiles.get id).map (·.held)) b.profileId none := by
    funext id
    rw [KeyedMap.get_erase]
    by_cases h : id = b.profileId
    · rw [if_pos h, h, Function.update_self, Option.map_none]
    · rw [if_neg h, Function.update_of_ne h]
  simp only [Database.deleteBinding, hfound]
  refine ⟨_, rfl, ?_, ?_⟩
  · simp only [Database.sweepProfile, hprofile, hunused, Database.holdings, Holdings.remove]
    simp only [Bool.false_eq_true, if_false, herase]
  · simp only [Database.sweepProfile, hprofile, hunused]
    rfl

/-- A tenant and what a command makes of it. -/
structure Renames (t t' : ApplicationTenant) : Prop where
  id : t'.id = t.id
  workspaceId : t'.workspaceId = t.workspaceId
  applicationId : t'.applicationId = t.applicationId
  externalTenantKey : t'.externalTenantKey = t.externalTenantKey
  createdAt : t'.createdAt = t.createdAt

theorem getTenant_eq (ht : db.tenants.get t'.id = some t) (hr : Renames t t') :
    Database.getTenant t'.workspaceId t'.applicationId t'.id db = .ok (some t, db) := by
  rw [Database.getTenant, ht, Option.filter_some, hr.workspaceId, hr.applicationId,
    beq_self_eq_true, beq_self_eq_true, Bool.and_true, if_pos rfl]

theorem updateTenant_eq (ht : db.tenants.get t'.id = some t) (hr : Renames t t') :
    Database.updateTenant t' t.updatedAt db =
      .ok ((), { db with tenants := db.tenants.set t' }) := by
  have hrow : (db.tenants.get t'.id).filter (fun t₀ => t₀.workspaceId == t'.workspaceId &&
      t₀.applicationId == t'.applicationId && t₀.updatedAt == t.updatedAt) = some t := by
    rw [ht, Option.filter_some, hr.workspaceId, hr.applicationId, beq_self_eq_true,
      beq_self_eq_true, beq_self_eq_true, Bool.and_true, Bool.and_true, if_pos rfl]
  have hsame : { t with
      displayName := t'.displayName
      status := t'.status
      updatedAt := t'.updatedAt } = t' := by
    cases t
    cases t'
    cases hr
    simp_all
  rw [Database.updateTenant, hrow]
  dsimp only
  rw [hsame]

end TrustCore.AppStorage
