import TrustCore.AppStorageCutover
import TrustCore.AppStorageDurability
import TrustCore.StableSort

/-!
# Rolling back an upsert

A rollback takes the profile from the newest version of the binding but one. An
upsert, a rollback and a cutover add a version whenever they raise a generation;
`acceptPlan` changes the declared plan of a profile and adds none. So the version
that an upsert is rolled back to has the profile as it was, but for its plan.
-/

namespace TrustCore.AppStorage

open TrustCore.Utf TrustCore.KeyedMaps TrustCore.Runs

/-! ## What the versions keep -/

/-- The same profile, but for the plan that is declared. -/
def SameButPlan (p q : StorageProfileSummary) : Prop :=
  { p with
    declaredPlanCode := q.declaredPlanCode
    declaredCapacityBytes := q.declaredCapacityBytes } = q

theorem SameButPlan.refl (p : StorageProfileSummary) : SameButPlan p p := rfl

theorem SameButPlan.trans {p q q' : StorageProfileSummary} (h : SameButPlan p q)
    (h' : SameButPlan q q') : SameButPlan p q' := by
  unfold SameButPlan at *
  rw [← h', ← h]

/-- The version of a binding with the highest generation. -/
structure Newest (r : Registry) (bindingId : JsString) (v : BindingVersion) : Prop where
  mem : v ∈ r.versions
  binding : v.bindingId = bindingId
  generation : ∀ w ∈ r.versions, w.bindingId = bindingId → w.generation ≤ v.generation

/-- The versions of a binding have its generations, in order, and the newest one its profile. -/
structure Versioned (r : Registry) (used : List JsString) : Prop where
  known : ∀ v ∈ r.versions, v.bindingId ∈ used
  bounded : ∀ b ∈ r.bindings.values, ∀ v ∈ r.versions, v.bindingId = b.id →
    v.generation ≤ b.generation
  increasing : r.versions.Pairwise fun v w => v.bindingId = w.bindingId →
    v.generation < w.generation
  newest : ∀ b ∈ r.bindings.values, ∃ v, Newest r b.id v ∧
    ∀ p, r.profiles.get b.profileId = some p →
      SameButPlan v.snapshot.profile p.toStorageProfileSummary

section Updates

variable {used : List JsString} {r r' : Registry} {b b' : StoredStorageBinding}
  {p p' : StoredStorageProfile}

theorem Newest.congr (h : r'.versions = r.versions) {id : JsString} {v : BindingVersion}
    (hv : Newest r id v) : Newest r' id v :=
  ⟨h ▸ hv.mem, hv.binding, h ▸ hv.generation⟩

namespace Versioned

theorem empty : Versioned .empty [] where
  known _ hv := absurd hv List.not_mem_nil
  bounded _ hb := absurd hb List.not_mem_nil
  increasing := List.Pairwise.nil
  newest _ hb := absurd hb List.not_mem_nil

theorem grow (h : Versioned r used) (ids : List JsString) : Versioned r (ids ++ used) where
  known v hv := List.mem_append_right _ (h.known v hv)
  bounded := h.bounded
  increasing := h.increasing
  newest := h.newest

/-- Bindings that descend from bindings of old, with profiles that differ by their plan. -/
theorem of_descends (h : Versioned r used) (hv : r'.versions = r.versions)
    (hb : ∀ b' ∈ r'.bindings.values, ∃ b ∈ r.bindings.values, b'.id = b.id ∧
      b'.profileId = b.profileId ∧ b.generation ≤ b'.generation)
    (hp : ∀ id p', r'.profiles.get id = some p' → ∃ p, r.profiles.get id = some p ∧
      SameButPlan p.toStorageProfileSummary p'.toStorageProfileSummary) : Versioned r' used where
  known := by
    rw [hv]
    exact h.known
  bounded b' hb' v hmem hid := by
    obtain ⟨b, hbmem, hsame, -, hgeneration⟩ := hb b' hb'
    rw [hv] at hmem
    exact (h.bounded b hbmem v hmem (hid.trans hsame)).trans hgeneration
  increasing := by
    rw [hv]
    exact h.increasing
  newest b' hb' := by
    obtain ⟨b, hbmem, hsame, hprofile, -⟩ := hb b' hb'
    obtain ⟨v, hnewest, hlike⟩ := h.newest b hbmem
    refine ⟨v, hsame ▸ hnewest.congr hv, ?_⟩
    intro p' hp'
    obtain ⟨p, hget, hplan⟩ := hp _ p' hp'
    exact (hlike p (hprofile ▸ hget)).trans hplan

theorem of_eq (h : Versioned r used) (hb : r'.bindings = r.bindings)
    (hp : r'.profiles = r.profiles) (hv : r'.versions = r.versions) : Versioned r' used :=
  h.of_descends hv (fun b hmem => ⟨b, hb ▸ hmem, rfl, rfl, le_rfl⟩)
    fun _ p hget => ⟨p, hp ▸ hget, .refl _⟩

theorem setBinding (h : Versioned r used) (hb : b ∈ r.bindings.values) (hid : b'.id = b.id)
    (hprofile : b'.profileId = b.profileId) (hgeneration : b.generation ≤ b'.generation) :
    Versioned (r.setBinding b') used := by
  have hversions : (r.setBinding b').versions = r.versions := rfl
  apply h.of_descends hversions
  · intro c hc
    obtain rfl | ⟨hc, -⟩ := KeyedMap.mem_set.mp hc
    · exact ⟨b, hb, hid, hprofile, hgeneration⟩
    · exact ⟨c, hc, rfl, rfl, le_rfl⟩
  · exact fun _ q hget => ⟨q, hget, .refl _⟩

theorem setProfile (h : Versioned r used) (hp : p ∈ r.profiles.values) (hid : p'.id = p.id)
    (hplan : SameButPlan p.toStorageProfileSummary p'.toStorageProfileSummary) :
    Versioned (r.setProfile p') used := by
  have hversions : (r.setProfile p').versions = r.versions := rfl
  apply h.of_descends hversions
  · exact fun c hc => ⟨c, hc, rfl, rfl, le_rfl⟩
  · intro id q hq
    rw [Registry.get_setProfile] at hq
    split at hq
    · next hsame =>
      obtain rfl : p' = q := Option.some.inj hq
      refine ⟨p, ?_, hplan⟩
      rw [← hsame, hid]
      exact KeyedMap.get_of_mem hp
    · exact ⟨q, hq, .refl _⟩

theorem erase (h : Versioned r used) (hv : r'.versions = r.versions)
    (hb : ∀ b ∈ r'.bindings.values, b ∈ r.bindings.values)
    (hp : ∀ id p, r'.profiles.get id = some p → r.profiles.get id = some p) : Versioned r' used :=
  h.of_descends hv (fun b hmem => ⟨b, hb b hmem, rfl, rfl, le_rfl⟩)
    fun id p hget => ⟨p, hp id p hget, .refl _⟩

/-- A profile of the binding's own and a version of both, of a generation that is new. -/
theorem write (h : Versioned r used) (hknown : b'.id ∈ used) (hid : p'.id = b'.profileId)
    (hnew : ∀ v ∈ r.versions, v.bindingId = b'.id → v.generation < b'.generation)
    (hother : ∀ c ∈ r.bindings.values, c.id ≠ b'.id → c.profileId ≠ b'.profileId)
    {versionId actorId : JsString} :
    Versioned (r.write p' b' (some (b'.version p'.toStorageProfileSummary versionId actorId)))
      used where
  known v hv := by
    rcases List.mem_append.mp hv with hold | hnew
    · exact h.known v hold
    · rw [List.mem_singleton.mp hnew]
      exact hknown
  bounded c hc v hv hbinding := by
    obtain rfl | ⟨hc, hne⟩ := KeyedMap.mem_set.mp hc
    · rcases List.mem_append.mp hv with hold | hlast
      · exact (hnew v hold hbinding).le
      · rw [List.mem_singleton.mp hlast]
        exact le_rfl
    · rcases List.mem_append.mp hv with hold | hlast
      · exact h.bounded c hc v hold hbinding
      · rw [List.mem_singleton.mp hlast] at hbinding
        exact absurd hbinding.symm hne
  increasing := by
    refine List.pairwise_append.mpr ⟨h.increasing, List.pairwise_singleton _ _, ?_⟩
    intro v hv w hw hsame
    rw [List.mem_singleton.mp hw] at hsame ⊢
    exact hnew v hv hsame
  newest c hc := by
    obtain rfl | ⟨hc, hne⟩ := KeyedMap.mem_set.mp hc
    · refine ⟨_, ⟨List.mem_append_right _ (List.mem_singleton_self _), rfl, ?_⟩, ?_⟩
      · intro w hw hbinding
        rcases List.mem_append.mp hw with hold | hlast
        · exact (hnew w hold hbinding).le
        · rw [List.mem_singleton.mp hlast]
      · intro q hq
        obtain rfl : p' = q := Option.some.inj ((get_write_profile hid).symm.trans hq)
        exact .refl _
    · obtain ⟨v, hnewest, hlike⟩ := h.newest c hc
      refine ⟨v, ⟨List.mem_append_left _ hnewest.mem, hnewest.binding, ?_⟩, ?_⟩
      · intro w hw hbinding
        rcases List.mem_append.mp hw with hold | hlast
        · exact hnewest.generation w hold hbinding
        · rw [List.mem_singleton.mp hlast] at hbinding
          exact absurd hbinding.symm hne
      · intro q hq
        have hprofile : p'.id ≠ c.profileId := fun heq => hother c hc hne (heq.symm.trans hid)
        have hget : (r.setProfile p').profiles.get c.profileId = some q := hq
        rw [Registry.get_setProfile, if_neg hprofile] at hget
        exact hlike q hget

/-- A version of a binding that has one of its own profile already. -/
theorem rewrite (h : Versioned r used) (hsound : r.Sound used) (hb : b ∈ r.bindings.values)
    (hp : r.profiles.get b.profileId = some p) (hid : p'.id = p.id) (hsame : b'.id = b.id)
    (hprofile : b'.profileId = b.profileId) (hgeneration : b.generation < b'.generation)
    {versionId actorId : JsString} :
    Versioned (r.write p' b' (some (b'.version p'.toStorageProfileSummary versionId actorId)))
      used := by
  apply h.write
  · rw [hsame]
    exact (hsound.knownBindings b hb).1
  · rw [hid, hprofile]
    exact profile_id hp
  · intro v hv hbinding
    exact (h.bounded b hb v hv (hbinding.trans hsame)).trans_lt hgeneration
  · intro c hc hne hshared
    rw [hsound.owned c hc b hb (hshared.trans hprofile)] at hne
    exact hne hsame.symm

end Versioned

end Updates

/-! ## The commands -/

section Commands

variable {used : List JsString} {r : Registry} {b : StoredStorageBinding} {d : Draw}

theorem versioned_withBinding {α : Type} {bindingId : JsString}
    {act : StoredStorageBinding → Outcome α} (h : Versioned r used)
    (hact : ∀ b, r.bindings.get bindingId = some b → Versioned (act b).2 used) :
    Versioned (r.withBinding bindingId act).2 used := by
  rw [Registry.withBinding]
  cases hb : r.bindings.get bindingId with
  | none => exact h
  | some b => exact hact b hb

theorem versioned_changeTenant (h : Versioned r used)
    {workspaceId applicationId tenantId expectedUpdatedAt : JsString}
    {change : ApplicationTenant → ApplicationTenant} :
    Versioned (r.changeTenant d workspaceId applicationId tenantId expectedUpdatedAt change).2
      used := by
  rw [Registry.changeTenant]
  split
  · exact h
  · split
    · exact h
    · exact h.of_eq rfl rfl rfl

theorem versioned_createTenant (h : Versioned r used) {input : CreateTenantInput} :
    Versioned (r.createTenant d input).2 used := by
  rw [Registry.createTenant]
  split
  · exact h
  · exact h.of_eq rfl rfl rfl

theorem versioned_updateBinding (h : Versioned r used) (hsound : r.Sound used)
    {command : UpsertStorageBindingCommand} {actorId : JsString} (hb : b ∈ r.bindings.values) :
    Versioned (r.updateBinding d command actorId b).2 used := by
  obtain ⟨p, hp, -⟩ := hsound.profiled b hb
  cases hconflict : command.expectedGeneration.any fun g : Int => decide (g ≠ b.generation) with
  | true =>
    rw [Registry.updateBinding, if_pos hconflict]
    exact h
  | false =>
    obtain ⟨template, hupdate⟩ := updateBinding_eq hp hconflict d actorId
    rw [hupdate]
    have hid : (p.upserted d command).id = p.id := rfl
    have hu : Updates b (b.upserted d command) := updates_upserted b d command
    exact h.rewrite hsound hb hp hid hu.id hu.profileId (Nat.lt_succ_self _)

theorem versioned_createBinding (h : Versioned r used) (hsound : r.Sound used)
    (hfresh : d.Fresh used) {command : UpsertStorageBindingCommand} {actorId : JsString} :
    Versioned (r.createBinding d command actorId).2 (d.ids ++ used) := by
  obtain ⟨externalIds, template, hcreate⟩ := @createBinding_eq r d command actorId
  rw [hcreate]
  have hwritten : Versioned (r.write (command.newProfile d) (command.newBinding d)
      (some ((command.newBinding d).version (command.newProfile d).toStorageProfileSummary
        d.versionId actorId))) (d.ids ++ used) := by
    refine (h.grow d.ids).write (List.mem_append_left _ bindingId_mem) rfl ?_ ?_
    · intro v hv hbinding
      exact absurd (h.known v hv) (hbinding ▸ hfresh.unused _ bindingId_mem)
    · intro c hc _ hshared
      have hshared : c.profileId = d.profileId := hshared
      exact hfresh.unused _ profileId_mem (hshared ▸ (hsound.knownBindings c hc).2)
  exact hwritten.of_eq rfl rfl rfl

theorem versioned_revealExternalId (h : Versioned r used) {profileId : JsString} :
    Versioned (r.revealExternalId profileId).2 used := by
  rw [Registry.revealExternalId]
  cases hp : r.profiles.get profileId with
  | none => exact h
  | some p =>
    dsimp only
    split
    · exact h
    · split
      · exact h.of_eq rfl rfl rfl
      · exact h.setProfile (KeyedMap.mem_of_get hp) rfl (.refl _)

theorem versioned_runHandshakeHardening (h : Versioned r used) {bindingId : JsString} :
    Versioned (r.runHandshakeHardening d bindingId).2 used := by
  rw [Registry.runHandshakeHardening]
  split
  · exact h
  · cases hb : r.bindings.get bindingId with
    | none => exact h
    | some b => exact h.setBinding (KeyedMap.mem_of_get hb) rfl rfl le_rfl

theorem versioned_recordProbe (h : Versioned r used) {bindingId : JsString} {input : ProbeInput} :
    Versioned (r.recordProbe d bindingId input).2 used := by
  apply versioned_withBinding h
  intro b hb
  have hu := updates_probed b d input
  exact h.setBinding (KeyedMap.mem_of_get hb) hu.id hu.profileId hu.generation

theorem versioned_refreshPlan (h : Versioned r used) {bindingId : JsString}
    {observation : PlanObservation} : Versioned (r.refreshPlan d bindingId observation).2 used := by
  apply versioned_withBinding h
  intro b hb
  dsimp only
  split
  · exact h.setBinding (KeyedMap.mem_of_get hb) rfl rfl le_rfl
  · exact h.setBinding (KeyedMap.mem_of_get hb) rfl rfl le_rfl

/-- The one command that changes a profile and adds no version. -/
theorem versioned_acceptPlan (h : Versioned r used) {bindingId : JsString} {capacity : Int}
    {planCode : Option JsString} :
    Versioned (r.acceptPlan d bindingId capacity planCode).2 used := by
  apply versioned_withBinding h
  intro b hb
  cases hp : r.profiles.get b.profileId with
  | none => exact h
  | some p =>
    have hprofile : Versioned (r.setProfile (p.planAccepted d capacity planCode)) used :=
      h.setProfile (KeyedMap.mem_of_get hp) rfl rfl
    exact hprofile.setBinding (KeyedMap.mem_of_get hb) rfl rfl le_rfl

theorem versioned_disableBinding (h : Versioned r used) {bindingId : JsString} :
    Versioned (r.disableBinding d bindingId).2 used := by
  apply versioned_withBinding h
  intro b hb
  have hset : Versioned (r.setBinding (b.disable d)) used :=
    h.setBinding (KeyedMap.mem_of_get hb) rfl rfl (Nat.le_succ _)
  exact hset.of_eq rfl rfl rfl

theorem versioned_deleteBinding (h : Versioned r used) {bindingId : JsString} {force : Bool} :
    Versioned (r.deleteBinding bindingId force).2 used := by
  apply versioned_withBinding h
  intro b hb
  dsimp only
  split
  · exact h
  · split
    · exact h
    · split
      · exact h
      · refine Versioned.erase h ?_ ?_ ?_
        · rfl
        · exact fun c hc => (KeyedMap.mem_erase.mp hc).1
        · intro id p hget
          dsimp only at hget
          split at hget
          · exact hget
          · rw [KeyedMap.get_erase] at hget
            split at hget
            · cases hget
            · exact hget

theorem versioned_markProbeDeferred (h : Versioned r used) {bindingId summary : JsString} :
    Versioned (r.markProbeDeferred d bindingId summary).2 used := by
  apply versioned_withBinding h
  intro b hb
  exact h.setBinding (KeyedMap.mem_of_get hb) rfl rfl le_rfl

theorem versioned_clearTenantOverride (h : Versioned r used) {bindingId : JsString} :
    Versioned (r.clearTenantOverride bindingId).2 used := by
  rw [Registry.clearTenantOverride]
  split
  · exact h
  · exact h.erase rfl (fun c hc => (KeyedMap.mem_erase.mp hc).1) fun _ _ hget => hget

theorem versioned_rollbackBinding (h : Versioned r used) (hsound : r.Sound used)
    {bindingId actorId : JsString} : Versioned (r.rollbackBinding d bindingId actorId).2 used := by
  cases hb : r.bindings.get bindingId with
  | none =>
    rw [Registry.rollbackBinding, Registry.withBinding, hb]
    exact h
  | some b =>
    have hmem := KeyedMap.mem_of_get hb
    obtain ⟨p, hp, -⟩ := hsound.profiled b hmem
    cases hprevious : (r.listBindingHistory bindingId 2).find? fun v =>
        decide (v.generation < b.generation) with
    | none =>
      rw [rollbackBinding_refused hb hprevious]
      exact h
    | some previous =>
      rw [rollbackBinding_eq hb hp hprevious]
      have hid : (p.rolledBack d previous.snapshot.profile).id = p.id := rfl
      have hu : Updates b (b.rolledBack d) := updates_rolledBack b d
      exact h.rewrite hsound hmem hp hid hu.id hu.profileId (Nat.lt_succ_self _)

theorem versioned_beginMigrate (h : Versioned r used) {bindingId : JsString} :
    Versioned (r.beginMigrate d bindingId).2 used := by
  apply versioned_withBinding h
  intro b hb
  split
  · exact h
  · exact h.setBinding (KeyedMap.mem_of_get hb) rfl rfl (Nat.le_succ _)

theorem setProfile_same {p : StoredStorageProfile} {id : JsString}
    (hp : r.profiles.get id = some p) : r.setProfile p = r := by
  rw [Registry.setProfile, KeyedMap.set_of_get ((profile_id hp).symm ▸ hp)]

/-- A version of a binding with its profile as it was. -/
theorem versioned_setBinding {b' : StoredStorageBinding} {p : StoredStorageProfile}
    (hp : r.profiles.get b'.profileId = some p) (versionId actorId : JsString) :
    ((r.setBinding b').versioned versionId actorId b').2 =
      r.write p b' (some (b'.version p.toStorageProfileSummary versionId actorId)) := by
  have hboth := @versioned_both r b' p (profile_id hp) versionId actorId
  rw [setProfile_same hp] at hboth
  rw [hboth]

theorem versioned_finishCutover (h : Versioned r used) (hsound : r.Sound used)
    {source target : StoredStorageBinding} (hsource : source ∈ r.bindings.values)
    (htarget : target ∈ r.bindings.values) (hne : target.id ≠ source.id) {actorId : JsString} :
    Versioned (r.finishCutover d actorId source target).2 used := by
  rw [Registry.finishCutover]
  generalize hs : ({ source with status := .connected, updatedAt := d.now } : StoredStorageBinding) =
    source'
  have hid : source'.id = source.id := by rw [← hs]
  have hprofile : source'.profileId = source.profileId := by rw [← hs]
  have hgeneration : source.generation ≤ source'.generation := by rw [← hs]
  have hset : Versioned (r.setBinding source') used :=
    h.setBinding hsource hid hprofile hgeneration
  have hfollows : Follows (fun _ => True) (fun _ => True) r (r.setBinding source') :=
    .setBinding hsource (by rw [← hs]; exact ⟨rfl, rfl, rfl, rfl, rfl, le_rfl, fun h _ => h⟩)
  have hmem : target ∈ (r.setBinding source').bindings.values :=
    KeyedMap.mem_set.mpr (.inr ⟨htarget, hid ▸ hne⟩)
  have hsound' := hsound.keeps hfollows
  obtain ⟨p, hp, -⟩ := hsound'.profiled target hmem
  rw [versioned_setBinding (by exact hp)]
  refine Versioned.rewrite hset hsound' hmem hp ?_ ?_ ?_ ?_
  · rfl
  · rfl
  · rfl
  · exact Nat.lt_succ_self _

theorem versioned_cutoverMigrate (h : Versioned r used) (hsound : r.Sound used)
    {input : CutoverInput} : Versioned (r.cutoverMigrate d input).2 used := by
  cases hs : r.bindings.get input.sourceBindingId with
  | none =>
    rw [Registry.cutoverMigrate, hs]
    exact h
  | some source =>
    cases ht : r.bindings.get input.targetBindingId with
    | none =>
      rw [Registry.cutoverMigrate, hs, ht]
      exact h
    | some target =>
      by_cases hmigrating : source.status = .migrating
      case neg =>
        rw [cutoverMigrate_of_still hs ht hmigrating]
        exact h
      by_cases hconnected : target.status = .connected
      case neg =>
        simp only [Registry.cutoverMigrate, hs, ht, if_neg (not_not.mpr hmigrating),
          if_pos hconnected]
        exact h
      rw [cutoverMigrate_started hs ht hmigrating hconnected]
      have hkeeps := moveRoutes_keeps r target input.objectDigests
      generalize r.moveRoutes target input.objectDigests = moved at hkeeps
      obtain ⟨result, r₁⟩ := moved
      have hb₁ : r₁.bindings = r.bindings := by simpa using congrArg Registry.bindings hkeeps
      have hp₁ : r₁.profiles = r.profiles := by simpa using congrArg Registry.profiles hkeeps
      have hv₁ : r₁.versions = r.versions := by simpa using congrArg Registry.versions hkeeps
      have h₁ : Versioned r₁ used := h.of_eq hb₁ hp₁ hv₁
      cases result with
      | error e => exact h₁
      | ok _ =>
        have hsound₁ : r₁.Sound used :=
          hsound.keeps (@Follows.of_eq (fun _ => True) (fun _ => True) r r₁ hb₁ hp₁)
        have hsource : source ∈ r₁.bindings.values := hb₁ ▸ KeyedMap.mem_of_get hs
        have htarget : target ∈ r₁.bindings.values := hb₁ ▸ KeyedMap.mem_of_get ht
        have hne : target.id ≠ source.id := by
          intro hid
          rw [KeyedMap.eq_of_key htarget hsource hid, hmigrating] at hconnected
          cases hconnected
        exact versioned_finishCutover h₁ hsound₁ hsource htarget hne

theorem Versioned.perform {c : RegistryCommand} (h : Versioned r used) (hsound : r.Sound used)
    (hfresh : d.Fresh used) : Versioned (r.perform d c).2 (d.ids ++ used) := by
  cases c with
  | createTenant input => exact (versioned_createTenant h).grow _
  | updateTenant input => exact (versioned_changeTenant h).grow _
  | setTenantStatus input => exact (versioned_changeTenant h).grow _
  | upsertBinding command actorId =>
    simp only [Registry.perform, Outcome.done, Registry.upsertBinding]
    split
    · next b hfound =>
      exact (versioned_updateBinding h hsound (List.mem_of_find?_eq_some hfound)).grow _
    · exact versioned_createBinding h hsound hfresh
  | revealExternalId profileId => exact (versioned_revealExternalId h).grow _
  | setAssumeWithoutExternalId bindingId succeeds => exact Versioned.grow (by exact h.of_eq rfl rfl rfl) _
  | runHandshakeHardening bindingId => exact (versioned_runHandshakeHardening h).grow _
  | recordProbe bindingId input => exact (versioned_recordProbe h).grow _
  | refreshPlan bindingId observation => exact (versioned_refreshPlan h).grow _
  | acceptPlan bindingId capacity planCode => exact (versioned_acceptPlan h).grow _
  | disableBinding bindingId => exact (versioned_disableBinding h).grow _
  | deleteBinding bindingId force => exact (versioned_deleteBinding h).grow _
  | markProbeDeferred bindingId summary => exact (versioned_markProbeDeferred h).grow _
  | clearTenantOverride bindingId => exact (versioned_clearTenantOverride h).grow _
  | rollbackBinding bindingId actorId => exact (versioned_rollbackBinding h hsound).grow _
  | beginMigrate bindingId => exact (versioned_beginMigrate h).grow _
  | cutoverMigrate input => exact (versioned_cutoverMigrate h hsound).grow _
  | commitBlob input => exact Versioned.grow (by exact h.of_eq rfl rfl rfl) _

end Commands

theorem versioned_of_reachable {s : Session} (hs : registryMachine.Reachable s) :
    Versioned s.registry s.used := by
  have hrun : s.registry.Sound s.used ∧ Versioned s.registry s.used := by
    apply hs.invariant
    · rintro s rfl
      exact ⟨Registry.sound_empty, .empty⟩
    · rintro s ⟨c, d⟩ s' ⟨hsound, h⟩ ⟨hfresh, rfl⟩
      exact ⟨hsound.perform hfresh, h.perform hsound hfresh⟩
  exact hrun.2

/-! ## An upsert and its rollback -/

/-- The declared plan of a profile is that of the newest version of its binding. -/
def PlanRecorded (r : Registry) (b : StoredStorageBinding) (p : StoredStorageProfile) : Prop :=
  ∀ v, Newest r b.id v → v.snapshot.profile.declaredPlanCode = p.declaredPlanCode ∧
    v.snapshot.profile.declaredCapacityBytes = p.declaredCapacityBytes

/-- A rollback of the binding returns and leaves the profile as given. -/
def RollsBackTo (r : Registry) (d : Draw) (bindingId actorId : JsString) (profileId : JsString)
    (profile : StorageProfileSummary) : Prop :=
  ∃ summary, (r.rollbackBinding d bindingId actorId).1 = .ok summary ∧
    ((r.rollbackBinding d bindingId actorId).2.profiles.get profileId).map
      (·.toStorageProfileSummary) = some profile

section Rollback

variable {used : List JsString} {r r' : Registry} {b : StoredStorageBinding}
  {p : StoredStorageProfile}

/-- Among the versions of a binding the newest one is the last one. -/
theorem Versioned.newest_last (h : Versioned r used) {id : JsString} {v : BindingVersion}
    (hlast : (r.versions.filter (·.bindingId == id)).getLast? = some v) : Newest r id v := by
  obtain ⟨first, hsplit⟩ := List.getLast?_eq_some_iff.mp hlast
  have hmem : v ∈ r.versions.filter (·.bindingId == id) := List.mem_of_getLast? hlast
  have hbinding : v.bindingId = id := beq_iff_eq.mp (List.mem_filter.mp hmem).2
  refine ⟨(List.mem_filter.mp hmem).1, hbinding, ?_⟩
  intro w hw hwid
  have hincreasing := h.increasing.filter (·.bindingId == id)
  have hmem' : w ∈ first ++ [v] :=
    hsplit ▸ List.mem_filter.mpr ⟨hw, beq_iff_eq.mpr hwid⟩
  rw [hsplit] at hincreasing
  rcases List.mem_append.mp hmem' with hfirst | hsame
  · exact ((List.pairwise_append.mp hincreasing).2.2 w hfirst v (List.mem_singleton_self v)
      (hwid.trans hbinding.symm)).le
  · rw [List.mem_singleton.mp hsame]

theorem Versioned.newest_unique (h : Versioned r used) {id : JsString} {v w : BindingVersion}
    (hv : Newest r id v) (hw : Newest r id w) : v = w := by
  have hpairs := List.pairwise_iff_getElem.mp h.increasing
  obtain ⟨i, hi, rfl⟩ := List.mem_iff_getElem.mp hv.mem
  obtain ⟨j, hj, rfl⟩ := List.mem_iff_getElem.mp hw.mem
  have hsame := hv.binding.trans hw.binding.symm
  have hle := hv.generation _ hw.mem hw.binding
  have hge := hw.generation _ hv.mem hv.binding
  rcases Nat.lt_trichotomy i j with hlt | rfl | hlt
  · have hless := hpairs i j hi hj hlt hsame
    omega
  · rfl
  · have hless := hpairs j i hj hi hlt hsame.symm
    omega

/-- After a new version the history is that version and the newest one from before. -/
theorem Versioned.history_concat (h : Versioned r used) {id : JsString} {v w : BindingVersion}
    (hversions : r'.versions = r.versions ++ [w]) (hv : Newest r id v) (hw : w.bindingId = id)
    (hnew : v.generation < w.generation) : r'.listBindingHistory id 2 = [w, v] := by
  have hnonempty : r.versions.filter (·.bindingId == id) ≠ [] :=
    List.ne_nil_of_mem (List.mem_filter.mpr ⟨hv.mem, beq_iff_eq.mpr hv.binding⟩)
  obtain ⟨first, last, hsplit⟩ := (List.eq_nil_or_concat _).resolve_left hnonempty
  rw [List.concat_eq_append] at hsplit
  have hlast : last = v :=
    h.newest_unique (h.newest_last (by rw [hsplit, List.getLast?_concat])) hv
  have hfilter : r'.versions.filter (·.bindingId == id) = first ++ [v, w] := by
    rw [hversions, List.filter_append, hsplit, hlast, List.filter_singleton, beq_iff_eq.mpr hw]
    simp
  have hsort : (first ++ [v, w]).Pairwise fun v w => ¬ w.generation ≤ v.generation := by
    have hold := h.increasing.filter (·.bindingId == id)
    rw [hsplit, hlast] at hold
    have hid : ∀ u ∈ first ++ [v], u.bindingId = id ∧ u.generation ≤ v.generation := by
      intro u hu
      rw [← hlast, ← hsplit] at hu
      obtain ⟨hmem, hbinding⟩ := List.mem_filter.mp hu
      exact ⟨beq_iff_eq.mp hbinding, hv.generation u hmem (beq_iff_eq.mp hbinding)⟩
    rw [List.append_cons, List.pairwise_append]
    refine ⟨hold.imp_of_mem ?_, List.pairwise_singleton _ _, ?_⟩
    · intro u u' hu hu' hless
      have hlt := hless ((hid u hu).1.trans (hid u' hu').1.symm)
      omega
    · intro u hu u' hu'
      rw [List.mem_singleton.mp hu']
      have hle := (hid u hu).2
      omega
  rw [Registry.listBindingHistory, hfilter, StableSort.insertionSort_eq_reverse hsort]
  simp

theorem planRecorded_iff (h : Versioned r used) {v : BindingVersion} (hv : Newest r b.id v)
    (hlike : SameButPlan v.snapshot.profile p.toStorageProfileSummary) :
    PlanRecorded r b p ↔ { v.snapshot.profile with id := p.id } = p.toStorageProfileSummary := by
  have hid : v.snapshot.profile.id = p.id := by rw [← hlike]
  constructor
  · intro hrecorded
    obtain ⟨hcode, hcapacity⟩ := hrecorded v hv
    rw [← hlike, ← hcode, ← hcapacity]
  · intro hsame w hw
    rw [h.newest_unique hw hv, ← hsame]
    exact ⟨rfl, rfl⟩

/-- The rollback right after an upsert of a binding that exists. -/
theorem rollback_after_upsert (h : Versioned r used) (hb : r.bindings.get b.id = some b)
    (hp : r.profiles.get b.profileId = some p) {v : BindingVersion} (hv : Newest r b.id v)
    (command : UpsertStorageBindingCommand) (versionId actorId : JsString) (d d' : Draw)
    (actorId' : JsString) (profile : StorageProfileSummary) :
    RollsBackTo (r.write (p.upserted d command) (b.upserted d command)
        (some ((b.upserted d command).version (p.upserted d command).toStorageProfileSummary
          versionId actorId))) d' b.id actorId' b.profileId profile ↔
      { v.snapshot.profile with id := p.id } = profile := by
  generalize hr' : r.write (p.upserted d command) (b.upserted d command) _ = r'
  have hid : (p.upserted d command).id = (b.upserted d command).profileId :=
    (profile_id hp : p.id = b.profileId)
  have hb' : r'.bindings.get b.id = some (b.upserted d command) := by
    rw [← hr']
    exact get_changed hb rfl rfl
  have hp' : r'.profiles.get b.profileId = some (p.upserted d command) := by
    rw [← hr']
    exact get_write_profile hid
  have hbound : v.generation < b.generation + 1 :=
    Nat.lt_succ_of_le (h.bounded b (KeyedMap.mem_of_get hb) v hv.mem hv.binding)
  have hversions : r'.versions = r.versions ++
      [(b.upserted d command).version (p.upserted d command).toStorageProfileSummary versionId
        actorId] := by
    rw [← hr']
    rfl
  have hhistory := h.history_concat hversions hv rfl hbound
  have hprevious : (r'.listBindingHistory b.id 2).find? (fun v =>
      decide (v.generation < (b.upserted d command).generation)) = some v := by
    rw [hhistory]
    simp [StoredStorageBinding.upserted, StoredStorageBinding.version]
    omega
  rw [RollsBackTo, rollbackBinding_eq hb' hp' hprevious]
  have hget : (r'.write ((p.upserted d command).rolledBack d' v.snapshot.profile)
      ((b.upserted d command).rolledBack d')
      (some (((b.upserted d command).rolledBack d').version
        ((p.upserted d command).rolledBack d' v.snapshot.profile).toStorageProfileSummary
        d'.versionId actorId'))).profiles.get b.profileId =
        some ((p.upserted d command).rolledBack d' v.snapshot.profile) := get_write_profile hid
  rw [hget]
  simp [StoredStorageProfile.rolledBack, StoredStorageProfile.upserted,
    UpsertStorageBindingCommand.profileFields]

end Rollback

/-- In every reachable registry, an upsert of a binding that exists is undone by a rollback right
after it exactly when the newest version has the plan of the profile. -/
theorem rollback_restores_iff {s : Session} (hs : registryMachine.Reachable s) (d d' : Draw)
    (command : UpsertStorageBindingCommand) (actorId actorId' : JsString)
    (b : StoredStorageBinding) (p : StoredStorageProfile) (result : UpsertResult)
    (hfound : s.registry.findBinding command.workspaceId command.applicationId
      command.applicationTenantId = some b)
    (hp : s.registry.profiles.get b.profileId = some p)
    (haccepted : (s.registry.upsertBinding d command actorId).1 = .ok result) :
    RollsBackTo (s.registry.upsertBinding d command actorId).2 d' b.id actorId' b.profileId
        p.toStorageProfileSummary ↔ PlanRecorded s.registry b p := by
  have h := versioned_of_reachable hs
  have hmem := List.mem_of_find?_eq_some hfound
  obtain ⟨v, hv, hlike⟩ := h.newest b hmem
  rw [upsertBinding_found hfound] at haccepted ⊢
  cases hconflict : command.expectedGeneration.any fun g : Int => decide (g ≠ b.generation) with
  | true =>
    rw [Registry.updateBinding, if_pos hconflict] at haccepted
    cases haccepted
  | false =>
    obtain ⟨template, hupdate⟩ := updateBinding_eq hp hconflict d actorId
    rw [hupdate, planRecorded_iff h hv (hlike p hp)]
    exact rollback_after_upsert h (KeyedMap.get_of_mem hmem) hp hv command d.versionId actorId d
      d' actorId' p.toStorageProfileSummary

section Samples

/-- A binding that was set up once. -/
def boundSession : Session := sampleSession [.upsertBinding (sampleUpsert none) (js "u")]

/-- The binding of `boundSession`, with a capacity that was accepted after the set up. -/
def acceptedSession : Session :=
  sampleSession [.upsertBinding (sampleUpsert none) (js "u"), .acceptPlan firstBinding 20 none]

theorem boundSession_reachable : registryMachine.Reachable boundSession :=
  next_reaches (c := .upsertBinding (sampleUpsert none) (js "u")) (.init rfl) trivial (by decide)

theorem acceptedSession_reachable : registryMachine.Reachable acceptedSession :=
  next_reaches (c := .acceptPlan firstBinding 20 none) boundSession_reachable trivial (by decide)

/-- The profile comes back with the capacity of the set up, which was none. -/
theorem accepted_plan_lost : registryMachine.Reachable acceptedSession ∧ ∃ b p result,
    acceptedSession.registry.findBinding sampleWorkspace sampleApplication none = some b ∧
    acceptedSession.registry.profiles.get b.profileId = some p ∧
    p.declaredCapacityBytes = some 20 ∧
    (acceptedSession.registry.upsertBinding (sampleDraw 10) (sampleUpsert none) (js "u")).1 =
      .ok result ∧
    ¬ RollsBackTo (acceptedSession.registry.upsertBinding (sampleDraw 10) (sampleUpsert none)
      (js "u")).2 (sampleDraw 15) b.id (js "u") b.profileId p.toStorageProfileSummary := by
  refine ⟨acceptedSession_reachable, _, _, _, rfl, rfl, rfl, rfl, ?_⟩
  rintro ⟨summary, -, hprofile⟩
  revert hprofile
  decide

theorem rollback_restores_bound : ∃ b p result,
    boundSession.registry.findBinding sampleWorkspace sampleApplication none = some b ∧
    boundSession.registry.profiles.get b.profileId = some p ∧
    (boundSession.registry.upsertBinding (sampleDraw 5) (sampleUpsert none) (js "u")).1 =
      .ok result ∧
    RollsBackTo (boundSession.registry.upsertBinding (sampleDraw 5) (sampleUpsert none)
      (js "u")).2 (sampleDraw 10) b.id (js "u") b.profileId p.toStorageProfileSummary := by
  refine ⟨_, _, _, rfl, rfl, rfl, ?_⟩
  refine (rollback_restores_iff boundSession_reachable (sampleDraw 5) (sampleDraw 10)
    (sampleUpsert none) (js "u") (js "u") _ _ _ rfl rfl rfl).mpr ?_
  intro v hv
  rw [List.mem_singleton.mp hv.mem]
  exact ⟨rfl, rfl⟩

end Samples

end TrustCore.AppStorage
