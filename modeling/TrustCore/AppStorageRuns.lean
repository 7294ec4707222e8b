import TrustCore.AppStorage

/-!
# Runs of registry commands

Commands come in any order and with any input. Every one of them leaves the bindings it
does not remove with the identity they had, their profiles and at least their
generation; only a rollback takes the mark of a disabled binding away, and only an
upsert makes a binding, under ids that no command drew before.
-/

namespace TrustCore.AppStorage

open TrustCore.Utf TrustCore.KeyedMaps TrustCore.Runs

inductive RegistryCommand where
  | createTenant (input : CreateTenantInput)
  | updateTenant (input : UpdateTenantInput)
  | setTenantStatus (input : SetTenantStatusInput)
  | upsertBinding (command : UpsertStorageBindingCommand) (actorId : JsString)
  | revealExternalId (profileId : JsString)
  | setAssumeWithoutExternalId (bindingId : JsString) (succeeds : Bool)
  | runHandshakeHardening (bindingId : JsString)
  | recordProbe (bindingId : JsString) (input : ProbeInput)
  | refreshPlan (bindingId : JsString) (observation : PlanObservation)
  | acceptPlan (bindingId : JsString) (declaredCapacityBytes : Int) (planCode : Option JsString)
  | disableBinding (bindingId : JsString)
  | deleteBinding (bindingId : JsString) (force : Bool)
  | markProbeDeferred (bindingId summary : JsString)
  | clearTenantOverride (bindingId : JsString)
  | rollbackBinding (bindingId actorId : JsString)
  | beginMigrate (bindingId : JsString)
  | cutoverMigrate (input : CutoverInput)
  | commitBlob (input : CommitBlobInput)

/-- Whether the command succeeds, and the registry it leaves. -/
def Outcome.done {α : Type} (out : Outcome α) : Outcome Unit := (out.1.map fun _ => (), out.2)

def Registry.perform (r : Registry) (d : Draw) : RegistryCommand → Outcome Unit
  | .createTenant input => (r.createTenant d input).done
  | .updateTenant input => (r.updateTenant d input).done
  | .setTenantStatus input => (r.setTenantStatus d input).done
  | .upsertBinding command actorId => (r.upsertBinding d command actorId).done
  | .revealExternalId profileId => (.ok (), (r.revealExternalId profileId).2)
  | .setAssumeWithoutExternalId bindingId succeeds =>
    (.ok (), { r with
      assumeWithoutExternalId := r.assumeWithoutExternalId.set (bindingId, succeeds) })
  | .runHandshakeHardening bindingId => (.ok (), (r.runHandshakeHardening d bindingId).2)
  | .recordProbe bindingId input => (r.recordProbe d bindingId input).done
  | .refreshPlan bindingId observation => (r.refreshPlan d bindingId observation).done
  | .acceptPlan bindingId declaredCapacityBytes planCode =>
    (r.acceptPlan d bindingId declaredCapacityBytes planCode).done
  | .disableBinding bindingId => (r.disableBinding d bindingId).done
  | .deleteBinding bindingId force => (r.deleteBinding bindingId force).done
  | .markProbeDeferred bindingId summary => (r.markProbeDeferred d bindingId summary).done
  | .clearTenantOverride bindingId => r.clearTenantOverride bindingId
  | .rollbackBinding bindingId actorId => (r.rollbackBinding d bindingId actorId).done
  | .beginMigrate bindingId => (r.beginMigrate d bindingId).done
  | .cutoverMigrate input => (r.cutoverMigrate d input).done
  | .commitBlob input => (.ok (), r.commitBlob input)

def Draw.ids (d : Draw) : List JsString :=
  [d.tenantId, d.profileId, d.externalId, d.bindingId, d.versionId]

/-- `randomUUID` gives no id twice. -/
structure Draw.Fresh (d : Draw) (used : List JsString) : Prop where
  nodup : d.ids.Nodup
  unused : ∀ id ∈ d.ids, id ∉ used
  nonempty : ∀ id ∈ d.ids, id ≠ []

/-- A registry, and the ids that were drawn for it. -/
structure Session where
  registry : Registry
  used : List JsString

def registryMachine : Machine Session (RegistryCommand × Draw) where
  init := fun s => s = ⟨.empty, []⟩
  step := fun s e s' => e.2.Fresh s.used ∧
    s' = ⟨(s.registry.perform e.2 e.1).2, e.2.ids ++ s.used⟩

/-! ## What a command does to bindings and profiles -/

/-- A binding and what a command makes of it; `rolled` are the bindings it rolls back. -/
structure Descends (rolled : JsString → Prop) (b b' : StoredStorageBinding) : Prop where
  id : b'.id = b.id
  workspaceId : b'.workspaceId = b.workspaceId
  applicationId : b'.applicationId = b.applicationId
  applicationTenantId : b'.applicationTenantId = b.applicationTenantId
  profileId : b'.profileId = b.profileId
  generation : b.generation ≤ b'.generation
  disabled : b.disabled = true → ¬ rolled b.id → b'.disabled = true

/-- The registry that a command without new bindings leaves; `removed` are the bindings it
takes away. -/
structure Follows (rolled removed : JsString → Prop) (r r' : Registry) : Prop where
  bindings : ∀ b' ∈ r'.bindings.values, ∃ b ∈ r.bindings.values, Descends rolled b b'
  profiles : ∀ b' ∈ r'.bindings.values, ∀ p, r.profiles.get b'.profileId = some p →
    ∃ p', r'.profiles.get b'.profileId = some p' ∧ p'.workspaceId = p.workspaceId
  known : ∀ p' ∈ r'.profiles.values, ∃ p ∈ r.profiles.values, p'.id = p.id
  kept : ∀ b ∈ r.bindings.values, ¬ removed b.id → ∃ b' ∈ r'.bindings.values, Descends rolled b b'

variable {rolled removed : JsString → Prop} {r r' r'' : Registry} {b b' b'' : StoredStorageBinding}

theorem Descends.refl : Descends rolled b b := ⟨rfl, rfl, rfl, rfl, rfl, le_rfl, fun h _ => h⟩

theorem Descends.trans (h : Descends rolled b b') (h' : Descends rolled b' b'') :
    Descends rolled b b'' where
  id := h'.id.trans h.id
  workspaceId := h'.workspaceId.trans h.workspaceId
  applicationId := h'.applicationId.trans h.applicationId
  applicationTenantId := h'.applicationTenantId.trans h.applicationTenantId
  profileId := h'.profileId.trans h.profileId
  generation := h.generation.trans h'.generation
  disabled hb hrolled := h'.disabled (h.disabled hb hrolled) (h.id ▸ hrolled)

namespace Follows

/-- Bindings and profiles as they were. -/
theorem of_eq (hb : r'.bindings = r.bindings) (hp : r'.profiles = r.profiles) :
    Follows rolled removed r r' where
  bindings c hc := ⟨c, hb ▸ hc, .refl⟩
  profiles _ _ p h := ⟨p, hp ▸ h, rfl⟩
  known p h := ⟨p, hp ▸ h, rfl⟩
  kept c hc _ := ⟨c, hb ▸ hc, .refl⟩

theorem refl : Follows rolled removed r r := of_eq rfl rfl

theorem trans (h : Follows rolled removed r r') (h' : Follows rolled removed r' r'') :
    Follows rolled removed r r'' where
  bindings b'' hb'' := by
    obtain ⟨b', hb', hdescends'⟩ := h'.bindings b'' hb''
    obtain ⟨b, hb, hdescends⟩ := h.bindings b' hb'
    exact ⟨b, hb, hdescends.trans hdescends'⟩
  profiles b'' hb'' p hp := by
    obtain ⟨b', hb', hdescends'⟩ := h'.bindings b'' hb''
    rw [hdescends'.profileId] at hp
    obtain ⟨p', hp', hworkspace⟩ := h.profiles b' hb' p hp
    rw [← hdescends'.profileId] at hp'
    obtain ⟨p'', hp'', hworkspace'⟩ := h'.profiles b'' hb'' p' hp'
    exact ⟨p'', hp'', hworkspace'.trans hworkspace⟩
  known p'' hp'' := by
    obtain ⟨p', hp', hid'⟩ := h'.known p'' hp''
    obtain ⟨p, hp, hid⟩ := h.known p' hp'
    exact ⟨p, hp, hid'.trans hid⟩
  kept b hb hremoved := by
    obtain ⟨b', hb', hdescends⟩ := h.kept b hb hremoved
    obtain ⟨b'', hb'', hdescends'⟩ := h'.kept b' hb' (hdescends.id ▸ hremoved)
    exact ⟨b'', hb'', hdescends.trans hdescends'⟩

theorem setBinding (hb : b ∈ r.bindings.values) (h : Descends rolled b b') :
    Follows rolled removed r (r.setBinding b') where
  bindings c hc := by
    obtain rfl | ⟨hc, -⟩ := KeyedMap.mem_set.mp hc
    · exact ⟨b, hb, h⟩
    · exact ⟨c, hc, .refl⟩
  profiles c _ p hp := ⟨p, hp, rfl⟩
  known p hp := ⟨p, hp, rfl⟩
  kept c hc _ := by
    by_cases hid : c.id = b'.id
    · have hsame : c = b := KeyedMap.eq_of_key hc hb (hid.trans h.id)
      exact ⟨b', KeyedMap.mem_set.mpr (.inl rfl), hsame ▸ h⟩
    · exact ⟨c, KeyedMap.mem_set.mpr (.inr ⟨hc, hid⟩), .refl⟩

theorem setProfile {p p' : StoredStorageProfile} (hp : p ∈ r.profiles.values) (hid : p'.id = p.id)
    (hworkspace : p'.workspaceId = p.workspaceId) : Follows rolled removed r (r.setProfile p') where
  bindings c hc := ⟨c, hc, .refl⟩
  profiles c _ q hq := by
    by_cases hc : p'.id = c.profileId
    · have hsame : q = p := KeyedMap.eq_of_key (KeyedMap.mem_of_get hq) hp
        ((KeyedMap.key_of_get hq).trans (hc.symm.trans hid))
      refine ⟨p', ?_, hsame ▸ hworkspace⟩
      rw [Registry.get_setProfile, if_pos hc]
    · refine ⟨q, ?_, rfl⟩
      rw [Registry.get_setProfile, if_neg hc]
      exact hq
  known q hq := by
    obtain rfl | ⟨hq, -⟩ := KeyedMap.mem_set.mp hq
    · exact ⟨p, hp, hid⟩
    · exact ⟨q, hq, rfl⟩
  kept c hc _ := ⟨c, hc, .refl⟩

/-- A command that changes a binding and its profile. -/
theorem setBoth {p p' : StoredStorageProfile} (hp : p ∈ r.profiles.values)
    (hb : b ∈ r.bindings.values) (hid : p'.id = p.id) (hworkspace : p'.workspaceId = p.workspaceId)
    (h : Descends rolled b b') : Follows rolled removed r ((r.setProfile p').setBinding b') :=
  (setProfile hp hid hworkspace).trans (setBinding hb h)

theorem eraseBinding {id : JsString} (hb : r'.bindings = r.bindings.erase id)
    (hp : r'.profiles = r.profiles) (hremoved : removed id) : Follows rolled removed r r' where
  bindings c hc := by
    rw [hb] at hc
    exact ⟨c, (KeyedMap.mem_erase.mp hc).1, .refl⟩
  profiles c _ p h := ⟨p, hp ▸ h, rfl⟩
  known p h := ⟨p, hp ▸ h, rfl⟩
  kept c hc hnot := by
    have hid : c.id ≠ id := fun h => hnot (h ▸ hremoved)
    exact ⟨c, hb ▸ KeyedMap.mem_erase.mpr ⟨hc, hid⟩, .refl⟩

/-- A profile goes when no binding is left that uses it. -/
theorem eraseProfile {id : JsString} (hb : r'.bindings = r.bindings)
    (hp : r'.profiles = r.profiles.erase id) (hunused : ∀ b ∈ r.bindings.values, b.profileId ≠ id) :
    Follows rolled removed r r' where
  bindings c hc := ⟨c, hb ▸ hc, .refl⟩
  profiles c hc p h := by
    refine ⟨p, ?_, rfl⟩
    rw [hp, KeyedMap.get_erase, if_neg (hunused c (hb ▸ hc))]
    exact h
  known p h := by
    rw [hp] at h
    exact ⟨p, (KeyedMap.mem_erase.mp h).1, rfl⟩
  kept c hc _ := ⟨c, hb ▸ hc, .refl⟩

end Follows

section Commands

variable {d : Draw}

theorem follows_versioned (h : Follows rolled removed r r') (versionId actorId : JsString)
    (b : StoredStorageBinding) : Follows rolled removed r (r'.versioned versionId actorId b).2 := by
  rw [Registry.versioned]
  split
  · exact h
  · exact h.trans (.of_eq rfl rfl)

theorem follows_withBinding {α : Type} {bindingId : JsString} {act : StoredStorageBinding → Outcome α}
    (h : ∀ b, r.bindings.get bindingId = some b → Follows rolled removed r (act b).2) :
    Follows rolled removed r (r.withBinding bindingId act).2 := by
  rw [Registry.withBinding]
  cases hb : r.bindings.get bindingId with
  | none => exact .refl
  | some b => exact h b hb

theorem follows_changeTenant {workspaceId applicationId tenantId expectedUpdatedAt : JsString}
    {change : ApplicationTenant → ApplicationTenant} :
    Follows rolled removed r
      (r.changeTenant d workspaceId applicationId tenantId expectedUpdatedAt change).2 := by
  rw [Registry.changeTenant]
  split
  · exact .refl
  · split
    · exact .refl
    · exact .of_eq rfl rfl

theorem follows_createTenant {input : CreateTenantInput} :
    Follows rolled removed r (r.createTenant d input).2 := by
  rw [Registry.createTenant]
  split
  · exact .refl
  · exact .of_eq rfl rfl

theorem follows_updateBinding {command : UpsertStorageBindingCommand} {actorId : JsString}
    (hb : b ∈ r.bindings.values) : Follows rolled removed r (r.updateBinding d command actorId b).2 := by
  rw [Registry.updateBinding]
  split
  · exact .refl
  · cases hp : r.profiles.get b.profileId with
    | none => exact .refl
    | some p =>
      apply follows_versioned
      refine .setBoth (KeyedMap.mem_of_get hp) hb rfl rfl ?_
      exact ⟨rfl, rfl, rfl, rfl, rfl, Nat.le_succ _, fun h _ => h⟩

theorem follows_revealExternalId {profileId : JsString} :
    Follows rolled removed r (r.revealExternalId profileId).2 := by
  rw [Registry.revealExternalId]
  cases hp : r.profiles.get profileId with
  | none => exact .refl
  | some p =>
    dsimp only
    split
    · exact .refl
    · split
      · exact .of_eq rfl rfl
      · exact .setProfile (KeyedMap.mem_of_get hp) rfl rfl

theorem follows_runHandshakeHardening {bindingId : JsString} :
    Follows rolled removed r (r.runHandshakeHardening d bindingId).2 := by
  rw [Registry.runHandshakeHardening]
  split
  · exact .refl
  · cases hb : r.bindings.get bindingId with
    | none => exact .refl
    | some b =>
      exact .setBinding (KeyedMap.mem_of_get hb) ⟨rfl, rfl, rfl, rfl, rfl, le_rfl, fun h _ => h⟩

theorem follows_recordProbe {bindingId : JsString} {input : ProbeInput} :
    Follows rolled removed r (r.recordProbe d bindingId input).2 := by
  apply follows_withBinding
  intro b hb
  refine .setBinding (KeyedMap.mem_of_get hb) ?_
  rw [StoredStorageBinding.probed]
  split
  · exact ⟨rfl, rfl, rfl, rfl, rfl, le_rfl, fun h _ => h⟩
  · exact ⟨rfl, rfl, rfl, rfl, rfl, le_rfl, fun h _ => h⟩

theorem follows_refreshPlan {bindingId : JsString} {observation : PlanObservation} :
    Follows rolled removed r (r.refreshPlan d bindingId observation).2 := by
  apply follows_withBinding
  intro b hb
  dsimp only
  split
  · exact .setBinding (KeyedMap.mem_of_get hb) ⟨rfl, rfl, rfl, rfl, rfl, le_rfl, fun h _ => h⟩
  · exact .setBinding (KeyedMap.mem_of_get hb) ⟨rfl, rfl, rfl, rfl, rfl, le_rfl, fun h _ => h⟩

theorem follows_acceptPlan {bindingId : JsString} {capacity : Int} {planCode : Option JsString} :
    Follows rolled removed r (r.acceptPlan d bindingId capacity planCode).2 := by
  apply follows_withBinding
  intro b hb
  cases hp : r.profiles.get b.profileId with
  | none => exact .refl
  | some p =>
    refine .setBoth (KeyedMap.mem_of_get hp) (KeyedMap.mem_of_get hb) rfl rfl ?_
    exact ⟨rfl, rfl, rfl, rfl, rfl, le_rfl, fun h _ => h⟩

theorem follows_disableBinding {bindingId : JsString} :
    Follows rolled removed r (r.disableBinding d bindingId).2 := by
  apply follows_withBinding
  intro b hb
  refine .trans (.setBinding (KeyedMap.mem_of_get hb) ?_) (.of_eq rfl rfl)
  exact ⟨rfl, rfl, rfl, rfl, rfl, Nat.le_succ _, fun _ _ => rfl⟩

theorem follows_deleteBinding {bindingId : JsString} {force : Bool}
    (hremoved : (r.deleteBinding bindingId force).done.1 = .ok () → removed bindingId) :
    Follows rolled removed r (r.deleteBinding bindingId force).2 := by
  rw [Registry.deleteBinding] at hremoved ⊢
  apply follows_withBinding
  intro b hb
  rw [Registry.withBinding, hb] at hremoved
  dsimp only at hremoved ⊢
  split at hremoved
  · rw [if_pos ‹_›]
    exact .refl
  · rw [if_neg ‹_›]
    split at hremoved
    · rw [if_pos ‹_›]
      exact .refl
    · rw [if_neg ‹_›]
      cases hsummary : r.toSummary b with
      | error e => exact .refl
      | ok summary =>
        rw [hsummary] at hremoved
        have herase : Follows rolled removed r { r with bindings := r.bindings.erase bindingId } :=
          .eraseBinding rfl rfl (hremoved rfl)
        by_cases hused : (r.bindings.erase bindingId).values.any (·.profileId == b.profileId) = true
        · simp only [hused, if_true]
          exact herase.trans (.of_eq rfl rfl)
        · simp only [hused]
          refine herase.trans (.eraseProfile rfl rfl ?_)
          intro c hc hprofile
          exact hused (List.any_eq_true.mpr ⟨c, hc, beq_iff_eq.mpr hprofile⟩)

theorem follows_markProbeDeferred {bindingId summary : JsString} :
    Follows rolled removed r (r.markProbeDeferred d bindingId summary).2 := by
  apply follows_withBinding
  intro b hb
  exact .setBinding (KeyedMap.mem_of_get hb) ⟨rfl, rfl, rfl, rfl, rfl, le_rfl, fun h _ => h⟩

theorem follows_clearTenantOverride {bindingId : JsString}
    (hremoved : (r.clearTenantOverride bindingId).1 = .ok () → removed bindingId) :
    Follows rolled removed r (r.clearTenantOverride bindingId).2 := by
  rw [Registry.clearTenantOverride] at hremoved ⊢
  cases htenant : (r.bindings.get bindingId).bind fun b => truthy b.applicationTenantId with
  | none => exact .refl
  | some applicationTenantId =>
    rw [htenant] at hremoved
    exact .eraseBinding rfl rfl (hremoved rfl)

theorem follows_rollbackBinding {bindingId actorId : JsString}
    (hrolled : (r.rollbackBinding d bindingId actorId).done.1 = .ok () → rolled bindingId) :
    Follows rolled removed r (r.rollbackBinding d bindingId actorId).2 := by
  rw [Registry.rollbackBinding, Registry.withBinding] at hrolled ⊢
  cases hb : r.bindings.get bindingId with
  | none => exact .refl
  | some b =>
    dsimp only
    cases hprevious : (r.listBindingHistory bindingId 2).find? fun v =>
        decide (v.generation < b.generation) with
    | none => exact .refl
    | some previous =>
      dsimp only
      cases hp : r.profiles.get b.profileId with
      | none => exact .refl
      | some p =>
        apply follows_versioned
        refine .setBoth (KeyedMap.mem_of_get hp) (KeyedMap.mem_of_get hb) rfl rfl ?_
        refine ⟨rfl, rfl, rfl, rfl, rfl, Nat.le_succ _, ?_⟩
        intro _ hnot
        refine absurd (hrolled ?_) ((KeyedMap.key_of_get hb) ▸ hnot)
        have hkey : p.id = b.profileId := by
          rw [← KeyedMap.key_of_get hp]
        have hid : (p.rolledBack d previous.snapshot.profile).id = (b.rolledBack d).profileId :=
          hkey
        simp only [hb, hprevious, hp, Outcome.done, Registry.versioned, Registry.toSummary,
          Registry.setBinding_profiles, Registry.get_setProfile, if_pos hid]
        rfl

theorem follows_beginMigrate {bindingId : JsString} :
    Follows rolled removed r (r.beginMigrate d bindingId).2 := by
  apply follows_withBinding
  intro b hb
  split
  · exact .refl
  · exact .setBinding (KeyedMap.mem_of_get hb)
      ⟨rfl, rfl, rfl, rfl, rfl, Nat.le_succ _, fun h _ => h⟩

/-- Moving routes touches nothing but the routes. -/
theorem moveRoutes_keeps (r : Registry) (target : StoredStorageBinding)
    (items : List ObjectDigest) :
    (r.moveRoutes target items).2 = { r with blobs := (r.moveRoutes target items).2.blobs } := by
  induction items generalizing r with
  | nil => rfl
  | cons item items ih =>
    rw [Registry.moveRoutes]
    split
    · rfl
    · split
      · rfl
      · rw [ih]

theorem follows_cutoverMigrate {input : CutoverInput} :
    Follows rolled removed r (r.cutoverMigrate d input).2 := by
  rw [Registry.cutoverMigrate]
  cases hs : r.bindings.get input.sourceBindingId with
  | none => exact .refl
  | some source =>
    cases ht : r.bindings.get input.targetBindingId with
    | none => exact .refl
    | some target =>
      dsimp only
      split
      · exact .refl
      · split
        · exact .refl
        · rename_i hmigrating hconnected
          have hmoved := moveRoutes_keeps r target input.objectDigests
          have hfollows : Follows rolled removed r (r.moveRoutes target input.objectDigests).2 := by
            rw [hmoved]
            exact .of_eq rfl rfl
          have hbindings : (r.moveRoutes target input.objectDigests).2.bindings = r.bindings := by
            rw [hmoved]
          split
          · rename_i heq
            rw [heq] at hfollows
            exact hfollows
          · rename_i r₁ heq
            rw [heq] at hfollows hbindings
            apply follows_versioned
            have hsource : source ∈ r₁.bindings.values := hbindings ▸ KeyedMap.mem_of_get hs
            have htarget : target ∈ r₁.bindings.values := hbindings ▸ KeyedMap.mem_of_get ht
            -- the statuses tell the two bindings apart
            have hne : target.id ≠ source.id := by
              intro hid
              rw [KeyedMap.eq_of_key htarget hsource hid] at hconnected
              exact hconnected (by rw [not_not.mp hmigrating]; decide)
            refine hfollows.trans (.trans (.setBinding hsource ?_) (.setBinding (b := target) ?_ ?_))
            · exact ⟨rfl, rfl, rfl, rfl, rfl, le_rfl, fun h _ => h⟩
            · exact KeyedMap.mem_set.mpr (.inr ⟨htarget, hne⟩)
            · exact ⟨rfl, rfl, rfl, rfl, rfl, Nat.le_succ _, fun h _ => h⟩

/-- The binding that a command takes away, if it succeeds. -/
def RegistryCommand.removes : RegistryCommand → Option JsString
  | .deleteBinding bindingId _ => some bindingId
  | .clearTenantOverride bindingId => some bindingId
  | _ => none

/-- The binding whose upsert the command is, if it makes one. -/
def RegistryCommand.creates (r : Registry) : RegistryCommand → Option UpsertStorageBindingCommand
  | .upsertBinding command _ =>
    if (r.findBinding command.workspaceId command.applicationId
      command.applicationTenantId).isNone then some command else none
  | _ => none

theorem follows_perform {c : RegistryCommand} (hcreates : c.creates r = none)
    (hrolled : ∀ bindingId actorId, c = .rollbackBinding bindingId actorId →
      (r.perform d c).1 = .ok () → rolled bindingId)
    (hremoved : ∀ bindingId, c.removes = some bindingId → (r.perform d c).1 = .ok () →
      removed bindingId) : Follows rolled removed r (r.perform d c).2 := by
  cases c with
  | createTenant input => exact follows_createTenant
  | updateTenant input => exact follows_changeTenant
  | setTenantStatus input => exact follows_changeTenant
  | upsertBinding command actorId =>
    cases hfound : r.findBinding command.workspaceId command.applicationId
        command.applicationTenantId with
    | none => simp [RegistryCommand.creates, hfound] at hcreates
    | some b =>
      have hb := List.mem_of_find?_eq_some hfound
      simp only [Registry.perform, Registry.upsertBinding, hfound]
      exact follows_updateBinding hb
  | revealExternalId profileId => exact follows_revealExternalId
  | setAssumeWithoutExternalId bindingId succeeds => exact .of_eq rfl rfl
  | runHandshakeHardening bindingId => exact follows_runHandshakeHardening
  | recordProbe bindingId input => exact follows_recordProbe
  | refreshPlan bindingId observation => exact follows_refreshPlan
  | acceptPlan bindingId capacity planCode => exact follows_acceptPlan
  | disableBinding bindingId => exact follows_disableBinding
  | deleteBinding bindingId force => exact follows_deleteBinding (hremoved bindingId rfl)
  | markProbeDeferred bindingId summary => exact follows_markProbeDeferred
  | clearTenantOverride bindingId =>
    exact follows_clearTenantOverride (hremoved bindingId rfl)
  | rollbackBinding bindingId actorId =>
    exact follows_rollbackBinding (hrolled bindingId actorId rfl)
  | beginMigrate bindingId => exact follows_beginMigrate
  | cutoverMigrate input => exact follows_cutoverMigrate
  | commitBlob input => exact .of_eq rfl rfl

/-- What the making of a binding adds. -/
theorem perform_creates {c : RegistryCommand} {command : UpsertStorageBindingCommand}
    (hcreates : c.creates r = some command) :
    r.findBinding command.workspaceId command.applicationId command.applicationTenantId = none ∧
      (r.perform d c).2.bindings = r.bindings.set (command.newBinding d) ∧
      (r.perform d c).2.profiles = r.profiles.set (command.newProfile d) := by
  cases c with
  | upsertBinding command' actorId =>
    cases hfound : r.findBinding command'.workspaceId command'.applicationId
        command'.applicationTenantId with
    | some b => simp [RegistryCommand.creates, hfound] at hcreates
    | none =>
      obtain rfl : command' = command := by simpa [RegistryCommand.creates, hfound] using hcreates
      refine ⟨hfound, ?_, ?_⟩
      · simp only [Registry.perform, Registry.upsertBinding, hfound, Outcome.done,
          Registry.createBinding, Registry.versioned]
        split <;> rfl
      · simp only [Registry.perform, Registry.upsertBinding, hfound, Outcome.done,
          Registry.createBinding, Registry.versioned]
        split <;> rfl
  | _ => cases hcreates

end Commands

/-! ## What every reachable registry satisfies -/

/-- Two bindings of one tenant, or two default bindings of one application. -/
def SameScope (b b' : StoredStorageBinding) : Prop :=
  b.workspaceId = b'.workspaceId ∧ b.applicationId = b'.applicationId ∧
    b.applicationTenantId = b'.applicationTenantId

structure Registry.Sound (r : Registry) (used : List JsString) : Prop where
  scopes : ∀ b ∈ r.bindings.values, ∀ b' ∈ r.bindings.values, SameScope b b' → b = b'
  profiled : ∀ b ∈ r.bindings.values, ∃ p, r.profiles.get b.profileId = some p ∧
    p.workspaceId = b.workspaceId
  owned : ∀ b ∈ r.bindings.values, ∀ b' ∈ r.bindings.values, b.profileId = b'.profileId → b = b'
  knownBindings : ∀ b ∈ r.bindings.values, b.id ∈ used ∧ b.profileId ∈ used
  knownProfiles : ∀ p ∈ r.profiles.values, p.id ∈ used
  nonempty : ∀ id ∈ used, id ≠ []

section Sound

variable {d : Draw} {used : List JsString} {c : RegistryCommand}

theorem Registry.sound_empty : Registry.empty.Sound [] where
  scopes _ hb := absurd hb List.not_mem_nil
  profiled _ hb := absurd hb List.not_mem_nil
  owned _ hb := absurd hb List.not_mem_nil
  knownBindings _ hb := absurd hb List.not_mem_nil
  knownProfiles _ hp := absurd hp List.not_mem_nil
  nonempty _ hid := absurd hid List.not_mem_nil

theorem Draw.Fresh.nonempty_append (hfresh : d.Fresh used) (h : ∀ id ∈ used, id ≠ []) :
    ∀ id ∈ d.ids ++ used, id ≠ [] := by
  intro id hid
  obtain hid | hid := List.mem_append.mp hid
  · exact hfresh.nonempty id hid
  · exact h id hid

theorem Registry.Sound.keeps (h : r.Sound used) (hfollows : Follows rolled removed r r') :
    r'.Sound used where
  scopes b hb b' hb' hscope := by
    obtain ⟨a, ha, hdescends⟩ := hfollows.bindings b hb
    obtain ⟨a', ha', hdescends'⟩ := hfollows.bindings b' hb'
    have hsame : a = a' := by
      apply h.scopes a ha a' ha'
      rw [SameScope, ← hdescends.workspaceId, ← hdescends.applicationId,
        ← hdescends.applicationTenantId, ← hdescends'.workspaceId, ← hdescends'.applicationId,
        ← hdescends'.applicationTenantId]
      exact hscope
    apply KeyedMap.eq_of_key hb hb'
    rw [hdescends.id, hdescends'.id, hsame]
  profiled b hb := by
    obtain ⟨a, ha, hdescends⟩ := hfollows.bindings b hb
    obtain ⟨p, hp, hworkspace⟩ := h.profiled a ha
    rw [← hdescends.profileId] at hp
    obtain ⟨p', hp', hworkspace'⟩ := hfollows.profiles b hb p hp
    exact ⟨p', hp', hworkspace'.trans (hworkspace.trans hdescends.workspaceId.symm)⟩
  owned b hb b' hb' hprofile := by
    obtain ⟨a, ha, hdescends⟩ := hfollows.bindings b hb
    obtain ⟨a', ha', hdescends'⟩ := hfollows.bindings b' hb'
    rw [hdescends.profileId, hdescends'.profileId] at hprofile
    apply KeyedMap.eq_of_key hb hb'
    rw [hdescends.id, hdescends'.id, h.owned a ha a' ha' hprofile]
  knownBindings b hb := by
    obtain ⟨a, ha, hdescends⟩ := hfollows.bindings b hb
    rw [hdescends.id, hdescends.profileId]
    exact h.knownBindings a ha
  knownProfiles p hp := by
    obtain ⟨p₀, hp₀, hid⟩ := hfollows.known p hp
    rw [hid]
    exact h.knownProfiles p₀ hp₀
  nonempty := h.nonempty

/-- The ids of another draw. -/
theorem Registry.Sound.grow (h : r.Sound used) (hfresh : d.Fresh used) : r.Sound (d.ids ++ used) where
  scopes := h.scopes
  profiled := h.profiled
  owned := h.owned
  knownBindings b hb := (h.knownBindings b hb).imp (List.mem_append_right _) (List.mem_append_right _)
  knownProfiles p hp := List.mem_append_right _ (h.knownProfiles p hp)
  nonempty := hfresh.nonempty_append h.nonempty

theorem Registry.Sound.follows (h : r.Sound used) (hfresh : d.Fresh used)
    (hfollows : Follows rolled removed r r') : r'.Sound (d.ids ++ used) :=
  (h.keeps hfollows).grow hfresh

theorem bindingId_mem : d.bindingId ∈ d.ids := by simp [Draw.ids]

theorem profileId_mem : d.profileId ∈ d.ids := by simp [Draw.ids]

/-- A binding is never made for a scope that has one, nor with a profile of another one. -/
theorem Registry.Sound.create (h : r.Sound used) (hfresh : d.Fresh used)
    {command : UpsertStorageBindingCommand}
    (hfound : r.findBinding command.workspaceId command.applicationId
      command.applicationTenantId = none)
    (hb : r'.bindings = r.bindings.set (command.newBinding d))
    (hp : r'.profiles = r.profiles.set (command.newProfile d)) : r'.Sound (d.ids ++ used) := by
  have hcases : ∀ {b}, b ∈ r'.bindings.values → b = command.newBinding d ∨ b ∈ r.bindings.values := by
    intro b hmem
    rw [hb] at hmem
    exact (KeyedMap.mem_set.mp hmem).imp id And.left
  have hscope : ∀ b ∈ r.bindings.values, ¬ SameScope b (command.newBinding d) := by
    rintro b hmem ⟨hworkspace, happlication, htenant⟩
    have hnone := List.find?_eq_none.mp hfound b hmem
    simp only [hworkspace, happlication, htenant] at hnone
    simp [UpsertStorageBindingCommand.newBinding] at hnone
  have hprofile : ∀ b ∈ r.bindings.values, b.profileId ≠ d.profileId := by
    intro b hmem heq
    exact hfresh.unused _ profileId_mem (heq ▸ (h.knownBindings b hmem).2)
  refine ⟨?_, ?_, ?_, ?_, ?_, hfresh.nonempty_append h.nonempty⟩
  · intro b hmem b' hmem' hsame
    obtain rfl | hold := hcases hmem
    · obtain rfl | hold' := hcases hmem'
      · rfl
      · exact absurd ⟨hsame.1.symm, hsame.2.1.symm, hsame.2.2.symm⟩ (hscope b' hold')
    · obtain rfl | hold' := hcases hmem'
      · exact absurd hsame (hscope b hold)
      · exact h.scopes b hold b' hold' hsame
  · intro b hmem
    rw [hp]
    obtain rfl | hold := hcases hmem
    · exact ⟨command.newProfile d, KeyedMap.get_set_self _ (command.newProfile d), rfl⟩
    · obtain ⟨p, hget, hworkspace⟩ := h.profiled b hold
      refine ⟨p, ?_, hworkspace⟩
      have hne : (command.newProfile d).id ≠ b.profileId := fun heq => hprofile b hold heq.symm
      exact (KeyedMap.get_set_of_ne r.profiles hne).trans hget
  · intro b hmem b' hmem' hsame
    obtain rfl | hold := hcases hmem
    · obtain rfl | hold' := hcases hmem'
      · rfl
      · exact absurd hsame.symm (hprofile b' hold')
    · obtain rfl | hold' := hcases hmem'
      · exact absurd hsame (hprofile b hold)
      · exact h.owned b hold b' hold' hsame
  · intro b hmem
    obtain rfl | hold := hcases hmem
    · exact ⟨List.mem_append_left _ bindingId_mem, List.mem_append_left _ profileId_mem⟩
    · obtain ⟨hid, hknown⟩ := h.knownBindings b hold
      exact ⟨List.mem_append_right _ hid, List.mem_append_right _ hknown⟩
  · intro p hmem
    rw [hp] at hmem
    obtain rfl | ⟨hold, -⟩ := KeyedMap.mem_set.mp hmem
    · exact List.mem_append_left _ profileId_mem
    · exact List.mem_append_right _ (h.knownProfiles p hold)

theorem Registry.Sound.perform (h : r.Sound used) (hfresh : d.Fresh used) :
    (r.perform d c).2.Sound (d.ids ++ used) := by
  cases hcreates : c.creates r with
  | none =>
    have hfollows : Follows (fun _ => True) (fun _ => True) r (r.perform d c).2 :=
      follows_perform hcreates (fun _ _ _ _ => trivial) fun _ _ _ => trivial
    exact h.follows hfresh hfollows
  | some command =>
    obtain ⟨hfound, hb, hp⟩ := perform_creates (d := d) hcreates
    exact h.create hfresh hfound hb hp

theorem sound_of_reachable {s : Session} (hs : registryMachine.Reachable s) :
    s.registry.Sound s.used := by
  have hinit : ∀ s : Session, s = ⟨.empty, []⟩ → s.registry.Sound s.used := by
    rintro s rfl
    exact Registry.sound_empty
  have hstep : ∀ (s : Session) (e : RegistryCommand × Draw) (s' : Session),
      s.registry.Sound s.used → registryMachine.step s e s' → s'.registry.Sound s'.used := by
    rintro s e s' hsound ⟨hfresh, rfl⟩
    exact hsound.perform hfresh
  exact hs.invariant hinit hstep

end Sound

/-! ## Generations and disabled bindings -/

/-- The bindings that a command rolls back, if it succeeds. -/
def RegistryCommand.rolls (r : Registry) (d : Draw) (c : RegistryCommand) (id : JsString) : Prop :=
  (r.perform d c).1 = .ok () ∧ ∃ actorId, c = .rollbackBinding id actorId

/-- The binding whose generation a command raises. -/
def RegistryCommand.raises (r : Registry) : RegistryCommand → Option JsString
  | .upsertBinding command _ =>
    (r.findBinding command.workspaceId command.applicationId command.applicationTenantId).map (·.id)
  | .disableBinding bindingId => some bindingId
  | .rollbackBinding bindingId _ => some bindingId
  | .beginMigrate bindingId => some bindingId
  | .cutoverMigrate input => some input.targetBindingId
  | _ => none

section Generations

variable {d : Draw} {c : RegistryCommand} {id : JsString} {s s' : Session}

/-- A binding under an id of old was there before the step. -/
theorem step_descends (hstep : registryMachine.step s (c, d) s') (hid : id ∈ s.used)
    (hb' : s'.registry.bindings.get id = some b') :
    ∃ b, s.registry.bindings.get id = some b ∧ Descends (c.rolls s.registry d) b b' := by
  obtain ⟨hfresh, rfl⟩ := hstep
  have hmem' := KeyedMap.mem_of_get hb'
  cases hcreates : c.creates s.registry with
  | none =>
    have hfollows : Follows (c.rolls s.registry d) (fun _ => True) s.registry (s.registry.perform d c).2 :=
      follows_perform hcreates (fun _ actorId hc hok => ⟨hok, actorId, hc⟩) fun _ _ _ => trivial
    obtain ⟨b, hb, hdescends⟩ := hfollows.bindings b' hmem'
    refine ⟨b, ?_, hdescends⟩
    rw [← KeyedMap.key_of_get hb', hdescends.id]
    exact KeyedMap.get_of_mem hb
  | some command =>
    obtain ⟨-, hbindings, -⟩ := perform_creates (d := d) hcreates
    rw [hbindings] at hmem'
    obtain rfl | ⟨hb, -⟩ := KeyedMap.mem_set.mp hmem'
    · exact absurd hid (hfresh.unused id (KeyedMap.key_of_get hb' ▸ bindingId_mem))
    · rw [← KeyedMap.key_of_get hb']
      exact ⟨b', KeyedMap.get_of_mem hb, .refl⟩

theorem used_grows (hstep : registryMachine.step s (c, d) s') (hid : id ∈ s.used) :
    id ∈ s'.used := by
  obtain ⟨-, rfl⟩ := hstep
  exact List.mem_append_right _ hid

theorem Registry.Sound.used_of_get {used : List JsString} (hsound : r.Sound used)
    (hb : r.bindings.get id = some b) : id ∈ used := by
  rw [← KeyedMap.key_of_get hb]
  exact (hsound.knownBindings b (KeyedMap.mem_of_get hb)).1

/-- Along a run the generation of a binding never goes down. -/
theorem generation_le_of_leads (hs : registryMachine.Reachable s)
    (h : registryMachine.Leads (fun _ _ => True) s s') (hb : s.registry.bindings.get id = some b)
    (hb' : s'.registry.bindings.get id = some b') : b.generation ≤ b'.generation := by
  have hrun : id ∈ s'.used ∧
      ∀ b', s'.registry.bindings.get id = some b' → b.generation ≤ b'.generation := by
    clear hb'
    induction h with
    | refl =>
      refine ⟨(sound_of_reachable hs).used_of_get hb, ?_⟩
      intro b' hb'
      rw [hb, Option.some_inj] at hb'
      rw [hb']
    | @tail s₁ s₂ hlead hstep ih =>
      obtain ⟨⟨c, d⟩, -, hstep⟩ := hstep
      refine ⟨used_grows hstep ih.1, ?_⟩
      intro b₂ hb₂
      obtain ⟨b₁, hb₁, hdescends⟩ := step_descends hstep ih.1 hb₂
      exact (ih.2 b₁ hb₁).trans hdescends.generation
  exact hrun.2 b' hb'

/-- A disabled binding stays disabled in the runs that do not roll it back. -/
theorem disabled_of_leads (hs : registryMachine.Reachable s)
    (h : registryMachine.Leads (fun s e => ¬ e.1.rolls s.registry e.2 id) s s')
    (hid : id ∈ s.used)
    (hdisabled : ∀ b, s.registry.bindings.get id = some b → b.disabled = true) :
    ∀ b', s'.registry.bindings.get id = some b' → b'.disabled = true := by
  have hrun : registryMachine.Reachable s' ∧ id ∈ s'.used ∧
      ∀ b', s'.registry.bindings.get id = some b' → b'.disabled = true := by
    induction h with
    | refl => exact ⟨hs, hid, hdisabled⟩
    | @tail s₁ s₂ hlead hstep ih =>
      obtain ⟨hs₁, hid₁, hdisabled₁⟩ := ih
      obtain ⟨⟨c, d⟩, hguard, hstep⟩ := hstep
      refine ⟨hs₁.step hstep, used_grows hstep hid₁, ?_⟩
      intro b₂ hb₂
      obtain ⟨b₁, hb₁, hdescends⟩ := step_descends hstep hid₁ hb₂
      exact hdescends.disabled (hdisabled₁ b₁ hb₁) ((KeyedMap.key_of_get hb₁).symm ▸ hguard)
  exact hrun.2.2

theorem versioned_bindings (r : Registry) (versionId actorId : JsString)
    (b : StoredStorageBinding) : (r.versioned versionId actorId b).2.bindings = r.bindings := by
  rw [Registry.versioned]
  split <;> rfl

/-- A command on a binding that succeeds has found it. -/
theorem withBinding_ok {α : Type} {act : StoredStorageBinding → Outcome α}
    (h : (r.withBinding id act).done.1 = .ok ()) :
    ∃ b, r.bindings.get id = some b ∧ (act b).done.1 = .ok () ∧ r.withBinding id act = act b := by
  rw [Registry.withBinding] at h ⊢
  cases hb : r.bindings.get id with
  | none =>
    rw [hb] at h
    cases h
  | some b =>
    rw [hb] at h
    exact ⟨b, rfl, h, rfl⟩

theorem get_changed {r₁ : Registry} (hb : r.bindings.get id = some b) (hid : b'.id = b.id)
    (hset : r₁.bindings = r.bindings.set b') : r₁.bindings.get id = some b' := by
  rw [hset, ← KeyedMap.key_of_get hb, ← hid]
  exact KeyedMap.get_set_self _ _

/-- A command that raises a generation raises it. -/
theorem generation_raised (hok : (r.perform d c).1 = .ok ()) (hraises : c.raises r = some id) :
    ∃ b b', r.bindings.get id = some b ∧ (r.perform d c).2.bindings.get id = some b' ∧
      b.generation < b'.generation := by
  cases c with
  | upsertBinding command actorId =>
    obtain ⟨b, hfound, rfl⟩ := Option.map_eq_some_iff.mp hraises
    have hb := KeyedMap.get_of_mem (List.mem_of_find?_eq_some hfound)
    simp only [Registry.perform, Registry.upsertBinding, hfound, Registry.updateBinding] at hok ⊢
    by_cases hconflict : (command.expectedGeneration.any fun g : Int =>
        decide (g ≠ b.generation)) = true
    · rw [if_pos hconflict] at hok
      cases hok
    · rw [if_neg hconflict] at hok ⊢
      cases hp : r.profiles.get b.profileId with
      | none =>
        rw [hp] at hok
        cases hok
      | some p =>
        refine ⟨b, _, hb, get_changed hb ?_ (versioned_bindings _ _ _ _), Nat.lt_succ_self _⟩
        rfl
  | disableBinding bindingId =>
    obtain rfl : bindingId = id := Option.some_inj.mp hraises
    obtain ⟨b, hb, -, hact⟩ := withBinding_ok hok
    refine ⟨b, b.disable d, hb, ?_, Nat.lt_succ_self _⟩
    simp only [Registry.perform, Registry.disableBinding, hact]
    exact get_changed hb rfl rfl
  | rollbackBinding bindingId actorId =>
    obtain rfl : bindingId = id := Option.some_inj.mp hraises
    obtain ⟨b, hb, hact, heq⟩ := withBinding_ok hok
    simp only [Registry.perform, Registry.rollbackBinding, heq]
    cases hprevious : (r.listBindingHistory bindingId 2).find? fun v =>
        decide (v.generation < b.generation) with
    | none =>
      rw [hprevious] at hact
      cases hact
    | some previous =>
      cases hp : r.profiles.get b.profileId with
      | none =>
        rw [hprevious, hp] at hact
        cases hact
      | some p =>
        refine ⟨b, _, hb, get_changed hb ?_ (versioned_bindings _ _ _ _), Nat.lt_succ_self _⟩
        rfl
  | beginMigrate bindingId =>
    obtain rfl : bindingId = id := Option.some_inj.mp hraises
    obtain ⟨b, hb, hact, heq⟩ := withBinding_ok hok
    simp only [Registry.perform, Registry.beginMigrate, heq]
    by_cases hstatus : b.status = .connected
    · rw [if_neg (not_not.mpr hstatus)]
      exact ⟨b, b.migrates d, hb, get_changed hb rfl rfl, Nat.lt_succ_self _⟩
    · rw [if_pos hstatus] at hact
      cases hact
  | cutoverMigrate input =>
    obtain rfl : input.targetBindingId = id := Option.some_inj.mp hraises
    simp only [Registry.perform, Registry.cutoverMigrate] at hok ⊢
    cases hs : r.bindings.get input.sourceBindingId with
    | none =>
      rw [hs] at hok
      cases hok
    | some source =>
      cases ht : r.bindings.get input.targetBindingId with
      | none =>
        rw [hs, ht] at hok
        cases hok
      | some target =>
        rw [hs, ht] at hok
        dsimp only at hok ⊢
        split_ifs at hok ⊢ with hmigrating hconnected
        · cases hok
        · cases hok
        · cases hmoved : r.moveRoutes target input.objectDigests with
          | mk result r₁ =>
            rw [hmoved] at hok
            cases result with
            | error e => cases hok
            | ok _ =>
              refine ⟨target, { target with generation := target.generation + 1, updatedAt := d.later },
                rfl, ?_, Nat.lt_succ_self _⟩
              simp only [Outcome.done, Registry.finishCutover, versioned_bindings]
              rw [Registry.get_setBinding, if_pos (KeyedMap.key_of_get ht)]
  | _ => cases hraises

end Generations

/-- In every reachable registry a tenant has at most one binding and an application at most
one default binding; along every run a binding keeps or raises its generation, and the
commands that raise it do; and no context is resolved to a binding with permission to
write from its disabling until it is rolled back. -/
theorem bindings_guarded {s : Session} (hs : registryMachine.Reachable s) :
    (∀ b ∈ s.registry.bindings.values, ∀ b' ∈ s.registry.bindings.values, SameScope b b' → b = b') ∧
    (∀ s', registryMachine.Leads (fun _ _ => True) s s' → ∀ id b b',
      s.registry.bindings.get id = some b → s'.registry.bindings.get id = some b' →
        b.generation ≤ b'.generation) ∧
    (∀ c d s', registryMachine.step s (c, d) s' → (s.registry.perform d c).1 = .ok () →
      ∀ id, c.raises s.registry = some id → ∃ b b', s.registry.bindings.get id = some b ∧
        s'.registry.bindings.get id = some b' ∧ b.generation < b'.generation) ∧
    (∀ id d s₁, registryMachine.step s (.disableBinding id, d) s₁ →
      (s.registry.perform d (.disableBinding id)).1 = .ok () →
      ∀ s₂, registryMachine.Leads (fun s e => ¬ e.1.rolls s.registry e.2 id) s₁ s₂ →
        ∀ context, (s₂.registry.resolve context).bindingId = some id →
          (s₂.registry.resolve context).allowWrite = false) := by
  refine ⟨(sound_of_reachable hs).scopes, ?_, ?_, ?_⟩
  · intro s' hlead id b b' hb hb'
    exact generation_le_of_leads hs hlead hb hb'
  · rintro c d s' ⟨-, rfl⟩ hok id hraises
    exact generation_raised hok hraises
  · intro id d s₁ hstep hok s₂ hlead context hbound
    have hs₁ := hs.step hstep
    obtain ⟨b, hb, -, heq⟩ := withBinding_ok hok
    have hb₁ : s₁.registry.bindings.get id = some (b.disable d) := by
      rw [hstep.2]
      simp only [Registry.perform, Registry.disableBinding, heq]
      exact get_changed hb rfl rfl
    have hdisabled := disabled_of_leads hs₁ hlead ((sound_of_reachable hs₁).used_of_get hb₁)
    by_contra hallow
    rw [Bool.not_eq_false] at hallow
    obtain ⟨b₂, hb₂, henabled⟩ := Registry.enabled_of_allowWrite hbound hallow
    rw [hdisabled ?_ b₂ hb₂] at henabled
    · cases henabled
    · intro c hc
      rw [hb₁, Option.some_inj] at hc
      rw [← hc]
      rfl

section Samples

instance (d : Draw) (used : List JsString) : Decidable (d.Fresh used) :=
  decidable_of_iff (d.ids.Nodup ∧ (∀ id ∈ d.ids, id ∉ used) ∧ ∀ id ∈ d.ids, id ≠ [])
    ⟨fun h => ⟨h.1, h.2.1, h.2.2⟩, fun h => ⟨h.nodup, h.unused, h.nonempty⟩⟩

/-- The `n`th draw of a sample run. -/
def sampleDraw (n : Nat) : Draw where
  now := js "now"
  later := js "later"
  tenantId := [1, .ofNat n]
  profileId := [2, .ofNat n]
  externalId := [3, .ofNat n]
  bindingId := [4, .ofNat n]
  versionId := [5, .ofNat n]

def sampleWorkspace : JsString := js "00000000-0000-4000-8000-0000000000aa"

def sampleApplication : JsString := js "00000000-0000-4000-8000-0000000000ab"

/-- An upsert for the sample application, or for one of its tenants. -/
def sampleUpsert (applicationTenantId : Option JsString) : UpsertStorageBindingCommand where
  workspaceId := sampleWorkspace
  applicationId := sampleApplication
  applicationTenantId := applicationTenantId
  provider := .s3
  region := js "r"
  bucket := js "b"
  bucketPrefix := none
  tier := .managed
  credentialMode := .platformIam
  expectedBucketOwner := none
  endpointHost := none
  roleArn := none
  declaredPlanCode := none
  declaredCapacityBytes := none
  expectedGeneration := none

def sampleProbe : ProbeInput := ⟨true, js "probe", none, some true⟩

/-- The next session of a run, with its number of draws as the state of `randomUUID`. -/
def Session.next (s : Session) (c : RegistryCommand) : Session :=
  ⟨(s.registry.perform (sampleDraw s.used.length) c).2, (sampleDraw s.used.length).ids ++ s.used⟩

/-- A run of commands from the empty registry. -/
def sampleSession (commands : List RegistryCommand) : Session :=
  commands.foldl Session.next ⟨.empty, []⟩

theorem next_reaches {guard : Session → RegistryCommand × Draw → Prop} {s : Session}
    {c : RegistryCommand} (hs : registryMachine.Reaches guard s)
    (hguard : guard s (c, sampleDraw s.used.length))
    (hfresh : (sampleDraw s.used.length).Fresh s.used) : registryMachine.Reaches guard (s.next c) :=
  hs.step hguard ⟨hfresh, rfl⟩

/-- The first binding of a sample run. -/
def firstBinding : JsString := (sampleDraw 0).bindingId

/-- A connected binding, disabled. -/
def disabledSession : Session :=
  sampleSession [.upsertBinding (sampleUpsert none) (js "u"), .recordProbe firstBinding sampleProbe,
    .disableBinding firstBinding]

theorem bindings_guarded_probed : ¬ ∃ context,
    ((disabledSession.next (.recordProbe firstBinding sampleProbe)).registry.resolve
      context).bindingId = some firstBinding ∧
    ((disabledSession.next (.recordProbe firstBinding sampleProbe)).registry.resolve
      context).allowWrite = true := by
  have hempty : registryMachine.Reachable (sampleSession []) := .init rfl
  have hcreated := next_reaches (c := .upsertBinding (sampleUpsert none) (js "u")) hempty trivial
    (by decide)
  have hprobed := next_reaches (c := .recordProbe firstBinding sampleProbe) hcreated trivial
    (by decide)
  obtain ⟨-, -, -, hdisabled⟩ := bindings_guarded hprobed
  have hleads : registryMachine.Leads (fun s e => ¬ e.1.rolls s.registry e.2 firstBinding)
      disabledSession (disabledSession.next (.recordProbe firstBinding sampleProbe)) := by
    refine .single ⟨(.recordProbe firstBinding sampleProbe, sampleDraw 15), ?_, by decide, rfl⟩
    rintro ⟨-, actorId, hc⟩
    cases hc
  rintro ⟨context, hbound, hallowed⟩
  have hrefused := hdisabled firstBinding (sampleDraw 10) disabledSession ⟨by decide, rfl⟩
    (by decide) _ hleads context hbound
  rw [hallowed] at hrefused
  cases hrefused

end Samples

end TrustCore.AppStorage
