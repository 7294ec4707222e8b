import TrustCore.AppStorageRefinement

/-!
# The commands on a binding over both registries

A command on a binding writes the binding, its profile and at most one version. The
process saves what it wrote to its memory, and the two sides stay linked.
-/

namespace TrustCore.AppStorage

open TrustCore.Utf TrustCore.KeyedMaps TrustCore.Methods

variable {r r' : Registry} {s : Durable} {used : List JsString} {W id rowId actorId : JsString}
  {extra : JsString → Prop} {b b' : StoredStorageBinding} {p p' q q' : StoredStorageProfile}
  {row : StorageProfileRow} {d : Draw} {options : CommandOptions}

/-! ## Steps that save a binding -/

/-- The state of a binding, with its profile as it was. -/
theorem Linked.state (rowId : JsString) (h : Linked used (· = W) r s) (c : Copies r s id b p q row)
    (hW : b.workspaceId = W) (hu : Updates b b') :
    ∃ s', ((postgres rowId).persistBindingState id).exec
        { s with memory := s.memory.write q b' none } = (.ok (), s') ∧
      Linked used (· = W) (r.write p b' none) s' := by
  have hget : (s.memory.write q b' none).bindings.get id = some b' :=
    get_changed c.memory hu.id rfl
  have htable : s.database.bindings.get b.id = some b :=
    KeyedMap.get_of_mem (KeyedMap.mem_of_get c.table)
  obtain ⟨answers, hanswers, hsave⟩ := exec_save
    (s := { s with memory := s.memory.write q b' none }) h.executes (updateBindingState_eq htable hu)
    b'.workspaceId
  rw [hu.workspaceId, hW] at hsave
  have hprofile : s.database.holdings.profile b'.profileId = some p.held := by
    rw [hu.profileId, ← c.tableHeld]
    simp only [Database.holdings, c.tableProfile, Option.map_some]
  have hdb : ({ s.database with bindings := s.database.bindings.set b' } : Database).holdings =
      s.database.holdings.put p.held b' [] := (put_same hprofile).symm
  refine ⟨_, ?_, h.wrote c hu rfl rfl c.memoryHeld (fun _ hv => absurd hv (Option.not_mem_none _)) rfl hdb rfl
    hanswers⟩
  simp only [postgres, withMemory, Method.exec_of, hget]
  rw [hu.workspaceId, hW]
  exact hsave

/-- A new version of a binding, with its profile. -/
theorem exec_persistBinding (rowId : JsString) (hexecutes : ∀ a ∈ s.answers, a = .executes)
    (hb : s.memory.bindings.get id = some b') (hq : s.memory.profiles.get b'.profileId = some q')
    (hactor : actorId ≠ [])
    (hprofile : ∀ row, s.database.profiles.get q'.id = some row → row.workspaceId = q'.workspaceId)
    (hbinding : ∀ row, s.database.bindings.get b'.id = some row → Updates row b') :
    ∃ answers db, (∀ a ∈ answers, a = .executes) ∧
      db.holdings = s.database.holdings.put q'.held b'
        [(b'.version q'.toStorageProfileSummary rowId actorId).held] ∧
      db.blobs = s.database.blobs ∧
      ((postgres rowId).persistBinding id actorId).exec s =
        (.ok (), s.saved s.memory db answers b'.workspaceId) := by
  have hgiven : truthy (some actorId) = some actorId := by
    cases actorId with
    | nil => exact absurd rfl hactor
    | cons u actorId => rfl
  obtain ⟨db, hdb, hholdings, hblobs⟩ := upsertProfileAndBinding_eq
    (some (b'.version q'.toStorageProfileSummary rowId actorId)) (profile_id hq) hprofile hbinding
  obtain ⟨answers, hanswers, hsave⟩ := exec_save hexecutes hdb b'.workspaceId
  refine ⟨answers, db, hanswers, hholdings, hblobs, ?_⟩
  simp only [postgres, withMemory, Method.exec_of, hb, hq, toSummary_eq hq, hgiven, Option.map_some]
  exact hsave

/-- A change of a binding that has its version. -/
theorem Linked.versioned (rowId : JsString) (h : Linked used (· = W) r s)
    (c : Copies r s id b p q row) (hW : b.workspaceId = W) (hu : Updates b b')
    (hraised : b.generation < b'.generation) (hid : p'.id = p.id)
    (hworkspace : p'.workspaceId = p.workspaceId) (hsame : q'.held = p'.held)
    (hactor : actorId ≠ []) (versionId : JsString) :
    ∃ s', ((postgres rowId).persistBinding id actorId).exec
        { s with memory := s.memory.write q' b' (some
          (b'.version q'.toStorageProfileSummary versionId actorId)) } = (.ok (), s') ∧
      Linked used (· = W) (r.write p' b' (some
        (b'.version p'.toStorageProfileSummary versionId actorId))) s' := by
  have hsummary : q'.toStorageProfileSummary = p'.toStorageProfileSummary :=
    congrArg HeldProfile.toStorageProfileSummary hsame
  have hworkspace' : q'.workspaceId = p'.workspaceId := congrArg HeldProfile.workspaceId hsame
  have hkey : q'.id = b'.profileId := by
    rw [hsummary, hid, profile_id c.fixtureProfile, hu.profileId]
  have hget : (s.memory.write q' b' (some
      (b'.version q'.toStorageProfileSummary versionId actorId))).bindings.get id = some b' :=
    get_changed c.memory hu.id rfl
  have hq : (s.memory.write q' b' (some
      (b'.version q'.toStorageProfileSummary versionId actorId))).profiles.get b'.profileId =
        some q' := get_write_profile hkey
  have hprofile : ∀ row, s.database.profiles.get q'.id = some row →
      row.workspaceId = q'.workspaceId := by
    intro row₀ hrow
    rw [hkey, hu.profileId, c.tableProfile, Option.some_inj] at hrow
    have hheld : row.workspaceId = p.workspaceId := congrArg HeldProfile.workspaceId c.tableHeld
    rw [← hrow, hheld, hworkspace', hworkspace]
  have hbinding : ∀ row, s.database.bindings.get b'.id = some row → Updates row b' := by
    intro b₀ hb₀
    have hid₀ : b'.id = id := hu.id.trans (KeyedMap.key_of_get c.table)
    rw [hid₀, c.table, Option.some_inj] at hb₀
    exact hb₀ ▸ hu
  obtain ⟨answers, db, hanswers, hholdings, hblobs, hpersist⟩ := exec_persistBinding rowId
    (s := { s with memory := s.memory.write q' b' (some
      (b'.version q'.toStorageProfileSummary versionId actorId)) }) h.executes hget hq hactor
    hprofile hbinding
  rw [hu.workspaceId, hW] at hpersist
  refine ⟨_, hpersist, ?_⟩
  rw [hsame, hsummary] at hholdings
  have hv : ∀ v ∈ some (b'.version p'.toStorageProfileSummary versionId actorId),
      Versions b b' v := by
    intro v hv
    obtain rfl := Option.mem_some_iff.mp hv
    exact ⟨rfl, rfl, rfl, hraised⟩
  exact h.wrote c hu hid hworkspace hsame hv (by rw [hsummary]) hholdings hblobs hanswers

/-! ## Changes of a binding -/

theorem Linked.ready (h : Linked used (· = W) r s) (hb : r.bindings.get id = some b)
    (hW : b.workspaceId = W) : Ready used W id r s := ⟨h, b, hb, hW⟩

theorem sim_changeBindingState {op : Registry → Outcome StorageBindingSummary}
    {f : StoredStorageBinding → StorageProfileSummary → StoredStorageBinding}
    (hop : Changes id op f) (hf : ∀ b P, Updates b (f b P)) :
    Sim (Ready used W id) (inMemory.changeBindingState id op)
      ((postgres rowId).changeBindingState id op) (Both Eq (Ready used W id))
      (Both Eq (Ready used W id)) := by
  rintro r s ⟨h, b, hb, hW⟩
  obtain ⟨p, q, row, c⟩ := h.copies hb hW
  have hcall := hop r b p h.regular.noAssume c.fixture c.fixtureProfile
  have hcall' := hop s.memory b q h.noAssume c.memory c.memoryProfile
  have hu := hf b p.toStorageProfileSummary
  rw [c.summary] at hcall'
  generalize f b p.toStorageProfileSummary = b' at hcall hcall' hu
  obtain ⟨s', hpersist, hlinked⟩ := h.state rowId c hW hu
  have hready := hlinked.ready (get_changed hb hu.id rfl) (hu.workspaceId.trans hW)
  exact ends_saved hcall hcall' rfl hpersist rfl rfl hready

/-- A command that changes a binding of the workspace and leaves it there. -/
theorem sim_onBinding {m : Method Registry StorageError StorageBindingSummary}
    {n : Method Durable StorageError StorageBindingSummary}
    (h : Sim (Ready used W id) m n (Both Eq (Ready used W id)) (Both Eq (Ready used W id))) :
    Sim (Linked used extra)
      (do let _ ← inMemory.requireWorkspaceBinding id W; m)
      (do let _ ← (postgres rowId).requireWorkspaceBinding id W; n)
      (Both Eq (Linked used (· = W))) (Both Eq (Linked used (· = W))) := by
  have hchange (b : StoredStorageBinding) :
      Sim (fun r s => r.bindings.get id = some b ∧ Ready used W id r s ∧ True) m n
        (Both Eq (Linked used (· = W))) (Both Eq (Linked used (· = W))) :=
    h.conseq (fun _ _ h => h.2.1) (fun _ _ _ _ h => ⟨h.1, h.2.1⟩) fun _ _ _ _ h => ⟨h.1, h.2.1⟩
  intro r s h
  exact sim_withBinding (fun _ _ _ h => h) hchange r s ⟨h, trivial⟩

theorem sim_refreshStoragePlan (command : RefreshStoragePlanCommand) :
    Sim (Linked used extra) (inMemory.refreshStoragePlan d command)
      ((postgres rowId).refreshStoragePlan d command)
      (Both Eq (Linked used (· = command.workspaceId)))
      (Both Eq (Linked used (· = command.workspaceId))) :=
  sim_onBinding (sim_changeBindingState (changes_refreshPlan d _ _) fun b P =>
    updates_refreshed b d _ P.declaredCapacityBytes)

theorem sim_disableStorageBinding :
    Sim (Linked used extra) (inMemory.disableStorageBinding d id W)
      ((postgres rowId).disableStorageBinding d id W)
      (Both Eq (Linked used (· = W))) (Both Eq (Linked used (· = W))) :=
  sim_onBinding (sim_changeBindingState (changes_disableBinding d id) fun b _ =>
    updates_disable b d)

/-! ## Probes -/

theorem sim_recordProbe (input : ProbeInput) :
    Sim (Ready used W id) (inMemory.changeBindingState id fun r => r.recordProbe d id input)
      ((postgres rowId).changeBindingState id fun r => r.recordProbe d id input)
      (Both Eq (Ready used W id)) (Both Eq (Ready used W id)) :=
  sim_changeBindingState (changes_recordProbe d id input) fun b _ => updates_probed b d input

theorem sim_markProbeDeferred (summary : JsString) :
    Sim (Ready used W id) (inMemory.changeBindingState id fun r => r.markProbeDeferred d id summary)
      ((postgres rowId).changeBindingState id fun r => r.markProbeDeferred d id summary)
      (Both Eq (Ready used W id)) (Both Eq (Ready used W id)) :=
  sim_changeBindingState (changes_markProbeDeferred d id summary) fun b _ =>
    updates_probeDeferred b d summary

/-- No command of a caller lets a role be assumed without its external id. -/
theorem runHandshakeHardening_ok (h : r.assumeWithoutExternalId = .empty) :
    r.runHandshakeHardening d id = (⟨true, none⟩, r) := by
  rw [Registry.runHandshakeHardening, h]
  rfl

theorem sim_runHandshakeHardening :
    Sim (Ready used W id)
      (inMemory.call fun r =>
        let out := r.runHandshakeHardening d id
        (.ok out.1, out.2))
      ((postgres rowId).call fun r =>
        let out := r.runHandshakeHardening d id
        (.ok out.1, out.2))
      (fun a a' r s => a = ⟨true, none⟩ ∧ a' = ⟨true, none⟩ ∧ Ready used W id r s)
      (Both Eq (Ready used W id)) := by
  rintro r s ⟨h, hready⟩
  have hcall : (inMemory.call fun r =>
      (.ok (r.runHandshakeHardening d id).1, (r.runHandshakeHardening d id).2)).exec r =
        (.ok ⟨true, none⟩, r) := by
    apply exec_call
    simp only [inMemory, id_eq, runHandshakeHardening_ok h.regular.noAssume]
  have hcall' : ((postgres rowId).call fun r =>
      (.ok (r.runHandshakeHardening d id).1, (r.runHandshakeHardening d id).2)).exec s =
        (.ok ⟨true, none⟩, { s with memory := s.memory }) := by
    apply exec_call
    simp only [postgres, runHandshakeHardening_ok h.noAssume]
  dsimp only
  rw [hcall, hcall']
  exact ⟨rfl, rfl, h, hready⟩

theorem sim_bindingSummary :
    Sim (Ready used W id) (inMemory.attempt fun r => r.bindingSummary id)
      ((postgres rowId).attempt fun r => r.bindingSummary id)
      (Both Eq (Ready used W id)) (Both Eq (Ready used W id)) := by
  apply sim_attempt
  rintro r s ⟨h, b, hb, hW⟩
  obtain ⟨p, q, row, c⟩ := h.copies hb hW
  refine ends_same ?_ (h.ready hb hW)
  rw [Registry.bindingSummary, Registry.bindingSummary, hb, c.memory]
  exact toSummary_agrees h.memory (KeyedMap.mem_of_get c.memory)

theorem sim_probeStorageBinding (command : ProbeStorageBindingCommand) :
    Sim (Linked used extra) (inMemory.probeStorageBinding options d command)
      ((postgres rowId).probeStorageBinding options d command)
      (Both Eq (Linked used (· = command.workspaceId)))
      (Both Eq (Linked used (· = command.workspaceId))) := by
  apply sim_onBinding
  apply Sim.bind sim_runHandshakeHardening
  intro hardening hardening' r s h
  obtain ⟨rfl, rfl, hready⟩ := h
  rw [if_pos rfl, if_pos rfl]
  refine (sim_bindingSummary.bind ?_) r s hready
  rintro summary summary' r s ⟨rfl, hready⟩
  cases options.probeBindingLive with
  | none =>
    dsimp only
    split
    · exact sim_recordProbe _ r s hready
    · exact sim_markProbeDeferred _ r s hready
  | some probeBindingLive =>
    dsimp only
    split
    · exact sim_markProbeDeferred _ r s hready
    · refine (Sim.tryCatch (F := Both Eq (Ready used command.workspaceId command.bindingId)) ?_ ?_)
        r s hready
      · have hlive (answer : Except StorageError ProbeInput) :
            Sim (Ready used command.workspaceId command.bindingId)
              (inMemory.attempt fun _ => answer) ((postgres rowId).attempt fun _ => answer)
              (Both Eq (Ready used command.workspaceId command.bindingId))
              (Both Eq (Ready used command.workspaceId command.bindingId)) :=
          sim_attempt fun _ _ h => ends_same rfl h
        refine (hlive _).bind ?_
        rintro live live' r s ⟨rfl, hready⟩
        exact sim_recordProbe live r s hready
      · rintro e e' r s ⟨rfl, hready⟩
        exact sim_recordProbe _ r s hready

/-! ## Plans -/

/-- The plan of a profile, and the state of the binding. -/
theorem Linked.planned (rowId : JsString) (h : Linked used (· = W) r s)
    (c : Copies r s id b p q row) (hW : b.workspaceId = W) (capacity : Int)
    (planCode : Option JsString) :
    ∃ s', ((postgres rowId).persistPlan id).exec
        { s with
          memory := s.memory.write (q.planAccepted d capacity planCode)
            (b.planAccepted d capacity) none } = (.ok (), s') ∧
      Linked used (· = W)
        (r.write (p.planAccepted d capacity planCode) (b.planAccepted d capacity) none) s' := by
  have hu := updates_planAccepted b d capacity
  generalize b.planAccepted d capacity = b' at hu
  have hid : q.id = p.id := by rw [c.summary]
  have hworkspace : q.workspaceId = p.workspaceId := congrArg HeldProfile.workspaceId c.memoryHeld
  have hsame : (q.planAccepted d capacity planCode).held =
      (p.planAccepted d capacity planCode).held := by
    simp only [StoredStorageProfile.held, StoredStorageProfile.planAccepted, c.summary, hworkspace]
  have hrow : s.database.profiles.get q.id = some row := by
    rw [profile_id c.memoryProfile]
    exact c.tableProfile
  obtain ⟨db, hplan, hholdings, hbindings, hblobs⟩ := updateProfilePlan_eq (d := d) hrow
    (c.tableHeld.trans c.memoryHeld.symm) capacity planCode
  have hkey : (q.planAccepted d capacity planCode).id = b'.profileId :=
    (profile_id c.memoryProfile).trans hu.profileId.symm
  have htable : db.bindings.get b.id = some b := by
    rw [hbindings, KeyedMap.key_of_get c.table]
    exact c.table
  generalize hmemory : s.memory.write (q.planAccepted d capacity planCode) b' none = m
  have hget : m.bindings.get id = some b' := hmemory ▸ get_changed c.memory hu.id rfl
  have hq : m.profiles.get b'.profileId = some (q.planAccepted d capacity planCode) :=
    hmemory ▸ get_write_profile hkey
  obtain ⟨answers₁, hanswers₁, hfirst⟩ := exec_transact (s := { s with memory := m }) h.executes hplan
  obtain ⟨answers, hanswers, hsecond⟩ := exec_save
    (s := { s with memory := m, database := db, answers := answers₁ }) hanswers₁
    (updateBindingState_eq htable hu) W
  have hwrote : ({ db with bindings := db.bindings.set b' } : Database).holdings =
      s.database.holdings.put (p.planAccepted d capacity planCode).held b' [] := by
    rw [← hsame]
    have hprofile := congrArg Holdings.profile hholdings
    have htenants := congrArg Holdings.tenants hholdings
    have hversions := congrArg Holdings.versions hholdings
    simp only [Database.holdings] at hprofile htenants hversions
    simp only [Database.holdings, Holdings.put, hprofile, htenants, hversions, hbindings, ← hkey,
      List.append_nil]
    rfl
  have hb' : b'.workspaceId = W := hu.workspaceId.trans hW
  have hq' : q.workspaceId = W := hworkspace.trans (c.workspaceId.trans hW)
  rw [hq'] at hfirst
  refine ⟨s.saved m { db with bindings := db.bindings.set b' } answers W, ?_, ?_⟩
  · simp only [postgres, withMemory, Method.exec_of, hget, hq, hb']
    exact (Method.exec_bind_ok hfirst).trans hsecond
  · rw [← hmemory]
    exact h.wrote c hu rfl rfl hsame (fun _ hv => absurd hv (Option.not_mem_none _)) rfl hwrote hblobs hanswers

theorem sim_acceptStoragePlan (command : AcceptStoragePlanCommand) :
    Sim (Linked used extra) (inMemory.acceptStoragePlan d command)
      ((postgres rowId).acceptStoragePlan d command)
      (Both Eq (Linked used (· = command.workspaceId)))
      (Both Eq (Linked used (· = command.workspaceId))) := by
  apply sim_onBinding
  rintro r s ⟨h, b, hb, hW⟩
  obtain ⟨p, q, row, c⟩ := h.copies hb hW
  have hcall := acceptPlan_eq (d := d) c.fixture c.fixtureProfile command.declaredCapacityBytes
    command.planCode
  have hcall' := acceptPlan_eq (d := d) c.memory c.memoryProfile command.declaredCapacityBytes
    command.planCode
  have hsummary : (q.planAccepted d command.declaredCapacityBytes
      command.planCode).toStorageProfileSummary = (p.planAccepted d command.declaredCapacityBytes
        command.planCode).toStorageProfileSummary := by
    simp only [StoredStorageProfile.planAccepted, c.summary]
  rw [hsummary] at hcall'
  obtain ⟨s', hpersist, hlinked⟩ := h.planned rowId c hW command.declaredCapacityBytes
    command.planCode
  have hu := updates_planAccepted b d command.declaredCapacityBytes
  have hready := hlinked.ready (get_changed hb hu.id rfl) (hu.workspaceId.trans hW)
  exact ends_saved hcall hcall' rfl hpersist rfl rfl hready

/-! ## Upserts -/

/-- The same binding and external id; the onboarding texts are not compared. -/
def SameUpsert (u u' : UpsertResult) : Prop :=
  u.binding = u'.binding ∧ u.externalId = u'.externalId

/-- An upsert that both sides accept, and the state once it is saved. -/
structure Upserts (used : List JsString) (r : Registry) (s : Durable) (d : Draw)
    (rowId actorId : JsString) (command : UpsertStorageBindingCommand) (u u' : UpsertResult)
    (r' m : Registry) (s' : Durable) : Prop where
  fixture : r.upsertBinding d command actorId = (.ok u, r')
  memory : s.memory.upsertBinding d command actorId = (.ok u', m)
  saved : ((postgres rowId).persistBinding u'.binding.id actorId).exec { s with memory := m } =
    (.ok (), s')
  same : SameUpsert u u'
  linked : Linked (d.ids ++ used) (· = command.workspaceId) r' s'

section Upsert

variable {command : UpsertStorageBindingCommand}

theorem updateBinding_eq (hp : r.profiles.get b.profileId = some p)
    (hconflict : (command.expectedGeneration.any fun g : Int => decide (g ≠ b.generation)) = false)
    (d : Draw) (actorId : JsString) :
    ∃ template, r.updateBinding d command actorId b =
      (.ok ⟨(b.upserted d command).summary (p.upserted d command).toStorageProfileSummary, none,
          template⟩,
        r.write (p.upserted d command) (b.upserted d command)
          (some ((b.upserted d command).version (p.upserted d command).toStorageProfileSummary
            d.versionId actorId))) := by
  have hkey : (p.upserted d command).id = (b.upserted d command).profileId :=
    (profile_id hp : p.id = b.profileId)
  simp only [Registry.updateBinding, hconflict, hp, versioned_both hkey]
  exact ⟨_, rfl⟩

theorem upsertBinding_found (h : r.findBinding command.workspaceId command.applicationId
    command.applicationTenantId = some b) :
    r.upsertBinding d command actorId = r.updateBinding d command actorId b := by
  rw [Registry.upsertBinding, h]

theorem upsertBinding_new (h : r.findBinding command.workspaceId command.applicationId
    command.applicationTenantId = none) :
    r.upsertBinding d command actorId = r.createBinding d command actorId := by
  rw [Registry.upsertBinding, h]

theorem upserts_found (h : Linked used (· = command.workspaceId) r s) (hfresh : d.Fresh used)
    (hactor : actorId ≠ [])
    (hfound : r.findBinding command.workspaceId command.applicationId
      command.applicationTenantId = some b)
    (hagrees : r.findBinding command.workspaceId command.applicationId
      command.applicationTenantId = s.memory.findBinding command.workspaceId command.applicationId
        command.applicationTenantId)
    (hconflict : (command.expectedGeneration.any fun g : Int => decide (g ≠ b.generation)) =
      false) (rowId : JsString) :
    ∃ u u' r' m s', Upserts used r s d rowId actorId command u u' r' m s' := by
  have hW : b.workspaceId = command.workspaceId := by
    have hscope := List.find?_some hfound
    simp only [Bool.and_eq_true, beq_iff_eq] at hscope
    exact hscope.1.1
  obtain ⟨p, q, row, c⟩ := h.copies (KeyedMap.get_of_mem (List.mem_of_find?_eq_some hfound)) hW
  have hsummary : (q.upserted d command).toStorageProfileSummary =
      (p.upserted d command).toStorageProfileSummary := by
    simp only [StoredStorageProfile.upserted, c.summary]
  have hworkspace : q.workspaceId = p.workspaceId := congrArg HeldProfile.workspaceId c.memoryHeld
  have hsame : (q.upserted d command).held = (p.upserted d command).held := by
    simp only [StoredStorageProfile.held, hsummary]
    simp only [StoredStorageProfile.upserted, hworkspace]
  obtain ⟨template, hupdate⟩ := updateBinding_eq c.fixtureProfile hconflict d actorId
  obtain ⟨template', hupdate'⟩ := updateBinding_eq c.memoryProfile hconflict d actorId
  rw [← upsertBinding_found hfound] at hupdate
  rw [← upsertBinding_found (hagrees.symm.trans hfound)] at hupdate'
  have hid : (p.upserted d command).id = p.id := rfl
  obtain ⟨s', hpersist, hlinked⟩ := (h.grow hfresh).versioned rowId c hW
    (updates_upserted b d command) (Nat.lt_succ_self _) hid rfl hsame hactor d.versionId
  exact ⟨_, _, _, _, s', hupdate, hupdate', hpersist, ⟨by rw [hsummary], rfl⟩, hlinked⟩

theorem upserts_new (h : Linked used (· = command.workspaceId) r s) (hfresh : d.Fresh used)
    (hactor : actorId ≠ [])
    (hfound : r.findBinding command.workspaceId command.applicationId
      command.applicationTenantId = none)
    (hagrees : r.findBinding command.workspaceId command.applicationId
      command.applicationTenantId = s.memory.findBinding command.workspaceId command.applicationId
        command.applicationTenantId) (rowId : JsString) :
    ∃ u u' r' m s', Upserts used r s d rowId actorId command u u' r' m s' := by
  obtain ⟨externalIds, template, hcreate⟩ := createBinding_eq (r := r) (d := d) command actorId
  obtain ⟨externalIds', template', hcreate'⟩ :=
    createBinding_eq (r := s.memory) (d := d) command actorId
  rw [← upsertBinding_new hfound] at hcreate
  rw [← upsertBinding_new (hagrees.symm.trans hfound)] at hcreate'
  generalize hv : (command.newBinding d).version (command.newProfile d).toStorageProfileSummary
    d.versionId actorId = v at hcreate hcreate'
  have hregular := h.regular.create hfresh hfound
    (congrArg (fun v => r.write (command.newProfile d) (command.newBinding d) (some v)) hv.symm)
  have hunknown : s.database.bindings.get (command.newBinding d).id = none := by
    cases hget : s.database.bindings.get (command.newBinding d).id with
    | none => rfl
    | some b =>
      have hknown := h.tables.bindings_known b (KeyedMap.mem_of_get hget)
      have hused := (h.regular.sound.knownBindings b hknown).1
      rw [KeyedMap.key_of_get hget] at hused
      exact absurd hused (hfresh.unused _ bindingId_mem)
  have hunknown' : s.database.profiles.get (command.newProfile d).id = none := by
    cases hget : s.database.profiles.get (command.newProfile d).id with
    | none => rfl
    | some row =>
      have hheld : s.database.holdings.profile (command.newProfile d).id = some row.held := by
        simp only [Database.holdings, hget, Option.map_some]
      obtain ⟨p, hp, -⟩ := Option.map_eq_some_iff.mp (h.tables.profiles_known _ _ hheld)
      have hused := h.regular.sound.knownProfiles p (KeyedMap.mem_of_get hp)
      rw [profile_id hp] at hused
      exact absurd hused (hfresh.unused _ profileId_mem)
  have hnew : ∀ v ∈ r.holdings.versions, v.bindingId = (command.newBinding d).id →
      ∃ b₀ ∈ r.holdings.bindings.values, b₀.id = (command.newBinding d).id ∧
        b₀.workspaceId = (command.newBinding d).workspaceId := by
    intro w hw hid
    have hused := h.regular.knownVersions w hw
    rw [hid] at hused
    exact absurd hused (hfresh.unused _ bindingId_mem)
  generalize hm : (s.memory.write (command.newProfile d) (command.newBinding d)
    (some v)).setExternalIds externalIds' = m at hcreate'
  have hget : m.bindings.get (command.newBinding d).id = some (command.newBinding d) :=
    hm ▸ KeyedMap.get_set_self _ _
  have hq : m.profiles.get (command.newBinding d).profileId = some (command.newProfile d) :=
    hm ▸ KeyedMap.get_set_self _ _
  obtain ⟨answers, db, hanswers, hholdings, hblobs, hpersist⟩ := exec_persistBinding rowId
    (s := { s with memory := m }) h.executes hget hq hactor
    (fun _ hrow => by cases hunknown'.symm.trans hrow)
    (fun _ hrow => by cases hunknown.symm.trans hrow)
  refine ⟨_, _, _, m, _, hcreate, hcreate', hpersist, ⟨rfl, rfl⟩, ?_⟩
  have hwrite (x : Registry) (e : KeyedMap (Prod.fst : JsString × JsString → JsString)) :
      ((x.write (command.newProfile d) (command.newBinding d) (some v)).setExternalIds e).holdings =
        x.holdings.put (command.newProfile d).held (command.newBinding d) [v.held] := by
    have hkey : (command.newProfile d).id = (command.newBinding d).profileId := rfl
    exact write_holdings (r := x) (v := some v) hkey
  have hsaved : db.holdings = s.database.holdings.put (command.newProfile d).held
      (command.newBinding d) [v.held] := by
    rw [hholdings, ← hv]
    rfl
  apply (h.grow hfresh).saved (hregular.setExternalIds externalIds)
  · rw [hwrite, hsaved]
    exact h.tables.put hnew
  · rw [← hm, hwrite, hwrite]
    exact h.memory.put hnew
  · rw [← hm]
    rfl
  · rw [← hm]
    rfl
  · exact hblobs
  · exact hanswers

theorem upserts_or_refused (h : Linked used (· = command.workspaceId) r s)
    (hfresh : d.Fresh used) (hactor : actorId ≠ []) (rowId : JsString) :
    (∃ e, r.upsertBinding d command actorId = (.error e, r) ∧
      s.memory.upsertBinding d command actorId = (.error e, s.memory)) ∨
    ∃ u u' r' m s', Upserts used r s d rowId actorId command u u' r' m s' := by
  have hagrees := findBinding_agrees h.regular h.memory (.inr rfl) command.applicationId
    command.applicationTenantId
  cases hfound : r.findBinding command.workspaceId command.applicationId
      command.applicationTenantId with
  | none => exact .inr (upserts_new h hfresh hactor hfound hagrees rowId)
  | some b =>
    cases hconflict : command.expectedGeneration.any fun g : Int => decide (g ≠ b.generation) with
    | true =>
      refine .inl ⟨⟨some "CONFLICT", js "Storage binding generation conflict."⟩, ?_, ?_⟩
      · rw [upsertBinding_found hfound, Registry.updateBinding, hconflict, if_pos rfl]
      · rw [upsertBinding_found (hagrees.symm.trans hfound), Registry.updateBinding, hconflict,
          if_pos rfl]
    | false => exact .inr (upserts_found h hfresh hactor hfound hagrees hconflict rowId)

theorem sim_upsertStorageBinding (hfresh : d.Fresh used) (hactor : actorId ≠ []) :
    Sim (Linked used extra) (inMemory.upsertStorageBinding d actorId command)
      ((postgres rowId).upsertStorageBinding d actorId command)
      (Both SameUpsert (Linked (d.ids ++ used) (· = command.workspaceId)))
      (Both Eq (Linked (d.ids ++ used) (· = command.workspaceId))) := by
  refine sim_ensureHydrated.bind fun _ _ => ?_
  intro r s h
  by_cases hhardening : command.hardeningOk = true
  · rw [if_pos hhardening, if_pos hhardening]
    obtain ⟨e, hcall, hcall'⟩ | ⟨u, u', r', m, s', hup⟩ :=
      upserts_or_refused h hfresh hactor rowId
    · exact ends_refused hcall hcall' (h.grow hfresh)
    · have hleaks : leaks u.binding.text = leaks u'.binding.text := by rw [hup.same.1]
      exact ends_saved hup.fixture hup.memory rfl hup.saved hleaks hup.same hup.linked
  · rw [if_neg hhardening, if_neg hhardening]
    exact ⟨rfl, h.grow hfresh⟩

end Upsert

/-! ## Deletions -/

theorem sim_refuseSticky {E : StorageError → StorageError → Registry → Durable → Prop}
    (force : Bool) :
    Sim (Ready used W id) (inMemory.refuseSticky W id force)
      ((postgres rowId).refuseSticky W id force) (fun _ _ => Ready used W id) E := by
  intro r s h
  have hnone : s.database.countStickyBlobs W id = 0 := by
    rw [Database.countStickyBlobs, h.1.noRows]
    rfl
  have hright : ((postgres rowId).refuseSticky W id force).exec s = (.ok (), s) := by
    cases force with
    | true => rfl
    | false =>
      have hcount : (Method.of (ε := StorageError) fun s : Durable =>
          (.ok (s.database.countStickyBlobs W id), s)).exec s = (.ok 0, s) := by
        rw [Method.exec_of, hnone]
      exact (Method.exec_bind_ok hcount).trans rfl
  rw [hright]
  exact h

/-- A binding that goes from all sides. -/
theorem Linked.deleted (rowId : JsString) (h : Linked used (· = W) r s)
    (c : Copies r s id b p q row) (hW : b.workspaceId = W) :
    ∃ s', ((postgres rowId).deletePersistedBinding W id).exec
        { s with memory := s.memory.discard b } = (.ok (), s') ∧
      Linked used (· = W) (r.discard b) s' := by
  have hmem := KeyedMap.mem_of_get c.fixture
  have hid : b.id = id := KeyedMap.key_of_get c.fixture
  have howned : ∀ x ∈ s.database.bindings.values, x.profileId = b.profileId → x = b := by
    intro x hx hprofile
    exact h.regular.sound.owned x (h.tables.bindings_known x hx) b hmem hprofile
  have hworkspace : row.workspaceId = b.workspaceId :=
    (congrArg HeldProfile.workspaceId c.tableHeld).trans c.workspaceId
  obtain ⟨db, hdelete, hholdings, hblobs⟩ := deleteBinding_row_eq
    (KeyedMap.get_of_mem (KeyedMap.mem_of_get c.table)) c.tableProfile hworkspace howned
  rw [hW, hid] at hdelete
  obtain ⟨answers, hanswers, hsave⟩ := exec_save (s := { s with memory := s.memory.discard b })
    h.executes hdelete W
  refine ⟨s.saved (s.memory.discard b) db answers W, hsave, ?_⟩
  have hroutes : (s.memory.discard b).blobs = s.memory.blobs := rfl
  apply h.saved (h.regular.discard hmem) ?_ ?_ hroutes rfl hblobs hanswers
  · rw [discard_holdings, hholdings]
    apply h.tables.remove
    · intro v hv
      obtain ⟨w, hw, rfl⟩ := List.mem_map.mp hv
      exact List.mem_map_of_mem (List.mem_of_mem_filter hw)
    · intro v hv hne
      obtain ⟨w, hw, rfl⟩ := List.mem_map.mp hv
      refine List.mem_map_of_mem (List.mem_filter.mpr ⟨hw, ?_⟩)
      have hother : (w.bindingId == b.id) = false := beq_eq_false_iff_ne.mpr hne
      rw [hother, Bool.and_false]
      rfl
  · rw [discard_holdings, discard_holdings]
    exact h.memory.remove (fun _ hv => hv) fun _ hv _ => hv

theorem sim_deleteStorageBinding (force : Bool) :
    Sim (Linked used extra) (inMemory.deleteStorageBinding id W force)
      ((postgres rowId).deleteStorageBinding id W force)
      (Both Eq (Linked used (· = W))) (Both Eq (Linked used (· = W))) := by
  have hdelete : Sim (Ready used W id)
      (do
        let summary ← inMemory.call fun r => r.deleteBinding id force
        inMemory.deletePersistedBinding W id
        inMemory.published StorageBindingSummary.text summary)
      (do
        let summary ← (postgres rowId).call fun r => r.deleteBinding id force
        (postgres rowId).deletePersistedBinding W id
        (postgres rowId).published StorageBindingSummary.text summary)
      (Both Eq (Linked used (· = W))) (Both Eq (Linked used (· = W))) := by
    rintro r s ⟨h, b, hb, hW⟩
    obtain ⟨p, q, row, c⟩ := h.copies hb hW
    have hcall := deleteBinding_eq force h.regular.noAssume h.regular.noBlobs c.fixture
      c.fixtureProfile fun x hx => h.regular.sound.owned x hx b (KeyedMap.mem_of_get hb)
    have hcall' := deleteBinding_eq force h.noAssume h.noRoutes c.memory c.memoryProfile
      fun x hx => h.regular.sound.owned x (h.memory.bindings_known x hx) b (KeyedMap.mem_of_get hb)
    cases hkept : b.kept force with
    | true =>
      rw [hkept, if_pos rfl] at hcall hcall'
      exact ends_refused hcall hcall' h
    | false =>
      rw [hkept, if_neg Bool.false_ne_true] at hcall hcall'
      rw [c.summary] at hcall'
      obtain ⟨s', hpersist, hlinked⟩ := h.deleted rowId c hW
      exact ends_saved hcall hcall' rfl hpersist rfl rfl hlinked
  have hrefuse (b : StoredStorageBinding) :
      Sim (fun r s => r.bindings.get id = some b ∧ Ready used W id r s ∧ True)
        (do
          inMemory.refuseSticky W id force
          let summary ← inMemory.call fun r => r.deleteBinding id force
          inMemory.deletePersistedBinding W id
          inMemory.published StorageBindingSummary.text summary)
        (do
          (postgres rowId).refuseSticky W id force
          let summary ← (postgres rowId).call fun r => r.deleteBinding id force
          (postgres rowId).deletePersistedBinding W id
          (postgres rowId).published StorageBindingSummary.text summary)
        (Both Eq (Linked used (· = W))) (Both Eq (Linked used (· = W))) :=
    ((sim_refuseSticky force).bind fun _ _ => hdelete).conseq (fun _ _ h => h.2.1)
      (fun _ _ _ _ h => h) fun _ _ _ _ h => h
  intro r s h
  exact sim_withBinding (fun _ _ _ h => h) hrefuse r s ⟨h, trivial⟩

end TrustCore.AppStorage
