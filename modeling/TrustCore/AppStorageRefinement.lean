import TrustCore.AppStorageLinks

/-!
# The command methods over both registries

`Sim` carries the link of the two sides through the text of each command: the parts that
load, ask and change take linked states to linked states and give corresponding results.
-/

namespace TrustCore.AppStorage

open TrustCore.Utf TrustCore.KeyedMaps TrustCore.Json TrustCore.Methods

/-- Results that correspond, in states that are related. -/
def Both {α : Type} (R : α → α → Prop) (P : Registry → Durable → Prop) (a a' : α) (r : Registry)
    (s : Durable) : Prop :=
  R a a' ∧ P r s

/-- Linked at a workspace that has the binding. -/
def Ready (used : List JsString) (W id : JsString) (r : Registry) (s : Durable) : Prop :=
  Linked used (· = W) r s ∧ ∃ b, r.bindings.get id = some b ∧ b.workspaceId = W

variable {α : Type} {R : α → α → Prop} {P : Registry → Durable → Prop} {r r' : Registry}
  {s : Durable} {used : List JsString} {W id rowId actorId : JsString} {extra : JsString → Prop}
  {d : Draw} {options : CommandOptions} {t t' : ApplicationTenant}

/-! ## Parts of a command -/

theorem sim_ensureHydrated {E : StorageError → StorageError → Registry → Durable → Prop} :
    Sim (Linked used extra) (inMemory.ensureHydrated W) ((postgres rowId).ensureHydrated W)
      (fun _ _ => Linked used (· = W)) E :=
  fun _ _ h => h.hydrate W

theorem sim_attempt {f : Registry → Except StorageError α}
    (h : ∀ r s, P r s → Ends (Both R P) (Both Eq P) (f r, r) (f s.memory, s)) :
    Sim P (inMemory.attempt f) ((postgres rowId).attempt f) (Both R P) (Both Eq P) := h

/-- A question that both registries answer in the same way. -/
theorem ends_same {x x' : Except StorageError α} (h : x = x') (hP : P r s) :
    Ends (Both Eq P) (Both Eq P) (x, r) (x', s) := by
  subst h
  cases x with
  | ok a => exact ⟨rfl, hP⟩
  | error e => exact ⟨rfl, hP⟩

theorem exec_published {σ : Type} (B : Backend σ) (text : α → JsString) (a : α) (t : σ) :
    (B.published text a).exec t =
      match assertNoSecrets (text a) with
      | .ok _ => (.ok a, t)
      | .error e => (.error e, t) := by
  rw [Backend.published, Method.exec_bind]
  simp only [Backend.attempt, Method.exec_of]
  cases assertNoSecrets (text a) with
  | ok _ => rfl
  | error e => rfl

/-- What is left of a command once both sides have saved the same. -/
theorem ends_published {text : α → JsString} {a a' : α}
    (hleaks : leaks (text a) = leaks (text a')) (hR : R a a') (hP : P r s) :
    Ends (Both R P) (Both Eq P) ((inMemory.published text a).exec r)
      (((postgres rowId).published text a').exec s) := by
  have hright : assertNoSecrets (text a) = assertNoSecrets (text a') := by
    rw [assertNoSecrets, assertNoSecrets, hleaks]
  rw [exec_published, exec_published, ← hright]
  cases assertNoSecrets (text a) with
  | ok _ => exact ⟨hR, hP⟩
  | error e => exact ⟨rfl, hP⟩

theorem sim_published {text : α → JsString} {a a' : α}
    (hleaks : R a a' → leaks (text a) = leaks (text a')) :
    Sim (Both R P a a') (inMemory.published text a) ((postgres rowId).published text a')
      (Both R P) (Both Eq P) :=
  fun _ _ h => ends_published (hleaks h.1) h.1 h.2

/-- A command that only asks. -/
theorem sim_read {f : Registry → Except StorageError α}
    (h : ∀ r s, Linked used (· = W) r s →
      Ends (Both R (Linked used (· = W))) (Both Eq (Linked used (· = W))) (f r, r) (f s.memory, s)) :
    Sim (Linked used extra)
      (do inMemory.ensureHydrated W; inMemory.attempt f)
      (do (postgres rowId).ensureHydrated W; (postgres rowId).attempt f)
      (Both R (Linked used (· = W))) (Both Eq (Linked used (· = W))) :=
  sim_ensureHydrated.bind fun _ _ => sim_attempt h

/-- A binding of the workspace, and what loading the workspace makes of a condition. -/
theorem sim_requireWorkspaceBinding {F F' : Registry → Durable → Prop}
    (hF : ∀ r s, Linked used extra r s → F r s → F' r (s.hydrate W)) :
    Sim (fun r s => Linked used extra r s ∧ F r s) (inMemory.requireWorkspaceBinding id W)
      ((postgres rowId).requireWorkspaceBinding id W)
      (fun b b' r s => b = b' ∧ r.bindings.get id = some b ∧ Ready used W id r s ∧ F' r s)
      (Both Eq (Linked used (· = W))) := by
  have hload {E : StorageError → StorageError → Registry → Durable → Prop} :
      Sim (fun r s => Linked used extra r s ∧ F r s) (inMemory.ensureHydrated W)
        ((postgres rowId).ensureHydrated W) (fun _ _ r s => Linked used (· = W) r s ∧ F' r s) E :=
    fun _ _ h => ⟨h.1.hydrate W, hF _ _ h.1 h.2⟩
  refine hload.bind fun _ _ => ?_
  rintro r s ⟨h, hF'⟩
  have hagrees := workspaceBinding_agrees h.memory (.inr rfl) id
  simp only [Backend.attempt, Method.exec_of]
  rw [show (postgres rowId).memory s = s.memory from rfl, show inMemory.memory r = r from rfl, ← hagrees]
  cases hb : (r.bindings.get id).filter (·.workspaceId == W) with
  | none => exact ⟨rfl, h⟩
  | some b =>
    obtain ⟨hget, hworkspace⟩ := Option.filter_eq_some_iff.mp hb
    exact ⟨rfl, hget, ⟨h, b, hget, beq_iff_eq.mp hworkspace⟩, hF'⟩

/-- A command on a binding of the workspace. -/
theorem sim_withBinding {F F' : Registry → Durable → Prop}
    {m : StoredStorageBinding → Method Registry StorageError α}
    {n : StoredStorageBinding → Method Durable StorageError α}
    (hF : ∀ r s, Linked used extra r s → F r s → F' r (s.hydrate W))
    (h : ∀ b, Sim (fun r s => r.bindings.get id = some b ∧ Ready used W id r s ∧ F' r s) (m b) (n b)
      (Both R (Linked used (· = W))) (Both Eq (Linked used (· = W)))) :
    Sim (fun r s => Linked used extra r s ∧ F r s)
      (do let b ← inMemory.requireWorkspaceBinding id W; m b)
      (do let b ← (postgres rowId).requireWorkspaceBinding id W; n b)
      (Both R (Linked used (· = W))) (Both Eq (Linked used (· = W))) := by
  refine (sim_requireWorkspaceBinding hF).bind ?_
  rintro b b' r s ⟨rfl, hb, hready⟩
  exact h b r s ⟨hb, hready⟩

theorem exec_call {σ : Type} {B : Backend σ} {op : Registry → Outcome α} {t : σ}
    {x : Except StorageError α} {m : Registry} (h : op (B.memory t) = (x, m)) :
    (B.call op).exec t = (x, B.setMemory t m) := by
  rw [Backend.call, Method.exec_of, h]

/-- A command that changes, saves and publishes. -/
theorem exec_saved {σ : Type} {B : Backend σ} {op : Registry → Outcome α} {text : α → JsString}
    {persist : α → Method σ StorageError Unit} {a : α} {t t₁ t₂ : σ}
    (hcall : (B.call op).exec t = (.ok a, t₁)) (hpersist : (persist a).exec t₁ = (.ok (), t₂)) :
    (do
      let a ← B.call op
      persist a
      B.published text a).exec t = (B.published text a).exec t₂ := by
  rw [Method.exec_bind_ok hcall, Method.exec_bind_ok hpersist]

/-- A command that changes both sides in the same way, saves and publishes. -/
theorem ends_saved {op op' : Registry → Outcome α} {text : α → JsString} {a a' : α} {m : Registry}
    {s' : Durable} {keep : α → Method Registry StorageError Unit}
    {persist : α → Method Durable StorageError Unit} (hcall : op r = (.ok a, r'))
    (hcall' : op' s.memory = (.ok a', m)) (hkeep : keep a = pure ())
    (hpersist : (persist a').exec { s with memory := m } = (.ok (), s'))
    (hleaks : leaks (text a) = leaks (text a')) (hR : R a a') (hP : P r' s') :
    Ends (Both R P) (Both Eq P)
      ((do
        let a ← inMemory.call op
        keep a
        inMemory.published text a).exec r)
      ((do
        let a ← (postgres rowId).call op'
        persist a
        (postgres rowId).published text a).exec s) := by
  have hleft : (inMemory.call op).exec r = (.ok a, r') := exec_call hcall
  have hright : ((postgres rowId).call op').exec s = (.ok a', { s with memory := m }) :=
    exec_call hcall'
  have hkept : (keep a).exec r' = (.ok (), r') := by rw [hkeep, Method.exec_pure]
  rw [exec_saved hleft hkept, exec_saved hright hpersist]
  exact ends_published hleaks hR hP

/-- A command that both sides refuse. -/
theorem ends_refused {β : Type} {op op' : Registry → Outcome α} {Q : β → β → Registry → Durable → Prop}
    {f : α → Method Registry StorageError β} {g : α → Method Durable StorageError β}
    {e : StorageError} (hcall : op r = (.error e, r)) (hcall' : op' s.memory = (.error e, s.memory))
    (hP : P r s) :
    Ends Q (Both Eq P) ((inMemory.call op >>= f).exec r) (((postgres rowId).call op' >>= g).exec s) := by
  have hleft : (inMemory.call op).exec r = (.error e, r) := exec_call hcall
  have hright : ((postgres rowId).call op').exec s = (.error e, s) := exec_call hcall'
  rw [Method.exec_bind_error hleft, Method.exec_bind_error hright]
  exact ⟨rfl, hP⟩

/-! ## Commands that only read -/

theorem sim_listApplicationTenants (applicationId : JsString) :
    Sim (Linked used extra) (inMemory.listApplicationTenants W applicationId)
      ((postgres rowId).listApplicationTenants W applicationId)
      (Both List.Perm (Linked used (· = W))) (Both Eq (Linked used (· = W))) :=
  sim_read fun _ _ h => ⟨listTenants_perm h.memory (.inr rfl) applicationId, h⟩

theorem sim_getApplicationTenant (applicationId tenantId : JsString) :
    Sim (Linked used extra) (inMemory.getApplicationTenant W applicationId tenantId)
      ((postgres rowId).getApplicationTenant W applicationId tenantId)
      (Both Eq (Linked used (· = W))) (Both Eq (Linked used (· = W))) := by
  apply sim_read
  intro r s h
  refine ends_same ?_ h
  rw [getTenant_agrees h.memory (.inr rfl)]

theorem sim_getEffectiveStorage (applicationId : JsString) (applicationTenantId : Option JsString) :
    Sim (Linked used extra) (inMemory.getEffectiveStorage W applicationId applicationTenantId)
      ((postgres rowId).getEffectiveStorage W applicationId applicationTenantId)
      (Both Eq (Linked used (· = W))) (Both Eq (Linked used (· = W))) := by
  refine sim_ensureHydrated.bind fun _ _ => .bind (sim_attempt ?_) fun _ _ => sim_published ?_
  · intro r s h
    exact ends_same (effectiveSummary_agrees h.regular h.memory (.inr rfl) _ _) h
  · rintro rfl
    rfl

/-- Two rollups with the same counts, of which both leak or none does. -/
def SameRollup (u u' : StorageBindingRollup) : Prop :=
  u.counts = u'.counts ∧ leaks u.text = leaks u'.text

theorem sim_getStorageBindingRollup (applications : List ApplicationName)
    (platform : Option (PlatformStatus × JsString)) :
    Sim (fun r s => Linked used extra r s ∧ RollupClear r W applications)
      (inMemory.getStorageBindingRollup W applications platform)
      ((postgres rowId).getStorageBindingRollup W applications platform)
      (Both SameRollup (Linked used (· = W))) (Both Eq (Linked used (· = W))) := by
  have hload {E : StorageError → StorageError → Registry → Durable → Prop} :
      Sim (fun r s => Linked used extra r s ∧ RollupClear r W applications)
        (inMemory.ensureHydrated W) ((postgres rowId).ensureHydrated W)
        (fun _ _ r s => Linked used (· = W) r s ∧ RollupClear r W applications) E :=
    fun _ _ h => ⟨h.1.hydrate W, h.2⟩
  have hask (status : PlatformStatus) (summary : JsString) :
      Sim (fun r s => Linked used (· = W) r s ∧ RollupClear r W applications)
        (inMemory.ask fun r => r.rollup W status summary applications)
        ((postgres rowId).ask fun r => r.rollup W status summary applications)
        (Both SameRollup (Linked used (· = W))) (Both Eq (Linked used (· = W))) :=
    fun _ _ h => ⟨⟨rollup_agrees h.1.memory (.inr rfl) status summary applications,
      rollup_clear h.1.memory (.inr rfl) h.2⟩, h.1⟩
  exact hload.bind fun _ _ => (hask _ _).bind fun _ _ => sim_published And.right

theorem leaks_perm {items items' : List StorageBindingSummary} (h : items.Perm items') :
    leaks (arrayText (items.map (·.text))) = leaks (arrayText (items'.map (·.text))) := by
  rw [leaks_arrayText, leaks_arrayText]
  exact (h.map _).any_eq

theorem sim_listStorageBindings (applicationId : Option JsString)
    (applicationTenantId : Option (Option JsString)) :
    Sim (Linked used extra) (inMemory.listStorageBindings W applicationId applicationTenantId)
      ((postgres rowId).listStorageBindings W applicationId applicationTenantId)
      (Both List.Perm (Linked used (· = W))) (Both Eq (Linked used (· = W))) := by
  refine sim_ensureHydrated.bind fun _ _ => .bind (sim_attempt ?_) fun _ _ =>
    sim_published leaks_perm
  intro r s h
  obtain ⟨items, items', hitems, hitems', hperm⟩ := listBindings_agrees h.regular h.memory
    (.inr rfl) applicationId applicationTenantId
  rw [hitems, hitems']
  exact ⟨hperm, h⟩

theorem sim_getStorageBinding :
    Sim (Linked used extra) (inMemory.getStorageBinding W id)
      ((postgres rowId).getStorageBinding W id)
      (Both Eq (Linked used (· = W))) (Both Eq (Linked used (· = W))) := by
  have hread (b : StoredStorageBinding) :
      Sim (fun r s => r.bindings.get id = some b ∧ Ready used W id r s ∧ True)
        (do
          let summary ← inMemory.attempt fun r => r.toSummary b
          inMemory.published StorageBindingSummary.text summary)
        (do
          let summary ← (postgres rowId).attempt fun r => r.toSummary b
          (postgres rowId).published StorageBindingSummary.text summary)
        (Both Eq (Linked used (· = W))) (Both Eq (Linked used (· = W))) := by
    have hattempt : Sim (fun r s => r.bindings.get id = some b ∧ Ready used W id r s ∧ True)
        (inMemory.attempt fun r => r.toSummary b) ((postgres rowId).attempt fun r => r.toSummary b)
        (Both Eq (Linked used (· = W))) (Both Eq (Linked used (· = W))) := by
      rintro r s ⟨hb, ⟨h, b₀, hb₀, hW⟩, -⟩
      obtain rfl : b₀ = b := Option.some_inj.mp (hb₀.symm.trans hb)
      refine ends_same (toSummary_agrees h.memory ?_) h
      exact h.memory.bindings b₀ (KeyedMap.mem_of_get hb) (.inr hW)
    refine hattempt.bind fun _ _ => sim_published ?_
    rintro rfl
    rfl
  intro r s h
  exact sim_withBinding (fun _ _ _ h => h) hread r s ⟨h, trivial⟩

theorem sim_resolveStorageRoute (context : RoutingContext) :
    Sim (Linked used extra) (inMemory.resolveStorageRoute context)
      ((postgres rowId).resolveStorageRoute context)
      (Both (fun route route' => route.observed = route'.observed)
        (Linked used (· = context.workspaceId)))
      (Both Eq (Linked used (· = context.workspaceId))) :=
  sim_read fun _ _ h => ⟨resolve_agrees h.regular h.memory (.inr rfl), h⟩

/-! ## Tenants -/

/-- What saves a tenant that the tables have. -/
theorem exec_persistTenant (rowId : JsString) (hexecutes : ∀ a ∈ s.answers, a = .executes)
    (ht : s.database.tenants.get t'.id = some t) (hr : Renames t t')
    {expectedUpdatedAt : Option JsString} (hexpected : expectedUpdatedAt.getD t.updatedAt =
      t.updatedAt) :
    ∃ answers, (∀ a ∈ answers, a = .executes) ∧
      ((postgres rowId).persistTenant t' expectedUpdatedAt).exec s = (.ok (), s.saved s.memory
        { s.database with tenants := s.database.tenants.set t' } answers t'.workspaceId) := by
  obtain ⟨answers₁, hanswers₁, hfound⟩ := exec_transact hexecutes (getTenant_eq ht hr)
  obtain ⟨answers, hanswers, hupdate⟩ := exec_transact
    (s := { s with database := s.database, answers := answers₁ }) hanswers₁ (updateTenant_eq ht hr)
  refine ⟨answers, hanswers, ?_⟩
  simp only [postgres]
  rw [Method.exec_bind_ok hfound]
  simp only [hexpected]
  rw [Method.exec_bind_ok hupdate]
  rfl

theorem exec_persistTenant_new (rowId : JsString) (hexecutes : ∀ a ∈ s.answers, a = .executes)
    (hnew : s.database.tenants.get t.id = none)
    (hkey : ∀ t' ∈ s.database.tenants.values, t'.workspaceId = t.workspaceId →
      t'.applicationId = t.applicationId → t'.externalTenantKey ≠ t.externalTenantKey)
    (expectedUpdatedAt : Option JsString) :
    ∃ answers, (∀ a ∈ answers, a = .executes) ∧
      ((postgres rowId).persistTenant t expectedUpdatedAt).exec s = (.ok (), s.saved s.memory
        { s.database with tenants := s.database.tenants.set t } answers t.workspaceId) := by
  have hget : Database.getTenant t.workspaceId t.applicationId t.id s.database =
      .ok (none, s.database) := by
    rw [Database.getTenant, hnew, Option.filter_none]
  have hfree : (s.database.tenants.values.any fun t' => t'.workspaceId == t.workspaceId &&
      t'.applicationId == t.applicationId && t'.externalTenantKey == t.externalTenantKey) =
      false := by
    rw [List.any_eq_false]
    intro t' ht' hsame
    simp only [Bool.and_eq_true, beq_iff_eq] at hsame
    exact hkey t' ht' hsame.1.1 hsame.1.2 hsame.2
  have hcreate : Database.createTenant t s.database =
      .ok ((), { s.database with tenants := s.database.tenants.set t }) := by
    rw [Database.createTenant, hfree]
    rfl
  obtain ⟨answers₁, hanswers₁, hfound⟩ := exec_transact hexecutes hget
  obtain ⟨answers, hanswers, hcreated⟩ := exec_transact
    (s := { s with database := s.database, answers := answers₁ }) hanswers₁ hcreate
  refine ⟨answers, hanswers, ?_⟩
  simp only [postgres]
  rw [Method.exec_bind_ok hfound]
  dsimp only
  rw [Method.exec_bind_ok hcreated]
  rfl

theorem Linked.tenantSaved {used' : List JsString} {answers : List Answer}
    (h : Linked used (· = W) r s)
    (hregular : Regular { r with tenants := r.tenants.set t } used')
    (hanswers : ∀ a ∈ answers, a = .executes) :
    Linked used' (· = W) { r with tenants := r.tenants.set t }
      (s.saved { s.memory with tenants := s.memory.tenants.set t }
        { s.database with tenants := s.database.tenants.set t } answers W) :=
  h.saved hregular h.tables.setTenant h.memory.setTenant rfl rfl rfl hanswers

theorem tenantOfKey_some {applicationId externalTenantKey : JsString}
    (h : r.tenantOfKey W applicationId externalTenantKey = some t) :
    t ∈ r.tenants.values ∧ t.workspaceId = W := by
  have hlisted := List.mem_of_find?_eq_some h
  obtain ⟨ht, hscope⟩ := List.mem_filter.mp hlisted
  rw [Bool.and_eq_true, beq_iff_eq] at hscope
  exact ⟨ht, hscope.1⟩

theorem tenantOfKey_none {applicationId externalTenantKey : JsString}
    (h : r.tenantOfKey W applicationId externalTenantKey = none) (ht : t ∈ r.tenants.values)
    (hworkspace : t.workspaceId = W) (happlication : t.applicationId = applicationId) :
    t.externalTenantKey ≠ externalTenantKey := by
  have hlisted : t ∈ r.listTenants W applicationId := by
    rw [Registry.listTenants, List.mem_filter, hworkspace, happlication, beq_self_eq_true,
      beq_self_eq_true]
    exact ⟨ht, rfl⟩
  have hnone := List.find?_eq_none.mp h t hlisted
  rw [beq_iff_eq] at hnone
  exact hnone

theorem exec_createApplicationTenant {σ : Type} {B : Backend σ} {command : CreateTenantInput}
    {x x₁ x₂ x₃ : σ} (hload : (B.ensureHydrated command.workspaceId).exec x = (.ok (), x₁))
    (hcall : (B.call fun r => r.createTenant d command).exec x₁ = (.ok t, x₂))
    (hpersist : (B.persistTenant t none).exec x₂ = (.ok (), x₃)) :
    (B.createApplicationTenant d command).exec x = (.ok t, x₃) := by
  rw [Backend.createApplicationTenant, Method.exec_bind_ok hload, Method.exec_bind_ok hcall,
    Method.exec_bind_ok hpersist]
  rfl

theorem sim_createApplicationTenant (command : CreateTenantInput) (hfresh : d.Fresh used) :
    Sim (Linked used extra) (inMemory.createApplicationTenant d command)
      ((postgres rowId).createApplicationTenant d command)
      (Both Eq (Linked (d.ids ++ used) (· = command.workspaceId)))
      (Both Eq (Linked (d.ids ++ used) (· = command.workspaceId))) := by
  intro r s₀ h₀
  have h := h₀.hydrate command.workspaceId
  have hload : ((postgres rowId).ensureHydrated command.workspaceId).exec s₀ =
      (.ok (), s₀.hydrate command.workspaceId) := rfl
  generalize s₀.hydrate command.workspaceId = s at h hload
  have hagrees := tenantOfKey_agrees h.regular h.memory (.inr rfl) command.applicationId
    command.externalTenantKey
  cases hfound : s.memory.tenantOfKey command.workspaceId command.applicationId
      command.externalTenantKey with
  | some t =>
    have hcall : r.createTenant d command = (.ok t, r) := by
      rw [Registry.createTenant, hagrees, hfound]
    have hcall' : s.memory.createTenant d command = (.ok t, s.memory) := by
      rw [Registry.createTenant, hfound]
    obtain ⟨ht, hworkspace⟩ := tenantOfKey_some hfound
    have htable : s.database.tenants.get t.id = some t :=
      KeyedMap.get_of_mem (h.tables.tenants t (h.memory.tenants_known t ht) trivial)
    have hexpected : (none : Option JsString).getD t.updatedAt = t.updatedAt := rfl
    obtain ⟨answers, hanswers, hpersist⟩ := exec_persistTenant rowId h.executes htable
      ⟨rfl, rfl, rfl, rfl, rfl⟩ hexpected
    rw [KeyedMap.set_of_get htable, hworkspace] at hpersist
    rw [exec_createApplicationTenant (B := inMemory) rfl (exec_call hcall) rfl,
      exec_createApplicationTenant hload (exec_call hcall') hpersist]
    exact ⟨rfl, (h.grow hfresh).saved (h.grow hfresh).regular h.tables h.memory rfl rfl rfl hanswers⟩
  | none =>
    generalize hnew : ({
        id := d.tenantId
        workspaceId := command.workspaceId
        applicationId := command.applicationId
        externalTenantKey := command.externalTenantKey
        displayName := command.displayName
        status := .active
        createdAt := d.now
        updatedAt := d.now } : ApplicationTenant) = t
    have hcall : r.createTenant d command = (.ok t, { r with tenants := r.tenants.set t }) := by
      rw [Registry.createTenant, hagrees, hfound, ← hnew]
    have hcall' : s.memory.createTenant d command =
        (.ok t, { s.memory with tenants := s.memory.tenants.set t }) := by
      rw [Registry.createTenant, hfound, ← hnew]
    have hid : t.id ∈ d.ids := by
      rw [← hnew]
      exact List.mem_cons_self
    have hworkspace : t.workspaceId = command.workspaceId := by rw [← hnew]
    have hkey : ∀ t' ∈ r.tenants.values, t'.workspaceId = t.workspaceId →
        t'.applicationId = t.applicationId → t'.externalTenantKey ≠ t.externalTenantKey := by
      rw [← hnew]
      intro t' ht'
      exact tenantOfKey_none (hagrees.trans hfound) ht'
    have hunknown : s.database.tenants.get t.id = none := by
      cases hget : s.database.tenants.get t.id with
      | none => rfl
      | some t' =>
        have hknown := h.regular.knownTenants t' (h.tables.tenants_known t' (KeyedMap.mem_of_get hget))
        rw [KeyedMap.key_of_get hget] at hknown
        exact absurd hknown (hfresh.unused _ hid)
    obtain ⟨answers, hanswers, hpersist⟩ := exec_persistTenant_new rowId
      (s := { s with memory := { s.memory with tenants := s.memory.tenants.set t } }) h.executes
      hunknown (fun t' ht' => hkey t' (h.tables.tenants_known t' ht')) none
    rw [hworkspace] at hpersist
    rw [exec_createApplicationTenant (B := inMemory) rfl (exec_call hcall) rfl,
      exec_createApplicationTenant hload (exec_call hcall') hpersist]
    refine ⟨rfl, (h.grow hfresh).tenantSaved ?_ hanswers⟩
    apply (h.regular.grow hfresh).setTenant (List.mem_append_left _ hid)
    intro t' ht' hsame happlication hexternal
    exact absurd hexternal (hkey t' ht' hsame happlication)

theorem exec_changed {σ : Type} {B : Backend σ} {op : Registry → Outcome ApplicationTenant}
    {expectedUpdatedAt : JsString} {x x₁ x₂ x₃ : σ}
    (hload : (B.ensureHydrated W).exec x = (.ok (), x₁))
    (hcall : (B.call op).exec x₁ = (.ok t, x₂))
    (hpersist : (B.persistTenant t (some expectedUpdatedAt)).exec x₂ = (.ok (), x₃)) :
    (do
      B.ensureHydrated W
      let tenant ← B.call op
      B.persistTenant tenant (some expectedUpdatedAt)
      return tenant : Method σ StorageError ApplicationTenant).exec x = (.ok t, x₃) := by
  rw [Method.exec_bind_ok hload, Method.exec_bind_ok hcall, Method.exec_bind_ok hpersist]
  rfl

theorem exec_unchanged {σ : Type} {B : Backend σ} {op : Registry → Outcome ApplicationTenant}
    {expectedUpdatedAt : JsString} {x x₁ x₂ : σ} {e : StorageError}
    (hload : (B.ensureHydrated W).exec x = (.ok (), x₁))
    (hcall : (B.call op).exec x₁ = (.error e, x₂)) :
    (do
      B.ensureHydrated W
      let tenant ← B.call op
      B.persistTenant tenant (some expectedUpdatedAt)
      return tenant : Method σ StorageError ApplicationTenant).exec x = (.error e, x₂) := by
  rw [Method.exec_bind_ok hload, Method.exec_bind_error hcall]

/-- A change of a tenant in two registries that find the same tenant. -/
theorem changeTenant_agrees {m : Registry} {applicationId tenantId : JsString}
    (hagrees : r.getTenant W applicationId tenantId = m.getTenant W applicationId tenantId)
    (expectedUpdatedAt : JsString) (change : ApplicationTenant → ApplicationTenant) :
    (∃ e, r.changeTenant d W applicationId tenantId expectedUpdatedAt change = (.error e, r) ∧
      m.changeTenant d W applicationId tenantId expectedUpdatedAt change = (.error e, m)) ∨
    ∃ t, r.getTenant W applicationId tenantId = some t ∧ t.updatedAt = expectedUpdatedAt ∧
      r.changeTenant d W applicationId tenantId expectedUpdatedAt change =
        (.ok { change t with updatedAt := d.now },
          { r with tenants := r.tenants.set { change t with updatedAt := d.now } }) ∧
      m.changeTenant d W applicationId tenantId expectedUpdatedAt change =
        (.ok { change t with updatedAt := d.now },
          { m with tenants := m.tenants.set { change t with updatedAt := d.now } }) := by
  simp only [Registry.changeTenant, Registry.requireTenant, ← hagrees]
  cases r.getTenant W applicationId tenantId with
  | none => exact .inl ⟨_, rfl, rfl⟩
  | some t =>
    by_cases hupdated : t.updatedAt = expectedUpdatedAt
    · refine .inr ⟨t, rfl, hupdated, ?_, ?_⟩
      · simp only [hupdated, ne_eq, not_true_eq_false, if_false]
      · simp only [hupdated, ne_eq, not_true_eq_false, if_false]
    · refine .inl ⟨Database.tenantConflict, ?_, ?_⟩
      · simp only [hupdated, ne_eq, not_false_eq_true, if_true]
        rfl
      · simp only [hupdated, ne_eq, not_false_eq_true, if_true]
        rfl

/-- The commands that change one field of a tenant. -/
theorem sim_changeTenant {applicationId tenantId expectedUpdatedAt : JsString}
    {change : ApplicationTenant → ApplicationTenant} (hchange : ∀ t, Renames t (change t)) :
    Sim (Linked used extra)
      (do
        inMemory.ensureHydrated W
        let tenant ← inMemory.call fun r =>
          r.changeTenant d W applicationId tenantId expectedUpdatedAt change
        inMemory.persistTenant tenant (some expectedUpdatedAt)
        return tenant)
      (do
        (postgres rowId).ensureHydrated W
        let tenant ← (postgres rowId).call fun r =>
          r.changeTenant d W applicationId tenantId expectedUpdatedAt change
        (postgres rowId).persistTenant tenant (some expectedUpdatedAt)
        return tenant)
      (Both Eq (Linked used (· = W))) (Both Eq (Linked used (· = W))) := by
  intro r s₀ h₀
  have h := h₀.hydrate W
  have hload : ((postgres rowId).ensureHydrated W).exec s₀ = (.ok (), s₀.hydrate W) := rfl
  generalize s₀.hydrate W = s at h hload
  obtain ⟨e, hcall, hcall'⟩ | ⟨t, ht, hupdated, hcall, hcall'⟩ := changeTenant_agrees (d := d)
    (getTenant_agrees h.memory (.inr rfl) applicationId tenantId) expectedUpdatedAt change
  · rw [exec_unchanged (B := inMemory) rfl (exec_call hcall),
      exec_unchanged hload (exec_call hcall')]
    exact ⟨rfl, h⟩
  · obtain ⟨hget, hscope⟩ := Option.filter_eq_some_iff.mp ht
    rw [Bool.and_eq_true, beq_iff_eq] at hscope
    have hmem := KeyedMap.mem_of_get hget
    have hr : Renames t { change t with updatedAt := d.now } :=
      ⟨(hchange t).id, (hchange t).workspaceId, (hchange t).applicationId,
        (hchange t).externalTenantKey, (hchange t).createdAt⟩
    generalize { change t with updatedAt := d.now } = t' at hcall hcall' hr
    have htable : s.database.tenants.get t'.id = some t := by
      rw [hr.id]
      exact KeyedMap.get_of_mem (h.tables.tenants t hmem trivial)
    have hexpected : (some expectedUpdatedAt).getD t.updatedAt = t.updatedAt := hupdated.symm
    obtain ⟨answers, hanswers, hpersist⟩ := exec_persistTenant rowId
      (s := { s with memory := { s.memory with tenants := s.memory.tenants.set t' } }) h.executes
      htable hr hexpected
    rw [hr.workspaceId, hscope.1] at hpersist
    rw [exec_changed (B := inMemory) rfl (exec_call hcall) rfl,
      exec_changed hload (exec_call hcall') hpersist]
    refine ⟨rfl, h.tenantSaved ?_ hanswers⟩
    apply h.regular.setTenant (hr.id ▸ h.regular.knownTenants t hmem)
    intro t₀ ht₀ hworkspace happlication hexternal
    rw [hr.id, h.regular.tenantKeys t₀ ht₀ t hmem (hworkspace.trans hr.workspaceId)
      (happlication.trans hr.applicationId) (hexternal.trans hr.externalTenantKey)]

theorem sim_updateApplicationTenant (command : UpdateTenantInput) :
    Sim (Linked used extra) (inMemory.updateApplicationTenant d command)
      ((postgres rowId).updateApplicationTenant d command)
      (Both Eq (Linked used (· = command.workspaceId)))
      (Both Eq (Linked used (· = command.workspaceId))) :=
  sim_changeTenant fun _ => ⟨rfl, rfl, rfl, rfl, rfl⟩

theorem sim_changeTenantStatus (status : TenantStatus)
    (applicationId tenantId expectedUpdatedAt : JsString) :
    Sim (Linked used extra)
      (inMemory.changeTenantStatus d status W applicationId tenantId expectedUpdatedAt)
      ((postgres rowId).changeTenantStatus d status W applicationId tenantId expectedUpdatedAt)
      (Both Eq (Linked used (· = W))) (Both Eq (Linked used (· = W))) :=
  sim_changeTenant fun _ => ⟨rfl, rfl, rfl, rfl, rfl⟩

end TrustCore.AppStorage
