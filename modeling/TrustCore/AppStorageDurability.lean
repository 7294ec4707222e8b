import TrustCore.BindingRefinement

/-!
# Runs of commands and restarts

Every command of `createAppStorageCommandMethods` keeps a process and a fixture linked, and a
restart does. A rollback is the exception: it looks for the version before the current one among
the two newest that the memory has, and the memory has a version once for every time that it was
loaded.
-/

namespace TrustCore.AppStorage

open TrustCore.Utf TrustCore.KeyedMaps TrustCore.Methods

/-! ## The version before the current one -/

section Histories

variable {m : Registry} {id : JsString} {g : Nat} {vs vs' : List HeldVersion}

/-- The newest version of a binding before a generation, if there is one. -/
def Precedes (vs : List HeldVersion) (id : JsString) (g : Nat) : Option HeldVersion → Prop
  | none => ∀ v ∈ vs, v.bindingId = id → g ≤ v.generation
  | some v => v ∈ vs ∧ v.bindingId = id ∧ v.generation < g ∧
    ∀ w ∈ vs, w.bindingId = id → w.generation < g → w.generation ≤ v.generation

/-- Two histories with the same versions, of which no two have one generation. -/
theorem Precedes.unique {o o' : Option HeldVersion} (h : Precedes vs id g o)
    (h' : Precedes vs' id g o') (hsame : ∀ v, v.bindingId = id → (v ∈ vs ↔ v ∈ vs'))
    (hgeneration : ∀ v ∈ vs, ∀ w ∈ vs, v.bindingId = id → w.bindingId = id →
      v.generation = w.generation → v = w) : o = o' := by
  cases o with
  | none =>
    cases o' with
    | none => rfl
    | some v' =>
      obtain ⟨hmem, hid, hold, -⟩ := h'
      have := h v' ((hsame v' hid).mpr hmem) hid
      omega
  | some v =>
    obtain ⟨hmem, hid, hold, hnewest⟩ := h
    cases o' with
    | none =>
      have := h' v ((hsame v hid).mp hmem) hid
      omega
    | some v' =>
      obtain ⟨hmem', hid', hold', hnewest'⟩ := h'
      have hle := hnewest v' ((hsame v' hid').mpr hmem') hid' hold'
      have hge := hnewest' v ((hsame v hid).mp hmem) hid hold
      rw [hgeneration v hmem v' ((hsame v' hid').mpr hmem') hid hid' (by omega)]

/-- The versions of a binding, the newest first. -/
def Registry.history (m : Registry) (id : JsString) : List BindingVersion :=
  (m.versions.filter (·.bindingId == id)).insertionSort fun v w => w.generation ≤ v.generation

theorem mem_history {v : BindingVersion} :
    v ∈ m.history id ↔ v ∈ m.versions ∧ v.bindingId = id := by
  rw [Registry.history, List.mem_insertionSort, List.mem_filter, beq_iff_eq]

theorem history_sorted : (m.history id).Pairwise fun v w => w.generation ≤ v.generation := by
  have htotal : Std.Total fun v w : BindingVersion => w.generation ≤ v.generation :=
    ⟨fun v w => le_total w.generation v.generation⟩
  have htrans : IsTrans BindingVersion fun v w => w.generation ≤ v.generation :=
    ⟨fun _ _ _ h h' => h'.trans h⟩
  exact List.pairwise_insertionSort _ _

theorem countP_history (p : BindingVersion → Bool) :
    (m.history id).countP p = m.versions.countP fun v => v.bindingId == id && p v := by
  rw [Registry.history, (List.perm_insertionSort _ _).countP_eq, List.countP_filter]
  simp only [Bool.and_comm]

/-- The first older version of a sorted list is the newest of them. -/
theorem le_of_find {L : List BindingVersion} {p : BindingVersion → Bool} {v w : BindingVersion}
    (hsorted : L.Pairwise fun v w => w.generation ≤ v.generation) (h : L.find? p = some v)
    (hw : w ∈ L) (hp : p w = true) : w.generation ≤ v.generation := by
  obtain ⟨-, newer, older, rfl, hnewer⟩ := List.find?_eq_some_iff_append.mp h
  obtain hw | hw := List.mem_append.mp hw
  · have := hnewer w hw
    simp only [hp, Bool.not_true, Bool.false_eq_true] at this
  · obtain rfl | hw := List.mem_cons.mp hw
    · exact le_rfl
    · exact List.rel_of_pairwise_cons (List.pairwise_append.mp hsorted).2.1 hw

/-- Two entries are enough when no more than one is of the current generation. -/
theorem find_take_two {L : List BindingVersion} (hbound : ∀ v ∈ L, v.generation ≤ g)
    (hcount : L.countP (fun v => v.generation == g) ≤ 1) :
    (L.take 2).find? (fun v => decide (v.generation < g)) =
      L.find? fun v => decide (v.generation < g) := by
  match L with
  | [] => rfl
  | [v] => rfl
  | v :: w :: L =>
    have hv := hbound v List.mem_cons_self
    have hw := hbound w (List.mem_cons_of_mem _ List.mem_cons_self)
    simp only [List.take_succ_cons, List.take_zero, List.find?_cons, List.find?_nil]
    by_cases hold : v.generation < g
    · simp only [hold, decide_true]
    · have hcurrent : v.generation = g := by omega
      have hne : w.generation ≠ g := by
        intro hsame
        simp only [List.countP_cons, hcurrent, hsame, beq_self_eq_true, if_true] at hcount
        omega
      have hold' : w.generation < g := by omega
      simp only [hold, hold', decide_true, decide_false]

theorem precedes_history (m : Registry) (hbound : ∀ v ∈ m.versions, v.bindingId = id → v.generation ≤ g)
    (hcount : m.versions.countP (fun v => v.bindingId == id && v.generation == g) ≤ 1) :
    Precedes m.holdings.versions id g
      (((m.listBindingHistory id 2).find? fun v => decide (v.generation < g)).map (·.held)) := by
  have hfind : (m.listBindingHistory id 2).find? (fun v => decide (v.generation < g)) =
      (m.history id).find? fun v => decide (v.generation < g) := by
    apply find_take_two
    · intro v hv
      obtain ⟨hv, hid⟩ := mem_history.mp hv
      exact hbound v hv hid
    · exact (countP_history _).trans_le hcount
  rw [hfind]
  cases h : (m.history id).find? fun v => decide (v.generation < g) with
  | none =>
    intro w hw hid
    obtain ⟨v, hv, rfl⟩ := List.mem_map.mp hw
    have hnone := List.find?_eq_none.mp h v (mem_history.mpr ⟨hv, hid⟩)
    rw [decide_eq_true_eq, not_lt] at hnone
    exact hnone
  | some v =>
    obtain ⟨hv, hid⟩ := mem_history.mp (List.mem_of_find?_eq_some h)
    have hold := List.find?_some h
    rw [decide_eq_true_eq] at hold
    refine ⟨List.mem_map_of_mem hv, hid, hold, ?_⟩
    intro w hw hwid hwold
    obtain ⟨v', hv', rfl⟩ := List.mem_map.mp hw
    exact le_of_find history_sorted h (mem_history.mpr ⟨hv', hwid⟩) (decide_eq_true hwold)

/-- What the memory has, once it is loaded, when a rollback finds the version that it looks for:
the current version no more than once, or no version before it. -/
def Registry.rollbackClear (m : Registry) (id : JsString) : Bool :=
  (m.bindings.get id).all fun b =>
    decide ((m.versions.countP fun v => v.bindingId == id && v.generation == b.generation) ≤ 1) ||
      m.versions.all fun v => v.bindingId != id || decide (b.generation ≤ v.generation)

theorem precedes_of_clear {b : StoredStorageBinding} (hb : m.bindings.get id = some b)
    (hbound : ∀ v ∈ m.versions, v.bindingId = id → v.generation ≤ b.generation)
    (hclear : m.rollbackClear id = true) :
    Precedes m.holdings.versions id b.generation
      (((m.listBindingHistory id 2).find? fun v =>
        decide (v.generation < b.generation)).map (·.held)) := by
  rw [Registry.rollbackClear, hb, Option.all_some, Bool.or_eq_true, decide_eq_true_eq] at hclear
  obtain hcount | hnone := hclear
  · exact precedes_history m hbound hcount
  · have hleast : ∀ v ∈ m.versions, v.bindingId = id → b.generation ≤ v.generation := by
      intro v hv hid
      have hv' := List.all_eq_true.mp hnone v hv
      simpa [hid] using hv'
    have hfind : (m.listBindingHistory id 2).find? (fun v =>
        decide (v.generation < b.generation)) = none := by
      rw [List.find?_eq_none]
      intro v hv hold
      obtain ⟨hv, hid⟩ := mem_history.mp (List.mem_of_mem_take hv)
      have := hleast v hv hid
      rw [decide_eq_true_eq] at hold
      omega
    rw [hfind]
    intro w hw hid
    obtain ⟨v, hv, rfl⟩ := List.mem_map.mp hw
    exact hleast v hv hid

end Histories

/-! ## Rollbacks -/

section Rollback

variable {r r' : Registry} {s : Durable} {used : List JsString} {W id rowId actorId : JsString}
  {extra : JsString → Prop} {b : StoredStorageBinding} {p : StoredStorageProfile} {d : Draw}
  {options : CommandOptions}

theorem Regular.countP_current (h : Regular r used) (id : JsString) (g : Nat) :
    r.versions.countP (fun v => v.bindingId == id && v.generation == g) ≤ 1 := by
  have hincreasing := h.increasing
  simp only [Registry.holdings, List.pairwise_map] at hincreasing
  generalize r.versions = vs at hincreasing
  induction vs with
  | nil => simp
  | cons v vs ih =>
    obtain ⟨hfirst, hrest⟩ := List.pairwise_cons.mp hincreasing
    rw [List.countP_cons]
    split
    · rename_i hv
      simp only [Bool.and_eq_true, beq_iff_eq] at hv
      have hnone : vs.countP (fun v => v.bindingId == id && v.generation == g) = 0 := by
        rw [List.countP_eq_zero]
        intro w hw hsame
        simp only [Bool.and_eq_true, beq_iff_eq] at hsame
        have hlt : v.generation < w.generation := hfirst w hw (hv.1.trans hsame.1.symm)
        omega
      omega
    · have := ih hrest
      omega

theorem Regular.generations (h : Regular r used) {v w : HeldVersion} (hv : v ∈ r.holdings.versions)
    (hw : w ∈ r.holdings.versions) (hid : v.bindingId = w.bindingId)
    (hsame : v.generation = w.generation) : v = w := by
  obtain ⟨i, hi, rfl⟩ := List.mem_iff_getElem.mp hv
  obtain ⟨j, hj, rfl⟩ := List.mem_iff_getElem.mp hw
  have hincreasing := List.pairwise_iff_getElem.mp h.increasing
  obtain hlt | rfl | hlt := lt_trichotomy i j
  · have := hincreasing i j hi hj hlt hid
    omega
  · rfl
  · have := hincreasing j i hj hi hlt hid.symm
    omega

/-- Both registries find the same version before the current one. -/
theorem previous_agrees (h : Linked used (· = W) r s) (hb : r.bindings.get id = some b)
    (hW : b.workspaceId = W) (hclear : s.memory.rollbackClear id = true) :
    ((r.listBindingHistory id 2).find? fun v => decide (v.generation < b.generation)).map (·.held) =
      ((s.memory.listBindingHistory id 2).find? fun v =>
        decide (v.generation < b.generation)).map (·.held) := by
  have hmem := KeyedMap.mem_of_get hb
  have hid : b.id = id := KeyedMap.key_of_get hb
  have hbm : s.memory.bindings.get id = some b :=
    KeyedMap.get_eq_some.mpr ⟨h.memory.bindings b hmem (.inr hW), hid⟩
  have hbound : ∀ v ∈ r.holdings.versions, v.bindingId = id → v.generation ≤ b.generation :=
    fun v hv hv' => (h.regular.bounded b hmem v hv (hv'.trans hid.symm)).2
  have hfixture := precedes_history r (fun v hv => hbound v.held (List.mem_map_of_mem hv))
    (h.regular.countP_current id b.generation)
  have hmemory := precedes_of_clear hbm
    (fun v hv => hbound v.held (h.memory.versions_known _ (List.mem_map_of_mem hv))) hclear
  apply hfixture.unique hmemory
  · intro v hv
    exact ⟨fun hfound => h.memory.versions b hmem (.inr hW) v hfound (hv.trans hid.symm),
      h.memory.versions_known v⟩
  · intro v hv w hw hvid hwid
    exact h.regular.generations hv hw (hvid.trans hwid.symm)

theorem rollbackBinding_refused (hb : r.bindings.get id = some b)
    (hnone : (r.listBindingHistory id 2).find? (fun v => decide (v.generation < b.generation)) =
      none) :
    r.rollbackBinding d id actorId = (.error ⟨none, js "No previous binding version"⟩, r) := by
  simp only [Registry.rollbackBinding, Registry.withBinding, hb, hnone]

theorem sim_rollbackStorageBinding (hactor : actorId ≠ []) :
    Sim (fun r s => Linked used extra r s ∧ (s.hydrate W).memory.rollbackClear id = true)
      (inMemory.rollbackStorageBinding d actorId id W)
      ((postgres rowId).rollbackStorageBinding d actorId id W)
      (Both Eq (Linked used (· = W))) (Both Eq (Linked used (· = W))) := by
  have hroll (b₀ : StoredStorageBinding) :
      Sim (fun r s => r.bindings.get id = some b₀ ∧ Ready used W id r s ∧
          s.memory.rollbackClear id = true)
        (do
          let summary ← inMemory.call fun r => r.rollbackBinding d id actorId
          inMemory.persistBinding id actorId
          inMemory.published StorageBindingSummary.text summary)
        (do
          let summary ← (postgres rowId).call fun r => r.rollbackBinding d id actorId
          (postgres rowId).persistBinding id actorId
          (postgres rowId).published StorageBindingSummary.text summary)
        (Both Eq (Linked used (· = W))) (Both Eq (Linked used (· = W))) := by
    rintro r s ⟨-, ⟨h, b, hb, hW⟩, hclear⟩
    obtain ⟨p, q, row, c⟩ := h.copies hb hW
    have hprevious := previous_agrees h hb hW hclear
    cases hfixture : (r.listBindingHistory id 2).find? fun v =>
        decide (v.generation < b.generation) with
    | none =>
      rw [hfixture, Option.map_none, eq_comm, Option.map_eq_none_iff] at hprevious
      exact ends_refused (rollbackBinding_refused hb hfixture)
        (rollbackBinding_refused c.memory hprevious) h
    | some v =>
      rw [hfixture, Option.map_some, eq_comm, Option.map_eq_some_iff] at hprevious
      obtain ⟨v', hmemory, hheld⟩ := hprevious
      have hsnapshot : v'.snapshot = v.snapshot := congrArg HeldVersion.snapshot hheld
      have hworkspace : q.workspaceId = p.workspaceId :=
        congrArg HeldProfile.workspaceId c.memoryHeld
      have hsummary : (q.rolledBack d v'.snapshot.profile).toStorageProfileSummary =
          (p.rolledBack d v.snapshot.profile).toStorageProfileSummary := by
        simp only [StoredStorageProfile.rolledBack, c.summary, hsnapshot]
      have hsame : (q.rolledBack d v'.snapshot.profile).held =
          (p.rolledBack d v.snapshot.profile).held := by
        simp only [StoredStorageProfile.held, hsummary]
        simp only [StoredStorageProfile.rolledBack, hworkspace]
      have hcall : r.rollbackBinding d id actorId = _ :=
        rollbackBinding_eq hb c.fixtureProfile hfixture
      have hcall' : s.memory.rollbackBinding d id actorId = _ :=
        rollbackBinding_eq c.memory c.memoryProfile hmemory
      have hid : (p.rolledBack d v.snapshot.profile).id = p.id := rfl
      obtain ⟨s', hpersist, hlinked⟩ := h.versioned rowId c hW (updates_rolledBack b d)
        (Nat.lt_succ_self _) hid rfl hsame hactor d.versionId
      rw [hsummary] at hcall' hpersist
      exact ends_saved hcall hcall' rfl hpersist rfl rfl hlinked
  intro r s h
  exact sim_withBinding (F := fun _ s => (s.hydrate W).memory.rollbackClear id = true)
    (fun _ _ _ h => h) hroll r s h

/-! ## Cutovers -/

/-- No command of a caller makes a binding migrate. -/
theorem cutoverMigrate_of_still {input : CutoverInput} {source target : StoredStorageBinding}
    (hs : r.bindings.get input.sourceBindingId = some source)
    (ht : r.bindings.get input.targetBindingId = some target)
    (hstill : source.status ≠ .migrating) :
    r.cutoverMigrate d input = (.error ⟨none, js "Source binding is not migrating"⟩, r) := by
  simp only [Registry.cutoverMigrate, hs, ht, if_pos hstill]

/-- A cutover once both bindings are found. -/
def cutover {σ : Type} (B : Backend σ) (d : Draw) (actorId : JsString)
    (command : CutoverStorageMigrateCommand) : Method σ StorageError StorageBindingSummary :=
  tryCatch
    (do
      let summary ← B.call fun r => r.cutoverMigrate d
        ⟨command.sourceBindingId, command.targetBindingId, command.objectDigests, actorId⟩
      B.persistStickyCutover command.workspaceId command.targetBindingId summary.generation
        (command.objectDigests.map (·.objectId))
      B.persistBindingState command.sourceBindingId
      B.persistBinding command.targetBindingId actorId
      B.published StorageBindingSummary.text summary)
    fun e => throw e.coded

theorem sim_cutoverStorageMigrate (command : CutoverStorageMigrateCommand) :
    Sim (Linked used extra) (inMemory.cutoverStorageMigrate d actorId command)
      ((postgres rowId).cutoverStorageMigrate d actorId command)
      (Both Eq (Linked used (· = command.workspaceId)))
      (Both Eq (Linked used (· = command.workspaceId))) := by
  have hcutover (target : StoredStorageBinding) :
      Sim (fun r s => r.bindings.get command.targetBindingId = some target ∧
          Ready used command.workspaceId command.targetBindingId r s ∧
          ∃ source, r.bindings.get command.sourceBindingId = some source ∧
            source.workspaceId = command.workspaceId)
        (cutover inMemory d actorId command) (cutover (postgres rowId) d actorId command)
        (Both Eq (Linked used (· = command.workspaceId)))
        (Both Eq (Linked used (· = command.workspaceId))) := by
    unfold cutover
    refine Sim.tryCatch (F := Both Eq (Linked used (· = command.workspaceId))) ?_ ?_
    · rintro r s ⟨ht, ⟨h, target', htarget, hWt⟩, source, hs, hW⟩
      obtain rfl : target' = target := Option.some_inj.mp (htarget.symm.trans ht)
      have hmem := KeyedMap.mem_of_get hs
      have hs' := KeyedMap.get_eq_some.mpr
        ⟨h.memory.bindings source hmem (.inr hW), KeyedMap.key_of_get hs⟩
      have hstill := h.regular.still source hmem
      have ht' := KeyedMap.get_eq_some.mpr
        ⟨h.memory.bindings target' (KeyedMap.mem_of_get ht) (.inr hWt), KeyedMap.key_of_get ht⟩
      exact ends_refused (cutoverMigrate_of_still hs ht hstill)
        (cutoverMigrate_of_still hs' ht' hstill) h
    · intro e e'
      apply Sim.throw
      rintro r s ⟨rfl, h⟩
      exact ⟨rfl, h⟩
  have htarget (source : StoredStorageBinding) :
      Sim (fun r s => r.bindings.get command.sourceBindingId = some source ∧
          Ready used command.workspaceId command.sourceBindingId r s ∧ True)
        (do
          let _ ← inMemory.requireWorkspaceBinding command.targetBindingId command.workspaceId
          cutover inMemory d actorId command)
        (do
          let _ ← (postgres rowId).requireWorkspaceBinding command.targetBindingId
            command.workspaceId
          cutover (postgres rowId) d actorId command)
        (Both Eq (Linked used (· = command.workspaceId)))
        (Both Eq (Linked used (· = command.workspaceId))) := by
    rintro r s ⟨-, ⟨h, source, hs, hW⟩, -⟩
    exact sim_withBinding (fun _ _ _ h => h) hcutover r s ⟨h, source, hs, hW⟩
  intro r s h
  exact sim_withBinding (fun _ _ _ h => h) htarget r s ⟨h, trivial⟩

end Rollback

/-! ## Every command -/

section Commands

variable {α : Type} {R : α → α → Prop} {P : Registry → Durable → Prop} {r : Registry} {s : Durable}
  {used : List JsString} {W rowId : JsString} {extra : JsString → Prop} {d : Draw}
  {options : CommandOptions}

/-- Linked, with nothing in the memory but what the marks stand for. -/
abbrev Settled (used : List JsString) : Registry → Durable → Prop := Linked used fun _ => False

/-- What both sides are at when a command starts. -/
def Admits (r : Registry) (s : Durable) : AppStorageCommand → Prop
  | .getStorageBindingRollup workspaceId applications _ => RollupClear r workspaceId applications
  | .upsertStorageBinding actorId _ => actorId ≠ []
  | .rollbackStorageBinding actorId bindingId workspaceId =>
    actorId ≠ [] ∧ (s.hydrate workspaceId).memory.rollbackClear bindingId = true
  | _ => True

theorem Linked.settled (h : Linked used extra r s) : Settled used r s :=
  h.mono fun _ hw => hw.elim

def SameReply (a a' : Reply) : Prop := a.observed = a'.observed

theorem same_of_eq {f : α → Reply} (a a' : α) (h : a = a') : SameReply (f a) (f a') :=
  congrArg (fun a => (f a).observed) h

theorem sim_reply {m : Method Registry StorageError α} {n : Method Durable StorageError α}
    {f : α → Reply} (hf : ∀ a a', R a a' → SameReply (f a) (f a'))
    (h : Sim P m n (Both R (Linked used extra)) (Both Eq (Linked used extra))) :
    Sim P (do return f (← m)) (do return f (← n)) (Both SameReply (Settled used))
      (Both Eq (Settled used)) := by
  have hsettled : Sim P m n (Both R (Settled used)) (Both Eq (Settled used)) :=
    h.conseq (fun _ _ h => h) (fun _ _ _ _ h => ⟨h.1, h.2.settled⟩)
      fun _ _ _ _ h => ⟨h.1, h.2.settled⟩
  refine hsettled.bind fun a a' => Sim.pure ?_
  rintro r s ⟨hR, hlinked⟩
  exact ⟨hf a a' hR, hlinked⟩

/-- A command that draws no ids. -/
theorem sim_reply_grow {m : Method Registry StorageError α} {n : Method Durable StorageError α}
    {f : α → Reply} (hfresh : d.Fresh used) (hf : ∀ a a', R a a' → SameReply (f a) (f a'))
    (h : Sim P m n (Both R (Linked used extra)) (Both Eq (Linked used extra))) :
    Sim P (do return f (← m)) (do return f (← n)) (Both SameReply (Settled (d.ids ++ used)))
      (Both Eq (Settled (d.ids ++ used))) :=
  (sim_reply hf h).conseq (fun _ _ h => h) (fun _ _ _ _ h => ⟨h.1, h.2.grow hfresh⟩)
    fun _ _ _ _ h => ⟨h.1, h.2.grow hfresh⟩

theorem sim_perform (rowId : JsString) (options : CommandOptions) (hfresh : d.Fresh used)
    (command : AppStorageCommand) :
    Sim (fun r s => Settled used r s ∧ Admits r s command) (inMemory.perform options d command)
      ((postgres rowId).perform options d command) (Both SameReply (Settled (d.ids ++ used)))
      (Both Eq (Settled (d.ids ++ used))) := by
  have hsettled {Q : Reply → Reply → Registry → Durable → Prop}
      {E : StorageError → StorageError → Registry → Durable → Prop}
      {m : Method Registry StorageError Reply} {n : Method Durable StorageError Reply}
      (h : Sim (Settled used) m n Q E) :
      Sim (fun r s => Settled used r s ∧ Admits r s command) m n Q E :=
    h.conseq (fun _ _ h => h.1) (fun _ _ _ _ h => h) fun _ _ _ _ h => h
  cases command with
  | listApplicationTenants workspaceId applicationId =>
    refine hsettled (sim_reply_grow hfresh ?_ (sim_listApplicationTenants applicationId))
    intro items items' hperm
    exact congrArg Observation.tenants (Multiset.coe_eq_coe.mpr hperm)
  | getApplicationTenant workspaceId applicationId tenantId =>
    exact hsettled (sim_reply_grow hfresh same_of_eq (sim_getApplicationTenant applicationId tenantId))
  | createApplicationTenant command =>
    exact hsettled (sim_reply same_of_eq (sim_createApplicationTenant command hfresh))
  | updateApplicationTenant command =>
    exact hsettled (sim_reply_grow hfresh same_of_eq (sim_updateApplicationTenant command))
  | suspendApplicationTenant workspaceId applicationId tenantId expectedUpdatedAt =>
    exact hsettled (sim_reply_grow hfresh same_of_eq
      (sim_changeTenantStatus .suspended applicationId tenantId expectedUpdatedAt))
  | closeApplicationTenant workspaceId applicationId tenantId expectedUpdatedAt =>
    exact hsettled (sim_reply_grow hfresh same_of_eq
      (sim_changeTenantStatus .closed applicationId tenantId expectedUpdatedAt))
  | getEffectiveStorage workspaceId applicationId applicationTenantId =>
    exact hsettled (sim_reply_grow hfresh same_of_eq
      (sim_getEffectiveStorage applicationId applicationTenantId))
  | getStorageBindingRollup workspaceId applications platform =>
    refine sim_reply_grow hfresh ?_ (sim_getStorageBindingRollup applications platform)
    intro rollup rollup' hsame
    exact congrArg Observation.rollup hsame.1
  | listStorageBindings workspaceId applicationId applicationTenantId =>
    refine hsettled (sim_reply_grow hfresh ?_
      (sim_listStorageBindings applicationId applicationTenantId))
    intro items items' hperm
    exact congrArg Observation.bindings (Multiset.coe_eq_coe.mpr hperm)
  | getStorageBinding workspaceId bindingId =>
    exact hsettled (sim_reply_grow hfresh same_of_eq sim_getStorageBinding)
  | upsertStorageBinding actorId command =>
    rintro r s ⟨hlinked, hactor⟩
    have hsame (u u' : UpsertResult) (h : SameUpsert u u') :
        SameReply (.upserted u) (.upserted u') := congrArg₂ Observation.upserted h.1 h.2
    exact sim_reply hsame (sim_upsertStorageBinding hfresh hactor) r s hlinked
  | deleteStorageBinding bindingId workspaceId force =>
    exact hsettled (sim_reply_grow hfresh same_of_eq (sim_deleteStorageBinding force))
  | probeStorageBinding command =>
    exact hsettled (sim_reply_grow hfresh same_of_eq (sim_probeStorageBinding command))
  | refreshStoragePlan command =>
    exact hsettled (sim_reply_grow hfresh same_of_eq (sim_refreshStoragePlan command))
  | acceptStoragePlan command =>
    exact hsettled (sim_reply_grow hfresh same_of_eq (sim_acceptStoragePlan command))
  | disableStorageBinding bindingId workspaceId =>
    exact hsettled (sim_reply_grow hfresh same_of_eq sim_disableStorageBinding)
  | rollbackStorageBinding actorId bindingId workspaceId =>
    rintro r s ⟨hlinked, hactor, hclear⟩
    exact sim_reply_grow hfresh same_of_eq (sim_rollbackStorageBinding hactor) r s
      ⟨hlinked, hclear⟩
  | cutoverStorageMigrate actorId command =>
    exact hsettled (sim_reply_grow hfresh same_of_eq (sim_cutoverStorageMigrate command))
  | resolveStorageRoute context =>
    exact hsettled (sim_reply_grow hfresh (fun _ _ hsame => hsame)
      (sim_resolveStorageRoute context))

end Commands

/-! ## Runs -/

/-- A command with what it draws; `rowId` is the id of a version that the process saves. -/
structure Call where
  options : CommandOptions
  draw : Draw
  rowId : JsString
  command : AppStorageCommand

inductive Event where
  | call (call : Call)
  | restart

/-- The replies of `InMemoryAppStorageRegistry`, which does not restart. -/
def fixtureReplies : Registry → List Event → List (Except StorageError Reply)
  | _, [] => []
  | r, .restart :: events => fixtureReplies r events
  | r, .call c :: events =>
    let out := (inMemory.perform c.options c.draw c.command).exec r
    out.1 :: fixtureReplies out.2 events

/-- The replies of `PostgresAppStorageRegistry`; a new process has the tables and no more. -/
def processReplies : Durable → List Event → List (Except StorageError Reply)
  | _, [] => []
  | s, .restart :: events => processReplies (.fresh s.database) events
  | s, .call c :: events =>
    let out := ((postgres c.rowId).perform c.options c.draw c.command).exec s
    out.1 :: processReplies out.2 events

/-- Every call of a run draws new ids, and is admitted where it starts. -/
def Admitted : List JsString → Registry → Durable → List Event → Prop
  | _, _, _, [] => True
  | used, r, s, .restart :: events => Admitted used r (.fresh s.database) events
  | used, r, s, .call c :: events =>
    c.draw.Fresh used ∧ Admits r s c.command ∧
      Admitted (c.draw.ids ++ used) ((inMemory.perform c.options c.draw c.command).exec r).2
        (((postgres c.rowId).perform c.options c.draw c.command).exec s).2 events

def observed (reply : Except StorageError Reply) : Except StorageError Observation :=
  reply.map Reply.observed

theorem observed_of_ends {P : Registry → Durable → Prop} {x : Except StorageError Reply × Registry}
    {y : Except StorageError Reply × Durable} (h : Ends (Both SameReply P) (Both Eq P) x y) :
    observed x.1 = observed y.1 ∧ P x.2 y.2 := by
  obtain ⟨x, r⟩ := x
  obtain ⟨y, s⟩ := y
  cases x with
  | ok a =>
    cases y with
    | ok b => exact ⟨congrArg Except.ok h.1, h.2⟩
    | error e => exact h.elim
  | error e =>
    cases y with
    | ok b => exact h.elim
    | error e' => exact ⟨congrArg Except.error h.1, h.2⟩

theorem Settled.empty : Settled [] .empty (.fresh .empty) where
  regular := Regular.empty
  tables := Mirrors.refl _
  memory := Mirrors.unloaded fun _ h => h.elim (Finset.notMem_empty _) id
  noRoutes := rfl
  noAssume := rfl
  noRows := rfl
  executes := fun _ ha => absurd ha List.not_mem_nil

theorem replies_of_settled {used : List JsString} {r : Registry} {s : Durable}
    {events : List Event} (hsettled : Settled used r s) (h : Admitted used r s events) :
    (fixtureReplies r events).map observed = (processReplies s events).map observed := by
  induction events generalizing used r s with
  | nil => rfl
  | cons event events ih =>
    cases event with
    | restart => exact ih hsettled.restart h
    | call c =>
      obtain ⟨hfresh, hadmits, hrest⟩ := h
      obtain ⟨hreply, hnext⟩ := observed_of_ends
        (sim_perform c.rowId c.options hfresh c.command r s ⟨hsettled, hadmits⟩)
      exact congrArg₂ List.cons hreply (ih hnext hrest)

/-- A process that restarts at any time answers as a fixture that never does. -/
theorem restarts_unobserved (events : List Event)
    (h : Admitted [] .empty (.fresh .empty) events) :
    (fixtureReplies .empty events).map observed =
      (processReplies (.fresh .empty) events).map observed :=
  replies_of_settled .empty h

section Example

def sampleCall (n : Nat) (command : AppStorageCommand) : Event :=
  .call ⟨⟨true, none⟩, sampleDraw n, [6, .ofNat n], command⟩

def sampleUpdates : List Event :=
  [sampleCall 0 (.upsertStorageBinding (js "actor") (sampleUpsert none)),
    sampleCall 1 (.upsertStorageBinding (js "actor") (sampleUpsert none))]

def sampleRollback : Event :=
  sampleCall 2 (.rollbackStorageBinding (js "actor") [4, 0] sampleWorkspace)

/-- The process has loaded the second version over its own copy of it. -/
theorem rollback_unversioned :
    (fixtureReplies .empty (sampleUpdates ++ [sampleRollback])).map Except.isOk =
      [true, true, true] ∧
    (processReplies (.fresh .empty) (sampleUpdates ++ [sampleRollback])).map Except.isOk =
      [true, true, false] := by
  decide +kernel

/-- With a restart before the rollback both sides go back. -/
theorem restarts_unobserved_rollback :
    (fixtureReplies .empty (sampleUpdates ++ [.restart, sampleRollback])).map observed =
      (processReplies (.fresh .empty) (sampleUpdates ++ [.restart, sampleRollback])).map
        observed := by
  apply restarts_unobserved
  have hactor : js "actor" ≠ [] := by decide
  refine ⟨by decide, hactor, by decide, hactor, by decide, ⟨hactor, ?_⟩, trivial⟩
  decide +kernel

end Example

end TrustCore.AppStorage
