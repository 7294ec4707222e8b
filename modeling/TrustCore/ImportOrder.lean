import TrustCore.ImportExecutor

/-!
# The order of import effects

What the stored checkpoint says has happened: every checkpoint past the first
stands for an effect that some executor has seen return. An executor's own copy
of the operation says no more than the store did when it was read, and effects
are never undone, so what it stands for stays true whatever the others do.
-/

namespace TrustCore.ImportExecutor

open TrustCore.Utf TrustCore.ArchiveFormat TrustCore.ImportPlan TrustCore.Programs TrustCore.Runs

/-- What the executors have done to the target, in order. -/
inductive Effect (ι : Type) where
  | started (executor : ι) (c : TargetCall)
  | returned (executor : ι) (c : TargetCall) (answer : c.Answer)

/-- The table of operations, and the effects so far. -/
structure ImportState (ι : Type) where
  rows : List ImportOperationRow
  effects : List (Effect ι)

section

variable {ι : Type} (workspaceId : JsString) (plan : ArchiveImportPlan)

/-- One statement: the store is as modelled, or the statement is refused with
nothing done. What the target answers is left open. -/
def Performs (i : ι) (s : ImportState ι) : (st : Stmt) → st.Result → ImportState ι → Prop
  | .now, _, s' => s' = s
  | .begin request input, answer, s' =>
    (∃ operation rows, begin s.rows workspaceId request input = .ok (operation, rows) ∧
      answer = .ok operation ∧ s' = { s with rows }) ∨ ∃ e, answer = .error e ∧ s' = s
  | .advance input, answer, s' =>
    (∃ operation rows, advance s.rows workspaceId input = .ok (operation, rows) ∧
      answer = .ok operation ∧ s' = { s with rows }) ∨ ∃ e, answer = .error e ∧ s' = s
  | .afterCheckpoint _ _, _, s' => s' = s
  | .call c, _, s' => s' = { s with effects := s.effects ++ [.started i c] }
  | .settle c, answer, s' =>
    (∃ a, answer = .ok a ∧ s' = { s with effects := s.effects ++ [.returned i c a] }) ∨
      ∃ e, answer = .error e ∧ s' = s

def importSystem : System ι (ImportState ι) Unit Stmt Stmt.Result where
  start := ()
  exec i s _ st answer s' _ := Performs workspaceId i s st answer s'
  compatible _ _ := True

/-- Some executor runs the plan, with any archive, principal and request. -/
def Executes (p : ImportProg ArchiveImportExecutionResult) : Prop :=
  ∃ fuel input, input.plan = plan ∧ p = execute fuel input

/-- The plan has no operation yet and nothing has been done for it. -/
def Fresh (s : ImportState ι) : Prop :=
  (∀ row ∈ s.rows, ofPlan workspaceId plan.planId row = false) ∧ s.effects = []

/-- Any number of executors of one plan. -/
def importMachine [DecidableEq ι] : Machine
    (World ι (ImportState ι) Unit Stmt Stmt.Result ImportError ArchiveImportExecutionResult)
    (Event ι Stmt Stmt.Result ImportError ArchiveImportExecutionResult) :=
  (importSystem workspaceId).machine (Executes plan) (Fresh workspaceId plan)

def storedCheckpoint (s : ImportState ι) : Option ArchiveImportCheckpoint :=
  (s.rows.find? (ofPlan workspaceId plan.planId)).map (·.checkpoint)

/-- Nothing changes, the operation begins, or its checkpoint moves to the next one. -/
def Moves (old new : Option ArchiveImportCheckpoint) : Prop :=
  new = old ∨ (old = none ∧ new = some .authorised) ∨
    ∃ c c', old = some c ∧ new = some c' ∧ nextImportCheckpoint c = some c'

def Revalidated (effects : List (Effect ι)) : Prop :=
  ∃ i, .returned i (.revalidate plan) [] ∈ effects

/-- One executor has committed the bytes of every blob that the plan inserts. -/
def BlobsCommitted (effects : List (Effect ι)) : Prop :=
  ∃ i, ∀ action ∈ blobActions plan,
    .returned i (.commitBlob (operationIdOf workspaceId plan.planId) action.sourceId) () ∈ effects

def MetadataCommitted (effects : List (Effect ι)) : Prop :=
  ∃ i, .returned i (.commitMetadata (operationIdOf workspaceId plan.planId) plan
    (metadataActions plan)) () ∈ effects

def AuditAppended (effects : List (Effect ι)) : Prop :=
  ∃ i requestedBy occurredAt lineage, .returned i
    (.appendAudit (operationIdOf workspaceId plan.planId) plan requestedBy occurredAt lineage) () ∈
      effects

/-- What has returned before a call of the target may start. -/
def StartsAfter (effects : List (Effect ι)) : TargetCall → Prop
  | .revalidate _ => True
  | .verifyStagedBlob _ _ _ => True
  | .stageBlob _ _ _ => Revalidated plan effects
  | .commitBlob _ _ => Revalidated plan effects
  | .commitMetadata _ _ _ => Revalidated plan effects ∧ BlobsCommitted workspaceId plan effects
  | .appendAudit _ _ _ _ _ => Revalidated plan effects ∧ MetadataCommitted workspaceId plan effects

/-- Every call that has started did so after what it needs. -/
def InOrder (effects : List (Effect ι)) : Prop :=
  ∀ before i c after, effects = before ++ .started i c :: after →
    StartsAfter workspaceId plan before c

/-- What a checkpoint stands for. -/
structure Facts (checkpoint : ArchiveImportCheckpoint) (effects : List (Effect ι)) : Prop where
  revalidated : 1 ≤ archiveImportCheckpoints.idxOf checkpoint → Revalidated plan effects
  blobs : 4 ≤ archiveImportCheckpoints.idxOf checkpoint → BlobsCommitted workspaceId plan effects
  metadata : 5 ≤ archiveImportCheckpoints.idxOf checkpoint →
    MetadataCommitted workspaceId plan effects
  audit : 6 ≤ archiveImportCheckpoints.idxOf checkpoint → AuditAppended workspaceId plan effects

/-- The operation of the plan, as it is stored or as an executor holds it. -/
structure Known (operation : ArchiveImportOperation) (effects : List (Effect ι)) : Prop where
  id : operation.id = operationIdOf workspaceId plan.planId
  planId : operation.planId = plan.planId
  facts : Facts workspaceId plan operation.checkpoint effects

structure Consistent (s : ImportState ι) : Prop where
  stored : ∀ row ∈ s.rows, ofPlan workspaceId plan.planId row = true →
    Known workspaceId plan (mapOperation row) s.effects
  order : InOrder workspaceId plan s.effects

/-- Effects are only added. -/
def importSpec : Spec ι (ImportState ι) Unit where
  inv := Consistent workspaceId plan
  guar _ s _ s' := s.effects <+: s'.effects
  failed _ _ := True

end

section Monotone

variable {ι : Type} {workspaceId : JsString} {plan : ArchiveImportPlan}
  {effects effects' : List (Effect ι)}

/-- A property of the effects so far that later effects cannot undo. -/
def Lasting (P : List (Effect ι) → Prop) : Prop :=
  ∀ effects effects', effects <+: effects' → P effects → P effects'

theorem Revalidated.lasting : @Lasting ι (Revalidated plan) :=
  fun _ _ hp ⟨i, h⟩ => ⟨i, hp.subset h⟩

theorem BlobsCommitted.lasting : @Lasting ι (BlobsCommitted workspaceId plan) :=
  fun _ _ hp ⟨i, h⟩ => ⟨i, fun action ha => hp.subset (h action ha)⟩

theorem MetadataCommitted.lasting : @Lasting ι (MetadataCommitted workspaceId plan) :=
  fun _ _ hp ⟨i, h⟩ => ⟨i, hp.subset h⟩

theorem AuditAppended.lasting : @Lasting ι (AuditAppended workspaceId plan) :=
  fun _ _ hp ⟨i, requestedBy, occurredAt, lineage, h⟩ =>
    ⟨i, requestedBy, occurredAt, lineage, hp.subset h⟩

theorem Facts.lasting (c : ArchiveImportCheckpoint) :
    @Lasting ι (Facts workspaceId plan c) := by
  intro effects effects' hp h
  constructor
  · exact fun hc => Revalidated.lasting _ _ hp (h.revalidated hc)
  · exact fun hc => BlobsCommitted.lasting _ _ hp (h.blobs hc)
  · exact fun hc => MetadataCommitted.lasting _ _ hp (h.metadata hc)
  · exact fun hc => AuditAppended.lasting _ _ hp (h.audit hc)

theorem Known.lasting (operation : ArchiveImportOperation) :
    @Lasting ι (Known workspaceId plan operation) :=
  fun _ _ hp h => ⟨h.id, h.planId, Facts.lasting _ _ _ hp h.facts⟩

theorem Lasting.and {P Q : List (Effect ι) → Prop} (hP : Lasting P) (hQ : Lasting Q) :
    Lasting (fun effects => P effects ∧ Q effects) :=
  fun _ _ hp h => ⟨hP _ _ hp h.1, hQ _ _ hp h.2⟩

theorem lasting_mem (e : Effect ι) : Lasting (fun effects => e ∈ effects) :=
  fun _ _ hp h => hp.subset h

/-- Adding an effect keeps what the stored operation stands for; a call that
starts has to be in order. -/
theorem Consistent.append {s : ImportState ι} (h : Consistent workspaceId plan s) (e : Effect ι)
    (he : ∀ i c, e = .started i c → StartsAfter workspaceId plan s.effects c) :
    Consistent workspaceId plan { s with effects := s.effects ++ [e] } := by
  constructor
  · intro row hrow hplan
    exact Known.lasting _ _ _ (List.prefix_append _ _) (h.stored row hrow hplan)
  · intro before i c after heq
    rcases List.eq_nil_or_concat after with rfl | ⟨after', last, rfl⟩
    · have hlast : s.effects ++ [e] = before ++ [.started i c] := heq
      obtain ⟨hb, he'⟩ := List.append_inj' hlast rfl
      rw [← hb]
      exact he i c (List.singleton_inj.mp he')
    · have hlast : s.effects ++ [e] = (before ++ .started i c :: after') ++ [last] := by
        simpa using heq
      obtain ⟨hb, -⟩ := List.append_inj' hlast rfl
      exact h.order before i c after' hb

end Monotone

section Levels

variable {ι : Type} {workspaceId : JsString} {plan : ArchiveImportPlan}
  {effects : List (Effect ι)}

theorem facts_authorised : Facts workspaceId plan .authorised effects := by
  constructor <;> exact fun h => absurd h (by decide)

theorem facts_targetRevalidated (h : Revalidated plan effects) :
    Facts workspaceId plan .targetRevalidated effects :=
  ⟨fun _ => h, fun hc => absurd hc (by decide), fun hc => absurd hc (by decide),
    fun hc => absurd hc (by decide)⟩

theorem facts_immutableBlobsCommitted (hr : Revalidated plan effects)
    (hb : BlobsCommitted workspaceId plan effects) :
    Facts workspaceId plan .immutableBlobsCommitted effects :=
  ⟨fun _ => hr, fun _ => hb, fun hc => absurd hc (by decide), fun hc => absurd hc (by decide)⟩

theorem facts_metadataCommitted (hr : Revalidated plan effects)
    (hb : BlobsCommitted workspaceId plan effects)
    (hm : MetadataCommitted workspaceId plan effects) :
    Facts workspaceId plan .metadataCommitted effects :=
  ⟨fun _ => hr, fun _ => hb, fun _ => hm, fun hc => absurd hc (by decide)⟩

/-- A checkpoint that stands for no effect of its own. -/
theorem Facts.same {c c' : ArchiveImportCheckpoint} (h : Facts workspaceId plan c effects)
    (hc : ∀ n ∈ [1, 4, 5, 6], n ≤ archiveImportCheckpoints.idxOf c' →
      n ≤ archiveImportCheckpoints.idxOf c) : Facts workspaceId plan c' effects := by
  constructor
  · exact fun hn => h.revalidated (hc 1 (by decide) hn)
  · exact fun hn => h.blobs (hc 4 (by decide) hn)
  · exact fun hn => h.metadata (hc 5 (by decide) hn)
  · exact fun hn => h.audit (hc 6 (by decide) hn)

end Levels

section Store

variable {ι : Type} {workspaceId : JsString} {plan : ArchiveImportPlan}

theorem moveRow_keeps (workspaceId : JsString) (input : AdvanceInput) (row : ImportOperationRow) :
    (moveRow workspaceId input row).id = row.id ∧
      (moveRow workspaceId input row).workspaceId = row.workspaceId ∧
      (moveRow workspaceId input row).planId = row.planId := by
  rw [moveRow]
  split <;> exact ⟨rfl, rfl, rfl⟩

theorem ofPlan_moveRow {planId : JsString} (input : AdvanceInput) (row : ImportOperationRow) :
    ofPlan workspaceId planId (moveRow workspaceId input row) = ofPlan workspaceId planId row := by
  obtain ⟨-, hw, hp⟩ := moveRow_keeps workspaceId input row
  rw [ofPlan, ofPlan, hw, hp]

theorem known_moveRow {effects : List (Effect ι)} {input : AdvanceInput} {row : ImportOperationRow}
    (h : Known workspaceId plan (mapOperation row) effects)
    (hnext : Facts workspaceId plan input.next effects) :
    Known workspaceId plan (mapOperation (moveRow workspaceId input row)) effects := by
  rw [moveRow]
  split
  · exact ⟨h.id, h.planId, hnext⟩
  · exact h

/-- What an `advance` that returns has done. -/
theorem advance_eq_ok {rows rows' : List ImportOperationRow} {input : AdvanceInput}
    {operation : ArchiveImportOperation}
    (h : advance rows workspaceId input = .ok (operation, rows')) :
    nextImportCheckpoint input.expected = some input.next ∧
      rows' = rows.map (moveRow workspaceId input) ∧
      ∃ row ∈ rows', isOperation workspaceId input row = true ∧ operation = mapOperation row := by
  rw [advance] at h
  split at h
  · cases h
  · rename_i hnext
    simp only at h
    split at h
    · cases h
    · rename_i row hfind
      cases h
      exact ⟨not_not.mp hnext, rfl, row, List.mem_of_find?_eq_some hfind, List.find?_some hfind, rfl⟩

theorem selectOperation_mem {rows : List ImportOperationRow} {request : RequestIdentity}
    {input : BeginInput} {row : ImportOperationRow}
    (h : selectOperation rows workspaceId request input = some row) :
    row ∈ rows ∧ row.workspaceId = workspaceId := by
  rw [selectOperation] at h
  simp only [Option.orElse_eq_orElse, Option.orElse_eq_or, Option.or_eq_some_iff] at h
  rcases h with h | ⟨-, h⟩
  · have hp := List.find?_some h
    simp only [ofPlan, Bool.and_eq_true, beq_iff_eq] at hp
    exact ⟨List.mem_of_find?_eq_some h, hp.1.1⟩
  · have hp := List.find?_some h
    simp only [ofPlan, ofRequest, Bool.or_eq_true, Bool.and_eq_true, beq_iff_eq] at hp
    refine ⟨List.mem_of_find?_eq_some h, ?_⟩
    rcases hp with hp | hp
    · exact hp.1
    · exact hp.1.1.1

theorem operationRow_eq_some {request : RequestIdentity} {input : BeginInput}
    {row : ImportOperationRow} (h : operationRow workspaceId request input = some row) :
    row.checkpoint = .authorised ∧ row.id = operationIdOf workspaceId input.planId ∧
      row.planId = input.planId ∧ row.workspaceId = workspaceId := by
  rw [operationRow] at h
  obtain ⟨archiveExportId, _, h⟩ := Option.bind_eq_some_iff.mp h
  obtain ⟨requestedBy, _, h⟩ := Option.bind_eq_some_iff.mp h
  obtain ⟨idempotencyKey, _, h⟩ := Option.bind_eq_some_iff.mp h
  split at h
  · cases h
    exact ⟨rfl, rfl, rfl, rfl⟩
  · cases h

/-- What a `begin` that returns has done: nothing, or a new first row of the plan. -/
theorem begin_eq_ok {rows rows' : List ImportOperationRow} {request : Option RequestIdentity}
    {input : BeginInput} {operation : ArchiveImportOperation}
    (h : begin rows workspaceId request input = .ok (operation, rows')) :
    (rows' = rows ∨ ∃ row, rows' = rows ++ [row] ∧ row.checkpoint = .authorised ∧
      row.id = operationIdOf workspaceId input.planId ∧
      ∀ old ∈ rows, ofPlan workspaceId input.planId old = false) ∧
      ∃ row ∈ rows', ofPlan workspaceId input.planId row = true ∧
        (∃ resumed, operation = { mapOperation row with resumed }) ∧
        ∃ identity, request = some identity ∧ sameRequest row identity input = true ∧
          ∃ new, operationRow workspaceId identity input = some new := by
  rw [begin.eq_def] at h
  split at h
  · cases h
  · rename_i request
    split at h
    · cases h
    · rename_i new hnew
      simp only at h
      split at h
      · cases h
      · rename_i row hselect
        split at h
        · rename_i hsame
          cases h
          obtain ⟨hmem, hw⟩ := selectOperation_mem hselect
          have hplan := hsame
          simp only [sameRequest, Bool.and_eq_true, beq_iff_eq] at hplan
          refine ⟨?_, row, hmem, by simp [ofPlan, hw, hplan.1.1.1.1.1], ⟨_, rfl⟩, request, rfl,
            hsame, new, hnew⟩
          rw [insertOperation]
          split
          · exact Or.inl rfl
          · rename_i hfree
            obtain ⟨hc, hid, hplan, hw'⟩ := operationRow_eq_some hnew
            refine Or.inr ⟨new, rfl, hc, hid, ?_⟩
            intro old hold
            rw [Bool.not_eq_true, List.any_eq_false] at hfree
            have hold' := hfree old hold
            simp only [conflicts, Bool.or_eq_true, not_or, hplan, hw'] at hold'
            simpa using hold'.1.2
        · cases h

theorem find?_moveRow (planId : JsString) (input : AdvanceInput) (rows : List ImportOperationRow) :
    (rows.map (moveRow workspaceId input)).find? (ofPlan workspaceId planId) =
      (rows.find? (ofPlan workspaceId planId)).map (moveRow workspaceId input) := by
  rw [List.find?_map]
  congr 2
  funext row
  exact ofPlan_moveRow input row

theorem advance_moves {s : ImportState ι} {rows : List ImportOperationRow} {input : AdvanceInput}
    {operation : ArchiveImportOperation}
    (h : advance s.rows workspaceId input = .ok (operation, rows)) :
    Moves (storedCheckpoint workspaceId plan s)
      (storedCheckpoint workspaceId plan { s with rows }) := by
  obtain ⟨hnext, rfl, -⟩ := advance_eq_ok h
  simp only [storedCheckpoint, find?_moveRow, Option.map_map]
  cases s.rows.find? (ofPlan workspaceId plan.planId) with
  | none => exact Or.inl rfl
  | some row =>
    simp only [Option.map_some, Function.comp_apply, moveRow]
    split
    · rename_i hmove
      simp only [Bool.and_eq_true, beq_iff_eq] at hmove
      exact Or.inr (Or.inr ⟨row.checkpoint, input.next, rfl, rfl, hmove.2 ▸ hnext⟩)
    · exact Or.inl rfl

theorem begin_moves {s : ImportState ι} {rows : List ImportOperationRow}
    {request : Option RequestIdentity} {input : BeginInput} {operation : ArchiveImportOperation}
    (h : begin s.rows workspaceId request input = .ok (operation, rows)) :
    Moves (storedCheckpoint workspaceId plan s)
      (storedCheckpoint workspaceId plan { s with rows }) := by
  obtain ⟨rfl | ⟨row, rfl, hc, -, hnone⟩, -⟩ := begin_eq_ok h
  · exact Or.inl rfl
  · simp only [storedCheckpoint, List.find?_append]
    cases s.rows.find? (ofPlan workspaceId plan.planId) with
    | some old => exact Or.inl rfl
    | none =>
      by_cases hp : ofPlan workspaceId plan.planId row = true
      · exact Or.inr (Or.inl ⟨rfl, by simp [hp, hc]⟩)
      · exact Or.inl (by simp [hp])

/-- The stored checkpoint never moves but to its immediate successor. -/
theorem Performs.moves {i : ι} {s s' : ImportState ι} {st : Stmt} {answer : st.Result}
    (h : Performs workspaceId i s st answer s') :
    Moves (storedCheckpoint workspaceId plan s) (storedCheckpoint workspaceId plan s') := by
  cases st with
  | now => exact Or.inl (by rw [h])
  | begin request input =>
    rcases h with ⟨operation, rows, hbegin, -, rfl⟩ | ⟨e, -, rfl⟩
    · exact begin_moves hbegin
    · exact Or.inl rfl
  | advance input =>
    rcases h with ⟨operation, rows, hadvance, -, rfl⟩ | ⟨e, -, rfl⟩
    · exact advance_moves hadvance
    · exact Or.inl rfl
  | afterCheckpoint checkpoint operation => exact Or.inl (by rw [h])
  | call c => exact Or.inl (by rw [h]; rfl)
  | settle c =>
    rcases h with ⟨a, -, rfl⟩ | ⟨e, -, rfl⟩
    · exact Or.inl rfl
    · exact Or.inl rfl

end Store

section Outline

variable {ι : Type} {workspaceId : JsString} {plan : ArchiveImportPlan} {i : ι}

abbrev Outline (workspaceId : JsString) (plan : ArchiveImportPlan) (i : ι) {α : Type}
    (P : List (Effect ι) → Prop) (p : ImportProg α) (Q : α → List (Effect ι) → Prop) : Prop :=
  (importSpec workspaceId plan).Triple (importSystem workspaceId) i (fun s _ => P s.effects) p
    (fun a s _ => Q a s.effects)

theorem stable_of_lasting {P : List (Effect ι) → Prop} (h : Lasting P) :
    (importSpec workspaceId plan).Stable (importSystem workspaceId) i
      (fun s _ => P s.effects) := by
  intro j s tx s' other _ _ hP _ hguar
  exact h _ _ hguar hP

/-- One statement, by what it may do. -/
theorem outline_perform {P : List (Effect ι) → Prop} {st : Stmt}
    (Q : st.Result → List (Effect ι) → Prop) (hQ : ∀ r, Lasting (Q r))
    (hx : ∀ s answer s', Consistent workspaceId plan s → P s.effects →
      Performs workspaceId i s st answer s' →
      Consistent workspaceId plan s' ∧ s.effects <+: s'.effects ∧ Q answer s'.effects) :
    Outline workspaceId plan i P (Prog.perform st) Q := by
  apply Spec.Triple.perform (fun (r : st.Result) (s : ImportState ι) (_ : Unit) => Q r s.effects)
  · exact fun _ _ _ _ => trivial
  · exact fun r => stable_of_lasting (hQ r)
  · exact fun s _ answer s' _ hinv hP h => hx s answer s' hinv hP h

/-- A statement that leaves the state as it is. -/
theorem outline_idle {P : List (Effect ι) → Prop} (hP : Lasting P) (st : Stmt)
    (hst : ∀ s answer s', Performs workspaceId i s st answer s' → s' = s) :
    Outline workspaceId plan i P (Prog.perform st) (fun _ => P) := by
  apply outline_perform
  · exact fun _ => hP
  · intro s answer s' hinv hPs hx
    rw [hst s answer s' hx]
    exact ⟨hinv, List.prefix_refl _, hPs⟩

theorem outline_bind {α β : Type} {P : List (Effect ι) → Prop} {p : ImportProg α}
    {f : α → ImportProg β} {Q : α → List (Effect ι) → Prop} {R : β → List (Effect ι) → Prop}
    (h : Outline workspaceId plan i P p Q) (hf : ∀ a, Outline workspaceId plan i (Q a) (f a) R) :
    Outline workspaceId plan i P (p.bind f) R := Spec.Triple.bind h hf

theorem outline_unwrap {α : Type} {P : List (Effect ι) → Prop} (r : Except ImportError α)
    {Q : α → List (Effect ι) → Prop} (h : ∀ a, r = .ok a → ∀ effects, P effects → Q a effects) :
    Outline workspaceId plan i P (unwrap r) Q := by
  cases r with
  | ok a => exact fun s tx _ hP => h a rfl _ hP
  | error e => exact fun _ _ _ _ => trivial

theorem outline_now {P : List (Effect ι) → Prop} (hP : Lasting P) :
    Outline workspaceId plan i P now (fun _ => P) :=
  outline_idle hP .now fun _ _ _ h => h

theorem outline_afterCheckpoint {P : List (Effect ι) → Prop} (hP : Lasting P)
    (checkpoint : ArchiveImportCheckpoint) (operation : ArchiveImportOperation) :
    Outline workspaceId plan i P (afterCheckpoint checkpoint operation) (fun _ => P) := by
  apply outline_bind (outline_idle hP (.afterCheckpoint checkpoint operation) fun _ _ _ h => h)
  exact fun r => outline_unwrap r fun _ _ _ h => h

/-- A call of the target, once it may start. -/
theorem outline_target {P : List (Effect ι) → Prop} (hP : Lasting P) (c : TargetCall)
    (hstart : ∀ effects, P effects → StartsAfter workspaceId plan effects c) :
    Outline workspaceId plan i P (target c)
      (fun a effects => P effects ∧ .returned i c a ∈ effects) := by
  have hcall : Outline workspaceId plan i P (Prog.perform (.call c)) (fun _ => P) := by
    apply outline_perform
    · exact fun _ => hP
    · intro s answer s' hinv hPs hx
      cases hx
      refine ⟨hinv.append _ ?_, List.prefix_append _ _, hP _ _ (List.prefix_append _ _) hPs⟩
      intro j c' he
      cases he
      exact hstart _ hPs
  have hsettle : Outline workspaceId plan i P (Prog.perform (.settle c))
      (fun (answer : Except ImportError c.Answer) effects =>
        P effects ∧ ∀ a, answer = .ok a → .returned i c a ∈ effects) := by
    apply outline_perform
    · intro answer
      exact hP.and fun _ _ hp h a ha => hp.subset (h a ha)
    · intro s answer s' hinv hPs hx
      rcases hx with ⟨a, rfl, rfl⟩ | ⟨e, rfl, rfl⟩
      · refine ⟨hinv.append _ (fun j c' he => by cases he), List.prefix_append _ _,
          hP _ _ (List.prefix_append _ _) hPs, ?_⟩
        intro a' ha
        cases ha
        exact List.mem_append_right _ List.mem_cons_self
      · exact ⟨hinv, List.prefix_refl _, hPs, fun a ha => by cases ha⟩
  apply outline_bind hcall
  intro _
  apply outline_bind hsettle
  intro r
  apply outline_unwrap
  exact fun a ha effects h => ⟨h.1, h.2 a ha⟩

/-- Every other step keeps an assertion that later effects cannot undo. -/
theorem outline_weaken {α : Type} {P P' : List (Effect ι) → Prop} {p : ImportProg α}
    {Q : α → List (Effect ι) → Prop} (h : Outline workspaceId plan i P p Q)
    (hP : ∀ effects, P' effects → P effects) : Outline workspaceId plan i P' p Q :=
  Spec.Triple.pre h fun _ _ _ => hP _

theorem outline_post {α : Type} {P : List (Effect ι) → Prop} {p : ImportProg α}
    {Q Q' : α → List (Effect ι) → Prop} (h : Outline workspaceId plan i P p Q)
    (hQ : ∀ a effects, Q a effects → Q' a effects) : Outline workspaceId plan i P p Q' :=
  Spec.Triple.post h fun _ _ _ _ => hQ _ _

theorem outline_throw {α : Type} {P : List (Effect ι) → Prop} {Q : α → List (Effect ι) → Prop}
    (e : ImportError) : Outline workspaceId plan i P (.throw e : ImportProg α) Q :=
  fun _ _ _ _ => trivial

theorem outline_pure {α : Type} {P : List (Effect ι) → Prop} {Q : α → List (Effect ι) → Prop}
    (a : α) (h : ∀ effects, P effects → Q a effects) :
    Outline workspaceId plan i P (.pure a : ImportProg α) Q :=
  fun _ _ _ hP => h _ hP

theorem outline_stageBlobs {P : List (Effect ι) → Prop} (hP : Lasting P)
    (hr : ∀ effects, P effects → Revalidated plan effects) (operationId : JsString)
    (archive : ParsedTrustArchive) (actions : List ArchiveImportAction) :
    Outline workspaceId plan i P (stageBlobs operationId archive actions) (fun _ => P) := by
  induction actions with
  | nil => exact outline_pure () fun _ h => h
  | cons action rest ih =>
    rw [stageBlobs]
    split
    · exact outline_throw _
    · split
      · exact outline_throw _
      · split
        · exact outline_throw _
        · apply outline_bind
          · exact outline_target hP _ hr
          · exact fun _ => outline_weaken ih fun _ h => h.1

theorem outline_verifyStaged {P : List (Effect ι) → Prop} (hP : Lasting P) (operationId : JsString)
    (archive : ParsedTrustArchive) (actions : List ArchiveImportAction) :
    Outline workspaceId plan i P (verifyStaged operationId archive actions) (fun _ => P) := by
  induction actions with
  | nil => exact outline_pure () fun _ h => h
  | cons action rest ih =>
    rw [verifyStaged]
    split
    · exact outline_throw _
    · split
      · exact outline_throw _
      · apply outline_bind
        · exact outline_target hP _ fun _ _ => trivial
        · intro verified
          cases verified
          · exact outline_throw _
          · exact outline_weaken ih fun _ h => h.1

/-- The executor that comes to the end has committed every blob itself. -/
theorem outline_commitBlobs {P : List (Effect ι) → Prop} (hP : Lasting P)
    (hr : ∀ effects, P effects → Revalidated plan effects) (operationId : JsString)
    (actions : List ArchiveImportAction) :
    Outline workspaceId plan i P (commitBlobs operationId actions) (fun _ effects => P effects ∧
      ∀ action ∈ actions, .returned i (.commitBlob operationId action.sourceId) () ∈ effects) := by
  induction actions generalizing P with
  | nil => exact outline_pure () fun _ h => ⟨h, by simp⟩
  | cons action rest ih =>
    rw [commitBlobs]
    apply outline_bind
    · exact outline_target hP _ hr
    · intro answer
      have hrest := ih (hP.and (lasting_mem (.returned i (.commitBlob operationId action.sourceId) ())))
        fun effects h => hr effects h.1
      exact outline_post hrest fun _ effects h => ⟨h.1.1, by
        intro a ha
        rcases List.mem_cons.mp ha with rfl | ha
        · exact h.1.2
        · exact h.2 a ha⟩

/-- The executor's copy of the operation after an `advance`, won or lost. -/
theorem outline_advanceTo {operation : ArchiveImportOperation} {next : ArchiveImportCheckpoint} :
    Outline workspaceId plan i
      (fun effects => Known workspaceId plan operation effects ∧ Facts workspaceId plan next effects)
      (advanceTo operation next) (fun advanced => Known workspaceId plan advanced) := by
  have hlast : @Lasting ι fun effects =>
      Known workspaceId plan operation effects ∧ Facts workspaceId plan next effects :=
    (Known.lasting operation).and (Facts.lasting next)
  apply outline_bind (outline_now hlast)
  intro movedAt
  have hstep : Outline workspaceId plan i
      (fun effects => Known workspaceId plan operation effects ∧ Facts workspaceId plan next effects)
      (Prog.perform (.advance
        { operationId := operation.id, planId := operation.planId,
          expected := operation.checkpoint, next, movedAt }))
      (fun (answer : Except ImportError ArchiveImportOperation) effects =>
        ∀ advanced, answer = .ok advanced → Known workspaceId plan advanced effects) := by
    apply outline_perform
    · exact fun answer _ _ hp h advanced ha => Known.lasting _ _ _ hp (h advanced ha)
    · intro s answer s' hinv hPs hx
      rcases hx with ⟨advanced, rows, hadvance, rfl, rfl⟩ | ⟨e, rfl, rfl⟩
      · obtain ⟨-, hrows, row, hrow, hop, rfl⟩ := advance_eq_ok hadvance
        have hinv' : Consistent workspaceId plan { s with rows } := by
          refine ⟨?_, hinv.order⟩
          intro row' hrow' hplan
          simp only at hrow'
          rw [hrows] at hrow'
          obtain ⟨old, hold, rfl⟩ := List.mem_map.mp hrow'
          rw [ofPlan_moveRow] at hplan
          exact known_moveRow (hinv.stored old hold hplan) hPs.2
        refine ⟨hinv', List.prefix_refl _, ?_⟩
        intro advanced ha
        cases ha
        apply hinv'.stored row hrow
        simp only [isOperation, Bool.and_eq_true, beq_iff_eq] at hop
        simp [ofPlan, hop.1.1, hop.2, hPs.1.planId]
      · exact ⟨hinv, List.prefix_refl _, fun a ha => by cases ha⟩
  apply outline_bind hstep
  intro answer
  apply outline_bind
  · exact outline_unwrap answer fun advanced ha effects h => h advanced ha
  · intro advanced
    apply outline_bind (outline_afterCheckpoint (Known.lasting advanced) next advanced)
    exact fun _ => outline_pure advanced fun _ h => h

theorem outline_runCheckpoint (input : ExecuteInput) (hplan : input.plan = plan)
    (operation : ArchiveImportOperation) :
    Outline workspaceId plan i (Known workspaceId plan operation) (runCheckpoint input operation)
      (fun operation => Known workspaceId plan operation) := by
  have hlast : @Lasting ι (Known workspaceId plan operation) := Known.lasting operation
  rw [runCheckpoint]
  subst hplan
  split
  · rename_i hc
    apply outline_bind
    · exact outline_target hlast _ fun _ _ => trivial
    · intro issues
      split
      · exact outline_throw _
      · rename_i hnil
        apply outline_weaken outline_advanceTo
        rintro effects ⟨hk, hret⟩
        have hempty : issues = [] := List.length_eq_zero_iff.mp (by omega)
        exact ⟨hk, facts_targetRevalidated ⟨i, hempty ▸ hret⟩⟩
  · rename_i hc
    apply outline_bind
    · exact outline_stageBlobs hlast (fun _ hk => hk.facts.revalidated (by rw [hc]; decide)) _ _ _
    · intro _
      apply outline_weaken outline_advanceTo
      intro effects hk
      exact ⟨hk, hk.facts.same (by rw [hc]; decide)⟩
  · rename_i hc
    apply outline_bind
    · exact outline_verifyStaged hlast _ _ _
    · intro _
      apply outline_weaken outline_advanceTo
      intro effects hk
      exact ⟨hk, hk.facts.same (by rw [hc]; decide)⟩
  · rename_i hc
    apply outline_bind
    · exact outline_commitBlobs hlast (fun _ hk => hk.facts.revalidated (by rw [hc]; decide)) _ _
    · intro _
      apply outline_weaken outline_advanceTo
      rintro effects ⟨hk, hblobs⟩
      rw [hk.id] at hblobs
      exact ⟨hk, facts_immutableBlobsCommitted (hk.facts.revalidated (by rw [hc]; decide))
        ⟨i, hblobs⟩⟩
  · rename_i hc
    apply outline_bind
    · apply outline_target hlast
      exact fun _ hk => ⟨hk.facts.revalidated (by rw [hc]; decide), hk.facts.blobs (by rw [hc]; decide)⟩
    · intro _
      apply outline_weaken outline_advanceTo
      rintro effects ⟨hk, hret⟩
      rw [hk.id] at hret
      exact ⟨hk, facts_metadataCommitted (hk.facts.revalidated (by rw [hc]; decide))
        (hk.facts.blobs (by rw [hc]; decide)) ⟨i, hret⟩⟩
  · rename_i hc
    apply outline_bind (outline_now hlast)
    intro occurredAt
    apply outline_bind
    · apply outline_target hlast
      exact fun _ hk =>
        ⟨hk.facts.revalidated (by rw [hc]; decide), hk.facts.metadata (by rw [hc]; decide)⟩
    · intro _
      apply outline_weaken outline_advanceTo
      rintro effects ⟨hk, hret⟩
      rw [hk.id] at hret
      exact ⟨hk, ⟨fun _ => hk.facts.revalidated (by rw [hc]; decide),
        fun _ => hk.facts.blobs (by rw [hc]; decide),
        fun _ => hk.facts.metadata (by rw [hc]; decide), fun _ => ⟨i, _, _, _, hret⟩⟩⟩
  · rename_i hc
    apply outline_weaken outline_advanceTo
    exact fun effects hk => ⟨hk, hk.facts.same (by rw [hc]; decide)⟩
  · exact outline_pure operation fun _ hk => hk

theorem outline_runLoop (input : ExecuteInput) (hplan : input.plan = plan) (fuel : Nat)
    (operation : ArchiveImportOperation) :
    Outline workspaceId plan i (Known workspaceId plan operation) (runLoop input fuel operation)
      (fun operation => Known workspaceId plan operation) := by
  induction fuel generalizing operation with
  | zero => exact outline_throw _
  | succ fuel ih =>
    rw [runLoop]
    split
    · exact outline_pure operation fun _ h => h
    · apply outline_bind (outline_runCheckpoint input hplan operation)
      exact fun operation => ih operation

theorem Consistent.begin {s : ImportState ι} (h : Consistent workspaceId plan s)
    {request : Option RequestIdentity} {input : BeginInput} (hplan : input.planId = plan.planId)
    {operation : ArchiveImportOperation} {rows : List ImportOperationRow}
    (hb : begin s.rows workspaceId request input = .ok (operation, rows)) :
    Consistent workspaceId plan { s with rows } ∧ Known workspaceId plan operation s.effects := by
  obtain ⟨hrows, row, hrow, hof, ⟨resumed, rfl⟩, -⟩ := begin_eq_ok hb
  rw [hplan] at hof hrows
  have hstored : ∀ row' ∈ rows, ofPlan workspaceId plan.planId row' = true →
      Known workspaceId plan (mapOperation row') s.effects := by
    intro row' hrow' hof'
    rcases hrows with rfl | ⟨new, rfl, hc, hid, -⟩
    · exact h.stored row' hrow' hof'
    · rcases List.mem_append.mp hrow' with hold | hnew
      · exact h.stored row' hold hof'
      · rw [List.mem_singleton] at hnew
        subst hnew
        simp only [ofPlan, Bool.and_eq_true, beq_iff_eq] at hof'
        refine ⟨hid, hof'.2, ?_⟩
        rw [mapOperation, hc]
        exact facts_authorised
  have hk := hstored row hrow hof
  exact ⟨⟨hstored, h.order⟩, hk.id, hk.planId, hk.facts⟩

theorem outline_begin (request : Option RequestIdentity) (input : BeginInput)
    (hplan : input.planId = plan.planId) :
    Outline workspaceId plan i (fun _ => True) (Prog.perform (.begin request input))
      (fun (answer : Except ImportError ArchiveImportOperation) effects =>
        ∀ operation, answer = .ok operation → Known workspaceId plan operation effects) := by
  apply outline_perform
  · exact fun answer _ _ hp h operation ha => Known.lasting _ _ _ hp (h operation ha)
  · intro s answer s' hinv _ hx
    rcases hx with ⟨operation, rows, hb, rfl, rfl⟩ | ⟨e, rfl, rfl⟩
    · obtain ⟨hinv', hk⟩ := hinv.begin hplan hb
      refine ⟨hinv', List.prefix_refl _, ?_⟩
      intro operation' ha
      cases ha
      exact hk
    · exact ⟨hinv, List.prefix_refl _, fun a ha => by cases ha⟩

theorem outline_execute (fuel : Nat) (input : ExecuteInput) (hplan : input.plan = plan) :
    Outline workspaceId plan i (fun _ => True) (execute fuel input) (fun _ _ => True) := by
  rw [execute]
  apply outline_bind
  · exact outline_unwrap _ fun _ _ _ h => h
  intro _
  apply outline_bind (outline_now fun _ _ _ h => h)
  intro startedAt
  apply outline_bind
  · exact outline_begin _ _ (by rw [hplan])
  intro answer
  apply outline_bind
  · exact outline_unwrap answer fun operation ha effects h => h operation ha
  intro begun
  apply outline_bind
  · show Outline workspaceId plan i (Known workspaceId plan begun) _
      (fun _ => Known workspaceId plan begun)
    split
    · exact outline_afterCheckpoint (Known.lasting begun) _ _
    · exact outline_pure () fun _ h => h
  intro _
  apply outline_bind (outline_runLoop input hplan fuel begun)
  exact fun _ => outline_pure _ fun _ _ => trivial

end Outline

section Runs

variable {ι : Type} [DecidableEq ι] {workspaceId : JsString} {plan : ArchiveImportPlan}

omit [DecidableEq ι] in
theorem importSpec_sound : (importSpec workspaceId plan).Sound (@importSystem ι workspaceId)
    (Executes plan) := by
  constructor
  · exact fun _ _ _ => trivial
  · exact fun _ => trivial
  · exact fun _ _ _ _ _ _ _ _ _ => trivial
  · rintro i p ⟨fuel, input, hplan, rfl⟩
    exact ⟨_, (outline_execute fuel input hplan).pre fun _ _ _ _ => trivial⟩

theorem consistent_reachable {w : World ι (ImportState ι) Unit Stmt Stmt.Result ImportError
      ArchiveImportExecutionResult} (h : (importMachine workspaceId plan).Reachable w) :
    Consistent workspaceId plan w.shared := by
  have hholds := sound importSpec_sound (fun s hs => ?_) (fun _ _ _ => trivial) h
  · exact hholds.inv
  · refine ⟨fun row hrow hplan => ?_, fun before i c after he => ?_⟩
    · rw [hs.1 row hrow] at hplan
      cases hplan
    · rw [hs.2] at he
      exact absurd he (by simp)

theorem step_moves {w w' : World ι (ImportState ι) Unit Stmt Stmt.Result ImportError
      ArchiveImportExecutionResult} {e : Event ι Stmt Stmt.Result ImportError
      ArchiveImportExecutionResult} (h : (importMachine workspaceId plan).step w e w') :
    Moves (storedCheckpoint workspaceId plan w.shared)
      (storedCheckpoint workspaceId plan w'.shared) := by
  cases h with
  | begin i p h hp => exact Or.inl rfl
  | run i tx tx' st k r shared' h hx hc => exact Performs.moves hx
  | fail i tx p h hp => exact Or.inl rfl
  | finish i tx a h => exact Or.inl rfl

/-- What a statement of an executor adds to the effects. -/
def effectsOf (i : ι) : (st : Stmt) → st.Result → List (Effect ι)
  | .call c, _ => [.started i c]
  | .settle c, answer =>
    match answer with
    | .ok a => [.returned i c a]
    | .error _ => []
  | _, _ => []

section Traced

variable {τ α : Type} (T : Target τ) (clock : Nat → Columns.Instant) (i : ι)

/-- An executor that runs alone against a target, with its effects. -/
def performTraced (workspaceId : JsString) (st : Stmt) (s : Alone τ × List (Effect ι)) :
    st.Result × (Alone τ × List (Effect ι)) :=
  let answer := performAlone T workspaceId clock st s.1
  (answer.1, answer.2, s.2 ++ effectsOf i st answer.1)

omit [DecidableEq ι] in
/-- It does what the open system allows. -/
theorem performs_performTraced (st : Stmt) (s : Alone τ × List (Effect ι)) :
    Performs workspaceId i ⟨s.1.rows, s.2⟩ st (performTraced T clock i workspaceId st s).1
      ⟨(performTraced T clock i workspaceId st s).2.1.rows,
        (performTraced T clock i workspaceId st s).2.2⟩ := by
  cases st with
  | now => simp [Performs, performTraced, performAlone, effectsOf]
  | begin request input =>
    simp only [Performs, performTraced, performAlone, effectsOf, List.append_nil]
    cases hb : begin s.1.rows workspaceId request input with
    | ok answer => exact Or.inl ⟨_, _, rfl, rfl, rfl⟩
    | error e => exact Or.inr ⟨e, rfl, rfl⟩
  | advance input =>
    simp only [Performs, performTraced, performAlone, effectsOf, List.append_nil]
    cases hb : advance s.1.rows workspaceId input with
    | ok answer => exact Or.inl ⟨_, _, rfl, rfl, rfl⟩
    | error e => exact Or.inr ⟨e, rfl, rfl⟩
  | afterCheckpoint checkpoint operation =>
    simp [Performs, performTraced, performAlone, effectsOf]
  | call c => rfl
  | settle c =>
    simp only [Performs, performTraced, performAlone]
    cases ha : (T.answer c s.1.target).1 with
    | ok a => exact Or.inl ⟨a, rfl, rfl⟩
    | error e => exact Or.inr ⟨e, rfl, by simp [effectsOf]⟩

omit [DecidableEq ι] in
theorem solo_of_run {p : ImportProg α} {s s' : Alone τ × List (Effect ι)} {a : α}
    (h : p.run (performTraced T clock i workspaceId) s = (.ok a, s')) :
    (importSystem workspaceId).Solo i ⟨s.1.rows, s.2⟩ () p ⟨s'.1.rows, s'.2⟩ () a := by
  induction p generalizing s with
  | pure b =>
    rw [Prog.run, Prod.mk.injEq, Except.ok.injEq] at h
    obtain ⟨rfl, rfl⟩ := h
    exact .pure _ _ _
  | throw e => simp [Prog.run] at h
  | stmt st k ih => exact .stmt (performs_performTraced T clock i st s) (ih _ h)

/-- Some statements of an executor, while no other is running. -/
theorem reachable_after {n : Nat} {p : ImportProg ArchiveImportExecutionResult}
    {s : Alone τ × List (Effect ι)}
    {procs : ι → Proc Unit Stmt Stmt.Result ImportError ArchiveImportExecutionResult}
    (hr : (importMachine workspaceId plan).Reachable
      ⟨⟨s.1.rows, s.2⟩, Function.update procs i (.running () p)⟩) :
    (importMachine workspaceId plan).Reachable
      ⟨⟨(p.after (performTraced T clock i workspaceId) n s).2.1.rows,
          (p.after (performTraced T clock i workspaceId) n s).2.2⟩,
        Function.update procs i
          (.running () (p.after (performTraced T clock i workspaceId) n s).1)⟩ := by
  induction n generalizing p s with
  | zero => exact hr
  | succ n ih =>
    cases p with
    | pure a => exact hr
    | throw e => exact hr
    | stmt st k =>
      apply ih
      have hmove : (importSystem workspaceId).Step (Executes plan)
          ⟨⟨s.1.rows, s.2⟩, Function.update procs i (.running () (.stmt st k))⟩ (.run i) _ :=
        .run _ i () () st k _ _ (by simp) (performs_performTraced T clock i st s)
          fun _ _ _ _ _ => trivial
      have hnext := hr.step hmove
      rw [World.set] at hnext
      simpa using hnext

end Traced

/-- Any number of executors of one plan, with crashes anywhere: the stored
checkpoint goes through the list one by one, and every effect of the import comes
after those that have to come first. -/
theorem import_effects_in_order {w : World ι (ImportState ι) Unit Stmt Stmt.Result ImportError
      ArchiveImportExecutionResult} (h : (importMachine workspaceId plan).Reachable w) :
    (∀ e w', (importMachine workspaceId plan).step w e w' →
      Moves (storedCheckpoint workspaceId plan w.shared)
        (storedCheckpoint workspaceId plan w'.shared)) ∧
    (∀ before i c after, w.shared.effects = before ++ .started i c :: after →
      StartsAfter workspaceId plan before c) ∧
    (storedCheckpoint workspaceId plan w.shared = some .completed →
      AuditAppended workspaceId plan w.shared.effects) := by
  have hinv := consistent_reachable h
  refine ⟨fun e w' hstep => step_moves hstep, hinv.order, ?_⟩
  intro hstored
  obtain ⟨row, hfind, hc⟩ := Option.map_eq_some_iff.mp hstored
  have hk := hinv.stored row (List.mem_of_find?_eq_some hfind) (List.find?_some hfind)
  apply hk.facts.audit
  rw [show (mapOperation row).checkpoint = .completed from hc]
  decide

end Runs

/-- A target that does everything it is asked to. -/
def willing : Target Unit where
  answer
    | .revalidate _, _ => (.ok [], ())
    | .verifyStagedBlob _ _ _, _ => (.ok true, ())
    | .stageBlob _ _ _, _ => (.ok (), ())
    | .commitBlob _ _, _ => (.ok (), ())
    | .commitMetadata _ _ _, _ => (.ok (), ())
    | .appendAudit _ _ _ _ _, _ => (.ok (), ())

def emptyManifest : TrustArchiveManifest where
  formatVersion := .v02
  exportId := js "e"
  workspaceId := js "w"
  datasetIds := []
  createdAt := js "t"
  createdBy := js "u"
  sourceVersion := js "0.3"
  signatureProfile := .unsigned
  auditLineage := ⟨js "w", 0, .null, .null⟩
  recordCounts := fun _ => 0
  blobCount := 0
  totalBlobBytes := 0

/-- The plan of an archive without records. -/
def emptyPlan : ArchiveImportPlan where
  planId := js "cd611c19e860c178979860fcbd0c57d90fd65a06ba3809405978c8af54e94910"
  archiveExportId := js "e"
  sourceWorkspaceId := js "w"
  targetWorkspaceId := js "w"
  mode := .preserveIds
  conflictMode := .rejectOnError
  status := .ready
  issues := []
  actions := []
  counts := fun _ => 0

def noBytesDigest : JsString :=
  js "e3b0c44298fc1c149afbf4c8996fb92427ae41e4649b934ca495991b7852b855"

/-- An archive with one blob, of no bytes. -/
def oneBlob : ArchiveRecordKind → List ArchiveRecord
  | .blobs => [[(js "id", .string (js "b")), (js "sha256", .string noBytesDigest)]]
  | _ => []

def oneBlobArchive : ParsedTrustArchive where
  entries := ⟨[(js "blobs/e3/" ++ noBytesDigest, [])], List.nodup_singleton _⟩
  manifest := { emptyManifest with
    recordCounts := fun kind => (oneBlob kind).length
    blobCount := 1 }
  verification := ⟨true, oneBlob⟩

def oneBlobRequest : ArchiveImportRequest where
  archive := oneBlobArchive
  mode := .preserveIds
  conflictMode := .rejectOnError
  target := ⟨none, fun _ => none, []⟩

def oneBlobPlan : ArchiveImportPlan := (planArchiveImport Json.unitsLe oneBlobRequest).getD emptyPlan

def oneBlobInput : ExecuteInput where
  archive := oneBlobArchive
  plan := oneBlobPlan
  requestedBy := js "u"
  request := some ⟨.user, js "k", List.replicate 64 48⟩

def epoch : Nat → Columns.Instant := fun _ => ⟨0, Columns.epoch_bound⟩

def tracedStep (i : Fin 2) := performTraced willing epoch i (js "w")

/-- The first executor has staged the blob and has verified it. -/
def firstStopped :=
  (execute 8 oneBlobInput).after (tracedStep 0) 18 (⟨[], (), 0⟩, [])

/-- The second executor after the crash of the first. -/
def secondRun := (execute 8 oneBlobInput).run (tracedStep 1) firstStopped.2

def hasReturned : ImportProg ArchiveImportExecutionResult → Bool
  | .pure _ => true
  | _ => false

def commitsMetadata (e : Effect (Fin 2)) : Bool :=
  match e with
  | .started _ (.commitMetadata _ _ _) => true
  | _ => false

theorem eq_of_commitsMetadata {e : Effect (Fin 2)} (h : commitsMetadata e = true) :
    ∃ i operationId plan actions, e = .started i (.commitMetadata operationId plan actions) := by
  cases e with
  | started i statement =>
    cases statement with
    | commitMetadata operationId plan actions => exact ⟨i, operationId, plan, actions, rfl⟩
    | _ => cases h
  | returned i statement result => cases h

theorem second_completes : (hasReturned firstStopped.1 = false ∧
    firstStopped.2.1.rows.map (·.checkpoint) = [.stagedBlobsVerified]) ∧
    secondRun.1.isOk = true ∧
    (secondRun.2.1.rows.find? (ofPlan (js "w") oneBlobPlan.planId)).map (·.checkpoint) =
      some .completed ∧
    secondRun.2.2.any commitsMetadata = true ∧
    (blobActions oneBlobPlan).any (fun action => action.sourceId == noBytesDigest) = true := by
  decide +kernel

/-- The first executor crashes before the bytes of the blob are committed, and the second takes the
operation to its end. -/
theorem import_effects_in_order_resumed : ∃ w before i operationId plan actions after,
    (@importMachine (Fin 2) (js "w") oneBlobPlan _).Reachable w ∧ w.procs 0 = .threw ∧
    w.shared.effects = before ++ .started i (.commitMetadata operationId plan actions) :: after ∧
    (∃ j, .returned j (.commitBlob (operationIdOf (js "w") oneBlobPlan.planId) noBytesDigest) () ∈
      before) ∧
    storedCheckpoint (js "w") oneBlobPlan w.shared = some .completed ∧
    AuditAppended (js "w") oneBlobPlan w.shared.effects := by
  obtain ⟨hfirst, hok, hstored, hstarts, hblob⟩ := second_completes
  have hidle : (@importMachine (Fin 2) (js "w") oneBlobPlan _).Reachable
      ⟨⟨[], []⟩, fun _ => .idle⟩ := .init ⟨⟨by simp, rfl⟩, fun _ => rfl⟩
  have hbegun := hidle.step (.begin _ 0 _ rfl ⟨8, oneBlobInput, rfl, rfl⟩)
  have hstopped : (@importMachine (Fin 2) (js "w") oneBlobPlan _).Reachable
      ⟨⟨firstStopped.2.1.rows, firstStopped.2.2⟩,
        Function.update (fun _ => .idle) 0 (.running () firstStopped.1)⟩ :=
    reachable_after willing epoch 0 (n := 18) (s := (⟨[], (), 0⟩, [])) hbegun
  have hcrashed : (@importMachine (Fin 2) (js "w") oneBlobPlan _).Reachable
      ⟨⟨firstStopped.2.1.rows, firstStopped.2.2⟩, Function.update (fun _ => .idle) 0 .threw⟩ := by
    have hrunning : ∀ a, firstStopped.1 ≠ .pure a := by
      intro a ha
      have hreturned := hfirst.1
      rw [ha] at hreturned
      cases hreturned
    have hstep := hstopped.step (.fail _ 0 () firstStopped.1 (by simp) hrunning)
    rw [World.set] at hstep
    simpa using hstep
  have hresumed := hcrashed.step (.begin _ 1 _ (by simp) ⟨8, oneBlobInput, rfl, rfl⟩)
  cases hrun : secondRun with
  | mk answer s' =>
    rw [hrun] at hok hstored hstarts
    cases answer with
    | error e => cases hok
    | ok a =>
      have hothers : ∀ j tx p, j ≠ (1 : Fin 2) → Function.update (fun _ => Proc.idle) 0 .threw j ≠
          (.running tx p : Proc Unit Stmt Stmt.Result ImportError ArchiveImportExecutionResult) := by
        intro j tx p hj
        obtain rfl : j = 0 := by omega
        simp
      have hdone := (solo_of_run willing epoch 1 hrun).reachable _ hothers hresumed
      obtain ⟨-, horder, haudit⟩ := import_effects_in_order hdone
      obtain ⟨e, he, hcommits⟩ := List.any_eq_true.mp hstarts
      obtain ⟨before, after, heffects⟩ := List.append_of_mem he
      obtain ⟨action, haction, hsource⟩ := List.any_eq_true.mp hblob
      obtain ⟨i, operationId, plan, actions, rfl⟩ := eq_of_commitsMetadata hcommits
      obtain ⟨-, j, hcommitted⟩ := horder before i _ after heffects
      refine ⟨_, before, i, operationId, plan, actions, after, hdone, by simp, heffects, ⟨j, ?_⟩,
        hstored, haudit hstored⟩
      rw [← beq_iff_eq.mp hsource]
      exact hcommitted action haction

end TrustCore.ImportExecutor
