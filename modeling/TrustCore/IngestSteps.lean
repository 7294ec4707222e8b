import TrustCore.IngestRecords
import TrustCore.PlainTexts

/-!
# The statements of concurrent ingests

One lemma for every statement of an ingest: it keeps the invariant and moves the state
along `Setting.Grows`, whatever other calls have done before it.
-/

namespace TrustCore.ObjectIngest

open TrustCore.Utf TrustCore.Json TrustCore.Sha256 TrustCore.ArchiveFormat
open TrustCore.ObjectStorage TrustCore.Programs TrustCore.Outlines TrustCore.AuditChain
open TrustCore.Columns
open TrustCore.AuditLog (deterministicUuid VerifiedIngest AuditRow)

section Guards

variable {κ : Type}

/-- A completed operation is called again only if its stored result is already flagged
as deduplicated, gets no other context, and is completed again only with the result it
has. -/
def KeepsCompleted (s : IngestState κ) : Stmt κ → Prop
  | .begin workspaceId idempotencyKey _ _ => ∀ row ∈ s.operations,
      ofKey workspaceId idempotencyKey row = true → row.state = .reached .completed →
        row.result.map Prod.snd = some true
  | .saveContext workspaceId operationId _ _ => ∀ row ∈ s.operations,
      ofId workspaceId operationId row = true → row.state ≠ .reached .completed
  | .complete workspaceId operationId blob deduplicated => ∀ row ∈ s.operations,
      ofId workspaceId operationId row = true → row.state = .reached .completed →
        row.result = some (blob, deduplicated)
  | _ => True

/-- No context is saved over one that has a storage key and has none itself, unless the
bytes are catalogued. -/
def KeepsKeys (inputs : Set IngestInput) (s : IngestState κ) : Stmt κ → Prop
  | .saveContext workspaceId operationId context _ => ∀ row ∈ s.operations,
      ofId workspaceId operationId row = true → row.context.storageKey.isSome = true →
        context.storageKey.isSome = true ∨
          ∀ input ∈ inputs, Requests input row → Catalogued input s
  | _ => True

def Setting.guard (S : Setting κ) (s : IngestState κ) (st : Stmt κ) : Prop :=
  (S.keepsCompleted → KeepsCompleted s st) ∧ (S.keepsKeys → KeepsKeys S.inputs s st)

/-- One statement, with whatever the call draws for it. -/
def ingestExec [DecidableEq κ] (ids : Set JsString) (s : IngestState κ) (st : Stmt κ) (r : st.Result)
    (s' : IngestState κ) : Prop :=
  ∃ supplies : Supplies, (supplies.operationId ∈ ids ∧ supplies.nextId ∈ ids) ∧
    performIngest supplies st s = (r, s')

end Guards

section Assertions

variable {κ : Type} (input : IngestInput) (operationId : JsString)

/-- A call at work on its operation, with its variables. -/
structure Working (p : Progress) (s : IngestState κ) : Prop where
  row : ∃ row ∈ s.operations, row.id = operationId ∧ Requests input row ∧
    p.completed <+: row.checkpoints
  temporaryKey : ∀ key, p.context.temporaryKey = some key →
    temporaryObjectKey input.workspaceId operationId = some key
  storageKey : ∀ key, p.context.storageKey = some key →
    canonicalObjectKey input.workspaceId (sha256 input.bytes) = some key
  blob : ∀ blob, p.blob = some blob → Known s input blob

/-- The stored operation has what the checkpoint stands for. -/
def Setting.ReadyAt (S : Setting κ) (name : IngestCheckpoint) (s : IngestState κ) : Prop :=
  ∃ row ∈ s.operations, row.id = operationId ∧ Requests input row ∧ S.Ready s input row name

variable {input operationId} {S : Setting κ} {s s' : IngestState κ} {p : Progress}

theorem Setting.upward_working : S.growth.Upward (Working input operationId p) := by
  intro s s' _ hle h
  obtain ⟨row, hrow, hid, hr, hcompleted⟩ := h.row
  obtain ⟨row', hrow', ha⟩ := hle.rows row hrow
  exact ⟨⟨row', hrow', ha.id.trans hid, ha.requests hr, hcompleted.trans ha.checkpoints⟩,
    h.temporaryKey, h.storageKey, fun blob hblob => hle.known (h.blob blob hblob)⟩

theorem Setting.upward_readyAt (hinput : input ∈ S.inputs) (name : IngestCheckpoint) :
    S.growth.Upward (S.ReadyAt input operationId name) := by
  intro s s' _ hle ⟨row, hrow, hid, hr, hready⟩
  obtain ⟨row', hrow', ha⟩ := hle.rows row hrow
  exact ⟨row', hrow', ha.id.trans hid, ha.requests hr, hle.ready hrow hinput hr ha hready⟩

theorem Setting.upward_catalogued : S.growth.Upward (Catalogued input) :=
  fun _ _ _ hle h => hle.catalogued h

theorem Setting.upward_holding : S.growth.Upward fun s => Holding input s S.storage :=
  fun _ _ _ hle h => hle.holding h

end Assertions

section Rows

variable {κ : Type} {S : Setting κ} {s s' : IngestState κ} {input : IngestInput}
  {operationId : JsString} {p : Progress} {row row' : IngestOperation}

/-- A row that is changed, from what is new in it. -/
theorem Setting.Recorded.advance (h : S.Recorded s row) (hrow : row ∈ s.operations)
    (ha : S.Advances s row row') (hordered : row'.checkpoints <+: ingestCheckpoints)
    (htemporary : ∀ key, row'.context.temporaryKey = some key →
      temporaryObjectKey row.workspaceId row.id = some key)
    (hstorage : ∀ input ∈ S.inputs, Requests input row → ∀ key,
      row'.context.storageKey = some key →
      canonicalObjectKey input.workspaceId (sha256 input.bytes) = some key)
    (hready : ∀ name ∈ row'.checkpoints, name ∉ row.checkpoints → ∀ input ∈ S.inputs,
      Requests input row → S.Ready s input row' name)
    (hresult : ∀ input ∈ S.inputs, Requests input row → ∀ blob deduplicated,
      row'.result = some (blob, deduplicated) → Known s input blob)
    (hended : row'.state = .reached .completed →
      .auditCommitted ∈ row'.checkpoints ∧ row'.result.isSome) : S.Recorded s row' := by
  obtain ⟨first, hfirst, hr⟩ := h.requested
  refine ⟨ha.id ▸ h.drawn, ⟨first, hfirst, ha.requests hr⟩, hordered, ?_, ?_, ?_, ?_, hended⟩
  · rw [ha.workspaceId, ha.id]
    exact htemporary
  · exact fun input hinput hr => hstorage input hinput (ha.requests_iff.mp hr)
  · intro name hname input hinput hr
    have hr' := ha.requests_iff.mp hr
    by_cases hold : name ∈ row.checkpoints
    · exact (Setting.Grows.refl s).ready hrow hinput hr' ha (h.ready name hold input hinput hr')
    · exact hready name hname hold input hinput hr'
  · exact fun input hinput hr => hresult input hinput (ha.requests_iff.mp hr)

theorem ofId_iff {workspaceId : JsString} :
    ofId workspaceId operationId row = true ↔ row.workspaceId = workspaceId ∧ row.id = operationId := by
  simp [ofId]

/-- The row that the call works on is the only one that its statements change. -/
theorem Setting.Inv.requests_of_ofId (h : S.Inv s)
    (hwork : ∃ row ∈ s.operations, row.id = operationId ∧ Requests input row) {workspaceId : JsString}
    (hrow : row ∈ s.operations) (hid : ofId workspaceId operationId row = true) :
    Requests input row := by
  obtain ⟨worked, hworked, hworkedId, hr⟩ := hwork
  rw [h.row_eq hrow hworked ((ofId_iff.mp hid).2.trans hworkedId.symm)]
  exact hr

/-- An update that has to change a row. -/
theorem Setting.Inv.requireUpdated (h : S.Inv s) {workspaceId : JsString}
    {set : IngestOperation → IngestOperation}
    (hset : ∀ row ∈ s.operations, ofId workspaceId operationId row = true →
      S.Recorded s (set row) ∧ S.Advances s row (set row)) {answer : Except IngestError Unit}
    (hx : requireUpdated s workspaceId operationId set = (answer, s')) :
    S.Inv s' ∧ S.Grows s s' ∧ (answer = .ok () →
      s' = { s with operations := updateOperation s.operations workspaceId operationId set }) := by
  rw [ObjectIngest.requireUpdated] at hx
  split at hx
  · cases hx
    obtain ⟨hinv, hle⟩ := h.update hset
    exact ⟨hinv, hle, fun _ => rfl⟩
  · cases hx
    exact ⟨h, .refl s, fun ha => by cases ha⟩

theorem mem_updateOperation {rows : List IngestOperation} {workspaceId : JsString}
    {set : IngestOperation → IngestOperation} (hrow : row ∈ rows)
    (hid : ofId workspaceId operationId row = true) :
    set row ∈ updateOperation rows workspaceId operationId set :=
  List.mem_map.mpr ⟨row, hrow, by rw [if_pos hid]⟩

theorem Requests.ofId (hr : Requests input row) (hid : row.id = operationId) :
    ofId input.workspaceId operationId row = true := ofId_iff.mpr ⟨hr.1, hid⟩

end Rows

section Operations

variable {κ : Type} [DecidableEq κ] {S : Setting κ} {s s' : IngestState κ} {input : IngestInput}
  {operationId : JsString} {p : Progress} {supplies : Supplies}

/-- A context with a temporary key is saved over the stored one. -/
theorem Setting.Inv.saveContext (hd : S.Distinct) (h : S.Inv s) (hinput : input ∈ S.inputs)
    (hwork : ∃ row ∈ s.operations, row.id = operationId ∧ Requests input row)
    {context : IngestContext} {name : IngestCheckpoint} (hname : name ≠ .completed) {key : JsString}
    (htemporary : context.temporaryKey = some key)
    (hkey : temporaryObjectKey input.workspaceId operationId = some key)
    (hstorage : ∀ key, context.storageKey = some key →
      canonicalObjectKey input.workspaceId (sha256 input.bytes) = some key)
    (hguard : S.guard s (.saveContext input.workspaceId operationId context (.reached name)))
    {answer : Except IngestError Unit}
    (hx : performIngest supplies (.saveContext input.workspaceId operationId context
      (.reached name)) s = (answer, s')) :
    S.Inv s' ∧ S.Grows s s' ∧ (answer = .ok () → ∃ row ∈ s'.operations, row.id = operationId ∧
      Requests input row ∧ row.context = context) := by
  have hset : ∀ row ∈ s.operations, ofId input.workspaceId operationId row = true →
      S.Recorded s (setContext context (.reached name) row) ∧
      S.Advances s row (setContext context (.reached name) row) := by
    intro row hrow hid
    have hr := h.requests_of_ofId hwork hrow hid
    have hstate : S.keepsCompleted → row.state ≠ .reached .completed :=
      fun hkeeps => hguard.1 hkeeps row hrow hid
    have ha : S.Advances s row (setContext context (.reached name) row) := by
      refine ⟨rfl, rfl, rfl, List.prefix_refl _, fun _ => ?_, fun hkeeps => ?_, fun hresult => hresult,
        fun hkeeps hcompleted => absurd hcompleted (hstate hkeeps)⟩
      · simp [setContext, htemporary]
      · exact hguard.2 hkeeps row hrow hid
    have hrec := h.rows row hrow
    refine ⟨hrec.advance hrow ha hrec.ordered ?_ ?_ ?_ hrec.result ?_, ha⟩
    · intro key' hkey'
      rw [(ofId_iff.mp hid).1, (ofId_iff.mp hid).2]
      rw [show context.temporaryKey = some key' from hkey'] at htemporary
      cases htemporary
      exact hkey
    · intro other hother hr' key' hkey'
      obtain ⟨hworkspace, -, hbytes⟩ := hd.input_eq hother hinput hr' hr
      rw [hworkspace, hbytes]
      exact hstorage key' hkey'
    · exact fun name hmem hnew => absurd hmem hnew
    · intro hcompleted
      cases hcompleted
      exact absurd rfl hname
  rw [performIngest] at hx
  obtain ⟨hinv, hle, hanswer⟩ := h.requireUpdated hset hx
  refine ⟨hinv, hle, fun hok => ?_⟩
  obtain ⟨row, hrow, hid, hr⟩ := hwork
  rw [hanswer hok]
  exact ⟨_, mem_updateOperation hrow (hr.ofId hid), hid, hr, rfl⟩

/-- The next checkpoint in order. -/
theorem ordered_concat {completed : List IngestCheckpoint} {name : IngestCheckpoint}
    (hname : ingestCheckpoints[completed.length]? = some name)
    (h : completed <+: ingestCheckpoints) : completed ++ [name] <+: ingestCheckpoints := by
  obtain ⟨rest, hrest⟩ := h
  rw [← hrest, List.getElem?_append_right (le_refl _), Nat.sub_self] at hname
  cases rest with
  | nil => cases hname
  | cons first rest =>
    cases hname
    exact ⟨rest, by rw [← hrest, List.append_assoc, List.singleton_append]⟩

theorem mem_of_length {stored : List IngestCheckpoint} (hstored : stored <+: ingestCheckpoints)
    {n : Nat} {name : IngestCheckpoint} (hname : ingestCheckpoints[n]? = some name)
    (hn : n < stored.length) : name ∈ stored := by
  obtain ⟨rest, hrest⟩ := hstored
  rw [← hrest, List.getElem?_append_left hn] at hname
  exact List.mem_of_getElem? hname

/-- A checkpoint that is not stored follows those that the call counts. -/
theorem ordered_append {completed stored : List IngestCheckpoint} {name : IngestCheckpoint}
    (hname : ingestCheckpoints[completed.length]? = some name) (hstored : stored <+: ingestCheckpoints)
    (hcompleted : completed <+: stored) (hnew : name ∉ stored) :
    stored = completed ∧ stored ++ [name] <+: ingestCheckpoints := by
  have hlength : stored.length = completed.length := by
    by_contra hne
    have hlt : completed.length < stored.length :=
      lt_of_le_of_ne hcompleted.length_le (Ne.symm hne)
    exact hnew (mem_of_length hstored hname hlt)
  have heq := hcompleted.eq_of_length hlength.symm
  refine ⟨heq.symm, ordered_concat ?_ hstored⟩
  rw [← heq]
  exact hname

theorem length_of_mem {stored : List IngestCheckpoint} (hstored : stored <+: ingestCheckpoints)
    {n : Nat} {name : IngestCheckpoint} (hname : ingestCheckpoints[n]? = some name)
    (hmem : name ∈ stored) : n < stored.length := by
  obtain ⟨rest, hrest⟩ := hstored
  by_contra hle
  rw [← hrest, List.getElem?_append_right (not_lt.mp hle)] at hname
  have hnodup : (stored ++ rest).Nodup := by
    rw [hrest]
    decide
  exact (List.disjoint_of_nodup_append hnodup) hmem (List.mem_of_getElem? hname)

omit [DecidableEq κ] in
theorem holding_congr {a b : IngestInput} {k : κ} (hworkspace : a.workspaceId = b.workspaceId)
    (hbytes : a.bytes = b.bytes) : Holding a s k ↔ Holding b s k := by
  rw [Holding, Holding, hworkspace, hbytes]

omit [DecidableEq κ] in
theorem Setting.ready_congr {a b : IngestInput} {row : IngestOperation} {name : IngestCheckpoint}
    (hworkspace : a.workspaceId = b.workspaceId) (hbytes : a.bytes = b.bytes) :
    S.Ready s a row name ↔ S.Ready s b row name := by
  have hblob : isBlob a = isBlob b := by
    funext blob
    rw [isBlob, isBlob, hworkspace, hbytes]
  have hcatalogued : Catalogued a s ↔ Catalogued b s := by rw [Catalogued, Catalogued, hblob]
  have hholding : Holding a s S.storage ↔ Holding b s S.storage := holding_congr hworkspace hbytes
  cases name with
  | temporaryUploadCreated => exact or_congr hcatalogued Iff.rfl
  | bytesReceived => rw [Setting.Ready, Setting.Ready, Setting.Received, Setting.Received, hholding, hworkspace]
  | immutableObjectCommitted => rw [Setting.Ready, Setting.Ready, hholding, hcatalogued]
  | metadataCommitted => exact and_congr Iff.rfl hcatalogued
  | _ => exact Iff.rfl

/-- The next checkpoint is marked, with what it stands for. -/
theorem Setting.Inv.markCheckpoint (hd : S.Distinct) (h : S.Inv s) (hinput : input ∈ S.inputs)
    {name : IngestCheckpoint} (hwork : Working input operationId p s)
    (hready : S.ReadyAt input operationId name s)
    (hname : ingestCheckpoints[p.completed.length]? = some name)
    (hx : performIngest supplies (.markCheckpoint input.workspaceId operationId name) s = ((), s')) :
    S.Inv s' ∧ S.Grows s s' ∧
      Working input operationId { p with completed := p.completed ++ [name] } s' := by
  obtain ⟨ready, hreadyRow, hreadyId, hreadyRequests, hready⟩ := hready
  obtain ⟨worked, hworked, hworkedId, hworkedRequests, hcompleted⟩ := hwork.row
  have hone : ∀ row ∈ s.operations, ofId input.workspaceId operationId row = true →
      row = ready ∧ row = worked := by
    intro row hrow hid
    exact ⟨h.row_eq hrow hreadyRow ((ofId_iff.mp hid).2.trans hreadyId.symm),
      h.row_eq hrow hworked ((ofId_iff.mp hid).2.trans hworkedId.symm)⟩
  have hset : ∀ row ∈ s.operations, ofId input.workspaceId operationId row = true →
      S.Recorded s (addCheckpoint name row) ∧ S.Advances s row (addCheckpoint name row) ∧
        p.completed ++ [name] <+: (addCheckpoint name row).checkpoints := by
    intro row hrow hid
    obtain ⟨hrowReady, hrowWorked⟩ := hone row hrow hid
    have hrec := h.rows row hrow
    have hinitial : p.completed <+: row.checkpoints := by
      rw [hrowWorked]
      exact hcompleted
    rw [addCheckpoint]
    split
    · rename_i hmem
      have hlength := length_of_mem hrec.ordered hname hmem
      have hnext := ordered_concat hname (hinitial.trans hrec.ordered)
      refine ⟨hrec, .refl s row, List.prefix_of_prefix_length_le hnext hrec.ordered ?_⟩
      rw [List.length_append, List.length_singleton]
      exact hlength
    · rename_i hnew
      obtain ⟨hstored, hordered⟩ := ordered_append hname hrec.ordered hinitial hnew
      have hlast : .auditCommitted ∈ row.checkpoints → name = .completed := by
        intro hmem
        have hlength := length_of_mem hrec.ordered (n := 6) rfl hmem
        have hseven : row.checkpoints.length = 7 := by
          have hle := hordered.length_le
          rw [List.length_append] at hle
          have height : ingestCheckpoints.length = 8 := rfl
          rw [height] at hle
          simp only [List.length_singleton] at hle
          omega
        rw [← hstored, hseven] at hname
        cases hname
        rfl
      have ha : S.Advances s row { row with
          checkpoints := row.checkpoints ++ [name]
          state := .reached name } := by
        refine ⟨rfl, rfl, rfl, List.prefix_append _ _, fun hkey => hkey, fun _ hkey => Or.inl hkey,
          fun hresult => hresult, fun _ hstate => ⟨?_, rfl, rfl⟩⟩
        rw [hlast (hrec.ended hstate).1]
      refine ⟨hrec.advance hrow ha hordered hrec.temporaryKey hrec.storageKey ?_ hrec.result ?_, ha,
        ?_⟩
      · intro other hmem hfresh requester hrequester hr
        have hother : other = name := by
          rcases List.mem_append.mp hmem with hold | hlast
          · exact absurd hold hfresh
          · exact List.mem_singleton.mp hlast
        subst hother
        rw [← hrowReady] at hready hreadyRequests
        obtain ⟨hworkspace, -, hbytes⟩ := hd.input_eq hrequester hinput hr hreadyRequests
        have hmoved : S.Ready s input { row with
            checkpoints := row.checkpoints ++ [other]
            state := .reached other } other := by
          cases other with
          | completed => exact ⟨hready.1, fun _ => rfl⟩
          | _ => exact hready
        exact (Setting.ready_congr hworkspace hbytes).mpr hmoved
      · intro hstate
        have hcompletedName : name = .completed := by
          cases hstate
          rfl
        rw [hcompletedName, ← hrowReady] at hready
        refine ⟨List.mem_append_left _ ?_, hready.1⟩
        rw [hcompletedName, ← hstored] at hname
        apply mem_of_length hrec.ordered (n := 6) rfl
        by_contra hshort
        have hsmall : row.checkpoints.length ≤ 6 := by omega
        interval_cases row.checkpoints.length <;> cases hname
      · rw [hstored]
  rw [performIngest, Prod.mk.injEq] at hx
  obtain ⟨-, rfl⟩ := hx
  obtain ⟨hinv, hle⟩ := h.update fun row hrow hid => ⟨(hset row hrow hid).1, (hset row hrow hid).2.1⟩
  have hmark := hset worked hworked (hworkedRequests.ofId hworkedId)
  refine ⟨hinv, hle, ⟨_, mem_updateOperation hworked (hworkedRequests.ofId hworkedId),
    hmark.2.1.id.trans hworkedId, hmark.2.1.requests hworkedRequests, hmark.2.2⟩,
    hwork.temporaryKey, hwork.storageKey, fun blob hblob => hle.known (hwork.blob blob hblob)⟩

/-- The operation has the result of a call. -/
def Answered (operationId : JsString) (blob : BlobObject) (deduplicated : Bool) (s : IngestState κ) :
    Prop :=
  ∃ row ∈ s.operations, row.id = operationId ∧ row.state = .reached .completed ∧
    ∃ stored, row.result = some (stored, deduplicated) ∧ stored.id = blob.id

omit [DecidableEq κ] in
theorem Setting.upward_answered (hkeeps : S.keepsCompleted) {blob : BlobObject}
    {deduplicated : Bool} : S.growth.Upward (Answered operationId blob deduplicated) := by
  intro s s' _ hle ⟨row, hrow, hid, hstate, stored, hresult, hstored⟩
  obtain ⟨row', hrow', ha⟩ := hle.rows row hrow
  obtain ⟨hstate', -, hresult'⟩ := ha.completed hkeeps hstate
  exact ⟨row', hrow', ha.id.trans hid, hstate', stored, hresult'.trans hresult, hstored⟩

/-- The result is stored after the checkpoint of the audit. -/
theorem Setting.Inv.complete (hd : S.Distinct) (h : S.Inv s) (hinput : input ∈ S.inputs)
    (hwork : Working input operationId p s) (haudit : .auditCommitted ∈ p.completed)
    {blob : BlobObject} {deduplicated : Bool} (hknown : Known s input blob)
    (hguard : S.guard s (.complete input.workspaceId operationId blob deduplicated))
    {answer : Except IngestError Unit}
    (hx : performIngest supplies (.complete input.workspaceId operationId blob deduplicated) s =
      (answer, s')) :
    S.Inv s' ∧ S.Grows s s' ∧ (answer = .ok () → S.ReadyAt input operationId .completed s' ∧
      Answered operationId blob deduplicated s') := by
  obtain ⟨worked, hworked, hworkedId, hworkedRequests, hcompleted⟩ := hwork.row
  have hset : ∀ row ∈ s.operations, ofId input.workspaceId operationId row = true →
      S.Recorded s (setResult blob deduplicated row) ∧
      S.Advances s row (setResult blob deduplicated row) := by
    intro row hrow hid
    have hr := h.requests_of_ofId ⟨worked, hworked, hworkedId, hworkedRequests⟩ hrow hid
    have hrec := h.rows row hrow
    have ha : S.Advances s row (setResult blob deduplicated row) := by
      refine ⟨rfl, rfl, rfl, List.prefix_refl _, fun hkey => hkey, fun _ hkey => Or.inl hkey,
        fun _ => rfl, fun hkeeps hstate => ⟨rfl, rfl, ?_⟩⟩
      exact (hguard.1 hkeeps row hrow hid hstate).symm
    refine ⟨hrec.advance hrow ha hrec.ordered hrec.temporaryKey hrec.storageKey
      (fun name hmem hnew => absurd hmem hnew) ?_ ?_, ha⟩
    · intro other hother hr' stored flag hresult
      obtain ⟨hworkspace, -, hbytes⟩ := hd.input_eq hother hinput hr' hr
      have hblob : stored = blob := by
        cases hresult
        rfl
      rw [hblob]
      simpa [Known, isBlob, hworkspace, hbytes] using hknown
    · intro _
      rw [h.row_eq hrow hworked ((ofId_iff.mp hid).2.trans hworkedId.symm)]
      exact ⟨hcompleted.subset haudit, rfl⟩
  rw [performIngest] at hx
  obtain ⟨hinv, hle, hanswer⟩ := h.requireUpdated hset hx
  refine ⟨hinv, hle, fun hok => ?_⟩
  have hmem : setResult blob deduplicated worked ∈ updateOperation s.operations input.workspaceId
      operationId (setResult blob deduplicated) :=
    mem_updateOperation hworked (hworkedRequests.ofId hworkedId)
  rw [hanswer hok]
  exact ⟨⟨_, hmem, hworkedId, hworkedRequests, rfl, fun _ => rfl⟩,
    ⟨_, hmem, hworkedId, rfl, blob, rfl, rfl⟩⟩

/-- A failed call leaves a completed operation alone. -/
theorem Setting.Inv.fail (h : S.Inv s) {workspaceId message : JsString}
    (hx : performIngest supplies (.fail workspaceId operationId message) s = ((), s')) :
    S.Inv s' ∧ S.Grows s s' := by
  have hset : ∀ row ∈ s.operations, ofId workspaceId operationId row = true →
      S.Recorded s (setFailed message row) ∧ S.Advances s row (setFailed message row) := by
    intro row hrow _
    have hrec := h.rows row hrow
    rw [setFailed]
    split
    · exact ⟨hrec, .refl s row⟩
    · rename_i hstate
      have ha : S.Advances s row { row with
          state := .failedRetryable
          errorCode := some (message.take 512)
          retryCount := row.retryCount + 1 } :=
        ⟨rfl, rfl, rfl, List.prefix_refl _, fun hkey => hkey, fun _ hkey => Or.inl hkey,
          fun hresult => hresult, fun _ hcompleted => absurd hcompleted hstate⟩
      exact ⟨hrec.advance hrow ha hrec.ordered hrec.temporaryKey hrec.storageKey
        (fun name hmem hnew => absurd hmem hnew) hrec.result (fun hcompleted => by cases hcompleted), ha⟩
  rw [performIngest, Prod.mk.injEq] at hx
  obtain ⟨-, rfl⟩ := hx
  obtain ⟨hinv, hle, -⟩ := h.requireUpdated hset rfl
  exact ⟨hinv, hle⟩

/-- What a call knows of its operation when it has begun it. -/
structure Setting.Started (S : Setting κ) (input : IngestInput) (operation : IngestOperation)
    (s : IngestState κ) : Prop where
  working : Working input operation.id
    { completed := operation.checkpoints, context := operation.context,
      blob := operation.result.map Prod.fst,
      deduplicated := (operation.result.map Prod.snd).getD false } s
  created : .temporaryUploadCreated ∈ operation.checkpoints →
    Catalogued input s ∨ operation.context.temporaryKey.isSome = true
  keyed : S.keepsKeys → .immutableObjectCommitted ∈ operation.checkpoints →
    Catalogued input s ∨ operation.context.storageKey.isSome = true
  replayed : .completed ∈ operation.checkpoints → Catalogued input s ∧
    (S.keepsCompleted → ∃ blob, Known s input blob ∧ Answered operation.id blob true s)

omit [DecidableEq κ] in
theorem Setting.upward_started {operation : IngestOperation} :
    S.growth.Upward (S.Started input operation) := by
  intro s s' hs hle h
  refine ⟨Setting.upward_working s s' hs hle h.working, fun hmem => ?_, fun hkeeps hmem => ?_,
    fun hmem => ?_⟩
  · exact (h.created hmem).imp_left hle.catalogued
  · exact (h.keyed hkeeps hmem).imp_left hle.catalogued
  · refine ⟨hle.catalogued (h.replayed hmem).1, fun hkeeps => ?_⟩
    obtain ⟨blob, hknown, hanswered⟩ := (h.replayed hmem).2 hkeeps
    exact ⟨blob, hle.known hknown, Setting.upward_answered hkeeps s s' hs hle hanswered⟩

omit [DecidableEq κ] in
/-- A stored row is what a call starts from. -/
theorem Setting.Recorded.started (hinput : input ∈ S.inputs) {row : IngestOperation}
    (hrow : row ∈ s.operations) (h : S.Recorded s row) (hr : Requests input row)
    (hflag : S.keepsCompleted → row.state = .reached .completed →
      row.result.map Prod.snd = some true) :
    S.Started input row s := by
  refine ⟨⟨⟨row, hrow, rfl, hr, List.prefix_refl _⟩, ?_, fun key hkey => h.storageKey input hinput hr key hkey, ?_⟩,
    fun hmem => h.ready _ hmem input hinput hr,
    fun hkeeps hmem => (h.ready _ hmem input hinput hr).2 hkeeps, fun hmem => ?_⟩
  · rw [← hr.1]
    exact h.temporaryKey
  · intro blob hblob
    obtain ⟨⟨stored, flag⟩, hresult, rfl⟩ := Option.map_eq_some_iff.mp hblob
    exact h.result input hinput hr stored flag hresult
  · have hmetadata : .metadataCommitted ∈ row.checkpoints := by
      apply mem_of_length h.ordered (n := 5) rfl
      have hlength := length_of_mem h.ordered (n := 7) rfl hmem
      omega
    refine ⟨(h.ready _ hmetadata input hinput hr).2, fun hkeeps => ?_⟩
    have hstate := (h.ready _ hmem input hinput hr).2 hkeeps
    obtain ⟨⟨blob, flag⟩, hresult, hflag⟩ := Option.map_eq_some_iff.mp (hflag hkeeps hstate)
    simp only at hflag
    subst hflag
    exact ⟨blob, h.result input hinput hr blob true hresult, row, hrow, rfl, hstate, blob, hresult, rfl⟩

omit [DecidableEq κ] in
/-- A new row under a new id. -/
theorem Setting.Inv.insert (h : S.Inv s) {row : IngestOperation} (hrec : S.Recorded s row)
    (hnew : ∀ old ∈ s.operations, old.id ≠ row.id) :
    S.Inv { s with operations := s.operations ++ [row] } ∧
      S.Grows s { s with operations := s.operations ++ [row] } := by
  have hle : S.Grows s { s with operations := s.operations ++ [row] } :=
    ⟨fun old hold => ⟨old, List.mem_append_left _ hold, .refl _ old⟩, fun _ _ _ _ _ h => h,
      fun _ _ _ h => h, fun blob hblob => ⟨blob, hblob, rfl, rfl, rfl⟩, List.Subset.refl _,
      List.Subset.refl _⟩
  refine ⟨{ h with rows := ?_, operationIds := ?_, temporary := ?_ }, hle⟩
  · intro other hother
    rcases List.mem_append.mp hother with hold | hlast
    · exact hle.recorded hold (h.rows other hold)
    · rw [List.mem_singleton.mp hlast]
      exact { hrec with }
  · rw [List.map_append, List.map_singleton]
    apply List.Nodup.append h.operationIds (List.nodup_singleton _)
    intro id hid hrow
    obtain ⟨old, hold, rfl⟩ := List.mem_map.mp hid
    exact hnew old hold (List.mem_singleton.mp hrow)
  · intro workspaceId operationId key o hoperation hkey ho
    obtain ⟨old, hold, hold'⟩ := h.temporary workspaceId operationId key o hoperation hkey ho
    exact ⟨old, List.mem_append_left _ hold, hold'⟩

/-- A call begins its operation, or finds it. -/
theorem Setting.Inv.begin (h : S.Inv s) (hinput : input ∈ S.inputs)
    (hids : supplies.operationId ∈ S.ids)
    (hguard : S.guard s (.begin input.workspaceId input.idempotencyKey input.actorId
      (requestHashOf input)))
    {answer : Except IngestError IngestOperation}
    (hx : performIngest supplies (.begin input.workspaceId input.idempotencyKey input.actorId
      (requestHashOf input)) s = (answer, s')) :
    S.Inv s' ∧ S.Grows s s' ∧ ∀ operation, answer = .ok operation →
      operation.requestHash = requestHashOf input → S.Started input operation s' := by
  rw [performIngest, ObjectIngest.begin] at hx
  cases hfind : s.operations.find? (ofKey input.workspaceId input.idempotencyKey) with
  | some row =>
    simp only [hfind] at hx
    cases hx
    refine ⟨h, .refl s, ?_⟩
    rintro operation ⟨rfl⟩ hhash
    have hmem := List.mem_of_find?_eq_some hfind
    have hkey := List.find?_some hfind
    have hworkspace : row.workspaceId = input.workspaceId := by
      simp only [ofKey, Bool.and_eq_true, beq_iff_eq] at hkey
      exact hkey.1
    exact (h.rows row hmem).started hinput hmem ⟨hworkspace, hhash⟩
      fun hkeeps hstate => hguard.1 hkeeps row hmem hkey hstate
  | none =>
    simp only [hfind] at hx
    by_cases hid : s.operations.any (fun row => row.id == supplies.operationId) = true
    · rw [if_pos hid] at hx
      cases hx
      exact ⟨h, .refl s, fun operation hanswer => by cases hanswer⟩
    · rw [if_neg hid] at hx
      simp only at hx
      cases hx
      have hnew : ∀ old ∈ s.operations, old.id ≠ supplies.operationId := by
        intro old hold heq
        exact hid (List.any_eq_true.mpr ⟨old, hold, beq_iff_eq.mpr heq⟩)
      have hrec : S.Recorded s
          { id := supplies.operationId, workspaceId := input.workspaceId,
            idempotencyKey := input.idempotencyKey, requestedBy := input.actorId,
            requestHash := requestHashOf input, state := .requested, checkpoints := [],
            context := ⟨none, none, none, none⟩, result := none, errorCode := none,
            retryCount := 0 } := by
        refine ⟨hids, ⟨input, hinput, rfl, rfl⟩, List.nil_prefix, ?_, ?_, ?_, ?_, ?_⟩
        · intro key hkey
          cases hkey
        · intro other hother hr key hkey
          cases hkey
        · intro name hname
          cases hname
        · intro other hother hr blob deduplicated hresult
          cases hresult
        · intro hcompleted
          cases hcompleted
      obtain ⟨hinv, hle⟩ := h.insert hrec hnew
      refine ⟨hinv, hle, ?_⟩
      rintro operation ⟨rfl⟩ -
      have hmem : ∀ row : IngestOperation, row ∈ s.operations ++ [row] :=
        fun row => List.mem_append_right _ (List.mem_singleton_self row)
      exact (hinv.rows _ (hmem _)).started hinput (hmem _) ⟨rfl, rfl⟩ fun _ hstate => by cases hstate

end Operations

section Texts

theorem plain_of_isSafeId {id : JsString} (h : isSafeId id = true) : Plain id := by
  intro u hu
  simp only [isSafeId, Bool.and_eq_true, List.all_eq_true] at h
  have hsafe := h.2 u hu
  simp only [isSafeUnit, Bool.or_eq_true, decide_eq_true_eq, beq_iff_eq] at hsafe
  constructor
  · rintro rfl
    simp at hsafe
  · obtain (((hdigit | hupper) | hlower) | rfl) | rfl := hsafe
    · omega
    · omega
    · omega
    · decide
    · decide

theorem plain_canonicalObjectKey {workspaceId digest key : JsString}
    (h : canonicalObjectKey workspaceId digest = some key) : Plain key := by
  rw [canonicalObjectKey] at h
  split at h
  · rename_i hsafe
    cases h
    rw [Bool.and_eq_true] at hsafe
    have hdigest := plain_of_isSha256 hsafe.2
    have hroot : Plain (workspaceRoot workspaceId) :=
      plain_append (plain_append (by decide) (plain_of_isSafeId hsafe.1)) (by decide)
    refine plain_append (plain_append (plain_append (plain_append hroot (by decide)) ?_) (by decide))
      hdigest
    exact fun u hu => hdigest u (List.mem_of_mem_take hu)
  · cases h

end Texts

section Catalog

theorem isWellFormed_of_isSafeId {id : JsString} (h : isSafeId id = true) : isWellFormed id = true :=
  isWellFormed_ascii id fun u hu => (plain_of_isSafeId h u hu).2

/-- The row of the event of an ingest, or the one that is there already. -/
theorem audit_cases {row : BlobObject} {operationId actorId : JsString} {actorType : ActorType}
    {occurredAt : Instant} {events events' : AuditLog.Table} (hsafe : isSafeId operationId = true)
    (h : (verifiedIngest row operationId actorId actorType occurredAt).bind
      (AuditLog.commitVerifiedIngest events) = some events') :
    (events' = events ∧ ∃ r ∈ events, r.id = auditId operationId) ∨
    ∃ r : AuditRow, events' = events ++ [r] ∧ (∀ old ∈ events, old.id ≠ r.id) ∧
      r.id = auditId operationId ∧ r.action = js "blob.ingested" ∧ r.correlationId = operationId := by
  obtain ⟨i, hi, happend⟩ := Option.bind_eq_some_iff.mp h
  have hbody : i.body.id = auditId operationId ∧ i.body.action = js "blob.ingested" ∧
      i.body.correlationId = operationId := by
    rw [verifiedIngest] at hi
    split at hi
    · cases hi
    · cases hi
      exact ⟨rfl, rfl, rfl⟩
  rw [AuditLog.commitVerifiedIngest, AuditLog.appendEvent, if_neg (by simp)] at happend
  simp only at happend
  split at happend
  · cases happend
  · rename_i r hr
    have hrow : r.id = auditId operationId ∧ r.action = js "blob.ingested" ∧
        r.correlationId = operationId := by
      obtain ⟨hid, haction, hcorrelation⟩ := AuditLog.eventRow_texts hr
      simp only [appendAuditEvent] at hid haction hcorrelation
      rw [hbody.1] at hid
      rw [hbody.2.1] at haction
      rw [hbody.2.2] at hcorrelation
      exact ⟨hid, textColumn_eq haction (by decide),
        textColumn_eq hcorrelation (isWellFormed_of_isSafeId hsafe)⟩
    split at happend
    · rename_i hold
      obtain ⟨old, hmem, hid⟩ := hold
      simp only [if_true, Option.some.injEq] at happend
      exact Or.inl ⟨happend.symm, old, hmem, hid.trans hrow.1⟩
    · rename_i hnew
      rw [Option.some.injEq] at happend
      exact Or.inr ⟨r, happend.symm, fun old hmem hid => hnew ⟨old, hmem, hid⟩, hrow⟩

theorem insertOutbox_cases (events : List OutboxEvent) (event : OutboxEvent) :
    (insertOutbox events event = events ∧ ∃ e ∈ events, e.id = event.id) ∨
    (insertOutbox events event = events ++ [event] ∧ ∀ old ∈ events, old.id ≠ event.id) := by
  rw [insertOutbox]
  split
  · rename_i hany
    obtain ⟨e, hmem, hid⟩ := List.any_eq_true.mp hany
    exact Or.inl ⟨rfl, e, hmem, beq_iff_eq.mp hid⟩
  · rename_i hnew
    refine Or.inr ⟨rfl, fun old hmem hid => hnew ?_⟩
    exact List.any_eq_true.mpr ⟨old, hmem, beq_iff_eq.mpr hid⟩

/-- The columns of a blob that no later ingest changes. -/
structure SameBlob (blob blob' : BlobObject) : Prop where
  id : blob'.id = blob.id
  workspaceId : blob'.workspaceId = blob.workspaceId
  sha256 : blob'.sha256 = blob.sha256
  byteLength : blob'.byteLength = blob.byteLength
  storageKey : blob'.storageKey = blob.storageKey

theorem SameBlob.refl (blob : BlobObject) : SameBlob blob blob := ⟨rfl, rfl, rfl, rfl, rfl⟩

theorem sameBlob_mergeBlob (blob row : BlobObject) : SameBlob row (mergeBlob blob row) :=
  ⟨rfl, rfl, rfl, rfl, rfl⟩

/-- A recorded blob is the row of its digest, or a new row. -/
theorem recordBlob_cases {blobs blobs' : List BlobObject} {blob row : BlobObject}
    (h : recordBlob blobs blob = .ok (row, blobs')) :
    row ∈ blobs' ∧ (row.workspaceId = blob.workspaceId ∧ row.sha256 = blob.sha256) ∧
    ((∃ f : BlobObject → BlobObject, (∀ b, SameBlob b (f b)) ∧ blobs' = blobs.map f) ∨
      (∀ b ∈ blobs, ¬ (b.workspaceId = blob.workspaceId ∧ b.sha256 = blob.sha256)) ∧
        SameBlob blob row ∧ blobs' = blobs ++ [row]) := by
  rw [recordBlob] at h
  split at h
  · rename_i old hold
    cases h
    have hmatch := List.find?_some hold
    have hdigest : old.workspaceId = blob.workspaceId ∧ old.sha256 = blob.sha256 := by
      simpa [ofDigest] using hmatch
    refine ⟨List.mem_map.mpr ⟨old, List.mem_of_find?_eq_some hold, by rw [if_pos hmatch]⟩, hdigest,
      Or.inl ⟨_, ?_, rfl⟩⟩
    intro b
    split
    · exact sameBlob_mergeBlob blob b
    · exact .refl b
  · rename_i hnone
    split at h
    · cases h
    · cases h
      refine ⟨List.mem_append_right _ (List.mem_singleton_self _), ⟨rfl, rfl⟩, Or.inr ⟨?_, ⟨rfl, rfl, rfl, rfl, rfl⟩, rfl⟩⟩
      intro b hb hsame
      exact List.find?_eq_none.mp hnone b hb (by simp [ofDigest, hsame])

end Catalog

section Objects

variable {κ : Type} [DecidableEq κ] {S : Setting κ} {s s' : IngestState κ} {input : IngestInput}
  {operationId : JsString} {p : Progress} {supplies : Supplies}

omit [DecidableEq κ] in
theorem Setting.Stored.same {blob blob' : BlobObject} (h : S.Stored s blob)
    (hsame : SameBlob blob blob') : S.Stored s blob' := by
  obtain ⟨hid, input, hinput, hblob, hlength, hkey, hholding⟩ := h
  rw [← hsame.id] at hid
  refine ⟨hid, input, hinput, (isBlob_congr hsame.workspaceId hsame.sha256).trans hblob,
    hsame.byteLength.trans hlength, ?_, hholding⟩
  rw [hsame.storageKey]
  exact hkey

/-- A blob is recorded, with its two events, once its canonical object is there. -/
theorem Setting.Inv.commitVerifiedIngest (hd : S.Distinct) (h : S.Inv s) (hinput : input ∈ S.inputs)
    (hid : operationId ∈ S.ids) {blob : BlobObject} (hblobId : blob.id ∈ S.ids)
    (hblob : isBlob input blob = true) (hlength : blob.byteLength = input.bytes.length)
    (hkey : canonicalObjectKey input.workspaceId (sha256 input.bytes) = some blob.storageKey)
    (hholding : Holding input s S.storage) {actorId : JsString} {actorType : ActorType}
    {occurredAt : Instant} {answer : Except IngestError BlobObject}
    (hx : performIngest supplies (.commitVerifiedIngest blob operationId actorId actorType occurredAt)
      s = (answer, s')) :
    S.Inv s' ∧ S.Grows s s' ∧ ∀ row, answer = .ok row →
      Audited s' operationId ∧ Known s' input row := by
  rw [performIngest] at hx
  split at hx
  · rename_i row after hcommit
    obtain ⟨blobs, events, hrecord, haudit, rfl⟩ := commitVerifiedIngest_eq_ok hcommit
    cases hx
    obtain ⟨hrow, hdigest, hblobs⟩ := recordBlob_cases hrecord
    have hevents := audit_cases (hd.safe operationId hid) haudit
    have houtbox := insertOutbox_cases s.outboxEvents (outboxEvent row operationId)
    have hisBlob : isBlob input row = true := (isBlob_congr hdigest.1 hdigest.2).trans hblob
    have hle : S.Grows s
        { s with
          blobs
          auditEvents := events
          outboxEvents := insertOutbox s.outboxEvents (outboxEvent row operationId) } := by
      refine ⟨fun row hrow => ⟨row, hrow, .refl _ row⟩, fun _ _ _ _ _ h => h, fun _ _ _ h => h, ?_, ?_, ?_⟩
      · intro old hold
        obtain ⟨f, hf, rfl⟩ | ⟨-, -, rfl⟩ := hblobs
        · exact ⟨f old, List.mem_map_of_mem hold, (hf old).id, (hf old).workspaceId, (hf old).sha256⟩
        · exact ⟨old, List.mem_append_left _ hold, rfl, rfl, rfl⟩
      · obtain ⟨rfl, -⟩ | ⟨r, rfl, -⟩ := hevents
        · exact List.Subset.refl _
        · exact List.subset_append_left _ _
      · obtain ⟨hsame, -⟩ | ⟨hadded, -⟩ := houtbox
        · rw [hsame]
          exact List.Subset.refl _
        · rw [hadded]
          exact List.subset_append_left _ _
    refine ⟨{ rows := h.rows_of_grows hle rfl, operationIds := h.operationIds, temporary := h.temporary,
              canonical := h.canonical, stored := ?_, digests := ?_, auditIds := ?_, audits := ?_, outboxIds := ?_,
              outbox := ?_ }, hle, ?_⟩
    · intro b hb
      obtain ⟨f, hf, rfl⟩ | ⟨-, hsame, rfl⟩ := hblobs
      · obtain ⟨old, hold, rfl⟩ := List.mem_map.mp hb
        exact (hle.stored (h.stored old hold)).same (hf old)
      · rcases List.mem_append.mp hb with hold | hlast
        · exact hle.stored (h.stored b hold)
        · rw [List.mem_singleton.mp hlast]
          have hnew : S.Stored s blob := ⟨hblobId, input, hinput, hblob, hlength, hkey, hholding⟩
          exact (hle.stored hnew).same hsame
    · obtain ⟨f, hf, rfl⟩ | ⟨hnew, -, rfl⟩ := hblobs
      · have hdigests : (s.blobs.map f).map (fun b => (b.workspaceId, b.sha256)) =
            s.blobs.map fun b => (b.workspaceId, b.sha256) := by
          rw [List.map_map]
          apply List.map_congr_left
          intro b _
          simp only [Function.comp_apply, (hf b).workspaceId, (hf b).sha256]
        simp only [hdigests]
        exact h.digests
      · simp only [List.map_append, List.map_singleton]
        apply List.Nodup.append h.digests (List.nodup_singleton _)
        intro digest hold hlast
        obtain ⟨b, hb, rfl⟩ := List.mem_map.mp hold
        simp only [List.mem_singleton, Prod.mk.injEq, hdigest.1, hdigest.2] at hlast
        exact hnew b hb hlast
    · obtain ⟨rfl, -⟩ | ⟨r, rfl, hfresh, -⟩ := hevents
      · exact h.auditIds
      · simp only [List.map_append, List.map_singleton]
        apply List.Nodup.append h.auditIds (List.nodup_singleton _)
        intro id hold hlast
        obtain ⟨old, hmem, rfl⟩ := List.mem_map.mp hold
        exact hfresh old hmem (List.mem_singleton.mp hlast)
    · obtain ⟨rfl, -⟩ | ⟨r, rfl, -, hrid, haction, hcorrelation⟩ := hevents
      · exact h.audits
      · intro x hx id hids
        rcases List.mem_append.mp hx with hold | hlast
        · exact h.audits x hold id hids
        · rw [List.mem_singleton.mp hlast, hrid, haction, hcorrelation]
          constructor
          · exact fun heq => ⟨rfl, hd.auditIds hid hids heq⟩
          · rintro ⟨-, rfl⟩
            rfl
    · obtain ⟨hsame, -⟩ | ⟨hadded, hfresh⟩ := houtbox
      · simp only [hsame]
        exact h.outboxIds
      · simp only [hadded, List.map_append, List.map_singleton]
        apply List.Nodup.append h.outboxIds (List.nodup_singleton _)
        intro id hold hlast
        obtain ⟨old, hmem, rfl⟩ := List.mem_map.mp hold
        exact hfresh old hmem (List.mem_singleton.mp hlast)
    · obtain ⟨hsame, -⟩ | ⟨hadded, -⟩ := houtbox
      · simp only [hsame]
        exact h.outbox
      · simp only [hadded]
        intro x hx id hids
        rcases List.mem_append.mp hx with hold | hlast
        · exact h.outbox x hold id hids
        · rw [List.mem_singleton.mp hlast]
          constructor
          · exact fun heq => hd.outboxIds hid hids heq
          · rintro rfl
            rfl
    · rintro recorded ⟨rfl⟩
      refine ⟨⟨?_, ?_⟩, row, hrow, hisBlob, rfl⟩
      · obtain ⟨rfl, old, hmem, holdId⟩ | ⟨r, rfl, -, hrid, -⟩ := hevents
        · exact ⟨old, hmem, holdId⟩
        · exact ⟨r, List.mem_append_right _ (List.mem_singleton_self r), hrid⟩
      · obtain ⟨hsame, old, hmem, holdId⟩ | ⟨hadded, -⟩ := houtbox
        · simp only [hsame]
          exact ⟨old, hmem, holdId⟩
        · simp only [hadded]
          exact ⟨_, List.mem_append_right _ (List.mem_singleton_self _), rfl⟩
  · cases hx
    exact ⟨h, .refl s, fun row hanswer => by cases hanswer⟩

/-- The storage of the route, after a change of its objects. -/
theorem storages_update (objects : Objects) (key : JsString) :
    ({ s with storages := Function.update s.storages S.storage objects } :
      IngestState κ).storages S.storage key = objects key := by
  simp only [Function.update_self]

/-- The bytes are written to the temporary object of the operation. -/
theorem Setting.Inv.writeTemporary (hd : S.Distinct) (h : S.Inv s) (hinput : input ∈ S.inputs)
    (hwork : ∃ row ∈ s.operations, row.id = operationId ∧ Requests input row) {key : JsString}
    (hkey : temporaryObjectKey input.workspaceId operationId = some key)
    {answer : Except IngestError ObjectMetadata}
    (hx : performIngest supplies (.writeTemporary S.storage key input.bytes input.mediaType) s =
      (answer, s')) :
    S.Inv s' ∧ S.Grows s s' ∧ ∀ metadata, answer = .ok metadata → S.Received s' input operationId := by
  rw [performIngest] at hx
  cases hw : ObjectStorage.writeTemporary (s.storages S.storage) key input.bytes input.mediaType with
  | error e =>
    rw [hw, onStorage] at hx
    cases hx
    exact ⟨h, .refl s, fun metadata hanswer => by cases hanswer⟩
  | ok result =>
    obtain ⟨htemp, o, ⟨hbody, hmedia, -⟩, ho⟩ := writeTemporary_eq_ok hw
    rw [hw, onStorage] at hx
    cases hx
    have hset : ∀ key' : JsString,
        ({ s with storages := Function.update s.storages S.storage result.2 } :
          IngestState κ).storages S.storage key' =
        if key' = key then some o else s.storages S.storage key' := by
      intro key'
      rw [storages_update, ho, Objects.set, Function.update_apply]
    have hobjects : ∀ key' o', isTemporaryKey key' = false → s.storages S.storage key' = some o' →
        ({ s with storages := Function.update s.storages S.storage result.2 } :
          IngestState κ).storages S.storage key' = some o' := by
      intro key' o' hkey' ho'
      rw [hset, if_neg, ho']
      rintro rfl
      rw [htemp] at hkey'
      cases hkey'
    have hle : S.Grows s { s with storages := Function.update s.storages S.storage result.2 } := by
      refine ⟨fun row hrow => ⟨row, hrow, .refl _ row⟩, ?_, hobjects,
        fun blob hblob => ⟨blob, hblob, rfl, rfl, rfl⟩, List.Subset.refl _, List.Subset.refl _⟩
      rintro row - other - - (⟨key', o', hkey', ho', hdigest, hlength⟩ | ⟨key', o', hkey', ho'⟩)
      · exact Or.inl ⟨key', o', hkey',
          hobjects key' o' (isTemporaryKey_canonicalObjectKey hkey') ho', hdigest, hlength⟩
      · refine Or.inr ⟨key', if key' = key then o else o', hkey', ?_⟩
        rw [hset]
        split
        · rfl
        · exact ho'
    refine ⟨{ h with
      rows := h.rows_of_grows hle rfl
      temporary := ?_
      canonical := ?_
      stored := fun blob hblob => hle.stored (h.stored blob hblob) }, hle, fun metadata _ => ?_⟩
    · intro workspaceId id key' o' hid hkey' ho'
      rw [hset] at ho'
      split at ho'
      · rename_i heq
        subst heq
        cases ho'
        obtain ⟨rfl, rfl⟩ := temporaryObjectKey_injective hkey' hkey
        obtain ⟨row, hrow, hrowId, hr⟩ := hwork
        refine ⟨row, hrow, hrowId, hr.1, fun other hother hr' => ?_⟩
        obtain ⟨-, hmedia', hbytes⟩ := hd.input_eq hother hinput hr' hr
        rw [o.digest_eq, hbody, hbytes, hmedia', hmedia]
        exact ⟨rfl, rfl, rfl⟩
      · exact h.temporary workspaceId id key' o' hid hkey' ho'
    · intro other hother key' o' hkey' ho'
      rw [hset, if_neg] at ho'
      · exact h.canonical other hother key' o' hkey' ho'
      · rintro rfl
        rw [isTemporaryKey_canonicalObjectKey hkey'] at htemp
        cases htemp
    · refine Or.inr ⟨key, o, hkey, ?_⟩
      rw [hset, if_pos rfl]

/-- The bytes are made canonical. -/
theorem Setting.Inv.commitImmutable (hd : S.Distinct) (h : S.Inv s) (hinput : input ∈ S.inputs)
    (hwork : ∃ row ∈ s.operations, row.id = operationId ∧ Requests input row) {key : JsString}
    (hkey : temporaryObjectKey input.workspaceId operationId = some key)
    {answer : Except IngestError ObjectMetadata}
    (hx : performIngest supplies (.commitImmutable S.storage key input.workspaceId
      (sha256 input.bytes) input.bytes.length input.mediaType) s = (answer, s')) :
    S.Inv s' ∧ S.Grows s s' ∧ ∀ stored, answer = .ok stored → Holding input s' S.storage ∧
      canonicalObjectKey input.workspaceId (sha256 input.bytes) = some stored.key := by
  rw [performIngest] at hx
  cases hc : ObjectStorage.commitImmutable (s.storages S.storage) key input.workspaceId
      (sha256 input.bytes) input.bytes.length input.mediaType with
  | error e =>
    rw [hc, onStorage] at hx
    cases hx
    exact ⟨h, .refl s, fun stored hanswer => by cases hanswer⟩
  | ok result =>
    obtain ⟨⟨canonical, o, hcanonical, ho, hdigest, hlength⟩, hstays⟩ := commitImmutable_eq_ok hc
    rw [hc, onStorage] at hx
    cases hx
    have hholding : Holding input
        { s with storages := Function.update s.storages S.storage result.2 } S.storage := by
      refine ⟨canonical, o, hcanonical, ?_, hdigest, hlength⟩
      rw [storages_update, ho]
    have hobjects : ∀ key' o', isTemporaryKey key' = false → s.storages S.storage key' = some o' →
        ({ s with storages := Function.update s.storages S.storage result.2 } :
          IngestState κ).storages S.storage key' = some o' := by
      intro key' o' hkey' ho'
      rw [storages_update]
      exact hstays key' o' hkey' ho'
    have hle : S.Grows s { s with storages := Function.update s.storages S.storage result.2 } := by
      refine ⟨fun row hrow => ⟨row, hrow, .refl _ row⟩, ?_, hobjects,
        fun blob hblob => ⟨blob, hblob, rfl, rfl, rfl⟩, List.Subset.refl _, List.Subset.refl _⟩
      rintro row hrow other hother hr' (⟨key', o', hkey', ho', hdigest', hlength'⟩ | ⟨key', o', hkey', ho'⟩)
      · exact Or.inl ⟨key', o', hkey',
          hobjects key' o' (isTemporaryKey_canonicalObjectKey hkey') ho', hdigest', hlength'⟩
      · by_cases hsame : key' = key
        · subst hsame
          obtain ⟨worked, hworked, hworkedId, hr⟩ := hwork
          obtain ⟨-, hid⟩ := temporaryObjectKey_injective hkey' hkey
          rw [h.row_eq hrow hworked (hid.trans hworkedId.symm)] at hr'
          obtain ⟨hworkspace, -, hbytes⟩ := hd.input_eq hother hinput hr' hr
          exact Or.inl ((holding_congr hworkspace hbytes).mpr hholding)
        · refine Or.inr ⟨key', o', hkey', ?_⟩
          rw [storages_update]
          exact commitImmutable_keeps hc hsame ho'
    refine ⟨{ h with
      rows := h.rows_of_grows hle rfl
      temporary := ?_
      canonical := ?_
      stored := fun blob hblob => hle.stored (h.stored blob hblob) }, hle, ?_⟩
    · intro workspaceId id key' o' hid hkey' ho'
      rw [storages_update] at ho'
      apply h.temporary workspaceId id key' o' hid hkey'
      refine commitImmutable_new hc (fun hcanonical' => ?_) ho'
      have htemp := isTemporaryKey_temporaryObjectKey hkey'
      rw [isTemporaryKey_canonicalObjectKey hcanonical'] at htemp
      cases htemp
    · intro other hother key' o' hkey' ho'
      rw [storages_update] at ho'
      by_cases hsame : key' = canonical
      · subst hsame
        rw [ho, Option.some.injEq] at ho'
        obtain ⟨-, hdigest'⟩ := canonicalObjectKey_injective hkey' hcanonical
        rw [← ho', hdigest, hlength, hdigest',
          hd.bytes ⟨other, hother, rfl⟩ ⟨input, hinput, rfl⟩ hdigest']
        exact ⟨rfl, rfl⟩
      · apply h.canonical other hother key' o' hkey'
        refine commitImmutable_new hc (fun hcanonical' => hsame ?_) ho'
        rw [hcanonical, Option.some.injEq] at hcanonical'
        exact hcanonical'.symm
    · rintro stored ⟨rfl⟩
      refine ⟨hholding, ?_⟩
      obtain ⟨-, key', o', hkey', hmetadata, -⟩ := commitImmutable_cases hc
      rw [hkey', hmetadata]
      rfl

end Objects

end TrustCore.ObjectIngest
