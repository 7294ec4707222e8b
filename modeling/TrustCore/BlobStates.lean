import TrustCore.IngestInterleavings
import TrustCore.Verification

/-!
# The verification state of a blob

A run over blobs, a structural run and the commit of an ingest each set the `verification_state` of
rows of `blob_objects`. Only a full run reads the stored bytes. Along with the rows a monitor keeps
the blobs that a full run has found to have other bytes than their digest, and that no full run has
passed since. A run over metadata or an ingest of the same bytes takes such a blob for verified.
-/

namespace TrustCore.BlobStates

open TrustCore.Utf TrustCore.Json TrustCore.Columns TrustCore.Runs TrustCore.Programs
open TrustCore.Outlines TrustCore.ObjectIngest TrustCore.Verification TrustCore.Dynamic
open TrustCore.AuditLog (sampleWorkspace)
open TrustCore.ObjectStorage (StorageError Objects)

/-! ## The writes of a run -/

section Writes

variable (workspaceId : JsString)

/-- `SELECT … FROM blob_objects WHERE workspace_id=$1 ORDER BY id`. -/
def listBlobs (blobs : List BlobObject) : List BlobObject :=
  (blobs.filter fun row => row.workspaceId == workspaceId).insertionSort
    fun a b => unitsLe a.id b.id = true

/-- `UPDATE blob_objects SET verification_state=$3 WHERE workspace_id=$1 AND id=$2`. -/
def setBlobVerification (blobs : List BlobObject) (blobId : JsString) (state : VerificationState) :
    List BlobObject :=
  blobs.map fun row =>
    if row.workspaceId == workspaceId && row.id == blobId then
      { row with verificationState := state }
    else row

/-- The updates of a run, one after the other. -/
def setStates (states : List (JsString × VerificationState)) (blobs : List BlobObject) :
    List BlobObject :=
  states.foldl (fun blobs update => setBlobVerification workspaceId blobs update.1 update.2) blobs

/-- The state that the last update of a row leaves. -/
def stateAfter (states : List (JsString × VerificationState)) (row : BlobObject) :
    VerificationState :=
  if row.workspaceId == workspaceId then
    (states.reverse.lookup row.id).getD row.verificationState
  else row.verificationState

theorem setStates_eq_map (states : List (JsString × VerificationState)) (blobs : List BlobObject) :
    setStates workspaceId states blobs = blobs.map fun row =>
      { row with verificationState := stateAfter workspaceId states row } := by
  induction states using List.reverseRecOn with
  | nil =>
    symm
    apply List.map_id''
    intro row
    simp [stateAfter]
  | append_singleton states update ih =>
    rw [setStates, List.foldl_concat, ← setStates, ih, setBlobVerification, List.map_map]
    apply List.map_congr_left
    intro row _
    obtain ⟨id, state⟩ := update
    by_cases hworkspace : row.workspaceId = workspaceId
    · by_cases hid : row.id = id
      · simp [stateAfter, hworkspace, hid]
      · have hne : (row.id == id) = false := beq_false_of_ne hid
        simp [stateAfter, hworkspace, hid, List.lookup_cons, hne]
    · simp [stateAfter, hworkspace]

variable {workspaceId} {blobs covered : List BlobObject} {row : BlobObject}

theorem mem_listBlobs : row ∈ listBlobs workspaceId blobs ↔
    row ∈ blobs ∧ row.workspaceId = workspaceId := by
  rw [listBlobs, (List.perm_insertionSort _ _).mem_iff, List.mem_filter, beq_iff_eq]

theorem nodup_listBlobs (h : (blobs.map BlobObject.id).Nodup) :
    ((listBlobs workspaceId blobs).map BlobObject.id).Nodup := by
  rw [listBlobs, ((List.perm_insertionSort _ _).map BlobObject.id).nodup_iff]
  exact h.sublist (List.Sublist.map _ List.filter_sublist)

/-- A covered row is left with what was found of it. -/
theorem stateAfter_covered {result : BlobObject → BlobResult}
    (hid : ∀ row ∈ covered, (result row).blobId = row.id)
    (hkeys : (covered.map BlobObject.id).Nodup) (hmem : row ∈ covered)
    (hworkspace : row.workspaceId = workspaceId) :
    stateAfter workspaceId (covered.map fun row => (result row).state) row =
      (result row).state.2 := by
  have hpairs : ((covered.map fun row => (result row).state).reverse.map Prod.fst).Nodup := by
    rw [List.map_reverse, List.nodup_reverse, List.map_map]
    have hsame : covered.map (Prod.fst ∘ fun row => (result row).state) =
        covered.map BlobObject.id := List.map_congr_left fun row hrow => hid row hrow
    rw [hsame]
    exact hkeys
  have hpair : (row.id, (result row).state.2) ∈
      (covered.map fun row => (result row).state).reverse := by
    rw [List.mem_reverse, List.mem_map]
    exact ⟨row, hmem, by rw [BlobResult.state, hid row hmem]⟩
  rw [stateAfter, if_pos (beq_iff_eq.mpr hworkspace), lookup_of_mem hpairs hpair, Option.getD_some]

/-- A row that is not covered is left alone. -/
theorem stateAfter_uncovered {result : BlobObject → BlobResult}
    (hid : ∀ row ∈ covered, (result row).blobId = row.id)
    (hmem : row.id ∉ covered.map BlobObject.id) :
    stateAfter workspaceId (covered.map fun row => (result row).state) row =
      row.verificationState := by
  have hnone : (covered.map fun row => (result row).state).reverse.lookup row.id = none := by
    apply lookup_eq_none
    rw [List.map_reverse, List.mem_reverse, List.map_map]
    have hsame : covered.map (Prod.fst ∘ fun row => (result row).state) =
        covered.map BlobObject.id := List.map_congr_left fun row hrow => hid row hrow
    rw [hsame]
    exact hmem
  simp [stateAfter, hnone]

end Writes

/-! ## Runs, ingests and the monitor -/

/-- What a full run says of a blob whose stored bytes do not have its digest. -/
def hashFailed (result : BlobResult) : Bool :=
  result.issues.any fun found => found.code == js "FULL_HASH_MISMATCH"

/-- The blobs to watch after a full run has checked one. -/
def remark (storage : BlobStorage) (marked : List JsString) (row : BlobObject) : List JsString :=
  if (verifyBlob storage row .fullBlob).passed then marked.filter fun id => id != row.id
  else if hashFailed (verifyBlob storage row .fullBlob) then row.id :: marked
  else marked

def marksAfter (storage : BlobStorage) (workspaceExists : Bool) (rows : List BlobObject)
    (marked : List JsString) : BlobLevel → List JsString
  | .metadata => marked
  | .fullBlob => if workspaceExists then rows.foldl (remark storage) marked else marked

section Monitor

variable {ι κ : Type}

structure Monitored (ι κ : Type) where
  world : IngestWorld ι κ
  marked : List JsString

/-- A step of an ingest, or one run with the answers of the storage to it, which is cut off after the
updates of its first `checked` blobs, if it has more. -/
inductive Activity (ι κ : Type) where
  | ingest (e : Event ι (Stmt κ) Stmt.Result IngestError ObjectIngestResult)
  | blobs (storage : BlobStorage) (draw : RunDraw) (workspaceId : JsString) (level : BlobLevel)
      (workspaceExists : Bool) (checked : Nat)
  | structural (storage : BlobStorage) (draw : RunDraw) (workspaceId : JsString)
      (level : StructuralLevel) (scope : Option VerificationScope) (snapshot : Snapshot)
      (checked : Nat)

/-- The catalog after so many updates of a run; a run that is refused has set nothing. -/
def afterRun (workspaceId : JsString) (checked : Nat) (s : IngestState κ) :
    Except JsString Outcome → IngestState κ
  | .error _ => s
  | .ok outcome =>
    { s with blobs := setStates workspaceId (outcome.blobStates.take checked) s.blobs }

/-- The snapshot of a structural run has the blobs of the catalog. -/
def catalogued (workspaceId : JsString) (s : IngestState κ) (snapshot : Snapshot) : Snapshot :=
  { snapshot with blobs := listBlobs workspaceId s.blobs }

/-- The blobs that a structural run checks, if it has a scope. -/
def coveredBlobs (workspaceId : JsString) (level : StructuralLevel)
    (scope : Option VerificationScope) (snapshot : Snapshot) : List BlobObject :=
  match resolveScope workspaceId level scope with
  | .error _ => []
  | .ok scope => selectedBlobs snapshot (selectScope snapshot scope) level

/-- The calls of the service, of any input on any route. -/
def AnyCall (platform : κ) (p : IngestProg κ ObjectIngestResult) : Prop :=
  ∃ provider input fields, p = ingest platform provider input fields

variable [DecidableEq ι] [DecidableEq κ] (isDate isUrl : JsString → Bool) (platform : κ)

inductive Monitored.Step : Monitored ι κ → Activity ι κ → Monitored ι κ → Prop
  | ingest {world world' : IngestWorld ι κ} {marked : List JsString}
      {e : Event ι (Stmt κ) Stmt.Result IngestError ObjectIngestResult}
      (h : (sharing (ingestExec Set.univ)).Step (AnyCall platform) world e world') :
      Step ⟨world, marked⟩ (.ingest e) ⟨world', marked⟩
  | blobs (world : IngestWorld ι κ) (marked : List JsString) (storage : BlobStorage)
      (draw : RunDraw) (workspaceId : JsString) (level : BlobLevel) (workspaceExists : Bool)
      (checked : Nat) :
      Step ⟨world, marked⟩ (.blobs storage draw workspaceId level workspaceExists checked)
        ⟨{ world with
            shared := afterRun workspaceId checked world.shared (runBlobs storage draw workspaceId
              level workspaceExists (listBlobs workspaceId world.shared.blobs)) },
          marksAfter storage workspaceExists
            ((listBlobs workspaceId world.shared.blobs).take checked) marked level⟩
  | structural (world : IngestWorld ι κ) (marked : List JsString) (storage : BlobStorage)
      (draw : RunDraw) (workspaceId : JsString) (level : StructuralLevel)
      (scope : Option VerificationScope) (snapshot : Snapshot) (checked : Nat) :
      Step ⟨world, marked⟩ (.structural storage draw workspaceId level scope snapshot checked)
        ⟨{ world with
            shared := afterRun workspaceId checked world.shared (runStructural isDate isUrl storage
              draw workspaceId level scope (catalogued workspaceId world.shared snapshot)) },
          marked⟩

/-- Runs and ingests in any order, over a catalog in which each id is of one row. -/
def monitor : Machine (Monitored ι κ) (Activity ι κ) where
  init m := (m.world.shared.blobs.map BlobObject.id).Nodup ∧ m.marked = [] ∧
    ∀ i, m.world.procs i = .idle
  step := Monitored.Step isDate isUrl platform

/-- The blobs that a full run has found corrupt, and none has passed since, have failed. -/
def StaysFailed (m : Monitored ι κ) : Prop :=
  ∀ row ∈ m.world.shared.blobs, row.id ∈ m.marked → row.verificationState = .failed

/-- The storage has an object of the key and length of the row, and no other digest for it. -/
def HeadAgrees (storage : BlobStorage) (row : BlobObject) : Prop :=
  ∃ metadata, storage.head row.storageKey = .ok metadata ∧ metadata.key = row.storageKey ∧
    metadata.byteLength = row.byteLength ∧
    ∀ stored, metadata.sha256 = some stored → stored = [] ∨ stored = row.sha256

/-- The commit of an ingest leaves the watched blobs alone, or is refused by the database. -/
def Spares (marked : List JsString) (s : IngestState κ) : Stmt κ → Prop
  | .commitVerifiedIngest blob operationId actorId actorType occurredAt =>
    (∀ row ∈ s.blobs, row.id ∈ marked → ofDigest blob.workspaceId blob.sha256 row = false) ∨
      ∃ e, commitVerifiedIngest s blob operationId actorId actorType occurredAt = .error e
  | _ => True

/-- No weaker check passes a blob that a full run has found corrupt. -/
def Admits (m : Monitored ι κ) : Activity ι κ → Prop
  | .ingest e => OnStatements (Spares m.marked) m.world e
  | .blobs storage _ workspaceId .metadata true checked =>
    ∀ row ∈ (listBlobs workspaceId m.world.shared.blobs).take checked,
      row.id ∈ m.marked → ¬ HeadAgrees storage row
  | .blobs .. => True
  | .structural storage _ workspaceId level scope snapshot checked =>
    ∀ row ∈ (coveredBlobs workspaceId level scope
        (catalogued workspaceId m.world.shared snapshot)).take checked,
      row.id ∈ m.marked → ¬ HeadAgrees storage row

end Monitor

/-! ## What a check finds -/

section Checks

variable {storage : BlobStorage} {row : BlobObject}

theorem blobId_verifyBlob (storage : BlobStorage) (row : BlobObject) (level : BlobLevel) :
    (verifyBlob storage row level).blobId = row.id := by
  unfold verifyBlob
  split
  · rfl
  · cases level with
    | metadata => rfl
    | fullBlob =>
      dsimp only
      split <;> rfl

theorem headIssues_eq_nil_iff {metadata : HeadMetadata} : headIssues row metadata = [] ↔
    metadata.key = row.storageKey ∧ metadata.byteLength = row.byteLength ∧
      ∀ stored, metadata.sha256 = some stored → stored = [] ∨ stored = row.sha256 := by
  rw [headIssues, List.append_eq_nil_iff, List.append_eq_nil_iff, and_assoc]
  refine and_congr ?_ (and_congr ?_ ?_)
  · split <;> simp_all
  · split <;> simp_all
  · cases metadata.sha256 with
    | none => simp
    | some stored =>
      by_cases hempty : stored = []
      · simp [hempty]
      · by_cases hsame : stored = row.sha256 <;> simp [hempty, hsame]

/-- A check of the metadata passes where the head agrees. -/
theorem passed_metadata_iff :
    (verifyBlob storage row .metadata).passed = true ↔ HeadAgrees storage row := by
  unfold verifyBlob HeadAgrees
  cases storage.head row.storageKey with
  | error message => simp
  | ok metadata => simp [← headIssues_eq_nil_iff]

/-- A blob that is watched after full runs was found corrupt, or it was watched before and not
checked. -/
theorem mem_marks {rows : List BlobObject} {marked : List JsString} {id : JsString}
    (h : id ∈ rows.foldl (remark storage) marked) :
    (∃ row ∈ rows, row.id = id ∧ (verifyBlob storage row .fullBlob).passed = false) ∨
      (id ∉ rows.map BlobObject.id ∧ id ∈ marked) := by
  induction rows generalizing marked with
  | nil => exact Or.inr ⟨by simp, h⟩
  | cons row rows ih =>
    rcases ih h with ⟨found, hmem, hid, hfailed⟩ | ⟨hothers, hmarked⟩
    · exact Or.inl ⟨found, List.mem_cons_of_mem _ hmem, hid, hfailed⟩
    rw [remark] at hmarked
    by_cases hpassed : (verifyBlob storage row .fullBlob).passed = true
    · rw [if_pos hpassed, List.mem_filter, bne_iff_ne] at hmarked
      refine Or.inr ⟨?_, hmarked.1⟩
      rw [List.map_cons, List.mem_cons, not_or]
      exact ⟨hmarked.2, hothers⟩
    · by_cases hid : row.id = id
      · exact Or.inl ⟨row, List.mem_cons_self, hid, by simpa using hpassed⟩
      · refine Or.inr ⟨?_, ?_⟩
        · rw [List.map_cons, List.mem_cons, not_or]
          exact ⟨Ne.symm hid, hothers⟩
        · rw [if_neg hpassed] at hmarked
          split at hmarked
          · exact (List.mem_cons.mp hmarked).resolve_left (Ne.symm hid)
          · exact hmarked

end Checks

/-! ## One step -/

section Steps

variable {ι κ : Type} [DecidableEq ι] [DecidableEq κ] {isDate isUrl : JsString → Bool}
  {platform : κ} {storage : BlobStorage} {workspaceId : JsString} {s s' : IngestState κ}
  {covered : List BlobObject} {marked marked' : List JsString}

/-- The rows and what is watched. -/
structure Watched (blobs : List BlobObject) (marked : List JsString) : Prop where
  ids : (blobs.map BlobObject.id).Nodup
  marked : ∀ id ∈ marked, id ∈ blobs.map BlobObject.id

def AllFailed (blobs : List BlobObject) (marked : List JsString) : Prop :=
  ∀ row ∈ blobs, row.id ∈ marked → row.verificationState = .failed

theorem map_id_setStates (states : List (JsString × VerificationState)) (blobs : List BlobObject) :
    (setStates workspaceId states blobs).map BlobObject.id = blobs.map BlobObject.id := by
  rw [setStates_eq_map, List.map_map]
  rfl

/-- After a run over some rows of the workspace each watched row has failed exactly where its check
has, and where it was not checked it has not changed. -/
theorem allFailed_setStates {level : BlobLevel} {blobs : List BlobObject}
    (hids : (blobs.map BlobObject.id).Nodup)
    (hcovered : ∀ row ∈ covered, row ∈ blobs ∧ row.workspaceId = workspaceId)
    (hnodup : (covered.map BlobObject.id).Nodup)
    (hothers : ∀ row ∈ blobs, row.id ∈ marked → row.id ∉ covered.map BlobObject.id →
      row.verificationState = .failed) :
    AllFailed (setStates workspaceId
        (covered.map fun row => (verifyBlob storage row level).state) blobs) marked ↔
      ∀ row ∈ covered, row.id ∈ marked → (verifyBlob storage row level).passed = false := by
  have hresult : ∀ row ∈ covered, (verifyBlob storage row level).blobId = row.id :=
    fun row _ => blobId_verifyBlob storage row level
  rw [setStates_eq_map]
  constructor
  · intro h row hmem hmark
    obtain ⟨hblob, hworkspace⟩ := hcovered row hmem
    have hfailed := h _ (List.mem_map_of_mem hblob) hmark
    simp only at hfailed
    rw [stateAfter_covered hresult hnodup hmem hworkspace, BlobResult.state] at hfailed
    by_contra hpassed
    rw [Bool.not_eq_false] at hpassed
    simp [hpassed] at hfailed
  · intro h after hafter hmark
    obtain ⟨row, hblob, rfl⟩ := List.mem_map.mp hafter
    simp only at hmark ⊢
    by_cases hmem : row.id ∈ covered.map BlobObject.id
    · obtain ⟨same, hsame, hid⟩ := List.mem_map.mp hmem
      obtain rfl : same = row := List.inj_on_of_nodup_map hids (hcovered same hsame).1 hblob hid
      rw [stateAfter_covered hresult hnodup hsame (hcovered same hsame).2, BlobResult.state,
        h same hsame hmark]
      rfl
    · rw [stateAfter_uncovered hresult hmem]
      exact hothers row hblob hmark hmem

theorem mem_ids_marks {rows : List BlobObject} {level : BlobLevel} {workspaceExists : Bool}
    {id : JsString} (h : id ∈ marksAfter storage workspaceExists rows marked level) :
    id ∈ marked ∨ id ∈ rows.map BlobObject.id := by
  cases level with
  | metadata => exact Or.inl h
  | fullBlob =>
    cases workspaceExists with
    | false => exact Or.inl h
    | true =>
      rcases mem_marks h with ⟨row, hmem, rfl, -⟩ | ⟨-, hmark⟩
      · exact Or.inr (List.mem_map_of_mem hmem)
      · exact Or.inl hmark

omit [DecidableEq κ] in
theorem blobs_requireUpdated (s : IngestState κ) (workspaceId operationId : JsString)
    (set : IngestOperation → IngestOperation) :
    (requireUpdated s workspaceId operationId set).2.blobs = s.blobs := by
  rw [requireUpdated]
  split <;> rfl

theorem blobs_onStorage {α : Type} (s : IngestState κ) (storage : κ)
    (result : Except StorageError (α × Objects)) : (onStorage s storage result).2.blobs = s.blobs := by
  cases result <;> rfl

/-- A statement of an ingest other than a commit that takes effect leaves the catalog alone. -/
theorem blobs_of_exec {st : Stmt κ} {r : st.Result} (hx : ingestExec Set.univ s st r s') :
    (s'.blobs = s.blobs ∧ ∀ marked, Spares marked s st) ∨
      ∃ blob operationId actorId actorType occurredAt row,
      st = .commitVerifiedIngest blob operationId actorId actorType occurredAt ∧
      commitVerifiedIngest s blob operationId actorId actorType occurredAt = .ok (row, s') := by
  obtain ⟨supplies, -, hperform⟩ := hx
  have hstate : s' = (performIngest supplies st s).2 := by rw [hperform]
  cases st with
  | commitVerifiedIngest blob operationId actorId actorType occurredAt =>
    rw [performIngest] at hperform
    split at hperform
    · rename_i row s'' hcommit
      cases hperform
      exact Or.inr ⟨blob, operationId, actorId, actorType, occurredAt, row, rfl, hcommit⟩
    · rename_i e hcommit
      cases hperform
      exact Or.inl ⟨rfl, fun _ => Or.inr ⟨e, hcommit⟩⟩
  | begin workspaceId idempotencyKey actorId requestHash =>
    rw [hstate, performIngest]
    split <;> exact Or.inl ⟨rfl, fun _ => trivial⟩
  | saveContext => exact Or.inl ⟨hstate ▸ blobs_requireUpdated _ _ _ _, fun _ => trivial⟩
  | markCheckpoint => exact Or.inl ⟨hstate ▸ rfl, fun _ => trivial⟩
  | complete => exact Or.inl ⟨hstate ▸ blobs_requireUpdated _ _ _ _, fun _ => trivial⟩
  | fail => exact Or.inl ⟨hstate ▸ blobs_requireUpdated _ _ _ _, fun _ => trivial⟩
  | findByHash => exact Or.inl ⟨hstate ▸ rfl, fun _ => trivial⟩
  | createTemporaryUpload =>
    rw [hstate, performIngest]
    split <;> exact Or.inl ⟨rfl, fun _ => trivial⟩
  | writeTemporary => exact Or.inl ⟨hstate ▸ blobs_onStorage _ _ _, fun _ => trivial⟩
  | commitImmutable => exact Or.inl ⟨hstate ▸ blobs_onStorage _ _ _, fun _ => trivial⟩
  | now => exact Or.inl ⟨hstate ▸ rfl, fun _ => trivial⟩
  | nextId => exact Or.inl ⟨hstate ▸ rfl, fun _ => trivial⟩

/-- What a commit that takes effect does to the catalog. -/
theorem recordBlob_cases {blobs blobs' : List BlobObject} {blob row : BlobObject}
    (h : recordBlob blobs blob = .ok (row, blobs')) :
    ((∃ row ∈ blobs, ofDigest blob.workspaceId blob.sha256 row = true) ∧
      blobs' = blobs.map fun row =>
        if ofDigest blob.workspaceId blob.sha256 row then mergeBlob blob row else row) ∨
    ((∀ row ∈ blobs, ofDigest blob.workspaceId blob.sha256 row = false) ∧
      blob.id ∉ blobs.map BlobObject.id ∧
      blobs' = blobs ++ [{ blob with verificationState := .verified }]) := by
  rw [recordBlob] at h
  split at h
  · rename_i found hfound
    cases h
    exact Or.inl ⟨⟨found, List.mem_of_find?_eq_some hfound, List.find?_some hfound⟩, rfl⟩
  · rename_i hnone
    split at h
    · cases h
    · rename_i hfresh
      cases h
      refine Or.inr ⟨by simpa using hnone, ?_, rfl⟩
      intro hmem
      obtain ⟨row, hrow, hid⟩ := List.mem_map.mp hmem
      refine hfresh (List.any_eq_true.mpr ⟨row, hrow, ?_⟩)
      rw [beq_iff_eq.mpr hid, Bool.true_or]

theorem Watched.record {blobs blobs' : List BlobObject} {blob row : BlobObject}
    (hw : Watched blobs marked) (h : recordBlob blobs blob = .ok (row, blobs')) :
    Watched blobs' marked := by
  rcases recordBlob_cases h with ⟨-, rfl⟩ | ⟨-, hfresh, rfl⟩
  · have hids : (blobs.map fun row =>
        if ofDigest blob.workspaceId blob.sha256 row then mergeBlob blob row else row).map
          BlobObject.id = blobs.map BlobObject.id := by
      rw [List.map_map]
      apply List.map_congr_left
      intro row _
      simp only [Function.comp_apply]
      split <;> rfl
    exact ⟨hids ▸ hw.ids, hids ▸ hw.marked⟩
  · refine ⟨?_, fun id hid => ?_⟩
    · rw [List.map_append, List.map_singleton]
      exact List.nodup_append.mpr ⟨hw.ids, List.nodup_singleton _, by
        rintro id hid id' hid' rfl
        exact hfresh (List.mem_singleton.mp hid' ▸ hid)⟩
    · rw [List.map_append]
      exact List.mem_append_left _ (hw.marked id hid)

/-- A recorded blob is verified, whatever its row said. -/
theorem allFailed_record {blobs blobs' : List BlobObject} {blob row : BlobObject}
    (hw : Watched blobs marked) (hfailed : AllFailed blobs marked)
    (h : recordBlob blobs blob = .ok (row, blobs')) : AllFailed blobs' marked ↔
      ∀ row ∈ blobs, row.id ∈ marked → ofDigest blob.workspaceId blob.sha256 row = false := by
  rcases recordBlob_cases h with ⟨-, rfl⟩ | ⟨hnone, hfresh, rfl⟩
  · constructor
    · intro hafter row hrow hmark
      by_contra hdigest
      rw [Bool.not_eq_false] at hdigest
      have hstate := hafter _ (List.mem_map_of_mem hrow)
      simp only [hdigest, if_true, mergeBlob] at hstate
      cases hstate hmark
    · intro hspared after hafter hmark
      obtain ⟨row, hrow, rfl⟩ := List.mem_map.mp hafter
      by_cases hdigest : ofDigest blob.workspaceId blob.sha256 row = true
      · rw [if_pos hdigest] at hmark
        rw [hspared row hrow hmark] at hdigest
        cases hdigest
      · rw [if_neg hdigest] at hmark ⊢
        exact hfailed row hrow hmark
  · refine iff_of_true ?_ fun row hrow _ => hnone row hrow
    intro after hafter hmark
    rcases List.mem_append.mp hafter with hafter | hafter
    · exact hfailed after hafter hmark
    · rw [List.mem_singleton.mp hafter] at hmark
      exact absurd (hw.marked _ hmark) hfresh

omit [DecidableEq κ] in
theorem commit_ok_iff {blob : BlobObject} {operationId actorId : JsString}
    {actorType : AuditChain.ActorType} {occurredAt : Instant} {row : BlobObject}
    (hw : Watched s.blobs marked) (hfailed : AllFailed s.blobs marked)
    (h : commitVerifiedIngest s blob operationId actorId actorType occurredAt = .ok (row, s')) :
    Watched s'.blobs marked ∧ (AllFailed s'.blobs marked ↔
      Spares marked s (.commitVerifiedIngest blob operationId actorId actorType occurredAt)) := by
  obtain ⟨blobs, auditEvents, hrecord, -, rfl⟩ := commitVerifiedIngest_eq_ok h
  refine ⟨hw.record hrecord, ?_⟩
  rw [Spares, h]
  simp only [reduceCtorEq, exists_false, or_false]
  exact allFailed_record hw hfailed hrecord

theorem Watched.setStates {blobs : List BlobObject} (hw : Watched blobs marked)
    (workspaceId : JsString) (states : List (JsString × VerificationState))
    (hmarks : ∀ id ∈ marked', id ∈ marked ∨ id ∈ (listBlobs workspaceId blobs).map BlobObject.id) :
    Watched (BlobStates.setStates workspaceId states blobs) marked' := by
  refine ⟨?_, fun id hid => ?_⟩
  · rw [map_id_setStates]
    exact hw.ids
  · rw [map_id_setStates]
    rcases hmarks id hid with hmark | hmem
    · exact hw.marked id hmark
    · obtain ⟨row, hrow, rfl⟩ := List.mem_map.mp hmem
      exact List.mem_map_of_mem (mem_listBlobs.mp hrow).1

/-- Checks of the metadata keep the watched blobs failed where no head agrees. -/
theorem allFailed_metadata {blobs : List BlobObject} (hw : Watched blobs marked)
    (hfailed : AllFailed blobs marked) (hsub : covered.Sublist (listBlobs workspaceId blobs)) :
    AllFailed (setStates workspaceId
        (covered.map fun row => (verifyBlob storage row .metadata).state) blobs) marked ↔
      ∀ row ∈ covered, row.id ∈ marked → ¬ HeadAgrees storage row := by
  rw [allFailed_setStates hw.ids (fun row hrow => mem_listBlobs.mp (hsub.subset hrow))
    ((nodup_listBlobs hw.ids).sublist (hsub.map BlobObject.id))
    fun row hrow hmark _ => hfailed row hrow hmark]
  refine forall_congr' fun row => forall_congr' fun _ => forall_congr' fun _ => ?_
  rw [← Bool.not_eq_true, passed_metadata_iff]

/-- A full run leaves what it watches failed. -/
theorem allFailed_fullBlob {blobs : List BlobObject} (hw : Watched blobs marked)
    (hfailed : AllFailed blobs marked) (hsub : covered.Sublist (listBlobs workspaceId blobs)) :
    AllFailed (setStates workspaceId
        (covered.map fun row => (verifyBlob storage row .fullBlob).state) blobs)
      (covered.foldl (remark storage) marked) := by
  have hnodup : (covered.map BlobObject.id).Nodup :=
    (nodup_listBlobs hw.ids).sublist (hsub.map BlobObject.id)
  rw [allFailed_setStates hw.ids (fun row hrow => mem_listBlobs.mp (hsub.subset hrow)) hnodup]
  · intro row hrow hmark
    rcases mem_marks hmark with ⟨same, hsame, hid, hnot⟩ | ⟨hout, -⟩
    · obtain rfl : same = row := List.inj_on_of_nodup_map hnodup hsame hrow hid
      exact hnot
    · exact absurd (List.mem_map_of_mem hrow) hout
  · intro row hrow hmark hout
    rcases mem_marks hmark with ⟨same, hsame, hid, -⟩ | ⟨-, hbefore⟩
    · exact absurd (hid ▸ List.mem_map_of_mem hsame) hout
    · exact hfailed row hrow hbefore

/-- A step of a call of the service. -/
theorem ingest_step_iff {world world' : IngestWorld ι κ}
    {e : Event ι (Stmt κ) Stmt.Result IngestError ObjectIngestResult}
    (hw : Watched world.shared.blobs marked) (hfailed : AllFailed world.shared.blobs marked)
    (h : (sharing (ingestExec Set.univ)).Step (AnyCall platform) world e world') :
    Watched world'.shared.blobs marked ∧
      (AllFailed world'.shared.blobs marked ↔ OnStatements (Spares marked) world e) := by
  cases h with
  | begin i p hidle hp => exact ⟨hw, iff_of_true hfailed trivial⟩
  | fail i tx p hi hp => exact ⟨hw, iff_of_true hfailed trivial⟩
  | finish i tx a hi => exact ⟨hw, iff_of_true hfailed trivial⟩
  | run i tx tx' st k r shared' hi hx hc =>
    have hadmits : OnStatements (Spares marked) world (.run i) ↔ Spares marked world.shared st := by
      constructor
      · exact fun h => h tx st k hi
      · intro h tx' st' k' hi'
        rw [hi, Proc.running.injEq, Prog.stmt.injEq] at hi'
        obtain ⟨-, rfl, -⟩ := hi'
        exact h
    rw [hadmits]
    rcases blobs_of_exec hx with ⟨hblobs, hspares⟩ | ⟨blob, op, actor, ty, t, row, rfl, hcommit⟩
    · rw [hblobs]
      exact ⟨hw, iff_of_true hfailed (hspares marked)⟩
    · exact commit_ok_iff hw hfailed hcommit

/-- One step keeps the watched blobs failed exactly where it is admitted. -/
theorem Monitored.step_iff {m m' : Monitored ι κ} {e : Activity ι κ}
    (hw : Watched m.world.shared.blobs m.marked) (hfailed : StaysFailed m)
    (h : Monitored.Step isDate isUrl platform m e m') :
    Watched m'.world.shared.blobs m'.marked ∧ (StaysFailed m' ↔ Admits m e) := by
  cases h with
  | @ingest world world' marked e hstep => exact ingest_step_iff hw hfailed hstep
  | blobs world marked storage draw workspaceId level workspaceExists checked =>
    cases workspaceExists with
    | false =>
      cases level with
      | metadata => exact ⟨hw, iff_of_true hfailed trivial⟩
      | fullBlob => exact ⟨hw, iff_of_true hfailed trivial⟩
    | true =>
      have hblobs : (afterRun workspaceId checked world.shared (runBlobs storage draw workspaceId
          level true (listBlobs workspaceId world.shared.blobs))).blobs =
        setStates workspaceId (((listBlobs workspaceId world.shared.blobs).take checked).map
          fun row => (verifyBlob storage row level).state) world.shared.blobs := by
        simp only [runBlobs, Bool.not_true, Bool.false_eq_true, if_false, afterRun, List.map_map,
          ← List.map_take]
        rfl
      have hsub := List.take_sublist checked (listBlobs workspaceId world.shared.blobs)
      refine ⟨hblobs ▸ hw.setStates workspaceId _ fun id hid => ?_, ?_⟩
      · exact (mem_ids_marks hid).imp_right fun hmem => (hsub.map BlobObject.id).subset hmem
      · rw [StaysFailed, ← AllFailed, hblobs]
        cases level with
        | metadata => exact allFailed_metadata hw hfailed hsub
        | fullBlob => exact iff_of_true (allFailed_fullBlob hw hfailed hsub) trivial
  | structural world marked storage draw workspaceId level scope snapshot checked =>
    have hblobs : (afterRun workspaceId checked world.shared (runStructural isDate isUrl storage draw
        workspaceId level scope (catalogued workspaceId world.shared snapshot))).blobs =
      setStates workspaceId (((coveredBlobs workspaceId level scope
        (catalogued workspaceId world.shared snapshot)).take checked).map fun row =>
          (verifyBlob storage row .metadata).state) world.shared.blobs := by
      rw [runStructural, coveredBlobs]
      cases resolveScope workspaceId level scope with
      | error message =>
        rw [List.take_nil]
        rfl
      | ok scope =>
        rw [List.map_take]
        rfl
    refine ⟨hblobs ▸ hw.setStates workspaceId _ fun id => Or.inl, ?_⟩
    rw [StaysFailed, ← AllFailed, hblobs]
    apply allFailed_metadata hw hfailed
    refine (List.take_sublist checked _).trans ?_
    rw [coveredBlobs]
    split
    · exact List.nil_sublist _
    · rw [selectedBlobs]
      split
      · exact List.Sublist.refl _
      · exact List.filter_sublist

end Steps

/-! ## Runs -/

section Runs

variable {ι κ : Type} [DecidableEq ι] [DecidableEq κ] {isDate isUrl : JsString → Bool} {platform : κ}

/-- What admitted runs keep. -/
structure Kept (m : Monitored ι κ) : Prop where
  watched : Watched m.world.shared.blobs m.marked
  failed : StaysFailed m

theorem kept_of_reaches {m : Monitored ι κ}
    (h : (monitor isDate isUrl platform).Reaches Admits m) : Kept m := by
  refine h.invariant ?_ ?_
  · rintro m ⟨hids, hmarked, -⟩
    refine ⟨⟨hids, ?_⟩, ?_⟩
    · simp [hmarked]
    · simp [StaysFailed, hmarked]
  · intro m e m' hm hadmits hstep
    have hnext := Monitored.step_iff hm.watched hm.failed hstep
    exact ⟨hnext.1, hnext.2.mpr hadmits⟩

/-- In every run of verifications and ingests in which each step is admitted, every blob that a full
run has found corrupt, and no later one has passed, has failed in every state; and the first step
that is not admitted is one after which some such blob has not. -/
theorem failed_blobs_stay (isDate isUrl : JsString → Bool) (platform : κ) :
    (∀ m : Monitored ι κ, (monitor isDate isUrl platform).Reaches Admits m → StaysFailed m) ∧
    ∀ (m m' : Monitored ι κ) (e : Activity ι κ), (monitor isDate isUrl platform).Reaches Admits m →
      (monitor isDate isUrl platform).step m e m' → (StaysFailed m' ↔ Admits m e) := by
  refine ⟨fun m h => (kept_of_reaches h).failed, fun m m' e h hstep => ?_⟩
  obtain ⟨hw, hfailed⟩ := kept_of_reaches h
  exact (Monitored.step_iff hw hfailed hstep).2

end Runs

/-! ## A corrupt blob -/

def catalogBlob (id : String) (digit : UInt16) : BlobObject :=
  { id := js id, workspaceId := sampleWorkspace
    sha256 := List.replicate 64 digit, byteLength := 1, mediaType := js "text/plain"
    storageProvider := js "s3", storageKey := js id, encryptionState := .providerManaged
    encryptionKeyRef := none, verificationState := .verified, createdAt := js "2026-01-01"
    storageBindingId := none, storageBindingGeneration := none }

/-- Two blobs, the second checked after the first. -/
def corruptBlob : BlobObject := catalogBlob "00000000-0000-4000-8000-00000000000b" 48

def uncheckedBlob : BlobObject := catalogBlob "00000000-0000-4000-8000-00000000000c" 49

/-- A storage with other bytes of the same length, which has recorded no digest. -/
def corruptStorage : BlobStorage where
  head key := .ok ⟨key, 1, none⟩
  openReadStream _ := ([0], none)

/-- The same storage, which has recorded the digest of what it has. -/
def honestStorage : BlobStorage where
  head key := .ok ⟨key, 1, some (Sha256.sha256 [0])⟩
  openReadStream _ := ([0], none)

def sampleDraw : RunDraw := ⟨js "r", js "t", js "t"⟩

def sampleMonitored : Monitored Unit Unit where
  world := ⟨⟨fun _ _ => none, [], [corruptBlob, uncheckedBlob], [], []⟩, fun _ => .idle⟩
  marked := []

def sampleRun (storage : BlobStorage) (level : BlobLevel) (checked : Nat) : Activity Unit Unit :=
  .blobs storage sampleDraw sampleWorkspace level true checked

def afterSample (storage : BlobStorage) (m : Monitored Unit Unit) (level : BlobLevel)
    (checked : Nat) : Monitored Unit Unit where
  world :=
    { m.world with
      shared := afterRun sampleWorkspace checked m.world.shared (runBlobs storage sampleDraw
        sampleWorkspace level true (listBlobs sampleWorkspace m.world.shared.blobs)) }
  marked := marksAfter storage true
    ((listBlobs sampleWorkspace m.world.shared.blobs).take checked) m.marked level

/-- A full run that is cut off after the first blob, and a run over metadata that finds the recorded
digest different. -/
theorem failed_blobs_stay_sample :
    let m := afterSample honestStorage (afterSample honestStorage sampleMonitored .fullBlob 1)
      .metadata 2
    m.marked = [corruptBlob.id] ∧ StaysFailed m := by
  have hinit : (monitor (fun _ => false) (fun _ => false) () :
      Machine (Monitored Unit Unit) (Activity Unit Unit)).init sampleMonitored :=
    ⟨by decide, rfl, fun _ => rfl⟩
  have hadmits : Admits (afterSample honestStorage sampleMonitored .fullBlob 1)
      (sampleRun honestStorage .metadata 2) := by
    rintro row hrow - ⟨metadata, hhead, -, -, hdigest⟩
    have hstored := (mem_listBlobs.mp (List.mem_of_mem_take hrow)).1
    change row ∈ setStates sampleWorkspace _ [corruptBlob, uncheckedBlob] at hstored
    rw [setStates_eq_map] at hstored
    obtain ⟨blob, hblob, rfl⟩ := List.mem_map.mp hstored
    cases hhead
    rcases hdigest _ rfl with hempty | hsame
    · exact absurd hempty (by decide +kernel)
    · change Sha256.sha256 [0] = blob.sha256 at hsame
      obtain rfl | rfl : blob = corruptBlob ∨ blob = uncheckedBlob := by simpa using hblob
      · exact absurd hsame (by decide +kernel)
      · exact absurd hsame (by decide +kernel)
  refine ⟨by decide +kernel, (failed_blobs_stay (fun _ => false) (fun _ => false) ()).1 _ ?_⟩
  exact ((Machine.Reaches.init hinit).step (e := sampleRun honestStorage .fullBlob 1) trivial
    (.blobs _ _ _ _ _ _ _ _)).step (e := sampleRun honestStorage .metadata 2) hadmits
      (.blobs _ _ _ _ _ _ _ _)

/-- The full run marks the blob, and the run over metadata takes it for verified again. -/
theorem metadata_run_verifies :
    ∃ m : Monitored Unit Unit, (monitor (fun _ => false) (fun _ => false) ()).Reachable m ∧
      (∃ row ∈ m.world.shared.blobs, row.id ∈ m.marked ∧ row.verificationState = .verified) ∧
      ¬ StaysFailed m := by
  have hinit : (monitor (fun _ => false) (fun _ => false) () :
      Machine (Monitored Unit Unit) (Activity Unit Unit)).init sampleMonitored :=
    ⟨by decide, rfl, fun _ => rfl⟩
  refine ⟨afterSample corruptStorage (afterSample corruptStorage sampleMonitored .fullBlob 2)
      .metadata 2, ((Machine.Reaches.init hinit).step (e := sampleRun corruptStorage .fullBlob 2)
      trivial (.blobs _ _ _ _ _ _ _ _)).step (e := sampleRun corruptStorage .metadata 2) trivial
      (.blobs _ _ _ _ _ _ _ _), ?_, ?_⟩
  · decide +kernel
  · unfold StaysFailed
    decide +kernel

end TrustCore.BlobStates
