import TrustCore.IngestInterleavings

/-!
# Completed ingests

A completed operation is meant to stay as it is and to answer every later call with its
result. A later call finds the bytes catalogued, though, and answers that they were
there before; and a slow call may save its context and its result over those of one
that was faster. In the runs in which neither happens, completed operations stay.
-/

namespace TrustCore.ObjectIngest

open TrustCore.Utf TrustCore.Sha256 TrustCore.ObjectStorage TrustCore.Programs TrustCore.Outlines
open TrustCore.Runs

section Kept

variable {κ : Type}

/-- Every completed operation is as it was. -/
def CompletedKept (s s' : IngestState κ) : Prop :=
  ∀ row ∈ s.operations, row.state = .reached .completed → ∃ row' ∈ s'.operations,
    row'.id = row.id ∧ row'.state = row.state ∧ row'.context = row.context ∧ row'.result = row.result

theorem CompletedKept.refl (s : IngestState κ) : CompletedKept s s :=
  fun row hrow _ => ⟨row, hrow, rfl, rfl, rfl, rfl⟩

theorem CompletedKept.trans {s s' s'' : IngestState κ} (h : CompletedKept s s')
    (h' : CompletedKept s' s'') : CompletedKept s s'' := by
  intro row hrow hstate
  obtain ⟨row', hrow', hid, hstate', hcontext, hresult⟩ := h row hrow hstate
  obtain ⟨row'', hrow'', hid', hstate'', hcontext', hresult'⟩ := h' row' hrow' (hstate'.trans hstate)
  exact ⟨row'', hrow'', hid'.trans hid, hstate''.trans hstate', hcontext'.trans hcontext,
    hresult'.trans hresult⟩

theorem Setting.Grows.completedKept {S : Setting κ} {s s' : IngestState κ} (h : S.Grows s s')
    (hkeeps : S.keepsCompleted) : CompletedKept s s' := by
  intro row hrow hstate
  obtain ⟨row', hrow', ha⟩ := h.rows row hrow
  obtain ⟨hstate', hcontext, hresult⟩ := ha.completed hkeeps hstate
  exact ⟨row', hrow', ha.id, hstate'.trans hstate.symm, hcontext, hresult⟩

end Kept

section Later

variable {κ : Type} [DecidableEq κ] {S : Setting κ} {s : IngestState κ} {input : IngestInput}
  {supplies : Supplies}

theorem returns_ofExcept {α : Type} {a : α} {answer : Except IngestError α} {s : IngestState κ}
    {Q : α → IngestState κ → Prop} (hanswer : answer = .ok a) (hQ : Q a s) :
    (Prog.ofExcept answer : IngestProg κ α).Returns (performIngest supplies) s Q := by
  rw [hanswer]
  exact Prog.returns_pure.mpr hQ

omit [DecidableEq κ] in
/-- An operation has one row. -/
theorem Setting.Inv.length_ofId (h : S.Inv s) {row : IngestOperation} (hrow : row ∈ s.operations) :
    (s.operations.filter (ofId row.workspaceId row.id)).length = 1 := by
  apply length_filter_eq_one h.operationIds (b := row.id) _ ⟨row, hrow, rfl⟩
  intro other hother
  rw [ofId_iff]
  constructor
  · exact fun hboth => hboth.2
  · intro hid
    rw [h.row_eq hother hrow hid]
    exact ⟨rfl, rfl⟩

omit [DecidableEq κ] in
/-- An update of the row of an operation changes one row. -/
theorem Setting.Inv.requireUpdated_ok (h : S.Inv s) {row : IngestOperation} (hrow : row ∈ s.operations)
    (set : IngestOperation → IngestOperation) :
    (ObjectIngest.requireUpdated s row.workspaceId row.id set).1 = .ok () := by
  rw [ObjectIngest.requireUpdated, if_pos (h.length_ofId hrow)]

/-- The checkpoints of the call but the last are marked, and the bytes are catalogued. -/
structure IngestDone (input : IngestInput) (s : IngestState κ) (row : IngestOperation)
    (existing : BlobObject) : Prop where
  operation : operationOf input s = some row
  request : row.requestHash = requestHashOf input
  checkpoints : ∀ name, name ≠ .completed → name ∈ row.checkpoints
  one : (s.operations.filter (ofId row.workspaceId row.id)).length = 1
  blob : s.blobs.find? (ofDigest input.workspaceId (sha256 input.bytes)) = some existing

/-- A call of what is done finds the bytes and has nothing left to do. -/
theorem IngestDone.returns {row : IngestOperation} {existing : BlobObject}
    (h : IngestDone input s row existing) (supplies : Supplies) {platform : κ}
    {provider : JsString} {fields : RoutingFields κ} :
    (ingest platform provider input fields).Returns (performIngest supplies) s fun a _ =>
      a.operationId = row.id ∧ a.deduplicated = true ∧ a.blob = existing := by
  have hworkspace : row.workspaceId = input.workspaceId := ofKey_operationOf h.operation
  have hskip : ∀ name (effect : Progress → IngestProg κ Progress) context blob deduplicated,
      name ≠ .completed → checkpoint input.workspaceId row.id name effect
        ⟨row.checkpoints, context, blob, deduplicated⟩ =
        .pure ⟨row.checkpoints, context, blob, deduplicated⟩ := by
    intro name effect context blob deduplicated hname
    rw [checkpoint, if_pos (h.checkpoints name hname)]
  rw [ingest, Prog.returns_bind, Prog.returns_perform]
  have hbegin : performIngest supplies (Stmt.begin input.workspaceId input.idempotencyKey input.actorId
      (requestHashOf input)) s = (.ok row, s) := by
    have hfind := h.operation
    rw [operationOf] at hfind
    rw [performIngest, ObjectIngest.begin]
    simp only [hfind]
  rw [hbegin, Prog.returns_bind]
  apply returns_ofExcept rfl
  rw [if_neg (not_not.mpr h.request)]
  apply Prog.Returns.catchError
  rw [runIngest, hskip _ _ _ _ _ (by decide), Prog.bind, Prog.returns_bind, Prog.returns_perform]
  have hsearch : performIngest supplies (Stmt.findByHash input.workspaceId (sha256 input.bytes)) s =
      (some existing, s) := by
    rw [performIngest, h.blob]
  rw [hsearch, Prog.returns_bind]
  simp only [deduplicate, hskip, ne_eq, reduceCtorEq, not_false_eq_true, Prog.bind]
  rw [Prog.returns_pure, Prog.returns_bind, checkpoint]
  split
  · exact Prog.returns_pure.mpr (Prog.returns_pure.mpr ⟨rfl, rfl, rfl⟩)
  · rw [Prog.returns_bind, Prog.returns_bind, Prog.returns_perform, Prog.returns_bind]
    apply returns_ofExcept
    · rw [performIngest, ObjectIngest.requireUpdated, ← hworkspace, if_pos h.one]
    · rw [Prog.returns_pure, Prog.returns_bind, Prog.returns_perform, Prog.returns_pure,
        Prog.returns_pure]
      exact ⟨rfl, rfl, rfl⟩

omit [DecidableEq κ] in
/-- An operation whose audit is marked is done. -/
theorem Setting.Inv.exists_ingestDone (h : S.Inv s) (hinput : input ∈ S.inputs)
    {row : IngestOperation} (hfind : operationOf input s = some row)
    (hhash : row.requestHash = requestHashOf input) (haudit : .auditCommitted ∈ row.checkpoints) :
    ∃ existing, IngestDone input s row existing := by
  have hrow := List.mem_of_find?_eq_some hfind
  have hrec := h.rows row hrow
  have hr : Requests input row := ⟨ofKey_operationOf hfind, hhash⟩
  have hlength := length_of_mem hrec.ordered (n := 6) rfl haudit
  have hmem : ∀ name, name ≠ .completed → name ∈ row.checkpoints := by
    have hfirst : ∀ n name, ingestCheckpoints[n]? = some name → n ≤ 6 → name ∈ row.checkpoints :=
      fun n name hname hn => mem_of_length hrec.ordered hname (by omega)
    intro name hname
    cases name with
    | authorised => exact hfirst 0 _ rfl (by decide)
    | temporaryUploadCreated => exact hfirst 1 _ rfl (by decide)
    | bytesReceived => exact hfirst 2 _ rfl (by decide)
    | hashVerified => exact hfirst 3 _ rfl (by decide)
    | immutableObjectCommitted => exact hfirst 4 _ rfl (by decide)
    | metadataCommitted => exact hfirst 5 _ rfl (by decide)
    | auditCommitted => exact hfirst 6 _ rfl (by decide)
    | completed => exact absurd rfl hname
  obtain ⟨existing, hexisting⟩ : ∃ existing,
      s.blobs.find? (ofDigest input.workspaceId (sha256 input.bytes)) = some existing := by
    obtain ⟨blob, hblob, hisBlob⟩ := (hrec.ready .metadataCommitted (hmem _ (by decide)) input hinput hr).2
    exact Option.isSome_iff_exists.mp (List.find?_isSome.mpr ⟨blob, hblob, hisBlob⟩)
  exact ⟨existing, hfind, hhash, hmem, h.length_ofId hrow, hexisting⟩

omit [DecidableEq κ] in
/-- A completed operation is done, with the blob of its result. -/
theorem Setting.Inv.ingestDone (h : S.Inv s) (hinput : input ∈ S.inputs) {row : IngestOperation}
    (hfind : operationOf input s = some row) (hhash : row.requestHash = requestHashOf input)
    (hstate : row.state = .reached .completed) : ∃ existing, IngestDone input s row existing ∧
      ∀ stored flag, row.result = some (stored, flag) → existing.id = stored.id := by
  have hrec := h.rows row (List.mem_of_find?_eq_some hfind)
  have hr : Requests input row := ⟨ofKey_operationOf hfind, hhash⟩
  obtain ⟨existing, hdone⟩ := h.exists_ingestDone hinput hfind hhash (hrec.ended hstate).1
  have hexisting := hdone.blob
  refine ⟨existing, hdone, ?_⟩
  intro stored flag hresult
  obtain ⟨known, hknown, hknownBlob, hknownId⟩ := hrec.result input hinput hr stored flag hresult
  rw [← hknownId]
  congr 1
  apply List.inj_on_of_nodup_map h.digests (List.mem_of_find?_eq_some hexisting) hknown
  have hblob := List.find?_some hexisting
  simp only [isBlob, ofDigest, Bool.and_eq_true, beq_iff_eq] at hblob hknownBlob
  rw [hblob.1, hblob.2, hknownBlob.1, hknownBlob.2]

/-- A call alone on a completed operation returns the blob of its result. -/
theorem Setting.Inv.returns_of_completed (h : S.Inv s) (supplies : Supplies) (hinput : input ∈ S.inputs) {platform : κ}
    {provider : JsString} {fields : RoutingFields κ} {row : IngestOperation}
    (hfind : operationOf input s = some row) (hhash : row.requestHash = requestHashOf input)
    (hstate : row.state = .reached .completed) :
    (ingest platform provider input fields).Returns (performIngest supplies) s fun a _ =>
      a.operationId = row.id ∧ a.deduplicated = true ∧
        ∀ stored flag, row.result = some (stored, flag) → a.blob.id = stored.id := by
  obtain ⟨existing, hdone, hsame⟩ := h.ingestDone hinput hfind hhash hstate
  apply (hdone.returns supplies).mono
  rintro a s' ⟨hid, hflag, rfl⟩
  exact ⟨hid, hflag, hsame⟩

end Later

section Runs

variable {ι : Type} [DecidableEq ι] {κ : Type} [DecidableEq κ] {platform : κ} {provider : JsString}
  {fields : RoutingFields κ} {inputs : Set IngestInput} {ids : Set JsString}

/-- In every run in which a completed operation is called again only when its result
says deduplicated, gets no other context, and no other result: completed operations stay
as they are, and all calls of an operation return the result that is stored with it. -/
theorem completed_ingests_stay (hd : DistinctDigests inputs ids) {w : IngestWorld ι κ}
    (h : (ingestCalls ι platform provider fields inputs ids).Reaches (OnStatements KeepsCompleted) w) :
    (∀ w', (ingestCalls ι platform provider fields inputs ids).Leads (OnStatements KeepsCompleted)
      w w' → CompletedKept w.shared w'.shared) ∧
    (∀ i a, w.procs i = .returned a → Answered a.operationId a.blob a.deduplicated w.shared) ∧
    (∀ i j a b, w.procs i = .returned a → w.procs j = .returned b → a.operationId = b.operationId →
      a.blob.id = b.blob.id ∧ a.deduplicated = b.deduplicated) ∧
    ∀ input ∈ inputs, ∀ row supplies, operationOf input w.shared = some row →
      row.requestHash = requestHashOf input → row.state = .reached .completed →
      KeepsCompleted w.shared (.begin input.workspaceId input.idempotencyKey input.actorId
        (requestHashOf input)) →
      (ingest platform provider input fields).Returns (performIngest supplies) w.shared fun a _ =>
        a.operationId = row.id ∧ ∃ stored, row.result = some (stored, a.deduplicated) ∧
          a.blob.id = stored.id := by
  have houtlined : ∀ {w : IngestWorld ι κ}, (ingestCalls ι platform provider fields inputs ids).Reaches
      (OnStatements KeepsCompleted) w → _ := fun {w} hw => Setting.outlined
    (S := ⟨fields.storage.getD platform, inputs, ids, False, True⟩) hd rfl
    (hw.mono fun _ _ => OnStatements.mono fun _ _ hkeeps => ⟨fun _ => hkeeps, False.elim⟩)
  have hw := houtlined h
  have hanswered : ∀ i a, w.procs i = .returned a →
      Answered a.operationId a.blob a.deduplicated w.shared := fun i a hi => hw.returned i a hi trivial
  refine ⟨?_, hanswered, ?_, ?_⟩
  · intro w' hleads
    induction hleads with
    | refl => exact .refl _
    | tail hleads hstep ih =>
      obtain ⟨e, hguard, hstep⟩ := hstep
      refine ih.trans ?_
      obtain ⟨-, hsame | hle⟩ := (houtlined (h.leads hleads)).step Setting.upward_returned
        (fun p ⟨input, hinput, hp⟩ => hp ▸ Setting.outline_ingest hd hinput rfl)
        (OnStatements.mono (fun _ _ hkeeps => ⟨fun _ => hkeeps, False.elim⟩) hguard) hstep
      · rw [hsame]
        exact .refl _
      · exact hle.completedKept trivial
  · intro i j a b hi hj hsame
    obtain ⟨row, hrow, hid, -, stored, hresult, hblob⟩ := hanswered i a hi
    obtain ⟨row', hrow', hid', -, stored', hresult', hblob'⟩ := hanswered j b hj
    have hone : row = row' := hw.inv.row_eq hrow hrow' (hid.trans (hsame.trans hid'.symm))
    rw [← hone, hresult, Option.some.injEq, Prod.mk.injEq] at hresult'
    rw [← hblob, ← hblob', hresult'.1]
    exact ⟨rfl, hresult'.2⟩
  · intro input hinput row supplies hfind hhash hstate hguard
    obtain ⟨a, s', hrun, hid, hflag, hblob⟩ := hw.inv.returns_of_completed supplies hinput
      hfind hhash hstate
    obtain ⟨⟨stored, flag⟩, hresult, htrue⟩ := Option.map_eq_some_iff.mp
      (hguard row (List.mem_of_find?_eq_some hfind) (List.find?_some hfind) hstate)
    simp only at htrue
    subst htrue
    refine ⟨a, s', hrun, hid, stored, ?_, hblob stored true hresult⟩
    rw [hflag]
    exact hresult

end Runs

section Sample

instance decidableKeepsCompleted (s : IngestState Bool) : (st : Stmt Bool) → Decidable (KeepsCompleted s st)
  | .begin _ _ _ _ => inferInstanceAs (Decidable (∀ row ∈ s.operations, _ → _ → _))
  | .saveContext _ _ _ _ => inferInstanceAs (Decidable (∀ row ∈ s.operations, _ → _))
  | .complete _ _ _ _ => inferInstanceAs (Decidable (∀ row ∈ s.operations, _ → _ → _))
  | .markCheckpoint _ _ _ => .isTrue trivial
  | .fail _ _ _ => .isTrue trivial
  | .findByHash _ _ => .isTrue trivial
  | .commitVerifiedIngest _ _ _ _ _ => .isTrue trivial
  | .createTemporaryUpload _ _ _ => .isTrue trivial
  | .writeTemporary _ _ _ _ => .isTrue trivial
  | .commitImmutable _ _ _ _ _ _ => .isTrue trivial
  | .now => .isTrue trivial
  | .nextId => .isTrue trivial

def otherKey : IngestInput := { noBytes with idempotencyKey := js "l" }

def twoKeys : Set IngestInput := {noBytes, otherKey}

def threeIds : List JsString := [js "o", js "i", js "p"]

theorem distinct_twoKeys : DistinctDigests twoKeys {id | id ∈ threeIds} := by
  obtain ⟨haudit, houtbox⟩ : (threeIds.map auditId).Nodup ∧ (threeIds.map outboxId).Nodup := by
    decide +kernel
  refine ⟨?_, ?_, fun a ha b hb => List.inj_on_of_nodup_map haudit ha hb,
    fun a ha b hb => List.inj_on_of_nodup_map houtbox ha hb,
    show ∀ id ∈ threeIds, isSafeId id = true by decide⟩
  · rintro m ⟨a, rfl | rfl, rfl⟩ m' ⟨b, rfl | rfl, rfl⟩ -
    all_goals rfl
  · rintro m ⟨a, rfl | rfl, rfl⟩ m' ⟨b, rfl | rfl, rfl⟩ -
    all_goals rfl

/-- The values that a call under the other key draws. -/
def otherSupplies : Supplies := ⟨sampleSupplies.now, js "i", js "p"⟩

/-- Two calls of one content under two keys, and a replay of the second, which found the content
stored; each call returns what it has stored. -/
theorem completed_ingests_stay_replayed : ∃ w i j a b,
    (ingestCalls Nat false (js "p") onPlatform twoKeys {id | id ∈ threeIds}).Reaches
      (OnStatements KeepsCompleted) w ∧
    w.procs i = .returned a ∧ w.procs j = .returned b ∧ i ≠ j ∧ a.operationId = b.operationId ∧
    a.blob.id = b.blob.id ∧ a.deduplicated = b.deduplicated ∧
    Answered a.operationId a.blob true w.shared := by
  have hinit : (ingestCalls Nat false (js "p") onPlatform twoKeys {id | id ∈ threeIds}).Reaches
      (OnStatements KeepsCompleted) ⟨noState, fun _ => .idle⟩ :=
    .init ⟨unused_noState false _ _, fun _ => rfl⟩
  let first := callState sampleSupplies noBytes noState
  let second := callState otherSupplies otherKey first
  obtain ⟨⟨hmeets, hmeets', hmeets''⟩, hx, ha, hb⟩ :
      ((ingest false (js "p") noBytes onPlatform).Meets (performIngest sampleSupplies)
          KeepsCompleted 22 noState ∧
        (ingest false (js "p") otherKey onPlatform).Meets (performIngest otherSupplies)
          KeepsCompleted 22 first ∧
        (ingest false (js "p") otherKey onPlatform).Meets (performIngest otherSupplies)
          KeepsCompleted 22 second) ∧
      callAnswer sampleSupplies noBytes noState = some (js "o", false) ∧
      callAnswer otherSupplies otherKey first = some (js "p", true) ∧
      callAnswer otherSupplies otherKey second = some (js "p", true) := by decide +kernel
  obtain ⟨x, hx, -, -⟩ := exists_outcome hx
  obtain ⟨a, ha, hida, hflaga⟩ := exists_outcome ha
  obtain ⟨b, hb, hidb, -⟩ := exists_outcome hb
  have hfirst := reaches_call (i := 0) (Or.inl rfl) (by decide) rfl hmeets hx hinit
  have hsecond := reaches_call (i := 1) (Or.inr rfl) (by decide) (by simp) hmeets' ha hfirst
  have hreplay := reaches_call (i := 2) (Or.inr rfl) (by decide) (by simp) hmeets'' hb hsecond
  obtain ⟨-, hanswered, hone, -⟩ := completed_ingests_stay distinct_twoKeys hreplay
  have hsame := hone 1 2 a b (by simp) (by simp) (hida.trans hidb.symm)
  have hreturned := hanswered 1 a (by simp)
  rw [hflaga] at hreturned
  exact ⟨_, 1, 2, a, b, hreplay, by simp, by simp, by decide, hida.trans hidb.symm, hsame.1,
    hsame.2, hreturned⟩

/-- The second of two calls of one operation, after the first has returned, returns
another flag. -/
theorem replayed_ingest_differs : ∃ w i j a b, (sampleCalls Bool).Reachable w ∧
    w.procs i = .returned a ∧ w.procs j = .returned b ∧ a.operationId = b.operationId ∧
    a.deduplicated ≠ b.deduplicated := by
  obtain ⟨ha, hb⟩ : callAnswer sampleSupplies noBytes noState = some (js "o", false) ∧
      callAnswer sampleSupplies noBytes (callState sampleSupplies noBytes noState) =
        some (js "o", true) := by decide +kernel
  obtain ⟨a, ha, hida, hflaga⟩ := exists_outcome ha
  obtain ⟨b, hb, hidb, hflagb⟩ := exists_outcome hb
  have hmem : noBytes ∈ ({noBytes} : Set IngestInput) := rfl
  have hinit : (sampleCalls Bool).Reaches (OnStatements fun _ _ => True)
      ⟨noState, fun _ => .idle⟩ := .init sampleCalls_init
  have hfirst := reaches_call (i := false) hmem sampleIds_supplies rfl (Prog.meets_true _ _ _) ha hinit
  have hsecond := reaches_call (i := true) hmem sampleIds_supplies (by simp) (Prog.meets_true _ _ _)
    hb hfirst
  refine ⟨_, false, true, a, b, hsecond.mono fun _ _ _ => trivial, by simp, by simp,
    hida.trans hidb.symm, ?_⟩
  rw [hflaga, hflagb]
  decide

end Sample

end TrustCore.ObjectIngest
