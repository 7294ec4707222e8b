import TrustCore.IngestReplay

/-!
# A later call

After any number of interleaved and interrupted calls of an operation, one call that
runs alone is to return with the blob of the bytes. It does when no call has saved a
context without a storage key over one that had it: the stored checkpoints then have
the values that the steps after them read.
-/

namespace TrustCore.ObjectIngest

open TrustCore.Utf TrustCore.Json TrustCore.Sha256 TrustCore.ArchiveFormat TrustCore.ObjectStorage
open TrustCore.Programs TrustCore.Outlines TrustCore.Columns TrustCore.AuditChain TrustCore.Runs
open TrustCore.AuditLog (deterministicUuid VerifiedIngest AuditRow)

/-- A request that the service accepts: what its callers pass on are the ids of a
workspace and an actor, a key, and a content with its type. -/
structure Accepted (input : IngestInput) : Prop where
  workspaceId : isSafeId input.workspaceId = true
  actorId : input.actorId ≠ [] ∧ (0 : UInt16) ∉ input.actorId
  idempotencyKey : input.idempotencyKey ≠ []
  mediaType : Dynamic.trim input.mediaType ≠ []
  bytes : input.bytes.length < 2 ^ 53

section Answers

variable {κ : Type} [DecidableEq κ] {S : Setting κ} {s : IngestState κ} {input : IngestInput}
  {operationId : JsString}

/-- The event of an ingest is stored, or already there. -/
theorem exists_commit (i : VerifiedIngest) (events : AuditLog.Table)
    (hactor : (0 : UInt16) ∉ i.actorId) (hid : Plain i.blobId) (hoperation : Plain i.operationId)
    (hdigest : Plain i.sha256) (hkey : Plain i.storageKey) :
    ∃ events', AuditLog.commitVerifiedIngest events i = some events' := by
  have hmetadata : jsonbAccepts i.body.metadata = true := by
    have hkeys : jsonbText (js "sha256") = true ∧ jsonbText (js "byteLength") = true ∧
        jsonbText (js "storageKey") = true := by decide
    simp [VerifiedIngest.body, VerifiedIngest.metadata, jsonbAccepts, jsonbAcceptsMembers, hkeys,
      hdigest.jsonbText, hkey.jsonbText]
  have haction : Plain (js "blob.ingested") := by decide
  have hkind : Plain (js "blob") := by decide
  have hactor' : ∃ actorId, textColumn i.actorId = some actorId := by
    rw [textColumn, if_neg hactor]
    exact ⟨_, rfl⟩
  obtain ⟨actorId, hactorId⟩ := hactor'
  obtain ⟨requestId, hrequestId⟩ := (plain_deterministicUuid _).textColumn
  obtain ⟨row, hrow⟩ := exists_eventRow i.body (AuditLog.previousHash events i.body.workspaceId)
    i.occurredAt (AuditLog.orNull (AuditLog.previousHash events i.body.workspaceId)) hactorId haction
    hkind hid hrequestId hoperation hmetadata
  rw [AuditLog.commitVerifiedIngest, AuditLog.appendEvent_eq hrow, if_neg (by simp), if_pos rfl]
  split
  · exact ⟨_, rfl⟩
  · exact ⟨_, rfl⟩

theorem exists_auditEvents {row : BlobObject} {actorId : JsString} {actorType : ActorType}
    {occurredAt : Instant} (events : AuditLog.Table) (hactor : (0 : UInt16) ∉ actorId)
    (hid : Plain row.id) (hoperation : Plain operationId) (hdigest : Plain row.sha256)
    (hkey : Plain row.storageKey) (hlength : row.byteLength < 2 ^ 53) :
    ∃ events', (verifiedIngest row operationId actorId actorType occurredAt).bind
      (AuditLog.commitVerifiedIngest events) = some events' := by
  obtain ⟨byteLength, hdouble, -⟩ := Numbers.nearestDouble_nat hlength
  rw [verifiedIngest]
  split
  · rename_i hnone
    rw [hdouble] at hnone
    cases hnone
  · exact exists_commit _ events hactor hid hoperation hdigest hkey

omit [DecidableEq κ] in
/-- The blob of an accepted request is recorded. -/
theorem Setting.Inv.exists_commitVerifiedIngest (hd : S.Distinct) (h : S.Inv s)
    (hinput : input ∈ S.inputs) (haccepted : Accepted input) (hid : operationId ∈ S.ids)
    {blob : BlobObject} (hblobId : blob.id ∈ S.ids) (hblob : isBlob input blob = true)
    (hlength : blob.byteLength = input.bytes.length)
    (hkey : canonicalObjectKey input.workspaceId (sha256 input.bytes) = some blob.storageKey)
    (hfresh : ¬ Catalogued input s → ∀ row ∈ s.blobs, row.id ≠ blob.id) (actorType : ActorType)
    (occurredAt : Instant) :
    ∃ row s', ObjectIngest.commitVerifiedIngest s blob operationId input.actorId actorType occurredAt =
      .ok (row, s') := by
  have hsame : ofDigest blob.workspaceId blob.sha256 = isBlob input := by
    funext r
    simp only [isBlob, ofDigest, Bool.and_eq_true, beq_iff_eq] at hblob ⊢
    rw [hblob.1, hblob.2]
  obtain ⟨row, blobs, hrecord⟩ : ∃ row blobs, recordBlob s.blobs blob = .ok (row, blobs) := by
    rw [recordBlob, hsame]
    split
    · exact ⟨_, _, rfl⟩
    · rename_i hnone
      rw [if_neg]
      · exact ⟨_, _, rfl⟩
      · intro hany
        obtain ⟨old, hold, hclash⟩ := List.any_eq_true.mp hany
        have hnew : ¬ Catalogued input s := by
          rintro ⟨row, hrow, hrowBlob⟩
          exact List.find?_eq_none.mp hnone row hrow hrowBlob
        simp only [Bool.or_eq_true, Bool.and_eq_true, beq_iff_eq] at hclash
        obtain hclash | ⟨-, hclash⟩ := hclash
        · exact hfresh hnew old hold hclash
        · apply List.find?_eq_none.mp hnone old hold
          obtain ⟨-, other, hother, hblob', -, hkey', -⟩ := h.stored old hold
          rw [hclash] at hkey'
          obtain ⟨hworkspace, hdigest⟩ := canonicalObjectKey_injective hkey' hkey
          rw [← hblob', isBlob, isBlob, hworkspace, hdigest]
  obtain ⟨hrow, hdigest, hcases⟩ := recordBlob_cases hrecord
  have hisBlob : isBlob input row = true := (isBlob_congr hdigest.1 hdigest.2).trans hblob
  have hfields : row.id ∈ S.ids ∧ row.byteLength = input.bytes.length ∧
      row.storageKey = blob.storageKey := by
    obtain ⟨f, hf, rfl⟩ | ⟨-, hsameBlob, -⟩ := hcases
    · obtain ⟨old, hold, rfl⟩ := List.mem_map.mp hrow
      have hold' : isBlob input old = true := by
        rw [← hisBlob]
        exact (isBlob_congr (hf old).workspaceId (hf old).sha256).symm
      obtain ⟨hids, hlength', hkey', -⟩ := h.stored_input hd hinput hold hold'
      rw [hkey, Option.some.injEq] at hkey'
      rw [(hf old).id, (hf old).byteLength, (hf old).storageKey, hkey']
      exact ⟨hids, hlength', rfl⟩
    · rw [hsameBlob.id, hsameBlob.byteLength, hsameBlob.storageKey]
      exact ⟨hblobId, hlength, rfl⟩
  have hsha : row.sha256 = sha256 input.bytes := by
    simp only [isBlob, ofDigest, Bool.and_eq_true, beq_iff_eq] at hisBlob
    exact hisBlob.2
  obtain ⟨events, hevents⟩ := @exists_auditEvents operationId row input.actorId actorType occurredAt
    s.auditEvents haccepted.actorId.2 (plain_of_isSafeId (hd.safe _ hfields.1))
    (plain_of_isSafeId (hd.safe _ hid)) (hsha ▸ plain_of_isSha256 (isSha256_sha256 _))
    (hfields.2.2 ▸ plain_canonicalObjectKey hkey) (hfields.2.1 ▸ haccepted.bytes)
  rw [ObjectIngest.commitVerifiedIngest, hrecord]
  simp only [hevents]
  exact ⟨_, _, rfl⟩

omit [DecidableEq κ] in
/-- The bytes of an accepted request that were received become canonical. -/
theorem Setting.Inv.exists_commitImmutable (h : S.Inv s) (hinput : input ∈ S.inputs)
    (haccepted : Accepted input) (hid : operationId ∈ S.ids)
    (hwork : ∃ row ∈ s.operations, row.id = operationId ∧ Requests input row) {key : JsString}
    (hkey : temporaryObjectKey input.workspaceId operationId = some key)
    (hreceived : S.Received s input operationId) :
    ∃ result, ObjectStorage.commitImmutable (s.storages S.storage) key input.workspaceId
      (sha256 input.bytes) input.bytes.length input.mediaType = .ok result := by
  obtain ⟨canonical, hcanonical⟩ : ∃ canonical,
      canonicalObjectKey input.workspaceId (sha256 input.bytes) = some canonical := by
    rw [canonicalObjectKey, haccepted.workspaceId, isSha256_sha256]
    exact ⟨_, rfl⟩
  rw [ObjectStorage.commitImmutable, isTemporaryKey_temporaryObjectKey hkey, Bool.not_true,
    if_neg (by decide), if_neg haccepted.mediaType]
  simp only [hcanonical]
  cases htemporary : s.storages S.storage key with
  | none =>
    obtain ⟨key', o, hkey', ho, hdigest, hlength⟩ | ⟨key', o, hkey', ho⟩ := hreceived
    · rw [hcanonical, Option.some.injEq] at hkey'
      subst hkey'
      simp only [ho, hdigest, hlength, and_self, if_true]
      exact ⟨_, rfl⟩
    · rw [hkey, Option.some.injEq] at hkey'
      rw [← hkey', htemporary] at ho
      cases ho
  | some o =>
    obtain ⟨row, hrow, hrowId, -, hmatch⟩ :=
      h.temporary input.workspaceId operationId key o hid hkey htemporary
    obtain ⟨worked, hworked, hworkedId, hr⟩ := hwork
    rw [h.row_eq hrow hworked (hrowId.trans hworkedId.symm)] at hmatch
    obtain ⟨hdigest, hlength, hmedia⟩ := hmatch input hinput hr
    simp only [hdigest, hlength, hmedia, ne_eq, not_true_eq_false, or_self, if_false]
    cases hexisting : s.storages S.storage canonical with
    | none => exact ⟨_, rfl⟩
    | some existing =>
      obtain ⟨hdigest', hlength'⟩ := h.canonical input hinput canonical existing hcanonical hexisting
      simp only [hdigest', hlength', not_true_eq_false, or_self, if_false]
      exact ⟨_, rfl⟩

end Answers

section Alone

variable {κ : Type} [DecidableEq κ] {S : Setting κ} {s : IngestState κ} {input : IngestInput}
  {operationId : JsString} {p : Progress} {supplies : Supplies}

/-- A call alone at work, in a state as all calls keep it. -/
structure Going (S : Setting κ) (input : IngestInput) (operationId : JsString) (p : Progress)
    (s : IngestState κ) : Prop where
  inv : S.Inv s
  working : Working input operationId p s

/-- The effect of a checkpoint, unless it is stored, and its mark. -/
theorem returns_checkpoint (hd : S.Distinct) (hinput : input ∈ S.inputs) {n : Nat}
    {name : IngestCheckpoint} (hname : ingestCheckpoints[n]? = some name) (hn : n < 7) (hp : At n p)
    {effect : Progress → IngestProg κ Progress} {B C : Progress → IngestState κ → Prop}
    (hmark : ∀ p s operations, B p s →
      C { p with completed := p.completed ++ [name] } { s with operations })
    (hskip : name ∈ p.completed → Going S input operationId p s ∧ C p s)
    (heffect : name ∉ p.completed → (effect p).Returns (performIngest supplies) s fun p' s' =>
      p'.completed = p.completed ∧ Going S input operationId p' s' ∧
        S.ReadyAt input operationId name s' ∧ B p' s') :
    (checkpoint input.workspaceId operationId name effect p).Returns (performIngest supplies) s
      fun p' s' => (At (n + 1) p' ∧ ∀ other ∈ p'.completed, other ∈ p.completed ∨ other = name) ∧
        Going S input operationId p' s' ∧ C p' s' := by
  rw [checkpoint]
  split
  · rename_i hmem
    obtain ⟨hgoing, hC⟩ := hskip hmem
    exact Prog.returns_pure.mpr ⟨⟨⟨hp.ordered, length_of_mem hp.ordered hname hmem, hp.most⟩,
      fun _ hother => Or.inl hother⟩, hgoing, hC⟩
  · rename_i hnew
    refine Prog.Returns.bind (heffect hnew) ?_
    rintro p' s' ⟨hsame, hgoing, hready, hB⟩
    rw [Prog.returns_bind, Prog.returns_perform, Prog.returns_pure]
    have hlength := hp.length_eq hname hnew
    have hname' : ingestCheckpoints[p'.completed.length]? = some name := by
      rw [hsame, hlength]
      exact hname
    obtain ⟨hinv, -, hworking⟩ := hgoing.inv.markCheckpoint hd hinput hgoing.working
      hready hname' (@rfl _ (performIngest supplies (.markCheckpoint input.workspaceId operationId name) s'))
    refine ⟨⟨⟨?_, ?_, ?_⟩, fun other hother => ?_⟩, ⟨hinv, hworking⟩, hmark p' s' _ hB⟩
    · exact ordered_concat hname' (hsame ▸ hp.ordered)
    · simp only [List.length_append, List.length_singleton, hsame, hlength]
      exact le_refl _
    · simp only [List.length_append, List.length_singleton, hsame, hlength]
      omega
    · rw [List.mem_append, List.mem_singleton, hsame] at hother
      exact hother

/-- A context with a temporary key is saved. -/
theorem returns_saveContext (hd : S.Distinct) (hfree : ∀ s st, S.guard s st)
    (hinput : input ∈ S.inputs) (hgoing : Going S input operationId p s) {context : IngestContext}
    {name : IngestCheckpoint} (hname : name ≠ .completed) {key : JsString}
    (htemporary : context.temporaryKey = some key)
    (hkey : temporaryObjectKey input.workspaceId operationId = some key)
    (hstorage : ∀ key, context.storageKey = some key →
      canonicalObjectKey input.workspaceId (sha256 input.bytes) = some key)
    (hready : ∀ row operations, row.context = context → S.Ready { s with operations } input row name) :
    ((Prog.perform (Stmt.saveContext input.workspaceId operationId context (.reached name))).bind
      fun saved => (Prog.ofExcept saved).bind fun _ => .pure { p with context } :
        IngestProg κ Progress).Returns (performIngest supplies) s fun p' s' =>
      p' = { p with context } ∧ Going S input operationId p' s' ∧
        S.ReadyAt input operationId name s' ∧ ∃ operations, s' = { s with operations } := by
  obtain ⟨row, hrow, hid, hr, -⟩ := hgoing.working.row
  have hok : (performIngest supplies (.saveContext input.workspaceId operationId context
      (.reached name)) s).1 = .ok () := by
    rw [performIngest, ← hr.1, ← hid]
    exact hgoing.inv.requireUpdated_ok hrow _
  have hstate : ∃ operations, (performIngest supplies (.saveContext input.workspaceId operationId
      context (.reached name)) s).2 = { s with operations } := by
    rw [performIngest, requireUpdated]
    split
    · exact ⟨_, rfl⟩
    · exact ⟨s.operations, rfl⟩
  obtain ⟨hinv, hle, hanswer⟩ := hgoing.inv.saveContext hd hinput
    hgoing.working.exists_row hname htemporary hkey hstorage (hfree _ _)
    (@rfl _ (performIngest supplies (.saveContext input.workspaceId operationId context
      (.reached name)) s))
  have hwork := Setting.upward_working s _ hgoing.inv hle hgoing.working
  obtain ⟨row', hrow', hid', hr', hcontext⟩ := hanswer hok
  rw [Prog.returns_bind, Prog.returns_perform, Prog.returns_bind]
  apply returns_ofExcept hok
  rw [Prog.returns_pure]
  refine ⟨rfl, ⟨hinv, hwork.row, ?_, hstorage, hwork.blob⟩, ⟨row', hrow', hid', hr', ?_⟩, hstate⟩
  · intro key' hkey'
    rw [show context.temporaryKey = some key' from hkey'] at htemporary
    cases htemporary
    exact hkey
  · obtain ⟨operations, hoperations⟩ := hstate
    rw [hoperations]
    exact hready row' operations hcontext

theorem returns_required {value : Option JsString} {key name : JsString} (hvalue : value = some key)
    (hkey : key ≠ []) {Q : JsString → IngestState κ → Prop} (hQ : Q key s) :
    (requiredContextString value name : IngestProg κ JsString).Returns (performIngest supplies) s Q := by
  cases key with
  | nil => exact absurd rfl hkey
  | cons u key =>
    rw [hvalue, requiredContextString]
    exact Prog.returns_pure.mpr hQ

theorem returns_createTemporary (hd : S.Distinct) (hfree : ∀ s st, S.guard s st)
    (hinput : input ∈ S.inputs) (haccepted : Accepted input)
    (hgoing : Going S input operationId p s) :
    (createTemporary S.storage input operationId p).Returns (performIngest supplies) s fun p' s' =>
      p'.completed = p.completed ∧ Going S input operationId p' s' ∧
        S.ReadyAt input operationId .temporaryUploadCreated s' ∧
        HasTemporaryKey p' s' ∧ s'.blobs = s.blobs := by
  obtain ⟨row, hrow, hid, -⟩ := hgoing.working.exists_row
  have hdrawn : operationId ∈ S.ids := hid ▸ (hgoing.inv.rows row hrow).drawn
  obtain ⟨key, hkey⟩ : ∃ key, temporaryObjectKey input.workspaceId operationId = some key := by
    rw [temporaryObjectKey, haccepted.workspaceId, hd.safe operationId hdrawn]
    exact ⟨_, rfl⟩
  rw [createTemporary, Prog.returns_bind, Prog.returns_perform, Prog.returns_bind]
  simp only [performIngest, hkey]
  apply returns_ofExcept rfl
  refine Prog.Returns.mono (returns_saveContext hd hfree hinput hgoing (by decide) rfl hkey
    hgoing.working.storageKey ?_) ?_
  · intro row operations hcontext
    refine Or.inr ?_
    rw [hcontext]
    rfl
  · rintro p' s' ⟨rfl, hgoing', hready, operations, rfl⟩
    exact ⟨rfl, hgoing', hready, ⟨key, rfl⟩, rfl⟩

theorem returns_receiveBytes (hd : S.Distinct) (hinput : input ∈ S.inputs)
    (haccepted : Accepted input) (hgoing : Going S input operationId p s)
    (hhas : HasTemporaryKey p s) :
    (receiveBytes S.storage input p).Returns (performIngest supplies) s fun p' s' =>
      p'.completed = p.completed ∧ Going S input operationId p' s' ∧
        S.ReadyAt input operationId .bytesReceived s' ∧
        HasTemporaryKey p' s' ∧ s'.blobs = s.blobs := by
  obtain ⟨key, htemporary⟩ := hhas
  have hkey := hgoing.working.temporaryKey key htemporary
  have htemp := isTemporaryKey_temporaryObjectKey hkey
  rw [receiveBytes, Prog.returns_bind]
  apply returns_required htemporary (temporaryObjectKey_ne_nil hkey)
  rw [Prog.returns_bind, Prog.returns_perform]
  obtain ⟨hinv, hle, hanswer⟩ := hgoing.inv.writeTemporary hd hinput hgoing.working.exists_row hkey
    (@rfl _ (performIngest supplies (.writeTemporary S.storage key input.bytes input.mediaType) s))
  have hwork := Setting.upward_working s _ hgoing.inv hle hgoing.working
  simp only [performIngest, ObjectStorage.writeTemporary, htemp, Bool.not_true, Bool.false_eq_true,
    if_false, haccepted.mediaType, dite_false, onStorage] at hinv hwork hanswer ⊢
  rw [Prog.returns_bind]
  apply returns_ofExcept rfl
  rw [if_neg (by simp [StoredBytes.metadata]), Prog.returns_pure]
  obtain ⟨row, hrow, hid, hr⟩ := hwork.exists_row
  refine ⟨rfl, ⟨hinv, hwork⟩, ⟨row, hrow, hid, hr, ?_⟩, ⟨key, htemporary⟩, rfl⟩
  rw [Setting.Ready, hid]
  exact hanswer _ rfl

theorem returns_verifyHash (hd : S.Distinct) (hfree : ∀ s st, S.guard s st)
    (hinput : input ∈ S.inputs) (hgoing : Going S input operationId p s)
    (hhas : HasTemporaryKey p s) :
    (verifyHash input operationId p).Returns (performIngest supplies) s fun p' s' =>
      p'.completed = p.completed ∧ Going S input operationId p' s' ∧
        S.ReadyAt input operationId .hashVerified s' ∧
        HasTemporaryKey p' s' ∧ s'.blobs = s.blobs := by
  obtain ⟨key, htemporary⟩ := hhas
  have hkey := hgoing.working.temporaryKey key htemporary
  rw [verifyHash]
  refine Prog.Returns.mono (returns_saveContext hd hfree hinput hgoing (by decide) htemporary hkey
    hgoing.working.storageKey fun _ _ _ => trivial) ?_
  rintro p' s' ⟨rfl, hgoing', hready, operations, rfl⟩
  exact ⟨rfl, hgoing', hready, ⟨key, htemporary⟩, rfl⟩

/-- The call has the storage key of an object that is there. -/
def HasStorageKey (S : Setting κ) (input : IngestInput) (p : Progress) (s : IngestState κ) : Prop :=
  Holding input s S.storage ∧ ∃ key, p.context.storageKey = some key

theorem returns_commitObject (hd : S.Distinct) (hfree : ∀ s st, S.guard s st)
    (hinput : input ∈ S.inputs) (haccepted : Accepted input)
    (hgoing : Going S input operationId p s) (hhas : HasTemporaryKey p s)
    (hreceived : S.Received s input operationId) :
    (commitObject S.storage input operationId p).Returns (performIngest supplies) s fun p' s' =>
      p'.completed = p.completed ∧ Going S input operationId p' s' ∧
        S.ReadyAt input operationId .immutableObjectCommitted s' ∧
        HasStorageKey S input p' s' ∧ s'.blobs = s.blobs := by
  obtain ⟨key, htemporary⟩ := hhas
  have hkey := hgoing.working.temporaryKey key htemporary
  obtain ⟨row, hrow, hid, -⟩ := hgoing.working.exists_row
  have hdrawn : operationId ∈ S.ids := hid ▸ (hgoing.inv.rows row hrow).drawn
  rw [commitObject, Prog.returns_bind]
  apply returns_required htemporary (temporaryObjectKey_ne_nil hkey)
  rw [Prog.returns_bind, Prog.returns_perform]
  obtain ⟨⟨stored, objects⟩, hcommit⟩ := hgoing.inv.exists_commitImmutable hinput haccepted hdrawn
    hgoing.working.exists_row hkey hreceived
  obtain ⟨-, canonical, o, hcanonical, hmetadata, hdigest, hlength, -⟩ := commitImmutable_cases hcommit
  obtain ⟨hinv, hle, hanswer⟩ := hgoing.inv.commitImmutable hd hinput hgoing.working.exists_row hkey
    (@rfl _ (performIngest supplies (.commitImmutable S.storage key input.workspaceId
      (sha256 input.bytes) input.bytes.length input.mediaType) s))
  have hwork := Setting.upward_working s _ hgoing.inv hle hgoing.working
  simp only [performIngest, hcommit, onStorage] at hinv hwork hanswer ⊢
  obtain ⟨hholding, hstored⟩ := hanswer stored rfl
  rw [Prog.returns_bind]
  apply returns_ofExcept rfl
  rw [if_neg (by rw [hmetadata]; simp [StoredBytes.metadata, hdigest, hlength])]
  refine Prog.Returns.mono (returns_saveContext hd hfree hinput ⟨hinv, hwork⟩ (by decide) htemporary
    hkey ?_ ?_) ?_
  · rintro key' ⟨rfl⟩
    exact hstored
  · intro row operations hcontext
    refine ⟨hholding, fun _ => Or.inr ?_⟩
    rw [hcontext]
    rfl
  · rintro p' s' ⟨rfl, hgoing', hready, operations, rfl⟩
    exact ⟨rfl, hgoing', hready, ⟨hholding, _, rfl⟩, rfl⟩

/-- The call has its blob, and it is catalogued. -/
def HasBlob (input : IngestInput) (p : Progress) (s : IngestState κ) : Prop :=
  ∃ blob, p.blob = some blob ∧ isBlob input blob = true ∧ Known s input blob

theorem returns_commitVerifiedIngest (hd : S.Distinct) (hinput : input ∈ S.inputs)
    (haccepted : Accepted input) (hgoing : Going S input operationId p s) {blob : BlobObject}
    (hblobId : blob.id ∈ S.ids) (hblob : isBlob input blob = true)
    (hlength : blob.byteLength = input.bytes.length)
    (hkey : canonicalObjectKey input.workspaceId (sha256 input.bytes) = some blob.storageKey)
    (hfresh : ¬ Catalogued input s → ∀ row ∈ s.blobs, row.id ≠ blob.id)
    (hholding : Holding input s S.storage) {actorType : ActorType} {occurredAt : Instant} :
    ((Prog.perform (Stmt.commitVerifiedIngest blob operationId input.actorId actorType
      occurredAt)).bind fun answer => (Prog.ofExcept answer).bind fun row =>
        .pure { p with blob := some row } : IngestProg κ Progress).Returns (performIngest supplies) s
      fun p' s' => p'.completed = p.completed ∧ Going S input operationId p' s' ∧
        S.ReadyAt input operationId .metadataCommitted s' ∧ HasBlob input p' s' := by
  obtain ⟨worked, hworked, hworkedId, -⟩ := hgoing.working.exists_row
  have hdrawn : operationId ∈ S.ids := hworkedId ▸ (hgoing.inv.rows worked hworked).drawn
  obtain ⟨row, after, hcommit⟩ := hgoing.inv.exists_commitVerifiedIngest hd hinput haccepted hdrawn
    hblobId hblob hlength hkey hfresh actorType occurredAt
  obtain ⟨hinv, hle, hanswer⟩ := hgoing.inv.commitVerifiedIngest hd hinput hdrawn hblobId hblob
    hlength hkey hholding (@rfl _ (performIngest supplies (.commitVerifiedIngest blob operationId
      input.actorId actorType occurredAt) s))
  have hwork := Setting.upward_working s _ hgoing.inv hle hgoing.working
  have hisBlob : isBlob input row = true := by
    obtain ⟨blobs, events, hrecord, -⟩ := commitVerifiedIngest_eq_ok hcommit
    obtain ⟨-, hdigest, -⟩ := recordBlob_cases hrecord
    exact (isBlob_congr hdigest.1 hdigest.2).trans hblob
  rw [Prog.returns_bind, Prog.returns_perform, Prog.returns_bind]
  simp only [performIngest, hcommit] at hinv hwork hanswer ⊢
  obtain ⟨haudited, hknown⟩ := hanswer row rfl
  apply returns_ofExcept rfl
  rw [Prog.returns_pure]
  obtain ⟨operation, hoperation, hid, hr⟩ := hwork.exists_row
  have hknown' := hknown
  obtain ⟨entry, hentry, hentryBlob, -⟩ := hknown'
  refine ⟨rfl, ⟨hinv, hwork.row, hwork.temporaryKey, hwork.storageKey, ?_⟩,
    ⟨operation, hoperation, hid, hr, ?_, entry, hentry, hentryBlob⟩, row, rfl, hisBlob, hknown⟩
  · rintro blob' ⟨rfl⟩
    exact hknown
  · rw [hid]
    exact haudited

theorem returns_commitMetadata (hd : S.Distinct) (hinput : input ∈ S.inputs)
    (haccepted : Accepted input) (hgoing : Going S input operationId p s)
    (hhas : HasStorageKey S input p s) (hdraw : supplies.nextId ∈ S.ids)
    (hfresh : ∀ row ∈ s.blobs, row.id ≠ supplies.nextId) {provider : JsString}
    {fields : RoutingFields κ} :
    (commitMetadata provider input fields operationId p).Returns (performIngest supplies) s
      fun p' s' => p'.completed = p.completed ∧ Going S input operationId p' s' ∧
        S.ReadyAt input operationId .metadataCommitted s' ∧ HasBlob input p' s' := by
  obtain ⟨hholding, key, hstorage⟩ := hhas
  have hkey := hgoing.working.storageKey key hstorage
  rw [commitMetadata, Prog.returns_bind, Prog.returns_perform, Prog.returns_bind]
  apply returns_required hstorage (canonicalObjectKey_ne_nil hkey)
  rw [Prog.returns_bind, Prog.returns_perform]
  apply returns_commitVerifiedIngest hd hinput haccepted hgoing
  · exact hdraw
  · simp [isBlob, ofDigest]
  · rfl
  · exact hkey
  · exact fun _ => hfresh
  · exact hholding

theorem returns_commitExisting (hd : S.Distinct) (hinput : input ∈ S.inputs)
    (haccepted : Accepted input) (hgoing : Going S input operationId p s) {existing : BlobObject}
    (hmem : existing ∈ s.blobs) (hblob : isBlob input existing = true) :
    (commitExisting input operationId existing p).Returns (performIngest supplies) s
      fun p' s' => p'.completed = p.completed ∧ Going S input operationId p' s' ∧
        S.ReadyAt input operationId .metadataCommitted s' ∧ HasBlob input p' s' := by
  obtain ⟨hid, hlength, hkey, hholding⟩ := hgoing.inv.stored_input hd hinput hmem hblob
  rw [commitExisting, Prog.returns_bind, Prog.returns_perform]
  exact returns_commitVerifiedIngest hd hinput haccepted hgoing hid hblob hlength hkey
    (fun hnew => absurd ⟨existing, hmem, hblob⟩ hnew) hholding

/-- A checkpoint without an effect. -/
theorem returns_mark (hd : S.Distinct) (hinput : input ∈ S.inputs) {n : Nat}
    {name : IngestCheckpoint} (hname : ingestCheckpoints[n]? = some name) (hn : n < 7) (hp : At n p)
    (hgoing : Going S input operationId p s)
    (hready : ∀ row, row.id = operationId → S.Ready s input row name) :
    (checkpoint input.workspaceId operationId name Prog.pure p).Returns (performIngest supplies) s
      fun p' s' => At (n + 1) p' ∧ Going S input operationId p' s' ∧
        p'.blob = p.blob ∧ s'.blobs = s.blobs := by
  refine Prog.Returns.mono (returns_checkpoint hd hinput hname hn hp (B := fun p' s' =>
    p'.blob = p.blob ∧ s'.blobs = s.blobs) (C := fun p' s' => p'.blob = p.blob ∧
    s'.blobs = s.blobs) (fun _ _ _ h => h) (fun _ => ⟨hgoing, rfl, rfl⟩) fun _ => ?_) ?_
  · obtain ⟨row, hrow, hid, hr⟩ := hgoing.working.exists_row
    rw [Prog.returns_pure]
    exact ⟨rfl, hgoing, ⟨row, hrow, hid, hr, hready row hid⟩, rfl, rfl⟩
  · exact fun p' s' h => ⟨h.1.1, h.2⟩

/-- The last checkpoint of both branches. -/
theorem returns_auditCommitted (hd : S.Distinct) (hinput : input ∈ S.inputs) (hp : At 6 p)
    (hgoing : Going S input operationId p s) (hhas : HasBlob input p s) :
    (checkpoint input.workspaceId operationId .auditCommitted Prog.pure p).Returns
      (performIngest supplies) s
      fun p' s' => At 7 p' ∧ Going S input operationId p' s' ∧ HasBlob input p' s' := by
  refine Prog.Returns.mono (returns_mark hd hinput (n := 6) rfl (by decide) hp hgoing
    fun _ _ => trivial) ?_
  rintro p' s' ⟨hp', hgoing', hblob, hblobs⟩
  obtain ⟨blob, hsome, hisBlob, row, hrow, hknown⟩ := hhas
  rw [← hblobs] at hrow
  exact ⟨hp', hgoing', blob, hblob.trans hsome, hisBlob, row, hrow, hknown⟩

theorem returns_deduplicate (hd : S.Distinct) (hinput : input ∈ S.inputs)
    (haccepted : Accepted input) (hp : At 1 p) (hgoing : Going S input operationId p s)
    {existing : BlobObject} (hmem : existing ∈ s.blobs) (hblob : isBlob input existing = true) :
    (deduplicate input operationId existing p).Returns (performIngest supplies) s
      fun p' s' => At 7 p' ∧ Going S input operationId p' s' ∧ HasBlob input p' s' := by
  have hshared : ∀ s', S.Inv s' → s'.blobs = s.blobs →
      Catalogued input s' ∧ Holding input s' S.storage := by
    intro s' hs' hblobs
    rw [← hblobs] at hmem
    exact ⟨⟨existing, hmem, hblob⟩, (hs'.stored_input hd hinput hmem hblob).2.2.2⟩
  have hgoing₀ : Going S input operationId { p with
      blob := some existing
      deduplicated := true } s := by
    refine ⟨hgoing.inv, hgoing.working.row, hgoing.working.temporaryKey, hgoing.working.storageKey, ?_⟩
    rintro blob ⟨rfl⟩
    exact ⟨existing, hmem, hblob, rfl⟩
  rw [deduplicate]
  refine Prog.Returns.bind (returns_mark hd hinput (n := 1) rfl (by decide) (hp.congr rfl) hgoing₀
    fun _ _ => Or.inl (hshared s hgoing.inv rfl).1) ?_
  rintro p₁ s₁ ⟨hp₁, hgoing₁, hblob₁, hblobs₁⟩
  refine Prog.Returns.bind (returns_mark hd hinput (n := 2) rfl (by decide) hp₁ hgoing₁
    fun _ _ => Or.inl (hshared s₁ hgoing₁.inv hblobs₁).2) ?_
  rintro p₂ s₂ ⟨hp₂, hgoing₂, hblob₂, hblobs₂⟩
  refine Prog.Returns.bind (returns_mark hd hinput (n := 3) rfl (by decide) hp₂ hgoing₂
    fun _ _ => trivial) ?_
  rintro p₃ s₃ ⟨hp₃, hgoing₃, hblob₃, hblobs₃⟩
  have hblobs : s₃.blobs = s.blobs := hblobs₃.trans (hblobs₂.trans hblobs₁)
  have hshared₃ := hshared s₃ hgoing₃.inv hblobs
  refine Prog.Returns.bind (returns_mark hd hinput (n := 4) rfl (by decide) hp₃ hgoing₃
    fun _ _ => ⟨hshared₃.2, fun _ => Or.inl hshared₃.1⟩) ?_
  rintro p₄ s₄ ⟨hp₄, hgoing₄, hblob₄, hblobs₄⟩
  have hmem₄ : existing ∈ s₄.blobs := by
    rw [hblobs₄, hblobs]
    exact hmem
  have hblob' : p₄.blob = some existing := hblob₄.trans (hblob₃.trans (hblob₂.trans hblob₁))
  refine Prog.Returns.bind (returns_checkpoint hd hinput (n := 5) rfl (by decide) hp₄
    (B := HasBlob input) (C := HasBlob input) (fun _ _ _ h => h) (fun _ => ⟨hgoing₄, existing,
      hblob', hblob, existing, hmem₄, hblob, rfl⟩)
    fun _ => returns_commitExisting hd hinput haccepted hgoing₄ hmem₄ hblob) ?_
  rintro p₅ s₅ ⟨⟨hp₅, -⟩, hgoing₅, hhas⟩
  exact returns_auditCommitted hd hinput hp₅ hgoing₅ hhas

/-- The last two checkpoints for new bytes. -/
theorem returns_catalog (hd : S.Distinct) (hinput : input ∈ S.inputs) (haccepted : Accepted input)
    (hp : At 5 p) (hgoing : Going S input operationId p s) (hhas : HasStorageKey S input p s)
    (hnew : ¬ Catalogued input s) (hdraw : supplies.nextId ∈ S.ids)
    (hfresh : ∀ row ∈ s.blobs, row.id ≠ supplies.nextId) {provider : JsString}
    {fields : RoutingFields κ} :
    ((checkpoint input.workspaceId operationId .metadataCommitted
      (commitMetadata provider input fields operationId) p).bind fun p =>
        checkpoint input.workspaceId operationId .auditCommitted Prog.pure p).Returns
      (performIngest supplies) s
      fun p' s' => At 7 p' ∧ Going S input operationId p' s' ∧ HasBlob input p' s' := by
  refine Prog.Returns.bind (returns_checkpoint hd hinput (n := 5) rfl (by decide) hp
    (B := HasBlob input) (C := HasBlob input) (fun _ _ _ h => h) ?_
    fun _ => returns_commitMetadata hd hinput haccepted hgoing hhas hdraw hfresh) ?_
  · intro hmem
    obtain ⟨row, hrow, -, hr, hinitial⟩ := hgoing.working.row
    have hready := (hgoing.inv.rows row hrow).ready _ (hinitial.subset hmem) input hinput hr
    exact absurd hready.2 hnew
  · rintro p' s' ⟨⟨hp', -⟩, hgoing', hhas'⟩
    exact returns_auditCommitted hd hinput hp' hgoing' hhas'

/-- The branch for new bytes, from a context that has what its checkpoints promise. -/
theorem returns_store (hd : S.Distinct) (hfree : ∀ s st, S.guard s st) (hinput : input ∈ S.inputs)
    (haccepted : Accepted input) (hp : At 1 p) (hgoing : Going S input operationId p s)
    (hcreated : .temporaryUploadCreated ∈ p.completed → HasTemporaryKey p s)
    (hkeyed : .immutableObjectCommitted ∈ p.completed → ∃ key, p.context.storageKey = some key)
    (hnew : ¬ Catalogued input s) (hdraw : supplies.nextId ∈ S.ids)
    (hfresh : ∀ row ∈ s.blobs, row.id ≠ supplies.nextId) {provider : JsString}
    {fields : RoutingFields κ} :
    (store provider S.storage input fields operationId p).Returns (performIngest supplies) s
      fun p' s' => At 7 p' ∧ Going S input operationId p' s' ∧ HasBlob input p' s' := by
  by_cases hcommitted : .immutableObjectCommitted ∈ p.completed
  · have hlength := length_of_mem hp.ordered (n := 4) rfl hcommitted
    have hskip : ∀ n name (effect : Progress → IngestProg κ Progress), n ≤ 4 →
        ingestCheckpoints[n]? = some name →
        checkpoint input.workspaceId operationId name effect p = .pure p := by
      intro n name effect hn hname
      rw [checkpoint, if_pos (mem_of_length hp.ordered hname (by omega))]
    rw [store, hskip 1 _ _ (by decide) rfl, Prog.bind, hskip 2 _ _ (by decide) rfl, Prog.bind,
      hskip 3 _ _ (by decide) rfl, Prog.bind, hskip 4 _ _ (by decide) rfl, Prog.bind]
    obtain ⟨row, hrow, -, hr, hinitial⟩ := hgoing.working.row
    have hready := (hgoing.inv.rows row hrow).ready _ (hinitial.subset hcommitted) input hinput hr
    exact returns_catalog hd hinput haccepted ⟨hp.ordered, hlength, hp.most⟩ hgoing
      ⟨hready.1, hkeyed hcommitted⟩ hnew hdraw hfresh
  · rw [store]
    have hmark : ∀ (name : IngestCheckpoint) (p' : Progress) (s' : IngestState κ) operations,
        HasTemporaryKey p' s' ∧ s'.blobs = s.blobs →
        HasTemporaryKey { p' with completed := p'.completed ++ [name] } { s' with operations } ∧
          s'.blobs = s.blobs := fun _ _ _ _ h => h
    refine Prog.Returns.bind (returns_checkpoint hd hinput (n := 1) rfl (by decide) hp
      (C := fun p' s' => HasTemporaryKey p' s' ∧ s'.blobs = s.blobs) (hmark _)
      (fun hmem => ⟨hgoing, hcreated hmem, rfl⟩)
      fun _ => returns_createTemporary hd hfree hinput haccepted hgoing) ?_
    rintro p₁ s₁ ⟨⟨hp₁, hmade₁⟩, hgoing₁, hhas₁, hblobs₁⟩
    rw [← hblobs₁] at hmark
    refine Prog.Returns.bind (returns_checkpoint hd hinput (n := 2) rfl (by decide) hp₁
      (C := fun p' s' => HasTemporaryKey p' s' ∧ s'.blobs = s₁.blobs) (hmark _)
      (fun _ => ⟨hgoing₁, hhas₁, rfl⟩)
      fun _ => returns_receiveBytes hd hinput haccepted hgoing₁ hhas₁) ?_
    rintro p₂ s₂ ⟨⟨hp₂, hmade₂⟩, hgoing₂, hhas₂, hblobs₂⟩
    rw [← hblobs₂] at hmark
    refine Prog.Returns.bind (returns_checkpoint hd hinput (n := 3) rfl (by decide) hp₂
      (C := fun p' s' => HasTemporaryKey p' s' ∧ s'.blobs = s₂.blobs) (hmark _)
      (fun _ => ⟨hgoing₂, hhas₂, rfl⟩)
      fun _ => returns_verifyHash hd hfree hinput hgoing₂ hhas₂) ?_
    rintro p₃ s₃ ⟨⟨hp₃, hmade₃⟩, hgoing₃, hhas₃, hblobs₃⟩
    have hreceived : S.Received s₃ input operationId := by
      obtain ⟨row, hrow, hid, hr, hinitial⟩ := hgoing₃.working.row
      have hmem := mem_of_length hp₃.ordered (n := 2) rfl (lt_of_lt_of_le (by decide) hp₃.least)
      rw [← hid]
      exact (hgoing₃.inv.rows row hrow).ready _ (hinitial.subset hmem) input hinput hr
    have hnot : .immutableObjectCommitted ∉ p₃.completed := by
      intro hmem
      obtain hmem | hmem := hmade₃ _ hmem
      · obtain hmem | hmem := hmade₂ _ hmem
        · obtain hmem | hmem := hmade₁ _ hmem
          · exact hcommitted hmem
          · cases hmem
        · cases hmem
      · cases hmem
    refine Prog.Returns.bind (returns_checkpoint hd hinput (n := 4) rfl (by decide) hp₃
      (B := fun p' s' => HasStorageKey S input p' s' ∧ s'.blobs = s₃.blobs)
      (C := fun p' s' => HasStorageKey S input p' s' ∧ s'.blobs = s₃.blobs) (fun _ _ _ h => h)
      (fun hmem => absurd hmem hnot)
      fun _ => returns_commitObject hd hfree hinput haccepted hgoing₃ hhas₃ hreceived) ?_
    rintro p₄ s₄ ⟨⟨hp₄, -⟩, hgoing₄, hhas₄, hblobs₄⟩
    have hblobs : s₄.blobs = s.blobs := hblobs₄.trans (hblobs₃.trans (hblobs₂.trans hblobs₁))
    refine returns_catalog hd hinput haccepted hp₄ hgoing₄ hhas₄ ?_ hdraw ?_
    · rw [Catalogued, hblobs]
      exact hnew
    · rw [hblobs]
      exact hfresh

omit [DecidableEq κ] in
theorem authorise_accepted (haccepted : Accepted input) (p : Progress) :
    (authorise input p : IngestProg κ Progress) = .pure p := by
  have hworkspace : input.workspaceId ≠ [] := by
    rintro hnil
    have hsafe := haccepted.workspaceId
    rw [hnil] at hsafe
    cases hsafe
  have hmedia : input.mediaType ≠ [] := by
    rintro hnil
    have htrim := haccepted.mediaType
    rw [hnil] at htrim
    exact htrim rfl
  rw [authorise, if_neg]
  simp [hworkspace, haccepted.actorId.1, haccepted.idempotencyKey, hmedia]

/-- The last checkpoint, and the answer. -/
theorem returns_complete (hgoing : Going S input operationId p s) {blob : BlobObject}
    (hblob : isBlob input blob = true) {resumed : Bool} :
    ((checkpoint input.workspaceId operationId .completed (fun p =>
      (Prog.perform (Stmt.complete input.workspaceId operationId blob p.deduplicated)).bind
        fun answer => (Prog.ofExcept answer).bind fun _ => .pure p) p).bind fun p =>
      .pure { operationId, blob, deduplicated := p.deduplicated, resumed } :
        IngestProg κ ObjectIngestResult).Returns (performIngest supplies) s
      fun a _ => isBlob input a.blob = true := by
  obtain ⟨row, hrow, hid, hr, -⟩ := hgoing.working.row
  rw [Prog.returns_bind, checkpoint]
  split
  · rw [Prog.returns_pure, Prog.returns_pure]
    exact hblob
  · rw [Prog.returns_bind, Prog.returns_bind, Prog.returns_perform, Prog.returns_bind]
    apply returns_ofExcept
    · rw [performIngest, ← hr.1, ← hid]
      exact hgoing.inv.requireUpdated_ok hrow _
    · rw [Prog.returns_pure, Prog.returns_bind, Prog.returns_perform, Prog.returns_pure,
        Prog.returns_pure]
      exact hblob

/-- The body of a call whose operation is not completed. -/
theorem returns_runIngest (hd : S.Distinct) (hfree : ∀ s st, S.guard s st) (hinput : input ∈ S.inputs)
    (haccepted : Accepted input) {operation : IngestOperation}
    (hlast : .completed ∉ operation.checkpoints)
    (hgoing : Going S input operation.id operation.progress s)
    (hcreated : .temporaryUploadCreated ∈ operation.checkpoints →
      Catalogued input s ∨ operation.context.temporaryKey.isSome = true)
    (hkeyed : .immutableObjectCommitted ∈ operation.checkpoints →
      Catalogued input s ∨ operation.context.storageKey.isSome = true)
    (hdraw : supplies.nextId ∈ S.ids) (hfresh : ∀ row ∈ s.blobs, row.id ≠ supplies.nextId)
    {provider : JsString} {fields : RoutingFields κ} :
    (runIngest provider S.storage input fields operation operation.progress).Returns
      (performIngest supplies) s fun a _ => isBlob input a.blob = true := by
  have hp : At 0 operation.progress := by
    obtain ⟨row, hrow, -, -, hinitial⟩ := hgoing.working.row
    have hordered := hinitial.trans (hgoing.inv.rows row hrow).ordered
    refine ⟨hordered, Nat.zero_le _, ?_⟩
    by_contra hlong
    exact hlast (mem_of_length hordered (n := 7) rfl (not_le.mp hlong))
  rw [runIngest]
  refine Prog.Returns.bind (returns_checkpoint hd hinput (n := 0) rfl (by decide) hp
    (B := fun p' s' => p'.context = operation.context ∧ s'.blobs = s.blobs)
    (C := fun p' s' => p'.context = operation.context ∧ s'.blobs = s.blobs) (fun _ _ _ h => h)
    (fun _ => ⟨hgoing, rfl, rfl⟩) fun _ => ?_) ?_
  · obtain ⟨row, hrow, hid, hr, -⟩ := hgoing.working.row
    rw [authorise_accepted haccepted, Prog.returns_pure]
    exact ⟨rfl, hgoing, ⟨row, hrow, hid, hr, trivial⟩, rfl, rfl⟩
  rintro p₁ s₁ ⟨⟨hp₁, hmade⟩, hgoing₁, hcontext, hblobs⟩
  have hmem : ∀ name ∈ p₁.completed, name ≠ .authorised → name ∈ operation.checkpoints :=
    fun name hname hne => (hmade name hname).resolve_right hne
  rw [Prog.returns_bind, Prog.returns_perform, performIngest]
  refine Prog.Returns.bind (Q := fun p₂ s₂ => Going S input operation.id p₂ s₂ ∧
    HasBlob input p₂ s₂) ?_ ?_
  · cases hfind : s₁.blobs.find? (ofDigest input.workspaceId (sha256 input.bytes)) with
    | some existing =>
      exact (returns_deduplicate hd hinput haccepted hp₁ hgoing₁ (List.mem_of_find?_eq_some hfind)
        (List.find?_some hfind)).mono fun _ _ h => h.2
    | none =>
      have hnew : ¬ Catalogued input s₁ := by
        rintro ⟨row, hrow, hisBlob⟩
        exact List.find?_eq_none.mp hfind row hrow hisBlob
      have hnew' : ¬ Catalogued input s := by
        rw [Catalogued, ← hblobs]
        exact hnew
      refine (returns_store hd hfree hinput haccepted hp₁ hgoing₁ ?_ ?_ hnew hdraw ?_).mono
        fun _ _ h => h.2
      · intro hname
        have hkey := (hcreated (hmem _ hname (by decide))).resolve_left hnew'
        rw [← hcontext] at hkey
        exact Option.isSome_iff_exists.mp hkey
      · intro hname
        have hkey := (hkeyed (hmem _ hname (by decide))).resolve_left hnew'
        rw [← hcontext] at hkey
        exact Option.isSome_iff_exists.mp hkey
      · rw [hblobs]
        exact hfresh
  · rintro p₂ s₂ ⟨hgoing₂, blob, hsome, hisBlob, -⟩
    simp only [hsome]
    exact returns_complete hgoing₂ hisBlob

/-- The ids that a call draws are in no table. -/
structure Fresh (ids : Set JsString) (supplies : Supplies) (s : IngestState κ) : Prop where
  operationId : supplies.operationId ∈ ids
  newOperation : ∀ row ∈ s.operations, row.id ≠ supplies.operationId
  nextId : supplies.nextId ∈ ids
  newBlob : ∀ row ∈ s.blobs, row.id ≠ supplies.nextId

/-- A call begins with the row of its key, or with a new one. -/
theorem Setting.Inv.exists_begin (h : S.Inv s) (hfree : ∀ s st, S.guard s st)
    (hinput : input ∈ S.inputs) (hfresh : Fresh S.ids supplies s)
    (hsame : ∀ row, operationOf input s = some row → row.requestHash = requestHashOf input) :
    ∃ operation operations, performIngest supplies (.begin input.workspaceId input.idempotencyKey
        input.actorId (requestHashOf input)) s = (.ok operation, { s with operations }) ∧
      operation.requestHash = requestHashOf input ∧ S.Inv { s with operations } ∧
      S.Started input operation { s with operations } ∧
      (operationOf input s = some operation ∨ operation.checkpoints = []) := by
  obtain ⟨operation, operations, hbegin, hhash, hrow⟩ : ∃ operation operations,
      performIngest supplies (.begin input.workspaceId input.idempotencyKey input.actorId
        (requestHashOf input)) s = (.ok operation, { s with operations }) ∧
      operation.requestHash = requestHashOf input ∧
      (operationOf input s = some operation ∨ operation.checkpoints = []) := by
    rw [performIngest, ObjectIngest.begin]
    cases hfind : s.operations.find? (ofKey input.workspaceId input.idempotencyKey) with
    | some row => exact ⟨row, s.operations, rfl, hsame row hfind, Or.inl hfind⟩
    | none =>
      have hnew : (s.operations.any fun row => row.id == supplies.operationId) = false := by
        rw [List.any_eq_false]
        intro row hrow
        rw [beq_iff_eq]
        exact hfresh.newOperation row hrow
      simp only [hnew, Bool.false_eq_true, if_false]
      exact ⟨_, _, rfl, rfl, Or.inr rfl⟩
  obtain ⟨hinv, -, hstarted⟩ := h.begin hinput hfresh.operationId (hfree _ _) hbegin
  exact ⟨operation, operations, hbegin, hhash, hinv, hstarted operation rfl hhash, hrow⟩

/-- A call alone returns with the blob of its bytes, from a stored operation whose context has the
storage key that its checkpoints promise. -/
theorem Setting.Inv.returns_ingest (hd : S.Distinct) (hfree : ∀ s st, S.guard s st) (h : S.Inv s)
    (hinput : input ∈ S.inputs) (haccepted : Accepted input) (hfresh : Fresh S.ids supplies s)
    (hsame : ∀ row, operationOf input s = some row → row.requestHash = requestHashOf input)
    (hkeyed : ∀ row, operationOf input s = some row → .immutableObjectCommitted ∈ row.checkpoints →
      Catalogued input s ∨ row.context.storageKey.isSome = true)
    {platform : κ} {provider : JsString} {fields : RoutingFields κ}
    (hstorage : fields.storage.getD platform = S.storage) :
    (ingest platform provider input fields).Returns (performIngest supplies) s
      fun a _ => isBlob input a.blob = true := by
  obtain ⟨operation, operations, hbegin, hhash, hinv, hstarted, hrow⟩ :=
    h.exists_begin hfree hinput hfresh hsame
  by_cases hlast : .completed ∈ operation.checkpoints
  · -- every checkpoint is stored, so the call only looks the bytes up
    obtain hfind | hnil := hrow
    · have hordered := (h.rows operation (List.mem_of_find?_eq_some hfind)).ordered
      have hlength := length_of_mem hordered (n := 7) rfl hlast
      have haudit := mem_of_length hordered (n := 6) rfl (Nat.lt_of_succ_lt hlength)
      obtain ⟨existing, hdone⟩ := h.exists_ingestDone hinput hfind hhash haudit
      apply (hdone.returns supplies).mono
      rintro a s' ⟨-, -, rfl⟩
      exact List.find?_some hdone.blob
    · rw [hnil] at hlast
      cases hlast
  · rw [ingest, hstorage, Prog.returns_bind, Prog.returns_perform, hbegin, Prog.returns_bind]
    apply returns_ofExcept rfl
    rw [if_neg (not_not.mpr hhash)]
    apply Prog.Returns.catchError
    refine returns_runIngest hd hfree hinput haccepted hlast ⟨hinv, hstarted.working⟩
      hstarted.created ?_ hfresh.nextId hfresh.newBlob
    intro hmem
    obtain hfind | hnil := hrow
    · exact hkeyed operation hfind hmem
    · rw [hnil] at hmem
      cases hmem

end Alone

section Runs

variable {ι : Type} [DecidableEq ι] {κ : Type} [DecidableEq κ] {platform : κ} {provider : JsString}
  {fields : RoutingFields κ} {inputs : Set IngestInput} {ids : Set JsString}

/-- The stored context has the keys that the steps after a checkpoint read; they read none where
the bytes are catalogued. -/
def KeysStored (inputs : Set IngestInput) (s : IngestState κ) : Prop :=
  ∀ row ∈ s.operations, ∀ input ∈ inputs, Requests input row →
    (.temporaryUploadCreated ∈ row.checkpoints →
      Catalogued input s ∨ row.context.temporaryKey.isSome = true) ∧
    (.immutableObjectCommitted ∈ row.checkpoints →
      Catalogued input s ∨ row.context.storageKey.isSome = true)

/-- In every run in which no context without a storage key is saved over one that has it, unless
the bytes are catalogued: the stored context has what the stored checkpoints promise, and after any
crashes a call of the same request that runs alone returns with the blob of its bytes. -/
theorem interrupted_ingests_resume (hd : DistinctDigests inputs ids) {w : IngestWorld ι κ}
    (h : (ingestCalls ι platform provider fields inputs ids).Reaches
      (OnStatements (KeepsKeys inputs)) w) :
    KeysStored inputs w.shared ∧
    ∀ input ∈ inputs, Accepted input → ∀ supplies, Fresh ids supplies w.shared →
      (∀ row, operationOf input w.shared = some row → row.requestHash = requestHashOf input) →
      (ingest platform provider input fields).Returns (performIngest supplies) w.shared
        fun a _ => isBlob input a.blob = true := by
  have hkept := (Setting.outlined (S := ⟨fields.storage.getD platform, inputs, ids, True, False⟩) hd
    rfl (h.mono fun _ _ => OnStatements.mono fun _ _ hkeeps => ⟨False.elim, fun _ => hkeeps⟩)).inv
  have hkeys : KeysStored inputs w.shared := by
    intro row hrow input hinput hr
    have hready := (hkept.rows row hrow).ready
    exact ⟨fun hmem => hready _ hmem input hinput hr,
      fun hmem => (hready _ hmem input hinput hr).2 trivial⟩
  refine ⟨hkeys, ?_⟩
  intro input hinput haccepted supplies hfresh hsame
  -- the call alone may save what it likes: nobody reads it in between
  have hinv := inv_of_reachable hd (h.mono fun _ _ _ => trivial)
  refine hinv.returns_ingest hd (fun _ _ => ⟨False.elim, False.elim⟩) hinput haccepted hfresh hsame
    ?_ rfl
  intro row hfind hmem
  exact (hkeys row (List.mem_of_find?_eq_some hfind) input hinput
    ⟨ofKey_operationOf hfind, hsame row hfind⟩).2 hmem

end Runs

section Sample

theorem accepted_noBytes : Accepted noBytes := by
  refine ⟨?_, ⟨?_, ?_⟩, ?_, ?_, ?_⟩ <;> decide

/-- What a later call draws. -/
def laterSupplies : Supplies := ⟨sampleSupplies.now, js "o", js "i"⟩

/-- No context without a storage key is saved over one that has it. -/
def LosesNoKey (s : IngestState Bool) : Stmt Bool → Prop
  | .saveContext workspaceId operationId context _ => ∀ row ∈ s.operations,
      ofId workspaceId operationId row = true → row.context.storageKey.isSome = true →
        context.storageKey.isSome = true
  | _ => True

instance decidableLosesNoKey (s : IngestState Bool) : (st : Stmt Bool) → Decidable (LosesNoKey s st)
  | .saveContext _ _ _ _ => inferInstanceAs (Decidable (∀ row ∈ s.operations, _ → _ → _))
  | .begin _ _ _ _ => .isTrue trivial
  | .complete _ _ _ _ => .isTrue trivial
  | .markCheckpoint _ _ _ => .isTrue trivial
  | .fail _ _ _ => .isTrue trivial
  | .findByHash _ _ => .isTrue trivial
  | .commitVerifiedIngest _ _ _ _ _ => .isTrue trivial
  | .createTemporaryUpload _ _ _ => .isTrue trivial
  | .writeTemporary _ _ _ _ => .isTrue trivial
  | .commitImmutable _ _ _ _ _ _ => .isTrue trivial
  | .now => .isTrue trivial
  | .nextId => .isTrue trivial

theorem LosesNoKey.keepsKeys {inputs : Set IngestInput} {s : IngestState Bool} {st : Stmt Bool}
    (h : LosesNoKey s st) : KeepsKeys inputs s st := by
  cases st with
  | saveContext workspaceId operationId context state =>
    exact fun row hrow hid hkey => Or.inl (h row hrow hid hkey)
  | _ => trivial

/-- What the samples read of a stored operation: that its object is promised, and its key. -/
def storedPart (row : IngestOperation) : JsString × JsString × JsString × Bool × Bool :=
  (row.id, row.workspaceId, row.requestHash, row.checkpoints.contains .immutableObjectCommitted,
    row.context.storageKey.isSome)

/-- One operation was begun, and no bytes are catalogued. -/
structure Stopped (s : IngestState Bool) (promised keyed : Bool) : Prop where
  operations : s.operations.map storedPart = [(js "o", noBytes.workspaceId, requestHashOf noBytes, promised, keyed)]
  blobs : s.blobs = []

instance (s : IngestState Bool) (promised keyed : Bool) : Decidable (Stopped s promised keyed) :=
  decidable_of_iff (_ ∧ _) ⟨fun h => ⟨h.1, h.2⟩, fun h => ⟨h.operations, h.blobs⟩⟩

theorem Stopped.row {s : IngestState Bool} {promised keyed : Bool} (h : Stopped s promised keyed)
    {row : IngestOperation} (hrow : row ∈ s.operations) :
    storedPart row = (js "o", noBytes.workspaceId, requestHashOf noBytes, promised, keyed) := by
  have hpart : storedPart row ∈ s.operations.map storedPart := List.mem_map_of_mem hrow
  rwa [h.operations, List.mem_singleton] at hpart

theorem Stopped.fresh {s : IngestState Bool} {promised keyed : Bool} (h : Stopped s promised keyed) :
    Fresh sampleIds laterSupplies s := by
  refine ⟨Or.inr rfl, ?_, Or.inl rfl, ?_⟩
  · intro row hrow
    have hid : row.id = js "o" := congrArg Prod.fst (h.row hrow)
    rw [hid]
    decide
  · intro row hrow
    rw [h.blobs] at hrow
    cases hrow

/-- One call that stops with its storage key stored, and a later one. -/
theorem interrupted_ingests_resume_stopped : ∃ w : IngestWorld Unit Bool,
    (sampleCalls Unit).Reaches (OnStatements (KeepsKeys {noBytes})) w ∧
    Stopped w.shared false true ∧
    sampleCall.Returns (performIngest laterSupplies) w.shared
      fun a _ => isBlob noBytes a.blob = true := by
  obtain ⟨hmeets, hstopped⟩ : sampleCall.Meets (performIngest sampleSupplies) LosesNoKey 12 noState ∧
      Stopped (sampleCall.after (performIngest sampleSupplies) 12 noState).2 false true := by
    decide +kernel
  have hrun := reaches_after exec_sampleSupplies hmeets
    (reaches_begin (i := ()) isCall_sampleCall rfl (.init (sampleCalls_init (ι := Unit))))
  have hreach : (sampleCalls Unit).Reaches (OnStatements (KeepsKeys {noBytes})) _ :=
    hrun.mono fun _ _ => OnStatements.mono fun _ _ => LosesNoKey.keepsKeys
  refine ⟨_, hreach, hstopped, ?_⟩
  apply (interrupted_ingests_resume distinct_sample hreach).2 noBytes rfl accepted_noBytes
  · exact hstopped.fresh
  · intro row hfind
    have hpart := hstopped.row (List.mem_of_find?_eq_some hfind)
    exact congrArg (fun part => part.2.2.1) hpart

/-- A call that is about to save the context for its verified hash. -/
def slower := sampleCall.after (performIngest sampleSupplies) 8 noState

/-- A second call of the operation, which stops with the storage key stored and promised. -/
def faster := sampleCall.after (performIngest sampleSupplies) 7 slower.2

/-- The first call saves its own copy of the context, and stops. -/
def erased := slower.1.after (performIngest sampleSupplies) 1 faster.2

theorem erased_evaluated : Stopped erased.2 true false ∧
    (sampleCall.run (performIngest laterSupplies) erased.2).1.toOption.isNone = true := by
  decide +kernel

theorem stopped_erased : Stopped erased.2 true false := erased_evaluated.1

theorem keysStored_erased : ¬ KeysStored {noBytes} erased.2 := by
  intro hkeys
  have hone : erased.2.operations.length = 1 := by
    rw [← List.length_map (f := storedPart), stopped_erased.operations]
    rfl
  obtain ⟨row, hrow⟩ := List.length_eq_one_iff.mp hone
  have hmem : row ∈ erased.2.operations := hrow ▸ List.mem_singleton_self row
  obtain ⟨-, hworkspace, hhash, hpromised, hkey⟩ : row.id = js "o" ∧
      row.workspaceId = noBytes.workspaceId ∧ row.requestHash = requestHashOf noBytes ∧
      row.checkpoints.contains .immutableObjectCommitted = true ∧
      row.context.storageKey.isSome = false := by
    simpa only [storedPart, Prod.mk.injEq] using stopped_erased.row hmem
  obtain ⟨blob, hblob, -⟩ | hsome := (hkeys row hmem noBytes rfl ⟨hworkspace, hhash⟩).2
    (List.contains_iff_mem.mp hpromised)
  · rw [stopped_erased.blobs] at hblob
    cases hblob
  · rw [hkey] at hsome
    cases hsome

/-- The slower of two calls erases the storage key that a stored checkpoint promises, and no later
call returns. -/
theorem resume_without_storage_key : ∃ w : IngestWorld Bool Bool, (sampleCalls Bool).Reachable w ∧
    ¬ KeysStored {noBytes} w.shared ∧ Fresh sampleIds laterSupplies w.shared ∧
    ¬ sampleCall.Returns (performIngest laterSupplies) w.shared
      fun a _ => isBlob noBytes a.blob = true := by
  have hinit : (sampleCalls Bool).Reaches (OnStatements fun _ _ => True)
      ⟨noState, fun _ => .idle⟩ := .init sampleCalls_init
  have hslower := reaches_after exec_sampleSupplies (Prog.meets_true 8 sampleCall noState)
    (reaches_begin (i := false) isCall_sampleCall rfl hinit)
  have hfaster := reaches_after exec_sampleSupplies (Prog.meets_true 7 sampleCall slower.2)
    (reaches_begin (i := true) isCall_sampleCall (by simp) hslower)
  rw [Function.update_comm (by decide)] at hfaster
  have herased := reaches_after exec_sampleSupplies (Prog.meets_true 1 slower.1 faster.2) hfaster
  have hfailed := erased_evaluated.2
  refine ⟨_, herased.mono fun _ _ _ => trivial, keysStored_erased, stopped_erased.fresh, ?_⟩
  rintro ⟨a, s', hrun, -⟩
  have hanswer : (sampleCall.run (performIngest laterSupplies) erased.2).1 = .ok a :=
    congrArg Prod.fst hrun
  rw [hanswer] at hfailed
  cases hfailed

end Sample

end TrustCore.ObjectIngest
