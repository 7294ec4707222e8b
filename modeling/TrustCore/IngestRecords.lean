import TrustCore.IngestRoutes
import TrustCore.Outlines

/-!
# What concurrent ingests keep

Calls of the same and of other operations interleave statement by statement and stop
anywhere. The rows of the operations, the catalog, the storage and the ledgers then
keep to `Setting.Inv`, and every statement moves them along `Setting.Grows`: checkpoints,
canonical objects, blobs and events are only ever added.
-/

namespace TrustCore.ObjectIngest

open TrustCore.Utf TrustCore.Json TrustCore.Sha256 TrustCore.ArchiveFormat
open TrustCore.ObjectStorage TrustCore.Programs TrustCore.Outlines TrustCore.AuditChain
open TrustCore.Columns
open TrustCore.AuditLog (deterministicUuid VerifiedIngest AuditRow)

section Requests

/-- The text of a request is read back quote by quote. -/
theorem quote_append_injective {s t rest rest' : JsString}
    (h : quote s ++ rest = quote t ++ rest') : s = t ∧ rest = rest' := by
  have hunits : quoteUnits s ++ 34 :: rest = quoteUnits t ++ 34 :: rest' := by
    simpa [quote] using h
  have hs := parseUnits_quoteUnits s rest
  rw [hunits, parseUnits_quoteUnits t rest', Option.some.injEq, Prod.mk.injEq] at hs
  exact ⟨hs.1.symm, hs.2.symm⟩

theorem requestText_injective {workspaceId mediaType digest workspaceId' mediaType' digest' : JsString}
    (h : requestText workspaceId mediaType digest = requestText workspaceId' mediaType' digest') :
    workspaceId = workspaceId' ∧ mediaType = mediaType' ∧ digest = digest' := by
  simp only [requestText, List.map_cons, List.map_nil, joinComma, memberText, List.cons.injEq,
    true_and, List.append_assoc, List.cons_append, List.append_cancel_left_eq] at h
  obtain ⟨hworkspace, h⟩ := quote_append_injective h
  simp only [List.cons.injEq, true_and, List.append_cancel_left_eq] at h
  obtain ⟨hmedia, h⟩ := quote_append_injective h
  simp only [List.cons.injEq, true_and, List.append_cancel_left_eq] at h
  exact ⟨hworkspace, hmedia, (quote_append_injective h).1⟩

theorem isWellFormed_requestText (workspaceId mediaType digest : JsString) :
    isWellFormed (requestText workspaceId mediaType digest) = true := by
  have hcons : ∀ (u : UInt16) (s : JsString), u.toNat < 128 → isWellFormed s = true →
      isWellFormed (u :: s) = true := by
    intro u s hu hs
    rw [isWellFormed_cons_ascii u s hu]
    exact hs
  have hmember : ∀ key value, isWellFormed (memberText (key, quote value)) = true := by
    intro key value
    exact isWellFormed_append _ _ (isWellFormed_quote key)
      (hcons 58 _ (by decide) (isWellFormed_quote value))
  rw [requestText]
  apply hcons 123 _ (by decide)
  refine isWellFormed_append _ _ ?_ (by decide)
  simp only [List.map_cons, List.map_nil, joinComma]
  refine isWellFormed_append _ _ (hmember _ _) (hcons 44 _ (by decide) ?_)
  exact isWellFormed_append _ _ (hmember _ _) (hcons 44 _ (by decide) (hmember _ _))

/-- The operation of the row was begun with this request. -/
def Requests (input : IngestInput) (row : IngestOperation) : Prop :=
  row.workspaceId = input.workspaceId ∧ row.requestHash = requestHashOf input

end Requests

def auditId (operationId : JsString) : JsString :=
  deterministicUuid (js "ingest-audit:" ++ operationId)

def outboxId (operationId : JsString) : JsString :=
  deterministicUuid (js "ingest-outbox:" ++ operationId)

/-- The digests of a run do not collide, and the ids of operations are those of
`randomUUID`. -/
structure DistinctDigests (inputs : Set IngestInput) (ids : Set JsString) : Prop where
  requests : CollisionFree {m | ∃ input ∈ inputs,
    m = textEncode (requestText input.workspaceId input.mediaType (sha256 input.bytes))}
  bytes : CollisionFree {m | ∃ input ∈ inputs, m = input.bytes}
  auditIds : Set.InjOn auditId ids
  outboxIds : Set.InjOn outboxId ids
  safe : ∀ id ∈ ids, isSafeId id = true

/-- One request is of one workspace, media type and content. -/
theorem DistinctDigests.input_eq {inputs : Set IngestInput} {ids : Set JsString}
    (hd : DistinctDigests inputs ids) {a b : IngestInput} {row : IngestOperation} (ha : a ∈ inputs)
    (hb : b ∈ inputs) (hra : Requests a row) (hrb : Requests b row) :
    a.workspaceId = b.workspaceId ∧ a.mediaType = b.mediaType ∧ a.bytes = b.bytes := by
  have hhash : requestHashOf a = requestHashOf b := hra.2.symm.trans hrb.2
  have htext := textEncode_injective (isWellFormed_requestText _ _ _) (isWellFormed_requestText _ _ _)
    (hd.requests ⟨a, ha, rfl⟩ ⟨b, hb, rfl⟩ hhash)
  obtain ⟨hworkspace, hmedia, hdigest⟩ := requestText_injective htext
  exact ⟨hworkspace, hmedia, hd.bytes ⟨a, ha, rfl⟩ ⟨b, hb, rfl⟩ hdigest⟩

/-- What the calls of a run have in common: the storage they are routed to, their
inputs, and the ids drawn for operations; and whether the run keeps stored keys, and
completed operations. -/
structure Setting (κ : Type) where
  storage : κ
  inputs : Set IngestInput
  ids : Set JsString
  keepsKeys : Prop
  keepsCompleted : Prop

abbrev Setting.Distinct {κ : Type} (S : Setting κ) : Prop := DistinctDigests S.inputs S.ids

section Invariant

variable {κ : Type} (S : Setting κ)

/-- The bytes are canonical, or in the temporary object of the operation. -/
def Setting.Received (s : IngestState κ) (input : IngestInput) (operationId : JsString) : Prop :=
  Holding input s S.storage ∨ ∃ key o, temporaryObjectKey input.workspaceId operationId = some key ∧
    s.storages S.storage key = some o

/-- The ledgers have the events of the operation. -/
def Audited (s : IngestState κ) (operationId : JsString) : Prop :=
  (∃ r ∈ s.auditEvents, r.id = auditId operationId) ∧
    ∃ e ∈ s.outboxEvents, e.id = outboxId operationId

/-- The catalog has the blob under its id. -/
def Known (s : IngestState κ) (input : IngestInput) (blob : BlobObject) : Prop :=
  ∃ row ∈ s.blobs, isBlob input row = true ∧ row.id = blob.id

/-- What a stored checkpoint of the operation stands for. -/
def Setting.Ready (s : IngestState κ) (input : IngestInput) (row : IngestOperation) :
    IngestCheckpoint → Prop
  | .temporaryUploadCreated => Catalogued input s ∨ row.context.temporaryKey.isSome = true
  | .bytesReceived => S.Received s input row.id
  | .immutableObjectCommitted => Holding input s S.storage ∧
      (S.keepsKeys → Catalogued input s ∨ row.context.storageKey.isSome = true)
  | .metadataCommitted => Audited s row.id ∧ Catalogued input s
  | .completed => row.result.isSome = true ∧ (S.keepsCompleted → row.state = .reached .completed)
  | _ => True

/-- The row of an operation. -/
structure Setting.Recorded (s : IngestState κ) (row : IngestOperation) : Prop where
  drawn : row.id ∈ S.ids
  requested : ∃ input ∈ S.inputs, Requests input row
  ordered : row.checkpoints <+: ingestCheckpoints
  temporaryKey : ∀ key, row.context.temporaryKey = some key →
    temporaryObjectKey row.workspaceId row.id = some key
  storageKey : ∀ input ∈ S.inputs, Requests input row → ∀ key, row.context.storageKey = some key →
    canonicalObjectKey input.workspaceId (sha256 input.bytes) = some key
  ready : ∀ name ∈ row.checkpoints, ∀ input ∈ S.inputs, Requests input row → S.Ready s input row name
  result : ∀ input ∈ S.inputs, Requests input row → ∀ blob deduplicated,
    row.result = some (blob, deduplicated) → Known s input blob
  ended : row.state = .reached .completed → .auditCommitted ∈ row.checkpoints ∧ row.result.isSome

/-- The row of a blob: its canonical object is in the storage. -/
def Setting.Stored (s : IngestState κ) (blob : BlobObject) : Prop :=
  blob.id ∈ S.ids ∧ ∃ input ∈ S.inputs, isBlob input blob = true ∧ blob.byteLength = input.bytes.length ∧
    canonicalObjectKey input.workspaceId (sha256 input.bytes) = some blob.storageKey ∧
    Holding input s S.storage

structure Setting.Inv (s : IngestState κ) : Prop where
  rows : ∀ row ∈ s.operations, S.Recorded s row
  operationIds : (s.operations.map IngestOperation.id).Nodup
  temporary : ∀ workspaceId operationId key o, operationId ∈ S.ids →
    temporaryObjectKey workspaceId operationId = some key → s.storages S.storage key = some o →
    ∃ row ∈ s.operations, row.id = operationId ∧ row.workspaceId = workspaceId ∧
      ∀ input ∈ S.inputs, Requests input row → o.digest = sha256 input.bytes ∧
        o.body.length = input.bytes.length ∧ o.mediaType = input.mediaType
  canonical : ∀ input ∈ S.inputs, ∀ key o,
    canonicalObjectKey input.workspaceId (sha256 input.bytes) = some key →
    s.storages S.storage key = some o →
      o.digest = sha256 input.bytes ∧ o.body.length = input.bytes.length
  stored : ∀ blob ∈ s.blobs, S.Stored s blob
  digests : (s.blobs.map fun blob => (blob.workspaceId, blob.sha256)).Nodup
  auditIds : (s.auditEvents.map AuditRow.id).Nodup
  audits : ∀ r ∈ s.auditEvents, ∀ id ∈ S.ids,
    r.id = auditId id ↔ r.action = js "blob.ingested" ∧ r.correlationId = id
  outboxIds : (s.outboxEvents.map OutboxEvent.id).Nodup
  outbox : ∀ e ∈ s.outboxEvents, ∀ id ∈ S.ids, e.id = outboxId id ↔ e.operationId = id

/-- How one statement may change the row of an operation, in the state it leads to. -/
structure Setting.Advances (s' : IngestState κ) (row row' : IngestOperation) : Prop where
  id : row'.id = row.id
  workspaceId : row'.workspaceId = row.workspaceId
  requestHash : row'.requestHash = row.requestHash
  checkpoints : row.checkpoints <+: row'.checkpoints
  temporaryKey : row.context.temporaryKey.isSome = true → row'.context.temporaryKey.isSome = true
  storageKey : S.keepsKeys → row.context.storageKey.isSome = true →
    row'.context.storageKey.isSome = true ∨
      ∀ input ∈ S.inputs, Requests input row → Catalogued input s'
  result : row.result.isSome = true → row'.result.isSome = true
  completed : S.keepsCompleted → row.state = .reached .completed →
    row'.state = .reached .completed ∧ row'.context = row.context ∧ row'.result = row.result

/-- How one statement may change the state. -/
structure Setting.Grows (s s' : IngestState κ) : Prop where
  rows : ∀ row ∈ s.operations, ∃ row' ∈ s'.operations, S.Advances s' row row'
  received : ∀ row ∈ s.operations, ∀ input ∈ S.inputs, Requests input row →
    S.Received s input row.id → S.Received s' input row.id
  objects : ∀ key o, isTemporaryKey key = false → s.storages S.storage key = some o →
    s'.storages S.storage key = some o
  blobs : ∀ blob ∈ s.blobs, ∃ blob' ∈ s'.blobs, blob'.id = blob.id ∧
    blob'.workspaceId = blob.workspaceId ∧ blob'.sha256 = blob.sha256
  audits : s.auditEvents ⊆ s'.auditEvents
  outbox : s.outboxEvents ⊆ s'.outboxEvents

def Setting.growth : Growth (IngestState κ) := ⟨S.Inv, S.Grows⟩

variable {S} {s s' : IngestState κ} {input : IngestInput} {row row' : IngestOperation}

theorem Setting.Advances.refl (s' : IngestState κ) (row : IngestOperation) :
    S.Advances s' row row :=
  ⟨rfl, rfl, rfl, List.prefix_refl _, fun h => h, fun _ h => Or.inl h, fun h => h,
    fun _ h => ⟨h, rfl, rfl⟩⟩

theorem Setting.Advances.requests (h : S.Advances s' row row') (hr : Requests input row) :
    Requests input row' := ⟨h.workspaceId.trans hr.1, h.requestHash.trans hr.2⟩

theorem Setting.Advances.requests_iff (h : S.Advances s' row row') :
    Requests input row' ↔ Requests input row := by
  rw [Requests, Requests, h.workspaceId, h.requestHash]

theorem Setting.Grows.refl (s : IngestState κ) : S.Grows s s :=
  ⟨fun row hrow => ⟨row, hrow, .refl s row⟩, fun _ _ _ _ _ h => h, fun _ _ _ h => h,
    fun blob hblob => ⟨blob, hblob, rfl, rfl, rfl⟩, List.Subset.refl _, List.Subset.refl _⟩

theorem isBlob_congr {blob blob' : BlobObject} (hworkspace : blob'.workspaceId = blob.workspaceId)
    (hdigest : blob'.sha256 = blob.sha256) : isBlob input blob' = isBlob input blob := by
  rw [isBlob, isBlob, ofDigest, ofDigest, hworkspace, hdigest]

section Growing

variable (hle : S.Grows s s')

include hle

theorem Setting.Grows.catalogued (h : Catalogued input s) : Catalogued input s' := by
  obtain ⟨blob, hmem, hblob⟩ := h
  obtain ⟨blob', hmem', -, hworkspace, hdigest⟩ := hle.blobs blob hmem
  exact ⟨blob', hmem', (isBlob_congr hworkspace hdigest).trans hblob⟩

theorem Setting.Grows.known {blob : BlobObject} (h : Known s input blob) : Known s' input blob := by
  obtain ⟨row, hmem, hblob, hid⟩ := h
  obtain ⟨row', hmem', hid', hworkspace, hdigest⟩ := hle.blobs row hmem
  exact ⟨row', hmem', (isBlob_congr hworkspace hdigest).trans hblob, hid'.trans hid⟩

theorem Setting.Grows.holding (h : Holding input s S.storage) : Holding input s' S.storage := by
  obtain ⟨key, o, hkey, ho, hdigest, hlength⟩ := h
  exact ⟨key, o, hkey, hle.objects key o (isTemporaryKey_canonicalObjectKey hkey) ho, hdigest,
    hlength⟩

theorem Setting.Grows.audited {operationId : JsString} (h : Audited s operationId) :
    Audited s' operationId := by
  obtain ⟨⟨r, hr, hrid⟩, e, he, heid⟩ := h
  exact ⟨⟨r, hle.audits hr, hrid⟩, e, hle.outbox he, heid⟩

theorem Setting.Grows.stored {blob : BlobObject} (h : S.Stored s blob) : S.Stored s' blob := by
  obtain ⟨hid, input, hinput, hblob, hlength, hkey, hholding⟩ := h
  exact ⟨hid, input, hinput, hblob, hlength, hkey, hle.holding hholding⟩

/-- What a checkpoint stands for stays true. -/
theorem Setting.Grows.ready (hrow : row ∈ s.operations) (hinput : input ∈ S.inputs)
    (hr : Requests input row) (ha : S.Advances s' row row') {name : IngestCheckpoint}
    (h : S.Ready s input row name) : S.Ready s' input row' name := by
  cases name with
  | authorised => trivial
  | hashVerified => trivial
  | auditCommitted => trivial
  | temporaryUploadCreated =>
    obtain hcatalogued | hkey := h
    · exact Or.inl (hle.catalogued hcatalogued)
    · exact Or.inr (ha.temporaryKey hkey)
  | bytesReceived =>
    have hreceived := hle.received row hrow input hinput hr h
    rw [← ha.id] at hreceived
    exact hreceived
  | immutableObjectCommitted =>
    refine ⟨hle.holding h.1, fun hkeeps => ?_⟩
    obtain hcatalogued | hkey := h.2 hkeeps
    · exact Or.inl (hle.catalogued hcatalogued)
    · obtain hkey' | hcatalogued := ha.storageKey hkeeps hkey
      · exact Or.inr hkey'
      · exact Or.inl (hcatalogued input hinput hr)
  | metadataCommitted =>
    have haudited := hle.audited h.1
    rw [← ha.id] at haudited
    exact ⟨haudited, hle.catalogued h.2⟩
  | completed =>
    exact ⟨ha.result h.1, fun hkeeps => (ha.completed hkeeps (h.2 hkeeps)).1⟩

/-- A row that the statement leaves alone. -/
theorem Setting.Grows.recorded (hrow : row ∈ s.operations) (h : S.Recorded s row) :
    S.Recorded s' row :=
  { h with
    ready := fun name hname input hinput hr =>
      hle.ready hrow hinput hr (.refl s' row) (h.ready name hname input hinput hr)
    result := fun input hinput hr blob deduplicated hresult =>
      hle.known (h.result input hinput hr blob deduplicated hresult) }

end Growing

/-- The id of an operation is of one row. -/
theorem Setting.Inv.row_eq (h : S.Inv s) (hrow : row ∈ s.operations) (hrow' : row' ∈ s.operations)
    (hid : row.id = row'.id) : row = row' :=
  List.inj_on_of_nodup_map h.operationIds hrow hrow' hid

/-- A change of one row. -/
theorem Setting.Inv.update (h : S.Inv s) {workspaceId operationId : JsString}
    {set : IngestOperation → IngestOperation}
    (hset : ∀ row ∈ s.operations, ofId workspaceId operationId row = true →
      S.Recorded s (set row) ∧ S.Advances s row (set row)) :
    S.Inv { s with operations := updateOperation s.operations workspaceId operationId set } ∧
    S.Grows s { s with operations := updateOperation s.operations workspaceId operationId set } := by
  have heach : ∀ row ∈ s.operations,
      S.Recorded s (if ofId workspaceId operationId row then set row else row) ∧
      S.Advances s row (if ofId workspaceId operationId row then set row else row) := by
    intro row hrow
    split
    · rename_i hid
      exact hset row hrow hid
    · exact ⟨h.rows row hrow, .refl s row⟩
  refine ⟨{ h with rows := ?_, operationIds := ?_, temporary := ?_ }, ?_⟩
  · intro row hrow
    obtain ⟨old, hold, rfl⟩ := List.mem_map.mp hrow
    exact { (heach old hold).1 with }
  · have hids : (updateOperation s.operations workspaceId operationId set).map IngestOperation.id =
        s.operations.map IngestOperation.id := by
      rw [updateOperation, List.map_map]
      apply List.map_congr_left
      exact fun row hrow => (heach row hrow).2.id
    simp only [hids]
    exact h.operationIds
  · intro workspace operation key o hoperation hkey ho
    obtain ⟨row, hrow, hid, hworkspace, hmatch⟩ := h.temporary workspace operation key o hoperation hkey ho
    have ha := (heach row hrow).2
    refine ⟨_, List.mem_map.mpr ⟨row, hrow, rfl⟩, ha.id.trans hid, ha.workspaceId.trans hworkspace, ?_⟩
    intro input hinput hr
    exact hmatch input hinput (ha.requests_iff.mp hr)
  · refine ⟨?_, fun _ _ _ _ _ h => h, fun _ _ _ h => h, fun blob hblob => ⟨blob, hblob, rfl, rfl, rfl⟩,
      List.Subset.refl _, List.Subset.refl _⟩
    intro row hrow
    exact ⟨_, List.mem_map.mpr ⟨row, hrow, rfl⟩, { (heach row hrow).2 with }⟩

/-- A statement that changes no row of an operation. -/
theorem Setting.Inv.rows_of_grows (h : S.Inv s) (hle : S.Grows s s')
    (hrows : s'.operations = s.operations) :
    ∀ row ∈ s'.operations, S.Recorded s' row := by
  rw [hrows]
  exact fun row hrow => hle.recorded hrow (h.rows row hrow)

end Invariant

end TrustCore.ObjectIngest
