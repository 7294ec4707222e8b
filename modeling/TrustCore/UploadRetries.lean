import TrustCore.IngestReplay
import TrustCore.ScanRetries
import TrustCore.UploadCompletion

/-!
# Repeated completions of an upload

An attempt that ends after its ingest is repeated. The ingest finds its operation done and
answers with the same blob. The scan job has a new id, and the table has one job for an
upload, so the repetition completes the session only if the attempt before it had stored no
job.
-/

namespace TrustCore.UploadCompletion

open TrustCore.Utf TrustCore.Sha256 TrustCore.Columns TrustCore.KeyedMaps TrustCore.Programs
open TrustCore.AuditChain TrustCore.ObjectIngest TrustCore.QuarantineScan

/-! ## The parts of the command -/

section Parts

variable {κ : Type} [DecidableEq κ] {supplies : Supplies}

theorem ingestPart : Prog.Part (performIngest supplies) (UploadStatement.exec (κ := κ) supplies)
    (fun (st : Stmt κ) (r : (UploadStatement.ingest st).Result) => r) UploadWorld.ingest
    fun s w => { w with ingest := s } where
  get_put _ _ := rfl
  put_get _ := rfl
  put_put _ _ _ := rfl
  answer _ _ := rfl
  state _ _ := rfl

theorem scanPart : Prog.Part execScan (UploadStatement.exec (κ := κ) supplies)
    (fun (st : ScanStatement) (r : (UploadStatement.scan (κ := κ) st).Result) => r)
    UploadWorld.scans fun s w => { w with scans := s } where
  get_put _ _ := rfl
  put_get _ := rfl
  put_put _ _ _ := rfl
  answer _ _ := rfl
  state _ _ := rfl

end Parts

/-! ## The table of scan jobs -/

section Table

variable {store : ScanStore} {record old : QuarantineScanRecord} {job : ScanJob}
  {createdAt : JsString}

/-- A row of the upload. -/
def ofUpload (workspaceId uploadId : JsString) (record : QuarantineScanRecord) : Bool :=
  record.workspaceId == workspaceId && record.uploadId == uploadId

/-- The rows of one upload. -/
def scansOf (store : ScanStore) (workspaceId uploadId : JsString) : List QuarantineScanRecord :=
  store.values.filter (ofUpload workspaceId uploadId)

/-- The job is stored, and its upload has no other. -/
structure Scanned (job : ScanJob) (createdAt : JsString) (store : ScanStore) : Prop where
  stored : ∃ record, store.get job.scanJobId = some record ∧ record.toScanJob = job ∧
    record.createdAt = createdAt
  only : ∀ record ∈ store.values, ofUpload job.workspaceId job.uploadId record = true →
    record.scanJobId = job.scanJobId

theorem Scanned.length (h : Scanned job createdAt store) :
    (scansOf store job.workspaceId job.uploadId).length = 1 := by
  obtain ⟨record, hget, hjob, -⟩ := h.stored
  have hmem := KeyedMap.mem_of_get hget
  have hof : ofUpload job.workspaceId job.uploadId record = true := by
    rw [← hjob]
    simp [ofUpload]
  apply length_filter_eq_one store.nodup (b := job.scanJobId) _
    ⟨record, hmem, congrArg ScanJob.scanJobId hjob⟩
  intro other hother
  constructor
  · exact h.only other hother
  · intro hid
    rw [KeyedMap.eq_of_key hother hmem (hid.trans (congrArg ScanJob.scanJobId hjob).symm)]
    exact hof

theorem Scanned.set (h : Scanned job createdAt store) (hjob : record.toScanJob = job)
    (hcreated : record.createdAt = createdAt) : Scanned job createdAt (store.set record) := by
  have hid : record.scanJobId = job.scanJobId := congrArg ScanJob.scanJobId hjob
  constructor
  · exact ⟨record, hid ▸ KeyedMap.get_set_self store record, hjob, hcreated⟩
  · intro other hother hof
    rcases KeyedMap.mem_set.mp hother with rfl | ⟨hother, -⟩
    · exact hid
    · exact h.only other hother hof

theorem scanned_set (hnone : ScanStore.getByUploadId store record.workspaceId record.uploadId = none) :
    Scanned record.toScanJob record.createdAt (store.set record) := by
  constructor
  · exact ⟨record, KeyedMap.get_set_self store record, rfl, rfl⟩
  · intro other hother hof
    rcases KeyedMap.mem_set.mp hother with rfl | ⟨hother, -⟩
    · rfl
    · exact absurd hof (List.find?_eq_none.mp hnone other hother)

/-- The first row of a new job of an upload without one. -/
theorem saveScan_first (hnew : store.get record.scanJobId = none)
    (hnone : ScanStore.getByUploadId store record.workspaceId record.uploadId = none) :
    saveScan store record = (.ok (), store.set record) := by
  simp [saveScan, ScanStore.getByScanJobId, hnew, hnone, resolveQuarantineScanSave]

theorem saveScan_refused (hnew : store.get record.scanJobId = none)
    (hsome : ScanStore.getByUploadId store record.workspaceId record.uploadId = some old) :
    ∃ e, saveScan store record = (.error e, store) := by
  have hmem := List.mem_of_find?_eq_some hsome
  have hne : old.scanJobId ≠ record.scanJobId := by
    intro hid
    have hget := KeyedMap.get_of_mem hmem
    rw [hid, hnew] at hget
    cases hget
  simp [saveScan, ScanStore.getByScanJobId, hnew, hsome, resolveQuarantineScanSave, hne]

theorem saveScan_again (h : Scanned job createdAt store) (hjob : record.toScanJob = job)
    (hcreated : record.createdAt = createdAt) :
    saveScan store record = (.ok (), store.set record) := by
  obtain ⟨old, hget, hold, hcreatedOld⟩ := h.stored
  have hsame : old.toScanJob = record.toScanJob := hold.trans hjob.symm
  have hid : record.scanJobId = job.scanJobId := congrArg ScanJob.scanJobId hjob
  simp [saveScan, ScanStore.getByScanJobId, hid, hget, hsame, resolveQuarantineScanSave,
    hcreatedOld, hcreated, Option.filter]

end Table

/-! ## The orchestrator over the table -/

section Orchestrator

variable {s : ScanWorld} {job : ScanJob} {createdAt now : JsString} {times : QueueTimes}
  {record : QuarantineScanRecord}

theorem returns_save (h : Scanned job createdAt s.store) (hjob : record.toScanJob = job)
    (hcreated : record.createdAt = createdAt) :
    (saveRecord record).Returns execScan s fun _ s' => Scanned job createdAt s'.store ∧
      s'.store.get job.scanJobId = some record := by
  have hsave := saveScan_again h hjob hcreated
  have hexec : execScan (.save record) s = (.ok (), { s with store := s.store.set record }) := by
    rw [execScan, hsave]
  change (Prog.ofExcept (execScan (.save record) s).1).Returns execScan
    (execScan (.save record) s).2 _
  rw [hexec]
  apply Prog.returns_pure.mpr
  refine ⟨h.set hjob hcreated, ?_⟩
  rw [← hjob]
  exact KeyedMap.get_set_self s.store record

theorem returns_queue (hnew : s.store.get job.scanJobId = none)
    (hnone : ScanStore.getByUploadId s.store job.workspaceId job.uploadId = none) :
    (queueUploaded times job).Returns execScan s fun _ s' => Scanned job times.now s'.store ∧
      s'.store.get job.scanJobId = some (scanningRecord times job) := by
  have hfound : ScanStore.getByScanJobId s.store job.workspaceId job.scanJobId = none := by
    rw [ScanStore.getByScanJobId, hnew]
    rfl
  have hfirst : execScan (.save (queuedRecord times job)) s =
      (.ok (), { s with store := s.store.set (queuedRecord times job) }) := by
    rw [execScan, @saveScan_first s.store (queuedRecord times job) hnew hnone]
  rw [queueUploaded_eq]
  change (queueFound times job (.ok (ScanStore.getByScanJobId s.store job.workspaceId
    job.scanJobId))).Returns execScan s _
  rw [hfound]
  change (queueSaved times job (execScan (.save (queuedRecord times job)) s).1).Returns execScan
    (execScan (.save (queuedRecord times job)) s).2 _
  rw [hfirst]
  have hscanned : Scanned job times.now (s.store.set (queuedRecord times job)) :=
    @scanned_set s.store (queuedRecord times job) hnone
  have hsecond : saveScan (s.store.set (queuedRecord times job)) (scanningRecord times job) =
      (.ok (), (s.store.set (queuedRecord times job)).set (scanningRecord times job)) :=
    saveScan_again hscanned rfl rfl
  change (queueEnded times job (saveScan (s.store.set (queuedRecord times job))
    (scanningRecord times job)).1).Returns execScan { s with
      store := (saveScan (s.store.set (queuedRecord times job)) (scanningRecord times job)).2
      submitted := s.submitted ++ [job] } _
  rw [hsecond]
  apply Prog.returns_pure.mpr
  exact ⟨hscanned.set rfl rfl, KeyedMap.get_set_self _ (scanningRecord times job)⟩

theorem not_returns_queue {old : QuarantineScanRecord} {Q : QuarantineScanRecord → ScanWorld → Prop}
    (hnew : s.store.get job.scanJobId = none)
    (hsome : ScanStore.getByUploadId s.store job.workspaceId job.uploadId = some old) :
    ¬ (queueUploaded times job).Returns execScan s Q := by
  have hfound : ScanStore.getByScanJobId s.store job.workspaceId job.scanJobId = none := by
    rw [ScanStore.getByScanJobId, hnew]
    rfl
  obtain ⟨e, hrefused⟩ := @saveScan_refused s.store (queuedRecord times job) old hnew hsome
  rw [queueUploaded_eq]
  change ¬ (queueFound times job (.ok (ScanStore.getByScanJobId s.store job.workspaceId
    job.scanJobId))).Returns execScan s _
  rw [hfound]
  change ¬ (queueSaved times job (saveScan s.store (queuedRecord times job)).1).Returns execScan _ _
  rw [hrefused]
  exact Prog.not_returns_throw

/-- The callback of a job that is being scanned, also if the process has seen it before. -/
theorem returns_callback (h : Scanned job createdAt s.store)
    (hget : s.store.get job.scanJobId = some record) (hjob : record.toScanJob = job)
    (hcreated : record.createdAt = createdAt) (hstate : record.state = .scanning) :
    (handleCallback now ⟨job.scanJobId, job.workspaceId, .clean, true⟩).Returns execScan s
      fun answer s' => Scanned job createdAt s'.store ∧ answer.toScanJob = job ∧
        answer.createdAt = createdAt := by
  have hfound : ScanStore.getByScanJobId s.store job.workspaceId job.scanJobId = some record :=
    getByScanJobId_eq_some.mpr ⟨hget, congrArg ScanJob.workspaceId hjob⟩
  rw [handleCallback_eq _ _ rfl]
  change (callbackFound now _ (.ok (ScanStore.getByScanJobId s.store job.workspaceId
    job.scanJobId))).Returns execScan s _
  rw [hfound, callbackFound_some hfound]
  change (callbackChecked now _ record (s.processedCallbacks.contains _)).Returns execScan s _
  rw [callbackChecked]
  split
  · exact Prog.returns_pure.mpr ⟨h, hjob, hcreated⟩
  · rw [if_neg (by simp [hstate, outcomeState]), if_neg (not_not.mpr hstate)]
    have hsave := @saveScan_again s.store (decidedRecord now
      ⟨job.scanJobId, job.workspaceId, .clean, true⟩ record) job createdAt h hjob hcreated
    change (callbackSaved now _ record (saveScan s.store (decidedRecord now _ record)).1).Returns
      execScan { s with
        store := (saveScan s.store (decidedRecord now _ record)).2
        processedCallbacks := _ } _
    rw [hsave]
    apply Prog.returns_pure.mpr
    exact ⟨h.set hjob hcreated, hjob, hcreated⟩

theorem returns_promotion {κ : Type} {attempt : UploadAttempt κ} (h : Scanned job createdAt s.store)
    (hjob : record.toScanJob = job) (hcreated : record.createdAt = createdAt) :
    (advanceFakePromotion attempt record).Returns execScan s fun _ s' =>
      Scanned job createdAt s'.store := by
  rw [advanceFakePromotion]
  split
  · exact Prog.returns_pure.mpr h
  · have hpending := @returns_save s job createdAt
      { record with state := .promotionPending, updatedAt := attempt.pendingAt } h hjob hcreated
    apply hpending.bind
    rintro - s₁ ⟨h₁, -⟩
    have hpromoted := @returns_save s₁ job createdAt
      { record with state := .promoted, updatedAt := attempt.promotedAt } h₁ hjob hcreated
    exact hpromoted.mono fun _ _ h₂ => h₂.1

/-- A new job of an upload that has none. -/
theorem returns_scan {κ : Type} {server : UploadServer κ} {attempt : UploadAttempt κ}
    {workspaceId uploadId storageKey : JsString} (hnew : s.store.get attempt.scanJobId = none)
    (hnone : ScanStore.getByUploadId s.store workspaceId uploadId = none) :
    (queueScanAfterIngest server attempt workspaceId uploadId storageKey).Returns execScan s
      fun _ s' => Scanned ⟨attempt.scanJobId, workspaceId, uploadId, storageKey⟩
        attempt.queueTimes.now s'.store := by
  have hqueue := @returns_queue s ⟨attempt.scanJobId, workspaceId, uploadId, storageKey⟩
    attempt.queueTimes hnew hnone
  apply hqueue.bind
  rintro - s₁ ⟨h₁, hget⟩
  cases server.fakeScannerEnabled with
  | false => exact Prog.returns_pure.mpr h₁
  | true =>
    apply (returns_callback h₁ hget rfl rfl rfl).bind
    rintro record s₂ ⟨h₂, hjob, hcreated⟩
    exact returns_promotion h₂ hjob hcreated

end Orchestrator

/-! ## The repetition -/

section Retry

variable {κ : Type} [DecidableEq κ] {supplies : Supplies} {w : UploadWorld κ}
  {server : UploadServer κ} {attempt : UploadAttempt κ} {uploadId : JsString}
  {actor : AuthenticatedActor} {command : CompleteUploadCommand} {row : UploadRow} {bytes : Bytes}

/-- The actor repeats the command with the bytes of the session, before it expires. The route
is given, and the job id that is drawn is new. -/
structure Repeats (attempt : UploadAttempt κ) (uploadId : JsString) (actor : AuthenticatedActor)
    (command : CompleteUploadCommand) (row : UploadRow) (bytes : Bytes) (w : UploadWorld κ) :
    Prop where
  visible : visible w.sessions command.workspaceId uploadId actor = some row
  decoded : decodeBase64 command.bytesBase64 = .ok bytes
  length : bytes.length = row.expectedByteLength
  digest : sha256 bytes = row.expectedSha256
  uncompleted : row.state ≠ .completed
  unexpired : attempt.now.ms < row.expiresAt.ms
  routed : ∃ fields, attempt.routing = .ok fields
  drawn : w.scans.store.get attempt.scanJobId = none

/-- The session is completed with the blob, and its upload has one scan job. -/
def Completed (workspaceId uploadId blobId : JsString) (session : UploadSession)
    (w : UploadWorld κ) : Prop :=
  (∃ row, w.sessions.get uploadId = some row ∧ session = mapUpload row ∧ row.state = .completed ∧
    row.blobId = some blobId) ∧
  (scansOf w.scans.store workspaceId uploadId).length = 1

theorem visible_eq_some {sessions : UploadSessions} {workspaceId : JsString} :
    visible sessions workspaceId uploadId actor = some row ↔
      sessions.get uploadId = some row ∧ row.workspaceId = workspaceId ∧ ownedBy actor row = true := by
  simp [visible, Option.filter_eq_some_iff]

theorem completeUploadSession_visible {sessions : UploadSessions}
    {workspaceId blobId ingestOperationId completedAt : JsString}
    (h : visible sessions workspaceId uploadId actor = some row) (hopen : row.state ≠ .completed) :
    completeUploadSession sessions workspaceId uploadId actor blobId ingestOperationId completedAt =
      (.ok (mapUpload (completeRow blobId ingestOperationId completedAt row)),
        sessions.set (completeRow blobId ingestOperationId completedAt row)) := by
  rw [completeUploadSession, h]
  simp only [hopen, if_false]

/-- The checks of a repetition pass. -/
theorem returns_checked {Q : UploadSession → UploadWorld κ → Prop}
    (h : Repeats attempt uploadId actor command row bytes w) :
    (completeUpload server attempt uploadId actor command).Returns (UploadStatement.exec supplies) w Q ↔
      (ingestAndComplete server attempt uploadId actor command (mapUpload row) bytes).Returns
        (UploadStatement.exec supplies) w Q := by
  rw [completeUpload, Prog.returns_bind, Prog.returns_perform]
  simp only [UploadStatement.exec, h.visible, Option.map_some, h.decoded, Prog.ofExcept,
    Prog.bind]
  have hlength : ¬ bytes.length ≠ (mapUpload row).expectedByteLength := not_not.mpr h.length
  have hdigest : ¬ sha256 bytes ≠ (mapUpload row).expectedSha256 := not_not.mpr h.digest
  have hopen : ¬ (mapUpload row).state = .completed := h.uncompleted
  have hunexpired : ¬ (mapUpload row).expiresAt.ms ≤ attempt.now.ms := not_le.mpr h.unexpired
  rw [if_neg hlength, if_neg hdigest, if_neg hopen, if_neg hunexpired]

/-- After an ingest that is done, a repetition does what is left with its blob. -/
theorem returns_ingested (h : Repeats attempt uploadId actor command row bytes w)
    {operation : IngestOperation} {existing : BlobObject}
    (hdone : IngestDone (ingestInput uploadId actor command (mapUpload row) bytes) w.ingest operation
      existing) :
    ∃ s', ∀ Q, (completeUpload server attempt uploadId actor command).Returns
        (UploadStatement.exec supplies) w Q ↔
      (queueScanAfterIngest server attempt command.workspaceId uploadId existing.storageKey).Returns
        execScan w.scans fun _ scans =>
          ((Prog.perform (.completeUploadSession command.workspaceId uploadId actor existing.id
            operation.id attempt.completedAt)).bind Prog.ofExcept).Returns
            (UploadStatement.exec supplies) ⟨w.sessions, s', scans⟩ Q := by
  obtain ⟨fields, hrouted⟩ := h.routed
  obtain ⟨result, s', hrun, hid, -, rfl⟩ := @IngestDone.returns κ _ _ _ _ _ hdone supplies
    server.platform server.provider fields
  refine ⟨s', fun Q => ?_⟩
  rw [returns_checked h, ingestAndComplete, hrouted, Prog.returns_bind, onIngest]
  apply Prog.returns_pure.trans
  rw [Prog.returns_bind, ingestPart.returns_embed, Prog.returns_of_run hrun, Prog.returns_bind,
    onScans, scanPart.returns_embed, hid]

/-- A new scan job is refused where the upload has one. -/
theorem not_returns_of_stored (h : Repeats attempt uploadId actor command row bytes w)
    {operation : IngestOperation} {existing : BlobObject}
    (hdone : IngestDone (ingestInput uploadId actor command (mapUpload row) bytes) w.ingest operation
      existing) {old : QuarantineScanRecord}
    (hstored : ScanStore.getByUploadId w.scans.store command.workspaceId uploadId = some old)
    (Q : UploadSession → UploadWorld κ → Prop) :
    ¬ (completeUpload server attempt uploadId actor command).Returns (UploadStatement.exec supplies)
      w Q := by
  obtain ⟨s', hreturns⟩ := returns_ingested h hdone
  rw [hreturns]
  exact fun hscan => @not_returns_queue w.scans ⟨attempt.scanJobId, _, uploadId, _⟩
    attempt.queueTimes old _ h.drawn hstored (Prog.returns_bind.mp hscan)

/-- A new scan job is stored where the upload has none, and the session is completed. -/
theorem returns_of_unstored (h : Repeats attempt uploadId actor command row bytes w)
    {operation : IngestOperation} {existing : BlobObject}
    (hdone : IngestDone (ingestInput uploadId actor command (mapUpload row) bytes) w.ingest operation
      existing)
    (hnone : ScanStore.getByUploadId w.scans.store command.workspaceId uploadId = none) :
    (completeUpload server attempt uploadId actor command).Returns (UploadStatement.exec supplies) w
      (Completed command.workspaceId uploadId existing.id) := by
  obtain ⟨s', hreturns⟩ := returns_ingested h hdone
  rw [hreturns]
  apply (returns_scan h.drawn hnone).mono
  intro u scans hscanned
  have hcomplete := @completeUploadSession_visible uploadId actor row w.sessions
    command.workspaceId existing.id operation.id attempt.completedAt h.visible h.uncompleted
  have hid : row.id = uploadId := KeyedMap.key_of_get (visible_eq_some.mp h.visible).1
  rw [Prog.returns_bind, Prog.returns_perform]
  change (Prog.ofExcept (completeUploadSession w.sessions command.workspaceId uploadId actor
    existing.id operation.id attempt.completedAt).1).Returns (UploadStatement.exec supplies)
    { sessions := (completeUploadSession w.sessions command.workspaceId uploadId actor
        existing.id operation.id attempt.completedAt).2
      ingest := s'
      scans } _
  rw [hcomplete]
  apply Prog.returns_pure.mpr
  refine ⟨⟨_, ?_, rfl, rfl, rfl⟩, hscanned.length⟩
  rw [← hid]
  exact KeyedMap.get_set_self w.sessions (completeRow _ _ _ row)

/-- After an ingest that is done, the repetition completes the session with the same blob and
one scan job exactly where no attempt before it has stored a job for the upload. -/
theorem repeated_upload_completes_iff (h : Repeats attempt uploadId actor command row bytes w)
    {operation : IngestOperation} {existing : BlobObject}
    (hdone : IngestDone (ingestInput uploadId actor command (mapUpload row) bytes) w.ingest operation
      existing) :
    (completeUpload server attempt uploadId actor command).Returns (UploadStatement.exec supplies) w
        (Completed command.workspaceId uploadId existing.id) ↔
      ScanStore.getByUploadId w.scans.store command.workspaceId uploadId = none := by
  constructor
  · intro hreturns
    by_contra hstored
    obtain ⟨old, hstored⟩ := Option.ne_none_iff_exists'.mp hstored
    exact not_returns_of_stored h hdone hstored _ hreturns
  · exact returns_of_unstored h hdone

end Retry

/-- In every run of interleaved ingests a completed operation is done, with the blob that its
calls have returned. -/
theorem ingestDone_of_reachable {ι κ : Type} [DecidableEq ι] [DecidableEq κ] {platform : κ}
    {provider : JsString} {fields : RoutingFields κ} {inputs : Set IngestInput} {ids : Set JsString}
    (hd : DistinctDigests inputs ids) {w : IngestWorld ι κ}
    (h : (ingestCalls ι platform provider fields inputs ids).Reachable w) {input : IngestInput}
    (hinput : input ∈ inputs) {operation : IngestOperation}
    (hfind : operationOf input w.shared = some operation)
    (hhash : operation.requestHash = requestHashOf input)
    (hstate : operation.state = .reached .completed) :
    ∃ existing, IngestDone input w.shared operation existing ∧
      ∀ stored flag, operation.result = some (stored, flag) → existing.id = stored.id :=
  (inv_of_reachable hd h).ingestDone hinput hfind hhash hstate

section Sample

/-- A session for no bytes. -/
def sampleRow : UploadRow where
  id := js "u"
  workspaceId := js "w"
  operationId := js "s"
  requestedBy := js "u"
  requestedByPrincipalType := .user
  state := .requested
  mediaType := js "m"
  expectedByteLength := 0
  expectedSha256 := sha256 []
  expiresAt := ⟨1, by decide⟩
  createdAt := js "t"
  updatedAt := js "t"
  completedAt := none
  blobId := none
  ingestOperationId := none

def sampleWorld : UploadWorld Bool := ⟨KeyedMap.empty.set sampleRow, noState, ScanWorld.empty⟩

def sampleServer : UploadServer Bool := ⟨false, js "p", false⟩

def sampleAttempt (scanJobId : String) : UploadAttempt Bool where
  now := ⟨0, epoch_bound⟩
  routing := .ok onPlatform
  scanJobId := js scanJobId
  queueTimes := ⟨js "t", js "t", js "t"⟩
  callbackAt := js "t"
  pendingAt := js "t"
  promotedAt := js "t"
  completedAt := js "t"

def sampleActor : AuthenticatedActor := ⟨js "u", none⟩

def sampleCommand : CompleteUploadCommand := ⟨js "w", []⟩

def sampleCompletion (scanJobId : String) : UploadProg Bool UploadSession :=
  completeUpload sampleServer (sampleAttempt scanJobId) (js "u") sampleActor sampleCommand

/-- What a first attempt leaves that stops after some statements. -/
def stopped (n : Nat) : UploadWorld Bool :=
  (sampleCompletion "a").runFor (UploadStatement.exec sampleSupplies) n sampleWorld

def sampleInput : IngestInput :=
  ingestInput (js "u") sampleActor sampleCommand (mapUpload sampleRow) []

/-- The operation is done, with the blob that the attempt has drawn. -/
def sampleDone (s : IngestState Bool) : Bool :=
  (operationOf sampleInput s).any (fun row => row.requestHash == requestHashOf sampleInput &&
    ingestCheckpoints.all (fun name => row.checkpoints.contains name) &&
    (s.operations.filter (ofId row.workspaceId row.id)).length == 1) &&
  (s.blobs.find? (ofDigest sampleInput.workspaceId (sha256 sampleInput.bytes))).any
    fun blob => blob.id == js "i"

theorem exists_ingestDone {s : IngestState Bool} (h : sampleDone s = true) :
    ∃ operation existing, IngestDone sampleInput s operation existing ∧ existing.id = js "i" := by
  rw [sampleDone, Bool.and_eq_true] at h
  obtain ⟨hoperation, hblob⟩ := h
  cases hfind : operationOf sampleInput s with
  | none =>
    rw [hfind] at hoperation
    cases hoperation
  | some row =>
    cases hexisting : s.blobs.find? (ofDigest sampleInput.workspaceId (sha256 sampleInput.bytes)) with
    | none =>
      rw [hexisting] at hblob
      cases hblob
    | some existing =>
      rw [hfind, Option.any_some, Bool.and_eq_true, Bool.and_eq_true, beq_iff_eq, beq_iff_eq,
        List.all_eq_true] at hoperation
      rw [hexisting, Option.any_some, beq_iff_eq] at hblob
      refine ⟨row, existing, ⟨hfind, hoperation.1.1, ?_, hoperation.2, hexisting⟩, hblob⟩
      intro name _
      have hmem : name ∈ ingestCheckpoints := by cases name <;> decide
      exact List.contains_iff_mem.mp (hoperation.1.2 name hmem)

/-- The attempt has ended after its ingest, and the session is as it was. -/
theorem repeats_stopped {n : Nat} (hsessions : (stopped n).sessions.values = [sampleRow])
    (hnew : (stopped n).scans.store.get (js "b") = none) :
    Repeats (sampleAttempt "b") (js "u") sampleActor sampleCommand sampleRow [] (stopped n) where
  visible := by
    rw [visible, KeyedMap.get, hsessions]
    rfl
  decoded := rfl
  length := rfl
  digest := rfl
  uncompleted := nofun
  unexpired := by decide
  routed := ⟨onPlatform, rfl⟩
  drawn := hnew

theorem repeated_upload_completes : ∃ existing : BlobObject, existing.id = js "i" ∧
    (sampleCompletion "b").Returns (UploadStatement.exec sampleSupplies) (stopped 22)
      (Completed (js "w") (js "u") existing.id) := by
  obtain ⟨operation, existing, hdone, hid⟩ := @exists_ingestDone (stopped 22).ingest (by decide +kernel)
  refine ⟨existing, hid, ?_⟩
  exact (repeated_upload_completes_iff (repeats_stopped (by decide +kernel) (by decide +kernel))
    hdone).mpr (by decide +kernel)

/-- The first attempt stops after its scan job was stored. -/
theorem repeated_upload_refused : ∃ operation existing,
    IngestDone sampleInput (stopped 23).ingest operation existing ∧
    Repeats (sampleAttempt "b") (js "u") sampleActor sampleCommand sampleRow [] (stopped 23) ∧
    ¬ (sampleCompletion "b").Returns (UploadStatement.exec sampleSupplies) (stopped 23)
      (Completed (js "w") (js "u") existing.id) := by
  obtain ⟨operation, existing, hdone, -⟩ := @exists_ingestDone (stopped 23).ingest (by decide +kernel)
  have hrepeats : Repeats (sampleAttempt "b") (js "u") sampleActor sampleCommand sampleRow []
      (stopped 23) := repeats_stopped (by decide +kernel) (by decide +kernel)
  obtain ⟨old, hstored⟩ := Option.isSome_iff_exists.mp (show (ScanStore.getByUploadId
    (stopped 23).scans.store (js "w") (js "u")).isSome = true by decide +kernel)
  exact ⟨operation, existing, hdone, hrepeats, not_returns_of_stored hrepeats hdone hstored _⟩

end Sample

end TrustCore.UploadCompletion
