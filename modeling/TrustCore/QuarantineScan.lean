import TrustCore.Dynamic
import TrustCore.KeyedMaps
import TrustCore.Programs

/-!
# Scans of quarantined uploads

`QuarantineScanOrchestrator` over a store of scan records: `queueUploaded` stores a record,
submits the job to the scanner and stores the record again, and `handleCallback` stores the
outcome that the scanner reports. A call of the store or of the scanner may fail.
-/

namespace TrustCore.QuarantineScan

open TrustCore.Utf TrustCore.Dynamic TrustCore.KeyedMaps TrustCore.Programs

inductive QuarantineScanState where
  | pendingUpload
  | uploaded
  | scanQueued
  | scanning
  | accepted
  | rejected
  | manualReview
  | promotionPending
  | promoted
  | failed
  deriving DecidableEq

def QuarantineScanState.text : QuarantineScanState → JsString
  | .pendingUpload => js "pending_upload"
  | .uploaded => js "uploaded"
  | .scanQueued => js "scan_queued"
  | .scanning => js "scanning"
  | .accepted => js "accepted"
  | .rejected => js "rejected"
  | .manualReview => js "manual_review"
  | .promotionPending => js "promotion_pending"
  | .promoted => js "promoted"
  | .failed => js "failed"

def transitions : QuarantineScanState → List QuarantineScanState
  | .pendingUpload => [.uploaded, .failed]
  | .uploaded => [.scanQueued, .failed]
  | .scanQueued => [.scanning, .failed]
  | .scanning => [.accepted, .rejected, .manualReview, .failed]
  | .accepted => [.promotionPending, .failed]
  | .rejected => []
  | .manualReview => [.accepted, .rejected, .failed]
  | .promotionPending => [.promoted, .failed]
  | .promoted => []
  | .failed => [.scanQueued]

inductive ScanOutcome where
  | clean
  | malicious
  | suspicious
  | unsupported
  | error
  | timeout
  deriving DecidableEq

def ScanOutcome.text : ScanOutcome → JsString
  | .clean => js "clean"
  | .malicious => js "malicious"
  | .suspicious => js "suspicious"
  | .unsupported => js "unsupported"
  | .error => js "error"
  | .timeout => js "timeout"

def outcomeState : ScanOutcome → QuarantineScanState
  | .clean => .accepted
  | .malicious => .rejected
  | .suspicious => .manualReview
  | .unsupported => .failed
  | .error => .failed
  | .timeout => .failed

structure ScanError where
  code : Option String
  message : JsString
  deriving DecidableEq

/-- `InvalidQuarantineTransition`. -/
def invalidTransition (current next : QuarantineScanState) : ScanError :=
  ⟨none, js "Invalid quarantine transition: " ++ current.text ++ js " -> " ++ next.text⟩

/-- `QuarantineScanConflictError`. -/
def scanConflict (message : String) : ScanError := ⟨some "QUARANTINE_SCAN_CONFLICT", js message⟩

def canTransitionQuarantine (current next : QuarantineScanState) : Bool :=
  (transitions current).contains next

def transitionQuarantine (current next : QuarantineScanState) :
    Except ScanError QuarantineScanState :=
  if current = next then .ok current
  else if !canTransitionQuarantine current next then .error (invalidTransition current next)
  else .ok next

/-- What is submitted to the scanner. -/
structure ScanJob where
  scanJobId : JsString
  workspaceId : JsString
  uploadId : JsString
  storageKey : JsString
  deriving DecidableEq

structure QuarantineScanRecord extends ScanJob where
  state : QuarantineScanState
  outcome : Option ScanOutcome
  createdAt : JsString
  updatedAt : JsString
  deriving DecidableEq

structure ScanCallback where
  scanJobId : JsString
  workspaceId : JsString
  outcome : ScanOutcome
  authentic : Bool

/-! ## The store -/

inductive SaveAction where
  | insert
  | update
  deriving DecidableEq

def resolveQuarantineScanSave (existingByJobId existingByUpload : Option QuarantineScanRecord)
    (incoming : QuarantineScanRecord) : Except ScanError SaveAction :=
  match existingByJobId with
  | some existing =>
    if existing.workspaceId ≠ incoming.workspaceId ∨ existing.uploadId ≠ incoming.uploadId then
      .error (scanConflict "Scan job id is already bound to a different workspace or upload.")
    else if existing.storageKey ≠ incoming.storageKey ∨ existing.createdAt ≠ incoming.createdAt then
      .error (scanConflict "Scan record storage key and createdAt are immutable.")
    else .ok .update
  | none =>
    match existingByUpload with
    | some existing =>
      if existing.scanJobId ≠ incoming.scanJobId then
        .error (scanConflict "Upload already has a quarantine scan with a different scan job id.")
      else if existing.storageKey ≠ incoming.storageKey ∨
          existing.createdAt ≠ incoming.createdAt then
        .error (scanConflict "Scan record storage key and createdAt are immutable.")
      else .ok .update
    | none => .ok .insert

/-- `InMemoryQuarantineScanStore`. -/
abbrev ScanStore := KeyedMap fun record : QuarantineScanRecord => record.scanJobId

namespace ScanStore

def getByUploadId (store : ScanStore) (workspaceId uploadId : JsString) :
    Option QuarantineScanRecord :=
  store.values.find? fun record => record.workspaceId == workspaceId && record.uploadId == uploadId

def getByScanJobId (store : ScanStore) (workspaceId scanJobId : JsString) :
    Option QuarantineScanRecord :=
  (store.get scanJobId).filter (·.workspaceId == workspaceId)

/-- What the store makes of a record before it is written. -/
def resolve (store : ScanStore) (record : QuarantineScanRecord) : Except ScanError SaveAction :=
  resolveQuarantineScanSave (store.get record.scanJobId)
    (getByUploadId store record.workspaceId record.uploadId) record

def save (store : ScanStore) (record : QuarantineScanRecord) : Except ScanError Unit × ScanStore :=
  match resolve store record with
  | .error e => (.error e, store)
  | .ok _ => (.ok (), store.set record)

end ScanStore

/-! ## The orchestrator -/

/-- The store, the jobs that the scanner has taken, and the callbacks that the process has seen. -/
structure ScanWorld where
  store : ScanStore
  submitted : List ScanJob
  processedCallbacks : List JsString

def ScanWorld.empty : ScanWorld := ⟨.empty, [], []⟩

inductive ScanStatement where
  | getByScanJobId (workspaceId scanJobId : JsString)
  | save (record : QuarantineScanRecord)
  | submit (job : ScanJob)
  | hasProcessed (key : JsString)
  | addProcessed (key : JsString)
  deriving DecidableEq

def ScanStatement.Result : ScanStatement → Type
  | .getByScanJobId _ _ => Except ScanError (Option QuarantineScanRecord)
  | .save _ => Except ScanError Unit
  | .submit _ => Except ScanError Unit
  | .hasProcessed _ => Bool
  | .addProcessed _ => Unit

def ScanStatement.exec : (statement : ScanStatement) → ScanWorld → statement.Result × ScanWorld
  | .getByScanJobId workspaceId scanJobId, s =>
    (.ok (ScanStore.getByScanJobId s.store workspaceId scanJobId), s)
  | .save record, s =>
    ((ScanStore.save s.store record).1, { s with store := (ScanStore.save s.store record).2 })
  | .submit job, s => (.ok (), { s with submitted := s.submitted ++ [job] })
  | .hasProcessed key, s => (s.processedCallbacks.contains key, s)
  | .addProcessed key, s => ((), { s with processedCallbacks := key :: s.processedCallbacks })

abbrev ScanProg := Prog ScanStatement ScanStatement.Result ScanError

/-- A call that throws what the store or the scanner has thrown. -/
def getByScanJobId (workspaceId scanJobId : JsString) : ScanProg (Option QuarantineScanRecord) :=
  .stmt (.getByScanJobId workspaceId scanJobId) Prog.ofExcept

def saveRecord (record : QuarantineScanRecord) : ScanProg Unit :=
  .stmt (.save record) Prog.ofExcept

def submitJob (job : ScanJob) : ScanProg Unit := .stmt (.submit job) Prog.ofExcept

/-- What the clock says at its three readings. -/
structure QueueTimes where
  now : JsString
  queuedAt : JsString
  scanningAt : JsString

def queueUploaded (times : QueueTimes) (input : ScanJob) : ScanProg QuarantineScanRecord := do
  match ← getByScanJobId input.workspaceId input.scanJobId with
  | some existing => pure existing
  | none =>
    let record : QuarantineScanRecord := ⟨input, .uploaded, none, times.now, times.now⟩
    let queued ← Prog.ofExcept (transitionQuarantine record.state .scanQueued)
    let record := { record with state := queued, updatedAt := times.queuedAt }
    saveRecord record
    let next ← Prog.ofExcept (transitionQuarantine record.state .scanning)
    let record := { record with state := next, updatedAt := times.scanningAt }
    submitJob input
    saveRecord record
    pure record

def callbackKey (callback : ScanCallback) : JsString :=
  callback.scanJobId ++ js ":" ++ callback.outcome.text

def unknownScanJob : ScanError := ⟨none, js "Unknown scan job"⟩

def handleCallback (now : JsString) (callback : ScanCallback) : ScanProg QuarantineScanRecord :=
  if !callback.authentic then
    .throw ⟨none, js "Scan callback failed authenticity verification"⟩
  else do
    match ← getByScanJobId callback.workspaceId callback.scanJobId with
    | none => .throw unknownScanJob
    | some record =>
      if record.workspaceId ≠ callback.workspaceId then .throw unknownScanJob
      else .stmt (.hasProcessed (callbackKey callback)) fun processed : Bool =>
        if processed then .pure record
        else if record.outcome = some callback.outcome ∧
            record.state = outcomeState callback.outcome then
          .stmt (.addProcessed (callbackKey callback)) fun _ => .pure record
        else if record.state ≠ .scanning then .throw (invalidTransition record.state .accepted)
        else do
          let next ← Prog.ofExcept (transitionQuarantine record.state (outcomeState callback.outcome))
          let updated : QuarantineScanRecord :=
            { record with state := next, outcome := some callback.outcome, updatedAt := now }
          .stmt (.addProcessed (callbackKey callback)) fun _ => do
            saveRecord updated
            pure updated

end TrustCore.QuarantineScan
