import TrustCore.QuarantineScan

/-!
# Scan calls that fail once

One call of the store or of the scanner fails inside `queueUploaded` or `handleCallback`, and
the same method is called again. Both methods note that their work is done before it is: a
record is stored before the job is submitted, and a callback counts as processed before its
outcome is stored. The second call stops at the note.
-/

namespace TrustCore.QuarantineScan

open TrustCore.Utf TrustCore.Dynamic TrustCore.KeyedMaps TrustCore.Programs TrustCore.Runs

/-! ## Calls and failures -/

inductive ScanCall where
  | queueUploaded (input : ScanJob)
  | handleCallback (callback : ScanCallback)

def ScanCall.program (times : QueueTimes) : ScanCall → ScanProg QuarantineScanRecord
  | .queueUploaded input => QuarantineScan.queueUploaded times input
  | .handleCallback callback => QuarantineScan.handleCallback times.now callback

/-- A call of the store or the scanner ends in `e`; it took effect all the same, or it did not. -/
def ScanFault (took : Bool) (e : ScanError) :
    (statement : ScanStatement) → ScanWorld → statement.Result → ScanWorld → Prop
  | .getByScanJobId _ _, s, answer, s' => answer = .error e ∧ s' = s
  | .save record, s, answer, s' => answer = .error e ∧
      if took then (ScanStore.save s.store record).1 = .ok () ∧
        s' = (ScanStatement.exec (.save record) s).2
      else s' = s
  | .submit job, s, answer, s' => answer = .error e ∧
      s' = if took then (ScanStatement.exec (.submit job) s).2 else s
  | .hasProcessed _, _, _, _ => False
  | .addProcessed _, _, _, _ => False

/-- The failures after which the same call can be made again: reading, the first save where it
did not take effect, and the last save where it did. -/
def Harmless (took : Bool) : ScanStatement → Prop
  | .save record => took = decide (record.state ≠ .scanQueued)
  | .submit _ => False
  | _ => True

/-! ## What a call is for -/

def ScanningOrLater (state : QuarantineScanState) : Prop :=
  state ≠ .pendingUpload ∧ state ≠ .uploaded ∧ state ≠ .scanQueued

/-- What a call that returns has done, from the world before it was first made. -/
def ScanCall.Done (before after : ScanWorld) : ScanCall → Prop
  | .queueUploaded input => ∃ record,
      ScanStore.getByScanJobId after.store input.workspaceId input.scanJobId = some record ∧
      record.toScanJob ∈ after.submitted ∧ ScanningOrLater record.state
  | .handleCallback callback => ∃ record,
      ScanStore.getByScanJobId after.store callback.workspaceId callback.scanJobId = some record ∧
      (record.outcome = some callback.outcome ∨ ∃ old,
        ScanStore.getByScanJobId before.store callback.workspaceId callback.scanJobId = some old ∧
        old.outcome ≠ none ∧ record.outcome = old.outcome)

/-- A record without its times. -/
def QuarantineScanRecord.timeless (record : QuarantineScanRecord) :
    ScanJob × QuarantineScanState × Option ScanOutcome :=
  (record.toScanJob, record.state, record.outcome)

def SameButTimes (store store' : ScanStore) : Prop :=
  ∀ scanJobId, (store.get scanJobId).map (·.timeless) = (store'.get scanJobId).map (·.timeless)

/-- The call made in `after` ends with the records that it would have left in `before`, and a
return means that its work is done. -/
def Recovers (before after : ScanWorld) (call : ScanCall) : Prop :=
  ∀ times, SameButTimes ((call.program times).run ScanStatement.exec after).2.store
      ((call.program times).run ScanStatement.exec before).2.store ∧
    ∀ record, ((call.program times).run ScanStatement.exec after).1 = .ok record →
      call.Done before ((call.program times).run ScanStatement.exec after).2

/-! ## The store -/

section Store

variable {store : ScanStore} {record other : QuarantineScanRecord}

theorem save_of_accepted (h : (ScanStore.save store record).1 = .ok ()) :
    ScanStore.save store record = (.ok (), store.set record) := by
  rw [ScanStore.save] at h ⊢
  split at h
  · cases h
  · rfl

theorem save_of_refused {e : ScanError} (h : (ScanStore.save store record).1 = .error e) :
    ScanStore.save store record = (.error e, store) := by
  rw [ScanStore.save] at h ⊢
  split at h
  · cases h
    rfl
  · cases h

/-- A record of the same job with the same immutable fields replaces the stored one. -/
theorem save_again (h : store.get record.scanJobId = some other)
    (hjob : other.toScanJob = record.toScanJob) (hcreated : other.createdAt = record.createdAt) :
    ScanStore.save store record = (.ok (), store.set record) := by
  have hworkspace : other.workspaceId = record.workspaceId := congrArg ScanJob.workspaceId hjob
  have hupload : other.uploadId = record.uploadId := congrArg ScanJob.uploadId hjob
  have hkey : other.storageKey = record.storageKey := congrArg ScanJob.storageKey hjob
  simp [ScanStore.save, ScanStore.resolve, resolveQuarantineScanSave, h, hworkspace, hupload, hkey,
    hcreated]

theorem getByScanJobId_eq_some {workspaceId scanJobId : JsString} :
    ScanStore.getByScanJobId store workspaceId scanJobId = some record ↔
      store.get scanJobId = some record ∧ record.workspaceId = workspaceId := by
  simp [ScanStore.getByScanJobId, Option.filter_eq_some_iff]

theorem getByScanJobId_set_self :
    ScanStore.getByScanJobId (store.set record) record.workspaceId record.scanJobId =
      some record :=
  getByScanJobId_eq_some.mpr ⟨KeyedMap.get_set_self store record, rfl⟩

end Store

/-! ## The methods in pieces -/

section Pieces

variable (times : QueueTimes) (input : ScanJob) (now : JsString) (callback : ScanCallback)

def queuedRecord : QuarantineScanRecord := ⟨input, .scanQueued, none, times.now, times.queuedAt⟩

def scanningRecord : QuarantineScanRecord := ⟨input, .scanning, none, times.now, times.scanningAt⟩

def queueEnded : Except ScanError Unit → ScanProg QuarantineScanRecord
  | .error e => .throw e
  | .ok _ => .pure (scanningRecord times input)

def queueSubmitted : Except ScanError Unit → ScanProg QuarantineScanRecord
  | .error e => .throw e
  | .ok _ => .stmt (.save (scanningRecord times input)) (queueEnded times input)

def queueSaved : Except ScanError Unit → ScanProg QuarantineScanRecord
  | .error e => .throw e
  | .ok _ => .stmt (.submit input) (queueSubmitted times input)

def queueFound : Except ScanError (Option QuarantineScanRecord) → ScanProg QuarantineScanRecord
  | .error e => .throw e
  | .ok (some existing) => .pure existing
  | .ok none => .stmt (.save (queuedRecord times input)) (queueSaved times input)

theorem queueUploaded_eq : queueUploaded times input =
    .stmt (.getByScanJobId input.workspaceId input.scanJobId) (queueFound times input) := by
  refine congrArg (Prog.stmt _) (funext fun found => ?_)
  match found with
  | .error e => rfl
  | .ok (some existing) => rfl
  | .ok none =>
    refine congrArg (Prog.stmt (ScanStatement.save _)) (funext fun saved => ?_)
    match saved with
    | .error e => rfl
    | .ok _ =>
      refine congrArg (Prog.stmt (ScanStatement.submit _)) (funext fun submitted => ?_)
      match submitted with
      | .error e => rfl
      | .ok _ =>
        refine congrArg (Prog.stmt (ScanStatement.save _)) (funext fun ended => ?_)
        match ended with
        | .error e => rfl
        | .ok _ => rfl

/-- The record with the outcome of the callback. -/
def decidedRecord (record : QuarantineScanRecord) : QuarantineScanRecord :=
  { record with
    state := outcomeState callback.outcome
    outcome := some callback.outcome
    updatedAt := now }

def callbackSaved (record : QuarantineScanRecord) :
    Except ScanError Unit → ScanProg QuarantineScanRecord
  | .error e => .throw e
  | .ok _ => .pure (decidedRecord now callback record)

def callbackChecked (record : QuarantineScanRecord) (processed : Bool) :
    ScanProg QuarantineScanRecord :=
  if processed then .pure record
  else if record.outcome = some callback.outcome ∧ record.state = outcomeState callback.outcome then
    .stmt (.addProcessed (callbackKey callback)) fun _ => .pure record
  else if record.state ≠ .scanning then .throw (invalidTransition record.state .accepted)
  else .stmt (.addProcessed (callbackKey callback)) fun _ =>
    .stmt (.save (decidedRecord now callback record)) (callbackSaved now callback record)

def callbackFound : Except ScanError (Option QuarantineScanRecord) → ScanProg QuarantineScanRecord
  | .error e => .throw e
  | .ok none => .throw unknownScanJob
  | .ok (some record) =>
    if record.workspaceId ≠ callback.workspaceId then .throw unknownScanJob
    else .stmt (.hasProcessed (callbackKey callback)) (callbackChecked now callback record)

theorem transitionQuarantine_outcome (outcome : ScanOutcome) :
    transitionQuarantine .scanning (outcomeState outcome) = .ok (outcomeState outcome) := by
  cases outcome <;> rfl

theorem handleCallback_eq (h : callback.authentic = true) : handleCallback now callback =
    .stmt (.getByScanJobId callback.workspaceId callback.scanJobId)
      (callbackFound now callback) := by
  rw [handleCallback, h]
  refine congrArg (Prog.stmt _) (funext fun found => ?_)
  match found with
  | .error e => rfl
  | .ok none => rfl
  | .ok (some record) =>
    change (if _ then _ else _) = if _ then _ else _
    split
    · rfl
    · refine congrArg (Prog.stmt (ScanStatement.hasProcessed _)) (funext fun processed => ?_)
      change _ = callbackChecked now callback record processed
      rw [callbackChecked]
      split
      · rfl
      · split
        · rfl
        · split
          · rfl
          · next hstate =>
            rw [not_not.mp hstate, transitionQuarantine_outcome]
            refine congrArg (Prog.stmt (ScanStatement.addProcessed _)) (funext fun _ => ?_)
            refine congrArg (Prog.stmt (ScanStatement.save _)) (funext fun saved => ?_)
            match saved with
            | .error e => rfl
            | .ok _ => rfl

end Pieces

/-! ## Runs of one call -/

section Queue

variable {times : QueueTimes} {input : ScanJob} {s : ScanWorld}

theorem run_queue_found {record : QuarantineScanRecord}
    (h : ScanStore.getByScanJobId s.store input.workspaceId input.scanJobId = some record) :
    (queueUploaded times input).run ScanStatement.exec s = (.ok record, s) := by
  rw [queueUploaded_eq]
  change (queueFound times input (.ok (ScanStore.getByScanJobId s.store input.workspaceId
    input.scanJobId))).run ScanStatement.exec s = _
  rw [h]
  rfl

theorem run_queue_none
    (h : ScanStore.getByScanJobId s.store input.workspaceId input.scanJobId = none) :
    (queueUploaded times input).run ScanStatement.exec s =
      (queueSaved times input (ScanStore.save s.store (queuedRecord times input)).1).run
        ScanStatement.exec
        { s with store := (ScanStore.save s.store (queuedRecord times input)).2 } := by
  rw [queueUploaded_eq]
  change (queueFound times input (.ok (ScanStore.getByScanJobId s.store input.workspaceId
    input.scanJobId))).run ScanStatement.exec s = _
  rw [h]
  rfl

theorem run_queue_refused {e : ScanError}
    (h : ScanStore.getByScanJobId s.store input.workspaceId input.scanJobId = none)
    (hrefused : (ScanStore.save s.store (queuedRecord times input)).1 = .error e) :
    (queueUploaded times input).run ScanStatement.exec s = (.error e, s) := by
  rw [run_queue_none h, save_of_refused hrefused]
  rfl

/-- The world after both saves and the submission. -/
def ScanWorld.queued (s : ScanWorld) (times : QueueTimes) (input : ScanJob) : ScanWorld :=
  { s with
    store := (s.store.set (queuedRecord times input)).set (scanningRecord times input)
    submitted := s.submitted ++ [input] }

theorem save_scanning :
    ScanStore.save (s.store.set (queuedRecord times input)) (scanningRecord times input) =
      (.ok (), (s.store.set (queuedRecord times input)).set (scanningRecord times input)) :=
  save_again (KeyedMap.get_set_self s.store (queuedRecord times input)) rfl rfl

theorem exec_queued (haccepted : (ScanStore.save s.store (queuedRecord times input)).1 = .ok ()) :
    ScanStatement.exec (.save (queuedRecord times input)) s =
      (.ok (), { s with store := s.store.set (queuedRecord times input) }) := by
  rw [ScanStatement.exec, save_of_accepted haccepted]

theorem exec_scanning :
    ScanStatement.exec (.save (scanningRecord times input)) (ScanStatement.exec (.submit input)
      { s with store := s.store.set (queuedRecord times input) }).2 =
      (.ok (), s.queued times input) := by
  simp only [ScanStatement.exec, save_scanning]
  rfl

theorem run_queue_new
    (h : ScanStore.getByScanJobId s.store input.workspaceId input.scanJobId = none)
    (haccepted : (ScanStore.save s.store (queuedRecord times input)).1 = .ok ()) :
    (queueUploaded times input).run ScanStatement.exec s =
      (.ok (scanningRecord times input), s.queued times input) := by
  rw [run_queue_none h, save_of_accepted haccepted]
  change (queueEnded times input (ScanStatement.exec (.save (scanningRecord times input))
    (ScanStatement.exec (.submit input) _).2).1).run ScanStatement.exec
    (ScanStatement.exec (.save (scanningRecord times input)) _).2 = _
  rw [exec_scanning]
  rfl

/-- Where a call fails, and what it leaves. -/
inductive QueueFails (took : Bool) (times : QueueTimes) (input : ScanJob) (s : ScanWorld) :
    ScanStatement → ScanWorld → Prop
  | reading : QueueFails took times input s (.getByScanJobId input.workspaceId input.scanJobId) s
  | queuing (h : ScanStore.getByScanJobId s.store input.workspaceId input.scanJobId = none)
      (htook : took = false) : QueueFails took times input s (.save (queuedRecord times input)) s
  | queued {s' : ScanWorld} {failed : ScanStatement}
      (h : ScanStore.getByScanJobId s.store input.workspaceId input.scanJobId = none)
      (haccepted : (ScanStore.save s.store (queuedRecord times input)).1 = .ok ())
      (hstore : s'.store = s.store.set (queuedRecord times input)) (hharm : ¬ Harmless took failed) :
      QueueFails took times input s failed s'
  | scanning (h : ScanStore.getByScanJobId s.store input.workspaceId input.scanJobId = none)
      (haccepted : (ScanStore.save s.store (queuedRecord times input)).1 = .ok ())
      (htook : took = true) :
      QueueFails took times input s (.save (scanningRecord times input)) (s.queued times input)

theorem queue_fails {took : Bool} {e : ScanError} {failed : ScanStatement}
    {answer : Except ScanError QuarantineScanRecord × ScanWorld}
    (h : (queueUploaded times input).Faulted ScanStatement.exec (ScanFault took e) s failed answer) :
    QueueFails took times input s failed answer.2 := by
  rw [queueUploaded_eq] at h
  rcases Prog.faulted_stmt.mp h with ⟨found, s', ⟨rfl, rfl⟩, rfl, rfl⟩ | hfound
  · exact .reading
  change (queueFound times input (.ok (ScanStore.getByScanJobId s.store input.workspaceId
    input.scanJobId))).Faulted ScanStatement.exec _ s failed answer at hfound
  cases hnone : ScanStore.getByScanJobId s.store input.workspaceId input.scanJobId with
  | some record =>
    rw [hnone] at hfound
    exact absurd hfound Prog.not_faulted_pure
  | none =>
    rw [hnone] at hfound
    rcases Prog.faulted_stmt.mp hfound with ⟨saved, s', ⟨rfl, heffect⟩, rfl, rfl⟩ | hsaved
    · cases took with
      | false =>
        obtain rfl : s' = s := heffect
        exact .queuing hnone rfl
      | true =>
        obtain ⟨haccepted, rfl⟩ : (ScanStore.save s.store (queuedRecord times input)).1 = .ok () ∧
          s' = (ScanStatement.exec (.save (queuedRecord times input)) s).2 := heffect
        rw [exec_queued haccepted]
        exact .queued hnone haccepted rfl (by simp [Harmless, queuedRecord])
    cases haccepted : (ScanStore.save s.store (queuedRecord times input)).1 with
    | error e =>
      have hrefused : ScanStatement.exec (.save (queuedRecord times input)) s = (.error e, s) := by
        rw [ScanStatement.exec, save_of_refused haccepted]
      rw [hrefused] at hsaved
      exact absurd hsaved Prog.not_faulted_throw
    | ok u =>
      rw [exec_queued haccepted] at hsaved
      rcases Prog.faulted_stmt.mp hsaved with ⟨submitted, s', ⟨rfl, rfl⟩, rfl, rfl⟩ | hsubmitted
      · refine .queued hnone haccepted ?_ id
        cases took with
        | false => rfl
        | true => rfl
      rcases Prog.faulted_stmt.mp hsubmitted with ⟨ended, s', ⟨rfl, heffect⟩, rfl, rfl⟩ | hended
      · cases took with
        | false =>
          obtain rfl := heffect
          exact .queued hnone haccepted rfl (by simp [Harmless, scanningRecord])
        | true =>
          obtain ⟨-, rfl⟩ := heffect
          rw [exec_scanning]
          exact .scanning hnone haccepted rfl
      · rw [exec_scanning] at hended
        exact absurd hended Prog.not_faulted_pure

end Queue

section Callback

variable {now : JsString} {callback : ScanCallback} {s : ScanWorld} {record : QuarantineScanRecord}

theorem run_callback_none (hauthentic : callback.authentic = true)
    (h : ScanStore.getByScanJobId s.store callback.workspaceId callback.scanJobId = none) :
    (handleCallback now callback).run ScanStatement.exec s = (.error unknownScanJob, s) := by
  rw [handleCallback_eq _ _ hauthentic]
  change (callbackFound now callback (.ok (ScanStore.getByScanJobId s.store callback.workspaceId
    callback.scanJobId))).run ScanStatement.exec s = _
  rw [h]
  rfl

theorem callbackFound_some
    (h : ScanStore.getByScanJobId s.store callback.workspaceId callback.scanJobId = some record) :
    callbackFound now callback (.ok (some record)) =
      .stmt (.hasProcessed (callbackKey callback)) (callbackChecked now callback record) :=
  if_neg (not_not.mpr (getByScanJobId_eq_some.mp h).2)

theorem run_callback_found (hauthentic : callback.authentic = true)
    (h : ScanStore.getByScanJobId s.store callback.workspaceId callback.scanJobId = some record) :
    (handleCallback now callback).run ScanStatement.exec s =
      (callbackChecked now callback record
        (s.processedCallbacks.contains (callbackKey callback))).run ScanStatement.exec s := by
  rw [handleCallback_eq _ _ hauthentic]
  change (callbackFound now callback (.ok (ScanStore.getByScanJobId s.store callback.workspaceId
    callback.scanJobId))).run ScanStatement.exec s = _
  rw [h, callbackFound_some h]
  rfl

/-- The callback counts as processed. -/
def ScanWorld.processed (s : ScanWorld) (callback : ScanCallback) : ScanWorld :=
  { s with processedCallbacks := callbackKey callback :: s.processedCallbacks }

/-- The callback counts as processed, and its outcome is stored. -/
def ScanWorld.decided (s : ScanWorld) (now : JsString) (callback : ScanCallback)
    (record : QuarantineScanRecord) : ScanWorld :=
  { s.processed callback with store := s.store.set (decidedRecord now callback record) }

theorem exec_decided
    (h : ScanStore.getByScanJobId s.store callback.workspaceId callback.scanJobId = some record) :
    ScanStatement.exec (.save (decidedRecord now callback record)) (s.processed callback) =
      (.ok (), s.decided now callback record) := by
  have hget := (getByScanJobId_eq_some.mp h).1
  rw [← KeyedMap.key_of_get hget] at hget
  have hsave : ScanStore.save s.store (decidedRecord now callback record) =
      (.ok (), s.store.set (decidedRecord now callback record)) :=
    @save_again s.store (decidedRecord now callback record) record hget rfl rfl
  rw [ScanStatement.exec, show (s.processed callback).store = s.store from rfl, hsave]
  rfl

/-- Nothing is left to be done with a callback. -/
def Handled (s : ScanWorld) (callback : ScanCallback) (record : QuarantineScanRecord) : Prop :=
  callbackKey callback ∈ s.processedCallbacks ∨
    record.outcome = some callback.outcome ∧ record.state = outcomeState callback.outcome

theorem run_callback_handled (hauthentic : callback.authentic = true)
    (h : ScanStore.getByScanJobId s.store callback.workspaceId callback.scanJobId = some record)
    (hhandled : Handled s callback record) :
    ((handleCallback now callback).run ScanStatement.exec s).1 = .ok record ∧
    (((handleCallback now callback).run ScanStatement.exec s).2 = s ∨
      record.outcome = some callback.outcome ∧
      ((handleCallback now callback).run ScanStatement.exec s).2 = s.processed callback) := by
  rw [run_callback_found hauthentic h, callbackChecked]
  by_cases hprocessed : callbackKey callback ∈ s.processedCallbacks
  · rw [if_pos (List.contains_iff_mem.mpr hprocessed)]
    exact ⟨rfl, .inl rfl⟩
  · rw [if_neg (mt List.contains_iff_mem.mp hprocessed),
      if_pos (hhandled.resolve_left hprocessed)]
    exact ⟨rfl, .inr ⟨(hhandled.resolve_left hprocessed).1, rfl⟩⟩

theorem run_callback_scanning (hauthentic : callback.authentic = true)
    (h : ScanStore.getByScanJobId s.store callback.workspaceId callback.scanJobId = some record)
    (hhandled : ¬ Handled s callback record) (hstate : record.state = .scanning) :
    (handleCallback now callback).run ScanStatement.exec s =
      (.ok (decidedRecord now callback record), s.decided now callback record) := by
  obtain ⟨hprocessed, hdecided⟩ := not_or.mp hhandled
  rw [run_callback_found hauthentic h, callbackChecked,
    if_neg (mt List.contains_iff_mem.mp hprocessed), if_neg hdecided,
    if_neg (not_not.mpr hstate)]
  change (callbackSaved now callback record (ScanStatement.exec (.save _)
    (s.processed callback)).1).run ScanStatement.exec
    (ScanStatement.exec (.save _) (s.processed callback)).2 = _
  rw [exec_decided h]
  rfl

theorem run_callback_refused (hauthentic : callback.authentic = true)
    (h : ScanStore.getByScanJobId s.store callback.workspaceId callback.scanJobId = some record)
    (hhandled : ¬ Handled s callback record) (hstate : record.state ≠ .scanning) :
    (handleCallback now callback).run ScanStatement.exec s =
      (.error (invalidTransition record.state .accepted), s) := by
  obtain ⟨hprocessed, hdecided⟩ := not_or.mp hhandled
  rw [run_callback_found hauthentic h, callbackChecked,
    if_neg (mt List.contains_iff_mem.mp hprocessed), if_neg hdecided, if_pos hstate]
  rfl

/-- Where a call fails, and what it leaves. -/
inductive CallbackFails (took : Bool) (now : JsString) (callback : ScanCallback) (s : ScanWorld) :
    ScanStatement → ScanWorld → Prop
  | reading :
      CallbackFails took now callback s (.getByScanJobId callback.workspaceId callback.scanJobId) s
  | saving {record : QuarantineScanRecord} {s' : ScanWorld} (hauthentic : callback.authentic = true)
      (h : ScanStore.getByScanJobId s.store callback.workspaceId callback.scanJobId = some record)
      (hhandled : ¬ Handled s callback record) (hstate : record.state = .scanning)
      (heffect : s' = if took then s.decided now callback record else s.processed callback) :
      CallbackFails took now callback s (.save (decidedRecord now callback record)) s'

theorem callback_fails {took : Bool} {e : ScanError} {failed : ScanStatement}
    {answer : Except ScanError QuarantineScanRecord × ScanWorld}
    (h : (handleCallback now callback).Faulted ScanStatement.exec (ScanFault took e) s failed
      answer) : CallbackFails took now callback s failed answer.2 := by
  by_cases hauthentic : callback.authentic = true
  case neg =>
    rw [handleCallback, if_pos (by simpa using hauthentic)] at h
    exact absurd h Prog.not_faulted_throw
  rw [handleCallback_eq _ _ hauthentic] at h
  rcases Prog.faulted_stmt.mp h with ⟨found, s', ⟨rfl, rfl⟩, rfl, rfl⟩ | hfound
  · exact .reading
  change (callbackFound now callback (.ok (ScanStore.getByScanJobId s.store callback.workspaceId
    callback.scanJobId))).Faulted ScanStatement.exec _ s failed answer at hfound
  cases hsome : ScanStore.getByScanJobId s.store callback.workspaceId callback.scanJobId with
  | none =>
    rw [hsome] at hfound
    exact absurd hfound Prog.not_faulted_throw
  | some record =>
    rw [hsome, callbackFound_some hsome] at hfound
    rcases Prog.faulted_stmt.mp hfound with ⟨_, _, hfault, _⟩ | hchecked
    · exact hfault.elim
    change (callbackChecked now callback record (s.processedCallbacks.contains _)).Faulted
      ScanStatement.exec _ s failed answer at hchecked
    rw [callbackChecked] at hchecked
    split at hchecked
    · exact absurd hchecked Prog.not_faulted_pure
    next hprocessed =>
    split at hchecked
    · rcases Prog.faulted_stmt.mp hchecked with ⟨_, _, hfault, _⟩ | hend
      · exact hfault.elim
      · exact absurd hend Prog.not_faulted_pure
    next hdecided =>
    have hhandled : ¬ Handled s callback record := by
      rintro (hmem | hsame)
      · exact hprocessed (List.contains_iff_mem.mpr hmem)
      · exact hdecided hsame
    split at hchecked
    · exact absurd hchecked Prog.not_faulted_throw
    next hstate =>
    rcases Prog.faulted_stmt.mp hchecked with ⟨_, _, hfault, _⟩ | hsaving
    · exact hfault.elim
    rcases Prog.faulted_stmt.mp hsaving with ⟨saved, s', ⟨rfl, heffect⟩, rfl, rfl⟩ | hsaved
    · refine .saving hauthentic hsome hhandled (not_not.mp hstate) ?_
      cases took with
      | false => exact heffect
      | true => exact heffect.2.trans (congrArg Prod.snd (exec_decided hsome))
    · change (callbackSaved now callback record (ScanStatement.exec (.save _)
        (s.processed callback)).1).Faulted ScanStatement.exec _ _ failed answer at hsaved
      rw [exec_decided hsome] at hsaved
      exact absurd hsaved Prog.not_faulted_pure

end Callback

theorem accepted_iff {times : QueueTimes} {input : ScanJob} {s : ScanWorld}
    (hnew : s.store.get input.scanJobId = none) :
    (ScanStore.save s.store (queuedRecord times input)).1 = .ok () ↔
      ScanStore.getByUploadId s.store input.workspaceId input.uploadId = none := by
  cases hupload : ScanStore.getByUploadId s.store input.workspaceId input.uploadId with
  | none =>
    simp [ScanStore.save, ScanStore.resolve, resolveQuarantineScanSave, queuedRecord, hnew, hupload]
  | some existing =>
    have hother : existing.scanJobId ≠ input.scanJobId := by
      intro hsame
      rw [← hsame, KeyedMap.get_of_mem (List.mem_of_find?_eq_some hupload)] at hnew
      cases hnew
    simp [ScanStore.save, ScanStore.resolve, resolveQuarantineScanSave, queuedRecord, hnew, hupload,
      hother]

theorem fresh_of_accepted {times : QueueTimes} {input : ScanJob} {s : ScanWorld}
    (h : ScanStore.getByScanJobId s.store input.workspaceId input.scanJobId = none)
    (haccepted : (ScanStore.save s.store (queuedRecord times input)).1 = .ok ()) :
    s.store.get input.scanJobId = none := by
  cases hget : s.store.get input.scanJobId with
  | none => rfl
  | some record =>
    have hworkspace : record.workspaceId ≠ input.workspaceId := by
      intro hsame
      rw [getByScanJobId_eq_some.mpr ⟨hget, hsame⟩] at h
      cases h
    simp [ScanStore.save, ScanStore.resolve, resolveQuarantineScanSave, queuedRecord, hget,
      hworkspace] at haccepted

/-! ## What harmless failures keep -/

/-- Every stored job was submitted and is scanned or was, and every processed callback was for a
job with an outcome. -/
structure Settled (s : ScanWorld) : Prop where
  submitted : ∀ record ∈ s.store.values, record.toScanJob ∈ s.submitted
  later : ∀ record ∈ s.store.values, ScanningOrLater record.state
  processed : ∀ callback : ScanCallback, callbackKey callback ∈ s.processedCallbacks →
    ∃ record ∈ s.store.values, record.scanJobId = callback.scanJobId ∧ record.outcome ≠ none

theorem text_ne_colon (outcome : ScanOutcome) : ∀ u ∈ outcome.text, u ≠ 58 := by
  cases outcome <;> decide

/-- The text of an outcome has no colon. -/
theorem callbackKey_injective {callback callback' : ScanCallback}
    (h : callbackKey callback = callbackKey callback') :
    callback.scanJobId = callback'.scanJobId := by
  have hrest (callback : ScanCallback) : (callbackKey callback).reverse.dropWhile (· != 58) =
      58 :: callback.scanJobId.reverse := by
    have hkey : (callbackKey callback).reverse =
        callback.outcome.text.reverse ++ 58 :: callback.scanJobId.reverse := by
      simp [callbackKey, show js ":" = [58] from rfl]
    rw [hkey, List.dropWhile_append_of_pos]
    · rfl
    · intro u hu
      exact bne_iff_ne.mpr (text_ne_colon callback.outcome u (List.mem_reverse.mp hu))
  have hsame := hrest callback
  rw [h, hrest callback', List.cons.injEq, List.reverse_inj] at hsame
  exact hsame.2.symm

section Settled

variable {s s' : ScanWorld} {times : QueueTimes} {call : ScanCall}

theorem settled_empty : Settled .empty := by
  constructor
  · intro record hrecord
    cases hrecord
  · intro record hrecord
    cases hrecord
  · intro callback hmem
    cases hmem

theorem Settled.queued (h : Settled s) {input : ScanJob}
    (hnew : s.store.get input.scanJobId = none) : Settled (s.queued times input) := by
  have hmem : ∀ record ∈ (s.queued times input).store.values,
      record = scanningRecord times input ∨ record ∈ s.store.values := by
    intro record hrecord
    rcases KeyedMap.mem_set.mp hrecord with hself | ⟨hset, hne⟩
    · exact .inl hself
    · rcases KeyedMap.mem_set.mp hset with rfl | ⟨hold, -⟩
      · exact absurd rfl hne
      · exact .inr hold
  constructor
  · intro record hrecord
    rcases hmem record hrecord with rfl | hold
    · exact List.mem_append_right _ (List.mem_singleton_self _)
    · exact List.mem_append_left _ (h.submitted record hold)
  · intro record hrecord
    rcases hmem record hrecord with rfl | hold
    · simp [ScanningOrLater, scanningRecord]
    · exact h.later record hold
  · intro callback hprocessed
    obtain ⟨record, hrecord, hjob, houtcome⟩ := h.processed callback hprocessed
    have hother : record.scanJobId ≠ input.scanJobId := by
      intro hsame
      rw [← hsame, KeyedMap.get_of_mem hrecord] at hnew
      cases hnew
    refine ⟨record, ?_, hjob, houtcome⟩
    exact KeyedMap.mem_set.mpr (.inr ⟨KeyedMap.mem_set.mpr (.inr ⟨hrecord, hother⟩), hother⟩)

/-- A stored record is replaced by one of the same job that is later and keeps an outcome. -/
theorem Settled.replace (h : Settled s) {old record : QuarantineScanRecord}
    (hold : old ∈ s.store.values) (hjob : record.toScanJob = old.toScanJob)
    (hlater : ScanningOrLater record.state) (houtcome : old.outcome ≠ none → record.outcome ≠ none) :
    Settled { s with store := s.store.set record } := by
  constructor
  · intro other hother
    rcases KeyedMap.mem_set.mp hother with rfl | ⟨hmem, -⟩
    · rw [hjob]
      exact h.submitted old hold
    · exact h.submitted other hmem
  · intro other hother
    rcases KeyedMap.mem_set.mp hother with rfl | ⟨hmem, -⟩
    · exact hlater
    · exact h.later other hmem
  · intro callback hprocessed
    obtain ⟨other, hother, hid, hsome⟩ := h.processed callback hprocessed
    by_cases hsame : other.scanJobId = record.scanJobId
    · have hid' : record.scanJobId = old.scanJobId := congrArg ScanJob.scanJobId hjob
      obtain rfl : other = old := KeyedMap.eq_of_key hother hold (hsame.trans hid')
      exact ⟨record, KeyedMap.mem_set.mpr (.inl rfl), hsame.symm.trans hid, houtcome hsome⟩
    · exact ⟨other, KeyedMap.mem_set.mpr (.inr ⟨hother, hsame⟩), hid, hsome⟩

theorem Settled.processed_of (h : Settled s) {callback : ScanCallback}
    {record : QuarantineScanRecord} (hrecord : record ∈ s.store.values)
    (hid : record.scanJobId = callback.scanJobId) (houtcome : record.outcome ≠ none) :
    Settled (s.processed callback) := by
  constructor
  · exact h.submitted
  · exact h.later
  · intro other hother
    rcases List.mem_cons.mp hother with hkey | hold
    · exact ⟨record, hrecord, hid.trans (callbackKey_injective hkey).symm, houtcome⟩
    · exact h.processed other hold

theorem scanningOrLater_outcomeState (outcome : ScanOutcome) :
    ScanningOrLater (outcomeState outcome) := by
  cases outcome <;> simp [ScanningOrLater, outcomeState]

theorem harmless_decided {took : Bool} {now : JsString} {callback : ScanCallback}
    {record : QuarantineScanRecord} :
    Harmless took (.save (decidedRecord now callback record)) ↔ took = true := by
  have hlater : (decidedRecord now callback record).state ≠ .scanQueued :=
    (scanningOrLater_outcomeState callback.outcome).2.2
  rw [Harmless, decide_eq_true hlater]

theorem Settled.decided (h : Settled s) {now : JsString} {callback : ScanCallback}
    {record : QuarantineScanRecord}
    (hfound : ScanStore.getByScanJobId s.store callback.workspaceId callback.scanJobId =
      some record) : Settled (s.decided now callback record) := by
  have hget := (getByScanJobId_eq_some.mp hfound).1
  have hreplaced : Settled { s with store := s.store.set (decidedRecord now callback record) } :=
    h.replace (KeyedMap.mem_of_get hget) rfl (scanningOrLater_outcomeState _)
      fun _ => Option.some_ne_none _
  have hid := KeyedMap.key_of_get hget
  exact hreplaced.processed_of (KeyedMap.mem_set.mpr (.inl rfl)) hid (Option.some_ne_none _)

theorem Settled.run_queue (h : Settled s) (input : ScanJob) :
    Settled ((queueUploaded times input).run ScanStatement.exec s).2 := by
  cases hfound : ScanStore.getByScanJobId s.store input.workspaceId input.scanJobId with
  | some record =>
    rw [run_queue_found hfound]
    exact h
  | none =>
    cases haccepted : (ScanStore.save s.store (queuedRecord times input)).1 with
    | error e =>
      rw [run_queue_refused hfound haccepted]
      exact h
    | ok u =>
      rw [run_queue_new hfound haccepted]
      exact h.queued (fresh_of_accepted hfound haccepted)

theorem Settled.run_callback (h : Settled s) (now : JsString) (callback : ScanCallback) :
    Settled ((handleCallback now callback).run ScanStatement.exec s).2 := by
  by_cases hauthentic : callback.authentic = true
  case neg =>
    rw [handleCallback, if_pos (by simpa using hauthentic)]
    exact h
  cases hfound : ScanStore.getByScanJobId s.store callback.workspaceId callback.scanJobId with
  | none =>
    rw [run_callback_none hauthentic hfound]
    exact h
  | some record =>
    by_cases hhandled : Handled s callback record
    · have hget := (getByScanJobId_eq_some.mp hfound).1
      obtain ⟨-, hsame | ⟨houtcome, hadded⟩⟩ :=
        @run_callback_handled now _ _ _ hauthentic hfound hhandled
      · rw [hsame]
        exact h
      · rw [hadded]
        have hid := KeyedMap.key_of_get hget
        exact h.processed_of (KeyedMap.mem_of_get hget) hid (by simp [houtcome])
    · by_cases hstate : record.state = .scanning
      · rw [run_callback_scanning hauthentic hfound hhandled hstate]
        exact h.decided hfound
      · rw [run_callback_refused hauthentic hfound hhandled hstate]
        exact h

theorem Settled.run (h : Settled s) : Settled ((call.program times).run ScanStatement.exec s).2 := by
  cases call with
  | queueUploaded input => exact h.run_queue input
  | handleCallback callback => exact h.run_callback times.now callback

theorem Settled.fails (h : Settled s) {took : Bool} {e : ScanError} {failed : ScanStatement}
    {answer : Except ScanError QuarantineScanRecord × ScanWorld}
    (hfails : (call.program times).Faulted ScanStatement.exec (ScanFault took e) s failed answer)
    (hharmless : Harmless took failed) : Settled answer.2 := by
  cases call with
  | queueUploaded input =>
    have hqueue := queue_fails hfails
    generalize answer.2 = s' at hqueue ⊢
    cases hqueue with
    | reading => exact h
    | queuing hnone htook => exact h
    | queued hnone haccepted hstore hharm => exact absurd hharmless hharm
    | scanning hnone haccepted htook => exact h.queued (fresh_of_accepted hnone haccepted)
  | handleCallback callback =>
    have hcallback := callback_fails hfails
    generalize answer.2 = s' at hcallback ⊢
    cases hcallback with
    | reading => exact h
    | saving hauthentic hfound hhandled hstate heffect =>
      rw [harmless_decided.mp hharmless] at heffect
      rw [heffect]
      exact h.decided hfound

theorem done_queue (h : Settled s) {input : ScanJob} {record : QuarantineScanRecord}
    (hreturned : ((queueUploaded times input).run ScanStatement.exec s).1 = .ok record) :
    (ScanCall.queueUploaded input).Done s' ((queueUploaded times input).run ScanStatement.exec s).2 := by
  cases hfound : ScanStore.getByScanJobId s.store input.workspaceId input.scanJobId with
  | some found =>
    have hmem := KeyedMap.mem_of_get (getByScanJobId_eq_some.mp hfound).1
    rw [run_queue_found hfound]
    exact ⟨found, hfound, h.submitted found hmem, h.later found hmem⟩
  | none =>
    cases haccepted : (ScanStore.save s.store (queuedRecord times input)).1 with
    | error e =>
      rw [run_queue_refused hfound haccepted] at hreturned
      cases hreturned
    | ok u =>
      rw [run_queue_new hfound haccepted]
      exact ⟨scanningRecord times input, getByScanJobId_set_self,
        List.mem_append_right _ (List.mem_singleton_self _), by simp [ScanningOrLater, scanningRecord]⟩

theorem done_callback (h : Settled s) {now : JsString} {callback : ScanCallback}
    {record : QuarantineScanRecord}
    (hreturned : ((handleCallback now callback).run ScanStatement.exec s).1 = .ok record) :
    (ScanCall.handleCallback callback).Done s
      ((handleCallback now callback).run ScanStatement.exec s).2 := by
  by_cases hauthentic : callback.authentic = true
  case neg =>
    rw [handleCallback, if_pos (by simpa using hauthentic)] at hreturned
    cases hreturned
  cases hfound : ScanStore.getByScanJobId s.store callback.workspaceId callback.scanJobId with
  | none =>
    rw [run_callback_none hauthentic hfound] at hreturned
    cases hreturned
  | some found =>
    obtain ⟨hget, hworkspace⟩ := getByScanJobId_eq_some.mp hfound
    by_cases hhandled : Handled s callback found
    · have houtcome : found.outcome ≠ none := by
        rcases hhandled with hprocessed | ⟨hsame, -⟩
        · obtain ⟨other, hother, hid, hsome⟩ := h.processed callback hprocessed
          have hid' := hid.trans (KeyedMap.key_of_get hget).symm
          obtain rfl : other = found := KeyedMap.eq_of_key hother (KeyedMap.mem_of_get hget) hid'
          exact hsome
        · simp [hsame]
      obtain ⟨-, hsame⟩ := @run_callback_handled now _ _ _ hauthentic hfound hhandled
      refine ⟨found, ?_, .inr ⟨found, hfound, houtcome, rfl⟩⟩
      rcases hsame with hsame | ⟨-, hadded⟩
      · rw [hsame]
        exact hfound
      · rw [hadded]
        exact hfound
    · by_cases hstate : found.state = .scanning
      · rw [run_callback_scanning hauthentic hfound hhandled hstate]
        have hid := KeyedMap.key_of_get hget
        have hstored : ScanStore.getByScanJobId (s.store.set (decidedRecord now callback found))
            found.workspaceId found.scanJobId = some (decidedRecord now callback found) :=
          getByScanJobId_set_self
        rw [hworkspace, hid] at hstored
        exact ⟨_, hstored, .inl rfl⟩
      · rw [run_callback_refused hauthentic hfound hhandled hstate] at hreturned
        cases hreturned

theorem Settled.done (h : Settled s) {record : QuarantineScanRecord}
    (hreturned : ((call.program times).run ScanStatement.exec s).1 = .ok record) :
    call.Done s ((call.program times).run ScanStatement.exec s).2 := by
  cases call with
  | queueUploaded input => exact done_queue h hreturned
  | handleCallback callback => exact done_callback h hreturned

/-- The same call from where it was made before. -/
theorem Settled.recovers (h : Settled s) : Recovers s s call :=
  fun _ => ⟨fun _ => rfl, fun _ => h.done⟩

/-- A record that was stored before the job was submitted stops the second call. -/
theorem not_recovers_queued {input : ScanJob}
    (hnone : ScanStore.getByScanJobId s.store input.workspaceId input.scanJobId = none)
    (haccepted : (ScanStore.save s.store (queuedRecord times input)).1 = .ok ())
    (hstore : s'.store = s.store.set (queuedRecord times input)) :
    ¬ Recovers s s' (.queueUploaded input) := by
  intro h
  have hfound : ScanStore.getByScanJobId s'.store input.workspaceId input.scanJobId =
      some (queuedRecord times input) := by
    rw [hstore]
    exact getByScanJobId_set_self
  have hsame := (h times).1 input.scanJobId
  rw [ScanCall.program, run_queue_found hfound, run_queue_new hnone haccepted,
    (getByScanJobId_eq_some.mp hfound).1] at hsame
  have hscanning : (s.queued times input).store.get input.scanJobId =
      some (scanningRecord times input) := KeyedMap.get_set_self _ (scanningRecord times input)
  rw [hscanning] at hsame
  simp [QuarantineScanRecord.timeless, queuedRecord, scanningRecord] at hsame

theorem recovers_queued (h : Settled s) {input : ScanJob}
    (hnone : ScanStore.getByScanJobId s.store input.workspaceId input.scanJobId = none)
    (haccepted : (ScanStore.save s.store (queuedRecord times input)).1 = .ok ()) :
    Recovers s (s.queued times input) (.queueUploaded input) := by
  have hnew := fresh_of_accepted hnone haccepted
  have hstored : ScanStore.getByScanJobId (s.queued times input).store input.workspaceId
      input.scanJobId = some (scanningRecord times input) := getByScanJobId_set_self
  intro times'
  constructor
  · have haccepted' : (ScanStore.save s.store (queuedRecord times' input)).1 = .ok () :=
      (accepted_iff hnew).mpr ((accepted_iff hnew).mp haccepted)
    rw [ScanCall.program, run_queue_found hstored,
      run_queue_new hnone haccepted']
    intro scanJobId
    simp only [ScanWorld.queued, KeyedMap.get_set, scanningRecord, queuedRecord]
    split
    · rfl
    · rfl
  · intro record hreturned
    exact done_queue (h.queued hnew) hreturned

section Callback

variable {now : JsString} {callback : ScanCallback} {record : QuarantineScanRecord}

/-- A callback that counts as processed without its outcome stops the second call. -/
theorem not_recovers_processed (hauthentic : callback.authentic = true)
    (hfound : ScanStore.getByScanJobId s.store callback.workspaceId callback.scanJobId =
      some record) (hhandled : ¬ Handled s callback record) (hstate : record.state = .scanning) :
    ¬ Recovers s (s.processed callback) (.handleCallback callback) := by
  intro h
  have hsame := (h ⟨[], [], []⟩).1 callback.scanJobId
  have hstored : ((handleCallback [] callback).run ScanStatement.exec
      (s.processed callback)).2.store = s.store := by
    obtain ⟨-, hkept | ⟨-, hkept⟩⟩ := @run_callback_handled [] callback (s.processed callback) _
      hauthentic hfound (.inl List.mem_cons_self)
    · rw [hkept]
      rfl
    · rw [hkept]
      rfl
  obtain ⟨hget, -⟩ := getByScanJobId_eq_some.mp hfound
  have hid := KeyedMap.key_of_get hget
  rw [ScanCall.program, hstored,
    run_callback_scanning hauthentic hfound hhandled hstate, hget] at hsame
  have hdecided : (s.decided [] callback record).store.get callback.scanJobId =
      some (decidedRecord [] callback record) := by
    rw [← hid]
    exact KeyedMap.get_set_self s.store (decidedRecord [] callback record)
  rw [hdecided] at hsame
  have hnot : outcomeState callback.outcome ≠ .scanning := by
    cases callback.outcome <;> simp [outcomeState]
  simp [QuarantineScanRecord.timeless, decidedRecord, hstate, hnot.symm] at hsame

theorem recovers_decided (hauthentic : callback.authentic = true)
    (hfound : ScanStore.getByScanJobId s.store callback.workspaceId callback.scanJobId =
      some record) (hhandled : ¬ Handled s callback record) (hstate : record.state = .scanning) :
    Recovers s (s.decided now callback record) (.handleCallback callback) := by
  intro times
  obtain ⟨hget, hworkspace⟩ := getByScanJobId_eq_some.mp hfound
  have hid := KeyedMap.key_of_get hget
  have hstored : ScanStore.getByScanJobId (s.decided now callback record).store
      callback.workspaceId callback.scanJobId = some (decidedRecord now callback record) := by
    rw [← hworkspace, ← hid]
    exact getByScanJobId_set_self
  have hkept : ((handleCallback times.now callback).run ScanStatement.exec
      (s.decided now callback record)).2.store = (s.decided now callback record).store := by
    obtain ⟨-, hkept | ⟨-, hkept⟩⟩ := @run_callback_handled times.now callback
      (s.decided now callback record) _ hauthentic hstored (.inl List.mem_cons_self)
    · rw [hkept]
    · rw [hkept]
      rfl
  constructor
  · intro scanJobId
    rw [ScanCall.program, hkept,
      run_callback_scanning hauthentic hfound hhandled hstate]
    simp only [ScanWorld.decided, KeyedMap.get_set, decidedRecord]
    split
    · rfl
    · rfl
  · intro _ _
    rw [ScanCall.program]
    refine ⟨decidedRecord now callback record, ?_, .inl rfl⟩
    rw [hkept]
    exact hstored

end Callback

end Settled

/-! ## Runs of calls -/

inductive ScanEvent where
  | call (times : QueueTimes) (call : ScanCall)
  | fail (times : QueueTimes) (call : ScanCall) (took : Bool) (e : ScanError)
      (failed : ScanStatement)
  -- A save of `advanceFakePromotion`.
  | advance (record : QuarantineScanRecord) (updatedAt : JsString)
  -- The callbacks that were seen are those of one process.
  | restart

/-- The state that an accepted or promotion pending record is saved with. -/
def promotionState : QuarantineScanState → Option QuarantineScanState
  | .accepted => some .promotionPending
  | .promotionPending => some .promoted
  | _ => none

def scanMachine : Machine ScanWorld ScanEvent where
  init s := s = .empty
  step s event s' :=
    match event with
    | .call times call => s' = ((call.program times).run ScanStatement.exec s).2
    | .fail times call took e failed => ∃ answer,
        (call.program times).Faulted ScanStatement.exec (ScanFault took e) s failed answer ∧
        s' = answer.2
    | .advance record updatedAt => record ∈ s.store.values ∧
        ∃ next, promotionState record.state = some next ∧
          s' = (ScanStatement.exec (.save { record with state := next, updatedAt := updatedAt }) s).2
    | .restart => s' = { s with processedCallbacks := [] }

/-- Every failure is harmless. -/
def ScanGuard (_ : ScanWorld) : ScanEvent → Prop
  | .fail _ _ took _ failed => Harmless took failed
  | _ => True

theorem scanningOrLater_promotion {current next : QuarantineScanState}
    (h : promotionState current = some next) : ScanningOrLater next := by
  cases current <;> cases h <;> simp [ScanningOrLater]

theorem settled_step {s s' : ScanWorld} {event : ScanEvent} (h : Settled s)
    (hguard : ScanGuard s event) (hstep : scanMachine.step s event s') : Settled s' := by
  cases event with
  | call times call =>
    obtain rfl := hstep
    exact h.run
  | fail times call took e failed =>
    obtain ⟨answer, hfails, rfl⟩ := hstep
    exact h.fails hfails hguard
  | advance record updatedAt =>
    obtain ⟨hmem, next, hnext, rfl⟩ := hstep
    have hsave : ScanStore.save s.store { record with state := next, updatedAt := updatedAt } =
        (.ok (), s.store.set { record with state := next, updatedAt := updatedAt }) :=
      @save_again s.store { record with state := next, updatedAt := updatedAt } record
        (KeyedMap.get_of_mem hmem) rfl rfl
    rw [ScanStatement.exec, hsave]
    exact h.replace hmem rfl (scanningOrLater_promotion hnext) id
  | restart =>
    obtain rfl := hstep
    exact ⟨h.submitted, h.later, fun _ hmem => absurd hmem List.not_mem_nil⟩

theorem settled_of_reaches {s : ScanWorld} (h : scanMachine.Reaches ScanGuard s) : Settled s := by
  refine h.invariant ?_ fun s e s' hs => settled_step hs
  rintro s rfl
  exact settled_empty

/-- After a run with harmless failures, a call that fails once can be made again exactly when its
failure is harmless, too. -/
theorem recovers_iff_harmless {s : ScanWorld} (hs : scanMachine.Reaches ScanGuard s)
    (times : QueueTimes) (call : ScanCall) (took : Bool) (e : ScanError) (failed : ScanStatement)
    (answer : Except ScanError QuarantineScanRecord × ScanWorld)
    (hfails : (call.program times).Faulted ScanStatement.exec (ScanFault took e) s failed answer) :
    Recovers s answer.2 call ↔ Harmless took failed := by
  have h := settled_of_reaches hs
  cases call with
  | queueUploaded input =>
    have hqueue := queue_fails hfails
    generalize answer.2 = s' at hqueue ⊢
    cases hqueue with
    | reading => exact iff_of_true h.recovers trivial
    | queuing hnone htook => exact iff_of_true h.recovers (by simp [Harmless, queuedRecord, htook])
    | queued hnone haccepted hstore hharm =>
      exact iff_of_false (not_recovers_queued hnone haccepted hstore) hharm
    | scanning hnone haccepted htook =>
      exact iff_of_true (recovers_queued h hnone haccepted)
        (by simp [Harmless, scanningRecord, htook])
  | handleCallback callback =>
    have hcallback := callback_fails hfails
    generalize answer.2 = s' at hcallback ⊢
    cases hcallback with
    | reading => exact iff_of_true h.recovers trivial
    | saving hauthentic hfound hhandled hstate heffect =>
      rw [harmless_decided, heffect]
      cases took with
      | false =>
        exact iff_of_false (not_recovers_processed hauthentic hfound hhandled hstate) (by simp)
      | true => exact iff_of_true (recovers_decided hauthentic hfound hhandled hstate) rfl

section Samples

def sampleJob : ScanJob := ⟨js "scan", js "w", js "upload", js "workspaces/w/temporary/upload"⟩

def sampleTimes : QueueTimes := ⟨js "1", js "2", js "3"⟩

def sampleCallback : ScanCallback := ⟨js "scan", js "w", .clean, true⟩

def unreachableService : ScanError := ⟨none, js "unreachable"⟩

theorem recovers_iff_harmless_reading : ∃ answer,
    ((ScanCall.queueUploaded sampleJob).program sampleTimes).Faulted ScanStatement.exec
      (ScanFault false unreachableService) .empty (.getByScanJobId (js "w") (js "scan")) answer ∧
    Recovers .empty answer.2 (.queueUploaded sampleJob) := by
  have hfails : ((ScanCall.queueUploaded sampleJob).program sampleTimes).Faulted ScanStatement.exec
      (ScanFault false unreachableService) .empty (.getByScanJobId (js "w") (js "scan")) _ :=
    .here ⟨rfl, rfl⟩
  exact ⟨_, hfails, (recovers_iff_harmless (.init rfl) sampleTimes (.queueUploaded sampleJob) false
    unreachableService _ _ hfails).mpr trivial⟩

/-- The world in which the job of the sample is scanned. -/
def scanningWorld : ScanWorld := ScanWorld.empty.queued sampleTimes sampleJob

/-- A job that the scanner could not take is never submitted, and an outcome that could not be
stored is never stored. -/
theorem failed_work_dropped :
    (∃ answer, ((ScanCall.queueUploaded sampleJob).program sampleTimes).Faulted ScanStatement.exec
        (ScanFault false unreachableService) .empty (.submit sampleJob) answer ∧
      ¬ Recovers .empty answer.2 (.queueUploaded sampleJob)) ∧
    scanMachine.Reaches ScanGuard scanningWorld ∧
    ∃ answer, ((ScanCall.handleCallback sampleCallback).program sampleTimes).Faulted
        ScanStatement.exec (ScanFault false unreachableService) scanningWorld
        (.save (decidedRecord (js "1") sampleCallback (scanningRecord sampleTimes sampleJob))) answer ∧
      ¬ Recovers scanningWorld answer.2 (.handleCallback sampleCallback) := by
  refine ⟨⟨_, .later (.later (.here ⟨rfl, rfl⟩)), ?_⟩, ?_,
    _, .later (.later (.later (.here ⟨rfl, rfl⟩))), ?_⟩
  · exact @not_recovers_queued .empty _ sampleTimes sampleJob rfl rfl rfl
  · exact .step (e := .call sampleTimes (.queueUploaded sampleJob)) (.init rfl) trivial rfl
  · refine @not_recovers_processed scanningWorld sampleCallback
      (scanningRecord sampleTimes sampleJob) rfl rfl ?_ rfl
    rintro (hmem | ⟨houtcome, -⟩)
    · cases hmem
    · cases houtcome

end Samples

end TrustCore.QuarantineScan
