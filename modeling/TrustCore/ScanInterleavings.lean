import TrustCore.Outlines
import TrustCore.ScanRetries
import TrustCore.UploadCompletion

/-!
# Concurrent calls of the orchestrator

Any number of processes, each with an orchestrator of its own, call over one store of scan
records: upload completions with their promotions, submissions, callbacks and reads. A call tests
the state that it has read and saves without a second look, so the stored states move along the
transitions as long as every save finds what its call has read.
-/

namespace TrustCore.QuarantineScan

open TrustCore.Utf TrustCore.Dynamic TrustCore.KeyedMaps TrustCore.Programs TrustCore.Outlines
open TrustCore.Runs
open TrustCore.UploadCompletion (UploadServer UploadAttempt advanceFakePromotion
  queueScanAfterIngest)

/-! ## Processes -/

/-- The store and the scanner, and the callbacks that the orchestrator of each process has seen. -/
structure Deployment (π : Type) where
  store : ScanStore
  submitted : List ScanJob
  processed : π → List JsString

section Deployment

variable {π : Type} [DecidableEq π]

def Deployment.world (d : Deployment π) (p : π) : ScanWorld := ⟨d.store, d.submitted, d.processed p⟩

def Deployment.put (d : Deployment π) (p : π) (s : ScanWorld) : Deployment π :=
  ⟨s.store, s.submitted, Function.update d.processed p s.processedCallbacks⟩

/-- The answer to a statement of a call in one of the processes. -/
abbrev Answer (st : π × ScanStatement) : Type := st.2.Result

def perform (st : π × ScanStatement) (d : Deployment π) : Answer st × Deployment π :=
  ((st.2.exec (d.world st.1)).1, d.put st.1 (st.2.exec (d.world st.1)).2)

def processExec (d : Deployment π) (st : π × ScanStatement) (r : Answer st) (d' : Deployment π) :
    Prop := perform st d = (r, d')

end Deployment

/-- A call over the store. `queueScanAfterIngest` is what the completion of an upload does here:
it queues the upload and, with the fake scanner, takes the job through to its promotion. `get`
also reads the state that `promoteQuarantineObject` is told. -/
inductive OrchestratorCall where
  | queueUploaded (times : QueueTimes) (input : ScanJob)
  | handleCallback (now : JsString) (callback : ScanCallback)
  | queueScanAfterIngest (server : UploadServer Unit) (attempt : UploadAttempt Unit)
      (workspaceId uploadId storageKey : JsString)
  | get (workspaceId scanJobId : JsString)

def OrchestratorCall.program : OrchestratorCall → ScanProg (Option QuarantineScanRecord)
  | .queueUploaded times input => (QuarantineScan.queueUploaded times input).bind fun r => .pure (some r)
  | .handleCallback now callback =>
    (QuarantineScan.handleCallback now callback).bind fun r => .pure (some r)
  | .queueScanAfterIngest server attempt workspaceId uploadId storageKey =>
    (UploadCompletion.queueScanAfterIngest server attempt workspaceId uploadId storageKey).bind
      fun _ => .pure none
  | .get workspaceId scanJobId => getByScanJobId workspaceId scanJobId

def OrchestratorCall.onProcess {π : Type} (call : OrchestratorCall) (p : π) :
    Prog (π × ScanStatement) Answer ScanError (Option QuarantineScanRecord) :=
  call.program.embed (fun st => (p, st)) (fun _ r => r) id

abbrev ScanRun (ι π : Type) :=
  World ι (Deployment π) Unit (π × ScanStatement) Answer ScanError (Option QuarantineScanRecord)

/-- The calls `ι` of the processes `π`, from whatever is stored; each may stop where it stands. -/
def scanCalls (ι π : Type) [DecidableEq ι] [DecidableEq π] : Machine (ScanRun ι π)
    (Event ι (π × ScanStatement) Answer ScanError (Option QuarantineScanRecord)) :=
  (sharing processExec).machine (fun p => ∃ call process, p = OrchestratorCall.onProcess call process)
    fun _ => True

/-! ## Saves -/

/-- What a call has read, or has last saved, when it saves a record in the state: nothing before
`scan_queued`, its own queued record before `scanning`, `scanning` before an outcome, and its own
record of the state before at each save of a promotion. -/
def readState : QuarantineScanState → Option QuarantineScanState
  | .scanQueued => none
  | .scanning => some .scanQueued
  | .promotionPending => some .accepted
  | .promoted => some .promotionPending
  | _ => some .scanning

/-- A save that the store takes finds the state that its call has read, or the state and the
outcome that it saves. -/
def Current {π : Type} (d : Deployment π) : π × ScanStatement → Prop
  | (_, .save record) => (ScanStore.save d.store record).1 = .ok () →
      ∀ old, d.store.get record.scanJobId = some old →
        some old.state = readState record.state ∨
          old.state = record.state ∧ old.outcome = record.outcome
  | _ => True

/-- The states that the calls save. -/
def Saved (state : QuarantineScanState) : Prop :=
  state = .scanQueued ∨ state = .scanning ∨ state ∈ transitions .scanning ∨
    state = .promotionPending ∨ state = .promoted

def OnlySaved : ScanStatement → Prop
  | .save record => Saved record.state
  | _ => True

theorem outcomeState_mem (outcome : ScanOutcome) :
    outcomeState outcome ∈ transitions .scanning := by
  cases outcome <;> decide

theorem queueUploaded_only (times : QueueTimes) (input : ScanJob) :
    (queueUploaded times input).Only OnlySaved := by
  rw [queueUploaded_eq]
  refine ⟨trivial, fun found => ?_⟩
  match found with
  | .error e => trivial
  | .ok (some existing) => trivial
  | .ok none =>
    refine ⟨Or.inl rfl, fun queued => ?_⟩
    cases queued with
    | error e => trivial
    | ok a =>
      refine ⟨trivial, fun submitted => ?_⟩
      cases submitted with
      | error e => trivial
      | ok a =>
        refine ⟨Or.inr (Or.inl rfl), fun saved => ?_⟩
        cases saved with
        | error e => trivial
        | ok a => trivial

theorem handleCallback_only (now : JsString) (callback : ScanCallback) :
    (handleCallback now callback).Only OnlySaved := by
  cases hauthentic : callback.authentic with
  | false =>
    rw [handleCallback, hauthentic]
    trivial
  | true =>
    rw [handleCallback_eq now callback hauthentic]
    refine ⟨trivial, fun found => ?_⟩
    obtain e | _ | record := found
    · trivial
    · trivial
    · rw [callbackFound]
      split
      · trivial
      · refine ⟨trivial, fun processed : Bool => ?_⟩
        rw [callbackChecked]
        split
        · trivial
        split
        · exact ⟨trivial, fun _ => trivial⟩
        split
        · trivial
        · refine ⟨trivial, fun _ => ⟨Or.inr (Or.inr (Or.inl (outcomeState_mem _))),
            fun saved => ?_⟩⟩
          cases saved with
          | error e => trivial
          | ok a => trivial

theorem advanceFakePromotion_only (attempt : UploadAttempt Unit) (record : QuarantineScanRecord) :
    (advanceFakePromotion attempt record).Only OnlySaved := by
  rw [advanceFakePromotion]
  split
  · trivial
  · refine ⟨Or.inr (Or.inr (Or.inr (Or.inl rfl))), fun pending => ?_⟩
    cases pending with
    | error e => trivial
    | ok a => exact ⟨Or.inr (Or.inr (Or.inr (Or.inr rfl))), fun _ => Prog.only_ofExcept _⟩

theorem queueScanAfterIngest_only (server : UploadServer Unit) (attempt : UploadAttempt Unit)
    (workspaceId uploadId storageKey : JsString) :
    (queueScanAfterIngest server attempt workspaceId uploadId storageKey).Only OnlySaved := by
  refine (queueUploaded_only attempt.queueTimes _).bind fun _ => ?_
  split
  · trivial
  · exact (handleCallback_only attempt.callbackAt _).bind (advanceFakePromotion_only attempt)

theorem program_only (call : OrchestratorCall) : call.program.Only OnlySaved := by
  cases call with
  | queueUploaded times input => exact (queueUploaded_only times input).bind fun _ => trivial
  | handleCallback now callback => exact (handleCallback_only now callback).bind fun _ => trivial
  | queueScanAfterIngest server attempt workspaceId uploadId storageKey =>
    exact (queueScanAfterIngest_only server attempt workspaceId uploadId storageKey).bind
      fun _ => trivial
  | get workspaceId scanJobId => exact ⟨trivial, Prog.only_ofExcept⟩

/-! ## Stored states -/

/-- The stored state of every job stays as it is, with its outcome, or moves along a transition. -/
def Moves (store store' : ScanStore) : Prop :=
  ∀ scanJobId old, store.get scanJobId = some old → ∃ new, store'.get scanJobId = some new ∧
    (new.state = old.state ∧ new.outcome = old.outcome ∨
      canTransitionQuarantine old.state new.state = true)

/-- What is rejected or promoted stays so, with its outcome. -/
def EndsStay (store store' : ScanStore) : Prop :=
  ∀ scanJobId old, store.get scanJobId = some old → old.state = .rejected ∨ old.state = .promoted →
    ∃ new, store'.get scanJobId = some new ∧ new.state = old.state ∧ new.outcome = old.outcome

theorem Moves.refl (store : ScanStore) : Moves store store :=
  fun _ old hold => ⟨old, hold, Or.inl ⟨rfl, rfl⟩⟩

theorem EndsStay.refl (store : ScanStore) : EndsStay store store :=
  fun _ old hold _ => ⟨old, hold, rfl, rfl⟩

theorem EndsStay.trans {store store' store'' : ScanStore} (h : EndsStay store store')
    (h' : EndsStay store' store'') : EndsStay store store'' := by
  intro scanJobId old hold hended
  obtain ⟨new, hnew, hstate, houtcome⟩ := h scanJobId old hold hended
  obtain ⟨last, hlast, hstate', houtcome'⟩ := h' scanJobId new hnew (hstate ▸ hended)
  exact ⟨last, hlast, hstate'.trans hstate, houtcome'.trans houtcome⟩

/-- No transition leaves a rejected or a promoted record. -/
theorem Moves.endsStay {store store' : ScanStore} (h : Moves store store') :
    EndsStay store store' := by
  intro scanJobId old hold hended
  obtain ⟨new, hnew, hsame | hmoved⟩ := h scanJobId old hold
  · exact ⟨new, hnew, hsame⟩
  · obtain hrejected | hpromoted := hended
    · rw [hrejected] at hmoved
      cases hmoved
    · rw [hpromoted] at hmoved
      cases hmoved

theorem canTransition_saved {old new : QuarantineScanState} (hnew : Saved new)
    (hread : some old = readState new) : canTransitionQuarantine old new = true := by
  obtain rfl | rfl | hmem | rfl | rfl := hnew
  · cases hread
  · cases hread
    rfl
  · have hscanning : readState new = some .scanning := by
      revert hmem
      cases new <;> decide
    rw [hscanning, Option.some.injEq] at hread
    rw [hread, canTransitionQuarantine, List.contains_iff_mem]
    exact hmem
  · cases hread
    rfl
  · cases hread
    rfl

variable {π : Type} [DecidableEq π]

theorem moves_save {store : ScanStore} {record : QuarantineScanRecord} (hsaved : Saved record.state)
    (hcurrent : (ScanStore.save store record).1 = .ok () →
      ∀ old, store.get record.scanJobId = some old →
        some old.state = readState record.state ∨
          old.state = record.state ∧ old.outcome = record.outcome) :
    Moves store (ScanStore.save store record).2 := by
  cases hanswer : (ScanStore.save store record).1 with
  | error e =>
    rw [save_of_refused hanswer]
    exact .refl store
  | ok a =>
    rw [save_of_accepted hanswer]
    intro scanJobId old hold
    by_cases hjob : scanJobId = record.scanJobId
    · subst hjob
      refine ⟨record, KeyedMap.get_set_self store record, ?_⟩
      obtain hread | ⟨hstate, houtcome⟩ := hcurrent hanswer old hold
      · exact Or.inr (canTransition_saved hsaved hread)
      · exact Or.inl ⟨hstate.symm, houtcome.symm⟩
    · have hother := KeyedMap.get_set_of_ne store (Ne.symm hjob : record.scanJobId ≠ scanJobId)
      exact ⟨old, hother.trans hold, Or.inl ⟨rfl, rfl⟩⟩

/-- One statement of a call moves the stored states along transitions. -/
theorem moves_processExec {d d' : Deployment π} {st : π × ScanStatement} {r : Answer st}
    (hsaved : OnlySaved st.2) (hcurrent : Current d st) (h : processExec d st r d') :
    Moves d.store d'.store := by
  obtain ⟨p, statement⟩ := st
  cases h
  cases statement with
  | save record => exact moves_save hsaved hcurrent
  | getByScanJobId workspaceId scanJobId => exact .refl _
  | submit job => exact .refl _
  | hasProcessed key => exact .refl _
  | addProcessed key => exact .refl _

def scanGrowth (π : Type) : Growth (Deployment π) :=
  ⟨fun _ => True, fun d d' => Moves d.store d'.store⟩

theorem outline_call (call : OrchestratorCall) (p : π) :
    (scanGrowth π).Outline (fun d st r d' => Current d st ∧ processExec d st r d') (fun _ => True)
      (call.onProcess p) fun _ _ => True := by
  have honly : (call.onProcess p).Only fun st : π × ScanStatement => OnlySaved st.2 := by
    refine Prog.Only.embed ?_ (program_only call)
    exact fun _ h => h
  refine Growth.Outline.of_only honly ?_
  rintro st hsaved d r d' - ⟨hcurrent, hexec⟩
  exact ⟨trivial, moves_processExec hsaved hcurrent hexec⟩

/-- In every run in which every save finds what its call has read: each step leaves the stored
states as they are or moves them along transitions, and a rejected or promoted record keeps its
state and its outcome. -/
theorem stored_scans_move {ι : Type} [DecidableEq ι] {w : ScanRun ι π}
    (h : (scanCalls ι π).Reaches (OnStatements Current) w) :
    (∀ e w', OnStatements Current w e → (scanCalls ι π).step w e w' →
      Moves w.shared.store w'.shared.store) ∧
    ∀ w', (scanCalls ι π).Leads (OnStatements Current) w w' →
      EndsStay w.shared.store w'.shared.store := by
  have hpost : ∀ a : Option QuarantineScanRecord, (scanGrowth π).Upward fun _ => True :=
    fun _ => Growth.upward_const True
  have hprograms : ∀ p, (∃ call process, p = OrchestratorCall.onProcess call process) →
      (scanGrowth π).Outline (fun d st r d' => Current d st ∧ processExec d st r d')
        (fun _ => True) p fun _ _ => True := by
    rintro p ⟨call, process, rfl⟩
    exact outline_call call process
  constructor
  · intro e w' hguard hstep
    obtain ⟨-, hsame | hmoves⟩ :=
      (outlined hpost hprograms (fun _ _ => trivial) h).step hpost hprograms hguard hstep
    · rw [hsame]
      exact .refl _
    · exact hmoves
  · intro w' hleads
    exact related_of_leads hpost hprograms (fun _ _ => trivial)
      (fun d d' => EndsStay d.store d'.store) (fun d => .refl d.store)
      (fun _ _ _ h h' => h.trans h') (fun _ _ h => h.endsStay) h hleads

section Sample

/-- The verdict on the sample job. -/
def verdict (outcome : ScanOutcome) : ScanCallback := { sampleCallback with outcome }

/-- A queued job and two verdicts on it. -/
def verdictCalls : Fin 3 → OrchestratorCall
  | 0 => .queueUploaded sampleTimes sampleJob
  | 1 => .handleCallback (js "4") (verdict .malicious)
  | 2 => .handleCallback (js "5") (verdict .clean)

abbrev verdictProgram (i : Fin 3) :
    Prog (Unit × ScanStatement) Answer ScanError (Option QuarantineScanRecord) :=
  (verdictCalls i).onProcess ()

def nothingStored : Deployment Unit := ⟨.empty, [], fun _ => []⟩

/-- The job is queued and at the scanner. -/
def scanned : Deployment Unit := ((verdictProgram 0).after perform 4 nothingStored).2

/-- The clean verdict is read against the record, and not saved. -/
def cleanRead :=
  (verdictProgram 2).after perform 3 scanned

/-- The malicious verdict is read and saved. -/
def rejected := (verdictProgram 1).after perform 4 cleanRead.2

theorem exec_perform {π : Type} [DecidableEq π] (st : π × ScanStatement) (d : Deployment π) :
    processExec d st (perform st d).1 (perform st d).2 := rfl

theorem verdict_allowed (i : Fin 3) :
    ∃ call process, verdictProgram i = OrchestratorCall.onProcess call process :=
  ⟨verdictCalls i, (), rfl⟩

theorem queue_meets : (verdictProgram 0).Meets perform Current 4 nothingStored := by
  refine ⟨trivial, fun _ old hold => ?_, trivial, fun _ old hold => ?_, trivial⟩
  · cases hold
  · cases hold
    exact Or.inl rfl

/-- An upload that the fake scanner accepts, through to its promotion. -/
def promotedUpload : OrchestratorCall :=
  .queueScanAfterIngest ⟨(), js "fake", true⟩
    ⟨⟨0, Columns.epoch_bound⟩, .error ⟨none, []⟩, js "scan", sampleTimes, js "4", js "5", js "6", js "7"⟩
    (js "w") (js "upload") (js "workspaces/w/temporary/upload")

abbrev promotionProgram :
    Prog (Unit × ScanStatement) Answer ScanError (Option QuarantineScanRecord) :=
  promotedUpload.onProcess ()

theorem promotion_meets : promotionProgram.Meets perform Current 10 nothingStored := by
  refine ⟨trivial, fun _ old hold => ?_, trivial, fun _ old hold => ?_, trivial, trivial, trivial,
    fun _ old hold => ?_, fun _ old hold => ?_, fun _ old hold => ?_, trivial⟩
  all_goals cases hold
  all_goals exact Or.inl rfl

/-- One verdict alone, and one upload alone: the rejected and the promoted job stay so. -/
theorem stored_scans_move_ended :
    (∃ w : ScanRun (Fin 3) Unit, (scanCalls (Fin 3) Unit).Reaches (OnStatements Current) w ∧
      (w.shared.store.get (js "scan")).map (fun r => (r.state, r.outcome)) =
        some (.rejected, some .malicious) ∧
      ∀ w', (scanCalls (Fin 3) Unit).Leads (OnStatements Current) w w' →
        (w'.shared.store.get (js "scan")).map (fun r => (r.state, r.outcome)) =
          some (.rejected, some .malicious)) ∧
    ∃ w : ScanRun (Fin 3) Unit, (scanCalls (Fin 3) Unit).Reaches (OnStatements Current) w ∧
      (w.shared.store.get (js "scan")).map (fun r => (r.state, r.outcome)) =
        some (.promoted, some .clean) ∧
      ∀ w', (scanCalls (Fin 3) Unit).Leads (OnStatements Current) w w' →
        (w'.shared.store.get (js "scan")).map (fun r => (r.state, r.outcome)) =
          some (.promoted, some .clean) := by
  have hinit : (scanCalls (Fin 3) Unit).Reaches (OnStatements Current)
      ⟨nothingStored, fun _ => .idle⟩ := .init ⟨trivial, fun _ => rfl⟩
  constructor
  · have hverdict : (verdictProgram 1).Meets perform Current 4 scanned := by
      refine ⟨trivial, trivial, trivial, fun _ old hold => ?_, trivial⟩
      cases hold
      exact Or.inl rfl
    have hscanned := reaches_after exec_perform queue_meets
      (reaches_begin (i := 0) (verdict_allowed 0) rfl hinit)
    have hrejected := reaches_after exec_perform hverdict
      (reaches_begin (i := 1) (verdict_allowed 1) (by simp) hscanned)
    refine ⟨_, hrejected, rfl, fun w' hleads => ?_⟩
    obtain ⟨new, hnew, hstate, houtcome⟩ := (stored_scans_move hrejected).2 w' hleads (js "scan") _
      rfl (Or.inl rfl)
    rw [hnew, Option.map_some, hstate, houtcome]
    rfl
  · have hpromoted := reaches_after exec_perform promotion_meets
      (reaches_begin (i := (0 : Fin 3)) ⟨promotedUpload, (), rfl⟩ rfl hinit)
    refine ⟨_, hpromoted, rfl, fun w' hleads => ?_⟩
    obtain ⟨new, hnew, hstate, houtcome⟩ := (stored_scans_move hpromoted).2 w' hleads (js "scan") _
      rfl (Or.inr rfl)
    rw [hnew, Option.map_some, hstate, houtcome]
    rfl

/-- Two verdicts read the record before one of them is saved: the later save accepts what is
rejected. -/
theorem rejected_then_accepted : ∃ w e w', (scanCalls (Fin 3) Unit).Reachable w ∧
    (scanCalls (Fin 3) Unit).step w e w' ∧
    (w.shared.store.get (js "scan")).map (fun r => (r.state, r.outcome)) =
      some (.rejected, some .malicious) ∧
    (w'.shared.store.get (js "scan")).map (fun r => (r.state, r.outcome)) =
      some (.accepted, some .clean) := by
  have hinit : (scanCalls (Fin 3) Unit).Reaches (OnStatements fun _ _ => True)
      ⟨nothingStored, fun _ => .idle⟩ := .init ⟨trivial, fun _ => rfl⟩
  have hscanned := reaches_after exec_perform (Prog.meets_true 4 _ _)
    (reaches_begin (i := 0) (verdict_allowed 0) rfl hinit)
  have hread := reaches_after exec_perform (Prog.meets_true 3 _ _)
    (reaches_begin (i := 2) (verdict_allowed 2) (by simp) hscanned)
  have hrejected := reaches_after exec_perform (Prog.meets_true 4 _ _)
    (reaches_begin (i := 1) (verdict_allowed 1) (by simp) hread)
  obtain ⟨st, k, hk⟩ : ∃ st k, cleanRead.1 = .stmt st k := ⟨_, _, rfl⟩
  have hsave : (cleanRead.1.after perform 1 rejected.2).2 = (perform st rejected.2).2 := by
    rw [hk]
    rfl
  refine ⟨_, .run 2, _, hrejected.mono fun _ _ _ => trivial,
    .run _ 2 () () st k _ _ ?_ (exec_perform st rejected.2) fun _ _ _ _ _ => trivial, rfl, ?_⟩
  · rw [← hk]
    simp
    rfl
  · rw [← hsave]
    rfl

end Sample

end TrustCore.QuarantineScan
