import Mathlib.Logic.Function.Basic
import TrustCore.Columns
import TrustCore.Runs

/-!
# The outbox and its workers

`PostgresOutboxStore` hands the rows of `outbox_events` to workers under a lease, and
`ReconciliationWorker.runOnce` handles what it has claimed and reports on every event.
A worker is its clock and the calls of `runOnce` that are under way; statements of
different workers interleave in any order, and a worker may crash at any moment.
-/

namespace TrustCore.Outbox

open TrustCore.Utf TrustCore.Json TrustCore.Columns TrustCore.Runs

/-- A row of `outbox_events`; times are in milliseconds. -/
structure OutboxRow where
  id : JsString
  workspaceId : JsString
  operationId : JsString
  eventType : JsString
  payload : JsValue
  availableAt : Int
  attemptCount : Nat
  processedAt : Option Int
  lastError : Option JsString
  lockedBy : Option JsString
  lockedUntil : Option Int
  quarantinedAt : Option Int
  quarantineReason : Option JsString

/-- A row of `reconciliation_incidents`; the last three fields are its metadata. -/
structure Incident where
  workspaceId : JsString
  operationId : JsString
  severity : JsString
  code : JsString
  message : JsString
  eventId : JsString
  eventType : JsString
  attemptCount : Nat

structure OutboxEvent where
  id : JsString
  workspaceId : JsString
  operationId : JsString
  eventType : JsString
  payload : JsValue
  availableAt : Int
  attemptCount : Nat

structure Store where
  rows : List OutboxRow
  incidents : List Incident

/-- An event as the transaction that emits it inserts it. -/
def insertRow (e : OutboxEvent) : OutboxRow where
  id := e.id
  workspaceId := e.workspaceId
  operationId := e.operationId
  eventType := e.eventType
  payload := e.payload
  availableAt := e.availableAt
  attemptCount := 0
  processedAt := none
  lastError := none
  lockedBy := none
  lockedUntil := none
  quarantinedAt := none
  quarantineReason := none

def mapEvent (r : OutboxRow) : OutboxEvent :=
  ⟨r.id, r.workspaceId, r.operationId, r.eventType, r.payload, r.availableAt, r.attemptCount⟩

structure ClaimInput where
  workerId : JsString
  workspaceId : Option JsString
  limit : Nat
  leaseUntil : Int
  now : Int

structure RetryInput where
  attemptCount : Nat
  availableAt : Int
  failedAt : Int
  error : JsString

structure QuarantineInput where
  attemptCount : Nat
  quarantinedAt : Int
  reason : JsString

/-- The condition of the candidates of a claim. -/
def claimable (input : ClaimInput) (r : OutboxRow) : Bool :=
  ((input.workspaceId.getD []).isEmpty || input.workspaceId == some r.workspaceId) &&
    r.processedAt.isNone && r.quarantinedAt.isNone && decide (r.availableAt ≤ input.now) &&
    match r.lockedUntil with
    | none => true
    | some lockedUntil => decide (lockedUntil < input.now)

/-- `ORDER BY available_at,id`. -/
def claimOrder (r r' : OutboxRow) : Bool :=
  decide (r.availableAt < r'.availableAt) ||
    (r.availableAt == r'.availableAt && unitsLe r.id r'.id)

/-- The rows that a claim takes; `skipped` are rows that other transactions have locked. -/
def candidates (input : ClaimInput) (skipped : List JsString) (rows : List OutboxRow) :
    List OutboxRow :=
  ((rows.filter fun r => claimable input r && !skipped.contains r.id).mergeSort claimOrder).take
    input.limit

/-- The row as a claim leaves it. -/
def OutboxRow.lease (input : ClaimInput) (r : OutboxRow) : OutboxRow :=
  { r with lockedBy := some input.workerId, lockedUntil := some input.leaseUntil }

def claim (input : ClaimInput) (skipped : List JsString) (store : Store) :
    Store × List OutboxEvent :=
  let taken := candidates input skipped store.rows
  ({ store with
      rows := store.rows.map fun r => if taken.any (·.id == r.id) then r.lease input else r },
    taken.map mapEvent)

/-- What a consumer reports on its event. -/
inductive Report where
  | complete (processedAt : Int)
  | retry (input : RetryInput)
  | quarantine (input : QuarantineInput)

/-- The time that the report is checked against the lease with. -/
def Report.reading : Report → Int
  | .complete processedAt => processedAt
  | .retry input => input.failedAt
  | .quarantine input => input.quarantinedAt

/-- The condition of `complete`, `retry` and `quarantine`. -/
def leased (workerId eventId : JsString) (reading : Int) (r : OutboxRow) : Bool :=
  r.id == eventId && r.lockedBy == some workerId && r.processedAt.isNone &&
    match r.lockedUntil with
    | none => false
    | some lockedUntil => decide (reading ≤ lockedUntil)

/-- The row as a report leaves it. -/
def Report.set : Report → OutboxRow → OutboxRow
  | .complete processedAt, r =>
    { r with processedAt := some processedAt, lockedBy := none, lockedUntil := none, lastError := none }
  | .retry input, r =>
    { r with
      attemptCount := input.attemptCount
      availableAt := input.availableAt
      lastError := some input.error
      lockedBy := none
      lockedUntil := none }
  | .quarantine input, r =>
    { r with
      attemptCount := input.attemptCount
      quarantinedAt := some input.quarantinedAt
      quarantineReason := some input.reason
      lastError := some input.reason
      lockedBy := none
      lockedUntil := none }

def incident (event : OutboxEvent) (input : QuarantineInput) (r : OutboxRow) : Incident where
  workspaceId := event.workspaceId
  operationId := r.operationId
  severity := js "critical"
  code := js "OUTBOX_EVENT_QUARANTINED"
  message := input.reason
  eventId := event.id
  eventType := r.eventType
  attemptCount := input.attemptCount

/-- The incidents that a report records for the row of its event. -/
def Report.incidents (event : OutboxEvent) (r : OutboxRow) : Report → List Incident
  | .quarantine input => [incident event input r]
  | _ => []

/-- The transaction of a report; `none` where it throws that the lease was lost. -/
def execute (workerId : JsString) (event : OutboxEvent) (report : Report) (store : Store) :
    Option Store :=
  let held := leased workerId event.id report.reading
  let rows := store.rows.map fun r => if held r then report.set r else r
  match store.rows.filter held, report with
  | [], _ => none
  | r :: _, .quarantine input =>
    some { rows, incidents := store.incidents ++ [incident event input r] }
  | _ :: others, _ => if others.isEmpty then some { store with rows } else none

structure WorkerConfig where
  workerId : JsString
  workspaceId : Option JsString
  maxAttempts : Option Nat
  baseDelayMs : Option Nat
  leaseMs : Option Nat
  batchSize : Option Nat
  concurrency : Option Nat

/-- The time of `new Date(t).toISOString()`, which throws out of the range of dates. -/
def isoTime (t : Int) : Option Int :=
  if -8640000000000000 ≤ t ∧ t ≤ 8640000000000000 then some t else none

inductive Consumer where
  | ready
  | handling (event : OutboxEvent)
  | reporting (event : OutboxEvent) (report : Report)
  | ended

/-- A call of `runOnce` after its claim: the events from the cursor on, and its consumers. -/
structure Run (ω : Type) where
  worker : ω
  events : List OutboxEvent
  consumers : List Consumer

/-- The `catch` of a consumer: what it reports after an error. -/
def onError (config : WorkerConfig) (event : OutboxEvent) (message : JsString)
    (failedAt later : Int) : Consumer :=
  let attempt := event.attemptCount + 1
  if config.maxAttempts.getD 5 ≤ attempt then
    .reporting event (.quarantine ⟨attempt, failedAt, message⟩)
  else
    match isoTime (later + (config.baseDelayMs.getD 1000 * 2 ^ (attempt - 1) : Nat)) with
    | none => .ended
    | some availableAt => .reporting event (.retry ⟨attempt, availableAt, failedAt, message⟩)

/-- A consumer after its report has been answered or has failed with an error. -/
def afterReport (config : WorkerConfig) (event : OutboxEvent) (report : Report)
    (error : Option JsString) (failedAt later : Int) : Consumer :=
  match error, report with
  | none, _ => .ready
  | some message, .complete _ => onError config event message failedAt later
  | some _, _ => .ended

/-- How a transaction ends for the process that sent it: with its answer, with an error and
no effect, or with an error after it was committed. -/
inductive Delivery where
  | answered
  | refused (message : JsString)
  | lost (message : JsString)

/-- The store after a report, and the error that its consumer sees. -/
def deliver (store : Store) (result : Option Store) : Delivery → Store × Option JsString
  | .answered =>
    match result with
    | some store' => (store', none)
    | none => (store, some (js "Outbox lease was lost or event was already handled."))
  | .refused message => (store, some message)
  | .lost message => (result.getD store, some message)

/-- `readings` are the times that each worker has read off its clock, and `starts` the
events whose handlers have been started. -/
structure System (ω : Type) where
  store : Store
  readings : ω → List Int
  polls : List (ω × ClaimInput)
  runs : List (Run ω)
  starts : List JsString

def System.initial (ω : Type) : System ω := ⟨⟨[], []⟩, fun _ => [], [], [], []⟩

inductive Action (ω : Type) where
  | emit (event : OutboxEvent)
  | poll (w : ω) (timestamp : Int)
  | claim (w : ω) (input : ClaimInput) (skipped : List JsString) (delivery : Delivery)
  | take (w : ω) (event : OutboxEvent)
  | succeed (w : ω) (event : OutboxEvent) (processedAt : Int)
  | fail (w : ω) (event : OutboxEvent) (message : JsString) (failedAt later : Int)
  | report (w : ω) (event : OutboxEvent) (report : Report) (delivery : Delivery)
    (failedAt later : Int)
  | crash (w : ω)

section Workers

variable {ω : Type} [DecidableEq ω]

/-- The clock of a worker read once more; it never goes backwards. -/
def System.read (s : System ω) (w : ω) (t : Int) : System ω :=
  { s with readings := Function.update s.readings w (t :: s.readings w) }

def System.Current (s : System ω) (w : ω) (t : Int) : Prop := ∀ t' ∈ s.readings w, t' ≤ t

def WorkerConfig.claimInput (config : WorkerConfig) (timestamp leaseUntil : Int) : ClaimInput :=
  ⟨config.workerId, config.workspaceId, config.batchSize.getD 25, leaseUntil, timestamp⟩

/-- The consumers that `runOnce` starts on what it has claimed. -/
def WorkerConfig.consumers (config : WorkerConfig) (events : List OutboxEvent) : List Consumer :=
  List.replicate (min (max 1 (config.concurrency.getD 1)) events.length) .ready

/-- The system after the claim of one poll. -/
def System.claimed (s : System ω) (config : WorkerConfig) (w : ω) (input : ClaimInput)
    (skipped : List JsString) (polls : List (ω × ClaimInput)) : Delivery → System ω
  | .answered =>
    let events := (claim input skipped s.store).2
    { s with
      store := (claim input skipped s.store).1
      polls
      runs := ⟨w, events, config.consumers events⟩ :: s.runs }
  | .refused _ => { s with polls }
  | .lost _ => { s with store := (claim input skipped s.store).1, polls }

/-- One step of a worker, or a transaction that emits an event. Only a worker that has the
handler of an event type starts it. -/
inductive Step (config : ω → WorkerConfig) (handlers : JsString → Bool) :
    System ω → Action ω → System ω → Prop
  | emit {s : System ω} {event : OutboxEvent} (hfresh : ∀ r ∈ s.store.rows, r.id ≠ event.id) :
    Step config handlers s (.emit event)
      { s with store := { s.store with rows := s.store.rows ++ [insertRow event] } }
  | poll {s : System ω} {w : ω} {timestamp leaseUntil : Int} (hclock : s.Current w timestamp)
      (hlease : isoTime (timestamp + ((config w).leaseMs.getD 30000 : Nat)) = some leaseUntil) :
    Step config handlers s (.poll w timestamp)
      { s.read w timestamp with polls := (w, (config w).claimInput timestamp leaseUntil) :: s.polls }
  | claim {s : System ω} {w : ω} {input : ClaimInput} {skipped : List JsString}
      {delivery : Delivery} {before after : List (ω × ClaimInput)}
      (hpolls : s.polls = before ++ (w, input) :: after) :
    Step config handlers s (.claim w input skipped delivery)
      (s.claimed (config w) w input skipped (before ++ after) delivery)
  | take {s : System ω} {w : ω} {event : OutboxEvent} {events : List OutboxEvent}
      {before after : List (Run ω)} {left right : List Consumer}
      (hruns : s.runs = before ++ ⟨w, event :: events, left ++ .ready :: right⟩ :: after) :
    Step config handlers s (.take w event)
      { s with
        runs := before ++ ⟨w, events, left ++ .handling event :: right⟩ :: after
        starts := if handlers event.eventType then event.id :: s.starts else s.starts }
  | succeed {s : System ω} {w : ω} {event : OutboxEvent} {events : List OutboxEvent}
      {before after : List (Run ω)} {left right : List Consumer} {processedAt : Int}
      (hruns : s.runs = before ++ ⟨w, events, left ++ .handling event :: right⟩ :: after)
      (hhandler : handlers event.eventType = true) (hclock : s.Current w processedAt) :
    Step config handlers s (.succeed w event processedAt)
      { s.read w processedAt with
        runs := before ++
          ⟨w, events, left ++ .reporting event (.complete processedAt) :: right⟩ :: after }
  | fail {s : System ω} {w : ω} {event : OutboxEvent} {events : List OutboxEvent}
      {before after : List (Run ω)} {left right : List Consumer} {message : JsString}
      {failedAt later : Int}
      (hruns : s.runs = before ++ ⟨w, events, left ++ .handling event :: right⟩ :: after)
      (hhandler : handlers event.eventType = false →
        message = js "No reconciliation handler for " ++ event.eventType)
      (hclock : s.Current w failedAt) (hlater : failedAt ≤ later) :
    Step config handlers s (.fail w event message failedAt later)
      { (s.read w failedAt).read w later with
        runs := before ++
          ⟨w, events, left ++ onError (config w) event message failedAt later :: right⟩ :: after }
  | report {s : System ω} {w : ω} {event : OutboxEvent} {events : List OutboxEvent}
      {before after : List (Run ω)} {left right : List Consumer} {report : Report}
      {delivery : Delivery} {failedAt later : Int}
      (hruns : s.runs =
        before ++ ⟨w, events, left ++ .reporting event report :: right⟩ :: after)
      (hclock : s.Current w failedAt) (hlater : failedAt ≤ later) :
    Step config handlers s (.report w event report delivery failedAt later)
      { (s.read w failedAt).read w later with
        store := (deliver s.store (execute (config w).workerId event report s.store) delivery).1
        runs := before ++ ⟨w, events, left ++ afterReport (config w) event report
          (deliver s.store (execute (config w).workerId event report s.store) delivery).2
          failedAt later :: right⟩ :: after }
  | crash {s : System ω} {w : ω} :
    Step config handlers s (.crash w)
      { s with
        polls := s.polls.filter fun p => p.1 ≠ w
        runs := s.runs.filter fun r => r.worker ≠ w }

/-- Any number of workers on one outbox that starts empty. -/
def outbox (config : ω → WorkerConfig) (handlers : JsString → Bool) :
    Machine (System ω) (Action ω) where
  init := fun s => s = System.initial ω
  step := Step config handlers

end Workers

section Statements

variable {input : ClaimInput} {skipped : List JsString} {store store' : Store}
  {workerId : JsString} {event : OutboxEvent} {report : Report} {r : OutboxRow}

@[simp] theorem lease_id : (r.lease input).id = r.id := rfl
@[simp] theorem set_id : (report.set r).id = r.id := by cases report <;> rfl

theorem mem_candidates {rows : List OutboxRow} (h : r ∈ candidates input skipped rows) :
    r ∈ rows ∧ claimable input r = true := by
  have hmem := (List.mem_filter.mp (List.mem_mergeSort.mp (List.mem_of_mem_take h)))
  rw [Bool.and_eq_true] at hmem
  exact ⟨hmem.1, hmem.2.1⟩

theorem claimable_cases (h : claimable input r = true) :
    r.processedAt = none ∧ r.quarantinedAt = none ∧ r.availableAt ≤ input.now ∧
      ∀ lockedUntil, r.lockedUntil = some lockedUntil → lockedUntil < input.now := by
  simp only [claimable, Bool.and_eq_true, Option.isNone_iff_eq_none, decide_eq_true_eq] at h
  obtain ⟨⟨⟨⟨-, hprocessed⟩, hquarantined⟩, havailable⟩, hlocked⟩ := h
  refine ⟨hprocessed, hquarantined, havailable, ?_⟩
  intro lockedUntil hu
  rw [hu] at hlocked
  exact of_decide_eq_true hlocked

theorem leased_cases {eventId : JsString} {reading : Int}
    (h : leased workerId eventId reading r = true) :
    r.id = eventId ∧ r.lockedBy = some workerId ∧ r.processedAt = none ∧
      ∃ lockedUntil, r.lockedUntil = some lockedUntil ∧ reading ≤ lockedUntil := by
  simp only [leased, Bool.and_eq_true, beq_iff_eq, Option.isNone_iff_eq_none] at h
  obtain ⟨⟨⟨hid, hby⟩, hprocessed⟩, hlocked⟩ := h
  cases hu : r.lockedUntil with
  | none =>
    rw [hu] at hlocked
    cases hlocked
  | some lockedUntil =>
    rw [hu] at hlocked
    exact ⟨hid, hby, hprocessed, lockedUntil, rfl, of_decide_eq_true hlocked⟩

/-- What a report that goes through does. -/
theorem execute_cases (h : execute workerId event report store = some store') :
    ∃ r ∈ store.rows, leased workerId event.id report.reading r = true ∧
      store'.rows = store.rows.map (fun r =>
        if leased workerId event.id report.reading r then report.set r else r) ∧
      store'.incidents = store.incidents ++ report.incidents event r := by
  cases hfilter : store.rows.filter (leased workerId event.id report.reading) with
  | nil => simp [execute, hfilter] at h
  | cons r others =>
    obtain ⟨hmem, hleased⟩ := List.mem_filter.mp (hfilter ▸ List.mem_cons_self (a := r))
    refine ⟨r, hmem, hleased, ?_⟩
    cases report with
    | quarantine input =>
      simp only [execute, hfilter, Option.some.injEq] at h
      subst h
      exact ⟨rfl, rfl⟩
    | complete processedAt =>
      simp only [execute, hfilter] at h
      split at h
      · cases h
        exact ⟨rfl, (List.append_nil _).symm⟩
      · cases h
    | retry input =>
      simp only [execute, hfilter] at h
      split at h
      · cases h
        exact ⟨rfl, (List.append_nil _).symm⟩
      · cases h

/-- A delivery leaves the store as it was or as the transaction made it. -/
theorem deliver_cases (store : Store) (result : Option Store) (delivery : Delivery) :
    (deliver store result delivery).1 = store ∨
      result = some (deliver store result delivery).1 := by
  cases delivery with
  | answered =>
    cases result with
    | none => exact .inl rfl
    | some store' => exact .inr rfl
  | refused message => exact .inl rfl
  | lost message =>
    cases result with
    | none => exact .inl rfl
    | some store' => exact .inr rfl

end Statements

end TrustCore.Outbox
