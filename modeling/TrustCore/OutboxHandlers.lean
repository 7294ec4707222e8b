import TrustCore.ImportPlan
import TrustCore.OutboxAttempts

/-!
# Handlers of outbox events

`ReconciliationWorker.runOnce` looks the handler of an event up in a plain object, which also has
what every object inherits. `constructor` and `toString` are functions that return for any event, so
an event of that type is marked processed although no handler is registered for it.
-/

namespace TrustCore.Outbox

open TrustCore.Utf TrustCore.Runs TrustCore.Json

/-- What an event and its row have in common for good. -/
structure Fixed where
  id : JsString
  workspaceId : JsString
  operationId : JsString
  eventType : JsString
  payload : JsValue

def OutboxRow.fixed (r : OutboxRow) : Fixed :=
  ⟨r.id, r.workspaceId, r.operationId, r.eventType, r.payload⟩

def OutboxEvent.fixed (e : OutboxEvent) : Fixed :=
  ⟨e.id, e.workspaceId, e.operationId, e.eventType, e.payload⟩

@[simp] theorem lease_fixed {input : ClaimInput} {r : OutboxRow} : (r.lease input).fixed = r.fixed := rfl
@[simp] theorem set_fixed {report : Report} {r : OutboxRow} : (report.set r).fixed = r.fixed := by
  cases report <;> rfl
@[simp] theorem insertRow_fixed {e : OutboxEvent} : (insertRow e).fixed = e.fixed := rfl
@[simp] theorem mapEvent_fixed {r : OutboxRow} : (mapEvent r).fixed = r.fixed := rfl

/-! ## The handler table -/

/-- The names under which every object has something. -/
def inheritedNames : List JsString := ImportPlan.objectMethods ++ [js "__proto__"]

/-- Called with an event and without an object, these return; the others throw a `TypeError`. -/
def returningMethods : List JsString := [js "constructor", js "toString"]

/-- `this.handlers[eventType]` is not `undefined`. -/
def finds (registered : JsString → Bool) (eventType : JsString) : Bool :=
  registered eventType || inheritedNames.contains eventType

/-- What `this.handlers[eventType]` is may return normally. -/
def mayReturn (registered : JsString → Bool) (eventType : JsString) : Bool :=
  registered eventType || returningMethods.contains eventType

/-- `returned` are the calls of what a worker found for an event that have returned normally. -/
structure Traced (ω : Type) where
  system : System ω
  returned : List (ω × OutboxEvent)

section Traced

variable {ω : Type}

/-- The own entries of the table of the worker that acts. -/
def Action.table (registered : ω → JsString → Bool) : Action ω → JsString → Bool
  | .take w _ => registered w
  | .succeed w _ _ => registered w
  | .fail w _ _ _ _ => registered w
  | _ => fun _ => false

def Action.returned : Action ω → List (ω × OutboxEvent)
  | .succeed w event _ => [(w, event)]
  | _ => []

/-- A step of the workers, each with its own table. -/
inductive TracedStep [DecidableEq ω] (config : ω → WorkerConfig) (registered : ω → JsString → Bool) :
    Traced ω → Action ω → Traced ω → Prop
  | step {s : Traced ω} {a : Action ω} {system : System ω}
      (h : Step config (finds (a.table registered)) s.system a system)
      (hreturns : ∀ call ∈ a.returned, mayReturn (registered call.1) call.2.eventType = true) :
    TracedStep config registered s a ⟨system, s.returned ++ a.returned⟩

def tracedOutbox [DecidableEq ω] (config : ω → WorkerConfig) (registered : ω → JsString → Bool) :
    Machine (Traced ω) (Action ω) where
  init := fun s => s = ⟨System.initial ω, []⟩
  step := TracedStep config registered

/-- No worker takes an event of an inherited name that returns, unless it has a handler for it. -/
def TakesHandled (registered : ω → JsString → Bool) (_ : Traced ω) : Action ω → Prop
  | .take w event => registered w event.eventType = true ∨ event.eventType ∉ returningMethods
  | _ => True

/-- An event that the store has a row for. -/
def Store.Known (store : Store) (e : OutboxEvent) : Prop := ∃ r ∈ store.rows, r.fixed = e.fixed

/-- What a consumer is at. -/
def Attended (registered : ω → JsString → Bool) (s : Traced ω) (w : ω) : Consumer → Prop
  | .ready => True
  | .ended => True
  | .handling e => s.system.store.Known e ∧
      (registered w e.eventType = true ∨ e.eventType ∉ returningMethods)
  | .reporting e report => s.system.store.Known e ∧
      ∀ processedAt, report = .complete processedAt → (w, e) ∈ s.returned

/-- The invariant: a row is processed after a registered handler has returned for its event. -/
structure Handled (registered : ω → JsString → Bool) (s : Traced ω) : Prop where
  sound : s.system.store.Sound
  waiting : ∀ run ∈ s.system.runs, ∀ e ∈ run.events, s.system.store.Known e
  consumers : ∀ run ∈ s.system.runs, ∀ c ∈ run.consumers, Attended registered s run.worker c
  returned : ∀ call ∈ s.returned, registered call.1 call.2.eventType = true
  processed : ∀ r ∈ s.system.store.rows, r.processedAt ≠ none →
    ∃ call ∈ s.returned, call.2.fixed = r.fixed

/-! ## Steps -/

section Steps

variable {config : ω → WorkerConfig} {registered : ω → JsString → Bool} {s s' : Traced ω}

/-- Rows stay, with what they have for good. -/
theorem known_step [DecidableEq ω] {handlers : JsString → Bool} {t t' : System ω} {a : Action ω}
    (hsound : t.store.Sound) (h : Step config handlers t a t') {e : OutboxEvent}
    (he : t.store.Known e) : t'.store.Known e := by
  obtain ⟨r, hr, hfixed⟩ := he
  obtain hsame | ⟨event, -, hemit⟩ | ⟨w, input, skipped, -, hclaim⟩ |
    ⟨run, -, event, report, -, hexecute⟩ := store_cases h
  · rw [hsame]
    exact ⟨r, hr, hfixed⟩
  · rw [hemit]
    exact ⟨r, List.mem_append_left _ hr, hfixed⟩
  · obtain ⟨f, hrows, hf⟩ := claim_rows input skipped hsound.ids
    rw [hclaim]
    refine ⟨f r, hrows ▸ List.mem_map_of_mem hr, ?_⟩
    obtain hsame | ⟨-, hlease⟩ := hf r hr
    · rw [hsame, hfixed]
    · rw [hlease, lease_fixed, hfixed]
  · obtain ⟨-, -, -, hrows, -⟩ := execute_cases hexecute
    refine ⟨_, hrows ▸ List.mem_map_of_mem hr, ?_⟩
    split
    · rw [set_fixed, hfixed]
    · exact hfixed

/-- What a consumer is at is not undone. -/
theorem Attended.mono {w : ω} {c : Consumer} (h : Attended registered s w c)
    (hknown : ∀ e, s.system.store.Known e → s'.system.store.Known e)
    (hreturned : ∀ call ∈ s.returned, call ∈ s'.returned) : Attended registered s' w c := by
  cases c with
  | ready => trivial
  | ended => trivial
  | handling e => exact ⟨hknown e h.1, h.2⟩
  | reporting e report => exact ⟨hknown e h.1, fun t ht => hreturned _ (h.2 t ht)⟩

/-- What an error makes a consumer do. -/
theorem attended_onError {w : ω} {event : OutboxEvent} {message : JsString} {failedAt later : Int}
    {config : WorkerConfig} (h : s.system.store.Known event) :
    Attended registered s w (onError config event message failedAt later) := by
  rw [onError]
  split
  · exact ⟨h, fun _ hdone => by cases hdone⟩
  · split
    · trivial
    · exact ⟨h, fun _ hdone => by cases hdone⟩

theorem attended_afterReport {w : ω} {event : OutboxEvent} {report : Report}
    {error : Option JsString} {failedAt later : Int} {config : WorkerConfig}
    (h : s.system.store.Known event) :
    Attended registered s w (afterReport config event report error failedAt later) := by
  unfold afterReport
  split
  · trivial
  · exact attended_onError h
  · trivial

/-- One consumer of one run is at something else, and the run may have begun an event. -/
theorem consumers_replaced {runs before after : List (Run ω)} {w : ω} {events events' : List OutboxEvent}
    {left right : List Consumer} {c c' : Consumer} {P : ω → Consumer → Prop}
    (hruns : runs = before ++ ⟨w, events, left ++ c :: right⟩ :: after)
    (h : ∀ run ∈ runs, ∀ c ∈ run.consumers, P run.worker c) (hc : P w c') :
    ∀ run ∈ before ++ ⟨w, events', left ++ c' :: right⟩ :: after, ∀ c ∈ run.consumers,
      P run.worker c := by
  subst hruns
  intro run hrun d hd
  rcases List.mem_append.mp hrun with hrun | hrun
  · exact h run (List.mem_append_left _ hrun) d hd
  · rcases List.mem_cons.mp hrun with rfl | hrun
    · have hold := h ⟨w, events, left ++ c :: right⟩ (List.mem_append_right _ List.mem_cons_self)
      rcases List.mem_append.mp hd with hd | hd
      · exact hold d (List.mem_append_left _ hd)
      · rcases List.mem_cons.mp hd with rfl | hd
        · exact hc
        · exact hold d (List.mem_append_right _ (List.mem_cons_of_mem _ hd))
    · exact h run (List.mem_append_right _ (List.mem_cons_of_mem _ hrun)) d hd

theorem events_replaced {runs before after : List (Run ω)} {w : ω} {events events' : List OutboxEvent}
    {cs cs' : List Consumer} {Q : OutboxEvent → Prop}
    (hruns : runs = before ++ ⟨w, events, cs⟩ :: after)
    (h : ∀ run ∈ runs, ∀ e ∈ run.events, Q e) (hevents : ∀ e ∈ events', e ∈ events) :
    ∀ run ∈ before ++ ⟨w, events', cs'⟩ :: after, ∀ e ∈ run.events, Q e := by
  subst hruns
  intro run hrun e he
  rcases List.mem_append.mp hrun with hrun | hrun
  · exact h run (List.mem_append_left _ hrun) e he
  · rcases List.mem_cons.mp hrun with rfl | hrun
    · exact h ⟨w, events, cs⟩ (List.mem_append_right _ List.mem_cons_self) e (hevents e he)
    · exact h run (List.mem_append_right _ (List.mem_cons_of_mem _ hrun)) e he

/-- A call that returns is of a registered handler. -/
theorem registered_of_mayReturn {own : JsString → Bool} {eventType : JsString}
    (h : mayReturn own eventType = true) (hown : own eventType = true ∨ eventType ∉ returningMethods) :
    own eventType = true := by
  rw [mayReturn, Bool.or_eq_true, List.contains_iff_mem] at h
  exact h.elim id fun hinherited => hown.resolve_right fun hnot => hnot hinherited

variable [DecidableEq ω] {handlers : JsString → Bool} {t t' : System ω} {a : Action ω}

/-- A claim hands out events of its rows. -/
theorem known_claim {store : Store} {input : ClaimInput} {skipped : List JsString}
    (hsound : store.Sound) {e : OutboxEvent} (he : e ∈ (claim input skipped store).2) :
    (claim input skipped store).1.Known e := by
  obtain ⟨r, hr, rfl⟩ := List.mem_map.mp he
  obtain ⟨f, hrows, hf⟩ := claim_rows input skipped hsound.ids
  have hmem := (mem_candidates hr).1
  refine ⟨f r, hrows ▸ List.mem_map_of_mem hmem, ?_⟩
  obtain hsame | ⟨-, hlease⟩ := hf r hmem
  · rw [hsame, mapEvent_fixed]
  · rw [hlease, lease_fixed, mapEvent_fixed]

theorem waiting_step (hsound : t.store.Sound)
    (hwaiting : ∀ run ∈ t.runs, ∀ e ∈ run.events, t.store.Known e)
    (h : Step config handlers t a t') : ∀ run ∈ t'.runs, ∀ e ∈ run.events, t'.store.Known e := by
  have hkept : ∀ run ∈ t.runs, ∀ e ∈ run.events, t'.store.Known e := fun run hrun e he =>
    known_step hsound h (hwaiting run hrun e he)
  cases h with
  | emit => exact hkept
  | poll => exact hkept
  | @claim w input skipped delivery before after hpolls =>
    cases delivery with
    | answered =>
      intro run hrun e he
      rcases List.mem_cons.mp hrun with rfl | hrun
      · exact known_claim hsound he
      · exact hkept run hrun e he
    | refused message => exact hkept
    | lost message => exact hkept
  | take hruns => exact events_replaced hruns hkept fun e he => List.mem_cons_of_mem _ he
  | succeed hruns => exact events_replaced hruns hkept fun e he => he
  | fail hruns => exact events_replaced hruns hkept fun e he => he
  | report hruns => exact events_replaced hruns hkept fun e he => he
  | crash => exact fun run hrun => hkept run (List.mem_of_mem_filter hrun)

omit [DecidableEq ω] in
/-- The event that a step is about, where it stands. -/
theorem mem_runs {runs before after : List (Run ω)} {w : ω} {events : List OutboxEvent}
    {left right : List Consumer} {c : Consumer}
    (hruns : runs = before ++ ⟨w, events, left ++ c :: right⟩ :: after) :
    ∃ run ∈ runs, run.worker = w ∧ run.events = events ∧ c ∈ run.consumers :=
  ⟨⟨w, events, left ++ c :: right⟩, by rw [hruns]; simp, rfl, rfl, by simp⟩

theorem consumers_step (h : Handled registered s) (hguard : TakesHandled registered s a)
    {system : System ω} (hstep : Step config handlers s.system a system) :
    ∀ run ∈ system.runs, ∀ c ∈ run.consumers,
      Attended registered ⟨system, s.returned ++ a.returned⟩ run.worker c := by
  have hknown : ∀ e, s.system.store.Known e → system.store.Known e := fun e he =>
    known_step h.sound hstep he
  have hkept : ∀ run ∈ s.system.runs, ∀ c ∈ run.consumers,
      Attended registered ⟨system, s.returned ++ a.returned⟩ run.worker c := fun run hrun c hc =>
    (h.consumers run hrun c hc).mono hknown fun call hcall => List.mem_append_left _ hcall
  cases hstep with
  | emit => exact hkept
  | poll => exact hkept
  | @claim w input skipped delivery before after hpolls =>
    cases delivery with
    | answered =>
      intro run hrun c hc
      rcases List.mem_cons.mp hrun with rfl | hrun
      · rw [List.eq_of_mem_replicate hc]
        trivial
      · exact hkept run hrun c hc
    | refused message => exact hkept
    | lost message => exact hkept
  | take hruns =>
    obtain ⟨run, hrun, -, hevents, -⟩ := mem_runs hruns
    exact consumers_replaced hruns hkept
      ⟨h.waiting run hrun _ (hevents ▸ List.mem_cons_self), hguard⟩
  | succeed hruns =>
    obtain ⟨run, hrun, -, -, hc⟩ := mem_runs hruns
    refine consumers_replaced hruns hkept ⟨(h.consumers run hrun _ hc).1, fun _ _ => ?_⟩
    exact List.mem_append_right _ List.mem_cons_self
  | fail hruns =>
    obtain ⟨run, hrun, -, -, hc⟩ := mem_runs hruns
    exact consumers_replaced hruns hkept (attended_onError (h.consumers run hrun _ hc).1)
  | report hruns =>
    obtain ⟨run, hrun, -, -, hc⟩ := mem_runs hruns
    exact consumers_replaced hruns hkept
      (attended_afterReport (hknown _ (h.consumers run hrun _ hc).1))
  | crash => exact fun run hrun => hkept run (List.mem_of_mem_filter hrun)

/-- What has returned is a registered handler. -/
theorem returned_step (h : Handled registered s) {system : System ω}
    (hstep : Step config handlers s.system a system)
    (hreturns : ∀ call ∈ a.returned, mayReturn (registered call.1) call.2.eventType = true) :
    ∀ call ∈ s.returned ++ a.returned, registered call.1 call.2.eventType = true := by
  intro call hcall
  rcases List.mem_append.mp hcall with hcall | hcall
  · exact h.returned call hcall
  · cases hstep with
    | succeed hruns =>
      obtain ⟨run, hrun, hw, -, hc⟩ := mem_runs hruns
      have hattended := (h.consumers run hrun _ hc).2
      have hreturn := hreturns call hcall
      rw [List.mem_singleton.mp hcall] at hreturn ⊢
      rw [hw] at hattended
      exact registered_of_mayReturn hreturn hattended
    | _ => cases hcall

/-- A row is processed by the report on its event. -/
theorem processed_step (h : Handled registered s) {system : System ω}
    (hstep : Step config handlers s.system a system) :
    ∀ r ∈ system.store.rows, r.processedAt ≠ none → ∃ call ∈ s.returned, call.2.fixed = r.fixed := by
  intro r' hr' hprocessed
  obtain hsame | ⟨event, -, hemit⟩ | ⟨w, input, skipped, -, hclaim⟩ |
    ⟨run, hrun, event, report, hconsumer, hexecute⟩ := store_cases hstep
  · rw [hsame] at hr'
    exact h.processed r' hr' hprocessed
  · rw [hemit] at hr'
    rcases List.mem_append.mp hr' with hr' | hr'
    · exact h.processed r' hr' hprocessed
    · rw [List.mem_singleton.mp hr'] at hprocessed
      exact absurd rfl hprocessed
  · obtain ⟨f, hrows, hf⟩ := claim_rows input skipped h.sound.ids
    rw [hclaim, hrows] at hr'
    obtain ⟨r, hr, rfl⟩ := List.mem_map.mp hr'
    obtain hsame | ⟨-, hlease⟩ := hf r hr
    · rw [hsame] at hprocessed ⊢
      exact h.processed r hr hprocessed
    · rw [hlease] at hprocessed ⊢
      exact h.processed r hr hprocessed
  · obtain ⟨-, -, -, hrows, -⟩ := execute_cases hexecute
    rw [hrows] at hr'
    obtain ⟨r, hr, rfl⟩ := List.mem_map.mp hr'
    by_cases hleased : leased (config run.worker).workerId event.id report.reading r = true
    · rw [if_pos hleased] at hprocessed ⊢
      rw [set_fixed]
      obtain ⟨hid, -, hopen, -⟩ := leased_cases hleased
      obtain ⟨⟨row, hrow, hfixed⟩, hreturned⟩ := h.consumers run hrun _ hconsumer
      have hsame : row = r :=
        eq_of_id h.sound.ids hrow hr ((congrArg Fixed.id hfixed).trans hid.symm)
      cases report with
      | complete processedAt => exact ⟨_, hreturned processedAt rfl, by rw [← hfixed, hsame]⟩
      | retry input => exact absurd hopen hprocessed
      | quarantine input => exact absurd hopen hprocessed
    · rw [if_neg hleased] at hprocessed ⊢
      exact h.processed r hr hprocessed

theorem handled_step (h : Handled registered s) (hguard : TakesHandled registered s a)
    (hstep : TracedStep config registered s a s') : Handled registered s' := by
  obtain ⟨hsystem, hreturns⟩ := hstep
  refine ⟨sound_step h.sound hsystem, waiting_step h.sound h.waiting hsystem,
    consumers_step h hguard hsystem, returned_step h hsystem hreturns, ?_⟩
  intro r hr hprocessed
  obtain ⟨call, hcall, hfixed⟩ := processed_step h hsystem r hr hprocessed
  exact ⟨call, List.mem_append_left _ hcall, hfixed⟩

end Steps

/-- In a run in which no worker takes an event of an inherited name that returns, a processed row is
one for whose event a registered handler has returned; without one for its type it is not processed. -/
theorem processed_handled [DecidableEq ω] {config : ω → WorkerConfig}
    {registered : ω → JsString → Bool} {s : Traced ω}
    (hs : (tracedOutbox config registered).Reaches (TakesHandled registered) s) :
    ∀ r ∈ s.system.store.rows,
      (r.processedAt ≠ none → ∃ call ∈ s.returned, call.2.fixed = r.fixed ∧
        registered call.1 r.eventType = true) ∧
      ((∀ w, registered w r.eventType = false) → r.processedAt = none) := by
  have hinit : ∀ s, s = ⟨System.initial ω, []⟩ → Handled registered s := by
    rintro s rfl
    refine ⟨?_, nofun, nofun, nofun, nofun⟩
    constructor <;> simp [System.initial]
  have hhandled := hs.invariant hinit fun s a s' h hguard hstep => handled_step h hguard hstep
  have hcall : ∀ r ∈ s.system.store.rows, r.processedAt ≠ none → ∃ call ∈ s.returned,
      call.2.fixed = r.fixed ∧ registered call.1 r.eventType = true := by
    intro r hr hprocessed
    obtain ⟨call, hcall, hfixed⟩ := hhandled.processed r hr hprocessed
    have htype : call.2.eventType = r.eventType := congrArg Fixed.eventType hfixed
    exact ⟨call, hcall, hfixed, htype ▸ hhandled.returned call hcall⟩
  intro r hr
  refine ⟨hcall r hr, fun hnone => ?_⟩
  by_contra hprocessed
  obtain ⟨call, -, -, hregistered⟩ := hcall r hr hprocessed
  rw [hnone] at hregistered
  cases hregistered

end Traced

/-! ## One event -/

section OneEvent

def namedEvent (eventType : JsString) : OutboxEvent :=
  ⟨js "e", js "w", js "o", eventType, .null, 0, 0⟩

def namedInput : ClaimInput := (loneConfig ()).claimInput 0 30000

def takenRow (eventType : JsString) : OutboxRow := (insertRow (namedEvent eventType)).lease namedInput

def doneRow (eventType : JsString) : OutboxRow := (Report.complete 0).set (takenRow eventType)

theorem finds_of_mayReturn {own : JsString → Bool} {eventType : JsString}
    (h : mayReturn own eventType = true) : finds own eventType = true := by
  rw [mayReturn, Bool.or_eq_true] at h
  rw [finds, Bool.or_eq_true]
  refine h.imp id fun hmem => ?_
  rw [List.contains_iff_mem] at hmem ⊢
  have hall : ∀ name ∈ returningMethods, name ∈ inheritedNames := by decide
  exact hall eventType hmem

theorem reaches_step {ω : Type} [DecidableEq ω] {config : ω → WorkerConfig}
    {registered : ω → JsString → Bool} {guard : Traced ω → Action ω → Prop} {t t' : System ω}
    {calls : List (ω × OutboxEvent)} (hs : (tracedOutbox config registered).Reaches guard ⟨t, calls⟩)
    {a : Action ω} (hguard : guard ⟨t, calls⟩ a) (h : Step config (finds (a.table registered)) t a t')
    (hreturns : ∀ call ∈ a.returned, mayReturn (registered call.1) call.2.eventType = true) :
    (tracedOutbox config registered).Reaches guard ⟨t', calls ++ a.returned⟩ :=
  .step hs hguard (.step h hreturns)

theorem claim_named (eventType : JsString) :
    claim namedInput [] ⟨[insertRow (namedEvent eventType)], []⟩ =
      (⟨[takenRow eventType], []⟩, [namedEvent eventType]) := by
  have hclaimable : claimable namedInput (insertRow (namedEvent eventType)) = true := rfl
  have hlimit : namedInput.limit = 25 := rfl
  simp only [claim, candidates, hclaimable, hlimit, List.filter_cons, List.filter_nil,
    List.contains_nil, Bool.not_false, Bool.and_self, if_true, List.mergeSort_singleton]
  simp [takenRow, mapEvent, insertRow, namedEvent]

theorem execute_named (eventType : JsString) :
    execute (js "a") (namedEvent eventType) (.complete 0) ⟨[takenRow eventType], []⟩ =
      some ⟨[doneRow eventType], []⟩ := by
  have hleased : leased (js "a") (namedEvent eventType).id (Report.complete 0).reading
      (takenRow eventType) = true := rfl
  simp [execute, hleased, doneRow]

/-- The lone worker claims an event, and what it finds for it returns. -/
theorem reaches_done {registered : Unit → JsString → Bool} {guard : Traced Unit → Action Unit → Prop}
    {eventType : JsString} (hreturn : mayReturn (registered ()) eventType = true)
    (hfree : ∀ s a, (∀ w e, a ≠ .take w e) → guard s a)
    (htake : ∀ s, guard s (.take () (namedEvent eventType))) :
    ∃ s, (tracedOutbox loneConfig registered).Reaches guard s ∧
      s.system.store.rows = [doneRow eventType] ∧ s.returned = [((), namedEvent eventType)] := by
  have hfinds := finds_of_mayReturn hreturn
  have hinit : (tracedOutbox loneConfig registered).Reaches guard ⟨System.initial Unit, []⟩ :=
    .init rfl
  have hemitted := reaches_step hinit (hfree _ (.emit (namedEvent eventType)) fun _ _ => by simp)
    (.emit fun r hr => by cases hr) fun call hcall => by cases hcall
  have hpolled := reaches_step hemitted (hfree _ (.poll () 0) fun _ _ => by simp)
    (@Step.poll _ _ _ _ _ () 0 30000 (fun t ht => by cases ht) rfl) fun call hcall => by cases hcall
  have hclaimed := reaches_step hpolled (hfree _ (.claim () namedInput [] .answered) fun _ _ => by simp)
    (@Step.claim _ _ _ _ _ () namedInput [] .answered [] [] rfl) fun call hcall => by cases hcall
  simp only [System.claimed, System.read, System.initial, List.nil_append, claim_named] at hclaimed
  have htaken := reaches_step hclaimed (htake _)
    (@Step.take _ _ _ _ _ () (namedEvent eventType) [] [] [] [] [] rfl) fun call hcall => by cases hcall
  have hsucceeded := reaches_step htaken (hfree _ (.succeed () (namedEvent eventType) 0) fun _ _ => by simp)
    (@Step.succeed _ _ _ _ _ () (namedEvent eventType) [] [] [] [] [] 0 rfl hfinds (by simp [System.Current]))
    fun call hcall => by
      rw [List.mem_singleton.mp hcall]
      exact hreturn
  have hreported := reaches_step hsucceeded
    (hfree _ (.report () (namedEvent eventType) (.complete 0) .answered 0 0) fun _ _ => by simp)
    (@Step.report _ _ _ _ _ () (namedEvent eventType) [] [] [] [] [] (.complete 0) .answered 0 0 rfl
      (by simp [System.Current, System.read]) le_rfl) fun call hcall => by cases hcall
  refine ⟨_, hreported, ?_, rfl⟩
  exact congrArg (fun result : Option Store =>
    (deliver ⟨[takenRow eventType], []⟩ result .answered).1.rows) (execute_named eventType)

/-- The names of `createReconciliationHandlers`. -/
def reconciliationHandlers : List JsString :=
  [js "resource.revision_created", js "resource.deleted", js "resource.restored",
    js "temporary.cleanup_requested", js "blob.reconcile_requested"]

theorem processed_handled_sample : ∃ s : Traced Unit, ∃ call ∈ s.returned,
    call.2.fixed = (doneRow (js "resource.deleted")).fixed ∧
      reconciliationHandlers.contains (js "resource.deleted") = true := by
  obtain ⟨s, hs, hrows, -⟩ := @reaches_done (fun _ => reconciliationHandlers.contains)
    (TakesHandled fun _ => reconciliationHandlers.contains) (js "resource.deleted") (by decide)
    (fun s a ha => by
      cases a with
      | take w e => exact absurd rfl (ha w e)
      | _ => trivial)
    fun s => .inl (by decide)
  obtain ⟨call, hcall, hfixed, hregistered⟩ := (processed_handled hs
    (doneRow (js "resource.deleted")) (hrows ▸ List.mem_singleton_self _)).1 (Option.some_ne_none 0)
  exact ⟨s, call, hcall, hfixed, hregistered⟩

/-- An event of type `toString` is processed, and no handler has been called. -/
theorem inherited_processed : ∃ s : Traced Unit,
    (tracedOutbox loneConfig fun _ => reconciliationHandlers.contains).Reachable s ∧
      ∃ r ∈ s.system.store.rows, r.eventType = js "toString" ∧ r.processedAt = some 0 ∧
        ∀ call ∈ s.returned, reconciliationHandlers.contains call.2.eventType = false := by
  obtain ⟨s, hs, hrows, hreturned⟩ := @reaches_done (fun _ => reconciliationHandlers.contains)
    (fun _ _ => True) (js "toString") (by decide) (fun _ _ _ => trivial) fun _ => trivial
  refine ⟨s, hs, doneRow (js "toString"), hrows ▸ List.mem_singleton_self _, rfl, rfl, ?_⟩
  rw [hreturned]
  decide

end OneEvent

end TrustCore.Outbox
