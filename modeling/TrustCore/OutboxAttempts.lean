import TrustCore.OutboxLeases

/-!
# Attempts on an outbox event

The attempts of an event are counted by the reports `retry` and `quarantine`, not by the
claim. As long as every claim takes rows without a lease, each start of a handler is
followed by at most one report before the next claim, and the number of starts stays
within the limit. A claim that takes over a lease starts the handler once more for the
same attempt, so an event whose workers never report is started without end.
-/

namespace TrustCore.Outbox

open TrustCore.Utf TrustCore.Runs

/-- The event that a consumer is at. -/
def Consumer.event? : Consumer → Option OutboxEvent
  | .ready => none
  | .handling event => some event
  | .reporting event _ => some event
  | .ended => none

/-- The events that a call of `runOnce` has claimed and not yet settled. -/
def Run.tasks {ω : Type} (run : Run ω) : List OutboxEvent :=
  run.events ++ run.consumers.filterMap Consumer.event?

section Lists

variable {ω : Type}

def tasks (runs : List (Run ω)) : List OutboxEvent := runs.flatMap Run.tasks

/-- The claimed events whose handlers are yet to be started. -/
def waiting (runs : List (Run ω)) : List OutboxEvent := runs.flatMap Run.events

/-- The number of events with an id. -/
def countId (id : JsString) (events : List OutboxEvent) : Nat := events.countP fun e => e.id = id

variable {w : ω} {events : List OutboxEvent} {before after : List (Run ω)}
  {left right : List Consumer} {c : Consumer}

/-- The tasks apart from the events of one run and the event of one of its consumers. -/
def otherTasks (before after : List (Run ω)) (left right : List Consumer) : List OutboxEvent :=
  tasks before ++ left.filterMap Consumer.event? ++ right.filterMap Consumer.event? ++ tasks after

theorem tasks_perm : (tasks (before ++ ⟨w, events, left ++ c :: right⟩ :: after)).Perm
    (events ++ c.event?.toList ++ otherTasks before after left right) := by
  have hc : [c].filterMap Consumer.event? = c.event?.toList := by
    cases h : c.event? <;> simp [h]
  have hcons : (left ++ c :: right).filterMap Consumer.event? =
      left.filterMap Consumer.event? ++ c.event?.toList ++ right.filterMap Consumer.event? := by
    rw [← hc, ← List.filterMap_append, ← List.filterMap_append, List.append_assoc]
    rfl
  simp only [tasks, otherTasks, List.flatMap_append, List.flatMap_cons, Run.tasks, hcons]
  classical
  rw [List.perm_iff_count]
  intro e
  simp only [List.count_append]
  omega

theorem waiting_eq : waiting (before ++ ⟨w, events, left ++ c :: right⟩ :: after) =
    waiting before ++ (events ++ waiting after) := by
  simp [waiting]

@[simp] theorem countId_append (id : JsString) (xs ys : List OutboxEvent) :
    countId id (xs ++ ys) = countId id xs + countId id ys := List.countP_append

theorem countId_eq_zero {id : JsString} {xs : List OutboxEvent} :
    countId id xs = 0 ↔ ∀ e ∈ xs, e.id ≠ id := by
  simp [countId, List.countP_eq_zero]

end Lists

/-- How many leases a row has. -/
def OutboxRow.leases (r : OutboxRow) : Nat := if r.lockedBy = none then 0 else 1

/-- The invariant: an open row has at most one task for each lease, on its current attempt,
and no more starts, begun or still to come, than attempts and leases. -/
structure Counted (m : Nat) (rows : List OutboxRow) (tasks waiting : List OutboxEvent)
    (starts : List JsString) : Prop where
  tasksKnown : ∀ e ∈ tasks, ∃ r ∈ rows, r.id = e.id
  waitingKnown : ∀ e ∈ waiting, ∃ r ∈ rows, r.id = e.id
  startsKnown : ∀ id ∈ starts, ∃ r ∈ rows, r.id = id
  bound : ∀ r ∈ rows, starts.count r.id + countId r.id waiting ≤ m
  attempts : ∀ r ∈ rows, r.Open → r.attemptCount < m
  single : ∀ r ∈ rows, r.Open → countId r.id tasks ≤ r.leases
  counted : ∀ r ∈ rows, r.Open →
    starts.count r.id + countId r.id waiting ≤ r.attemptCount + r.leases
  current : ∀ r ∈ rows, r.Open → ∀ e ∈ tasks, e.id = r.id → e.attemptCount = r.attemptCount

section Rows

variable {m : Nat} {rows : List OutboxRow} {tasks tasks' waiting waiting' : List OutboxEvent}
  {starts : List JsString} {event : OutboxEvent}

theorem countId_le_of_subperm {id : JsString} {xs ys : List OutboxEvent} (h : xs.Subperm ys) :
    countId id xs ≤ countId id ys := h.countP_le _

/-- Tasks may be dropped. -/
theorem Counted.mono (h : Counted m rows tasks waiting starts) (htasks : tasks'.Subperm tasks)
    (hwaiting : waiting'.Subperm waiting) : Counted m rows tasks' waiting' starts := by
  have hcount : ∀ id, countId id waiting' ≤ countId id waiting := fun _ =>
    countId_le_of_subperm hwaiting
  refine ⟨?_, ?_, h.startsKnown, ?_, h.attempts, ?_, ?_, ?_⟩
  · exact fun e he => h.tasksKnown e (htasks.subset he)
  · exact fun e he => h.waitingKnown e (hwaiting.subset he)
  · intro r hr
    have hbound := h.bound r hr
    have hle := hcount r.id
    omega
  · exact fun r hr hopen => (countId_le_of_subperm htasks).trans (h.single r hr hopen)
  · intro r hr hopen
    have hcounted := h.counted r hr hopen
    have hle := hcount r.id
    omega
  · exact fun r hr hopen e he => h.current r hr hopen e (htasks.subset he)

/-- A handler started: an event that was waiting is counted as a start. -/
theorem Counted.start (h : Counted m rows tasks waiting starts)
    (hwaiting : waiting.Perm (event :: waiting')) :
    Counted m rows tasks waiting' (event.id :: starts) := by
  have hcount : ∀ id, (event.id :: starts).count id + countId id waiting' =
      starts.count id + countId id waiting := by
    intro id
    rw [countId, countId, hwaiting.countP_eq, List.countP_cons, List.count_cons]
    simp only [beq_iff_eq, decide_eq_true_eq]
    omega
  refine ⟨h.tasksKnown, ?_, ?_, ?_, h.attempts, h.single, ?_, h.current⟩
  · exact fun e he => h.waitingKnown e (hwaiting.mem_iff.mpr (List.mem_cons_of_mem _ he))
  · intro id hid
    obtain rfl | hid := List.mem_cons.mp hid
    · exact h.waitingKnown event (hwaiting.mem_iff.mpr List.mem_cons_self)
    · exact h.startsKnown id hid
  · intro r hr
    rw [hcount]
    exact h.bound r hr
  · intro r hr hopen
    rw [hcount]
    exact h.counted r hr hopen

theorem Counted.emit (h : Counted m rows tasks waiting starts) (hm : 0 < m)
    (hfresh : ∀ r ∈ rows, r.id ≠ event.id) :
    Counted m (rows ++ [insertRow event]) tasks waiting starts := by
  have hmem : ∀ {id}, (∃ r ∈ rows, r.id = id) → ∃ r ∈ rows ++ [insertRow event], r.id = id := by
    rintro id ⟨r, hr, hid⟩
    exact ⟨r, List.mem_append_left _ hr, hid⟩
  have hunknown : ∀ {id}, (∃ r ∈ rows, r.id = id) → id ≠ event.id := by
    rintro id ⟨r, hr, rfl⟩
    exact hfresh r hr
  have htasks : countId event.id tasks = 0 :=
    countId_eq_zero.mpr fun e he => hunknown (h.tasksKnown e he)
  have hwaiting : countId event.id waiting = 0 :=
    countId_eq_zero.mpr fun e he => hunknown (h.waitingKnown e he)
  have hstarts : starts.count event.id = 0 :=
    List.count_eq_zero.mpr fun hid => hunknown (h.startsKnown _ hid) rfl
  refine ⟨fun e he => hmem (h.tasksKnown e he), fun e he => hmem (h.waitingKnown e he),
    fun id hid => hmem (h.startsKnown id hid), ?_, ?_, ?_, ?_, ?_⟩
  · intro r hr
    obtain hr | hr := List.mem_append.mp hr
    · exact h.bound r hr
    · rw [List.mem_singleton.mp hr]
      change starts.count event.id + countId event.id waiting ≤ m
      omega
  · intro r hr hopen
    obtain hr | hr := List.mem_append.mp hr
    · exact h.attempts r hr hopen
    · rw [List.mem_singleton.mp hr]
      exact hm
  · intro r hr hopen
    obtain hr | hr := List.mem_append.mp hr
    · exact h.single r hr hopen
    · rw [List.mem_singleton.mp hr]
      change countId event.id tasks ≤ 0
      omega
  · intro r hr hopen
    obtain hr | hr := List.mem_append.mp hr
    · exact h.counted r hr hopen
    · rw [List.mem_singleton.mp hr]
      change starts.count event.id + countId event.id waiting ≤ 0 + 0
      omega
  · intro r hr hopen e he hid
    obtain hr | hr := List.mem_append.mp hr
    · exact h.current r hr hopen e he hid
    · rw [List.mem_singleton.mp hr] at hid
      exact absurd hid (hunknown (h.tasksKnown e he))

end Rows

section Claims

variable {m : Nat} {store : Store} {input : ClaimInput} {skipped : List JsString}
  {tasks waiting : List OutboxEvent} {starts : List JsString}

theorem candidates_ids (hids : (store.rows.map (·.id)).Nodup) :
    ((candidates input skipped store.rows).map (·.id)).Nodup := by
  have hsorted := (List.mergeSort_perm
    (store.rows.filter fun r => claimable input r && !skipped.contains r.id) claimOrder)
  have hfilter : ((store.rows.filter fun r =>
      claimable input r && !skipped.contains r.id).map (·.id)).Nodup :=
    hids.sublist (List.filter_sublist.map _)
  exact ((hsorted.map _).nodup_iff.mpr hfilter).sublist ((List.take_sublist _ _).map _)

/-- The events that a claim returns have different ids. -/
theorem countId_claimed (hids : (store.rows.map (·.id)).Nodup) (id : JsString) :
    countId id (claim input skipped store).2 =
      if (candidates input skipped store.rows).any (·.id == id) then 1 else 0 := by
  have hcount : countId id (claim input skipped store).2 =
      ((candidates input skipped store.rows).map (·.id)).count id := by
    simp only [claim, countId, List.countP_map, List.count]
    exact List.countP_congr fun r _ => decide_eq_true_iff.trans beq_iff_eq.symm
  rw [hcount]
  by_cases htaken : (candidates input skipped store.rows).any (·.id == id) = true
  · obtain ⟨c, hc, hid⟩ := List.any_eq_true.mp htaken
    rw [if_pos htaken]
    exact List.count_eq_one_of_mem (candidates_ids hids)
      (List.mem_map.mpr ⟨c, hc, beq_iff_eq.mp hid⟩)
  · rw [if_neg htaken, List.count_eq_zero]
    intro hid
    obtain ⟨c, hc, rfl⟩ := List.mem_map.mp hid
    exact htaken (List.any_eq_true.mpr ⟨c, hc, beq_self_eq_true _⟩)

/-- A claim of rows without a lease, whose events go to a worker. -/
theorem Counted.claim (h : Counted m store.rows tasks waiting starts) (hsound : store.Sound)
    (hfree : ∀ r ∈ candidates input skipped store.rows, r.lockedBy = none) :
    Counted m (claim input skipped store).1.rows ((claim input skipped store).2 ++ tasks)
      ((claim input skipped store).2 ++ waiting) starts := by
  have hcount (id : JsString) : countId id (Outbox.claim input skipped store).2 =
      if (candidates input skipped store.rows).any (·.id == id) then 1 else 0 :=
    countId_claimed hsound.ids id
  have hrow : ∀ r ∈ store.rows, ∃ r' ∈ (Outbox.claim input skipped store).1.rows, r'.id = r.id := by
    intro r hr
    refine ⟨_, List.mem_map_of_mem hr, ?_⟩
    split <;> rfl
  have hknown : ∀ {id}, (∃ r ∈ store.rows, r.id = id) →
      ∃ r ∈ (Outbox.claim input skipped store).1.rows, r.id = id := by
    rintro id ⟨r, hr, rfl⟩
    exact hrow r hr
  have hclaimed : ∀ e ∈ (Outbox.claim input skipped store).2, ∃ c ∈ candidates input skipped store.rows,
      c ∈ store.rows ∧ mapEvent c = e := by
    intro e he
    obtain ⟨c, hc, rfl⟩ := List.mem_map.mp he
    exact ⟨c, hc, (mem_candidates hc).1, rfl⟩
  have hnew : ∀ e ∈ (Outbox.claim input skipped store).2, ∃ r ∈ store.rows, r.id = e.id := by
    intro e he
    obtain ⟨c, -, hc, rfl⟩ := hclaimed e he
    exact ⟨c, hc, rfl⟩
  -- A row that is taken was open and had no lease; any other row is as it was.
  have hcases : ∀ r' ∈ (Outbox.claim input skipped store).1.rows, ∃ r ∈ store.rows,
      countId r.id (Outbox.claim input skipped store).2 = 1 ∧ r.Open ∧ r.lockedBy = none ∧
        r' = r.lease input ∨
      countId r.id (Outbox.claim input skipped store).2 = 0 ∧ r' = r := by
    intro r' hr'
    obtain ⟨r, hr, rfl⟩ := List.mem_map.mp hr'
    refine ⟨r, hr, ?_⟩
    rw [hcount]
    by_cases htaken : (candidates input skipped store.rows).any (·.id == r.id) = true
    · obtain ⟨c, hc, hid⟩ := List.any_eq_true.mp htaken
      obtain ⟨hmem, hclaimable⟩ := mem_candidates hc
      have hsame : c = r := eq_of_id hsound.ids hmem hr (beq_iff_eq.mp hid)
      subst hsame
      obtain ⟨hprocessed, hquarantined, -, -⟩ := claimable_cases hclaimable
      exact .inl ⟨if_pos htaken, ⟨hprocessed, hquarantined⟩, hfree c hc, if_pos htaken⟩
    · exact .inr ⟨if_neg htaken, if_neg htaken⟩
  refine ⟨?_, ?_, fun id hid => hknown (h.startsKnown id hid), ?_, ?_, ?_, ?_, ?_⟩
  · intro e he
    obtain he | he := List.mem_append.mp he
    · exact hknown (hnew e he)
    · exact hknown (h.tasksKnown e he)
  · intro e he
    obtain he | he := List.mem_append.mp he
    · exact hknown (hnew e he)
    · exact hknown (h.waitingKnown e he)
  · intro r' hr'
    obtain ⟨r, hr, ⟨hone, hopen, hunlocked, rfl⟩ | ⟨hzero, rfl⟩⟩ := hcases r' hr'
    · have hcounted := h.counted r hr hopen
      have hattempts := h.attempts r hr hopen
      rw [OutboxRow.leases, if_pos hunlocked] at hcounted
      rw [lease_id, countId_append, hone]
      omega
    · have hbound := h.bound r' hr
      rw [countId_append, hzero]
      omega
  · intro r' hr' hopen'
    obtain ⟨r, hr, ⟨-, hopen, -, rfl⟩ | ⟨-, rfl⟩⟩ := hcases r' hr'
    · exact h.attempts r hr hopen
    · exact h.attempts r' hr hopen'
  · intro r' hr' hopen'
    obtain ⟨r, hr, ⟨hone, hopen, hunlocked, rfl⟩ | ⟨hzero, rfl⟩⟩ := hcases r' hr'
    · have hsingle := h.single r hr hopen
      rw [OutboxRow.leases, if_pos hunlocked] at hsingle
      rw [lease_id, countId_append, hone]
      change 1 + countId r.id tasks ≤ 1
      omega
    · have hsingle := h.single r' hr hopen'
      rw [countId_append, hzero]
      omega
  · intro r' hr' hopen'
    obtain ⟨r, hr, ⟨hone, hopen, hunlocked, rfl⟩ | ⟨hzero, rfl⟩⟩ := hcases r' hr'
    · have hcounted := h.counted r hr hopen
      rw [OutboxRow.leases, if_pos hunlocked] at hcounted
      rw [lease_id, countId_append, hone]
      change starts.count r.id + (1 + countId r.id waiting) ≤ r.attemptCount + 1
      omega
    · have hcounted := h.counted r' hr hopen'
      rw [countId_append, hzero]
      omega
  · intro r' hr' hopen' e he hid
    obtain ⟨r, hr, ⟨-, hopen, -, rfl⟩ | ⟨hzero, rfl⟩⟩ := hcases r' hr'
    · obtain he | he := List.mem_append.mp he
      · obtain ⟨c, -, hc, rfl⟩ := hclaimed e he
        rw [eq_of_id hsound.ids hc hr hid]
        rfl
      · exact h.current r hr hopen e he hid
    · obtain he | he := List.mem_append.mp he
      · exact absurd hid (countId_eq_zero.mp hzero e he)
      · exact h.current r' hr hopen' e he hid

end Claims

section Reports

variable {m : Nat} {store store' : Store} {workerId : JsString} {event : OutboxEvent}
  {report : Report} {tasks tasks' waiting : List OutboxEvent} {starts : List JsString}

/-- A report that goes through, after which its task is gone or the row is closed. -/
theorem Counted.execute (h : Counted m store.rows tasks waiting starts) (hsound : store.Sound)
    (hexecute : execute workerId event report store = some store') (hevent : event ∈ tasks)
    (htasks : tasks'.Subperm tasks)
    (hretry : ∀ input, report = .retry input → input.attemptCount = event.attemptCount + 1 ∧
      input.attemptCount < m ∧ tasks.Perm (event :: tasks')) :
    Counted m store'.rows tasks' waiting starts := by
  have hmono := h.mono htasks (.refl waiting)
  obtain ⟨row, hrow, hleased, hrows, -⟩ := execute_cases hexecute
  obtain ⟨hid, hby, -, -⟩ := leased_cases hleased
  have hlocked : row.lockedBy ≠ none := by
    rw [hby]
    exact Option.some_ne_none workerId
  have hopen := hsound.released row hrow hlocked
  have hknown : ∀ {id}, (∃ r ∈ store.rows, r.id = id) → ∃ r ∈ store'.rows, r.id = id := by
    rintro id ⟨r, hr, rfl⟩
    rw [hrows]
    refine ⟨_, List.mem_map_of_mem hr, ?_⟩
    split
    · exact set_id
    · rfl
  -- The row of the event is set by the report, any other row is as it was.
  have hcases : ∀ r' ∈ store'.rows, r' = report.set row ∨ r' ∈ store.rows := by
    intro r' hr'
    rw [hrows] at hr'
    obtain ⟨r, hr, rfl⟩ := List.mem_map.mp hr'
    by_cases hr' : leased workerId event.id report.reading r = true
    · rw [if_pos hr', eq_of_id hsound.ids hr hrow ((leased_cases hr').1.trans hid.symm)]
      exact .inl rfl
    · rw [if_neg hr']
      exact .inr hr
  -- It is open after a retry only, which has taken the last task of the event away.
  have hset : (report.set row).Open → (report.set row).attemptCount = row.attemptCount + 1 ∧
      (report.set row).attemptCount < m ∧ (report.set row).leases = 0 ∧
      countId row.id tasks' = 0 := by
    intro hopen'
    cases report with
    | complete processedAt => cases hopen'.1
    | quarantine input => cases hopen'.2
    | retry input =>
      obtain ⟨hattempt, hlimit, hperm⟩ := hretry input rfl
      have hcurrent := h.current row hrow hopen event hevent hid.symm
      have hsingle := h.single row hrow hopen
      rw [OutboxRow.leases, if_neg hlocked, countId, hperm.countP_eq, List.countP_cons,
        if_pos (decide_eq_true hid.symm)] at hsingle
      refine ⟨?_, hlimit, rfl, ?_⟩
      · rw [← hcurrent]
        exact hattempt
      · rw [countId]
        omega
  refine ⟨fun e he => hknown (hmono.tasksKnown e he), fun e he => hknown (h.waitingKnown e he),
    fun id hid => hknown (h.startsKnown id hid), ?_, ?_, ?_, ?_, ?_⟩
  · intro r' hr'
    obtain rfl | hr := hcases r' hr'
    · rw [set_id]
      exact h.bound row hrow
    · exact h.bound r' hr
  · intro r' hr' hopen'
    obtain rfl | hr := hcases r' hr'
    · exact (hset hopen').2.1
    · exact h.attempts r' hr hopen'
  · intro r' hr' hopen'
    obtain rfl | hr := hcases r' hr'
    · rw [set_id, (hset hopen').2.2.2]
      exact Nat.zero_le _
    · exact hmono.single r' hr hopen'
  · intro r' hr' hopen'
    obtain rfl | hr := hcases r' hr'
    · obtain ⟨hattempt, -, hleases, -⟩ := hset hopen'
      have hcounted := h.counted row hrow hopen
      rw [OutboxRow.leases, if_neg hlocked] at hcounted
      rw [set_id, hattempt, hleases]
      omega
    · exact h.counted r' hr hopen'
  · intro r' hr' hopen' e he hid'
    obtain rfl | hr := hcases r' hr'
    · rw [set_id] at hid'
      exact absurd hid' (countId_eq_zero.mp (hset hopen').2.2.2 e he)
    · exact hmono.current r' hr hopen' e he hid'

end Reports

section System

variable {ω : Type} [DecidableEq ω] {config : ω → WorkerConfig} {handlers : JsString → Bool}
  {m : Nat} {s s' : System ω} {a : Action ω}

/-- Every row that the claim takes has no lease. -/
def takesFree (s : System ω) : Action ω → Prop
  | .claim _ input skipped _ => ∀ r ∈ candidates input skipped s.store.rows, r.lockedBy = none
  | _ => True

/-- Retries under way are on the attempt after that of their event, and within the limit. -/
def Retrying (m : Nat) (s : System ω) : Prop :=
  ∀ run ∈ s.runs, ∀ event input, .reporting event (.retry input) ∈ run.consumers →
    input.attemptCount = event.attemptCount + 1 ∧ input.attemptCount < m

theorem Retrying.step (h : Retrying m s) (hstep : Step config handlers s a s')
    (hmax : ∀ w, (config w).maxAttempts.getD 5 ≤ m) : Retrying m s' := by
  intro run hrun event input hreport
  obtain ⟨run₀, hrun₀, -, hreport₀⟩ | ⟨-, hretry⟩ := reports_cases hstep hrun hreport
  · exact h run₀ hrun₀ event input hreport₀
  · obtain ⟨hattempt, hlimit⟩ := hretry input rfl
    exact ⟨hattempt, hlimit.trans_le (hmax run.worker)⟩

def System.Counted (m : Nat) (s : System ω) : Prop :=
  Outbox.Counted m s.store.rows (tasks s.runs) (waiting s.runs) s.starts

omit [DecidableEq ω] in
/-- The tasks after a consumer has been replaced by one at the same event, or at none. -/
theorem tasks_subperm {w : ω} {events events' : List OutboxEvent} {before after : List (Run ω)}
    {left right : List Consumer} {c c' : Consumer}
    (h : (events' ++ c'.event?.toList).Subperm (events ++ c.event?.toList)) :
    (tasks (before ++ ⟨w, events', left ++ c' :: right⟩ :: after)).Subperm
      (tasks (before ++ ⟨w, events, left ++ c :: right⟩ :: after)) :=
  tasks_perm.subperm.trans
    (((List.subperm_append_right _).mpr h).trans tasks_perm.symm.subperm)

theorem onError_event (config : WorkerConfig) (event : OutboxEvent) (message : JsString)
    (failedAt later : Int) :
    (onError config event message failedAt later).event? = some event ∨
      (onError config event message failedAt later).event? = none := by
  rw [onError]
  split
  · exact .inl rfl
  · split
    · exact .inr rfl
    · exact .inl rfl

theorem afterReport_event (config : WorkerConfig) (event : OutboxEvent) (report : Report)
    (error : Option JsString) (failedAt later : Int) :
    (afterReport config event report error failedAt later).event? = some event ∧
        (∃ processedAt, report = .complete processedAt) ∨
      (afterReport config event report error failedAt later).event? = none := by
  unfold afterReport
  split
  · exact .inr rfl
  · obtain h | h := onError_event config event _ failedAt later
    · exact .inl ⟨h, _, rfl⟩
    · exact .inr h
  · exact .inr rfl

omit [DecidableEq ω] in
/-- A consumer that is done with its event takes the task away. -/
theorem tasks_perm_of_done {w : ω} {event : OutboxEvent} {events : List OutboxEvent}
    {before after : List (Run ω)} {left right : List Consumer} {c c' : Consumer}
    (hc : c.event? = some event) (hc' : c'.event? = none) :
    (tasks (before ++ ⟨w, events, left ++ c :: right⟩ :: after)).Perm
      (event :: tasks (before ++ ⟨w, events, left ++ c' :: right⟩ :: after)) := by
  have hold : (tasks (before ++ ⟨w, events, left ++ c :: right⟩ :: after)).Perm
      (events ++ c.event?.toList ++ otherTasks before after left right) := tasks_perm
  have hnew : (tasks (before ++ ⟨w, events, left ++ c' :: right⟩ :: after)).Perm
      (events ++ c'.event?.toList ++ otherTasks before after left right) := tasks_perm
  rw [hc, Option.toList_some] at hold
  rw [hc', Option.toList_none, List.append_nil] at hnew
  refine hold.trans (.trans ?_ (hnew.symm.cons event))
  rw [List.append_assoc]
  exact List.perm_middle

theorem counted_step (h : s.Counted m) (hsound : s.store.Sound) (hretrying : Retrying m s)
    (hm : 0 < m) (hstep : Step config handlers s a s') (hguard : takesFree s a) :
    s'.Counted m := by
  cases hstep with
  | emit hfresh => exact Outbox.Counted.emit h hm hfresh
  | poll => exact h
  | @claim w input skipped delivery =>
    have hfree : ∀ r ∈ candidates input skipped s.store.rows, r.lockedBy = none := hguard
    have hclaim := Outbox.Counted.claim h hsound hfree
    cases delivery with
    | answered =>
      have htasks : ∀ events, tasks (⟨w, events, (config w).consumers events⟩ :: s.runs) =
          events ++ tasks s.runs := by
        intro events
        have hready : ((config w).consumers events).filterMap Consumer.event? = [] := by
          rw [List.filterMap_eq_nil_iff]
          intro c hc
          rw [List.eq_of_mem_replicate hc]
          rfl
        rw [tasks, List.flatMap_cons, Run.tasks, hready, List.append_nil]
        rfl
      rw [← htasks] at hclaim
      exact hclaim
    | refused message => exact h
    | lost message =>
      exact hclaim.mono (List.sublist_append_right _ _).subperm
        (List.sublist_append_right _ _).subperm
  | @take w event events before after left right hruns =>
    rw [System.Counted, hruns] at h
    have htasks : (tasks (before ++ ⟨w, events, left ++ .handling event :: right⟩ ::
        after)).Subperm (tasks (before ++ ⟨w, event :: events, left ++ .ready :: right⟩ ::
          after)) := by
      apply tasks_subperm
      simp only [Consumer.event?, Option.toList_some, Option.toList_none, List.append_nil]
      exact (List.perm_append_singleton event events).subperm
    have hwaiting : (waiting (before ++ ⟨w, event :: events, left ++ .ready :: right⟩ ::
        after)).Perm (event :: waiting (before ++ ⟨w, events, left ++ .handling event :: right⟩ ::
          after)) := by
      rw [waiting_eq, waiting_eq]
      exact List.perm_middle
    rw [System.Counted]
    by_cases hhandler : handlers event.eventType = true
    · rw [if_pos hhandler]
      exact (h.mono htasks (.refl _)).start hwaiting
    · rw [if_neg hhandler]
      exact h.mono htasks ((List.sublist_cons_self event _).subperm.trans hwaiting.symm.subperm)
  | @succeed w event events before after left right processedAt hruns =>
    rw [System.Counted, hruns] at h
    refine h.mono (tasks_subperm (.refl _)) ?_
    rw [waiting_eq, waiting_eq]
  | @fail w event events before after left right message failedAt later hruns =>
    rw [System.Counted, hruns] at h
    refine h.mono (tasks_subperm ?_) ?_
    · obtain he | he := onError_event (config w) event message failedAt later
      · rw [he]
        exact .refl _
      · rw [he, Option.toList_none, List.append_nil]
        exact (List.sublist_append_left _ _).subperm
    · rw [waiting_eq, waiting_eq]
  | @report w event events before after left right report delivery failedAt later hruns =>
    have hrun : (⟨w, events, left ++ .reporting event report :: right⟩ : Run ω) ∈ s.runs := by
      rw [hruns]
      exact List.mem_append_right _ List.mem_cons_self
    have hreport : Consumer.reporting event report ∈ left ++ .reporting event report :: right :=
      List.mem_append_right _ List.mem_cons_self
    have hretry := hretrying _ hrun event
    rw [System.Counted, hruns] at h
    rw [System.Counted, waiting_eq (c := afterReport _ _ _ _ _ _),
      ← waiting_eq (w := w) (c := .reporting event report)]
    have hafter := afterReport_event (config w) event report
      (deliver s.store (execute (config w).workerId event report s.store) delivery).2
      failedAt later
    have htasks : (tasks (before ++ ⟨w, events, left ++ afterReport (config w) event report
        (deliver s.store (execute (config w).workerId event report s.store) delivery).2
        failedAt later :: right⟩ :: after)).Subperm
        (tasks (before ++ ⟨w, events, left ++ .reporting event report :: right⟩ :: after)) := by
      apply tasks_subperm
      obtain ⟨he, -⟩ | he := hafter
      · rw [he]
        exact .refl _
      · rw [he, Option.toList_none, List.append_nil]
        exact (List.sublist_append_left _ _).subperm
    obtain hsame | hexecuted := deliver_cases s.store
      (execute (config w).workerId event report s.store) delivery
    · rw [hsame]
      exact h.mono htasks (.refl _)
    · refine h.execute hsound hexecuted ?_ htasks ?_
      · refine tasks_perm.mem_iff.mpr (List.mem_append_left _ (List.mem_append_right _ ?_))
        exact List.mem_singleton_self event
      · rintro input rfl
        obtain ⟨hattempt, hlimit⟩ := hretry input hreport
        obtain ⟨-, processedAt, he⟩ | he := hafter
        · cases he
        · exact ⟨hattempt, hlimit, tasks_perm_of_done rfl he⟩
  | crash =>
    exact h.mono ((List.filter_sublist.flatMap _).subperm) ((List.filter_sublist.flatMap _).subperm)

/-- In a run whose claims all take rows without a lease, the handler of an event is started at
most as often as the workers' limit says, and an event that is neither processed, quarantined
nor leased has been started at most once for each of its counted attempts. -/
theorem starts_bounded {ω : Type} [DecidableEq ω] {config : ω → WorkerConfig}
    {handlers : JsString → Bool} {m : Nat} (hm : 0 < m)
    (hmax : ∀ w, (config w).maxAttempts.getD 5 ≤ m) {s : System ω}
    (hs : (outbox config handlers).Reaches takesFree s) :
    (∀ id, s.starts.count id ≤ m) ∧
    ∀ r ∈ s.store.rows, r.Open → r.attemptCount < m ∧
      (r.lockedBy = none → s.starts.count r.id ≤ r.attemptCount) := by
  have hinit : ∀ s, s = System.initial ω → s.store.Sound ∧ Retrying m s ∧ s.Counted m := by
    rintro s rfl
    refine ⟨?_, ?_, ?_⟩
    · constructor <;> simp [System.initial]
    · intro run hrun
      cases hrun
    · constructor <;> simp [System.initial, tasks, waiting]
  obtain ⟨-, -, hcounted⟩ := hs.invariant hinit fun s a s' hinv hguard hstep =>
    ⟨sound_step hinv.1 hstep, hinv.2.1.step hstep hmax,
      counted_step hinv.2.2 hinv.1 hinv.2.1 hm hstep hguard⟩
  constructor
  · intro id
    by_cases hid : id ∈ s.starts
    · obtain ⟨r, hr, rfl⟩ := hcounted.startsKnown id hid
      exact (Nat.le_add_right _ _).trans (hcounted.bound r hr)
    · rw [List.count_eq_zero.mpr hid]
      exact Nat.zero_le m
  · intro r hr hopen
    refine ⟨hcounted.attempts r hr hopen, ?_⟩
    intro hfree
    have hstarts := hcounted.counted r hr hopen
    rw [OutboxRow.leases, if_pos hfree] at hstarts
    omega

end System

section Crashes

/-- One worker with the default limit of five attempts. -/
def loneConfig : Unit → WorkerConfig := fun _ => ⟨js "a", none, none, none, none, none, none⟩

def crashEvent : OutboxEvent := ⟨js "e", js "w", js "o", js "blob.ingested", .null, 0, 0⟩

/-- The row of an event after `n` leases, each taken when the one before it has run out. -/
def crashedRow : Nat → OutboxRow
  | 0 => insertRow crashEvent
  | n + 1 => (insertRow crashEvent).lease ((loneConfig ()).claimInput (30001 * n) (30001 * n + 30000))

def polled : Nat → List Int
  | 0 => []
  | n + 1 => 30001 * n :: polled n

/-- The worker has started the handler `n` times and has crashed in it every time. -/
def crashed (n : Nat) : System Unit :=
  ⟨⟨[crashedRow n], []⟩, fun _ => polled n, [], [], List.replicate n (js "e")⟩

theorem polled_le (n : Nat) : ∀ t ∈ polled n, t ≤ 30001 * n := by
  induction n with
  | zero => nofun
  | succ n ih =>
    intro t ht
    obtain rfl | ht := List.mem_cons.mp ht
    · omega
    · have hle := ih t ht
      omega

theorem claim_crashed (n : Nat) :
    claim ((loneConfig ()).claimInput (30001 * n) (30001 * n + 30000)) [] (crashed n).store =
      ((crashed (n + 1)).store, [mapEvent (crashedRow n)]) := by
  have hclaimable : claimable ((loneConfig ()).claimInput (30001 * n) (30001 * n + 30000))
      (crashedRow n) = true := by
    cases n with
    | zero => rfl
    | succ n => simp [claimable, crashedRow, OutboxRow.lease, WorkerConfig.claimInput, loneConfig,
        insertRow, crashEvent]; omega
  have hlease : (crashedRow n).lease ((loneConfig ()).claimInput (30001 * n) (30001 * n + 30000)) =
      crashedRow (n + 1) := by
    cases n <;> rfl
  have hlimit : ((loneConfig ()).claimInput (30001 * n) (30001 * n + 30000)).limit = 25 := rfl
  simp [claim, candidates, crashed, hclaimable, hlease, hlimit]

theorem read_crashed (n : Nat) : (crashed n).read () (30001 * n) =
    { crashed n with readings := fun _ => polled (n + 1) } := by
  rw [System.read]
  congr 1

/-- One more lease, start and crash. -/
theorem crash_cycle {guard : System Unit → Action Unit → Prop} {n : Nat} (hn : n < 1000)
    (hguard : ∀ s a, (∀ w input skipped delivery, a = .claim w input skipped delivery →
      s.store = (crashed n).store) → guard s a)
    (h : (outbox loneConfig fun _ => true).Reaches guard (crashed n)) :
    (outbox loneConfig fun _ => true).Reaches guard (crashed (n + 1)) := by
  have hlease : isoTime ((30001 * n : Int) + (((loneConfig ()).leaseMs.getD 30000 : Nat) : Int)) =
      some (30001 * (n : Int) + 30000) := if_pos (by constructor <;> simp [loneConfig] <;> omega)
  have hpoll : Step loneConfig (fun _ => true) (crashed n) (.poll () (30001 * n)) _ :=
    .poll (polled_le n) hlease
  have hpolled := h.step (hguard _ (.poll () (30001 * n)) fun _ _ _ _ h => by cases h) hpoll
  rw [read_crashed] at hpolled
  have hclaimed := hpolled.step
    (hguard _ (.claim () _ [] .answered) fun _ _ _ _ _ => rfl)
    (@Step.claim _ _ _ _ _ () _ [] .answered [] [] rfl)
  rw [System.claimed, claim_crashed] at hclaimed
  have htake := hclaimed.step (hguard _ (.take () (mapEvent (crashedRow n))) fun _ _ _ _ h => by cases h)
    (@Step.take _ _ _ _ _ () (mapEvent (crashedRow n)) [] [] [] [] [] rfl)
  have hcrash := htake.step (hguard _ (.crash ()) fun _ _ _ _ h => by cases h) .crash
  have hid : (mapEvent (crashedRow n)).id = js "e" := by cases n <;> rfl
  simp only [hid] at hcrash
  exact hcrash

theorem reaches_emitted {guard : System Unit → Action Unit → Prop}
    (hguard : guard (System.initial Unit) (.emit crashEvent)) :
    (outbox loneConfig fun _ => true).Reaches guard (crashed 0) := by
  have hemit : Step loneConfig (fun _ => true) (System.initial Unit) (.emit crashEvent)
      (crashed 0) := .emit nofun
  exact .step (.init rfl) hguard hemit

theorem reachable_crashed (n : Nat) (hn : n ≤ 1000) :
    (outbox loneConfig fun _ => true).Reachable (crashed n) := by
  induction n with
  | zero => exact reaches_emitted trivial
  | succ n ih => exact crash_cycle (by omega) (fun _ _ _ => trivial) (ih (by omega))

theorem starts_bounded_crashed_once : (crashed 1).starts.count (js "e") ≤ 5 := by
  have hs : (outbox loneConfig fun _ => true).Reaches takesFree (crashed 1) := by
    refine crash_cycle (by decide) ?_ (reaches_emitted trivial)
    intro s a hclaim
    cases a with
    | claim w input skipped delivery =>
      intro r hr
      have hmem := (mem_candidates hr).1
      rw [hclaim w input skipped delivery rfl] at hmem
      rw [List.mem_singleton.mp hmem]
      rfl
    | _ => trivial
  exact (starts_bounded (by decide) (fun _ => le_rfl) hs).1 (js "e")

/-- Six crashes start the handler six times and leave the event open, with the limit at five. -/
theorem crashes_exceed_limit : ∃ s, (outbox loneConfig fun _ => true).Reachable s ∧
    (loneConfig ()).maxAttempts.getD 5 < s.starts.count (js "e") ∧
    ∀ r ∈ s.store.rows, r.Open ∧ r.attemptCount = 0 := by
  refine ⟨crashed 6, reachable_crashed 6 (by decide), by decide, ?_⟩
  intro r hr
  rw [List.mem_singleton.mp hr]
  exact ⟨⟨rfl, rfl⟩, rfl⟩

end Crashes

end TrustCore.Outbox
