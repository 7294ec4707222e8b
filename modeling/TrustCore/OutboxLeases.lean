import TrustCore.Outbox

/-!
# Leases of outbox events

A report changes a row only while the row is leased to the worker that sends it, and
every report ends the lease. So a row that is processed or quarantined has no lease, and
the tests that single statements leave out are implied: none of them touches it again.
-/

namespace TrustCore.Outbox

open TrustCore.Utf TrustCore.Runs

/-- Neither processed nor quarantined. -/
def OutboxRow.Open (r : OutboxRow) : Prop := r.processedAt = none ∧ r.quarantinedAt = none

/-- What a worker may do to a row, with a time `t` read off its clock: take a lease that
nobody holds at `t`, or report under a lease of its own that lasts until `t`. -/
inductive RowChange (workerId : JsString) (t : Int) (r : OutboxRow) : OutboxRow → Prop
  | claim {input : ClaimInput} (hworker : input.workerId = workerId) (hopen : r.Open)
      (hfree : ∀ lockedUntil, r.lockedUntil = some lockedUntil → lockedUntil < t) :
    RowChange workerId t r (r.lease input)
  | report {report : Report} (hreading : report.reading = t) (hopen : r.Open)
      (hby : r.lockedBy = some workerId)
      (hheld : ∃ lockedUntil, r.lockedUntil = some lockedUntil ∧ t ≤ lockedUntil) :
    RowChange workerId t r (report.set r)

section Rows

variable {store store' : Store} {input : ClaimInput} {skipped : List JsString}
  {workerId : JsString} {event : OutboxEvent} {report : Report} {r r' : OutboxRow}

/-- The invariant of the tables. -/
structure Store.Sound (store : Store) : Prop where
  ids : (store.rows.map (·.id)).Nodup
  once : ∀ r ∈ store.rows, r.processedAt = none ∨ r.quarantinedAt = none
  released : ∀ r ∈ store.rows, r.lockedBy ≠ none → r.Open
  incidents : ∀ r ∈ store.rows,
    store.incidents.countP (fun i => i.eventId = r.id) = if r.quarantinedAt = none then 0 else 1
  known : ∀ i ∈ store.incidents, ∃ r ∈ store.rows, r.id = i.eventId

theorem eq_of_id (hids : (store.rows.map (·.id)).Nodup) (hr : r ∈ store.rows)
    (hr' : r' ∈ store.rows) (h : r.id = r'.id) : r = r' :=
  List.inj_on_of_nodup_map hids hr hr' h

theorem RowChange.id {t : Int} (h : RowChange workerId t r r') : r'.id = r.id := by
  cases h with
  | claim => rfl
  | report => exact set_id

theorem RowChange.once {t : Int} (h : RowChange workerId t r r') :
    r'.processedAt = none ∨ r'.quarantinedAt = none := by
  cases h with
  | claim _ hopen _ => exact .inl hopen.1
  | @report report _ hopen _ _ =>
    cases report with
    | complete processedAt => exact .inr hopen.2
    | retry input => exact .inl hopen.1
    | quarantine input => exact .inl hopen.1

theorem RowChange.released {t : Int} (h : RowChange workerId t r r') (hlocked : r'.lockedBy ≠ none) :
    r'.Open := by
  cases h with
  | claim _ hopen _ => exact hopen
  | @report report _ _ _ _ =>
    cases report with
    | complete processedAt => exact absurd rfl hlocked
    | retry input => exact absurd rfl hlocked
    | quarantine input => exact absurd rfl hlocked

/-- A claim leases open rows without a lease at its time. -/
theorem claim_rows (input : ClaimInput) (skipped : List JsString) (hids : (store.rows.map (·.id)).Nodup) :
    ∃ f : OutboxRow → OutboxRow, (claim input skipped store).1.rows = store.rows.map f ∧
      ∀ r ∈ store.rows, f r = r ∨ claimable input r = true ∧ f r = r.lease input := by
  refine ⟨_, rfl, ?_⟩
  intro r hr
  by_cases htaken : (candidates input skipped store.rows).any (·.id == r.id) = true
  · obtain ⟨c, hc, hid⟩ := List.any_eq_true.mp htaken
    obtain ⟨hmem, hclaimable⟩ := mem_candidates hc
    rw [eq_of_id hids hmem hr (beq_iff_eq.mp hid)] at hclaimable
    exact .inr ⟨hclaimable, if_pos htaken⟩
  · exact .inl (if_neg htaken)

/-- Row changes keep what the invariant says about the rows. -/
theorem Store.Sound.rows {f : OutboxRow → OutboxRow} (h : store.Sound)
    (hchange : ∀ r ∈ store.rows, f r = r ∨ ∃ workerId t, RowChange workerId t r (f r)) :
    (∀ r ∈ store.rows, (f r).id = r.id) ∧ ((store.rows.map f).map (·.id)).Nodup ∧
      (∀ r ∈ store.rows.map f, r.processedAt = none ∨ r.quarantinedAt = none) ∧
      ∀ r ∈ store.rows.map f, r.lockedBy ≠ none → r.Open := by
  have hid : ∀ r ∈ store.rows, (f r).id = r.id := by
    intro r hr
    obtain hsame | ⟨workerId, t, hchange⟩ := hchange r hr
    · rw [hsame]
    · exact hchange.id
  refine ⟨hid, ?_, ?_, ?_⟩
  · have hmap : (store.rows.map f).map (·.id) = store.rows.map (·.id) := by
      rw [List.map_map]
      exact List.map_congr_left hid
    rw [hmap]
    exact h.ids
  · intro r' hr'
    obtain ⟨r, hr, rfl⟩ := List.mem_map.mp hr'
    obtain hsame | ⟨workerId, t, hchange⟩ := hchange r hr
    · rw [hsame]
      exact h.once r hr
    · exact hchange.once
  · intro r' hr' hlocked
    obtain ⟨r, hr, rfl⟩ := List.mem_map.mp hr'
    obtain hsame | ⟨workerId, t, hchange⟩ := hchange r hr
    · rw [hsame] at hlocked ⊢
      exact h.released r hr hlocked
    · exact hchange.released hlocked

theorem RowChange.of_claimable (h : claimable input r = true) :
    RowChange input.workerId input.now r (r.lease input) := by
  obtain ⟨hprocessed, hquarantined, -, hfree⟩ := claimable_cases h
  exact .claim rfl ⟨hprocessed, hquarantined⟩ hfree

theorem Store.Sound.rowChange (h : store.Sound) (hr : r ∈ store.rows)
    (hleased : leased workerId event.id report.reading r = true) :
    RowChange workerId report.reading r (report.set r) := by
  obtain ⟨-, hby, -, hheld⟩ := leased_cases hleased
  refine .report rfl (h.released r hr ?_) hby hheld
  rw [hby]
  exact Option.some_ne_none workerId

theorem Store.Sound.emit (h : store.Sound) (hfresh : ∀ r ∈ store.rows, r.id ≠ event.id) :
    Store.Sound { store with rows := store.rows ++ [insertRow event] } := by
  constructor
  · rw [List.map_append, List.nodup_append]
    refine ⟨h.ids, List.nodup_singleton _, ?_⟩
    intro id hid id' hid'
    obtain ⟨r, hr, rfl⟩ := List.mem_map.mp hid
    rw [List.mem_singleton.mp hid']
    exact hfresh r hr
  · intro r hr
    obtain hr | hr := List.mem_append.mp hr
    · exact h.once r hr
    · rw [List.mem_singleton.mp hr]
      exact .inl rfl
  · intro r hr hlocked
    obtain hr | hr := List.mem_append.mp hr
    · exact h.released r hr hlocked
    · rw [List.mem_singleton.mp hr]
      exact ⟨rfl, rfl⟩
  · intro r hr
    obtain hr | hr := List.mem_append.mp hr
    · exact h.incidents r hr
    · rw [List.mem_singleton.mp hr, List.countP_eq_zero.mpr]
      · rfl
      · intro i hi he
        obtain ⟨r, hr, hid⟩ := h.known i hi
        exact hfresh r hr (hid.trans (of_decide_eq_true he))
  · intro i hi
    obtain ⟨r, hr, hid⟩ := h.known i hi
    exact ⟨r, List.mem_append_left _ hr, hid⟩

theorem Store.Sound.claim (h : store.Sound) : (claim input skipped store).1.Sound := by
  obtain ⟨f, hrows, hf⟩ := claim_rows input skipped h.ids
  obtain ⟨hid, hids, honce, hreleased⟩ := h.rows (f := f) (by
    intro r hr
    obtain hsame | ⟨hclaimable, hlease⟩ := hf r hr
    · exact .inl hsame
    · rw [hlease]
      exact .inr ⟨_, _, .of_claimable hclaimable⟩)
  rw [← hrows] at hids honce hreleased
  refine ⟨hids, honce, hreleased, ?_, ?_⟩
  · intro r' hr'
    rw [hrows] at hr'
    obtain ⟨r, hr, rfl⟩ := List.mem_map.mp hr'
    have hquarantined : (f r).quarantinedAt = r.quarantinedAt := by
      obtain hsame | ⟨-, hlease⟩ := hf r hr
      · rw [hsame]
      · rw [hlease]
        rfl
    rw [hid r hr, hquarantined]
    exact h.incidents r hr
  · intro i hi
    obtain ⟨r, hr, he⟩ := h.known i hi
    refine ⟨f r, ?_, (hid r hr).trans he⟩
    rw [hrows]
    exact List.mem_map_of_mem hr

theorem Store.Sound.execute (h : store.Sound)
    (hexecute : execute workerId event report store = some store') : store'.Sound := by
  obtain ⟨row, hrow, hleased, hrows, hincidents⟩ := execute_cases hexecute
  obtain ⟨hevent, hby, -, -⟩ := leased_cases hleased
  have hopen : row.Open := h.released row hrow (by
    rw [hby]
    exact Option.some_ne_none workerId)
  obtain ⟨hid, hids, honce, hreleased⟩ := h.rows
    (f := fun r => if leased workerId event.id report.reading r then report.set r else r) (by
      intro r hr
      by_cases hr' : leased workerId event.id report.reading r = true
      · rw [if_pos hr']
        exact .inr ⟨_, _, h.rowChange hr hr'⟩
      · exact .inl (if_neg hr'))
  rw [← hrows] at hids honce hreleased
  refine ⟨hids, honce, hreleased, ?_, ?_⟩
  · intro r' hr'
    rw [hrows] at hr'
    obtain ⟨r, hr, rfl⟩ := List.mem_map.mp hr'
    have hcount := h.incidents r hr
    rw [hid r hr, hincidents, List.countP_append, hcount]
    by_cases hsame : r.id = event.id
    · -- The row of the event is the one that the report is about.
      have hrow' : r = row := eq_of_id h.ids hr hrow (hsame.trans hevent.symm)
      rw [hrow', if_pos hleased, if_pos hopen.2]
      cases report with
      | complete processedAt => exact (if_pos hopen.2).symm
      | retry input => exact (if_pos hopen.2).symm
      | quarantine input => simp [Report.incidents, incident, Report.set, hevent]
    · have hleft : leased workerId event.id report.reading r ≠ true :=
        fun hr' => hsame (leased_cases hr').1
      rw [if_neg hleft]
      cases report with
      | complete processedAt => rfl
      | retry input => rfl
      | quarantine input => simp [Report.incidents, incident, Ne.symm hsame]
  · intro i hi
    rw [hincidents] at hi
    have hmem : ∀ r ∈ store.rows, ∃ r' ∈ store'.rows, r'.id = r.id := by
      intro r hr
      rw [hrows]
      exact ⟨_, List.mem_map_of_mem hr, hid r hr⟩
    obtain hi | hi := List.mem_append.mp hi
    · obtain ⟨r, hr, he⟩ := h.known i hi
      obtain ⟨r', hr', he'⟩ := hmem r hr
      exact ⟨r', hr', he'.trans he⟩
    · obtain ⟨r', hr', he'⟩ := hmem row hrow
      refine ⟨r', hr', ?_⟩
      cases report with
      | complete processedAt => cases hi
      | retry input => cases hi
      | quarantine input =>
        rw [List.mem_singleton.mp hi]
        exact he'.trans hevent

end Rows

section System

variable {ω : Type} [DecidableEq ω] {config : ω → WorkerConfig} {handlers : JsString → Bool}
  {s s' : System ω} {a : Action ω}

/-- What a step may do to the tables. -/
theorem store_cases (h : Step config handlers s a s') :
    s'.store = s.store ∨
    (∃ event, (∀ r ∈ s.store.rows, r.id ≠ event.id) ∧
      s'.store = { s.store with rows := s.store.rows ++ [insertRow event] }) ∨
    (∃ w input skipped, (w, input) ∈ s.polls ∧ s'.store = (claim input skipped s.store).1) ∨
    ∃ run ∈ s.runs, ∃ event report, Consumer.reporting event report ∈ run.consumers ∧
      execute (config run.worker).workerId event report s.store = some s'.store := by
  cases h with
  | emit hfresh => exact .inr (.inl ⟨_, hfresh, rfl⟩)
  | poll => exact .inl rfl
  | @claim w input skipped delivery before after hpolls =>
    have hmem : (w, input) ∈ s.polls := by
      rw [hpolls]
      exact List.mem_append_right _ List.mem_cons_self
    cases delivery with
    | answered => exact .inr (.inr (.inl ⟨w, input, skipped, hmem, rfl⟩))
    | refused message => exact .inl rfl
    | lost message => exact .inr (.inr (.inl ⟨w, input, skipped, hmem, rfl⟩))
  | take => exact .inl rfl
  | succeed => exact .inl rfl
  | fail => exact .inl rfl
  | @report w event events before after left right report delivery failedAt later hruns =>
    obtain hsame | hexecuted := deliver_cases s.store
      (execute (config w).workerId event report s.store) delivery
    · exact .inl hsame
    · refine .inr (.inr (.inr ⟨⟨w, events, left ++ .reporting event report :: right⟩, ?_, event,
        report, List.mem_append_right _ List.mem_cons_self, hexecuted⟩))
      rw [hruns]
      exact List.mem_append_right _ List.mem_cons_self
  | crash => exact .inl rfl

@[simp] theorem read_readings {w : ω} {t : Int} :
    (s.read w t).readings = Function.update s.readings w (t :: s.readings w) := rfl

theorem mem_readings_read {w v : ω} {t t' : Int} (h : t' ∈ s.readings v) :
    t' ∈ (s.read w t).readings v := by
  rw [read_readings, Function.update_apply]
  split
  · next hv =>
    rw [hv] at h
    exact List.mem_cons_of_mem t h
  · exact h

theorem self_mem_readings {w : ω} {t : Int} : t ∈ (s.read w t).readings w := by
  rw [read_readings, Function.update_self]
  exact List.mem_cons_self

/-- Every time in a statement under way was read off the clock of its worker. -/
structure Timed (config : ω → WorkerConfig) (s : System ω) : Prop where
  polls : ∀ p ∈ s.polls, p.2.workerId = (config p.1).workerId ∧ p.2.now ∈ s.readings p.1
  reports : ∀ run ∈ s.runs, ∀ event report, Consumer.reporting event report ∈ run.consumers →
    report.reading ∈ s.readings run.worker

/-- What an error makes a consumer report. -/
theorem onError_cases {config : WorkerConfig} {event event' : OutboxEvent} {message : JsString}
    {failedAt later : Int} {report : Report}
    (h : Consumer.reporting event' report = onError config event message failedAt later) :
    report.reading = failedAt ∧ ∀ input, report = .retry input →
      input.attemptCount = event'.attemptCount + 1 ∧
        input.attemptCount < config.maxAttempts.getD 5 := by
  rw [onError] at h
  split at h
  · cases h
    exact ⟨rfl, nofun⟩
  · next hattempts =>
    split at h
    · cases h
    · cases h
      refine ⟨rfl, ?_⟩
      intro input he
      cases he
      exact ⟨rfl, Nat.lt_of_not_le hattempts⟩

theorem afterReport_cases {config : WorkerConfig} {event event' : OutboxEvent}
    {error : Option JsString} {failedAt later : Int} {report report' : Report}
    (h : Consumer.reporting event' report' = afterReport config event report error failedAt later) :
    report'.reading = failedAt ∧ ∀ input, report' = .retry input →
      input.attemptCount = event'.attemptCount + 1 ∧
        input.attemptCount < config.maxAttempts.getD 5 := by
  unfold afterReport at h
  split at h
  · cases h
  · exact onError_cases h
  · cases h

omit [DecidableEq ω] in
/-- The consumers after one of them has been replaced. -/
theorem mem_replace {w : ω} {events events' : List OutboxEvent} {before after runs : List (Run ω)}
    {left right : List Consumer} {c c' d : Consumer} {run : Run ω}
    (hruns : runs = before ++ ⟨w, events, left ++ c :: right⟩ :: after)
    (hrun : run ∈ before ++ ⟨w, events', left ++ c' :: right⟩ :: after) (hd : d ∈ run.consumers) :
    (∃ run₀ ∈ runs, run₀.worker = run.worker ∧ d ∈ run₀.consumers) ∨ run.worker = w ∧ d = c' := by
  subst hruns
  obtain hrun | hrun := List.mem_append.mp hrun
  · exact .inl ⟨run, List.mem_append_left _ hrun, rfl, hd⟩
  · obtain rfl | hrun := List.mem_cons.mp hrun
    · have hold : ∀ d ∈ left ++ right, d ∈ left ++ c :: right := by
        intro d hd
        obtain hd | hd := List.mem_append.mp hd
        · exact List.mem_append_left _ hd
        · exact List.mem_append_right _ (List.mem_cons_of_mem _ hd)
      obtain hd | hd := List.mem_append.mp hd
      · exact .inl ⟨_, List.mem_append_right _ List.mem_cons_self, rfl,
          hold d (List.mem_append_left _ hd)⟩
      · obtain hd | hd := List.mem_cons.mp hd
        · exact .inr ⟨rfl, hd⟩
        · exact .inl ⟨_, List.mem_append_right _ List.mem_cons_self, rfl,
            hold d (List.mem_append_right _ hd)⟩
    · exact .inl ⟨run, List.mem_append_right _ (List.mem_cons_of_mem _ hrun), rfl, hd⟩

/-- A report after a step was under way before, or was composed in it: with a time of the
worker's clock, and as a retry only while attempts are left. -/
theorem reports_cases (h : Step config handlers s a s') {run : Run ω} (hrun : run ∈ s'.runs)
    {event : OutboxEvent} {report : Report} (hreport : .reporting event report ∈ run.consumers) :
    (∃ run₀ ∈ s.runs, run₀.worker = run.worker ∧ .reporting event report ∈ run₀.consumers) ∨
    report.reading ∈ s'.readings run.worker ∧ ∀ input, report = .retry input →
      input.attemptCount = event.attemptCount + 1 ∧
        input.attemptCount < (config run.worker).maxAttempts.getD 5 := by
  cases h with
  | emit => exact .inl ⟨run, hrun, rfl, hreport⟩
  | poll => exact .inl ⟨run, hrun, rfl, hreport⟩
  | @claim w input skipped delivery =>
    cases delivery with
    | answered =>
      obtain rfl | hrun := List.mem_cons.mp hrun
      · cases List.eq_of_mem_replicate hreport
      · exact .inl ⟨run, hrun, rfl, hreport⟩
    | refused message => exact .inl ⟨run, hrun, rfl, hreport⟩
    | lost message => exact .inl ⟨run, hrun, rfl, hreport⟩
  | take hruns =>
    obtain hold | ⟨-, he⟩ := mem_replace hruns hrun hreport
    · exact .inl hold
    · cases he
  | succeed hruns =>
    obtain hold | ⟨rfl, he⟩ := mem_replace hruns hrun hreport
    · exact .inl hold
    · cases he
      exact .inr ⟨self_mem_readings, nofun⟩
  | fail hruns =>
    obtain hold | ⟨rfl, he⟩ := mem_replace hruns hrun hreport
    · exact .inl hold
    · obtain ⟨hreading, hretry⟩ := onError_cases he
      rw [hreading]
      exact .inr ⟨mem_readings_read self_mem_readings, hretry⟩
  | report hruns =>
    obtain hold | ⟨rfl, he⟩ := mem_replace hruns hrun hreport
    · exact .inl hold
    · obtain ⟨hreading, hretry⟩ := afterReport_cases he
      rw [hreading]
      exact .inr ⟨mem_readings_read self_mem_readings, hretry⟩
  | crash => exact .inl ⟨run, (List.mem_filter.mp hrun).1, rfl, hreport⟩

theorem readings_grow (h : Step config handlers s a s') {w : ω} {t : Int}
    (ht : t ∈ s.readings w) : t ∈ s'.readings w := by
  cases h with
  | emit => exact ht
  | poll => exact mem_readings_read ht
  | @claim w input skipped delivery => cases delivery <;> exact ht
  | take => exact ht
  | succeed => exact mem_readings_read ht
  | fail => exact mem_readings_read (mem_readings_read ht)
  | report => exact mem_readings_read (mem_readings_read ht)
  | crash => exact ht

theorem polls_cases (h : Step config handlers s a s') {p : ω × ClaimInput} (hp : p ∈ s'.polls) :
    p ∈ s.polls ∨ p.2.workerId = (config p.1).workerId ∧ p.2.now ∈ s'.readings p.1 := by
  cases h with
  | emit => exact .inl hp
  | poll =>
    obtain rfl | hp := List.mem_cons.mp hp
    · exact .inr ⟨rfl, self_mem_readings⟩
    · exact .inl hp
  | @claim w input skipped delivery before after hpolls =>
    left
    have hp' : p ∈ before ++ after := by cases delivery <;> exact hp
    rw [hpolls]
    obtain hp | hp := List.mem_append.mp hp'
    · exact List.mem_append_left _ hp
    · exact List.mem_append_right _ (List.mem_cons_of_mem _ hp)
  | take => exact .inl hp
  | succeed => exact .inl hp
  | fail => exact .inl hp
  | report => exact .inl hp
  | crash => exact .inl (List.mem_filter.mp hp).1

theorem Timed.step (h : Timed config s) (hstep : Step config handlers s a s') :
    Timed config s' := by
  constructor
  · intro p hp
    obtain hp | hnew := polls_cases hstep hp
    · obtain ⟨hworker, hnow⟩ := h.polls p hp
      exact ⟨hworker, readings_grow hstep hnow⟩
    · exact hnew
  · intro run hrun event report hreport
    obtain ⟨run₀, hrun₀, hworker, hreport₀⟩ | ⟨hreading, -⟩ := reports_cases hstep hrun hreport
    · rw [← hworker]
      exact readings_grow hstep (h.reports run₀ hrun₀ event report hreport₀)
    · exact hreading

theorem sound_step (h : s.store.Sound) (hstep : Step config handlers s a s') :
    s'.store.Sound := by
  obtain hsame | ⟨event, hfresh, hemit⟩ | ⟨w, input, skipped, -, hclaim⟩ | ⟨run, -, event, report, -,
    hexecute⟩ := store_cases hstep
  · rw [hsame]
    exact h
  · rw [hemit]
    exact h.emit hfresh
  · rw [hclaim]
    exact h.claim
  · exact h.execute hexecute

/-- Every reachable state has sound tables and timed statements. -/
theorem sound_of_reachable (h : (outbox config handlers).Reachable s) :
    s.store.Sound ∧ Timed config s := by
  have hinit : ∀ s, s = System.initial ω → s.store.Sound ∧ Timed config s := by
    rintro s rfl
    constructor
    · constructor <;> simp [System.initial]
    · constructor <;> simp [System.initial]
  have hsound := h.invariant hinit fun s a s' hinv hstep =>
    ⟨sound_step hinv.1 hstep, hinv.2.step hstep⟩
  exact hsound

/-- A step changes rows as their workers may, and keeps every other row. -/
theorem step_rows (hsound : s.store.Sound) (htimed : Timed config s)
    (hstep : Step config handlers s a s') :
    ∀ r ∈ s.store.rows, ∃ r' ∈ s'.store.rows, r' = r ∨
      ∃ w, ∃ t ∈ s.readings w, RowChange (config w).workerId t r r' := by
  intro r hr
  obtain hsame | ⟨event, -, hemit⟩ | ⟨w, input, skipped, hpoll, hclaim⟩ | ⟨run, hrun, event, report,
    hreport, hexecute⟩ := store_cases hstep
  · exact ⟨r, hsame ▸ hr, .inl rfl⟩
  · rw [hemit]
    exact ⟨r, List.mem_append_left _ hr, .inl rfl⟩
  · obtain ⟨f, hrows, hf⟩ := claim_rows input skipped hsound.ids
    obtain ⟨hworker, hnow⟩ := htimed.polls _ hpoll
    rw [hclaim, hrows]
    refine ⟨f r, List.mem_map_of_mem hr, ?_⟩
    obtain hkept | ⟨hclaimable, hlease⟩ := hf r hr
    · exact .inl hkept
    · refine .inr ⟨w, input.now, hnow, ?_⟩
      rw [hlease, ← hworker]
      exact .of_claimable hclaimable
  · obtain ⟨-, -, -, hrows, -⟩ := execute_cases hexecute
    rw [hrows]
    refine ⟨_, List.mem_map_of_mem hr, ?_⟩
    by_cases hleased : leased (config run.worker).workerId event.id report.reading r = true
    · rw [if_pos hleased]
      exact .inr ⟨run.worker, _, htimed.reports run hrun event report hreport,
        hsound.rowChange hr hleased⟩
    · exact .inl (if_neg hleased)

/-- In every reachable state no event is both processed and quarantined, one that is either
has no lease, and a quarantined one has one incident. A step changes no row that is processed
or quarantined; another row changes by a lease where its last one has run out for the worker
that takes it, or by a report of the worker whose lease it is, before the lease runs out. -/
theorem leases_respected {ω : Type} [DecidableEq ω] {config : ω → WorkerConfig}
    {handlers : JsString → Bool} (hids : Function.Injective fun w => (config w).workerId)
    {s : System ω} (hs : (outbox config handlers).Reachable s) :
    (s.store.rows.map (·.id)).Nodup ∧
    (∀ r ∈ s.store.rows, (r.processedAt = none ∨ r.quarantinedAt = none) ∧
      (r.lockedBy ≠ none → r.Open) ∧
      s.store.incidents.countP (fun i => i.eventId = r.id) =
        if r.quarantinedAt = none then 0 else 1) ∧
    ∀ a s', Step config handlers s a s' → ∀ r ∈ s.store.rows, ∃ r' ∈ s'.store.rows,
      r'.id = r.id ∧ (r' = r ∨ r.Open ∧ ∃ w, ∃ t ∈ s.readings w,
        ((∀ lockedUntil, r.lockedUntil = some lockedUntil → lockedUntil < t) ∧
          ∃ leaseUntil, r' = { r with
            lockedBy := some (config w).workerId, lockedUntil := some leaseUntil }) ∨
        ((∀ v, r.lockedBy = some (config v).workerId ↔ v = w) ∧
          (∃ lockedUntil, r.lockedUntil = some lockedUntil ∧ t ≤ lockedUntil) ∧
          ∃ report : Report, report.reading = t ∧ r' = report.set r)) := by
  obtain ⟨hsound, htimed⟩ := sound_of_reachable hs
  refine ⟨hsound.ids, ?_, ?_⟩
  · intro r hr
    exact ⟨hsound.once r hr, hsound.released r hr, hsound.incidents r hr⟩
  · intro a s' hstep r hr
    obtain ⟨r', hr', rfl | ⟨w, t, ht, hchange⟩⟩ := step_rows hsound htimed hstep r hr
    · exact ⟨r', hr', rfl, .inl rfl⟩
    · refine ⟨r', hr', hchange.id, .inr ?_⟩
      cases hchange with
      | @claim input hworker hopen hfree =>
        refine ⟨hopen, w, t, ht, .inl ⟨hfree, input.leaseUntil, ?_⟩⟩
        rw [OutboxRow.lease, hworker]
      | @report report hreading hopen hby hheld =>
        refine ⟨hopen, w, t, ht, .inr ⟨?_, hheld, report, hreading, rfl⟩⟩
        intro v
        rw [hby]
        constructor
        · intro he
          exact (hids (Option.some.inj he)).symm
        · rintro rfl
          rfl

/-- Two workers. -/
def pairConfig (w : Bool) : WorkerConfig :=
  ⟨if w then js "a" else js "b", none, none, none, none, none, none⟩

def pairEvent : OutboxEvent := ⟨js "e", js "w", js "o", js "blob.ingested", .null, 0, 0⟩

/-- The event's row after the claim of a worker at `now`, with the default lease. -/
def leasedRow (w : Bool) (now : Int) : OutboxRow :=
  (insertRow pairEvent).lease ((pairConfig w).claimInput now (now + 30000))

/-- Worker `a` has claimed the event and has started its handler. -/
def firstTaken : System Bool :=
  { (System.initial Bool).read true 0 with
    store := ⟨[leasedRow true 0], []⟩
    runs := [⟨true, [], [.handling pairEvent]⟩]
    starts := [pairEvent.id] }

/-- The lease of `a` has run out and `b` has taken over; both handlers have ended, and both
workers are about to report. -/
def contested : System Bool :=
  { ((firstTaken.read false 30001).read true 30002).read false 30002 with
    store := ⟨[leasedRow false 30001], []⟩
    runs := [⟨false, [], [.reporting pairEvent (.complete 30002)]⟩,
      ⟨true, [], [.reporting pairEvent (.complete 30002)]⟩]
    starts := [pairEvent.id, pairEvent.id] }

/-- The report of `a` has been refused and that of `b` has gone through. -/
def settled : System Bool :=
  { (((contested.read true 30003).read true 30003).read false 30003).read false 30003 with
    store := ⟨[Report.set (.complete 30002) (leasedRow false 30001)], []⟩
    runs := [⟨false, [], [.ready]⟩,
      ⟨true, [], [.reporting pairEvent (.retry ⟨1, 31003, 30003,
        js "Outbox lease was lost or event was already handled."⟩)]⟩] }

theorem claim_pair (w : Bool) {now : Int} {r : OutboxRow}
    (hclaimable : claimable ((pairConfig w).claimInput now (now + 30000)) r = true)
    (hlease : r.lease ((pairConfig w).claimInput now (now + 30000)) = leasedRow w now)
    (hevent : mapEvent r = pairEvent) :
    claim ((pairConfig w).claimInput now (now + 30000)) [] ⟨[r], []⟩ =
      (⟨[leasedRow w now], []⟩, [pairEvent]) := by
  have hlimit : ((pairConfig w).claimInput now (now + 30000)).limit = 25 := rfl
  simp [claim, candidates, hclaimable, hlease, hlimit, hevent]

/-- A claim that is answered, in a run of the two workers. -/
theorem reachable_claimed {s : System Bool} {w : Bool} {input : ClaimInput} {store' : Store}
    {events : List OutboxEvent} {before after : List (Bool × ClaimInput)}
    (hs : (outbox pairConfig fun _ => true).Reachable s)
    (hpolls : s.polls = before ++ (w, input) :: after)
    (hclaim : claim input [] s.store = (store', events)) :
    (outbox pairConfig fun _ => true).Reachable { s with
      store := store'
      polls := before ++ after
      runs := ⟨w, events, (pairConfig w).consumers events⟩ :: s.runs } := by
  have hstep := hs.step (@Step.claim _ _ _ _ _ w _ [] .answered _ _ hpolls)
  rw [System.claimed, hclaim] at hstep
  exact hstep

theorem reachable_firstTaken : (outbox pairConfig fun _ => true).Reachable firstTaken := by
  have hemit : Step pairConfig (fun _ => true) (System.initial Bool) (.emit pairEvent)
      { System.initial Bool with store := ⟨[insertRow pairEvent], []⟩ } := .emit nofun
  have hs : (outbox pairConfig fun _ => true).Reachable
      { System.initial Bool with store := ⟨[insertRow pairEvent], []⟩ } :=
    Machine.Reachable.step (.init rfl) hemit
  have hpolled := hs.step
    (@Step.poll _ _ pairConfig _ _ true 0 30000 (fun _ h => absurd h List.not_mem_nil) rfl)
  have hclaimed := @reachable_claimed _ true _ _ _ [] [] hpolled rfl (claim_pair true rfl rfl rfl)
  exact hclaimed.step (@Step.take _ _ _ _ _ true pairEvent [] [] [] [] [] rfl)

theorem reachable_contested : (outbox pairConfig fun _ => true).Reachable contested := by
  have hpolled := reachable_firstTaken.step (@Step.poll _ _ pairConfig (fun _ => true) _ false
    30001 60001 (fun _ h => absurd h List.not_mem_nil) rfl)
  have hclaimed := @reachable_claimed _ false _ _ _ [] [] hpolled rfl
    (claim_pair false rfl rfl rfl)
  have htaken := hclaimed.step (@Step.take _ _ _ _ _ false pairEvent [] []
    [⟨true, [], [.handling pairEvent]⟩] [] [] rfl)
  have hfirst := htaken.step (@Step.succeed _ _ _ _ _ true pairEvent []
    [⟨false, [], [.handling pairEvent]⟩] [] [] [] 30002 rfl rfl
    (show ∀ t ∈ [0], t ≤ 30002 by decide))
  exact hfirst.step (@Step.succeed _ _ _ _ _ false pairEvent [] []
    [⟨true, [], [.reporting pairEvent (.complete 30002)]⟩] [] [] 30002 rfl rfl
    (show ∀ t ∈ [30001], t ≤ 30002 by decide))

/-- The report of `a`, whose lease `b` has taken over, is refused, and that of `b` goes through. -/
theorem contested_reports : ∃ late,
    Step pairConfig (fun _ => true) contested
      (.report true pairEvent (.complete 30002) .answered 30003 30003) late ∧
    late.store = contested.store ∧
    Step pairConfig (fun _ => true) late
      (.report false pairEvent (.complete 30002) .answered 30003 30003) settled := by
  refine ⟨_, @Step.report _ _ _ _ _ true pairEvent []
    [⟨false, [], [.reporting pairEvent (.complete 30002)]⟩] [] [] [] (.complete 30002) .answered
    30003 30003 rfl (show ∀ t ∈ [30002, 0], t ≤ 30003 by decide) le_rfl, rfl, ?_⟩
  exact @Step.report _ _ _ _ _ false pairEvent [] []
    [⟨true, [], [.reporting pairEvent (.retry ⟨1, 31003, 30003,
      js "Outbox lease was lost or event was already handled."⟩)]⟩] [] [] (.complete 30002)
    .answered 30003 30003 rfl (show ∀ t ∈ [30002, 30001], t ≤ 30003 by decide) le_rfl

theorem leases_respected_takeover :
    (∀ a s', Step pairConfig (fun _ => true) contested a s' → ∃ r' ∈ s'.store.rows,
      r' = leasedRow false 30001 ∨ ∃ report : Report, r' = report.set (leasedRow false 30001)) ∧
    ∃ late, Step pairConfig (fun _ => true) contested
      (.report true pairEvent (.complete 30002) .answered 30003 30003) late ∧
    late.store = contested.store ∧
    Step pairConfig (fun _ => true) late
      (.report false pairEvent (.complete 30002) .answered 30003 30003) settled ∧
    ∀ a s', Step pairConfig (fun _ => true) settled a s' →
      Report.set (.complete 30002) (leasedRow false 30001) ∈ s'.store.rows := by
  have hids : Function.Injective fun w => (pairConfig w).workerId := by
    intro v w h
    cases v <;> cases w <;> first | rfl | exact absurd h (by decide)
  obtain ⟨late, hlate, hkept, hsettle⟩ := contested_reports
  have hsettled := (reachable_contested.step hlate).step hsettle
  constructor
  · intro a s' hstep
    obtain ⟨-, -, hrows⟩ := leases_respected hids reachable_contested
    obtain ⟨r', hr', -, rfl | ⟨-, w, t, ht, ⟨hfree, -⟩ | ⟨-, -, report, -, rfl⟩⟩⟩ :=
      hrows a s' hstep (leasedRow false 30001) List.mem_cons_self
    · exact ⟨_, hr', .inl rfl⟩
    · -- the lease of `b` lasts longer than either worker's clock has run
      have hlast : t ≤ 30002 := by
        cases w with
        | true => exact (show ∀ t ∈ [(30002 : Int), 0], t ≤ 30002 by decide) t ht
        | false => exact (show ∀ t ∈ [(30002 : Int), 30001], t ≤ 30002 by decide) t ht
      have hover : (60001 : Int) < t := hfree 60001 rfl
      omega
    · exact ⟨_, hr', .inr ⟨report, rfl⟩⟩
  · refine ⟨late, hlate, hkept, hsettle, ?_⟩
    intro a s' hstep
    obtain ⟨-, -, hrows⟩ := leases_respected hids hsettled
    obtain ⟨r', hr', -, rfl | ⟨hopen, -⟩⟩ := hrows a s' hstep _ List.mem_cons_self
    · exact hr'
    · cases hopen.1

end System

end TrustCore.Outbox
