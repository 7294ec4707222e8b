import TrustCore.HistoryRuns

/-!
# Deletion and restoration

One call at a time. `deleteResource` leaves the head where it is and opens a
tombstone over it; `restoreResource` writes the revision the tombstone names on top
of the head and closes the tombstone. `createRevision` sets the status to active
and knows nothing of tombstones, so it has to stay off deleted resources: as long as
it does, a resource is deleted exactly when it has one open tombstone, and that
tombstone names its head.
-/

namespace TrustCore.History

open TrustCore.Utf TrustCore.Json TrustCore.Columns TrustCore.Programs TrustCore.AuditLog
open TrustCore.Runs
open TrustCore.Verification (Snapshot verifyTombstone)

def mismatchCode : JsString := js "TOMBSTONE_STATUS_MISMATCH"

/-- The open tombstones of a resource. -/
def openOf (db : Db) (res : Resource) : List Tombstone :=
  db.tombstones.filter fun t =>
    t.isOpen && t.workspaceId == res.workspaceId && t.subjectId == res.id

/-- Calls that each have the database to themselves; one that throws changes nothing. -/
def atomicCalls (localeLe : JsString → JsString → Bool) (init : Db → Prop) : Machine Db Call where
  init := init
  step db c db' :=
    db' = db ∨ ∃ call tx', database.Solo call db {} (c.program localeLe) db' tx' ()

/-- Every resource is active and nothing was ever deleted. -/
structure Fresh (db : Db) : Prop where
  keyed : ∀ id row, db.resources id = some row → row.id = id
  active : ∀ id row, db.resources id = some row → row.status = .active
  tombstones : db.tombstones = []

/-- `createRevision` is not called over the head of a deleted resource. -/
def OffDeleted (db : Db) : Call → Prop
  | .create input => ∀ res, db.resources input.resourceId = some res →
      res.workspaceId = input.workspaceId →
      res.currentRevisionId = input.expectedRevisionId → res.status ≠ .deletedLogically
  | _ => True

/-- Deleted is to have one open tombstone, and it names the head. -/
structure Tombstoned (db : Db) : Prop where
  keyed : ∀ id row, db.resources id = some row → row.id = id
  ids : (db.tombstones.map Tombstone.id).Nodup
  deleted : ∀ id res, db.resources id = some res → res.status = .deletedLogically →
    ∃ t, openOf db res = [t] ∧ t.priorRevisionId = res.currentRevisionId
  kept : ∀ id res, db.resources id = some res → res.status ≠ .deletedLogically →
    openOf db res = []

section Effects

variable {call : Nat} {db db' : Db} {tx tx' : Tx}

/-- The parts of a transaction that audit and outbox rows leave alone. -/
structure SameRows (tx tx' : Tx) : Prop where
  resources : tx'.resources = tx.resources
  revisions : tx'.revisions = tx.revisions
  tombstones : tx'.tombstones = tx.tombstones
  closed : tx'.closed = tx.closed

theorem SameRows.trans {tx₁ tx₂ tx₃ : Tx} (h : SameRows tx₁ tx₂) (h' : SameRows tx₂ tx₃) :
    SameRows tx₁ tx₃ :=
  ⟨h'.resources.trans h.resources, h'.revisions.trans h.revisions,
    h'.tombstones.trans h.tombstones, h'.closed.trans h.closed⟩

/-- Statements that only read or keep records for others. -/
def Stmt.bookkeeping : Stmt → Bool
  | .insertRevision _ | .setResourceHead _ | .commit | .insertTombstone _ | .closeTombstone .. =>
    false
  | _ => true

theorem exec_bookkeeping {st : Stmt} {x : st.Result} (hq : st.bookkeeping = true)
    (h : exec call db tx st x db' tx') : db = db' ∧ SameRows tx tx' := by
  obtain ⟨clock, fresh, h⟩ := h
  cases st with
  | insertRevision => cases hq
  | setResourceHead => cases hq
  | commit => cases hq
  | insertTombstone => cases hq
  | closeTombstone => cases hq
  | now => cases h; exact ⟨rfl, rfl, rfl, rfl, rfl⟩
  | nextId => cases h; exact ⟨rfl, rfl, rfl, rfl, rfl⟩
  | getResource => cases h; exact ⟨rfl, rfl, rfl, rfl, rfl⟩
  | getRevision => cases h; exact ⟨rfl, rfl, rfl, rfl, rfl⟩
  | getOpenTombstone => cases h; exact ⟨rfl, rfl, rfl, rfl, rfl⟩
  | previousHash => cases h; exact ⟨rfl, rfl, rfl, rfl, rfl⟩
  | advisoryLock => cases h; exact ⟨rfl, rfl, rfl, rfl, rfl⟩
  | insertAudit row =>
    obtain ⟨tx₁, h₁, h₂⟩ := Option.map_eq_some_iff.mp h
    cases h₂
    simp only [insertAudit] at h₁
    split at h₁
    · cases h₁
    · split_ifs at h₁
      cases h₁
      exact ⟨rfl, rfl, rfl, rfl, rfl⟩
  | insertOperation o =>
    obtain ⟨tx₁, h₁, h₂⟩ := Option.map_eq_some_iff.mp h
    cases h₂
    simp only [insertOperation] at h₁
    split_ifs at h₁ <;> cases h₁ <;> exact ⟨rfl, rfl, rfl, rfl, rfl⟩
  | insertOutbox o =>
    cases h
    unfold insertOutbox
    split_ifs <;> exact ⟨rfl, rfl, rfl, rfl, rfl⟩

theorem solo_bookkeeping {st : Stmt} {x : st.Result} (hq : st.bookkeeping = true)
    (h : database.Solo call db tx (Prog.perform st : HistoryProg st.Result) db' tx' x) :
    db = db' ∧ SameRows tx tx' := exec_bookkeeping hq (System.solo_perform.mp h)

theorem solo_appendAudit {event : HistoryAuditEvent}
    (h : database.Solo call db tx (appendAudit event) db' tx' ()) :
    db = db' ∧ SameRows tx tx' := by
  obtain ⟨_, _, _, h₁, k₁⟩ := System.solo_bind.mp h
  obtain ⟨_, _, _, h₂, k₂⟩ := System.solo_bind.mp k₁
  obtain ⟨_, _, _, h₃, k₃⟩ := System.solo_bind.mp k₂
  obtain ⟨_, _, _, h₄, k₄⟩ := System.solo_bind.mp k₃
  obtain ⟨_, _, _, h₅, k₅⟩ := System.solo_bind.mp k₄
  obtain ⟨rfl, s₁⟩ := solo_bookkeeping rfl h₁
  obtain ⟨rfl, s₂⟩ := solo_bookkeeping rfl h₂
  obtain ⟨rfl, s₃⟩ := solo_bookkeeping rfl h₃
  obtain ⟨rfl, s₄⟩ := solo_bookkeeping rfl h₄
  obtain ⟨rfl, s₅⟩ := solo_bookkeeping rfl h₅
  obtain ⟨rfl, s₆⟩ := solo_bookkeeping rfl k₅
  exact ⟨rfl, ((((s₁.trans s₂).trans s₃).trans s₄).trans s₅).trans s₆⟩

theorem solo_enqueueOutbox {event : HistoryOutboxEvent}
    (h : database.Solo call db tx (enqueueOutbox event) db' tx' ()) :
    db = db' ∧ SameRows tx tx' := by
  obtain ⟨_, _, _, h₁, k₁⟩ := System.solo_bind.mp h
  obtain ⟨rfl, s₁⟩ := solo_bookkeeping rfl h₁
  obtain ⟨rfl, s₂⟩ := solo_bookkeeping rfl k₁
  exact ⟨rfl, s₁.trans s₂⟩

theorem solo_requiredResource {ws id : JsString} {res : Resource}
    (h : database.Solo call db tx (requiredResource ws id) db' tx' res) :
    db = db' ∧ tx = tx' ∧ visibleResource db tx id = some res ∧ res.workspaceId = ws := by
  obtain ⟨db₁, tx₁, x, h₁, h₂⟩ := System.solo_bind.mp h
  obtain ⟨_, _, hx⟩ := System.solo_perform.mp h₁
  cases hx
  cases hr : (visibleResource db tx id).filter (·.workspaceId = ws) with
  | none =>
    rw [hr] at h₂
    cases h₂
  | some y =>
    rw [hr] at h₂
    cases h₂
    obtain ⟨hv, hw⟩ := Option.filter_eq_some_iff.mp hr
    exact ⟨rfl, rfl, hv, by simpa using hw⟩

theorem solo_requiredRevision {ws id : JsString} {v : Revision}
    (h : database.Solo call db tx (requiredRevision ws id) db' tx' v) :
    db = db' ∧ tx = tx' ∧ v ∈ visibleRevisions db tx ∧ v.id = id := by
  obtain ⟨db₁, tx₁, x, h₁, h₂⟩ := System.solo_bind.mp h
  obtain ⟨_, _, hx⟩ := System.solo_perform.mp h₁
  cases hx
  cases hr : (visibleRevisions db tx).find? fun v => v.workspaceId = ws ∧ v.id = id with
  | none =>
    rw [hr] at h₂
    cases h₂
  | some y =>
    rw [hr] at h₂
    cases h₂
    have hf : v.workspaceId = ws ∧ v.id = id := by simpa using List.find?_some hr
    exact ⟨rfl, rfl, List.mem_of_find?_eq_some hr, hf.2⟩

theorem solo_currentRevision {ws : JsString} {res : Resource} {current : Option Revision}
    (h : database.Solo call db tx (currentRevision ws res) db' tx' current) :
    db = db' ∧ tx = tx' ∧ current.map Revision.id = res.currentRevisionId := by
  unfold currentRevision at h
  cases hc : res.currentRevisionId with
  | none =>
    rw [hc] at h
    cases h
    exact ⟨rfl, rfl, rfl⟩
  | some id =>
    rw [hc] at h
    obtain ⟨_, _, v, h₁, h₂⟩ := System.solo_bind.mp h
    cases h₂
    obtain ⟨rfl, rfl, _, hid⟩ := solo_requiredRevision h₁
    exact ⟨rfl, rfl, by rw [Option.map_some, hid]⟩

/-- What a head update that matched leaves pending, on a transaction without updates. -/
theorem solo_setHead {i : HeadUpdate} (hrows : tx.resources = [])
    (h : database.Solo call db tx (setHead i) db' tx' true) :
    db = db' ∧ ∃ base, db.resources i.resourceId = some base ∧
      base.currentRevisionId = i.expectedRevisionId ∧
      tx' = { tx with resources :=
        [{ base with currentRevisionId := i.nextRevisionId, status := i.status,
                     updatedAt := i.updatedAt }] } := by
  obtain ⟨_, _, hx⟩ := System.solo_perform.mp h
  simp only [answer, Option.some.injEq, Prod.mk.injEq] at hx
  obtain ⟨h₁, rfl, h₂⟩ := hx
  refine ⟨rfl, ?_⟩
  unfold setResourceHead visibleResource at h₁ h₂
  rw [hrows, List.find?_nil, Option.none_or] at h₁ h₂
  cases hb : db.resources i.resourceId with
  | none => simp [hb] at h₁
  | some base =>
    rw [hb] at h₁ h₂
    simp only at h₁ h₂
    split_ifs at h₁ h₂ with hcas
    exact ⟨base, rfl, hcas.2, h₂.symm⟩

theorem solo_appendRevision {v : Revision}
    (h : database.Solo call db tx (appendRevision v) db' tx' ()) :
    db = db' ∧ tx' = { tx with revisions := tx.revisions ++ [v] } := by
  obtain ⟨_, _, hx⟩ := System.solo_perform.mp h
  obtain ⟨tx₁, hins, he⟩ := Option.map_eq_some_iff.mp hx
  cases he
  simp only [insertRevision] at hins
  split_ifs at hins
  split at hins
  · cases hins
  · split_ifs at hins
    cases hins
    exact ⟨rfl, rfl⟩

theorem visibleTombstones_none (h₁ : tx.tombstones = []) (h₂ : tx.closed = []) :
    visibleTombstones db tx = db.tombstones := by
  rw [visibleTombstones, h₁, h₂, List.append_nil]
  exact List.map_id _

theorem solo_addTombstone {t : Tombstone} (h₁ : tx.tombstones = []) (h₂ : tx.closed = [])
    (h : database.Solo call db tx (addTombstone t) db' tx' ()) :
    db = db' ∧ tx' = { tx with tombstones := [t] } ∧ (∀ u ∈ db.tombstones, u.id ≠ t.id) ∧
      (t.isOpen = true → ∀ u ∈ db.tombstones, u.isOpen = true →
        ¬(u.workspaceId = t.workspaceId ∧ u.subjectId = t.subjectId)) := by
  obtain ⟨_, _, hx⟩ := System.solo_perform.mp h
  obtain ⟨tx₁, hins, he⟩ := Option.map_eq_some_iff.mp hx
  cases he
  simp only [insertTombstone, visibleTombstones_none h₁ h₂] at hins
  split_ifs at hins with hdup hfk
  cases hins
  rw [not_or] at hdup
  refine ⟨rfl, by rw [h₁]; rfl, ?_, ?_⟩
  · intro u hu hid
    exact hdup.1 ⟨u, hu, hid⟩
  · intro ht u hu hopen hsame
    exact hdup.2 ⟨ht, u, hu, hopen, hsame⟩

/-- The revision is filed under the resource. -/
structure Revision.Of (v : Revision) (res : Resource) : Prop where
  resource : v.resourceId = res.id
  workspace : v.workspaceId = res.workspaceId
  dataset : v.datasetId = res.datasetId

/-- The pending rows of a call that writes a revision over the head of `base`. -/
structure Moves (db : Db) (tx : Tx) (base : Resource) (v : Revision) : Prop where
  found : db.resources base.id = some base
  row : ∃ updatedAt, tx.resources =
    [{ base with currentRevisionId := some v.id, status := .active, updatedAt }]
  revisions : tx.revisions = [v]
  tombstones : tx.tombstones = []
  parent : v.parentRevisionId = base.currentRevisionId

/-- `createRevision` alone: the row it moves and the revision it adds. -/
theorem solo_createRevisionWithin {localeLe : JsString → JsString → Bool}
    {input : CreateRevisionInput} {v : Revision}
    (hkeyed : ∀ id row, db.resources id = some row → row.id = id)
    (h : database.Solo call db {} (createRevisionWithin localeLe input) db' tx' v) :
    db = db' ∧ ∃ base, Moves db tx' base v ∧ tx'.closed = [] ∧ base.id = input.resourceId ∧
      base.workspaceId = input.workspaceId ∧ base.currentRevisionId = input.expectedRevisionId ∧
      v.restoredFromRevisionId = input.restoredFromRevisionId ∧ v.Of base := by
  obtain ⟨_, _, res, h₁, k₁⟩ := System.solo_bind.mp h
  obtain ⟨rfl, rfl, hres, hws⟩ := solo_requiredResource h₁
  have hrid : res.id = input.resourceId := hkeyed _ _ hres
  obtain ⟨_, _, current, h₂, k₂⟩ := System.solo_bind.mp k₁
  obtain ⟨rfl, rfl, hcur⟩ := solo_currentRevision h₂
  split_ifs at k₂ with he
  · cases k₂
  obtain ⟨_, tx₃, createdAt, h₃, k₃⟩ := System.solo_bind.mp k₂
  obtain ⟨rfl, s₃⟩ := solo_bookkeeping rfl h₃
  obtain ⟨_, tx₄, id, h₄, k₄⟩ := System.solo_bind.mp k₃
  obtain ⟨rfl, s₄⟩ := solo_bookkeeping rfl h₄
  have s := s₃.trans s₄
  simp only at k₄
  split at k₄
  · cases k₄
  obtain ⟨_, tx₅, _, h₅, k₅⟩ := System.solo_bind.mp k₄
  obtain ⟨rfl, rfl⟩ := solo_appendRevision h₅
  obtain ⟨_, tx₆, moved, h₆, k₆⟩ := System.solo_bind.mp k₅
  cases moved with
  | false => cases k₆
  | true =>
    obtain ⟨rfl, base, hbase, hcas, rfl⟩ := solo_setHead (by exact s.resources) h₆
    obtain ⟨_, tx₇, _, h₇, k₇⟩ := System.solo_bind.mp k₆
    obtain ⟨rfl, s₇⟩ := solo_appendAudit h₇
    obtain ⟨_, tx₈, _, h₈, k₈⟩ := System.solo_bind.mp k₇
    obtain ⟨rfl, s₈⟩ := solo_enqueueOutbox h₈
    cases k₈
    have hbr : base = res := by
      rw [show db.resources res.id = some res by rw [hrid]; exact hres] at hbase
      exact (Option.some.inj hbase).symm
    subst hbr
    have s' := s₇.trans s₈
    refine ⟨rfl, base, ⟨hbase, ⟨createdAt, s'.resources⟩, ?_, ?_, ?_⟩, ?_, hrid, hws, hcas, rfl,
      ⟨rfl, rfl, rfl⟩⟩
    · rw [s'.revisions, s.revisions]
      rfl
    · rw [s'.tombstones, s.tombstones]
    · rw [← hcur]
      rfl
    · rw [s'.closed, s.closed]

theorem solo_inTransaction {α : Type} {work : HistoryProg α} {a : α}
    (h : database.Solo call db tx (inTransaction work) db' tx' a) :
    ∃ db₁ tx₁, database.Solo call db tx work db₁ tx₁ a ∧ db' = applyTx call db₁ tx₁ := by
  obtain ⟨db₁, tx₁, b, h₁, k₁⟩ := System.solo_bind.mp h
  obtain ⟨_, _, _, h₂, k₂⟩ := System.solo_bind.mp k₁
  obtain ⟨_, _, hx⟩ := System.solo_perform.mp h₂
  cases hx
  cases k₂
  exact ⟨db₁, tx₁, h₁, rfl⟩

/-- `deleteResource` alone: the row it marks and the tombstone it opens. -/
theorem solo_deleteResourceWithin {input : DeleteResourceInput} {t : Tombstone}
    (hkeyed : ∀ id row, db.resources id = some row → row.id = id)
    (h : database.Solo call db {} (deleteResourceWithin input) db' tx' t) :
    db = db' ∧ ∃ base updatedAt, db.resources base.id = some base ∧
      tx'.resources = [{ base with status := .deletedLogically, updatedAt }] ∧
      tx'.revisions = [] ∧ tx'.tombstones = [t] ∧ tx'.closed = [] ∧ t.isOpen = true ∧
      t.workspaceId = base.workspaceId ∧ t.datasetId = base.datasetId ∧ t.subjectId = base.id ∧
      t.priorRevisionId = base.currentRevisionId ∧
      (∀ u ∈ db.tombstones, u.id ≠ t.id) ∧ openOf db base = [] := by
  obtain ⟨_, _, res, h₁, k₁⟩ := System.solo_bind.mp h
  obtain ⟨rfl, rfl, hres, hws⟩ := solo_requiredResource h₁
  have hrid : res.id = input.resourceId := hkeyed _ _ hres
  split_ifs at k₁ with he
  · cases k₁
  simp only [ne_eq, not_not] at he
  obtain ⟨_, tx₃, deletedAt, h₃, k₃⟩ := System.solo_bind.mp k₁
  obtain ⟨rfl, s₃⟩ := solo_bookkeeping rfl h₃
  obtain ⟨_, tx₄, id, h₄, k₄⟩ := System.solo_bind.mp k₃
  obtain ⟨rfl, s₄⟩ := solo_bookkeeping rfl h₄
  have s := s₃.trans s₄
  obtain ⟨_, tx₅, _, h₅, k₅⟩ := System.solo_bind.mp k₄
  obtain ⟨rfl, rfl, hids, hopen⟩ := solo_addTombstone s.tombstones s.closed h₅
  obtain ⟨_, tx₆, moved, h₆, k₆⟩ := System.solo_bind.mp k₅
  cases moved with
  | false => cases k₆
  | true =>
    obtain ⟨rfl, base, hbase, hcas, rfl⟩ := solo_setHead (by exact s.resources) h₆
    obtain ⟨_, tx₇, _, h₇, k₇⟩ := System.solo_bind.mp k₆
    obtain ⟨rfl, s₇⟩ := solo_appendAudit h₇
    obtain ⟨_, tx₈, _, h₈, k₈⟩ := System.solo_bind.mp k₇
    obtain ⟨rfl, s₈⟩ := solo_enqueueOutbox h₈
    cases k₈
    have hbr : base = res := by
      rw [show db.resources res.id = some res by rw [hrid]; exact hres] at hbase
      exact (Option.some.inj hbase).symm
    subst hbr
    have s' := s₇.trans s₈
    refine ⟨rfl, base, deletedAt, hbase, s'.resources, s'.revisions.trans s.revisions, s'.tombstones,
      ?_, rfl, rfl, rfl, rfl, rfl, hids, ?_⟩
    · rw [s'.closed]
      exact s.closed
    · rw [openOf, List.filter_eq_nil_iff]
      intro u hu h
      simp only [Bool.and_eq_true, beq_iff_eq] at h
      exact hopen rfl u hu h.1.1 ⟨h.1.2, h.2⟩

/-- `restoreResource` alone: over which tombstone it writes, and that it closes it. -/
theorem solo_restoreResourceWithin {localeLe : JsString → JsString → Bool}
    {input : RestoreResourceInput} {v : Revision}
    (hkeyed : ∀ id row, db.resources id = some row → row.id = id)
    (h : database.Solo call db {} (restoreResourceWithin localeLe input) db' tx' v) :
    db = db' ∧ ∃ base t restoredAt restoredBy, Moves db tx' base v ∧
      (openOf db base).head? = some t ∧ v.restoredFromRevisionId = t.priorRevisionId ∧
      tx'.closed = [(t.id, restoredAt, restoredBy)] ∧ v.Of base := by
  obtain ⟨_, _, res, h₁, k₁⟩ := System.solo_bind.mp h
  obtain ⟨rfl, rfl, hres, hws⟩ := solo_requiredResource h₁
  have hrid : res.id = input.resourceId := hkeyed _ _ hres
  obtain ⟨_, _, found, h₂, k₂⟩ := System.solo_bind.mp k₁
  obtain ⟨_, _, hx⟩ := System.solo_perform.mp h₂
  cases hx
  have hopen : openTombstones db {} input.workspaceId input.resourceId = openOf db res := by
    rw [openTombstones, openOf, visibleTombstones_none rfl rfl, hws, hrid]
  rw [hopen] at k₂
  cases ht : (openOf db res).head? with
  | none =>
    rw [ht] at k₂
    cases k₂
  | some t =>
    rw [ht] at k₂
    simp only at k₂
    split at k₂
    · cases k₂
    rename_i prior hprior
    obtain ⟨_, tx₃, at_, h₃, k₃⟩ := System.solo_bind.mp k₂
    obtain ⟨_, _, hx⟩ := System.solo_perform.mp h₃
    cases hx
    split_ifs at k₃
    · cases k₃
    obtain ⟨_, tx₄, priorRevision, h₄, k₄⟩ := System.solo_bind.mp k₃
    obtain ⟨rfl, rfl, _, hpid⟩ := solo_requiredRevision h₄
    obtain ⟨_, tx₅, restored, h₅, k₅⟩ := System.solo_bind.mp k₄
    obtain ⟨rfl, base, hm, hclosed, hbid, hbw, hbc, hfrom, hof⟩ := solo_createRevisionWithin hkeyed h₅
    obtain ⟨_, tx₆, _, h₆, k₆⟩ := System.solo_bind.mp k₅
    obtain ⟨clock, _, hx⟩ := System.solo_perform.mp h₆
    cases hx
    cases k₆
    have hbr : base = res := by
      have hb := hm.found
      rw [hbid, show db.resources input.resourceId = some res from hres] at hb
      exact (Option.some.inj hb).symm
    subst hbr
    have hmem : t ∈ openOf db base := List.mem_of_head? ht
    have hexists : ∃ u ∈ visibleTombstones db tx₅, u.workspaceId = input.workspaceId ∧
        u.id = t.id ∧ u.restoredAt = none := by
      rw [visibleTombstones_none hm.tombstones hclosed]
      simp only [openOf, List.mem_filter, Bool.and_eq_true, beq_iff_eq, Tombstone.isOpen,
        Option.isNone_iff_eq_none] at hmem
      exact ⟨t, hmem.1, by rw [hmem.2.1.2, hws], rfl, hmem.2.1.1.1.2⟩
    refine ⟨rfl, base, t, clock, input.actorId, ?_, ht, ?_, ?_, hof⟩
    · rw [closeRow, if_pos hexists]
      exact ⟨hm.found, hm.row, hm.revisions, hm.tombstones, hm.parent⟩
    · rw [hfrom, hpid, hprior]
    · rw [closeRow, if_pos hexists, hclosed]

end Effects

section Invariant

variable {call : Nat} {db db' : Db} {tx : Tx} {row base : Resource}

theorem applyTx_resources (h : tx.resources = [row]) (id : JsString) :
    (applyTx call db tx).resources id = if row.id = id then some row else db.resources id := by
  change (tx.resources.find? (·.id = id)).or (db.resources id) = _
  rw [find?_row h]
  split_ifs <;> rfl

theorem keyed_applyTx (h : tx.resources = [row])
    (hk : ∀ id r, db.resources id = some r → r.id = id) :
    ∀ id r, (applyTx call db tx).resources id = some r → r.id = id := by
  intro id r hr
  rw [applyTx_resources h] at hr
  split_ifs at hr with hid
  · rw [← Option.some.inj hr]
    exact hid
  · exact hk id r hr

theorem openOf_congr {res : Resource} (ht : db'.tombstones = db.tombstones)
    (hw : row.workspaceId = res.workspaceId) (hid : row.id = res.id) :
    openOf db' row = openOf db res := by
  rw [openOf, openOf, ht, hw, hid]

/-- Writing a revision keeps the invariant, on a resource that is not deleted. -/
theorem Tombstoned.create {v : Revision} (h : Tombstoned db) (hm : Moves db tx base v)
    (hc : tx.closed = []) (hs : base.status ≠ .deletedLogically) :
    Tombstoned (applyTx call db tx) := by
  obtain ⟨updatedAt, hrow⟩ := hm.row
  have ht : (applyTx call db tx).tombstones = db.tombstones :=
    visibleTombstones_none hm.tombstones hc
  refine ⟨keyed_applyTx hrow h.keyed, by rw [ht]; exact h.ids, ?_, ?_⟩
  · intro id res hres hdel
    rw [applyTx_resources hrow] at hres
    split_ifs at hres with hid
    · rw [← Option.some.inj hres] at hdel
      cases hdel
    · rw [openOf_congr ht rfl rfl]
      exact h.deleted id res hres hdel
  · intro id res hres hdel
    rw [applyTx_resources hrow] at hres
    split_ifs at hres with hid
    · rw [← Option.some.inj hres]
      exact (openOf_congr ht rfl rfl).trans (h.kept _ base hm.found hs)
    · rw [openOf_congr ht rfl rfl]
      exact h.kept id res hres hdel

theorem openOf_append {t : Tombstone} (ht : db'.tombstones = db.tombstones ++ [t])
    (hopen : t.isOpen = true) (res : Resource) : openOf db' res = openOf db res ++
      if t.workspaceId = res.workspaceId ∧ t.subjectId = res.id then [t] else [] := by
  rw [openOf, openOf, ht, List.filter_append]
  congr 1
  by_cases hsame : t.workspaceId = res.workspaceId ∧ t.subjectId = res.id
  · simp [hopen, hsame]
  · rw [if_neg hsame]
    simp only [List.filter_eq_nil_iff, List.mem_singleton]
    rintro u rfl
    simpa [hopen] using hsame

/-- Deleting opens the one tombstone of the resource, over its head. -/
theorem Tombstoned.delete {t : Tombstone} {updatedAt : Instant} (h : Tombstoned db)
    (hrow : tx.resources = [{ base with status := .deletedLogically, updatedAt }])
    (ht : tx.tombstones = [t]) (hc : tx.closed = []) (hopen : t.isOpen = true)
    (hw : t.workspaceId = base.workspaceId) (hsub : t.subjectId = base.id)
    (hprior : t.priorRevisionId = base.currentRevisionId)
    (hids : ∀ u ∈ db.tombstones, u.id ≠ t.id) (hnone : openOf db base = []) :
    Tombstoned (applyTx call db tx) := by
  have htombs : (applyTx call db tx).tombstones = db.tombstones ++ [t] := by
    change (db.tombstones ++ tx.tombstones).map (closeWith tx.closed) = _
    rw [ht, hc]
    exact List.map_id _
  have hother : ∀ res : Resource, res.id ≠ base.id →
      openOf (applyTx call db tx) res = openOf db res := by
    intro res hne
    rw [openOf_append htombs hopen, if_neg, List.append_nil]
    rintro ⟨_, he⟩
    exact hne (by rw [← he, hsub])
  refine ⟨keyed_applyTx hrow h.keyed, ?_, ?_, ?_⟩
  · rw [htombs, List.map_append, List.map_singleton, List.nodup_append]
    refine ⟨h.ids, by simp, ?_⟩
    intro i hi j hj
    obtain ⟨u, hu, rfl⟩ := List.mem_map.mp hi
    rw [List.mem_singleton.mp hj]
    exact hids u hu
  · intro id res hres hdel
    rw [applyTx_resources hrow] at hres
    split_ifs at hres with hid
    · refine ⟨t, ?_, ?_⟩
      · rw [← Option.some.inj hres, openOf_append htombs hopen, if_pos ⟨hw, hsub⟩]
        exact congrArg (· ++ [t]) hnone
      · rw [← Option.some.inj hres]
        exact hprior
    · rw [hother res (by rw [h.keyed id res hres]; exact fun he => hid he.symm)]
      exact h.deleted id res hres hdel
  · intro id res hres hdel
    rw [applyTx_resources hrow] at hres
    split_ifs at hres with hid
    · rw [← Option.some.inj hres] at hdel
      exact absurd rfl hdel
    · rw [hother res (by rw [h.keyed id res hres]; exact fun he => hid he.symm)]
      exact h.kept id res hres hdel

/-- Closing a tombstone takes exactly it out of the open ones. -/
theorem filter_closeWith (c : JsString × Instant × JsString) (q : Tombstone → Bool)
    (ts : List Tombstone) :
    (ts.map (closeWith [c])).filter (fun t => t.isOpen && q t) =
      ts.filter (fun t => t.isOpen && q t && decide (t.id ≠ c.1)) := by
  induction ts with
  | nil => rfl
  | cons t ts ih =>
    rw [List.map_cons, List.filter_cons, List.filter_cons, ih]
    by_cases hid : c.1 = t.id
    · have hclosed : (closeWith [c] t).isOpen = false := by
        simp [closeWith, hid, Tombstone.isOpen]
      simp [hclosed, hid]
    · have hsame : closeWith [c] t = t := by
        simp [closeWith, hid]
      simp [hsame, Ne.symm hid]

/-- An open tombstone is the only one of its resource, and names its head. -/
theorem Tombstoned.head {t : Tombstone} (h : Tombstoned db)
    (hb : db.resources base.id = some base) (ht : (openOf db base).head? = some t) :
    openOf db base = [t] ∧ t.priorRevisionId = base.currentRevisionId := by
  have hdel : base.status = .deletedLogically := by
    by_contra hne
    rw [h.kept _ base hb hne] at ht
    cases ht
  obtain ⟨t', ht', hprior⟩ := h.deleted _ base hb hdel
  rw [ht', List.head?_cons, Option.some.injEq] at ht
  subst ht
  exact ⟨ht', hprior⟩

/-- Restoring makes the resource active and leaves it without an open tombstone. -/
theorem Tombstoned.restore {v : Revision} {t : Tombstone} {restoredAt : Instant}
    {restoredBy : JsString} (h : Tombstoned db) (hm : Moves db tx base v)
    (ht : (openOf db base).head? = some t)
    (hc : tx.closed = [(t.id, restoredAt, restoredBy)]) : Tombstoned (applyTx call db tx) := by
  obtain ⟨updatedAt, hrow⟩ := hm.row
  have hone := (h.head hm.found ht).1
  have htombs : (applyTx call db tx).tombstones =
      db.tombstones.map (closeWith [(t.id, restoredAt, restoredBy)]) := by
    change (db.tombstones ++ tx.tombstones).map (closeWith tx.closed) = _
    rw [hm.tombstones, hc, List.append_nil]
  have hopen : ∀ res : Resource, openOf (applyTx call db tx) res =
      (openOf db res).filter (fun u => decide (u.id ≠ t.id)) := by
    intro res
    have hf := filter_closeWith (t.id, restoredAt, restoredBy)
      (fun u => u.workspaceId == res.workspaceId && u.subjectId == res.id) db.tombstones
    rw [openOf, openOf, htombs, List.filter_filter]
    simp only [Bool.and_assoc] at hf ⊢
    rw [hf]
    refine List.filter_congr fun u _ => ?_
    simp only [Bool.and_comm, Bool.and_assoc, Bool.and_left_comm]
  have hmem : t ∈ openOf db base := by simp [hone]
  have hother : ∀ res : Resource, res.id ≠ base.id →
      openOf (applyTx call db tx) res = openOf db res := by
    intro res hne
    rw [hopen, List.filter_eq_self]
    intro u hu
    simp only [decide_eq_true_eq]
    intro hid
    simp only [openOf, List.mem_filter, Bool.and_eq_true, beq_iff_eq] at hu hmem
    have hut := List.inj_on_of_nodup_map h.ids hu.1 hmem.1 hid
    exact hne (by rw [← hu.2.2, hut, hmem.2.2])
  refine ⟨keyed_applyTx hrow h.keyed, ?_, ?_, ?_⟩
  · have hmap : (db.tombstones.map (closeWith [(t.id, restoredAt, restoredBy)])).map
        Tombstone.id = db.tombstones.map Tombstone.id := by
      rw [List.map_map]
      exact List.map_congr_left fun u _ => id_closeWith _ u
    rw [htombs, hmap]
    exact h.ids
  · intro id res hres hdel'
    rw [applyTx_resources hrow] at hres
    split_ifs at hres with hid
    · rw [← Option.some.inj hres] at hdel'
      cases hdel'
    · rw [hother res (by rw [h.keyed id res hres]; exact fun he => hid he.symm)]
      exact h.deleted id res hres hdel'
  · intro id res hres hdel'
    rw [applyTx_resources hrow] at hres
    split_ifs at hres with hid
    · rw [← Option.some.inj hres, hopen]
      change (openOf db base).filter _ = []
      rw [hone]
      simp
    · rw [hother res (by rw [h.keyed id res hres]; exact fun he => hid he.symm)]
      exact h.kept id res hres hdel'

/-- One call keeps the invariant, unless it writes over a deleted resource. -/
theorem Tombstoned.step {localeLe : JsString → JsString → Bool} {c : Call} {tx' : Tx}
    (h : Tombstoned db) (hoff : OffDeleted db c)
    (hs : database.Solo call db {} (c.program localeLe) db' tx' ()) : Tombstoned db' := by
  cases c with
  | create input =>
    obtain ⟨_, _, v, h₁, k₁⟩ := System.solo_bind.mp hs
    cases k₁
    obtain ⟨_, tx₁, h₂, rfl⟩ := solo_inTransaction h₁
    obtain ⟨rfl, base, hm, hc, hid, hw, he, _, _⟩ := solo_createRevisionWithin h.keyed h₂
    exact h.create hm hc (hoff base (hid ▸ hm.found) hw he)
  | delete input =>
    obtain ⟨_, _, t, h₁, k₁⟩ := System.solo_bind.mp hs
    cases k₁
    obtain ⟨_, tx₁, h₂, rfl⟩ := solo_inTransaction h₁
    obtain ⟨rfl, base, updatedAt, _, hrow, _, ht, hc, hopen, hw, _, hsub, hprior, hids, hnone⟩ :=
      solo_deleteResourceWithin h.keyed h₂
    exact h.delete hrow ht hc hopen hw hsub hprior hids hnone
  | restore input =>
    obtain ⟨_, _, v, h₁, k₁⟩ := System.solo_bind.mp hs
    cases k₁
    obtain ⟨_, tx₁, h₂, rfl⟩ := solo_inTransaction h₁
    obtain ⟨rfl, base, t, restoredAt, restoredBy, hm, ht, _, hc, _⟩ :=
      solo_restoreResourceWithin h.keyed h₂
    exact h.restore hm ht hc

theorem Fresh.tombstoned (h : Fresh db) : Tombstoned db := by
  refine ⟨h.keyed, by simp [h.tombstones], ?_, ?_⟩
  · intro id res hres hdel
    rw [h.active id res hres] at hdel
    cases hdel
  · intro id res _ _
    rw [openOf, h.tombstones]
    rfl

theorem tombstoned_of_reaches {localeLe : JsString → JsString → Bool}
    (h : (atomicCalls localeLe Fresh).Reaches OffDeleted db) : Tombstoned db := by
  refine h.invariant (fun db (hf : Fresh db) => hf.tombstoned) ?_
  rintro db c db' hi hoff (rfl | ⟨call, tx', hs⟩)
  · exact hi
  · exact hi.step hoff hs

/-- A snapshot of the resources of one workspace. -/
structure SnapshotOf (snapshot : Snapshot) (db : Db) (workspaceId : JsString) : Prop where
  resources : ∀ res ∈ snapshot.resources, db.resources res.id = some res ∧
    res.workspaceId = workspaceId

theorem code_verifyTombstone {t : Tombstone} {snapshot : Snapshot}
    (h : ∃ i ∈ verifyTombstone t snapshot, i.code = mismatchCode) :
    t.subjectKind = .resource ∧ t.purgeState ≠ .purged ∧ ∃ res ∈ snapshot.resources,
      res.id = t.subjectId ∧ res.status ≠ .deletedLogically := by
  obtain ⟨i, hi, hcode⟩ := h
  have hcodes : js "TOMBSTONE_SUBJECT_MISSING" ≠ mismatchCode ∧
      js "RETENTION_WINDOW_INVALID" ≠ mismatchCode ∧
      js "TOMBSTONE_PRIOR_REVISION_INVALID" ≠ mismatchCode := by decide
  obtain ⟨hc₁, hc₂, hc₃⟩ := hcodes
  simp only [verifyTombstone, List.mem_append] at hi
  rcases hi with ((hi | hi) | hi) | hi
  · split_ifs at hi
    · rw [List.mem_singleton.mp hi] at hcode
      exact absurd hcode hc₁
    · cases hi
  · split_ifs at hi
    · rw [List.mem_singleton.mp hi] at hcode
      exact absurd hcode hc₂
    · cases hi
  · split_ifs at hi
    · rw [List.mem_singleton.mp hi] at hcode
      exact absurd hcode hc₃
    · cases hi
  · split at hi
    · rename_i res hmismatch
      rw [Verification.statusMismatch] at hmismatch
      split_ifs at hmismatch with hk
      obtain ⟨hfound, hstatus⟩ := Option.filter_eq_some_iff.mp hmismatch
      rw [decide_eq_true_eq] at hstatus
      exact ⟨hk, hstatus.1, res, List.mem_of_find?_eq_some hfound,
        by simpa using List.find?_some hfound, hstatus.2⟩
    · cases hi

/-- In every run of calls that keeps `createRevision` off deleted resources: a
resource is deleted exactly when it has one open tombstone; the verifier never
reports a status mismatch; and a restore replaces the very revision that was deleted,
so nothing written after the deletion is lost. -/
theorem deleted_iff_open_tombstone (localeLe : JsString → JsString → Bool)
    (h : (atomicCalls localeLe Fresh).Reaches OffDeleted db) :
    (∀ id res, db.resources id = some res →
      (res.status = .deletedLogically ↔ (openOf db res).length = 1)) ∧
    (∀ workspaceId snapshot t, SnapshotOf snapshot db workspaceId → t ∈ db.tombstones →
      t.workspaceId = workspaceId → t.restoredAt = none →
      ∀ i ∈ verifyTombstone t snapshot, i.code ≠ mismatchCode) ∧
    (∀ call input db' tx' v,
      database.Solo call db {} (restoreResource localeLe input) db' tx' v →
      v.restoredFromRevisionId = v.parentRevisionId) := by
  have hi := tombstoned_of_reaches h
  refine ⟨?_, ?_, ?_⟩
  · intro id res hres
    constructor
    · intro hdel
      obtain ⟨t, ht, _⟩ := hi.deleted id res hres hdel
      rw [ht]
      rfl
    · intro hlen
      by_contra hne
      rw [hi.kept id res hres hne] at hlen
      cases hlen
  · intro workspaceId snapshot t hof ht hws hopen i hmem hcode
    obtain ⟨hk, hp, res, hres, hid, hstatus⟩ := code_verifyTombstone ⟨i, hmem, hcode⟩
    obtain ⟨hrow, hrw⟩ := hof.resources res hres
    have hnone := hi.kept _ res hrow hstatus
    rw [openOf, List.filter_eq_nil_iff] at hnone
    refine hnone t ht ?_
    simp [Tombstone.isOpen, hk, hp, hopen, hws, hrw, hid]
  · intro call input db' tx' v hs
    obtain ⟨_, tx₁, h₂, rfl⟩ := solo_inTransaction hs
    obtain ⟨rfl, base, t, restoredAt, restoredBy, hm, ht, hfrom, hc, _⟩ :=
      solo_restoreResourceWithin hi.keyed h₂
    rw [hfrom, hm.parent]
    exact (hi.head hm.found ht).2

end Invariant

theorem fresh_sampleDb : Fresh sampleDb := by
  refine ⟨?_, ?_, rfl⟩ <;> intro id row h <;> simp only [sampleDb] at h <;> split_ifs at h with hid
  · cases h
    exact hid.symm
  · cases h
    rfl

def sampleDelete (expectedRevisionId : Option JsString) : Call :=
  .delete { workspaceId := js "w", resourceId := js "r", expectedRevisionId,
            actorId := js "user-1", recoverUntil := none, reason := none }

/-- The tables after a list of calls, each alone; a call that throws changes nothing. -/
def afterCalls (localeLe : JsString → JsString → Bool) : Nat → List Call → Db → Db
  | _, [], db => db
  | n, c :: cs, db =>
    afterCalls localeLe (n + 1) cs
      (match runAlone n (sampleOracle (20 * n)) (c.program localeLe) db {} with
        | some out => out.2.1
        | none => db)

theorem step_afterCalls {localeLe : JsString → JsString → Bool} {init : Db → Prop} (n : Nat) (c : Call)
    (db : Db) : (atomicCalls localeLe init).step db c (afterCalls localeLe n [c] db) := by
  cases h : runAlone n (sampleOracle (20 * n)) (c.program localeLe) db {} with
  | none => exact Or.inl (by simp [afterCalls, h])
  | some out =>
    refine Or.inr ⟨n, out.2.2, ?_⟩
    have hrun : runAlone n (sampleOracle (20 * n)) (c.program localeLe) db {} =
        some ((), out.2.1, out.2.2) := h
    simpa [afterCalls, h] using solo_of_runAlone hrun

theorem reachable_afterCalls {localeLe : JsString → JsString → Bool} {init : Db → Prop}
    (cs : List Call) (n : Nat) {db : Db} (h : (atomicCalls localeLe init).Reachable db) :
    (atomicCalls localeLe init).Reachable (afterCalls localeLe n cs db) := by
  induction cs generalizing n db with
  | nil => exact h
  | cons c cs ih => exact ih (n + 1) (h.step (step_afterCalls n c db))

/-- A revision, then the deletion of its resource. -/
theorem deleted_iff_open_tombstone_sample : ∃ db res,
    (atomicCalls unitsLe Fresh).Reaches OffDeleted db ∧ db.resources (js "r") = some res ∧
      res.status = .deletedLogically ∧ (openOf db res).length = 1 := by
  have hfirst : OffDeleted sampleDb (sampleCreate none) := by
    intro res hres _ _
    rw [fresh_sampleDb.active _ res hres]
    decide
  have hsecond : OffDeleted (afterCalls unitsLe 0 [sampleCreate none] sampleDb)
      (sampleDelete (some (js "2"))) := trivial
  have hreach : (atomicCalls unitsLe Fresh).Reaches OffDeleted (afterCalls unitsLe 1
      [sampleDelete (some (js "2"))] (afterCalls unitsLe 0 [sampleCreate none] sampleDb)) :=
    ((Machine.Reaches.init fresh_sampleDb).step hfirst (step_afterCalls 0 _ _)).step hsecond
      (step_afterCalls 1 _ _)
  have hstate : ((afterCalls unitsLe 1 [sampleDelete (some (js "2"))]
      (afterCalls unitsLe 0 [sampleCreate none] sampleDb)).resources (js "r")).any
        (fun res => decide (res.status = .deletedLogically)) = true := by decide +kernel
  generalize afterCalls unitsLe 1 [sampleDelete (some (js "2"))]
      (afterCalls unitsLe 0 [sampleCreate none] sampleDb) = db at hreach hstate
  cases hres : db.resources (js "r") with
  | none =>
    rw [hres] at hstate
    cases hstate
  | some res =>
    rw [hres, Option.any_some, decide_eq_true_eq] at hstate
    have hiff := (deleted_iff_open_tombstone unitsLe hreach).1 _ res hres
    exact ⟨db, res, hreach, hres, hstate, hiff.mp hstate⟩

/-- A resource is created, deleted and then written again over its head. -/
def rewrittenDb : Db :=
  afterCalls unitsLe 0
    [sampleCreate none, sampleDelete (some (js "2")), sampleCreate (some (js "2"))] sampleDb

def sampleSnapshot (db : Db) : Snapshot where
  workspaceExists := true
  datasets := []
  resources := (db.resources (js "r")).toList
  revisions := db.revisions
  blobs := []
  revisionBlobs := []
  relations := []
  tombstones := db.tombstones
  auditEvents := []
  schemaPackages := []

/-- The resource is active with an open tombstone, the verifier reports it, and a
restore puts the old content over the new. -/
theorem rewrite_of_deleted_breaks_invariant :
    (atomicCalls unitsLe Fresh).Reachable rewrittenDb ∧
    (∃ res, rewrittenDb.resources (js "r") = some res ∧ res.status ≠ .deletedLogically ∧
      (openOf rewrittenDb res).length = 1) ∧
    (∃ t ∈ rewrittenDb.tombstones, t.restoredAt = none ∧
      ∃ i ∈ verifyTombstone t (sampleSnapshot rewrittenDb), i.code = mismatchCode) ∧
    ∃ db' tx' v, database.Solo 3 rewrittenDb {} (restoreResource unitsLe
        { workspaceId := js "w", resourceId := js "r", actorId := js "user-1",
          changeNote := none }) db' tx' v ∧
      v.restoredFromRevisionId ≠ v.parentRevisionId := by
  refine ⟨reachable_afterCalls _ 0 (.init fresh_sampleDb), ?_, ?_, ?_⟩
  · have hstate : (rewrittenDb.resources (js "r")).any (fun res =>
        decide (res.status ≠ .deletedLogically) && (openOf rewrittenDb res).length == 1) =
        true := by decide +kernel
    cases hres : rewrittenDb.resources (js "r") with
    | none =>
      rw [hres] at hstate
      cases hstate
    | some res =>
      rw [hres, Option.any_some, Bool.and_eq_true, decide_eq_true_eq, beq_iff_eq] at hstate
      exact ⟨res, rfl, hstate⟩
  · have hreport : rewrittenDb.tombstones.any (fun t => t.restoredAt.isNone &&
        (verifyTombstone t (sampleSnapshot rewrittenDb)).any (·.code = mismatchCode)) = true := by
      decide +kernel
    simp only [List.any_eq_true, Bool.and_eq_true, Option.isNone_iff_eq_none,
      decide_eq_true_eq] at hreport
    exact hreport
  · have hrestore : (runAlone 3 (sampleOracle 60) (restoreResource unitsLe
        { workspaceId := js "w", resourceId := js "r", actorId := js "user-1",
          changeNote := none }) rewrittenDb {}).any
        (fun out => decide (out.1.restoredFromRevisionId ≠ out.1.parentRevisionId)) = true := by
      decide +kernel
    cases hrun : runAlone 3 (sampleOracle 60) (restoreResource unitsLe
        { workspaceId := js "w", resourceId := js "r", actorId := js "user-1",
          changeNote := none }) rewrittenDb {} with
    | none =>
      rw [hrun] at hrestore
      cases hrestore
    | some out =>
      rw [hrun] at hrestore
      refine ⟨out.2.1, out.2.2, out.1, solo_of_runAlone hrun, ?_⟩
      simpa using hrestore

end TrustCore.History
