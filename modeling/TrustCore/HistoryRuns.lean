import TrustCore.History
import TrustCore.RevisionTrees

/-!
# Histories stay linear

Whatever the interleaving of statements, the committed revisions of a resource
whose history started empty are numbered from one, each follows the one before,
and the head is the last of them. The proof fixes the resource: an open
transaction that moved its head holds its row, so nobody else extends the history
before it ends, and one that has only inserted a revision is checked against the
head when it moves it.
-/

namespace TrustCore.History

open TrustCore.Utf TrustCore.Json TrustCore.Columns TrustCore.Programs TrustCore.AuditLog
open TrustCore.Runs
open TrustCore.Verification (verifyResourceGraph)
open TrustCore.RevisionTrees (Checked ownRevisions lastById_of_mem pointer_resolves)

/-- The revisions of one resource, in commit order. -/
def revisionsOf (r : JsString) (vs : List Revision) : List Revision :=
  vs.filter (·.resourceId = r)

/-- Each revision has the next number and the revision before it as parent. -/
def Linked : Option JsString → Nat → List Revision → Prop
  | _, _, [] => True
  | parent, n, v :: vs =>
    v.revisionNumber = n + 1 ∧ v.parentRevisionId = parent ∧ Linked (some v.id) (n + 1) vs

def lastId (parent : Option JsString) (vs : List Revision) : Option JsString :=
  (vs.getLast?.map Revision.id).or parent

theorem lastId_cons (parent : Option JsString) (v : Revision) (vs : List Revision) :
    lastId parent (v :: vs) = lastId (some v.id) vs := by
  cases vs with
  | nil => rfl
  | cons u us => simp [lastId, List.getLast?_eq_some_getLast]

theorem Linked.append {parent : Option JsString} {n : Nat} {vs : List Revision} {v : Revision}
    (h : Linked parent n vs) (hn : v.revisionNumber = n + vs.length + 1)
    (hp : v.parentRevisionId = lastId parent vs) : Linked parent n (vs ++ [v]) := by
  induction vs generalizing parent n with
  | nil => exact ⟨hn, hp, trivial⟩
  | cons u us ih =>
    refine ⟨h.1, h.2.1, ih h.2.2 ?_ ?_⟩
    · rw [hn, List.length_cons]
      omega
    · rw [hp, lastId_cons]

theorem Linked.number {parent : Option JsString} {n : Nat} {vs : List Revision}
    (h : Linked parent n vs) (k : Nat) (v : Revision) (hv : vs[k]? = some v) :
    v.revisionNumber = n + k + 1 := by
  induction vs generalizing parent n k with
  | nil => simp at hv
  | cons u us ih =>
    cases k with
    | zero =>
      simp only [List.getElem?_cons_zero, Option.some.injEq] at hv
      rw [← hv, h.1]
    | succ k =>
      rw [List.getElem?_cons_succ] at hv
      rw [ih h.2.2 k hv]
      omega

theorem Linked.numbers {parent : Option JsString} {n : Nat} {vs : List Revision}
    (h : Linked parent n vs) : vs.map Revision.revisionNumber = List.range' (n + 1) vs.length := by
  induction vs generalizing parent n with
  | nil => rfl
  | cons v vs ih =>
    rw [List.map_cons, List.length_cons, List.range'_succ, h.1, ih h.2.2]

theorem Linked.first {parent : Option JsString} {n : Nat} {vs : List Revision}
    (h : Linked parent n vs) (v : Revision) (hv : vs[0]? = some v) :
    v.parentRevisionId = parent := by
  cases vs with
  | nil => simp at hv
  | cons u us =>
    simp only [List.getElem?_cons_zero, Option.some.injEq] at hv
    rw [← hv, h.2.1]

theorem Linked.parent {parent : Option JsString} {n : Nat} {vs : List Revision}
    (h : Linked parent n vs) (k : Nat) (u v : Revision) (hu : vs[k]? = some u)
    (hv : vs[k + 1]? = some v) : v.parentRevisionId = some u.id := by
  induction vs generalizing parent n k with
  | nil => simp at hv
  | cons w ws ih =>
    rw [List.getElem?_cons_succ] at hv
    cases k with
    | zero =>
      simp only [List.getElem?_cons_zero, Option.some.injEq] at hu
      rw [← hu]
      exact h.2.2.first v hv
    | succ k =>
      rw [List.getElem?_cons_succ] at hu
      exact ih h.2.2 k hu hv

/-- The committed history of resource `r` is linear and its head is the last revision. -/
structure Linear (r : JsString) (db : Db) : Prop where
  ids : (db.revisions.map Revision.id).Nodup
  keyed : ∀ id row, db.resources id = some row → row.id = id
  linked : Linked none 0 (revisionsOf r db.revisions)
  named : ∀ v ∈ revisionsOf r db.revisions, v.id ≠ []
  head : ∀ row, db.resources r = some row →
    row.currentRevisionId = lastId none (revisionsOf r db.revisions)
  scope : ∀ row, db.resources r = some row → ∀ v ∈ revisionsOf r db.revisions,
    v.workspaceId = row.workspaceId ∧ v.datasetId = row.datasetId
  missing : db.resources r = none → revisionsOf r db.revisions = []

/-- What the pending rows of a transaction do to the history of `r`. -/
inductive Extends (r : JsString) (db : Db) : Option Resource → List Revision → Prop
  | untouched : Extends r db none []
  | kept (base row : Resource) (hb : db.resources r = some base)
      (hw : row.workspaceId = base.workspaceId) (hd : row.datasetId = base.datasetId)
      (hh : row.currentRevisionId = base.currentRevisionId) : Extends r db (some row) []
  | extended (base row : Resource) (v : Revision) (hb : db.resources r = some base)
      (hw : row.workspaceId = base.workspaceId) (hd : row.datasetId = base.datasetId)
      (hvw : v.workspaceId = base.workspaceId) (hvd : v.datasetId = base.datasetId)
      (hp : v.parentRevisionId = base.currentRevisionId)
      (hn : v.revisionNumber = (revisionsOf r db.revisions).length + 1)
      (hh : row.currentRevisionId = some v.id) : Extends r db (some row) [v]

/-- The id of a new row. -/
def Unused (db : Db) (v : Revision) : Prop := v.id ≠ [] ∧ v.id ∉ db.revisions.map Revision.id

/-- A transaction whose commit keeps the history of `r` linear. -/
structure Commits (r : JsString) (db : Db) (tx : Tx) : Prop where
  fresh : ∀ v ∈ tx.revisions, Unused db v
  nodup : (tx.revisions.map Revision.id).Nodup
  extends_ : Extends r db (tx.resources.find? (·.id = r)) (revisionsOf r tx.revisions)

theorem revisionsOf_append (r : JsString) (vs us : List Revision) :
    revisionsOf r (vs ++ us) = revisionsOf r vs ++ revisionsOf r us := List.filter_append ..

/-- Committing keeps the history linear. -/
theorem Linear.applyTx {r : JsString} {db : Db} {tx : Tx} (h : Linear r db)
    (hc : Commits r db tx) (call : Nat) : Linear r (applyTx call db tx) := by
  have hids : ((db.revisions ++ tx.revisions).map Revision.id).Nodup := by
    rw [List.map_append, List.nodup_append]
    refine ⟨h.ids, hc.nodup, ?_⟩
    intro i hi j hj hij
    obtain ⟨v, hv, rfl⟩ := List.mem_map.mp hj
    exact (hc.fresh v hv).2 (hij ▸ hi)
  have hkeyed : ∀ id row, (History.applyTx call db tx).resources id = some row → row.id = id := by
    intro id row hrow
    simp only [History.applyTx, visibleResource] at hrow
    cases hf : tx.resources.find? (·.id = id) with
    | none => exact h.keyed id row (by simpa [hf] using hrow)
    | some x =>
      have hx : x = row := by simpa [hf] using hrow
      rw [← hx]
      simpa using List.find?_some hf
  have hres : (History.applyTx call db tx).resources r =
      (tx.resources.find? (·.id = r)).or (db.resources r) := rfl
  have hrev : revisionsOf r (History.applyTx call db tx).revisions =
      revisionsOf r db.revisions ++ revisionsOf r tx.revisions := revisionsOf_append ..
  have hnamed : ∀ v ∈ revisionsOf r (History.applyTx call db tx).revisions, v.id ≠ [] := by
    intro v hv
    rw [hrev] at hv
    rcases List.mem_append.mp hv with hv | hv
    · exact h.named v hv
    · exact (hc.fresh v (List.mem_of_mem_filter hv)).1
  have he := hc.extends_
  generalize tx.resources.find? (·.id = r) = row? at he hres
  generalize revisionsOf r tx.revisions = vs at he hrev
  cases he with
  | untouched =>
    rw [Option.none_or] at hres
    rw [List.append_nil] at hrev
    refine ⟨hids, hkeyed, ?_, hnamed, ?_, ?_, ?_⟩
    · rw [hrev]
      exact h.linked
    · rw [hres, hrev]
      exact h.head
    · rw [hres, hrev]
      exact h.scope
    · rw [hres, hrev]
      exact h.missing
  | kept base row hb hw hd hh =>
    rw [Option.some_or] at hres
    rw [List.append_nil] at hrev
    refine ⟨hids, hkeyed, ?_, hnamed, ?_, ?_, ?_⟩
    · rw [hrev]
      exact h.linked
    · rw [hres, hrev]
      rintro _ ⟨⟩
      rw [hh]
      exact h.head base hb
    · rw [hres, hrev]
      rintro _ ⟨⟩ v hv
      rw [hw, hd]
      exact h.scope base hb v hv
    · rw [hres]
      intro hn
      cases hn
  | extended base row v hb hw hd hvw hvd hp hn hh =>
    rw [Option.some_or] at hres
    refine ⟨hids, hkeyed, ?_, hnamed, ?_, ?_, ?_⟩
    · rw [hrev]
      refine h.linked.append (by omega) ?_
      rw [hp]
      exact h.head base hb
    · rw [hres, hrev]
      rintro _ ⟨⟩
      rw [hh]
      simp [lastId]
    · rw [hres, hrev]
      rintro _ ⟨⟩ u hu
      rw [hw, hd]
      rcases List.mem_append.mp hu with hu | hu
      · exact h.scope base hb u hu
      · rw [List.mem_singleton.mp hu]
        exact ⟨hvw, hvd⟩
    · rw [hres]
      intro hn
      cases hn

/-- The tables hold the initial rows and those of the committed calls, nothing else. -/
structure Accounts (db₀ db : Db) : Prop where
  revisions : db.revisions = db₀.revisions ++ db.log.flatMap (·.2.revisions)
  tombstones : db.tombstones.map Tombstone.id =
    db₀.tombstones.map Tombstone.id ++ db.log.flatMap (·.2.tombstones.map Tombstone.id)
  audit : db.audit = db₀.audit ++ db.log.flatMap (·.2.audit)
  outbox : db.outbox = db₀.outbox ++ db.log.flatMap (·.2.outbox)

theorem id_closeWith (closed : List (JsString × Instant × JsString)) (t : Tombstone) :
    (closeWith closed t).id = t.id := by
  unfold closeWith
  split <;> rfl

theorem Accounts.applyTx {db₀ db : Db} (h : Accounts db₀ db) (call : Nat) (tx : Tx) :
    Accounts db₀ (applyTx call db tx) := by
  have hids : (visibleTombstones db tx).map Tombstone.id =
      db.tombstones.map Tombstone.id ++ tx.tombstones.map Tombstone.id := by
    rw [visibleTombstones, List.map_map, ← List.map_append]
    exact List.map_congr_left fun t _ => id_closeWith _ t
  refine ⟨?_, ?_, ?_, ?_⟩
  · simp [History.applyTx, visibleRevisions, h.revisions]
  · simp [History.applyTx, hids, h.tombstones]
  · simp [History.applyTx, h.audit]
  · simp [History.applyTx, h.outbox]

/-- What every call keeps to, for the history of `r` from the tables `db₀`. -/
def historySpec (r : JsString) (db₀ : Db) : Spec Nat Db Tx where
  inv db := Linear r db ∧ Accounts db₀ db
  guar call db tx db' := db' = db ∨ (db' = applyTx call db tx ∧ Commits r db tx)
  failed call db := call ∉ db.log.map Prod.fst

section Stability

variable {r : JsString} {db₀ : Db} {call : Nat}

theorem mem_keys_resource {tx : Tx} {row : Resource} (h : row ∈ tx.resources) :
    Key.resource row.id ∈ tx.keys := by
  have hm : Key.resource row.id ∈ tx.resources.map (Key.resource ·.id) :=
    List.mem_map_of_mem h
  simp only [Tx.keys, List.mem_append, hm, true_or]

theorem mem_keys_revision {tx : Tx} {v : Revision} (h : v ∈ tx.revisions) :
    Key.revision v.id ∈ tx.keys := by
  have hm : Key.revision v.id ∈ tx.revisions.map (Key.revision ·.id) :=
    List.mem_map_of_mem h
  simp only [Tx.keys, List.mem_append, hm, true_or, or_true]

/-- A transaction that holds the row of `r` keeps every other one off its history. -/
theorem untouched_of_compatible {db : Db} {tx other : Tx} {row : Resource}
    (hrow : tx.resources.find? (·.id = r) = some row) (hc : database.compatible tx other)
    (ho : Commits r db other) :
    other.resources.find? (·.id = r) = none ∧ revisionsOf r other.revisions = [] := by
  have hid : row.id = r := by simpa using List.find?_some hrow
  have hnone : other.resources.find? (·.id = r) = none := by
    rw [List.find?_eq_none]
    intro x hx hxr
    have hk := hc _ (mem_keys_resource (List.mem_of_find?_eq_some hrow))
    refine hk ?_
    rw [hid, ← show x.id = r by simpa using hxr]
    exact mem_keys_resource hx
  have he := ho.extends_
  rw [hnone] at he
  generalize revisionsOf r other.revisions = vs at he
  cases he
  exact ⟨hnone, rfl⟩

theorem fresh_applyTx {db : Db} {tx other : Tx} (hc : database.compatible tx other) {v : Revision}
    (hv : v ∈ tx.revisions) (h : Unused db v) (j : Nat) : Unused (applyTx j db other) v := by
  refine ⟨h.1, ?_⟩
  simp only [applyTx, visibleRevisions, List.map_append, List.mem_append, not_or]
  refine ⟨h.2, ?_⟩
  intro hm
  obtain ⟨u, hu, hid⟩ := List.mem_map.mp hm
  refine hc _ (mem_keys_revision hv) ?_
  rw [← hid]
  exact mem_keys_revision hu

theorem not_mem_log_applyTx {j : Nat} {db : Db} {other : Tx} (hj : j ≠ call)
    (h : call ∉ db.log.map Prod.fst) : call ∉ (applyTx j db other).log.map Prod.fst := by
  simp only [applyTx, List.map_append, List.mem_append, not_or]
  exact ⟨h, by simpa using Ne.symm hj⟩

/-- To be stable is to survive the commits of others. -/
theorem stable_of_commit {A : Db → Tx → Prop}
    (h : ∀ j db tx other, j ≠ call → Linear r db → A db tx → database.compatible tx other →
      Commits r db other → A (applyTx j db other) tx) :
    (historySpec r db₀).Stable database call A := by
  rintro j db tx db' other hj hinv hA hc (rfl | ⟨rfl, hcommit⟩)
  · exact hA
  · exact h j db tx other hj hinv.1 hA hc hcommit

theorem Commits.stable {j : Nat} {db : Db} {tx other : Tx} (h : Commits r db tx)
    (hc : database.compatible tx other) (ho : Commits r db other) :
    Commits r (applyTx j db other) tx := by
  refine ⟨fun v hv => fresh_applyTx hc hv (h.fresh v hv) j, h.nodup, ?_⟩
  have he := h.extends_
  cases hrow : tx.resources.find? (·.id = r) with
  | none =>
    rw [hrow] at he
    generalize revisionsOf r tx.revisions = vs at he ⊢
    cases he
    exact .untouched
  | some row =>
    obtain ⟨hnone, hrev⟩ := untouched_of_compatible hrow hc ho
    have hres : (applyTx j db other).resources r = db.resources r := by
      simp [applyTx, visibleResource, hnone]
    have hlen : revisionsOf r (applyTx j db other).revisions = revisionsOf r db.revisions := by
      rw [show (applyTx j db other).revisions = db.revisions ++ other.revisions from rfl,
        revisionsOf_append, hrev, List.append_nil]
    rw [hrow] at he
    generalize revisionsOf r tx.revisions = vs at he ⊢
    cases he with
    | kept base row hb hw hd hh => exact .kept base row (hres ▸ hb) hw hd hh
    | extended base row v hb hw hd hvw hvd hp hn hh =>
      exact .extended base row v (hres ▸ hb) hw hd hvw hvd hp (hlen ▸ hn) hh

/-- Between statements a call has either done nothing to the history or what it
did is ready to be committed. -/
def Ready (r : JsString) (call : Nat) (db : Db) (tx : Tx) : Prop :=
  call ∉ db.log.map Prod.fst ∧ Commits r db tx

theorem ready_stable : (historySpec r db₀).Stable database call (Ready r call) := by
  refine stable_of_commit ?_
  intro j db tx other hj _ hA hc ho
  exact ⟨not_mem_log_applyTx hj hA.1, hA.2.stable hc ho⟩

/-- A fact about the committed rows that no commit takes back. -/
def Persistent (r : JsString) (P : Db → Prop) : Prop :=
  ∀ j db other, Linear r db → P db → Commits r db other → P (applyTx j db other)

/-- Before its first write: nothing pending, and what was read so far. -/
def Clean (call : Nat) (P : Db → Prop) (db : Db) (tx : Tx) : Prop :=
  call ∉ db.log.map Prod.fst ∧ tx.resources = [] ∧ tx.revisions = [] ∧ P db

theorem clean_stable {P : Db → Prop} (hP : Persistent r P) :
    (historySpec r db₀).Stable database call (Clean call P) := by
  refine stable_of_commit ?_
  intro j db tx other hj hl hA _ ho
  exact ⟨not_mem_log_applyTx hj hA.1, hA.2.1, hA.2.2.1, hP j db other hl hA.2.2.2 ho⟩

theorem base_of_applyTx {j : Nat} {db : Db} {other : Tx} {base : Resource}
    (ho : Commits r db other) (hb : (applyTx j db other).resources r = some base) :
    ∃ old, db.resources r = some old ∧ base.workspaceId = old.workspaceId ∧
      base.datasetId = old.datasetId := by
  have he := ho.extends_
  have hb' : (other.resources.find? (·.id = r)).or (db.resources r) = some base := hb
  generalize other.resources.find? (·.id = r) = row? at he hb'
  generalize revisionsOf r other.revisions = vs at he
  cases he with
  | untouched => exact ⟨base, hb', rfl, rfl⟩
  | kept old row hold hw hd hh =>
    cases hb'
    exact ⟨old, hold, hw, hd⟩
  | extended old row v hold hw hd hvw hvd hp hn hh =>
    cases hb'
    exact ⟨old, hold, hw, hd⟩

theorem mem_applyTx {j : Nat} {db : Db} {other : Tx} {v : Revision} (h : v ∈ db.revisions) :
    v ∈ (applyTx j db other).revisions := List.mem_append_left _ h

/-- The resource was read while its head was a revision of its own. -/
def Scope (r : JsString) (res : Resource) (db : Db) : Prop :=
  res.id = r →
    (∀ base, db.resources r = some base → base.workspaceId = res.workspaceId ∧
      base.datasetId = res.datasetId) ∧
    ∀ id ∈ res.currentRevisionId, ∃ u ∈ db.revisions, u.id = id ∧ u.resourceId = r

theorem scope_persistent (res : Resource) : Persistent r (Scope r res) := by
  intro j db other _ h ho hid
  obtain ⟨hbase, hhead⟩ := h hid
  refine ⟨?_, ?_⟩
  · intro base hb
    obtain ⟨old, hold, hw, hd⟩ := base_of_applyTx ho hb
    rw [hw, hd]
    exact hbase old hold
  · intro id hh
    obtain ⟨u, hu, h₁, h₂⟩ := hhead id hh
    exact ⟨u, mem_applyTx hu, h₁, h₂⟩

/-- The revision read as current is the head, and of the same resource. -/
def Current (r : JsString) (res : Resource) (current : Option Revision) (db : Db) : Prop :=
  current.map Revision.id = res.currentRevisionId ∧
    (res.id = r → ∀ u ∈ current, u ∈ db.revisions ∧ u.resourceId = r)

theorem current_persistent (res : Resource) (current : Option Revision) :
    Persistent r (fun db => Scope r res db ∧ Current r res current db) := by
  intro j db other hl h ho
  refine ⟨scope_persistent res j db other hl h.1 ho, h.2.1, ?_⟩
  intro hid u hu
  obtain ⟨h₁, h₂⟩ := h.2.2 hid u hu
  exact ⟨mem_applyTx h₁, h₂⟩

/-- The proposed revision follows the expected head. -/
structure Follows (r : JsString) (db : Db) (v : Revision) (expected : Option JsString) : Prop where
  parent : v.parentRevisionId = expected
  first : expected = none → v.revisionNumber = 1
  next : ∀ id ∈ expected, ∃ u ∈ db.revisions, u.id = id ∧ u.resourceId = r ∧
    v.revisionNumber = u.revisionNumber + 1
  scope : ∀ base, db.resources r = some base → v.workspaceId = base.workspaceId ∧
    v.datasetId = base.datasetId

/-- After the insert and before the head is moved. -/
def Inserted (r : JsString) (call : Nat) (v : Revision) (expected : Option JsString) (db : Db)
    (tx : Tx) : Prop :=
  call ∉ db.log.map Prod.fst ∧ tx.resources = [] ∧ tx.revisions = [v] ∧
    Unused db v ∧ (v.resourceId = r → Follows r db v expected)

theorem inserted_stable (v : Revision) (expected : Option JsString) :
    (historySpec r db₀).Stable database call (Inserted r call v expected) := by
  refine stable_of_commit ?_
  intro j db tx other hj hl hA hc ho
  refine ⟨not_mem_log_applyTx hj hA.1, hA.2.1, hA.2.2.1, ?_, ?_⟩
  · exact fresh_applyTx hc (by simp [hA.2.2.1]) hA.2.2.2.1 j
  · intro hr
    have hf := hA.2.2.2.2 hr
    refine ⟨hf.parent, hf.first, ?_, ?_⟩
    · intro id hid
      obtain ⟨u, hu, h₁, h₂, h₃⟩ := hf.next id hid
      exact ⟨u, mem_applyTx hu, h₁, h₂, h₃⟩
    · intro base hb
      obtain ⟨old, hold, hw, hd⟩ := base_of_applyTx ho hb
      rw [hw, hd]
      exact hf.scope old hold

/-- The last revision of a linear history has its length as number. -/
theorem Linear.last {db : Db} (h : Linear r db) {u : Revision} (hu : u ∈ db.revisions)
    (hur : u.resourceId = r) (hid : some u.id = lastId none (revisionsOf r db.revisions)) :
    u.revisionNumber = (revisionsOf r db.revisions).length := by
  have hmem : u ∈ revisionsOf r db.revisions := by
    simp [revisionsOf, hu, hur]
  have hne : revisionsOf r db.revisions ≠ [] := List.ne_nil_of_mem hmem
  obtain ⟨us, l, hl⟩ := (List.eq_nil_or_concat (revisionsOf r db.revisions)).resolve_left hne
  rw [List.concat_eq_append] at hl
  have hlid : u.id = l.id := by
    rw [hl] at hid
    simpa [lastId] using hid
  have hlm : l ∈ db.revisions := by
    have hm : l ∈ revisionsOf r db.revisions := by simp [hl]
    exact List.mem_of_mem_filter hm
  have hul : u = l := List.inj_on_of_nodup_map h.ids hu hlm hlid
  have hn := h.linked.number us.length l (by simp [hl])
  rw [hul, hn, hl]
  simp

/-- What a head update that matched its row leaves pending. -/
theorem setResourceHead_moved {db : Db} {tx tx' : Tx} {i : HeadUpdate}
    (hrows : tx.resources = []) (h : (true, tx') = setResourceHead db tx i) :
    ∃ base row, db.resources i.resourceId = some base ∧
      base.currentRevisionId = i.expectedRevisionId ∧ tx'.resources = [row] ∧
      tx'.revisions = tx.revisions ∧ row.id = base.id ∧ row.workspaceId = base.workspaceId ∧
      row.datasetId = base.datasetId ∧ row.currentRevisionId = i.nextRevisionId := by
  unfold setResourceHead visibleResource at h
  rw [hrows, List.find?_nil, Option.none_or] at h
  cases hbase : db.resources i.resourceId with
  | none => simp [hbase] at h
  | some base =>
    rw [hbase] at h
    simp only at h
    split at h
    · rename_i hcas
      have htx : tx' = _ := (Prod.mk.inj h).2
      refine ⟨base, { base with currentRevisionId := i.nextRevisionId, status := i.status,
                                updatedAt := i.updatedAt }, rfl, hcas.2, ?_, ?_, rfl, rfl, rfl, rfl⟩
      · rw [htx]
      · rw [htx]
    · simp at h

theorem find?_row {rows : List Resource} {row : Resource} (h : rows = [row]) :
    rows.find? (·.id = r) = if row.id = r then some row else none := by
  subst h
  by_cases hr : row.id = r <;> simp [hr]

/-- The number of a revision that follows the head of a linear history. -/
theorem Follows.number {db : Db} {v : Revision} {base : Resource} (hl : Linear r db)
    (hb : db.resources r = some base) (hf : Follows r db v base.currentRevisionId) :
    v.revisionNumber = (revisionsOf r db.revisions).length + 1 := by
  have hhead := hl.head base hb
  cases hc : base.currentRevisionId with
  | none =>
    have hnil : revisionsOf r db.revisions = [] := by
      by_contra hne
      obtain ⟨us, l, hus⟩ := (List.eq_nil_or_concat _).resolve_left hne
      rw [hc, hus] at hhead
      simp [lastId] at hhead
    rw [hf.first hc, hnil]
    rfl
  | some id =>
    obtain ⟨u, hu, huid, hur, hnum⟩ := hf.next id (by simp [hc])
    rw [hnum, hl.last hu hur (by rw [huid, ← hhead, hc])]

/-- Moving the head over the expected revision makes the insert ready to commit. -/
theorem Inserted.moved {db : Db} {tx tx' : Tx} {v : Revision} {expected : Option JsString}
    {i : HeadUpdate} (h : Inserted r call v expected db tx) (hl : Linear r db)
    (hres : i.resourceId = v.resourceId) (hexp : i.expectedRevisionId = expected)
    (hnext : i.nextRevisionId = some v.id) (hset : (true, tx') = setResourceHead db tx i) :
    Ready r call db tx' := by
  obtain ⟨hlog, hrows, hrevs, hfresh, hfollows⟩ := h
  obtain ⟨base, row, hbase, hcas, hrow, hrevs', hid, hw, hd, hh⟩ := setResourceHead_moved hrows hset
  have hbid : base.id = v.resourceId := by rw [hl.keyed _ _ hbase, hres]
  rw [hrevs] at hrevs'
  refine ⟨hlog, ?_, ?_, ?_⟩
  · simpa [hrevs'] using hfresh
  · simp [hrevs']
  · rw [find?_row hrow, hrevs', hid, hbid]
    by_cases hr : v.resourceId = r
    · have hbr : db.resources r = some base := by rw [← hr, ← hres, hbase]
      have hf := hfollows hr
      have he : expected = base.currentRevisionId := by rw [hcas, hexp]
      rw [if_pos hr, show revisionsOf r [v] = [v] by simp [revisionsOf, hr]]
      exact .extended base row v hbr hw hd (hf.scope base hbr).1 (hf.scope base hbr).2
        (by rw [hf.parent, he]) ((he ▸ hf).number hl hbr) (by rw [hh, hnext])
    · rw [if_neg hr, show revisionsOf r [v] = [] by simp [revisionsOf, hr]]
      exact .untouched

/-- A head update to the same revision is ready to commit as well. -/
theorem Clean.moved {P : Db → Prop} {db : Db} {tx tx' : Tx} {i : HeadUpdate}
    (h : Clean call P db tx) (hl : Linear r db) (hnext : i.nextRevisionId = i.expectedRevisionId)
    (hset : (true, tx') = setResourceHead db tx i) : Ready r call db tx' := by
  obtain ⟨hlog, hrows, hrevs, _⟩ := h
  obtain ⟨base, row, hbase, hcas, hrow, hrevs', hid, hw, hd, hh⟩ := setResourceHead_moved hrows hset
  have hbid := hl.keyed _ _ hbase
  rw [hrevs] at hrevs'
  refine ⟨hlog, by simp [hrevs'], by simp [hrevs'], ?_⟩
  rw [find?_row hrow, hrevs', hid, hbid]
  by_cases hr : i.resourceId = r
  · rw [if_pos hr]
    exact .kept base row (hr ▸ hbase) hw hd (by rw [hh, hnext, hcas])
  · rw [if_neg hr]
    exact .untouched

end Stability

section Outlines

variable {r : JsString} {db₀ : Db} {call : Nat}

/-- The statements that neither insert a revision, move a head nor commit. -/
def Stmt.quiet : Stmt → Bool
  | .insertRevision _ | .setResourceHead _ | .commit => false
  | _ => true

theorem exec_quiet {db db' : Db} {tx tx' : Tx} {st : Stmt} {x : st.Result}
    (hq : st.quiet = true) (h : exec call db tx st x db' tx') :
    db' = db ∧ tx'.resources = tx.resources ∧ tx'.revisions = tx.revisions := by
  obtain ⟨clock, fresh, h⟩ := h
  cases st with
  | insertRevision => cases hq
  | setResourceHead => cases hq
  | commit => cases hq
  | now => cases h; exact ⟨rfl, rfl, rfl⟩
  | nextId => cases h; exact ⟨rfl, rfl, rfl⟩
  | getResource => cases h; exact ⟨rfl, rfl, rfl⟩
  | getRevision => cases h; exact ⟨rfl, rfl, rfl⟩
  | getOpenTombstone => cases h; exact ⟨rfl, rfl, rfl⟩
  | previousHash => cases h; exact ⟨rfl, rfl, rfl⟩
  | advisoryLock => cases h; exact ⟨rfl, rfl, rfl⟩
  | insertTombstone t =>
    obtain ⟨tx₁, h₁, h₂⟩ := Option.map_eq_some_iff.mp h
    cases h₂
    simp only [insertTombstone] at h₁
    split_ifs at h₁
    cases h₁
    exact ⟨rfl, rfl, rfl⟩
  | closeTombstone ws id by_ =>
    cases h
    unfold closeRow
    split_ifs <;> exact ⟨rfl, rfl, rfl⟩
  | insertAudit row =>
    obtain ⟨tx₁, h₁, h₂⟩ := Option.map_eq_some_iff.mp h
    cases h₂
    simp only [insertAudit] at h₁
    split at h₁
    · cases h₁
    · split_ifs at h₁
      cases h₁
      exact ⟨rfl, rfl, rfl⟩
  | insertOperation o =>
    obtain ⟨tx₁, h₁, h₂⟩ := Option.map_eq_some_iff.mp h
    cases h₂
    simp only [insertOperation] at h₁
    split_ifs at h₁ <;> cases h₁ <;> exact ⟨rfl, rfl, rfl⟩
  | insertOutbox o =>
    cases h
    unfold insertOutbox
    split_ifs <;> exact ⟨rfl, rfl, rfl⟩

theorem Ready.congr {db : Db} {tx tx' : Tx} (h : Ready r call db tx)
    (h₁ : tx'.resources = tx.resources) (h₂ : tx'.revisions = tx.revisions) :
    Ready r call db tx' :=
  ⟨h.1, by rw [h₂]; exact h.2.fresh, by rw [h₂]; exact h.2.nodup,
    by rw [h₁, h₂]; exact h.2.extends_⟩

theorem triple_ready {st : Stmt} (hq : st.quiet = true) :
    (historySpec r db₀).Triple database call (Ready r call)
      (Prog.perform st : HistoryProg st.Result) (fun _ => Ready r call) := by
  refine Spec.Triple.perform _ (fun _ _ _ h => h.1) (fun _ => ready_stable) ?_
  intro db tx x db' tx' hinv hA hx
  obtain ⟨rfl, h₁, h₂⟩ := exec_quiet hq hx
  exact ⟨hinv, Or.inl rfl, hA.congr h₁ h₂⟩

/-- A quiet statement before the first write, and what its answer tells. -/
theorem triple_clean (st : Stmt) (hq : st.quiet = true) {P : Db → Prop}
    (P' : st.Result → Db → Prop) (hP : ∀ x, Persistent r (P' x))
    (hx : ∀ db tx x tx', Linear r db → Clean call P db tx → exec call db tx st x db tx' → P' x db) :
    (historySpec r db₀).Triple database call (Clean call P)
      (Prog.perform st : HistoryProg st.Result) (fun x => Clean call (P' x)) := by
  refine Spec.Triple.perform _ (fun _ _ _ h => h.1) (fun x => clean_stable (hP x)) ?_
  intro db tx x db' tx' hinv hA hexec
  obtain ⟨rfl, h₁, h₂⟩ := exec_quiet hq hexec
  exact ⟨hinv, Or.inl rfl, hA.1, by rw [h₁, hA.2.1], by rw [h₂, hA.2.2.1],
    hx _ _ _ _ hinv.1 hA hexec⟩

theorem triple_clean_keep {st : Stmt} (hq : st.quiet = true) {P : Db → Prop}
    (hP : Persistent r P) : (historySpec r db₀).Triple database call
      (Clean call P) (Prog.perform st : HistoryProg st.Result) (fun _ => Clean call P) :=
  triple_clean st hq (fun _ => P) (fun _ => hP) fun _ _ _ _ _ hA _ => hA.2.2.2

theorem triple_throw {A : Db → Tx → Prop} {α : Type} {Q : α → Db → Tx → Prop} {e : ServiceError}
    (h : ∀ db tx, A db tx → call ∉ db.log.map Prod.fst) :
    (historySpec r db₀).Triple database call A (Prog.throw e : HistoryProg α) Q :=
  fun db tx _ hA => h db tx hA

theorem triple_appendAudit (event : HistoryAuditEvent) :
    (historySpec r db₀).Triple database call (Ready r call) (appendAudit event)
      (fun _ => Ready r call) := by
  refine Spec.Triple.bind (triple_ready rfl) fun _ => ?_
  refine Spec.Triple.bind (triple_ready rfl) fun _ => ?_
  refine Spec.Triple.bind (triple_ready rfl) fun _ => ?_
  refine Spec.Triple.bind (triple_ready rfl) fun _ => ?_
  refine Spec.Triple.bind (triple_ready rfl) fun _ => ?_
  exact triple_ready rfl

theorem triple_enqueueOutbox (event : HistoryOutboxEvent) :
    (historySpec r db₀).Triple database call (Ready r call) (enqueueOutbox event)
      (fun _ => Ready r call) := by
  refine Spec.Triple.bind (triple_ready rfl) fun _ => ?_
  exact triple_ready rfl

theorem triple_getResource (ws id : JsString) {P : Db → Prop} :
    (historySpec r db₀).Triple database call (Clean call P) (getResource ws id)
      (fun x => Clean call (fun db => ∀ res ∈ x, Scope r res db)) := by
  refine triple_clean (.getResource ws id) rfl _ ?_ ?_
  · intro x j db other hl h ho res hres
    exact scope_persistent res j db other hl (h res hres) ho
  · rintro db tx x tx' hl hA ⟨_, _, hx⟩ res hres hid
    cases hx
    have hrow : db.resources id = some res := by
      rw [Option.mem_def, visibleResource, hA.2.1, List.find?_nil, Option.none_or] at hres
      exact (Option.filter_eq_some_iff.mp hres).1
    have hr : id = r := by rw [← hl.keyed id res hrow, hid]
    rw [hr] at hrow
    refine ⟨?_, ?_⟩
    · intro base hb
      rw [hrow] at hb
      cases hb
      exact ⟨rfl, rfl⟩
    · intro h hh
      have hhead := hl.head res hrow
      rw [Option.mem_def.mp hh] at hhead
      simp only [lastId, Option.or_none] at hhead
      obtain ⟨u, hu, huid⟩ := Option.map_eq_some_iff.mp hhead.symm
      have hmem := List.mem_filter.mp (List.mem_of_getLast? hu)
      exact ⟨u, hmem.1, huid, by simpa using hmem.2⟩

theorem triple_requiredResource (ws id : JsString) {P : Db → Prop} :
    (historySpec r db₀).Triple database call (Clean call P) (requiredResource ws id)
      (fun res => Clean call (Scope r res)) := by
  refine Spec.Triple.bind (triple_getResource ws id) fun x => ?_
  cases x with
  | none => exact triple_throw fun db tx hA => hA.1
  | some res =>
    intro db tx _ hA
    exact ⟨hA.1, hA.2.1, hA.2.2.1, hA.2.2.2 res rfl⟩

theorem triple_currentRevision (ws : JsString) (res : Resource) :
    (historySpec r db₀).Triple database call (Clean call (Scope r res)) (currentRevision ws res)
      (fun cur => Clean call (fun db => Scope r res db ∧ Current r res cur db)) := by
  unfold currentRevision
  cases hc : res.currentRevisionId with
  | none =>
    intro db tx _ hA
    refine ⟨hA.1, hA.2.1, hA.2.2.1, hA.2.2.2, by simp [hc], ?_⟩
    intro _ u hu
    cases hu
  | some id =>
    have hread : (historySpec r db₀).Triple database call (Clean call (Scope r res))
        (getRevision ws id) (fun x => Clean call (fun db => ∀ v ∈ x,
          Scope r res db ∧ Current r res (some v) db)) := by
      refine triple_clean (.getRevision ws id) rfl _ ?_ ?_
      · intro x j db other hl h ho v hv
        exact current_persistent res (some v) j db other hl (h v hv) ho
      · rintro db tx x tx' hl hA ⟨_, _, hx⟩ v hv
        cases hx
        rw [Option.mem_def, visibleRevisions, hA.2.2.1, List.append_nil] at hv
        have hfound : v.workspaceId = ws ∧ v.id = id := by simpa using List.find?_some hv
        have hvid := hfound.2
        have hmem := List.mem_of_find?_eq_some hv
        refine ⟨hA.2.2.2, by simp [hc, hvid], ?_⟩
        rintro hr u hu
        cases hu
        obtain ⟨w, hw, hwid, hwr⟩ := (hA.2.2.2 hr).2 id hc
        rw [List.inj_on_of_nodup_map hl.ids hmem hw (by rw [hvid, hwid])]
        exact ⟨hw, hwr⟩
    have hrequired : (historySpec r db₀).Triple database call (Clean call (Scope r res))
        (requiredRevision ws id) (fun v => Clean call (fun db =>
          Scope r res db ∧ Current r res (some v) db)) := by
      refine Spec.Triple.bind hread fun x => ?_
      cases x with
      | none => exact triple_throw fun db tx hA => hA.1
      | some v =>
        intro db tx _ hA
        exact ⟨hA.1, hA.2.1, hA.2.2.1, hA.2.2.2 v rfl⟩
    exact Spec.Triple.bind hrequired fun v _ _ _ hA => hA

/-- The checks of `assertNextRevision` hold of every proposed revision. -/
theorem follows_proposed {localeLe : JsString → JsString → Bool} {input : CreateRevisionInput}
    {res : Resource} {current : Option Revision} {id : JsString} {createdAt : Instant} {db : Db}
    (hr : res.id = r) (hs : Scope r res db) (hc : Current r res current db)
    (he : res.currentRevisionId = input.expectedRevisionId) :
    Follows r db (proposedRevision localeLe input res current id createdAt)
      input.expectedRevisionId := by
  refine ⟨?_, ?_, ?_, ?_⟩
  · rw [← he, ← hc.1]
    rfl
  · intro hn
    rw [← he, ← hc.1, Option.map_eq_none_iff] at hn
    simp [proposedRevision, hn]
  · intro i hi
    rw [← he, ← hc.1] at hi
    obtain ⟨u, hu, huid⟩ := Option.map_eq_some_iff.mp hi
    obtain ⟨hmem, hur⟩ := hc.2 hr u hu
    exact ⟨u, hmem, huid, hur, by simp [proposedRevision, hu]⟩
  · intro base hb
    obtain ⟨hw, hd⟩ := (hs hr).1 base hb
    exact ⟨hw.symm, hd.symm⟩

theorem triple_appendRevision {P : Db → Prop} {v : Revision} (expected : Option JsString)
    (h : ∀ db, P db → v.resourceId = r → Follows r db v expected) :
    (historySpec r db₀).Triple database call (Clean call P) (appendRevision v)
      (fun _ => Inserted r call v expected) := by
  refine Spec.Triple.perform _ (fun _ _ _ hA => hA.1) (fun _ => inserted_stable v expected) ?_
  rintro db tx _ db' tx' hinv hA ⟨_, _, hx⟩
  obtain ⟨tx₁, hins, he⟩ := Option.map_eq_some_iff.mp hx
  cases he
  simp only [insertRevision, visibleRevisions, hA.2.2.1, List.append_nil] at hins
  split_ifs at hins with hdup
  split at hins
  · cases hins
  · split_ifs at hins
    cases hins
    refine ⟨hinv, Or.inl rfl, hA.1, hA.2.1, by simp, ?_, h _ hA.2.2.2⟩
    rw [not_or, not_or] at hdup
    refine ⟨hdup.1, ?_⟩
    intro hm
    obtain ⟨u, hu, hid⟩ := List.mem_map.mp hm
    exact hdup.2.1 ⟨u, hu, hid⟩

theorem triple_setHead {A : Db → Tx → Prop} {i : HeadUpdate}
    (hA : ∀ db tx, A db tx → call ∉ db.log.map Prod.fst)
    (hst : (historySpec r db₀).Stable database call A)
    (h : ∀ db tx tx', Linear r db → A db tx → (true, tx') = setResourceHead db tx i →
      Ready r call db tx') :
    (historySpec r db₀).Triple database call A (setHead i)
      (fun moved db tx => if moved = true then Ready r call db tx else A db tx) := by
  refine Spec.Triple.perform _ (fun _ _ _ => hA _ _) ?_ ?_
  · intro moved
    cases moved with
    | true => exact ready_stable
    | false => exact hst
  · rintro db tx moved db' tx' hinv hAt ⟨_, _, hx⟩
    obtain ⟨hset, rfl⟩ : (moved, tx') = setResourceHead db tx i ∧ db' = db := by
      simp only [answer, Option.some.injEq, Prod.mk.injEq] at hx
      exact ⟨Prod.ext hx.1.symm hx.2.2.symm, hx.2.1.symm⟩
    refine ⟨hinv, Or.inl rfl, ?_⟩
    cases moved with
    | true => exact h _ tx tx' hinv.1 hAt hset
    | false =>
      have htx : tx' = tx := by
        unfold setResourceHead at hset
        split at hset
        · exact (Prod.mk.inj hset).2
        · split_ifs at hset
          · simp at hset
          · exact (Prod.mk.inj hset).2
      rw [htx]
      exact hAt

theorem triple_createRevisionWithin (localeLe : JsString → JsString → Bool)
    (input : CreateRevisionInput) {P : Db → Prop} :
    (historySpec r db₀).Triple database call (Clean call P)
      (createRevisionWithin localeLe input) (fun _ => Ready r call) := by
  refine Spec.Triple.bind (triple_requiredResource _ _) fun res => ?_
  refine Spec.Triple.bind (triple_currentRevision _ res) fun current => ?_
  have hkeep := current_persistent (r := r) res current
  split_ifs with he
  · exact triple_throw fun _ _ hA => hA.1
  simp only [ne_eq, not_not] at he
  refine Spec.Triple.bind (triple_clean_keep rfl hkeep) fun createdAt => ?_
  refine Spec.Triple.bind (triple_clean_keep rfl hkeep) fun id => ?_
  simp only
  split
  · exact triple_throw fun _ _ hA => hA.1
  · refine Spec.Triple.bind (triple_appendRevision input.expectedRevisionId ?_) fun _ => ?_
    · intro db hP hr
      exact follows_proposed hr hP.1 hP.2 he
    refine Spec.Triple.bind (triple_setHead (fun _ _ hA => hA.1) (inserted_stable _ _) ?_)
      fun moved => ?_
    · intro db tx tx' hl hA hset
      exact hA.moved hl rfl rfl rfl hset
    cases moved with
    | true =>
      refine Spec.Triple.bind (triple_appendAudit _) fun _ => ?_
      exact Spec.Triple.bind (triple_enqueueOutbox _) fun _ _ _ _ hA => hA
    | false => exact triple_throw fun _ _ hA => hA.1

theorem triple_deleteResourceWithin (input : DeleteResourceInput) {P : Db → Prop} :
    (historySpec r db₀).Triple database call (Clean call P) (deleteResourceWithin input)
      (fun _ => Ready r call) := by
  refine Spec.Triple.bind (triple_requiredResource _ _) fun res => ?_
  have hkeep := scope_persistent (r := r) res
  split_ifs with he
  · exact triple_throw fun _ _ hA => hA.1
  simp only [ne_eq, not_not] at he
  refine Spec.Triple.bind (triple_clean_keep rfl hkeep) fun deletedAt => ?_
  refine Spec.Triple.bind (triple_clean_keep rfl hkeep) fun id => ?_
  refine Spec.Triple.bind (triple_clean_keep rfl hkeep) fun _ => ?_
  refine Spec.Triple.bind (triple_setHead (fun _ _ hA => hA.1) (clean_stable hkeep) ?_)
    fun moved => ?_
  · intro db tx tx' hl hA hset
    exact hA.moved hl he hset
  cases moved with
  | true =>
    refine Spec.Triple.bind (triple_appendAudit _) fun _ => ?_
    exact Spec.Triple.bind (triple_enqueueOutbox _) fun _ _ _ _ hA => hA
  | false => exact triple_throw fun _ _ hA => hA.1

theorem triple_requiredRevision (ws id : JsString) {P : Db → Prop} (hP : Persistent r P) :
    (historySpec r db₀).Triple database call (Clean call P) (requiredRevision ws id)
      (fun _ => Clean call P) := by
  refine Spec.Triple.bind (triple_clean_keep rfl hP) fun x => ?_
  cases x with
  | none => exact triple_throw fun _ _ hA => hA.1
  | some v => exact fun _ _ _ hA => hA

theorem triple_restoreResourceWithin (localeLe : JsString → JsString → Bool)
    (input : RestoreResourceInput) {P : Db → Prop} :
    (historySpec r db₀).Triple database call (Clean call P)
      (restoreResourceWithin localeLe input) (fun _ => Ready r call) := by
  refine Spec.Triple.bind (triple_requiredResource _ _) fun res => ?_
  have hkeep := scope_persistent (r := r) res
  refine Spec.Triple.bind (triple_clean_keep rfl hkeep) fun tombstone => ?_
  cases tombstone with
  | none => exact triple_throw fun _ _ hA => hA.1
  | some tombstone =>
    simp only
    split
    · exact triple_throw fun _ _ hA => hA.1
    · refine Spec.Triple.bind (triple_clean_keep rfl hkeep) fun at_ => ?_
      split_ifs
      · exact triple_throw fun _ _ hA => hA.1
      · refine Spec.Triple.bind (triple_requiredRevision _ _ hkeep) fun prior => ?_
        refine Spec.Triple.bind (triple_createRevisionWithin localeLe _) fun restored => ?_
        exact Spec.Triple.bind (triple_ready rfl) fun _ _ _ _ hA => hA

theorem triple_inTransaction {α : Type} {A : Db → Tx → Prop} {work : HistoryProg α}
    (h : (historySpec r db₀).Triple database call A work (fun _ => Ready r call)) :
    (historySpec r db₀).Triple database call A (inTransaction work) (fun _ _ _ => True) := by
  refine Spec.Triple.bind h fun a => ?_
  refine Spec.Triple.bind (Spec.Triple.perform (fun _ _ _ => True) (fun _ _ _ hA => hA.1) ?_ ?_)
    fun _ _ _ _ _ => trivial
  · intro _ j db tx db' other _ _ _ _ _
    trivial
  · rintro db tx _ db' tx' hinv hA ⟨_, _, hx⟩
    cases hx
    exact ⟨⟨hinv.1.applyTx hA.2 call, hinv.2.applyTx call tx⟩, Or.inr ⟨rfl, hA.2⟩, trivial⟩

theorem triple_program (localeLe : JsString → JsString → Bool) (c : Call) :
    (historySpec r db₀).Triple database call (Clean call (fun _ => True))
      (c.program localeLe) (fun _ _ _ => True) := by
  cases c with
  | create input =>
    exact Spec.Triple.bind (triple_inTransaction (triple_createRevisionWithin localeLe input))
      fun _ _ _ _ _ => trivial
  | delete input =>
    exact Spec.Triple.bind (triple_inTransaction (triple_deleteResourceWithin input))
      fun _ _ _ _ _ => trivial
  | restore input =>
    exact Spec.Triple.bind (triple_inTransaction (triple_restoreResourceWithin localeLe input))
      fun _ _ _ _ _ => trivial

end Outlines

section Verification

variable {r : JsString} {db : Db} {res : Resource}

/-- In a linear history every revision is the first or has its parent before it. -/
theorem Linear.checked {own : List Revision} (h : Linear r db) (hres : db.resources r = some res)
    (hown : own.Perm (revisionsOf r db.revisions)) {v : Revision} (hv : v ∈ own) :
    Checked res own v := by
  have hids : (own.map Revision.id).Nodup := by
    rw [(hown.map Revision.id).nodup_iff]
    exact h.ids.sublist (List.Sublist.map _ List.filter_sublist)
  obtain ⟨k, hk⟩ := List.mem_iff_getElem?.mp (hown.mem_iff.mp hv)
  have hvn := h.linked.number k v hk
  cases k with
  | zero =>
    exact ⟨h.scope res hres v (hown.mem_iff.mp hv), fun _ => h.linked.first v hk,
      fun hlater => by omega⟩
  | succ k =>
    obtain ⟨u, hu⟩ : ∃ u, (revisionsOf r db.revisions)[k]? = some u := by
      have hlen := (List.getElem?_eq_some_iff.mp hk).1
      exact ⟨_, List.getElem?_eq_getElem (by omega)⟩
    have hmem := List.mem_of_getElem? hu
    have hun := h.linked.number k u hu
    refine ⟨h.scope res hres v (hown.mem_iff.mp hv), fun hfirst => by omega, fun _ => ⟨u, ?_, by omega⟩⟩
    rw [h.linked.parent k u v hu hk, truthy_eq_some (h.named u hmem), Option.bind_some]
    exact lastById_of_mem hids (hown.mem_iff.mpr hmem)

/-- The verifier finds nothing to report about a linear history, in whatever order
it reads the revisions of the workspace. -/
theorem Linear.verifyResourceGraph_nil (h : Linear r db) (hres : db.resources r = some res)
    {revisions : List Revision}
    (hp : revisions.Perm (db.revisions.filter (·.workspaceId = res.workspaceId))) :
    verifyResourceGraph res revisions = [] := by
  have hid := h.keyed r res hres
  have hown : (ownRevisions res revisions).Perm (revisionsOf r db.revisions) := by
    refine (hp.filter _).trans ?_
    rw [List.filter_filter, hid]
    refine List.Perm.of_eq (List.filter_congr fun v hv => ?_)
    by_cases hr : v.resourceId = r
    · have hw := (h.scope res hres v (by simp [revisionsOf, hv, hr])).1
      simp [hr, hw]
    · simp [hr]
  have hids : ((ownRevisions res revisions).map Revision.id).Nodup := by
    rw [(hown.map Revision.id).nodup_iff]
    exact h.ids.sublist (List.Sublist.map _ List.filter_sublist)
  refine RevisionTrees.verifyResourceGraph_nil.mpr
    ⟨(pointer_resolves hids).mpr ?_, fun v hv => h.checked hres hown hv, ?_⟩
  · intro id hcurrent
    have hhead := h.head res hres
    rw [lastId, Option.or_none] at hhead
    rw [hhead, truthy, Option.filter_eq_some_iff] at hcurrent
    obtain ⟨u, hu, rfl⟩ := Option.map_eq_some_iff.mp hcurrent.1
    exact ⟨u, hown.mem_iff.mpr (List.mem_of_getLast? hu), rfl⟩
  · rw [(hown.map Revision.revisionNumber).nodup_iff, h.linked.numbers]
    exact List.nodup_range'

end Verification

/-- The tables as the calls find them: the primary keys hold, and no call has run. -/
structure Initial (db : Db) : Prop where
  ids : (db.revisions.map Revision.id).Nodup
  keyed : ∀ id row, db.resources id = some row → row.id = id
  log : db.log = []

/-- Resource `r` exists and has no revision yet. -/
structure StartsEmpty (r : JsString) (db : Db) : Prop where
  revisions : revisionsOf r db.revisions = []
  head : ∀ row, db.resources r = some row → row.currentRevisionId = none

/-- Any number of clients, each issuing one of the three calls. -/
def historyMachine (localeLe : JsString → JsString → Bool) (db₀ : Db) :=
  database.machine (fun p => ∃ c : Call, p = c.program localeLe) (· = db₀)

theorem sound_historySpec (localeLe : JsString → JsString → Bool) (r : JsString) (db₀ : Db) :
    (historySpec r db₀).Sound database (fun p => ∃ c : Call, p = c.program localeLe) where
  symm := fun _ _ h k hk hk' => h k hk' hk
  start := fun _ k hk => by simp [database, Tx.keys] at hk
  failed := by
    rintro i j db tx db' hij _ h (rfl | ⟨rfl, _⟩)
    · exact h
    · exact not_mem_log_applyTx hij h
  programs := by
    rintro i _ ⟨c, rfl⟩
    refine ⟨_, (triple_program localeLe c).pre ?_⟩
    rintro db tx _ ⟨rfl, hf⟩
    exact ⟨hf, rfl, rfl, trivial⟩

/-- In every interleaving, the committed revisions of a resource that started empty
are numbered `1..n` in order, each with the one before it as parent; the head is the
last; the verifier reports nothing; and the rows of the tables are the initial ones
and those of calls that returned, so a call that throws has added none. -/
theorem history_linear (localeLe : JsString → JsString → Bool) (db₀ : Db) (hinit : Initial db₀)
    (r : JsString) (hr : StartsEmpty r db₀)
    (w : World Nat Db Tx Stmt Stmt.Result ServiceError Unit)
    (hw : (historyMachine localeLe db₀).Reachable w) :
    let revs := revisionsOf r w.shared.revisions
    revs.map Revision.revisionNumber = List.range' 1 revs.length ∧
    (∀ v, revs[0]? = some v → v.parentRevisionId = none) ∧
    (∀ k u v, revs[k]? = some u → revs[k + 1]? = some v → v.parentRevisionId = some u.id) ∧
    (∀ res, w.shared.resources r = some res →
      res.currentRevisionId = revs.getLast?.map Revision.id ∧
      ∀ revisions, revisions.Perm
          (w.shared.revisions.filter (·.workspaceId = res.workspaceId)) →
        verifyResourceGraph res revisions = []) ∧
    (∀ call, w.procs call = .threw → call ∉ w.shared.log.map Prod.fst) ∧
    Accounts db₀ w.shared := by
  have hstart : (historySpec r db₀).inv db₀ := by
    refine ⟨⟨hinit.ids, hinit.keyed, ?_, ?_, ?_, ?_, fun _ => hr.revisions⟩, ?_⟩
    · rw [hr.revisions]
      trivial
    · simp [hr.revisions]
    · intro row hrow
      rw [hr.revisions, hr.head row hrow]
      rfl
    · simp [hr.revisions]
    · exact ⟨by simp [hinit.log], by simp [hinit.log], by simp [hinit.log], by simp [hinit.log]⟩
  have hholds : (historySpec r db₀).Holds database w := by
    refine sound (sound_historySpec localeLe r db₀) ?_ ?_ hw
    · rintro _ rfl
      exact hstart
    · rintro _ i rfl
      simp [historySpec, hinit.log]
  obtain ⟨hl, hacc⟩ := hholds.inv
  refine ⟨hl.linked.numbers, fun v hv => hl.linked.first v hv,
    fun k u v hu hv => hl.linked.parent k u v hu hv, ?_,
    fun call hc => hholds.failed call (Or.inr hc), hacc⟩
  intro res hres
  refine ⟨?_, fun revisions hp => hl.verifyResourceGraph_nil hres hp⟩
  rw [hl.head res hres, lastId, Option.or_none]

/-- A call that has the database to itself from start to end, while no other is active. -/
theorem reachable_of_runAlone {localeLe : JsString → JsString → Bool} {db₀ db db' : Db} {tx' : Tx}
    {c : Call} {call : Nat} {oracle : List (Instant × JsString)} {result : Except ServiceError Unit}
    {procs : Nat → Proc Tx Stmt Stmt.Result ServiceError Unit}
    (hr : (historyMachine localeLe db₀).Reachable ⟨db, procs⟩) (hidle : procs call = .idle)
    (hothers : ∀ j tx p, procs j ≠ .running tx p)
    (h : runAlone call oracle (c.program localeLe).attempt db {} = some (result, db', tx')) :
    (historyMachine localeLe db₀).Reachable
      ⟨db', Function.update procs call (.ofResult result)⟩ :=
  (solo_of_runAlone h).of_attempt.reachable procs (fun j tx p _ => hothers j tx p)
    (hr.step (.begin _ call _ hidle ⟨c, rfl⟩))

def sampleResource : Resource where
  id := js "r"
  workspaceId := js "w"
  datasetId := js "d"
  resourceType := js "document"
  title := none
  status := .active
  currentRevisionId := none
  createdBy := js "user-1"
  createdAt := ⟨0, epoch_bound⟩
  updatedAt := ⟨0, epoch_bound⟩

def sampleDb : Db where
  resources id := if id = js "r" then some sampleResource else none
  revisions := []
  tombstones := []
  audit := []
  operations := []
  outbox := []
  log := []

def sampleCreate (expectedRevisionId : Option JsString) : Call :=
  .create { workspaceId := js "w", resourceId := js "r", expectedRevisionId,
            schemaPackageId := js "s", schemaVersion := js "1", canonicalPayload := ⟨[], isJson_empty⟩,
            actorId := js "user-1" }

/-- Clock readings and ids for the statements of a call, counted from `n`. -/
def sampleOracle (n : Nat) : List (Instant × JsString) :=
  (List.range 20).map fun k => (⟨(n + k) % 1000, by omega⟩, js (toString (n + k)))

/-- A call alone on the tables, with its result. -/
def alone (call : Nat) (c : Call) (db : Db) : Option (Except ServiceError Unit × Db × Tx) :=
  runAlone call (sampleOracle (20 * call)) (c.program unitsLe).attempt db {}

/-- Three clients in turn: the second still expects no revision, the third the one of the first. -/
def sampleClients : Option (Bool × Bool × Bool × Nat) := do
  let first ← alone 0 (sampleCreate none) sampleDb
  let stale ← alone 1 (sampleCreate none) first.2.1
  let update ← alone 2 (sampleCreate (some (js "2"))) stale.2.1
  return (first.1.isOk, stale.1.isOk, update.1.isOk,
    (revisionsOf (js "r") update.2.1.revisions).length)

theorem ofResult_of_isOk {result : Except ServiceError Unit} (h : result.isOk = true) :
    (Proc.ofResult result : Proc Tx Stmt Stmt.Result ServiceError Unit) = .returned () := by
  cases result with
  | error e => cases h
  | ok _ => rfl

theorem ofResult_of_not_isOk {result : Except ServiceError Unit} (h : result.isOk = false) :
    (Proc.ofResult result : Proc Tx Stmt Stmt.Result ServiceError Unit) = .threw := by
  cases result with
  | error e => rfl
  | ok _ => cases h

/-- The second client throws and leaves no row; the revision of the third follows that of the
first. -/
theorem history_linear_clients : ∃ w : World Nat Db Tx Stmt Stmt.Result ServiceError Unit,
    (historyMachine unitsLe sampleDb).Reachable w ∧
    w.procs 0 = .returned () ∧ w.procs 1 = .threw ∧ w.procs 2 = .returned () ∧
    1 ∉ w.shared.log.map Prod.fst ∧
    ∃ u v, revisionsOf (js "r") w.shared.revisions = [u, v] ∧
      u.parentRevisionId = none ∧ v.parentRevisionId = some u.id := by
  have hclients : sampleClients = some (true, false, true, 2) := by decide +kernel
  unfold sampleClients at hclients
  obtain ⟨⟨first, db₁, tx₁⟩, hfirst, hclients⟩ := Option.bind_eq_some_iff.mp hclients
  obtain ⟨⟨stale, db₂, tx₂⟩, hstale, hclients⟩ := Option.bind_eq_some_iff.mp hclients
  obtain ⟨⟨update, db₃, tx₃⟩, hupdate, hclients⟩ := Option.bind_eq_some_iff.mp hclients
  simp only [Option.pure_def, Option.some.injEq, Prod.mk.injEq] at hclients
  obtain ⟨hreturned, hthrew, hreturned', hlength⟩ := hclients
  have hidle : (historyMachine unitsLe sampleDb).Reachable ⟨sampleDb, fun _ => .idle⟩ :=
    .init ⟨rfl, fun _ => rfl⟩
  have hran := reachable_of_runAlone hidle rfl (fun j tx p h => by cases h) hfirst
  rw [ofResult_of_isOk hreturned] at hran
  have hran' := reachable_of_runAlone hran (by simp)
    (fun j tx p => by by_cases hj : j = 0 <;> simp [hj, Function.update]) hstale
  rw [ofResult_of_not_isOk hthrew] at hran'
  have hran'' := reachable_of_runAlone hran' (by simp)
    (fun j tx p => by by_cases hj : j = 0 <;> by_cases hj' : j = 1 <;>
      simp [hj, hj', Function.update]) hupdate
  rw [ofResult_of_isOk hreturned'] at hran''
  have hkeyed : ∀ id row, sampleDb.resources id = some row → row.id = id := by
    intro id row h
    simp only [sampleDb] at h
    split_ifs at h with hid
    cases h
    exact hid.symm
  have hhead : ∀ row, sampleDb.resources (js "r") = some row → row.currentRevisionId = none := by
    rintro row ⟨⟩
    rfl
  obtain ⟨-, hroot, hparent, -, hlog, -⟩ := history_linear unitsLe sampleDb
    ⟨by simp [sampleDb], hkeyed, rfl⟩ (js "r") ⟨rfl, hhead⟩ _ hran''
  obtain ⟨u, v, hrevisions⟩ := List.length_eq_two.mp hlength
  refine ⟨_, hran'', by simp, by simp, by simp, hlog 1 (by simp), u, v, hrevisions, ?_, ?_⟩
  · exact hroot u (by simp [hrevisions])
  · exact hparent 0 u v (by simp [hrevisions]) (by simp [hrevisions])

end TrustCore.History
