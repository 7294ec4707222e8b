import TrustCore.ArchiveViewer
import TrustCore.ArchiveExport

/-!
# The viewer and the database

What the viewer shows of the resources of exported datasets, beside their rows. The viewer takes
every tombstone of a resource for a deletion, also one that a restore has closed.
-/

namespace TrustCore.ViewerAgreement

open TrustCore.Utf TrustCore.Json TrustCore.Dynamic TrustCore.Runs
open TrustCore.ArchiveFormat TrustCore.ArchiveVerify TrustCore.ArchiveAssemble
open TrustCore.ArchiveContainer TrustCore.ArchiveViewer TrustCore.PortabilityExport TrustCore.History
open TrustCore.ImportReferences (mapM_eq_some mem_of_forall₂)
open TrustCore.Sha256 (isSha256)
open TrustCore.Columns (toISOString epoch_bound)
open TrustCore.AuditLog (AuditRow isJson_empty)
open TrustCore.Programs (System.solo_bind)

/-! ## Tombstones of a run -/

/-- The tombstone is one of the resource. -/
structure TombstoneOf (t : Tombstone) (res : Resource) : Prop where
  kind : t.subjectKind = .resource
  subject : t.subjectId = res.id
  workspace : t.workspaceId = res.workspaceId
  dataset : t.datasetId = res.datasetId

/-- Revisions and tombstones stay with a resource of the tables, and a deleted one has a tombstone. -/
structure Filed (db : Db) : Prop where
  keyed : ∀ id row, db.resources id = some row → row.id = id
  revisions : ∀ v ∈ db.revisions, ∃ res, db.resources v.resourceId = some res ∧ v.Of res
  tombstones : ∀ t ∈ db.tombstones, t.subjectKind = .resource →
    ∃ res, db.resources t.subjectId = some res ∧ TombstoneOf t res
  deleted : ∀ id res, db.resources id = some res → res.status = .deletedLogically →
    ∃ t ∈ db.tombstones, TombstoneOf t res

/-- Fresh resources, and revisions under the foreign key of their table. -/
structure Opened (db : Db) : Prop extends Fresh db where
  revisions : ∀ v ∈ db.revisions, ∃ res, db.resources v.resourceId = some res ∧ v.Of res

theorem Opened.filed {db : Db} (h : Opened db) : Filed db := by
  refine ⟨h.keyed, h.revisions, ?_, ?_⟩
  · intro t ht
    rw [h.tombstones] at ht
    cases ht
  · intro id res hres hdeleted
    rw [h.active id res hres] at hdeleted
    cases hdeleted

section Steps

variable {call : Nat} {db : Db} {tx : Tx} {row base : Resource}

/-- Rows that lie in one workspace and dataset, under one id. -/
structure SamePlace (row base : Resource) : Prop where
  id : row.id = base.id
  workspace : row.workspaceId = base.workspaceId
  dataset : row.datasetId = base.datasetId

theorem SamePlace.revision {v : Revision} (h : SamePlace row base) (hv : v.Of base) : v.Of row :=
  ⟨hv.resource.trans h.id.symm, hv.workspace.trans h.workspace.symm, hv.dataset.trans h.dataset.symm⟩

theorem SamePlace.tombstone {t : Tombstone} (h : SamePlace row base) (ht : TombstoneOf t base) :
    TombstoneOf t row :=
  ⟨ht.kind, ht.subject.trans h.id.symm, ht.workspace.trans h.workspace.symm,
    ht.dataset.trans h.dataset.symm⟩

theorem SamePlace.trans {row' : Resource} (h : SamePlace row base) (h' : SamePlace base row') :
    SamePlace row row' :=
  ⟨h.id.trans h'.id, h.workspace.trans h'.workspace, h.dataset.trans h'.dataset⟩

/-- A tombstone that is closed stays where it is. -/
theorem tombstoneOf_closeWith (closed : List (JsString × Columns.Instant × JsString)) (t : Tombstone)
    (res : Resource) : TombstoneOf (closeWith closed t) res ↔ TombstoneOf t res := by
  rw [closeWith]
  split
  · exact ⟨fun h => ⟨h.kind, h.subject, h.workspace, h.dataset⟩,
      fun h => ⟨h.kind, h.subject, h.workspace, h.dataset⟩⟩
  · exact Iff.rfl

theorem subject_closeWith (closed : List (JsString × Columns.Instant × JsString)) (t : Tombstone) :
    (closeWith closed t).subjectKind = t.subjectKind ∧
      (closeWith closed t).subjectId = t.subjectId := by
  rw [closeWith]
  split
  · exact ⟨rfl, rfl⟩
  · exact ⟨rfl, rfl⟩

/-- What a call writes: one row that stays in its place, with revisions and tombstones of it. -/
structure Rewrites (db : Db) (tx : Tx) (base row : Resource) : Prop where
  found : db.resources base.id = some base
  written : tx.resources = [row]
  place : SamePlace row base
  revisions : ∀ v ∈ tx.revisions, v.Of base
  tombstones : ∀ t ∈ tx.tombstones, TombstoneOf t base
  deleted : row.status = .deletedLogically → tx.tombstones ≠ []

/-- A revision over the head of a resource. -/
theorem exists_rewrites_moves {v : Revision} (hm : Moves db tx base v) (hof : v.Of base) :
    ∃ row, Rewrites db tx base row := by
  obtain ⟨updatedAt, hrow⟩ := hm.row
  refine ⟨_, hm.found, hrow, ⟨rfl, rfl, rfl⟩, ?_, ?_, ?_⟩
  · intro u hu
    rw [hm.revisions, List.mem_singleton] at hu
    exact hu ▸ hof
  · intro t ht
    rw [hm.tombstones] at ht
    cases ht
  · intro hstatus
    cases hstatus

theorem exists_rewrites {localeLe : JsString → JsString → Bool} {db' : Db} {c : Call} {tx' : Tx}
    (hkeyed : ∀ id row, db.resources id = some row → row.id = id)
    (hs : database.Solo call db {} (c.program localeLe) db' tx' ()) :
    ∃ tx base row, db' = applyTx call db tx ∧ Rewrites db tx base row := by
  cases c with
  | create input =>
    obtain ⟨_, _, v, h₁, k₁⟩ := System.solo_bind.mp hs
    cases k₁
    obtain ⟨_, tx₁, h₂, rfl⟩ := solo_inTransaction h₁
    obtain ⟨rfl, base, hm, -, -, -, -, -, hof⟩ := solo_createRevisionWithin hkeyed h₂
    obtain ⟨row, hrow⟩ := exists_rewrites_moves hm hof
    exact ⟨tx₁, base, row, rfl, hrow⟩
  | delete input =>
    obtain ⟨_, _, t, h₁, k₁⟩ := System.solo_bind.mp hs
    cases k₁
    obtain ⟨_, tx₁, h₂, rfl⟩ := solo_inTransaction h₁
    obtain ⟨rfl, base, updatedAt, hfound, hrow, hrevisions, htombstones, -, hopen, hworkspace,
      hdataset, hsubject, -, -, -⟩ := solo_deleteResourceWithin hkeyed h₂
    have hkind : t.subjectKind = .resource := by
      simp only [Tombstone.isOpen, Bool.and_eq_true, decide_eq_true_eq] at hopen
      exact hopen.1.1
    refine ⟨tx₁, base, _, rfl, hfound, hrow, ⟨rfl, rfl, rfl⟩, ?_, ?_, ?_⟩
    · intro v hv
      rw [hrevisions] at hv
      cases hv
    · intro u hu
      rw [htombstones, List.mem_singleton] at hu
      exact hu ▸ ⟨hkind, hsubject, hworkspace, hdataset⟩
    · intro _
      rw [htombstones]
      exact List.cons_ne_nil _ _
  | restore input =>
    obtain ⟨_, _, v, h₁, k₁⟩ := System.solo_bind.mp hs
    cases k₁
    obtain ⟨_, tx₁, h₂, rfl⟩ := solo_inTransaction h₁
    obtain ⟨rfl, base, t, restoredAt, restoredBy, hm, -, -, -, hof⟩ :=
      solo_restoreResourceWithin hkeyed h₂
    obtain ⟨row, hrow⟩ := exists_rewrites_moves hm hof
    exact ⟨tx₁, base, row, rfl, hrow⟩

section Commit

variable (call) (hw : Rewrites db tx base row)
include hw

theorem Rewrites.kept {id : JsString} {res : Resource} (hres : db.resources id = some res) :
    ∃ res', (applyTx call db tx).resources id = some res' ∧ SamePlace res' res := by
  rw [applyTx_resources hw.written]
  split_ifs with hid
  · rw [← hid, hw.place.id, hw.found, Option.some.injEq] at hres
    exact ⟨row, rfl, hres ▸ hw.place⟩
  · exact ⟨res, hres, rfl, rfl, rfl⟩

/-- No resource is new. -/
theorem Rewrites.known {id : JsString} {res : Resource}
    (hres : (applyTx call db tx).resources id = some res) :
    ∃ res₀, db.resources id = some res₀ ∧ SamePlace res res₀ := by
  rw [applyTx_resources hw.written] at hres
  split_ifs at hres with hid
  · cases hres
    exact ⟨base, by rw [← hid, hw.place.id, hw.found], hw.place⟩
  · exact ⟨res, hres, rfl, rfl, rfl⟩

theorem Filed.applyTx (h : Filed db) : Filed (applyTx call db tx) := by
  refine ⟨keyed_applyTx hw.written h.keyed, ?_, ?_, ?_⟩
  · intro v hv
    obtain ⟨res, hres, hof⟩ : ∃ res, db.resources v.resourceId = some res ∧ v.Of res := by
      obtain hold | hnew := List.mem_append.mp hv
      · exact h.revisions v hold
      · have hof := hw.revisions v hnew
        exact ⟨base, by rw [hof.resource, hw.found], hof⟩
    obtain ⟨res', hres', hsame⟩ := hw.kept call hres
    exact ⟨res', hres', hsame.revision hof⟩
  · intro t ht hkind
    obtain ⟨u, hu, rfl⟩ := List.mem_map.mp ht
    obtain ⟨hkind', hsubject⟩ := subject_closeWith tx.closed u
    rw [hkind'] at hkind
    obtain ⟨res, hres, hof⟩ : ∃ res, db.resources u.subjectId = some res ∧ TombstoneOf u res := by
      obtain hold | hnew := List.mem_append.mp hu
      · exact h.tombstones u hold hkind
      · have hof := hw.tombstones u hnew
        exact ⟨base, by rw [hof.subject, hw.found], hof⟩
    obtain ⟨res', hres', hsame⟩ := hw.kept call hres
    exact ⟨res', by rw [hsubject, hres'], (tombstoneOf_closeWith _ _ _).mpr (hsame.tombstone hof)⟩
  · intro id res hres hstatus
    obtain ⟨t, ht, hof⟩ : ∃ t ∈ db.tombstones ++ tx.tombstones, TombstoneOf t res := by
      rw [applyTx_resources hw.written] at hres
      split_ifs at hres with hid
      · cases hres
        obtain ⟨t, ht⟩ := List.exists_mem_of_ne_nil _ (hw.deleted hstatus)
        exact ⟨t, List.mem_append_right _ ht, hw.place.tombstone (hw.tombstones t ht)⟩
      · obtain ⟨t, ht, hof⟩ := h.deleted id res hres hstatus
        exact ⟨t, List.mem_append_left _ ht, hof⟩
    exact ⟨_, List.mem_map_of_mem ht, (tombstoneOf_closeWith _ _ _).mpr hof⟩

end Commit

/-- In every run of the calls, in any order. -/
theorem filed_of_reachable {localeLe : JsString → JsString → Bool}
    (h : (atomicCalls localeLe Opened).Reachable db) : Filed db := by
  refine h.invariant (fun db (hopened : Opened db) => hopened.filed) ?_
  rintro db c db' hi (rfl | ⟨call, tx', hs⟩)
  · exact hi
  · obtain ⟨tx, base, row, rfl, hw⟩ := exists_rewrites hi.keyed hs
    exact hi.applyTx call hw

/-- The resources of the tables at the start are the only ones. -/
structure Known (db₀ db : Db) : Prop where
  keyed : ∀ id row, db.resources id = some row → row.id = id
  known : ∀ id res, db.resources id = some res → ∃ res₀, db₀.resources id = some res₀ ∧ SamePlace res res₀

theorem known_of_reachable {localeLe : JsString → JsString → Bool} {db₀ : Db}
    (hkeyed : ∀ id row, db₀.resources id = some row → row.id = id)
    (h : (atomicCalls localeLe (· = db₀)).Reachable db) : Known db₀ db := by
  refine h.invariant ?_ ?_
  · rintro _ rfl
    exact ⟨hkeyed, fun id res hres => ⟨res, hres, rfl, rfl, rfl⟩⟩
  · rintro db c db' hi (rfl | ⟨call, tx', hs⟩)
    · exact hi
    · obtain ⟨tx, base, row, rfl, hw⟩ := exists_rewrites hi.keyed hs
      refine ⟨keyed_applyTx hw.written hi.keyed, fun id res hres => ?_⟩
      obtain ⟨res₁, hres₁, hsame₁⟩ := hw.known call hres
      obtain ⟨res₀, hres₀, hsame₀⟩ := hi.known id res₁ hres₁
      exact ⟨res₀, hres₀, hsame₁.trans hsame₀⟩

end Steps

/-! ## Exports -/

/-- What the exporter, the container and the reader are built with. -/
structure Environment where
  timestamps : Timestamps
  openReadStream : JsString → Except ServiceError Bytes
  storageProvider : JsString
  zip : ZipLibrary
  deflated : Bytes → Nat
  localeLe : JsString → JsString → Bool
  dateParse : JsString → Option Int

/-- The archive was read from a completed export of the tables. -/
structure Exported (E : Environment) (db : Db) (input : ReadExport) (archive : ReadArchive)
    (results : QueryResults) (source : ArchiveSource) (entries : EntryMap) (bytes : Bytes) : Prop where
  selected : Selects E.timestamps db input.workspaceId (selectedDatasets input.datasetIds) results
  reads : read E.timestamps E.openReadStream E.storageProvider input results = .ok source
  completed : Completed E.zip E.localeLe E.dateParse source entries bytes
  lossless : E.zip.Lossless E.deflated bytes (sortedEntries E.localeLe entries)
  opens : readTrustArchive E.zip bytes defaultLimits none = .ok archive

/-- The resource is in one of the exported datasets. -/
abbrev InExport (input : ReadExport) (db : Db) (res : Resource) : Prop :=
  SelectedResource db input.workspaceId (selectedDatasets input.datasetIds) res

section Exports

variable {E : Environment} {db : Db} {input : ReadExport} {archive : ReadArchive}
  {results : QueryResults} {source : ArchiveSource} {entries : EntryMap} {bytes : Bytes}
  {model : ArchiveViewerModel}

/-- The records of a source of one kind are rows of a table in the names of the archive. -/
theorem camelized_of_read {T : Timestamps} {openReadStream : JsString → Except ServiceError Bytes}
    {storageProvider : JsString} (h : read T openReadStream storageProvider input results = .ok source)
    (kind : ArchiveRecordKind) {α : Type} {rows : List α} {toRow : α → ArchiveRecord}
    (hrows : recordsOf results kind = rows.map toRow) :
    (source.records kind).Perm (rows.map fun row => camelizeRecord T (toRow row)) := by
  rw [read_records h, recordsOf_map, hrows, List.map_map]
  exact .refl _

theorem strictEq_kind (kind : SubjectKind) :
    strictEq (.string kind.text) (.string (js "resource")) = true ↔ kind = .resource := by
  have hall : ∀ kind ∈ [SubjectKind.dataset, .resource, .relation],
      strictEq (.string kind.text) (.string (js "resource")) = true ↔ kind = .resource := by
    decide +kernel
  cases kind with
  | dataset => exact hall _ (by simp)
  | resource => exact hall _ (by simp)
  | relation => exact hall _ (by simp)

/-- The rows behind the records that the viewer reads. -/
theorem Exported.rows (h : Exported E db input archive results source entries bytes)
    (hmodel : projectArchive archive = some model) : ∃ (resources : List Resource)
      (revisions : List Revision) (tombstones : List Tombstone) (counts : List (JsString × Nat))
      (deleted : List JsString),
    (∀ res, res ∈ resources ↔ InExport input db res) ∧
    revisions.Perm (db.revisions.filter
      (selectedRevision input.workspaceId (selectedDatasets input.datasetIds))) ∧
    (∀ t, t ∈ tombstones ↔ t ∈ db.tombstones ∧
      selectedTombstone input.workspaceId (selectedDatasets input.datasetIds) t = true) ∧
    (∀ id, (counts.lookup id).getD 0 = (revisions.map Revision.resourceId).count id) ∧
    (∀ id, id ∈ deleted ↔ ∃ t ∈ tombstones, t.subjectKind = .resource ∧ t.subjectId = id) ∧
    (∀ res ∈ resources, ∃ item ∈ model.resources, item.id = res.id) ∧
    ∀ item ∈ model.resources, ∃ res ∈ resources, item.id = res.id ∧
      item.revisionCount = (counts.lookup item.id).getD 0 ∧ (item.deleted = true ↔ item.id ∈ deleted) := by
  obtain ⟨hvalid, counts, deleted, hcounts, hdeleted, hitems⟩ := resources_of_project hmodel
  obtain ⟨sorted, hsorted, hrecords⟩ := h.completed.records_of_read h.lossless h.opens hvalid
  rw [hrecords] at hcounts hdeleted hitems
  have hjson : ∀ kind, ∀ r ∈ sorted kind, isJson (.object r) = true := fun kind r hr =>
    h.completed.records.json kind r ((hsorted kind).mem_iff.mp hr)
  obtain ⟨⟨resources, hresources, -, hresourceRows⟩, ⟨revisions, hrevisions, hrevisionRows⟩,
    tombstones, htombstones, htombstoneRows⟩ := h.selected
  have hresource := (hsorted .resources).trans (camelized_of_read h.reads .resources hresourceRows)
  have hrevision := (hsorted .revisions).trans (camelized_of_read h.reads .revisions hrevisionRows)
  have htombstone :=
    (hsorted .tombstones).trans (camelized_of_read h.reads .tombstones htombstoneRows)
  have hforall := mapM_eq_some hitems
  rw [List.forall₂_map_left_iff] at hforall
  have hitem : ∀ {r item}, r ∈ sorted .resources →
      viewerResource counts deleted (reread (.object r)) = some item → ∃ res ∈ resources,
        item.id = res.id ∧ item.revisionCount = (counts.lookup item.id).getD 0 ∧
          (item.deleted = true ↔ item.id ∈ deleted) := by
    intro r item hr hv
    obtain ⟨res, hres, rfl⟩ := List.mem_map.mp (hresource.mem_iff.mp hr)
    obtain ⟨hid, hcount, hshown⟩ := item_of_viewerResource (hjson _ _ hr) hv
    rw [resource_id, string_string] at hid
    exact ⟨res, hres, hid, hcount, hshown⟩
  refine ⟨resources, revisions, tombstones, counts, deleted, hresources, hrevisions, ?_, ?_, ?_, ?_, ?_⟩
  · intro t
    rw [htombstones.mem_iff, List.mem_filter]
  · intro id
    rw [lookup_countBy_reread (hjson .revisions) hcounts, (hrevision.map _).count_eq, List.map_map]
    refine congrArg (List.count id) (List.map_congr_left fun v _ => ?_)
    rw [Function.comp_apply, revision_resourceId, string_string]
  · intro id
    rw [deletedIds_reread (hjson .tombstones), Option.some.injEq] at hdeleted
    rw [← hdeleted]
    simp only [List.mem_map, List.mem_filter, htombstone.mem_iff]
    constructor
    · rintro ⟨_, ⟨⟨t, ht, rfl⟩, hkind⟩, hid⟩
      rw [tombstone_subjectKind] at hkind
      rw [tombstone_subjectId, string_string] at hid
      exact ⟨t, ht, (strictEq_kind t.subjectKind).mp hkind, hid⟩
    · rintro ⟨t, ht, hkind, hid⟩
      refine ⟨_, ⟨⟨t, ht, rfl⟩, ?_⟩, ?_⟩
      · rw [tombstone_subjectKind]
        exact (strictEq_kind t.subjectKind).mpr hkind
      · rw [tombstone_subjectId, string_string, hid]
  · intro res hres
    have hr := hresource.mem_iff.mpr (List.mem_map_of_mem hres)
    obtain ⟨item, hmem, hv⟩ := (mem_of_forall₂ hforall).1 _ hr
    obtain ⟨hid, -, -⟩ := item_of_viewerResource (hjson _ _ hr) hv
    rw [resource_id, string_string] at hid
    exact ⟨item, hmem, hid⟩
  · intro item hmem
    obtain ⟨r, hr, hv⟩ := (mem_of_forall₂ hforall).2 _ hmem
    exact hitem hr hv

theorem count_selected {res : Resource} (hfiled : Filed db) (hin : InExport input db res) :
    ((db.revisions.filter (selectedRevision input.workspaceId
      (selectedDatasets input.datasetIds))).map Revision.resourceId).count res.id =
      (revisionsOf res.id db.revisions).length := by
  rw [List.count_eq_countP, List.countP_map, List.countP_filter, revisionsOf,
    ← List.countP_eq_length_filter]
  apply List.countP_congr
  intro v hv
  obtain ⟨res', hres', hof⟩ := hfiled.revisions v hv
  simp only [Function.comp_apply, Bool.and_eq_true, beq_iff_eq, decide_eq_true_eq, selectedRevision]
  constructor
  · exact fun h => h.1
  · intro hid
    rw [hid, hin.row, Option.some.injEq] at hres'
    cases hres'
    exact ⟨hid, hof.workspace.trans hin.workspace, hof.dataset ▸ hin.dataset⟩

/-- What is shown of an exported resource: its revisions, and whether it has a tombstone. -/
theorem Exported.shown (h : Exported E db input archive results source entries bytes)
    (hfiled : Filed db) (hmodel : projectArchive archive = some model) :
    (∀ res, InExport input db res → ∃ item ∈ model.resources, item.id = res.id) ∧
    ∀ item ∈ model.resources, ∃ res, InExport input db res ∧ item.id = res.id ∧
      item.revisionCount = (revisionsOf res.id db.revisions).length ∧
      (item.deleted = true ↔ ∃ t ∈ db.tombstones, TombstoneOf t res) := by
  obtain ⟨resources, revisions, tombstones, counts, deleted, hresources, hrevisions, htombstones,
    hcounts, hdeleted, hitem, hitems⟩ := h.rows hmodel
  refine ⟨fun res hres => hitem res ((hresources res).mpr hres), ?_⟩
  intro item hmem
  obtain ⟨res, hres, hid, hcount, hshown⟩ := hitems item hmem
  have hin := (hresources res).mp hres
  refine ⟨res, hin, hid, ?_, ?_⟩
  · rw [hcount, hid, hcounts, (hrevisions.map _).count_eq]
    exact count_selected hfiled hin
  · rw [hshown, hid, hdeleted]
    constructor
    · rintro ⟨t, ht, hkind, hsubject⟩
      obtain ⟨hmem', -⟩ := (htombstones t).mp ht
      obtain ⟨res', hres', hof⟩ := hfiled.tombstones t hmem' hkind
      rw [hsubject, hin.row, Option.some.injEq] at hres'
      exact ⟨t, hmem', hres' ▸ hof⟩
    · rintro ⟨t, ht, hof⟩
      refine ⟨t, (htombstones t).mpr ⟨ht, ?_⟩, hof.kind, hof.subject⟩
      rw [selectedTombstone, decide_eq_true_eq, hof.workspace, hof.dataset]
      exact ⟨hin.workspace, hin.dataset⟩

/-- A valid archive of an export opens in the viewer. -/
theorem Exported.opened (h : Exported E db input archive results source entries bytes)
    (hvalid : archive.verification.valid = true) : ∃ model, projectArchive archive = some model := by
  obtain ⟨m, hperm, hverified, hmanifest⟩ := verified_of_read h.lossless h.opens
  obtain ⟨-, manifestText, ha⟩ := assembled_of_assemble h.completed.assembled
  have hpassed := passed_of_issues hverified (issues_of_valid hverified hvalid)
  have hl : WithinLimits defaults entries := (limitIssues_eq_nil_iff.mp hpassed.limited).2.perm hperm
  obtain ⟨report, hreport, hvalue, sorted, hsorted, hrecords⟩ :=
    verifyArchiveEntries_manifest ha h.completed.records hl hperm defaults
  rw [hverified, Option.some.injEq] at hreport
  rw [← hreport, hmanifest, Option.some.injEq] at hvalue
  rw [← hreport] at hrecords
  have hjson : ∀ kind, ∀ r ∈ sorted kind, isJson (.object r) = true := fun kind r hr =>
    h.completed.records.json kind r ((hsorted kind).mem_iff.mp hr)
  exact exists_project hvalid (safeCounts ha h.completed.records.json hl)
    (jsonLineage_of_records (h.completed.records.json .auditEvents)) hvalue hjson hrecords

/-- The viewer shows the exported resources as the tables have them. -/
structure Agrees (input : ReadExport) (db : Db) (model : ArchiveViewerModel) : Prop where
  shown : ∀ res, InExport input db res → ∃ item ∈ model.resources, item.id = res.id
  items : ∀ item ∈ model.resources, ∃ res, InExport input db res ∧ item.id = res.id ∧
    (item.deleted = true ↔ res.status = .deletedLogically) ∧
    item.revisionCount = (revisionsOf res.id db.revisions).length

end Exports

/-- After every run of the calls, what the viewer shows of an export agrees with the tables exactly
if the resources with a tombstone are deleted. -/
theorem viewer_agrees_iff (E : Environment) (db : Db)
    (hrun : (atomicCalls E.localeLe Opened).Reachable db) (input : ReadExport) (archive : ReadArchive)
    (results : QueryResults) (source : ArchiveSource) (entries : EntryMap) (bytes : Bytes)
    (h : Exported E db input archive results source entries bytes) (model : ArchiveViewerModel)
    (hmodel : projectArchive archive = some model) :
    Agrees input db model ↔ ∀ res, InExport input db res →
      (∃ t ∈ db.tombstones, TombstoneOf t res) → res.status = .deletedLogically := by
  have hfiled := filed_of_reachable hrun
  obtain ⟨hshown, hitems⟩ := h.shown hfiled hmodel
  constructor
  · intro hagrees res hin htombstone
    obtain ⟨item, hmem, hid⟩ := hshown res hin
    obtain ⟨res₁, hin₁, hid₁, hstatus, -⟩ := hagrees.items item hmem
    obtain ⟨res₂, hin₂, hid₂, -, hdeleted⟩ := hitems item hmem
    cases hin.unique hin₁ (hid.symm.trans hid₁)
    cases hin.unique hin₂ (hid.symm.trans hid₂)
    exact hstatus.mp (hdeleted.mpr htombstone)
  · intro hall
    refine ⟨hshown, fun item hmem => ?_⟩
    obtain ⟨res, hin, hid, hcount, hdeleted⟩ := hitems item hmem
    refine ⟨res, hin, hid, ?_, hcount⟩
    rw [hdeleted]
    exact ⟨hall res hin, hfiled.deleted res.id res hin.row⟩

/-! ### Exports of one resource -/

/-- `to_jsonb` of a `timestamptz` in UTC, and `new Date` of it. -/
def sampleTimestamps : Timestamps where
  toJson t :=
    if t.ms % 1000 = 0 then (toISOString t).take 19 ++ js "+00:00"
    else (((toISOString t).take 23).reverse.dropWhile (· == 48)).reverse ++ js "+00:00"
  isoDate s := some (s.take 19 ++ js "." ++ ((s.drop 20).take (s.length - 26) ++ js "000").take 3 ++
    js "Z")

/-- The columns of an event that the chain needs. -/
def sampleEventRow (e : AuditRow) : ArchiveRecord :=
  [(js "id", .string e.id), (js "workspace_id", .string e.workspaceId),
    (js "occurred_at", .string (sampleTimestamps.toJson e.occurredAt)),
    (js "previous_event_hash", textOrNull e.previousEventHash),
    (js "event_hash", .string e.eventHash)]

def sampleResults (db : Db) : QueryResults where
  workspace := [[(js "id", .string (js "w"))]]
  datasets := [[(js "id", .string (js "d")), (js "workspace_id", .string (js "w")),
    (js "schema_package_id", .string (js "s"))]]
  retention := []
  resources := (db.resources (js "r")).toList.map (resourceRow sampleTimestamps)
  revisions := db.revisions.map (revisionRow sampleTimestamps)
  revisionBlobs := []
  blobRows := []
  blobRecords := []
  schemas := [[(js "id", .string (js "s"))]]
  relations := []
  tombstones := db.tombstones.map (tombstoneRow sampleTimestamps)
  auditEvents := db.audit.map sampleEventRow

def sampleInput : ReadExport :=
  ⟨js "e", js "w", [js "d"], js "1970-01-01T00:00:00.000Z", js "user-1"⟩

def noObject : JsString → Except ServiceError Bytes := fun _ => .error (plainError "No such object.")

def sampleEnvironment (entries : EntryMap) : Environment where
  timestamps := sampleTimestamps
  openReadStream := noObject
  storageProvider := js "s3"
  zip := zipOf List.length (sortedEntries unitsLe entries)
  deflated := List.length
  localeLe := unitsLe
  dateParse _ := some 0

theorem string_of_isSome {v : JsValue} (h : (asString v).isSome = true) : ∃ s, v = .string s := by
  cases v with
  | string s => exact ⟨s, rfl⟩
  | undefined => cases h
  | null => cases h
  | bool b => cases h
  | number n => cases h
  | array vs => cases h
  | object ms => cases h

/-- The events follow one another as they stand. -/
def isChained (events : List ArchiveRecord) : Bool :=
  events.all (fun event => (asString (eventHash event)).any isSha256) &&
    decide (events.map fun event => (asString (eventHash event)).getD []).Nodup &&
    events.head?.all (fun root => isNullish (previousEventHash root)) &&
    decide (events.IsChain fun a b => strictEq (previousEventHash b) (eventHash a) = true)

/-- A source without blobs that fits together. -/
def isWellFormed (source : ArchiveSource) : Bool :=
  archiveRecordKinds.all (fun kind => (source.records kind).all fun r => isJson (.object r) &&
    (r.lookup (js "workspaceId")).all (strictEq · (.string source.workspaceId))) &&
  (source.records .revisions).all (fun r => (asString (field r (js "resourceId"))).isSome &&
    ((source.records .resources).any fun resource =>
      strictEq (field resource (js "id")) (field r (js "resourceId"))) &&
    ((asString (field r (js "parentRevisionId"))).isNone ||
      (source.records .revisions).any fun parent =>
        strictEq (field parent (js "id")) (field r (js "parentRevisionId")))) &&
  (source.records .blobs).isEmpty && source.blobs.isEmpty && isChained (source.records .auditEvents)

theorem oneChain_of_isChained {events : List ArchiveRecord} (h : isChained events = true) :
    OneChain events := by
  simp only [isChained, Bool.and_eq_true, decide_eq_true_eq, List.all_eq_true] at h
  obtain ⟨⟨⟨hhashes, hnodup⟩, hroot⟩, hchain⟩ := h
  refine ⟨events, .refl _, ?_, hnodup, ?_, hchain.imp fun a b => eq_of_strictEq⟩
  · intro event hevent
    obtain ⟨hash, hhash, hsha⟩ := (Option.any_eq_true _ _).mp (hhashes event hevent)
    obtain ⟨s, hs⟩ := string_of_isSome (Option.isSome_of_eq_some hhash)
    rw [hs] at hhash
    cases hhash
    exact ⟨hash, hs, hsha⟩
  · intro root hhead
    rw [hhead] at hroot
    exact hroot

theorem wellFormed_of_isWellFormed {source : ArchiveSource} (h : isWellFormed source = true) :
    WellFormedSource source := by
  simp only [isWellFormed, Bool.and_eq_true, List.all_eq_true, List.any_eq_true, Bool.or_eq_true,
    List.isEmpty_iff] at h
  obtain ⟨⟨⟨⟨hrecords, hrevisions⟩, hblobRecords⟩, hblobs⟩, hevents⟩ := h
  refine ⟨fun kind r hr => (hrecords kind (mem_archiveRecordKinds kind) r hr).1, ?_, ?_, ?_, ?_,
    oneChain_of_isChained hevents⟩
  · intro kind r hr v hv
    have hscope := (hrecords kind (mem_archiveRecordKinds kind) r hr).2
    rw [hv] at hscope
    exact eq_of_strictEq hscope
  · intro r hr
    obtain ⟨⟨hid, resource, hresource, hsame⟩, -⟩ := hrevisions r hr
    obtain ⟨id, hid⟩ := string_of_isSome hid
    exact ⟨id, hid, resource, hresource, (eq_of_strictEq hsame).trans hid⟩
  · intro r hr id hid
    obtain ⟨-, hnone | ⟨parent, hparent, hsame⟩⟩ := hrevisions r hr
    · rw [hid] at hnone
      cases hnone
    · exact ⟨parent, hparent, (eq_of_strictEq hsame).trans hid⟩
  · rw [hblobRecords, hblobs]
    exact .refl _

/-- The export of the tables fits together, and it is small. -/
def exportsWell (db : Db) : Bool :=
  db.revisions.all (selectedRevision (js "w") [js "d"]) &&
  db.tombstones.all (selectedTombstone (js "w") [js "d"]) &&
  (match read sampleTimestamps noObject (js "s3") sampleInput (sampleResults db) with
    | .ok source => isWellFormed source && (assembleArchiveEntries unitsLe source).isSome &&
      decide (recordUnits unitsLe source +
        ((canonicalJson (manifestOf source).value).getD []).length ≤ 10000)
    | .error _ => false)

/-- Tables with one resource. -/
def oneResource (currentRevisionId : Option JsString) (revisions : List Revision) : Db :=
  { sampleDb with
    resources := fun id => if id = js "r" then some { sampleResource with currentRevisionId } else none
    revisions }

section Sample

variable {head : Option JsString} {revisions : List Revision}

theorem fresh_oneResource : Fresh (oneResource head revisions) := by
  refine ⟨?_, ?_, rfl⟩
  · intro id row h
    simp only [oneResource] at h
    split_ifs at h with hid
    cases h
    exact hid.symm
  · intro id row h
    simp only [oneResource] at h
    split_ifs at h with hid
    cases h
    rfl

theorem id_of_known {db : Db} (hknown : Known (oneResource head revisions) db) {id : JsString}
    {res : Resource} (hres : db.resources id = some res) :
    id = js "r" ∧ InExport sampleInput db res := by
  obtain ⟨res₀, hres₀, hplace⟩ := hknown.known _ res hres
  simp only [oneResource] at hres₀
  split_ifs at hres₀ with hid
  cases hres₀
  refine ⟨hid, ?_, hplace.workspace, ?_⟩
  · rw [hknown.keyed _ res hres, hres]
  · rw [hplace.dataset]
    exact List.mem_singleton_self _

theorem selects_sample {db : Db} (hknown : Known (oneResource head revisions) db)
    (hrevisions : db.revisions.all (selectedRevision (js "w") [js "d"]) = true)
    (htombstones : db.tombstones.all (selectedTombstone (js "w") [js "d"]) = true) :
    Selects sampleTimestamps db (js "w") [js "d"] (sampleResults db) := by
  refine ⟨⟨(db.resources (js "r")).toList, ?_, ?_, rfl⟩, ⟨db.revisions, ?_, rfl⟩,
    db.tombstones, ?_, rfl⟩
  · intro res
    rw [Option.mem_toList]
    constructor
    · exact fun hres => (id_of_known hknown hres).2
    · intro hselected
      rw [← (id_of_known hknown hselected.row).1, hselected.row]
  · cases db.resources (js "r") with
    | none => exact List.nodup_nil
    | some res => exact List.nodup_singleton res
  · rw [List.filter_eq_self.mpr (List.all_eq_true.mp hrevisions)]
  · rw [List.filter_eq_self.mpr (List.all_eq_true.mp htombstones)]

theorem exported_sample {db : Db} (hknown : Known (oneResource head revisions) db)
    (hwell : exportsWell db = true) :
    ∃ archive source entries, Exported (sampleEnvironment entries) db sampleInput archive
      (sampleResults db) source entries [80, 75] ∧ archive.verification.valid = true := by
  rw [exportsWell, Bool.and_eq_true, Bool.and_eq_true] at hwell
  obtain ⟨⟨hrevisions, htombstones⟩, hwell⟩ := hwell
  split at hwell
  · rename_i source hreads
    simp only [Bool.and_eq_true, decide_eq_true_eq] at hwell
    obtain ⟨⟨hwell, hsome⟩, hunits⟩ := hwell
    obtain ⟨⟨entries, manifest⟩, hassemble⟩ := Option.isSome_iff_exists.mp hsome
    obtain ⟨-, manifestText, ha⟩ := assembled_of_assemble hassemble
    have hs := wellFormed_of_isWellFormed hwell
    have hblobs : source.blobs = [] := by
      simp only [isWellFormed, Bool.and_eq_true, List.isEmpty_iff] at hwell
      exact hwell.1.2
    have hcompleted := completed_zipOf List.length (records_of_wellFormed hs) hassemble
      (by simp [hblobs]) (by simp [hblobs])
    have hlossless := lossless_zipOf List.length (sortedEntries_nodup unitsLe entries) [80, 75]
    rw [ha.manifest, Option.getD_some] at hunits
    have hl := withinLimits_of_isSmall (by decide) (isSmall_of_texts ha (by simp [hblobs]) (by simp [hblobs]) hunits)
    have hfits : Fits defaultLimits List.length entries.entries :=
      ⟨hl.count, hl.entry, hl.total, fun e _ _ => Nat.le_mul_of_pos_left _ (by decide)⟩
    obtain ⟨archive, hopens, -⟩ := hcompleted.opens_of_fits hlossless (by decide) (by decide) hl hfits
    refine ⟨archive, source, entries, ⟨?_, hreads, hcompleted, hlossless, hopens⟩, ?_⟩
    · exact selects_sample hknown hrevisions htombstones
    · obtain ⟨m, hperm, hverified, -⟩ := verified_of_read hlossless hopens
      obtain ⟨sorted, -, hreport⟩ := verifyArchiveEntries_assembled ha hs hl
      obtain ⟨report', hreport', hsame⟩ := verifyArchiveEntries_permuted hperm hreport
      rw [hverified, Option.some.injEq] at hreport'
      rw [hreport', hsame]
  · cases hwell

theorem known_afterCalls (cs : List Call) :
    Known (oneResource head revisions) (afterCalls unitsLe 0 cs (oneResource head revisions)) := by
  have hinit : (atomicCalls unitsLe (· = oneResource head revisions)).Reachable
      (oneResource head revisions) := .init rfl
  exact known_of_reachable fresh_oneResource.keyed (reachable_afterCalls cs 0 hinit)

end Sample

def sampleRestore : Call :=
  .restore { workspaceId := js "w", resourceId := js "r", actorId := js "user-1", changeNote := none }

def sampleRevision : Revision where
  id := js "v"
  workspaceId := js "w"
  datasetId := js "d"
  resourceId := js "r"
  revisionNumber := 1
  parentRevisionId := none
  mergeParentRevisionIds := []
  schemaPackageId := js "s"
  schemaVersion := js "1"
  canonicalPayload := ⟨[], isJson_empty⟩
  canonicalPayloadHash := js "44136fa355b3678a" ++ js "1146ad16f7e8649e" ++ js "94fb4fc21fe77e83" ++
    js "10c060f61caaff8a"
  createdBy := js "user-1"
  createdOnDeviceId := none
  source := .user
  changeNote := none
  restoredFromRevisionId := none
  createdAt := ⟨0, epoch_bound⟩

/-- A resource without revisions is deleted. -/
def deletedDb : Db := afterCalls unitsLe 0 [sampleDelete none] (oneResource none [])

/-- One with a revision is deleted and restored. -/
def restoredDb : Db :=
  afterCalls unitsLe 0 [sampleDelete (some (js "v")), sampleRestore]
    (oneResource (some (js "v")) [sampleRevision])

/-- One evaluation, for the two exports share their texts. -/
theorem sample_exports :
    (exportsWell deletedDb = true ∧ (deletedDb.resources (js "r")).all
      (fun res => decide (res.status = .deletedLogically)) = true) ∧
    exportsWell restoredDb = true ∧ (restoredDb.resources (js "r")).any
      (fun res => decide (res.status = .active)) = true ∧
    restoredDb.tombstones.any (fun t => decide (t.subjectKind = .resource ∧ t.subjectId = js "r")) =
      true := by decide +kernel

theorem opened_oneResource : Opened (oneResource none []) :=
  ⟨fresh_oneResource, fun v hv => by cases hv⟩

theorem opened_withRevision : Opened (oneResource (some (js "v")) [sampleRevision]) := by
  refine ⟨fresh_oneResource, fun v hv => ?_⟩
  cases List.mem_singleton.mp hv
  exact ⟨{ sampleResource with currentRevisionId := some (js "v") }, rfl, rfl, rfl, rfl⟩

/-- The viewer agrees on a resource that was deleted. -/
theorem viewer_agrees_iff_deleted : ∃ E db archive results source entries bytes model,
    (atomicCalls E.localeLe Opened).Reachable db ∧
      Exported E db sampleInput archive results source entries bytes ∧
      projectArchive archive = some model ∧ Agrees sampleInput db model := by
  obtain ⟨hwell, hdeleted⟩ := sample_exports.1
  have hknown : Known (oneResource none []) deletedDb := known_afterCalls _
  have hrun : (atomicCalls unitsLe Opened).Reachable deletedDb :=
    reachable_afterCalls _ 0 (.init opened_oneResource)
  obtain ⟨archive, source, entries, h, hvalid⟩ := exported_sample hknown hwell
  obtain ⟨model, hmodel⟩ := h.opened hvalid
  refine ⟨sampleEnvironment entries, deletedDb, archive, _, source, entries, _, model, hrun, h, hmodel, ?_⟩
  refine (viewer_agrees_iff (sampleEnvironment entries) deletedDb hrun sampleInput archive _ source
    entries _ h model hmodel).mpr fun res hin _ => ?_
  have hrow := hin.row
  rw [(id_of_known hknown hin.row).1] at hrow
  rw [hrow, Option.all_some, decide_eq_true_eq] at hdeleted
  exact hdeleted

/-- A resource that was deleted and restored is shown as deleted. -/
theorem restored_shown_deleted : ∃ E db archive results source entries bytes model,
    (atomicCalls E.localeLe Opened).Reachable db ∧
      Exported E db sampleInput archive results source entries bytes ∧
      projectArchive archive = some model ∧
      ∃ item ∈ model.resources, ∃ res, InExport sampleInput db res ∧ item.id = res.id ∧
        item.deleted = true ∧ res.status = .active := by
  obtain ⟨hwell, hactive, htombstone⟩ := sample_exports.2
  have hknown : Known (oneResource (some (js "v")) [sampleRevision]) restoredDb := known_afterCalls _
  have hrun : (atomicCalls unitsLe Opened).Reachable restoredDb :=
    reachable_afterCalls _ 0 (.init opened_withRevision)
  obtain ⟨archive, source, entries, h, hvalid⟩ := exported_sample hknown hwell
  obtain ⟨model, hmodel⟩ := h.opened hvalid
  refine ⟨sampleEnvironment entries, restoredDb, archive, _, source, entries, _, model, hrun, h, hmodel,
    ?_⟩
  obtain ⟨t, ht, hof⟩ := List.any_eq_true.mp htombstone
  obtain ⟨hkind, hsubject⟩ := of_decide_eq_true hof
  have hfiled := filed_of_reachable hrun
  obtain ⟨res, hres, hof⟩ := hfiled.tombstones t ht hkind
  have hin := (id_of_known hknown hres).2
  obtain ⟨hshown, hitems⟩ := h.shown hfiled hmodel
  obtain ⟨item, hmem, hid⟩ := hshown res hin
  obtain ⟨res', hin', hid', -, hdeleted⟩ := hitems item hmem
  cases hin.unique hin' (hid.symm.trans hid')
  refine ⟨item, hmem, res, hin, hid, hdeleted.mpr ⟨t, ht, hof⟩, ?_⟩
  rw [← hsubject, hres, Option.any_some, decide_eq_true_eq] at hactive
  exact hactive

end TrustCore.ViewerAgreement
