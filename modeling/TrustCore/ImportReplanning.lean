import TrustCore.ImportMapping
import TrustCore.ImportPlanBinding

/-!
# Planning an archive again

Once the inserts of a ready plan are in the inventory, planning the archive again should find every
record present. Records are looked up by id, but schema packages also by their namespace, name and
version, and the check for those looks at the inventory only: packages of one archive that it would
not let stand beside each other are found out after the import.
-/

namespace TrustCore.ImportReplanning

open TrustCore.Utf TrustCore.Json TrustCore.Dynamic TrustCore.ArchiveFormat TrustCore.ImportPlan
open TrustCore.ImportReferences TrustCore.ImportActions TrustCore.ImportMapping

/-- The records of a kind that a plan inserts, under their target ids. -/
def inserts (kind : ArchiveRecordKind) (actions : List ArchiveImportAction) :
    List (JsString × ArchiveRecord) :=
  actions.filterMap fun a =>
    if a.kind = .record kind ∧ a.disposition = .insert then a.record.map fun r => (a.targetId, r)
    else none

/-- The digests of the blobs that a plan inserts. -/
def insertedDigests (actions : List ArchiveImportAction) : List JsString :=
  (actions.filter fun a => a.kind == .blobBytes && a.disposition == .insert).map
    ArchiveImportAction.targetId

/-- An object with further records: under each key the last that was added, and the keys it had in
the order they had. Where a new key goes depends on what it looks like. -/
structure Extends (old added index : List (JsString × ArchiveRecord)) : Prop where
  nodup : (index.map Prod.fst).Nodup
  lookup : ∀ id, index.lookup id = (added.reverse.lookup id).or (old.lookup id)
  entries : ∀ p ∈ index, p ∈ old ∨ p ∈ added
  order : old.Sublist index

/-- The inventory after the inserts of a plan. -/
structure Imported (target : ArchiveImportInventory) (actions : List ArchiveImportAction)
    (after : ArchiveImportInventory) : Prop where
  workspaceId : after.workspaceId = target.workspaceId
  records : ∀ kind, (inserts kind actions = [] ∧ after.records kind = target.records kind) ∨
    ∃ index, after.records kind = some index ∧
      Extends ((target.records kind).getD []) (inserts kind actions) index
  blobDigests : ∀ digest, digest ∈ after.blobDigests ↔
    digest ∈ target.blobDigests ∨ digest ∈ insertedDigests actions

/-- The inventory lacks the record. -/
def Lacks (request : ArchiveImportRequest) (kind : ArchiveRecordKind) (r : ArchiveRecord) : Prop :=
  ∃ id, importedId request kind r = some id ∧ request.target.find kind id = .absent

/-- A schema package that the inventory lacks has the digest of every one of the archive with its
namespace, name and version. -/
def SchemasAgree (request : ArchiveImportRequest) : Prop :=
  ∀ a ∈ request.archive.verification.records .schemaPackages, Lacks request .schemaPackages a →
    ∀ b ∈ request.archive.verification.records .schemaPackages, sameSchema a b = true →
      strictEq (field a (js "schemaDigest")) (field b (js "schemaDigest")) = true

/-- Records that are inserted under one id are the same. -/
def ImagesAgree (request : ArchiveImportRequest) : Prop :=
  ∀ kind, ¬ (kind = .workspaces ∧ request.mode = .mappedWorkspace) →
    ∀ a ∈ request.archive.verification.records kind, Lacks request kind a →
      ∀ b ∈ request.archive.verification.records kind,
        importedId request kind a = importedId request kind b →
          canonicalJson (.object (rewritten request kind a)) =
            canonicalJson (.object (rewritten request kind b))

section Inserts

variable {localeLe : JsString → JsString → Bool} {request : ArchiveImportRequest}
  {plan : ArchiveImportPlan} {kind : ArchiveRecordKind}

theorem dispositionOf_insert {mode : ArchiveImportMode} {r : ArchiveRecord} {existing : Existing} :
    dispositionOf mode kind r existing = some .insert ↔ existing = .absent := by
  cases existing with
  | absent => simp [dispositionOf]
  | inherited => simp [dispositionOf]
  | record old =>
    simp only [dispositionOf, reduceCtorEq, iff_false]
    split
    · simp
    · split
      · split <;> simp
      · simp

theorem planRecord_disposition {pair : ArchiveRecord × ArchiveRecord}
    {p : ArchiveImportAction × List ArchiveIssue} (h : planRecord request kind pair = some p) :
    dispositionOf request.mode kind pair.2 (request.target.find kind p.1.targetId) =
      some p.1.disposition := by
  rw [planRecord] at h
  obtain ⟨sourceId, -, h⟩ := Option.bind_eq_some_iff.mp h
  obtain ⟨transformedId, -, h⟩ := Option.bind_eq_some_iff.mp h
  obtain ⟨disposition, hdisposition, h⟩ := Option.bind_eq_some_iff.mp h
  cases h
  exact hdisposition

theorem mem_indexActions {actions : List ArchiveImportAction} {a : ArchiveImportAction}
    (ha : a ∈ indexActions false actions) : ∃ b ∈ actions, ∃ index, a = { b with index } := by
  obtain ⟨p, hp, rfl⟩ := List.mem_map.mp ha
  exact ⟨p.1, List.fst_mem_of_mem_zipIdx hp, p.2, rfl⟩

theorem ready_parts (h : planArchiveImport localeLe request = some plan)
    (hready : plan.status = .ready) : ∃ graphIssues planned bytes planId,
      validateGraph (transformed request) (mappedWorkspaceId request) = some graphIssues ∧
      planRecords request = some planned ∧
      (transformed request .blobs).mapM (planBytes request) = some bytes ∧
      request.conflictMode = .rejectOnError ∧ planIssues request graphIssues planned = [] ∧
      plan = builtPlan localeLe request graphIssues planned bytes planId ∧
      plan.actions = indexActions false (sortedActions localeLe planned bytes) := by
  obtain ⟨graphIssues, planned, bytes, planId, hgraph, hplanned, hbytes, -, rfl⟩ :=
    planArchiveImport_eq.mp h
  obtain ⟨hmode, hissues⟩ := builtPlan_ready.mp hready
  refine ⟨graphIssues, planned, bytes, planId, hgraph, hplanned, hbytes, hmode, hissues, rfl, ?_⟩
  simp only [builtPlan, hissues, List.isEmpty_nil, Bool.not_true, Bool.and_false]

theorem mem_sortedActions {planned : List (ArchiveImportAction × List ArchiveIssue)}
    {bytes : List (Option ArchiveImportAction)} {a : ArchiveImportAction} :
    a ∈ sortedActions localeLe planned bytes ↔
      (∃ p ∈ planned, p.1 = a) ∨ a ∈ bytes.reduceOption := by
  rw [sortedActions, List.mem_insertionSort, List.mem_append, List.mem_map]

/-- The planned action of every record. -/
theorem exists_planned {planned : List (ArchiveImportAction × List ArchiveIssue)}
    (h : planRecords request = some planned) {r : ArchiveRecord}
    (hr : r ∈ request.archive.verification.records kind) :
    ∃ p ∈ planned, planRecord request kind (r, rewritten request kind r) = some p := by
  obtain ⟨groups, hgroups, rfl⟩ := Option.map_eq_some_iff.mp h
  obtain ⟨group, hgroup, hzip⟩ :=
    (mem_of_forall₂ (mapM_eq_some hgroups)).1 kind (mem_archiveRecordKinds kind)
  rw [zip_transformed] at hzip
  obtain ⟨p, hp, hplan⟩ := (mem_of_forall₂ (mapM_eq_some hzip)).1 _ (List.mem_map_of_mem hr)
  exact ⟨p, List.mem_flatten.mpr ⟨group, hgroup, hp⟩, hplan⟩

/-- What a ready plan inserts. -/
theorem mem_inserts (h : planArchiveImport localeLe request = some plan)
    (hready : plan.status = .ready) {p : JsString × ArchiveRecord} :
    p ∈ inserts kind plan.actions ↔ ∃ r ∈ request.archive.verification.records kind,
      importedId request kind r = some p.1 ∧ request.target.find kind p.1 = .absent ∧
        rewritten request kind r = p.2 := by
  obtain ⟨graphIssues, planned, bytes, planId, -, hplanned, hbytes, -, -, -, hactions⟩ :=
    ready_parts h hready
  rw [inserts, List.mem_filterMap, hactions]
  constructor
  · rintro ⟨a, ha, hp⟩
    obtain ⟨b, hb, index, rfl⟩ := mem_indexActions ha
    split at hp
    · rename_i hinsert
      obtain ⟨r, hr, rfl⟩ := Option.map_eq_some_iff.mp hp
      rcases mem_sortedActions.mp hb with ⟨q, hq, rfl⟩ | hb
      · obtain ⟨kind', pair, hpair, hplan⟩ := mem_planned hplanned hq
        have hplans := planRecord_plans hplan
        have hkind : kind' = kind := ActionKind.record.inj (hplans.kind.symm.trans hinsert.1)
        subst hkind
        rw [zip_transformed] at hpair
        obtain ⟨source, hsource, rfl⟩ := List.mem_map.mp hpair
        have hdisposition := planRecord_disposition hplan
        rw [show q.1.disposition = .insert from hinsert.2, dispositionOf_insert] at hdisposition
        refine ⟨source, hsource, ?_, hdisposition, ?_⟩
        · rw [← recordId_rewritten]
          exact hplans.targetId
        · exact Option.some.inj (hplans.record.symm.trans hr)
      · obtain ⟨source, -, hplan⟩ := mem_bytes hbytes hb
        have hkind := planBytes_kind hplan
        rw [show b.kind = .record kind from hinsert.1] at hkind
        cases hkind
    · cases hp
  · rintro ⟨r, hr, hid, habsent, hrecord⟩
    obtain ⟨q, hq, hplan⟩ := exists_planned hplanned hr
    have hplans := planRecord_plans hplan
    have htarget : q.1.targetId = p.1 := by
      have hsame := hplans.targetId
      rw [recordId_rewritten, hid, Option.some.injEq] at hsame
      exact hsame.symm
    have hdisposition := planRecord_disposition hplan
    rw [htarget, dispositionOf_insert.mpr habsent, Option.some.injEq] at hdisposition
    obtain ⟨index, hindex⟩ := mem_indexActions_false (mem_sortedActions.mpr (Or.inl ⟨q, hq, rfl⟩))
    refine ⟨{ q.1 with index }, hindex, ?_⟩
    simp only [hplans.kind, ← hdisposition, and_self, if_true, hplans.record, Option.map_some,
      htarget, hrecord]

end Inserts

section After

variable {localeLe : JsString → JsString → Bool} {request : ArchiveImportRequest}
  {plan : ArchiveImportPlan} {after : ArchiveImportInventory} {kind : ArchiveRecordKind}

/-- The same archive, planned against another inventory. -/
def again (request : ArchiveImportRequest) (after : ArchiveImportInventory) : ArchiveImportRequest :=
  { request with target := after }

theorem mappedWorkspaceId_again (h : after.workspaceId = request.target.workspaceId) :
    mappedWorkspaceId (again request after) = mappedWorkspaceId request := by
  simp only [mappedWorkspaceId, requestedWorkspace, again, h]
  rfl

theorem transformed_again (h : after.workspaceId = request.target.workspaceId) :
    transformed (again request after) = transformed request := by
  simp only [transformed, mappedWorkspaceId_again h]
  rfl

theorem requestIssues_again (h : after.workspaceId = request.target.workspaceId) :
    requestIssues (again request after) = requestIssues request := by
  simp only [requestIssues, requestedWorkspace, again, h]
  rfl

/-- A record that was there is still there, and nothing was added under its id. -/
theorem find_of_present (h : planArchiveImport localeLe request = some plan)
    (hready : plan.status = .ready) (hafter : Imported request.target plan.actions after)
    {id : JsString} (hpresent : request.target.find kind id ≠ .absent) :
    after.find kind id = request.target.find kind id := by
  rcases hafter.records kind with ⟨-, hsame⟩ | ⟨index, hindex, hextends⟩
  · rw [ArchiveImportInventory.find, ArchiveImportInventory.find, hsame]
  · have hnone : (inserts kind plan.actions).reverse.lookup id = none := by
      cases hlookup : (inserts kind plan.actions).reverse.lookup id with
      | none => rfl
      | some r =>
        obtain ⟨-, -, -, habsent, -⟩ :=
          (mem_inserts h hready).mp (List.mem_reverse.mp (mem_of_lookup hlookup))
        exact absurd habsent hpresent
    cases hold : request.target.records kind with
    | none =>
      rw [ArchiveImportInventory.find, hold] at hpresent
      exact absurd rfl hpresent
    | some old =>
      have hlookup := hextends.lookup id
      rw [hnone, hold, Option.getD_some, Option.none_or] at hlookup
      simp only [ArchiveImportInventory.find, hindex, hold, hlookup]

/-- Under the id of a record that was lacking there is one that was inserted. -/
theorem find_of_lacks (h : planArchiveImport localeLe request = some plan)
    (hready : plan.status = .ready) (hafter : Imported request.target plan.actions after)
    {r : ArchiveRecord} (hr : r ∈ request.archive.verification.records kind) {id : JsString}
    (hid : importedId request kind r = some id)
    (habsent : request.target.find kind id = .absent) :
    ∃ index, after.records kind = some index ∧
      Extends ((request.target.records kind).getD []) (inserts kind plan.actions) index ∧
      ∃ a ∈ request.archive.verification.records kind, importedId request kind a = some id ∧
        index.lookup id = some (rewritten request kind a) := by
  have hmem : (id, rewritten request kind r) ∈ inserts kind plan.actions :=
    (mem_inserts h hready).mpr ⟨r, hr, hid, habsent, rfl⟩
  rcases hafter.records kind with ⟨hnil, -⟩ | ⟨index, hindex, hextends⟩
  · rw [hnil] at hmem
    cases hmem
  · obtain ⟨v, hv⟩ : ∃ v, (inserts kind plan.actions).reverse.lookup id = some v := by
      cases hlookup : (inserts kind plan.actions).reverse.lookup id with
      | some v => exact ⟨v, rfl⟩
      | none =>
        have hkey := List.lookup_eq_none_iff.mp hlookup _ (List.mem_reverse.mpr hmem)
        simp at hkey
    obtain ⟨a, ha, haid, -, hrewritten⟩ :=
      (mem_inserts h hready).mp (List.mem_reverse.mp (mem_of_lookup hv))
    refine ⟨index, hindex, hextends, a, ha, haid, ?_⟩
    rw [hextends.lookup, hv, Option.some_or, hrewritten]

/-- Every record of the archive is found again, with its own content. -/
theorem disposition_again (h : planArchiveImport localeLe request = some plan)
    (hready : plan.status = .ready) (hafter : Imported request.target plan.actions after)
    (hagree : ImagesAgree request) {r : ArchiveRecord}
    (hr : r ∈ request.archive.verification.records kind) {id : JsString}
    (hid : importedId request kind r = some id) :
    dispositionOf request.mode kind (rewritten request kind r) (after.find kind id) =
      some .alreadyPresent := by
  obtain ⟨graphIssues, planned, bytes, planId, -, hplanned, -, -, hissues, -, -⟩ :=
    ready_parts h hready
  have hnone : planned.flatMap Prod.snd = [] := (List.append_eq_nil_iff.mp hissues).2
  obtain ⟨p, hp, hplan⟩ := exists_planned hplanned hr
  have htarget : p.1.targetId = id := by
    have hsame := (planRecord_plans hplan).targetId
    rw [recordId_rewritten, hid, Option.some.injEq] at hsame
    exact hsame.symm
  have hdisposition := planRecord_disposition hplan
  have hblocked := (planRecord_blocked hplan).mp (List.flatMap_eq_nil_iff.mp hnone p hp)
  rw [htarget] at hdisposition
  by_cases habsent : request.target.find kind id = .absent
  · obtain ⟨index, hindex, hextends, a, ha, haid, hlookup⟩ :=
      find_of_lacks h hready hafter hr hid habsent
    have hfind : after.find kind id = .record (rewritten request kind a) := by
      simp only [ArchiveImportInventory.find, hindex, hlookup]
    rw [hfind, dispositionOf]
    by_cases hworkspace : kind = .workspaces ∧ request.mode = .mappedWorkspace
    · rw [if_pos hworkspace]
    · obtain ⟨text, htext⟩ := exists_text (importPlanId_eq h) (mem_transformed.mpr ⟨r, hr, rfl⟩)
      have hsame := hagree kind hworkspace r hr ⟨id, hid, habsent⟩ a ha (hid.trans haid.symm)
      rw [if_neg hworkspace]
      simp only [← hsame, htext, if_true]
  · rw [find_of_present h hready hafter habsent, hdisposition]
    cases hvalue : p.1.disposition with
    | insert =>
      rw [hvalue] at hdisposition
      exact absurd (dispositionOf_insert.mp hdisposition) habsent
    | alreadyPresent => rfl
    | blocked => exact absurd hvalue hblocked

end After

section Schemas

variable {localeLe : JsString → JsString → Bool} {request : ArchiveImportRequest}
  {plan : ArchiveImportPlan} {after : ArchiveImportInventory}

/-- What is found first among more is found first among fewer, if it is one of them. -/
theorem find?_of_sublist {α : Type} {p : α → Bool} {l l' : List α} (h : l.Sublist l')
    (hn : l'.Nodup) {x : α} (hx : x ∈ l) (hfind : l'.find? p = some x) : l.find? p = some x := by
  induction h with
  | slnil => cases hx
  | @cons l l' a h ih =>
    have hne : a ≠ x := fun heq => (List.nodup_cons.mp hn).1 (heq ▸ h.subset hx)
    rw [List.find?_cons] at hfind
    split at hfind
    · exact absurd (Option.some.inj hfind) hne
    · exact ih (List.nodup_cons.mp hn).2 hx hfind
  | @cons_cons l l' a h ih =>
    rw [List.find?_cons] at hfind ⊢
    split at hfind
    · exact hfind
    · rename_i hpa
      rcases List.mem_cons.mp hx with rfl | hx
      · have hpx := List.find?_some hfind
        rw [hpx] at hpa
        cases hpa
      · exact ih (List.nodup_cons.mp hn).2 hx hfind

theorem field_rewritten_schema (r : ArchiveRecord) {key : JsString} (h : key ∉ mappedKeys .schemaPackages) :
    field (rewritten request .schemaPackages r) key = field r key :=
  field_mapRecord_of_not_mem .schemaPackages h

theorem sameSchema_congr {a b c : ArchiveRecord} (h : sameSchema a b = true) :
    sameSchema c a = sameSchema c b := by
  simp only [sameSchema, List.all_cons, List.all_nil, Bool.and_true, Bool.and_eq_true] at h ⊢
  rw [eq_of_strictEq h.1, eq_of_strictEq h.2.1, eq_of_strictEq h.2.2]

theorem sameSchema_rewritten (c r : ArchiveRecord) :
    sameSchema c (rewritten request .schemaPackages r) = sameSchema c r := by
  simp only [sameSchema, List.all_cons, List.all_nil]
  rw [field_rewritten_schema r (by decide), field_rewritten_schema r (by decide),
    field_rewritten_schema r (by decide)]

theorem sameSchema_rewritten_left (c r : ArchiveRecord) :
    sameSchema (rewritten request .schemaPackages r) c = sameSchema r c := by
  simp only [sameSchema, List.all_cons, List.all_nil]
  rw [field_rewritten_schema r (by decide), field_rewritten_schema r (by decide),
    field_rewritten_schema r (by decide)]

/-- No schema package of the archive meets one of its identity and another digest first. -/
theorem validateSchemaConflicts_eq_nil {target : List ArchiveRecord} :
    validateSchemaConflicts (transformed request) target = [] ↔
      ∀ r ∈ request.archive.verification.records .schemaPackages, ∀ c,
        target.find? (fun candidate => sameSchema candidate r) = some c →
          strictEq (field c (js "schemaDigest")) (field r (js "schemaDigest")) = true := by
  rw [validateSchemaConflicts, List.flatMap_eq_nil_iff]
  constructor
  · intro h r hr c hc
    have hnil := h (rewritten request .schemaPackages r) (mem_transformed.mpr ⟨r, hr, rfl⟩)
    simp only [sameSchema_rewritten, hc, field_rewritten_schema r
      (show js "schemaDigest" ∉ mappedKeys .schemaPackages by decide), ite_eq_left_iff,
      reduceCtorEq, imp_false, not_not] at hnil
    exact hnil
  · intro h s hs
    obtain ⟨r, hr, rfl⟩ := mem_transformed.mp hs
    simp only [sameSchema_rewritten]
    cases hfind : target.find? fun candidate => sameSchema candidate r with
    | none => rfl
    | some c =>
      simp only [field_rewritten_schema r
        (show js "schemaDigest" ∉ mappedKeys .schemaPackages by decide), h r hr c hfind, if_true]

/-- No two records of a kind have one id. -/
def DistinctIds (archive : ParsedTrustArchive) : Prop :=
  ∀ kind, (stringIds (archive.verification.records kind)).Nodup

theorem importedId_schema {r : ArchiveRecord} {id : JsString}
    (h : importedId request .schemaPackages r = some id) : idOf r = .string id := by
  rw [importedId, imported_unscoped (by decide) (by decide)] at h
  split at h
  · rename_i u s hs
    rw [hs, Option.some.inj h]
  · cases h

/-- The record of an id. -/
theorem eq_of_id {records : List ArchiveRecord} (hn : (stringIds records).Nodup) {a b : ArchiveRecord}
    (ha : a ∈ records) (hb : b ∈ records) {id : JsString} (hida : idOf a = .string id)
    (hidb : idOf b = .string id) : a = b := by
  induction records with
  | nil => cases ha
  | cons r records ih =>
    have htail : (stringIds records).Nodup :=
      hn.sublist ((List.sublist_cons_self r records).filterMap _)
    have hfresh : ∀ x ∈ records, idOf r = .string id → idOf x ≠ .string id := by
      intro x hx hr hxid
      have hcons : stringIds (r :: records) = id :: stringIds records := by
        rw [stringIds, List.filterMap_cons, hr]
        rfl
      rw [hcons] at hn
      exact (List.nodup_cons.mp hn).1 (mem_stringIds.mpr ⟨x, hx, hxid⟩)
    rcases List.mem_cons.mp ha with rfl | ha'
    · rcases List.mem_cons.mp hb with rfl | hb'
      · rfl
      · exact absurd hidb (hfresh b hb' hida)
    · rcases List.mem_cons.mp hb with rfl | hb'
      · exact absurd hida (hfresh a ha' hidb)
      · exact ih htail ha' hb'

/-- The check for schema packages passes again exactly when the packages that were inserted agree
with all of their identity. -/
theorem schemas_again_iff (h : planArchiveImport localeLe request = some plan)
    (hready : plan.status = .ready) (hafter : Imported request.target plan.actions after)
    (hids : DistinctIds request.archive) :
    validateSchemaConflicts (transformed request) (schemaInventory after) = [] ↔
      SchemasAgree request := by
  obtain ⟨graphIssues, planned, bytes, planId, -, -, -, -, hissues, -, -⟩ := ready_parts h hready
  simp only [planIssues, List.append_eq_nil_iff] at hissues
  have hfirst := hissues.1.2
  rcases hafter.records .schemaPackages with ⟨hnil, hsame⟩ | ⟨index, hindex, hextends⟩
  · rw [schemaInventory, hsame]
    refine iff_of_true hfirst ?_
    rintro a ha ⟨id, hid, habsent⟩
    have hmem : (id, rewritten request .schemaPackages a) ∈ inserts .schemaPackages plan.actions :=
      (mem_inserts h hready).mpr ⟨a, ha, hid, habsent, rfl⟩
    rw [hnil] at hmem
    cases hmem
  · have hinventory : schemaInventory after = index.map Prod.snd := by
      rw [schemaInventory, hindex]
      rfl
    rw [validateSchemaConflicts_eq_nil] at hfirst ⊢
    rw [hinventory]
    constructor
    · rintro hagain a ha ⟨id, hid, habsent⟩ b hb hab
      obtain ⟨index', hindex', -, a', ha', hid', hlookup⟩ :=
        find_of_lacks h hready hafter ha hid habsent
      obtain rfl : index = index' := Option.some.inj (hindex.symm.trans hindex')
      obtain rfl : a' = a := eq_of_id (hids .schemaPackages) ha' ha (importedId_schema hid')
        (importedId_schema hid)
      have hself : sameSchema a' a' = true := (sameSchema_congr hab).trans hab
      have hfound : ((index.map Prod.snd).find? fun candidate => sameSchema candidate a').isSome := by
        rw [List.find?_isSome]
        refine ⟨rewritten request .schemaPackages a',
          List.mem_map_of_mem (mem_of_lookup hlookup), ?_⟩
        rw [sameSchema_rewritten_left]
        exact hself
      obtain ⟨c, hc⟩ := Option.isSome_iff_exists.mp hfound
      have hdigest := hagain a' ha' c hc
      simp only [sameSchema_congr hab] at hc
      rw [← eq_of_strictEq hdigest]
      exact hagain b hb c hc
    · intro hagree r hr c hc
      rw [List.find?_map, Option.map_eq_some_iff] at hc
      obtain ⟨p, hp, rfl⟩ := hc
      have hmatch := List.find?_some hp
      rw [Function.comp_apply] at hmatch
      rcases hextends.entries p (List.mem_of_find?_eq_some hp) with hold | hadded
      · -- the old packages kept their order, so this one was the first before the import as well
        have hfind := find?_of_sublist hextends.order hextends.nodup.of_map hold hp
        apply hfirst r hr
        rw [schemaInventory, List.find?_map, hfind]
        rfl
      · obtain ⟨a, ha, hid, habsent, hrewritten⟩ := (mem_inserts h hready).mp hadded
        rw [← hrewritten, sameSchema_rewritten_left] at hmatch
        rw [← hrewritten, field_rewritten_schema a (by decide)]
        exact hagree a ha ⟨p.1, hid, habsent⟩ r hr hmatch

end Schemas

section Replan

variable {localeLe : JsString → JsString → Bool} {request : ArchiveImportRequest}
  {plan plan' : ArchiveImportPlan} {after : ArchiveImportInventory}

theorem planBytes_disposition {request : ArchiveImportRequest} {r : ArchiveRecord}
    {a : ArchiveImportAction} (h : planBytes request r = some (some a)) :
    field r (js "sha256") = .string a.targetId ∧ a.kind = .blobBytes ∧ a.disposition =
      if a.targetId ∈ request.target.blobDigests then .alreadyPresent else .insert := by
  rw [planBytes] at h
  split at h
  · rename_i digest hdigest
    obtain ⟨blobId, -, h⟩ := Option.map_eq_some_iff.mp h
    cases h
    exact ⟨hdigest, rfl, rfl⟩
  · cases h

/-- The bytes of every blob are there after the import. -/
theorem digest_after (h : planArchiveImport localeLe request = some plan)
    (hready : plan.status = .ready) (hafter : Imported request.target plan.actions after)
    {r : ArchiveRecord} (hr : r ∈ transformed request .blobs) {digest : JsString}
    (hdigest : field r (js "sha256") = .string digest) : digest ∈ after.blobDigests := by
  obtain ⟨graphIssues, planned, bytes, planId, -, -, hbytes, -, -, -, hactions⟩ :=
    ready_parts h hready
  obtain ⟨found, hfound, hplan⟩ := (mem_of_forall₂ (mapM_eq_some hbytes)).1 r hr
  have hsome : ∃ a, found = some a := by
    rcases planBytes_cases hplan with ⟨hnone, -⟩ | ⟨a, -, rfl, -⟩
    · rw [blobDigest, hdigest] at hnone
      cases hnone
    · exact ⟨a, rfl⟩
  obtain ⟨a, rfl⟩ := hsome
  obtain ⟨hsha, hkind, hdisposition⟩ := planBytes_disposition hplan
  have htarget : a.targetId = digest := JsValue.string.inj (hsha.symm.trans hdigest)
  rw [hafter.blobDigests]
  by_cases hpresent : digest ∈ request.target.blobDigests
  · exact Or.inl hpresent
  · right
    rw [htarget, if_neg hpresent] at hdisposition
    obtain ⟨index, hindex⟩ := mem_indexActions_false (@mem_sortedActions localeLe planned bytes a |>.mpr
      (Or.inr (List.reduceOption_mem_iff.mpr hfound)))
    refine List.mem_map.mpr ⟨{ a with index }, List.mem_filter.mpr ⟨hactions ▸ hindex, ?_⟩, htarget⟩
    simp [hkind, hdisposition]

/-- Planning again does not throw, and gives the same id. -/
theorem exists_replan (h : planArchiveImport localeLe request = some plan)
    (hready : plan.status = .ready) (hafter : Imported request.target plan.actions after)
    (hagree : ImagesAgree request) :
    ∃ plan', planArchiveImport localeLe (again request after) = some plan' ∧
      plan'.planId = plan.planId := by
  apply exists_plan_of_decides
  · rw [← importPlanId_eq h, importPlanId, importPlanId, blank, blank, again, hafter.workspaceId]
  · intro kind r hr id hid
    rw [transformed_again hafter.workspaceId] at hr
    obtain ⟨source, hsource, rfl⟩ := mem_transformed.mp hr
    rw [recordId_rewritten] at hid
    exact ⟨_, disposition_again h hready hafter hagree hsource hid⟩

theorem same_of_present {mode : ArchiveImportMode} {kind : ArchiveRecordKind}
    {old r : ArchiveRecord} (hw : ¬ (kind = .workspaces ∧ mode = .mappedWorkspace))
    (h : dispositionOf mode kind r (.record old) = some .alreadyPresent) :
    canonicalJson (.object old) = canonicalJson (.object r) := by
  rw [dispositionOf, if_neg hw] at h
  split at h
  · rename_i old' new hold hnew
    split at h
    · rename_i heq
      rw [hold, hnew, heq]
    · cases h
  · cases h

/-- A plan without inserts has found every record. -/
theorem present_of_no_inserts {planned : List (ArchiveImportAction × List ArchiveIssue)}
    {bytes : List (Option ArchiveImportAction)} {request : ArchiveImportRequest}
    (hplanned : planRecords request = some planned) (hnone : planned.flatMap Prod.snd = [])
    (hinserts : ∀ a ∈ indexActions false (sortedActions localeLe planned bytes),
      a.disposition ≠ .insert) {kind : ArchiveRecordKind} {r : ArchiveRecord}
    (hr : r ∈ request.archive.verification.records kind) :
    ∃ id, importedId request kind r = some id ∧ dispositionOf request.mode kind
      (rewritten request kind r) (request.target.find kind id) = some .alreadyPresent := by
  obtain ⟨p, hp, hplan⟩ := exists_planned hplanned hr
  have hblocked := (planRecord_blocked hplan).mp (List.flatMap_eq_nil_iff.mp hnone p hp)
  have hdisposition := planRecord_disposition hplan
  obtain ⟨index, hindex⟩ := mem_indexActions_false (@mem_sortedActions localeLe planned bytes p.1 |>.mpr
    (Or.inl ⟨p, hp, rfl⟩))
  have hinsert := hinserts _ hindex
  have hpresent : p.1.disposition = .alreadyPresent := by
    cases hvalue : p.1.disposition with
    | insert => exact absurd hvalue hinsert
    | alreadyPresent => rfl
    | blocked => exact absurd hvalue hblocked
  refine ⟨p.1.targetId, ?_, hdisposition.trans (congrArg some hpresent)⟩
  rw [← recordId_rewritten]
  exact (planRecord_plans hplan).targetId

theorem no_inserts_iff {plan : ArchiveImportPlan} (h : planArchiveImport localeLe request = some plan) :
    plan.counts .insert = 0 ↔ ∀ a ∈ plan.actions, a.disposition ≠ .insert := by
  obtain ⟨graphIssues, planned, bytes, planId, -, -, -, -, rfl⟩ := planArchiveImport_eq.mp h
  simp [builtPlan, List.filter_eq_nil_iff]

theorem rewritten_again (hworkspace : after.workspaceId = request.target.workspaceId)
    (kind : ArchiveRecordKind) (r : ArchiveRecord) :
    rewritten (again request after) kind r = rewritten request kind r := by
  simp only [rewritten, mappingsOf, mappedWorkspaceId_again hworkspace]
  rfl

theorem importedId_again (hworkspace : after.workspaceId = request.target.workspaceId)
    (kind : ArchiveRecordKind) (r : ArchiveRecord) :
    importedId (again request after) kind r = importedId request kind r := by
  rw [← recordId_rewritten, rewritten_again hworkspace, recordId_rewritten]

/-- Once its inserts are in the inventory, planning the archive again gives a ready plan of the same
id without inserts and issues, exactly when the packages and the images agree. -/
theorem replan_present_iff (localeLe : JsString → JsString → Bool) (request : ArchiveImportRequest)
    (plan : ArchiveImportPlan) (after : ArchiveImportInventory) (hids : DistinctIds request.archive)
    (h : planArchiveImport localeLe request = some plan) (hready : plan.status = .ready)
    (hafter : Imported request.target plan.actions after) :
    (∃ plan', planArchiveImport localeLe { request with target := after } = some plan' ∧
      plan'.planId = plan.planId ∧ plan'.status = .ready ∧ plan'.counts .insert = 0 ∧
        plan'.issues = []) ↔
      SchemasAgree request ∧ ImagesAgree request := by
  constructor
  · rintro ⟨plan', hplan', -, hready', hcount, -⟩
    obtain ⟨graphIssues, planned, bytes, planId, -, hplanned, -, -, hissues, -, hactions⟩ :=
      ready_parts hplan' hready'
    rw [no_inserts_iff hplan', hactions] at hcount
    have hall := hissues
    simp only [planIssues, List.append_eq_nil_iff] at hall
    refine ⟨?_, ?_⟩
    · rw [← schemas_again_iff h hready hafter hids, ← transformed_again hafter.workspaceId]
      exact hall.1.2
    · rintro kind hw a ha ⟨id, hid, habsent⟩ b hb hab
      obtain ⟨index, hindex, -, c, hc, hcid, hlookup⟩ := find_of_lacks h hready hafter ha hid habsent
      have hfind : after.find kind id = .record (rewritten request kind c) := by
        simp only [ArchiveImportInventory.find, hindex, hlookup]
      have hsame : ∀ r ∈ request.archive.verification.records kind,
          importedId request kind r = some id →
            canonicalJson (.object (rewritten request kind c)) =
              canonicalJson (.object (rewritten request kind r)) := by
        intro r hr hrid
        obtain ⟨id', hid', hpresent⟩ := @present_of_no_inserts localeLe planned bytes
          (again request after) hplanned hall.2 hcount kind r hr
        rw [importedId_again hafter.workspaceId, hrid, Option.some.injEq] at hid'
        subst hid'
        rw [rewritten_again hafter.workspaceId] at hpresent
        apply same_of_present hw
        rw [← hfind]
        exact hpresent
      rw [← hsame a ha hid, hsame b hb (hab ▸ hid)]
  · rintro ⟨hschemas, himages⟩
    obtain ⟨plan', hplan', hid⟩ := exists_replan h hready hafter himages
    obtain ⟨graphIssues, _, _, _, hgraph, -, -, hmode, hissues, -, -⟩ := ready_parts h hready
    obtain ⟨graphIssues', planned, bytes, planId, hgraph', hplanned, hbytes, -, rfl⟩ :=
      planArchiveImport_eq.mp hplan'
    have htransformed := @transformed_again request after hafter.workspaceId
    rw [htransformed, mappedWorkspaceId_again hafter.workspaceId, hgraph, Option.some.injEq] at hgraph'
    subst hgraph'
    have hpresent : ∀ p ∈ planned, p.1.disposition = .alreadyPresent := by
      intro p hp
      obtain ⟨kind, pair, hpair, hplan⟩ := mem_planned hplanned hp
      rw [zip_transformed] at hpair
      obtain ⟨r, hr, rfl⟩ := List.mem_map.mp hpair
      have hrid := (planRecord_plans hplan).targetId
      rw [recordId_rewritten, importedId_again hafter.workspaceId] at hrid
      have hdisposition := planRecord_disposition hplan
      rw [rewritten_again hafter.workspaceId] at hdisposition
      exact Option.some.inj (hdisposition.symm.trans
        (disposition_again h hready hafter himages hr hrid))
    have hnone : planned.flatMap Prod.snd = [] := by
      rw [List.flatMap_eq_nil_iff]
      intro p hp
      obtain ⟨kind, pair, -, hplan⟩ := mem_planned hplanned hp
      rw [planRecord_blocked hplan, hpresent p hp]
      simp
    have hagain : planIssues (again request after) graphIssues planned = [] := by
      simp only [planIssues, List.append_eq_nil_iff] at hissues ⊢
      rw [requestIssues_again hafter.workspaceId, htransformed]
      exact ⟨⟨⟨⟨hissues.1.1.1.1, hissues.1.1.1.2⟩, hissues.1.1.2⟩,
        (schemas_again_iff h hready hafter hids).mpr hschemas⟩, hnone⟩
    have hready' := @builtPlan_ready localeLe (again request after) graphIssues planned bytes planId
      |>.mpr ⟨hmode, hagain⟩
    refine ⟨_, hplan', hid, hready', ?_, hagain⟩
    rw [no_inserts_iff hplan']
    intro a ha
    have hactions : (builtPlan localeLe (again request after) graphIssues planned bytes
        planId).actions = indexActions false (sortedActions localeLe planned bytes) := by
      simp only [builtPlan, hagain, List.isEmpty_nil, Bool.not_true, Bool.and_false]
    rw [hactions] at ha
    obtain ⟨b, hb, index, rfl⟩ := mem_indexActions ha
    rcases mem_sortedActions.mp hb with ⟨p, hp, rfl⟩ | hb
    · simp [hpresent p hp]
    · obtain ⟨r, hr, hplan⟩ := mem_bytes hbytes hb
      rw [htransformed] at hr
      obtain ⟨hsha, -, hdisposition⟩ := planBytes_disposition hplan
      have hdigest := digest_after h hready hafter hr hsha
      simp [hdisposition, again, hdigest]

end Replan

section Samples

open TrustCore.ArchiveAssemble

/-- The inventory that an import into an empty one leaves. -/
def inventoryOf (target : ArchiveImportInventory) (actions : List ArchiveImportAction) :
    ArchiveImportInventory where
  workspaceId := target.workspaceId
  records := fun kind => some (inserts kind actions)
  blobDigests := target.blobDigests ++ insertedDigests actions

theorem lookup_reverse {l : List (JsString × ArchiveRecord)} (hn : (l.map Prod.fst).Nodup)
    (id : JsString) : l.reverse.lookup id = l.lookup id := by
  induction l with
  | nil => rfl
  | cons p l ih =>
    obtain ⟨key, r⟩ := p
    obtain ⟨hfresh, hn⟩ := List.nodup_cons.mp hn
    rw [List.reverse_cons, List.lookup_append, ih hn]
    cases hid : id == key with
    | false => simp [List.lookup_cons, hid]
    | true =>
      have hnone : l.lookup id = none := by
        rw [List.lookup_eq_none_iff]
        intro q hq
        simp only [bne_iff_ne, ne_eq]
        rintro rfl
        have hmem : q.1 ∈ l.map Prod.fst := List.mem_map_of_mem hq
        rw [beq_iff_eq.mp hid] at hmem
        exact hfresh hmem
      simp [List.lookup_cons, hid, hnone]

theorem imported_inventoryOf {target : ArchiveImportInventory} {actions : List ArchiveImportAction}
    (hempty : ∀ kind, target.records kind = none)
    (hn : ∀ kind, ((inserts kind actions).map Prod.fst).Nodup) :
    Imported target actions (inventoryOf target actions) where
  workspaceId := rfl
  records := by
    intro kind
    refine Or.inr ⟨inserts kind actions, rfl, hn kind, ?_, fun p hp => Or.inr hp, ?_⟩
    · intro id
      rw [lookup_reverse (hn kind), hempty]
      simp
    · rw [hempty]
      exact List.nil_sublist _
  blobDigests := fun digest => List.mem_append

/-- A schema package of one identity, under its own id and digest. -/
def package (id digest : JsString) : ArchiveRecord :=
  [(js "id", .string id), (js "name", .string (js "n")), (js "namespace", .string (js "m")),
    (js "schemaDigest", .string digest), (js "semanticVersion", .string (js "1.0.0"))]

/-- A workspace and these schema packages. -/
def packageSource (packages : List ArchiveRecord) : ArchiveSource where
  exportId := js "e"
  workspaceId := js "a"
  datasetIds := []
  createdAt := js "t"
  createdBy := js "u"
  sourceVersion := js "0.3"
  records := fun kind =>
    match kind with
    | .workspaces => [[(js "id", .string (js "a"))]]
    | .schemaPackages => packages
    | _ => []
  blobs := []

def packageRequest (packages : List ArchiveRecord) (entries : EntryMap) : ArchiveImportRequest where
  archive := ⟨entries, manifestOf (packageSource packages),
    ⟨true, (packageSource packages).records⟩⟩
  mode := .preserveIds
  conflictMode := .rejectOnError
  target := ⟨none, fun _ => none, []⟩

theorem packageSource_wellFormed {packages : List ArchiveRecord}
    (hjson : packages.all (fun r => isJson (.object r)) = true)
    (hscope : packages.all (fun r => (r.lookup (js "workspaceId")).isNone) = true) :
    WellFormedSource (packageSource packages) where
  json := by
    intro kind r hr
    cases kind with
    | workspaces =>
      rw [List.mem_singleton.mp hr]
      decide
    | schemaPackages => exact List.all_eq_true.mp hjson r hr
    | _ => cases hr
  scope := by
    intro kind r hr v hv
    cases kind with
    | workspaces =>
      rw [List.mem_singleton.mp hr] at hv
      cases hv
    | schemaPackages =>
      have hnone := List.all_eq_true.mp hscope r hr
      rw [hv] at hnone
      cases hnone
    | _ => cases hr
  resources := by
    intro r hr
    cases hr
  parents := by
    intro r hr
    cases hr
  blobs := List.Perm.nil
  events := ⟨[], List.Perm.nil, by simp, List.nodup_nil, by simp, List.isChain_nil⟩

theorem exists_ready {packages : List ArchiveRecord} (entries : EntryMap)
    (h : (planArchiveImport unitsLe (packageRequest packages EntryMap.empty)).any (fun plan =>
      plan.status == .ready && archiveRecordKinds.all fun kind =>
        decide ((inserts kind plan.actions).map Prod.fst).Nodup) = true) :
    ∃ plan, planArchiveImport unitsLe (packageRequest packages entries) = some plan ∧
      plan.status = .ready ∧ Imported (packageRequest packages entries).target plan.actions
        (inventoryOf (packageRequest packages entries).target plan.actions) := by
  obtain ⟨plan, hplan, hgood⟩ := (Option.any_eq_true _ _).mp h
  simp only [Bool.and_eq_true, beq_iff_eq, List.all_eq_true, decide_eq_true_eq] at hgood
  exact ⟨plan, hplan, hgood.1, imported_inventoryOf (fun _ => rfl) fun kind =>
    hgood.2 kind (mem_archiveRecordKinds kind)⟩

theorem replan_present_iff_sample : ∃ entries plan, ∃ after,
    Verified (packageRequest [package (js "s") (js "x")] entries).archive ∧
    planArchiveImport unitsLe (packageRequest [package (js "s") (js "x")] entries) = some plan ∧
    Imported (packageRequest [package (js "s") (js "x")] entries).target plan.actions after ∧
    ∃ plan', planArchiveImport unitsLe
      { packageRequest [package (js "s") (js "x")] entries with target := after } = some plan' ∧
      plan'.planId = plan.planId ∧ plan'.status = .ready ∧ plan'.counts .insert = 0 ∧
        plan'.issues = [] := by
  have hone : ∀ kind, ∀ a ∈ (packageSource [package (js "s") (js "x")]).records kind,
      ∀ b ∈ (packageSource [package (js "s") (js "x")]).records kind, a = b := by
    intro kind a ha b hb
    cases kind with
    | workspaces => rw [List.mem_singleton.mp ha, List.mem_singleton.mp hb]
    | schemaPackages => rw [List.mem_singleton.mp ha, List.mem_singleton.mp hb]
    | _ => cases ha
  have hids : ∀ kind ∈ archiveRecordKinds,
      (stringIds ((packageSource [package (js "s") (js "x")]).records kind)).Nodup := by
    decide +kernel
  obtain ⟨entries, hverified⟩ : ∃ entries,
      Verified (packageRequest [package (js "s") (js "x")] entries).archive := by
    apply exists_verified (packageSource_wellFormed (by decide +kernel) (by decide +kernel))
    · decide +kernel
    · intro kind
      cases kind <;> rfl
    · intro kind
      cases kind <;> rfl
  obtain ⟨plan, hplan, hready, hafter⟩ :=
    @exists_ready [package (js "s") (js "x")] entries (by decide +kernel)
  refine ⟨entries, plan, _, hverified, hplan, hafter, ?_⟩
  apply (replan_present_iff unitsLe _ plan _ (fun kind => hids kind (mem_archiveRecordKinds kind))
    hplan hready hafter).mpr
  constructor
  · intro a ha _ b hb _
    rw [hone .schemaPackages a ha b hb, List.mem_singleton.mp hb]
    decide
  · intro kind _ a ha _ b hb _
    rw [hone kind a ha b hb]

/-- Two packages of one identity are both inserted, and refused when they are planned again. -/
theorem planned_again_conflicts : ∃ entries plan, ∃ after,
    Verified (packageRequest [package (js "s") (js "x"), package (js "u") (js "y")] entries).archive ∧
    DistinctIds
      (packageRequest [package (js "s") (js "x"), package (js "u") (js "y")] entries).archive ∧
    planArchiveImport unitsLe
      (packageRequest [package (js "s") (js "x"), package (js "u") (js "y")] entries) = some plan ∧
    plan.status = .ready ∧
    Imported (packageRequest [package (js "s") (js "x"), package (js "u") (js "y")] entries).target
      plan.actions after ∧
    ∀ plan', planArchiveImport unitsLe
      { packageRequest [package (js "s") (js "x"), package (js "u") (js "y")] entries with
        target := after } = some plan' → plan'.status ≠ .ready := by
  have hids : ∀ kind ∈ archiveRecordKinds, (stringIds ((packageSource
      [package (js "s") (js "x"), package (js "u") (js "y")]).records kind)).Nodup := by
    decide +kernel
  obtain ⟨entries, hverified⟩ : ∃ entries, Verified
      (packageRequest [package (js "s") (js "x"), package (js "u") (js "y")] entries).archive := by
    apply exists_verified (packageSource_wellFormed (by decide +kernel) (by decide +kernel))
    · decide +kernel
    · intro kind
      cases kind <;> rfl
    · intro kind
      cases kind <;> rfl
  obtain ⟨plan, hplan, hready, hafter⟩ :=
    @exists_ready [package (js "s") (js "x"), package (js "u") (js "y")] entries
      (by decide +kernel)
  have hdistinct := fun kind => hids kind (mem_archiveRecordKinds kind)
  refine ⟨entries, plan, _, hverified, hdistinct, hplan, hready, hafter, ?_⟩
  intro plan' hplan' hready'
  obtain ⟨graphIssues, planned, _, _, -, -, -, -, hissues, -, -⟩ := ready_parts hplan' hready'
  simp only [planIssues, List.append_eq_nil_iff] at hissues
  have hagree := (schemas_again_iff hplan hready hafter hdistinct).mp hissues.1.2
  have hdigests := hagree _ List.mem_cons_self ⟨js "s", rfl, rfl⟩ _
    (List.mem_cons_of_mem _ (List.mem_singleton_self _)) (by decide)
  revert hdigests
  decide

end Samples

end TrustCore.ImportReplanning
