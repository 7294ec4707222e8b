import Mathlib.Data.List.ReduceOption
import TrustCore.ImportPlan

/-!
# References of a ready plan

A ready plan has passed `validateGraph`, so the references that it checks name
planned records. `mapRecord` also rewrites four fields that nothing checks; a
ready plan is closed under references exactly when those name records of the
archive, before or after the ids are mapped.
-/

namespace TrustCore.ImportReferences

open TrustCore.Utf TrustCore.Json TrustCore.Dynamic TrustCore.ArchiveFormat TrustCore.ImportPlan

def plannedRecords (plan : ArchiveImportPlan) (kind : ArchiveRecordKind) : List ArchiveRecord :=
  plan.actions.filterMap fun action => if action.kind = .record kind then action.record else none

/-- The value is the id of a planned record of the kind. -/
def Resolves (plan : ArchiveImportPlan) (kind : ArchiveRecordKind) (v : JsValue) : Prop :=
  ∃ record ∈ plannedRecords plan kind, ∃ id, idOf record = .string id ∧ v = .string id

/-- The reference may be absent. -/
def Optionally (P : JsValue → Prop) (v : JsValue) : Prop := isNullish v = true ∨ P v

/-- Without planned schema packages their references are not resolved. -/
def SchemaResolves (plan : ArchiveImportPlan) (v : JsValue) : Prop :=
  plannedRecords plan .schemaPackages = [] ∨ Resolves plan .schemaPackages v

def endKind (kind : JsValue) : Option ArchiveRecordKind :=
  if strictEq kind (.string (js "resource")) then some .resources
  else if strictEq kind (.string (js "revision")) then some .revisions
  else if strictEq kind (.string (js "blob")) then some .blobs
  else none

def EndResolves (plan : ArchiveImportPlan) (kind v : JsValue) : Prop :=
  kind = .string (js "external") ∨ ∃ recordKind, endKind kind = some recordKind ∧
    Resolves plan recordKind v

def SubjectResolves (plan : ArchiveImportPlan) (kind v : JsValue) : Prop :=
  ∃ recordKind, tombstoneSubjectKind kind = some recordKind ∧ Resolves plan recordKind v

/-- Every reference that a planned record holds names a planned record. -/
def ReferencesResolve (plan : ArchiveImportPlan) (kind : ArchiveRecordKind) (r : ArchiveRecord) :
    Prop :=
  match kind with
  | .datasets =>
    Optionally (Resolves plan .retention) (field r (js "retentionPolicyId")) ∧
      SchemaResolves plan (field r (js "schemaPackageId"))
  | .resources =>
    Resolves plan .datasets (field r (js "datasetId")) ∧
      Optionally (Resolves plan .revisions) (field r (js "currentRevisionId"))
  | .revisions =>
    Resolves plan .resources (field r (js "resourceId")) ∧
      Resolves plan .datasets (field r (js "datasetId")) ∧
      SchemaResolves plan (field r (js "schemaPackageId")) ∧
      Optionally (Resolves plan .revisions) (field r (js "parentRevisionId")) ∧
      Optionally (Resolves plan .revisions) (field r (js "restoredFromRevisionId")) ∧
      ∀ items, field r (js "mergeParentRevisionIds") = .array items →
        ∀ v ∈ items, Resolves plan .revisions v
  | .revisionBlobs =>
    Resolves plan .revisions (field r (js "revisionId")) ∧
      Resolves plan .blobs (field r (js "blobObjectId"))
  | .relations =>
    Resolves plan .datasets (field r (js "datasetId")) ∧
      EndResolves plan (field r (js "sourceKind")) (field r (js "sourceId")) ∧
      EndResolves plan (field r (js "targetKind")) (field r (js "targetId"))
  | .tombstones =>
    Resolves plan .datasets (field r (js "datasetId")) ∧
      SubjectResolves plan (field r (js "subjectKind")) (field r (js "subjectId")) ∧
      Optionally (Resolves plan .revisions) (field r (js "priorRevisionId"))
  | _ => True

def ClosedUnderReferences (plan : ArchiveImportPlan) : Prop :=
  ∀ kind, ∀ r ∈ plannedRecords plan kind, ReferencesResolve plan kind r

/-- The value is the id of a record of the archive, or the id such a record is
imported under. -/
def Names (request : ArchiveImportRequest) (kind : ArchiveRecordKind) (v : JsValue) : Prop :=
  ∃ id ∈ stringIds (request.archive.verification.records kind), v = .string id ∨
    v = .string (entityId request.archive.manifest.workspaceId (mappedWorkspaceId request) kind id)

def IsString (v : JsValue) : Prop := ∃ s, v = .string s

/-- The fields that are rewritten without a check, and the fields whose check
passes over a value that is not a string. -/
structure UncheckedResolve (request : ArchiveImportRequest) : Prop where
  restored : ∀ r ∈ request.archive.verification.records .revisions,
    Optionally (Names request .revisions) (field r (js "restoredFromRevisionId"))
  merged : ∀ r ∈ request.archive.verification.records .revisions,
    ∀ items, field r (js "mergeParentRevisionIds") = .array items →
      ∀ v ∈ items, Names request .revisions v
  relation : ∀ r ∈ request.archive.verification.records .relations,
    Names request .datasets (field r (js "datasetId"))
  tombstone : ∀ r ∈ request.archive.verification.records .tombstones,
    Names request .datasets (field r (js "datasetId"))
  parent : ∀ r ∈ request.archive.verification.records .revisions,
    Optionally IsString (field r (js "parentRevisionId"))
  prior : ∀ r ∈ request.archive.verification.records .tombstones,
    Optionally IsString (field r (js "priorRevisionId"))
  retention : ∀ r ∈ request.archive.verification.records .datasets,
    Optionally IsString (field r (js "retentionPolicyId"))

section Fields

variable {s t : JsString} {m : Mappings} {r : ArchiveRecord} {key : JsString}

theorem field_mapField_self (mapping : JsString → Option JsString) :
    field (mapField mapping key r) key = mapReference mapping (field r key) := by
  rw [mapField, field_setMember_self]

theorem field_mapField_ne {key' : JsString} (mapping : JsString → Option JsString)
    (h : key' ≠ key) : field (mapField mapping key r) key' = field r key' := by
  rw [mapField, field_setMember_ne _ _ h]

theorem field_mapEnd_self (kindKey : JsString) : field (mapEnd m kindKey key r) key =
    mapRelationReference m (field r kindKey) (field r key) := by
  rw [mapEnd, field_setMember_self]

theorem field_mapEnd_ne {key' : JsString} (kindKey : JsString) (h : key' ≠ key) :
    field (mapEnd m kindKey key r) key' = field r key' := by
  rw [mapEnd, field_setMember_ne _ _ h]

theorem field_mapMergeParents_ne (h : key ≠ js "mergeParentRevisionIds") :
    field (mapMergeParents m r) key = field r key := by
  rw [mapMergeParents]
  split
  · exact field_setMember_ne _ _ h
  · rfl

theorem field_mapMergeParents_self : field (mapMergeParents m r) (js "mergeParentRevisionIds") =
    match field r (js "mergeParentRevisionIds") with
    | .array items => .array (items.map (mapReference (m .revisions)))
    | v => v := by
  rw [mapMergeParents]
  cases h : field r (js "mergeParentRevisionIds") with
  | array items => exact field_setMember_self _ _ _
  | _ => exact h

theorem field_mapWorkspaceId_ne {kind : ArchiveRecordKind} (h : key ≠ js "workspaceId") :
    field (mapWorkspaceId kind s t r) key = field r key := by
  rw [mapWorkspaceId]
  split
  · exact field_setMember_ne _ _ h
  · rfl

theorem idOf_mapRecord (kind : ArchiveRecordKind) :
    idOf (mapRecord kind r s t m) = mapReference (m kind) (idOf r) := by
  cases kind <;>
    simp (disch := decide) only [mapRecord, idOf, field_mapField_self, field_mapField_ne,
      field_mapEnd_ne, field_mapMergeParents_ne, field_mapWorkspaceId_ne]

/-- The fields that `mapRecord` may change. -/
def mappedKeys : ArchiveRecordKind → List JsString
  | .workspaces | .schemaPackages | .auditEvents | .retention | .blobs =>
    [js "workspaceId", js "id"]
  | .datasets => [js "workspaceId", js "id", js "retentionPolicyId"]
  | .resources => [js "workspaceId", js "id", js "datasetId", js "currentRevisionId"]
  | .revisions =>
    [js "workspaceId", js "id", js "datasetId", js "resourceId", js "parentRevisionId",
      js "restoredFromRevisionId", js "mergeParentRevisionIds"]
  | .revisionBlobs => [js "workspaceId", js "id", js "revisionId", js "blobObjectId"]
  | .relations => [js "workspaceId", js "id", js "datasetId", js "sourceId", js "targetId"]
  | .tombstones =>
    [js "workspaceId", js "id", js "datasetId", js "subjectId", js "priorRevisionId"]

theorem field_mapRecord_of_not_mem (kind : ArchiveRecordKind) (h : key ∉ mappedKeys kind) :
    field (mapRecord kind r s t m) key = field r key := by
  cases kind <;> simp only [mappedKeys, List.mem_cons, List.not_mem_nil, or_false, not_or] at h <;>
    simp only [mapRecord, field_mapField_ne, field_mapEnd_ne, field_mapMergeParents_ne,
      field_mapWorkspaceId_ne, ne_eq, h, not_false_eq_true]

theorem dataset_fields :
    field (mapRecord .datasets r s t m) (js "retentionPolicyId") =
      mapReference (m .retention) (field r (js "retentionPolicyId")) := by
  simp (disch := decide) only [mapRecord, field_mapField_self, field_mapField_ne,
    field_mapWorkspaceId_ne]

theorem revision_resourceId :
    field (mapRecord .revisions r s t m) (js "resourceId") =
      mapReference (m .resources) (field r (js "resourceId")) := by
  simp (disch := decide) only [mapRecord, field_mapField_self, field_mapField_ne,
    field_mapMergeParents_ne, field_mapWorkspaceId_ne]

theorem revision_fields :
    field (mapRecord .revisions r s t m) (js "parentRevisionId") =
      mapReference (m .revisions) (field r (js "parentRevisionId")) ∧
    field (mapRecord .revisions r s t m) (js "restoredFromRevisionId") =
      mapReference (m .revisions) (field r (js "restoredFromRevisionId")) ∧
    field (mapRecord .revisions r s t m) (js "mergeParentRevisionIds") =
      match field r (js "mergeParentRevisionIds") with
      | .array items => .array (items.map (mapReference (m .revisions)))
      | v => v := by
  simp (disch := decide) only [mapRecord, field_mapMergeParents_self, field_mapField_self,
    field_mapField_ne, field_mapMergeParents_ne, field_mapWorkspaceId_ne, and_self]

theorem relation_datasetId :
    field (mapRecord .relations r s t m) (js "datasetId") =
      mapReference (m .datasets) (field r (js "datasetId")) := by
  simp (disch := decide) only [mapRecord, field_mapField_self, field_mapField_ne, field_mapEnd_ne,
    field_mapWorkspaceId_ne]

theorem tombstone_fields :
    field (mapRecord .tombstones r s t m) (js "datasetId") =
      mapReference (m .datasets) (field r (js "datasetId")) ∧
    field (mapRecord .tombstones r s t m) (js "priorRevisionId") =
      mapReference (m .revisions) (field r (js "priorRevisionId")) := by
  simp (disch := decide) only [mapRecord, field_mapField_self, field_mapField_ne, field_mapEnd_ne,
    field_mapWorkspaceId_ne, and_self]

theorem blob_sha256 : field (mapRecord .blobs r s t m) (js "sha256") = field r (js "sha256") :=
  field_mapRecord_of_not_mem .blobs (by decide)

end Fields

theorem mem_stringIds {records : List ArchiveRecord} {id : JsString} :
    id ∈ stringIds records ↔ ∃ r ∈ records, idOf r = .string id := by
  simp only [stringIds, List.mem_filterMap]
  constructor
  · rintro ⟨r, hr, h⟩
    refine ⟨r, hr, ?_⟩
    cases hv : idOf r with
    | string s =>
      rw [hv, asString, Option.some.injEq] at h
      rw [h]
    | _ => simp [hv, asString] at h
  · rintro ⟨r, hr, h⟩
    exact ⟨r, hr, by rw [h, asString]⟩

theorem requireId_eq_nil {ids : List JsString} {v : JsValue} {label : JsString} {allow : Bool} :
    requireId ids v label allow = [] ↔ ∃ s, v = .string s ∧ (s ∈ ids ∨ allow = true ∧ ids = []) := by
  cases v with
  | string s =>
    by_cases hs : s ∈ ids
    · simp [requireId, hs]
    · cases allow <;> cases ids <;> simp_all [requireId]
  | _ => simp [requireId]

section Mapping

variable {request : ArchiveImportRequest} {kind : ArchiveRecordKind}

def mappingsOf (request : ArchiveImportRequest) : Mappings :=
  buildIdMappings request.archive.verification.records request.archive.manifest.workspaceId
    (mappedWorkspaceId request)

def rewritten (request : ArchiveImportRequest) (kind : ArchiveRecordKind) (r : ArchiveRecord) :
    ArchiveRecord :=
  mapRecord kind r request.archive.manifest.workspaceId (mappedWorkspaceId request)
    (mappingsOf request)

/-- What a reference to a record of the kind is imported as. -/
def imported (request : ArchiveImportRequest) (kind : ArchiveRecordKind) (v : JsValue) : JsValue :=
  mapReference (mappingsOf request kind) v

/-- The value is the id of a rewritten record of the kind. -/
def Known (request : ArchiveImportRequest) (kind : ArchiveRecordKind) (v : JsValue) : Prop :=
  ∃ id ∈ stringIds (transformed request kind), v = .string id

theorem mem_transformed {r : ArchiveRecord} : r ∈ transformed request kind ↔
    ∃ r₀ ∈ request.archive.verification.records kind, rewritten request kind r₀ = r := by
  rw [transformed, transformRecords, List.mem_map]
  rfl

theorem mapping_of_mem {id : JsString} (hk : kind ∈ scopedKinds)
    (h : id ∈ stringIds (request.archive.verification.records kind)) :
    mappingsOf request kind id =
      some (entityId request.archive.manifest.workspaceId (mappedWorkspaceId request) kind id) := by
  have hw : kind ≠ .workspaces := by
    rintro rfl
    revert hk
    decide
  rw [mappingsOf, buildIdMappings, if_neg hw, if_pos ⟨hk, h⟩]

theorem mapping_of_not_mem {id : JsString} (hk : kind ∈ scopedKinds)
    (h : id ∉ stringIds (request.archive.verification.records kind)) :
    mappingsOf request kind id = none := by
  have hw : kind ≠ .workspaces := by
    rintro rfl
    revert hk
    decide
  rw [mappingsOf, buildIdMappings, if_neg hw, if_neg (fun hc => h hc.2)]

theorem mem_stringIds_transformed (hk : kind ∈ scopedKinds) {id : JsString} :
    id ∈ stringIds (transformed request kind) ↔
      ∃ id₀ ∈ stringIds (request.archive.verification.records kind), id =
        entityId request.archive.manifest.workspaceId (mappedWorkspaceId request) kind id₀ := by
  rw [mem_stringIds]
  constructor
  · rintro ⟨r, hr, hid⟩
    obtain ⟨r₀, hr₀, rfl⟩ := mem_transformed.mp hr
    rw [rewritten, idOf_mapRecord] at hid
    cases hv : idOf r₀ with
    | string id₀ =>
      have hmem := mem_stringIds.mpr ⟨r₀, hr₀, hv⟩
      rw [hv, mapReference, mapping_of_mem hk hmem, Option.getD_some, JsValue.string.injEq] at hid
      exact ⟨id₀, hmem, hid.symm⟩
    | _ => simp [hv, mapReference] at hid
  · rintro ⟨id₀, hmem, rfl⟩
    obtain ⟨r₀, hr₀, hv⟩ := mem_stringIds.mp hmem
    refine ⟨_, mem_transformed.mpr ⟨r₀, hr₀, rfl⟩, ?_⟩
    rw [rewritten, idOf_mapRecord, hv, mapReference, mapping_of_mem hk hmem, Option.getD_some]

/-- Rewriting a reference to a scoped kind gives the id of a rewritten record
exactly when the reference named one. -/
theorem known_mapReference_iff (request : ArchiveImportRequest) (kind : ArchiveRecordKind)
    (hk : kind ∈ scopedKinds) (v : JsValue) :
    Known request kind (mapReference (mappingsOf request kind) v) ↔ Names request kind v := by
  cases v with
  | string s =>
    rw [mapReference]
    by_cases hs : s ∈ stringIds (request.archive.verification.records kind)
    · rw [mapping_of_mem hk hs, Option.getD_some]
      constructor
      · exact fun _ => ⟨s, hs, Or.inl rfl⟩
      · exact fun _ => ⟨_, (mem_stringIds_transformed hk).mpr ⟨s, hs, rfl⟩, rfl⟩
    · rw [mapping_of_not_mem hk hs, Option.getD_none]
      constructor
      · rintro ⟨id, hid, he⟩
        obtain ⟨id₀, hmem, rfl⟩ := (mem_stringIds_transformed hk).mp hid
        exact ⟨id₀, hmem, Or.inr he⟩
      · rintro ⟨id₀, hmem, he | he⟩
        · rw [JsValue.string.injEq] at he
          exact absurd (he ▸ hmem) hs
        · exact ⟨_, (mem_stringIds_transformed hk).mpr ⟨id₀, hmem, rfl⟩, he⟩
  | _ => simp [Known, Names, mapReference]

theorem isNullish_mapReference (mapping : JsString → Option JsString) (v : JsValue) :
    isNullish (mapReference mapping v) = isNullish v := by
  cases v <;> rfl

theorem isString_mapReference {mapping : JsString → Option JsString} {v : JsValue} :
    IsString (mapReference mapping v) ↔ IsString v := by
  cases v <;> simp [IsString, mapReference]

theorem optionally_known_iff (request : ArchiveImportRequest) (kind : ArchiveRecordKind)
    (hk : kind ∈ scopedKinds) (v : JsValue) :
    Optionally (Known request kind) (mapReference (mappingsOf request kind) v) ↔
      Optionally (Names request kind) v := by
  rw [Optionally, Optionally, isNullish_mapReference, known_mapReference_iff request kind hk]

end Mapping

theorem mapM_eq_some {α β : Type} {f : α → Option β} {xs : List α} {ys : List β}
    (h : xs.mapM f = some ys) : List.Forall₂ (fun x y => f x = some y) xs ys := by
  induction xs generalizing ys with
  | nil =>
    rw [List.mapM_nil] at h
    cases h
    exact .nil
  | cons x xs ih =>
    rw [List.mapM_cons] at h
    obtain ⟨y, hy, h⟩ := Option.bind_eq_some_iff.mp h
    obtain ⟨ys', hys, h⟩ := Option.bind_eq_some_iff.mp h
    cases h
    exact .cons hy (ih hys)

theorem mem_of_forall₂ {α β : Type} {R : α → β → Prop} {xs : List α} {ys : List β}
    (h : List.Forall₂ R xs ys) : (∀ x ∈ xs, ∃ y ∈ ys, R x y) ∧ ∀ y ∈ ys, ∃ x ∈ xs, R x y := by
  induction h with
  | nil => simp
  | @cons x y xs ys hxy _ ih =>
    constructor
    · intro a ha
      rcases List.mem_cons.mp ha with rfl | ha
      · exact ⟨y, List.mem_cons_self, hxy⟩
      · obtain ⟨b, hb, hab⟩ := ih.1 a ha
        exact ⟨b, List.mem_cons_of_mem _ hb, hab⟩
    · intro b hb
      rcases List.mem_cons.mp hb with rfl | hb
      · exact ⟨x, List.mem_cons_self, hxy⟩
      · obtain ⟨a, ha, hab⟩ := ih.2 b hb
        exact ⟨a, List.mem_cons_of_mem _ ha, hab⟩

section Plan

variable {localeLe : JsString → JsString → Bool} {request : ArchiveImportRequest}
  {plan : ArchiveImportPlan}

/-- What a plan is made of; a ready plan has no issue of any kind. -/
theorem planArchiveImport_ready (h : planArchiveImport localeLe request = some plan)
    (hr : plan.status = .ready) : ∃ planned bytes,
      planRecords request = some planned ∧
      (transformed request .blobs).mapM (planBytes request) = some bytes ∧
      validateGraph (transformed request) (mappedWorkspaceId request) = some [] ∧
      validateRetentionAssignments (transformed request) = [] ∧
      plan.actions = indexActions false
        ((planned.map Prod.fst ++ bytes.reduceOption).insertionSort
          fun a b => actionLe localeLe a b = true) := by
  rw [planArchiveImport] at h
  obtain ⟨graphIssues, hgraph, h⟩ := Option.bind_eq_some_iff.mp h
  obtain ⟨planned, hplanned, h⟩ := Option.bind_eq_some_iff.mp h
  obtain ⟨bytes, hbytes, h⟩ := Option.bind_eq_some_iff.mp h
  obtain ⟨planId, hid, h⟩ := Option.bind_eq_some_iff.mp h
  cases h
  refine ⟨planned, bytes, hplanned, hbytes, ?_⟩
  cases hc : request.conflictMode with
  | reportOnly => simp [hc] at hr
  | rejectOnError =>
    simp only [hc] at hr
    split at hr
    · rename_i hnil
      have hnil' := hnil
      simp only [List.isEmpty_iff, List.append_eq_nil_iff] at hnil'
      rw [hnil'.1.1.1.2] at hgraph
      simp only [hnil, Bool.not_true, Bool.and_false]
      exact ⟨hgraph, hnil'.1.1.2, trivial⟩
    · cases hr

/-- In a ready plan an action keeps everything but its place. -/
theorem mem_indexActions_false {actions : List ArchiveImportAction} {a : ArchiveImportAction}
    (h : a ∈ actions) : ∃ index, { a with index } ∈ indexActions false actions := by
  obtain ⟨i, hi, rfl⟩ := List.mem_iff_getElem.mp h
  refine ⟨i, List.mem_map.mpr ⟨(actions[i], i), ?_, rfl⟩⟩
  exact List.mk_mem_zipIdx_iff_getElem?.mpr (List.getElem?_eq_getElem hi)

theorem planRecord_action {kind : ArchiveRecordKind} {pair : ArchiveRecord × ArchiveRecord}
    {planned : ArchiveImportAction × List ArchiveIssue}
    (h : planRecord request kind pair = some planned) :
    planned.1.kind = .record kind ∧ planned.1.record = some pair.2 := by
  rw [planRecord] at h
  obtain ⟨sourceId, _, h⟩ := Option.bind_eq_some_iff.mp h
  obtain ⟨transformedId, _, h⟩ := Option.bind_eq_some_iff.mp h
  obtain ⟨disposition, _, h⟩ := Option.bind_eq_some_iff.mp h
  cases h
  exact ⟨rfl, rfl⟩

theorem planRecord_id {kind : ArchiveRecordKind} {pair : ArchiveRecord × ArchiveRecord}
    {planned : ArchiveImportAction × List ArchiveIssue}
    (h : planRecord request kind pair = some planned) (hk : kind ≠ .retention) :
    IsString (idOf pair.2) := by
  rw [planRecord] at h
  obtain ⟨sourceId, _, h⟩ := Option.bind_eq_some_iff.mp h
  obtain ⟨transformedId, hid, _⟩ := Option.bind_eq_some_iff.mp h
  rw [recordId] at hid
  split at hid
  · rename_i u s hs
    exact ⟨u :: s, hs⟩
  · rw [if_neg hk] at hid
    cases hid

theorem planBytes_kind {r : ArchiveRecord} {a : ArchiveImportAction}
    (h : planBytes request r = some (some a)) : a.kind = .blobBytes := by
  rw [planBytes] at h
  split at h
  · obtain ⟨blobId, _, h⟩ := Option.map_eq_some_iff.mp h
    cases h
    rfl
  · cases h

theorem mem_zip_transformed {kind : ArchiveRecordKind} {r : ArchiveRecord}
    (h : r ∈ transformed request kind) :
    ∃ pair ∈ (request.archive.verification.records kind).zip (transformed request kind),
      pair.2 = r := by
  obtain ⟨r₀, hr₀, hmap⟩ := mem_transformed.mp h
  refine ⟨(r₀, r), ?_, rfl⟩
  rw [transformed, transformRecords, ← List.map_prod_left_eq_zip, List.mem_map]
  exact ⟨r₀, hr₀, by rw [← hmap]; rfl⟩

/-- An action stands for a rewritten record, or for the bytes of a blob. -/
theorem mem_actions (h : planArchiveImport localeLe request = some plan)
    (hr : plan.status = .ready) {a : ArchiveImportAction} (ha : a ∈ plan.actions) :
    (∃ kind, a.kind = .record kind ∧ ∃ r ∈ transformed request kind, a.record = some r) ∨
      a.kind = .blobBytes := by
  obtain ⟨planned, bytes, hplanned, hbytes, -, -, hactions⟩ := planArchiveImport_ready h hr
  obtain ⟨groups, hgroups, rfl⟩ := Option.map_eq_some_iff.mp hplanned
  rw [hactions] at ha
  obtain ⟨⟨b, i⟩, hb, rfl⟩ := List.mem_map.mp ha
  have hsorted := List.fst_mem_of_mem_zipIdx hb
  rw [List.mem_insertionSort, List.mem_append, List.mem_map] at hsorted
  rcases hsorted with ⟨q, hq, rfl⟩ | hbytes'
  · left
    obtain ⟨group, hgroup, hq⟩ := List.mem_flatten.mp hq
    obtain ⟨kind, -, hzip⟩ := (mem_of_forall₂ (mapM_eq_some hgroups)).2 group hgroup
    obtain ⟨pair, hpair, hplan⟩ := (mem_of_forall₂ (mapM_eq_some hzip)).2 q hq
    obtain ⟨hkind, hrecord⟩ := planRecord_action hplan
    exact ⟨kind, hkind, pair.2, (List.of_mem_zip hpair).2, hrecord⟩
  · right
    rw [List.reduceOption_mem_iff] at hbytes'
    obtain ⟨r, -, hplan⟩ := (mem_of_forall₂ (mapM_eq_some hbytes)).2 _ hbytes'
    have hkind : b.kind = .blobBytes := planBytes_kind hplan
    exact hkind

theorem action_record (h : planArchiveImport localeLe request = some plan)
    (hr : plan.status = .ready) {kind : ArchiveRecordKind} {a : ArchiveImportAction}
    (ha : a ∈ plan.actions) (hk : a.kind = .record kind) :
    ∃ r ∈ transformed request kind, a.record = some r := by
  rcases mem_actions h hr ha with ⟨kind', hk', r, hmem, hrecord⟩ | hk'
  · rw [hk, ActionKind.record.injEq] at hk'
    exact ⟨r, hk' ▸ hmem, hrecord⟩
  · rw [hk] at hk'
    cases hk'

/-- Every rewritten record has its action. -/
theorem exists_action (h : planArchiveImport localeLe request = some plan)
    (hr : plan.status = .ready) {kind : ArchiveRecordKind} {r : ArchiveRecord}
    (hmem : r ∈ transformed request kind) :
    ∃ a ∈ plan.actions, a.kind = .record kind ∧ a.record = some r := by
  obtain ⟨planned, bytes, hplanned, -, -, -, hactions⟩ := planArchiveImport_ready h hr
  obtain ⟨groups, hgroups, rfl⟩ := Option.map_eq_some_iff.mp hplanned
  obtain ⟨group, hgroup, hzip⟩ :=
    (mem_of_forall₂ (mapM_eq_some hgroups)).1 kind (mem_archiveRecordKinds kind)
  obtain ⟨pair, hpair, rfl⟩ := mem_zip_transformed hmem
  obtain ⟨p, hp, hplan⟩ := (mem_of_forall₂ (mapM_eq_some hzip)).1 _ hpair
  obtain ⟨hkind, hrecord⟩ := planRecord_action hplan
  have hsorted : p.1 ∈ (groups.flatten.map Prod.fst ++ bytes.reduceOption).insertionSort
      fun a b => actionLe localeLe a b = true := by
    rw [List.mem_insertionSort]
    exact List.mem_append_left _ (List.mem_map.mpr ⟨p, List.mem_flatten.mpr ⟨group, hgroup, hp⟩, rfl⟩)
  obtain ⟨index, hindex⟩ := mem_indexActions_false hsorted
  exact ⟨{ p.1 with index }, hactions ▸ hindex, hkind, hrecord⟩

/-- The records of the actions of one kind are the rewritten records of the kind. -/
theorem mem_plannedRecords (h : planArchiveImport localeLe request = some plan)
    (hr : plan.status = .ready) (kind : ArchiveRecordKind) (r : ArchiveRecord) :
    r ∈ plannedRecords plan kind ↔ r ∈ transformed request kind := by
  simp only [plannedRecords, List.mem_filterMap, Option.ite_none_right_eq_some]
  constructor
  · rintro ⟨a, ha, hk, hrecord⟩
    obtain ⟨r', hmem, hrecord'⟩ := action_record h hr ha hk
    rw [hrecord, Option.some.injEq] at hrecord'
    exact hrecord' ▸ hmem
  · exact exists_action h hr

/-- Every record with a planned action has an id, the retention policies aside. -/
theorem isString_id (h : planArchiveImport localeLe request = some plan)
    (hr : plan.status = .ready) {kind : ArchiveRecordKind} (hk : kind ≠ .retention)
    {r : ArchiveRecord} (hmem : r ∈ transformed request kind) : IsString (idOf r) := by
  obtain ⟨planned, bytes, hplanned, -⟩ := planArchiveImport_ready h hr
  obtain ⟨groups, hgroups, rfl⟩ := Option.map_eq_some_iff.mp hplanned
  obtain ⟨group, -, hzip⟩ :=
    (mem_of_forall₂ (mapM_eq_some hgroups)).1 kind (mem_archiveRecordKinds kind)
  obtain ⟨pair, hpair, rfl⟩ := mem_zip_transformed hmem
  obtain ⟨p, -, hplan⟩ := (mem_of_forall₂ (mapM_eq_some hzip)).1 _ hpair
  exact planRecord_id hplan hk

/-- The bytes of every blob have their action. -/
theorem exists_bytes_action (h : planArchiveImport localeLe request = some plan)
    (hr : plan.status = .ready) {r : ArchiveRecord} (hmem : r ∈ transformed request .blobs)
    {digest : JsString} (hd : field r (js "sha256") = .string digest) :
    ∃ a ∈ plan.actions, a.kind = .blobBytes ∧ a.sourceId = digest ∧
      a.disposition = if digest ∈ request.target.blobDigests then .alreadyPresent else .insert := by
  obtain ⟨planned, bytes, -, hbytes, -, -, hactions⟩ := planArchiveImport_ready h hr
  obtain ⟨action, haction, hplan⟩ := (mem_of_forall₂ (mapM_eq_some hbytes)).1 r hmem
  simp only [planBytes, hd] at hplan
  obtain ⟨blobId, -, rfl⟩ := Option.map_eq_some_iff.mp hplan
  rw [← List.reduceOption_mem_iff] at haction
  obtain ⟨index, hindex⟩ := mem_indexActions_false ((List.mem_insertionSort
    fun a b => actionLe localeLe a b = true).mpr
      (List.mem_append_right (planned.map Prod.fst) haction))
  exact ⟨_, hactions ▸ hindex, rfl, rfl, rfl⟩

theorem resolves_iff (h : planArchiveImport localeLe request = some plan)
    (hr : plan.status = .ready) (kind : ArchiveRecordKind) (v : JsValue) :
    Resolves plan kind v ↔ Known request kind v := by
  constructor
  · rintro ⟨r, hmem, id, hid, hv⟩
    rw [mem_plannedRecords h hr] at hmem
    exact ⟨id, mem_stringIds.mpr ⟨r, hmem, hid⟩, hv⟩
  · rintro ⟨id, hmem, hv⟩
    obtain ⟨r, hr', hid⟩ := mem_stringIds.mp hmem
    exact ⟨r, (mem_plannedRecords h hr kind r).mpr hr', id, hid, hv⟩

end Plan

/-- What `validateGraph` has checked when it reports nothing. -/
structure Checked (records : Records) : Prop where
  dataset : ∀ r ∈ records .datasets, validateDataset (fun kind => stringIds (records kind)) r = []
  resource : ∀ r ∈ records .resources, validateResource (fun kind => stringIds (records kind)) r = []
  revision : ∀ r ∈ records .revisions,
    validateRevision (fun kind => stringIds (records kind)) r = [] ∧
      validateParent (records .revisions) r = some []
  attachment : ∀ r ∈ records .revisionBlobs,
    validateAttachment (fun kind => stringIds (records kind)) r = []
  relation : ∀ r ∈ records .relations,
    validateRelation (fun kind => stringIds (records kind)) r = []
  tombstone : ∀ r ∈ records .tombstones,
    validateTombstone (fun kind => stringIds (records kind)) r = []

theorem validateRevisions_eq_nil {ids : ArchiveRecordKind → List JsString}
    {revisions rest : List ArchiveRecord} {seen : List (JsString × Numbers.JsNumber)}
    (h : validateRevisions ids revisions seen rest = some []) :
    ∀ r ∈ rest, validateRevision ids r = [] ∧ validateParent revisions r = some [] := by
  induction rest generalizing seen with
  | nil => simp
  | cons revision rest ih =>
    rw [validateRevisions] at h
    split at h
    · rename_i parent later hparent hlater
      simp only [Option.some.injEq, List.append_eq_nil_iff] at h
      obtain ⟨⟨⟨hrevision, -⟩, rfl⟩, rfl⟩ := h
      intro r hr
      rcases List.mem_cons.mp hr with rfl | hr
      · exact ⟨hrevision, hparent⟩
      · exact ih hlater r hr
    · cases h

theorem validateGraph_eq_nil {records : Records} {workspaceId : JsString}
    (h : validateGraph records workspaceId = some []) : Checked records := by
  obtain ⟨revisions, hrevisions, h⟩ := Option.map_eq_some_iff.mp h
  simp only [List.append_eq_nil_iff, List.flatMap_eq_nil_iff] at h
  obtain ⟨⟨⟨⟨⟨⟨-, hdataset⟩, hresource⟩, rfl⟩, hattachment⟩, hrelation⟩, htombstone⟩ := h
  exact ⟨hdataset, hresource, validateRevisions_eq_nil hrevisions, hattachment, hrelation,
    htombstone⟩

section Resolve

variable {localeLe : JsString → JsString → Bool} {request : ArchiveImportRequest}
  {plan : ArchiveImportPlan}

theorem known_of_requireId {kind : ArchiveRecordKind} {v : JsValue} {label : JsString}
    (h : requireId (stringIds (transformed request kind)) v label false = []) :
    Known request kind v := by
  obtain ⟨s, rfl, hs | ⟨hf, -⟩⟩ := requireId_eq_nil.mp h
  · exact ⟨s, hs, rfl⟩
  · cases hf

/-- A check of the strings only leaves the values that are not strings. -/
theorem optionally_isString_iff {kind : ArchiveRecordKind} {v : JsValue}
    (h : ∀ s, v = .string s → Known request kind v) :
    Optionally (Known request kind) v ↔ Optionally IsString v := by
  constructor
  · rintro (hn | ⟨id, -, hv⟩)
    · exact Or.inl hn
    · exact Or.inr ⟨id, hv⟩
  · rintro (hn | ⟨s, hs⟩)
    · exact Or.inl hn
    · exact Or.inr (h s hs)

theorem parent_known {r : ArchiveRecord}
    (h : validateParent (transformed request .revisions) r = some []) (s : JsString)
    (hs : field r (js "parentRevisionId") = .string s) :
    Known request .revisions (field r (js "parentRevisionId")) := by
  rw [validateParent, hs] at h
  simp only at h
  split at h
  · cases h
  · rename_i parent hfind
    have hmem : parent ∈ transformed request .revisions :=
      List.mem_reverse.mp (List.mem_of_find?_eq_some hfind)
    have hid : idOf parent = .string s := by simpa using List.find?_some hfind
    exact ⟨s, mem_stringIds.mpr ⟨parent, hmem, hid⟩, hs⟩

theorem retention_known {r : ArchiveRecord}
    (h : validateRetention (stringIds (transformed request .retention)) r = []) (s : JsString)
    (hs : field r (js "retentionPolicyId") = .string s) :
    Known request .retention (field r (js "retentionPolicyId")) := by
  rw [validateRetention, hs] at h
  simp only at h
  split at h
  · rename_i hc
    exact ⟨s, List.contains_iff_mem.mp hc, hs⟩
  · cases h

theorem prior_known {r : ArchiveRecord}
    (h : validateTombstone (fun kind => stringIds (transformed request kind)) r = []) (s : JsString)
    (hs : field r (js "priorRevisionId") = .string s) :
    Known request .revisions (field r (js "priorRevisionId")) := by
  rw [validateTombstone, List.append_eq_nil_iff, hs] at h
  rw [hs]
  exact known_of_requireId h.2

theorem end_known {kind v : JsValue} {side : JsString}
    (h : validateRelationEnd kind v (fun kind => stringIds (transformed request kind)) side = []) :
    kind = .string (js "external") ∨ ∃ recordKind, endKind kind = some recordKind ∧
      Known request recordKind v := by
  simp only [validateRelationEnd, strictEq_string] at h
  simp only [endKind, strictEq_string]
  split at h
  · rename_i h₁
    exact Or.inr ⟨_, if_pos h₁, known_of_requireId h⟩
  · rename_i h₁
    rw [if_neg h₁]
    split at h
    · rename_i h₂
      exact Or.inr ⟨_, if_pos h₂, known_of_requireId h⟩
    · rename_i h₂
      rw [if_neg h₂]
      split at h
      · rename_i h₃
        exact Or.inr ⟨_, if_pos h₃, known_of_requireId h⟩
      · split at h
        · rename_i he
          exact Or.inl (strictEq_string.mp he)
        · cases h

theorem subject_known {r : ArchiveRecord}
    (h : validateTombstone (fun kind => stringIds (transformed request kind)) r = []) :
    ∃ recordKind, tombstoneSubjectKind (field r (js "subjectKind")) = some recordKind ∧
      Known request recordKind (field r (js "subjectId")) := by
  rw [validateTombstone, List.append_eq_nil_iff] at h
  obtain ⟨h, -⟩ := h
  split at h
  · cases h
  · rename_i recordKind hk
    exact ⟨recordKind, hk, known_of_requireId h⟩

theorem current_known {r : ArchiveRecord}
    (h : validateResource (fun kind => stringIds (transformed request kind)) r = []) :
    Known request .datasets (field r (js "datasetId")) ∧
      Optionally (Known request .revisions) (field r (js "currentRevisionId")) := by
  rw [validateResource, List.append_eq_nil_iff] at h
  refine ⟨known_of_requireId h.1, ?_⟩
  have h₂ := h.2
  split at h₂
  · rename_i hn
    exact Or.inl hn
  · exact Or.inr (known_of_requireId h₂)

/-- Every planned schema package has a string id. -/
theorem schema_known (h : planArchiveImport localeLe request = some plan)
    (hr : plan.status = .ready) {v : JsValue} {label : JsString}
    (hv : requireId (stringIds (transformed request .schemaPackages)) v label true = []) :
    SchemaResolves plan v := by
  obtain ⟨s, rfl, hs | ⟨-, hnil⟩⟩ := requireId_eq_nil.mp hv
  · exact Or.inr ((resolves_iff h hr _ _).mpr ⟨s, hs, rfl⟩)
  · left
    rw [List.eq_nil_iff_forall_not_mem]
    intro r hmem
    rw [mem_plannedRecords h hr] at hmem
    obtain ⟨id, hid⟩ := isString_id h hr (by decide) hmem
    have hin := mem_stringIds.mpr ⟨r, hmem, hid⟩
    rw [hnil] at hin
    cases hin

end Resolve

section Closed

variable {localeLe : JsString → JsString → Bool} {request : ArchiveImportRequest}
  {plan : ArchiveImportPlan} (h : planArchiveImport localeLe request = some plan)
  (hr : plan.status = .ready) (hc : Checked (transformed request))

include h hr hc

omit hc in
theorem forall_planned_iff {kind : ArchiveRecordKind} {P Q : ArchiveRecord → Prop}
    (hPQ : ∀ r ∈ request.archive.verification.records kind,
      rewritten request kind r ∈ transformed request kind → (P (rewritten request kind r) ↔ Q r)) :
    (∀ r ∈ plannedRecords plan kind, P r) ↔
      ∀ r ∈ request.archive.verification.records kind, Q r := by
  simp only [mem_plannedRecords h hr]
  constructor
  · intro hP r hmem
    have hmem' := mem_transformed.mpr ⟨r, hmem, rfl⟩
    exact (hPQ r hmem hmem').mp (hP _ hmem')
  · intro hQ r hmem
    obtain ⟨r₀, hr₀, rfl⟩ := mem_transformed.mp hmem
    exact (hPQ r₀ hr₀ hmem).mpr (hQ r₀ hr₀)

theorem dataset_resolves_iff (hret : validateRetentionAssignments (transformed request) = []) :
    (∀ r ∈ plannedRecords plan .datasets, ReferencesResolve plan .datasets r) ↔
      ∀ r ∈ request.archive.verification.records .datasets,
        Optionally IsString (field r (js "retentionPolicyId")) := by
  apply forall_planned_iff h hr
  intro r hmem hmem'
  have hpolicy : field (rewritten request .datasets r) (js "retentionPolicyId") =
      mapReference (mappingsOf request .retention) (field r (js "retentionPolicyId")) :=
    dataset_fields
  have hschema := schema_known h hr (hc.dataset _ hmem')
  have hknown := retention_known (List.flatMap_eq_nil_iff.mp hret _ hmem')
  have hiff := optionally_isString_iff hknown
  simp only [ReferencesResolve, hschema, and_true, Optionally, resolves_iff h hr] at hiff ⊢
  rw [hiff, hpolicy, isNullish_mapReference, isString_mapReference]

theorem resource_resolves :
    ∀ r ∈ plannedRecords plan .resources, ReferencesResolve plan .resources r := by
  intro r hmem
  obtain ⟨hdataset, hcurrent⟩ := current_known (hc.resource r ((mem_plannedRecords h hr _ _).mp hmem))
  simpa only [ReferencesResolve, Optionally, resolves_iff h hr] using ⟨hdataset, hcurrent⟩

theorem revision_resolves_iff :
    (∀ r ∈ plannedRecords plan .revisions, ReferencesResolve plan .revisions r) ↔
      ∀ r ∈ request.archive.verification.records .revisions,
        Optionally IsString (field r (js "parentRevisionId")) ∧
        Optionally (Names request .revisions) (field r (js "restoredFromRevisionId")) ∧
        ∀ items, field r (js "mergeParentRevisionIds") = .array items →
          ∀ v ∈ items, Names request .revisions v := by
  apply forall_planned_iff h hr
  intro r hmem hmem'
  obtain ⟨hrevision, hparent⟩ := hc.revision _ hmem'
  rw [validateRevision, List.append_eq_nil_iff, List.append_eq_nil_iff] at hrevision
  obtain ⟨⟨hresource, hdataset⟩, hschema⟩ := hrevision
  have hparentId : field (rewritten request .revisions r) (js "parentRevisionId") =
      mapReference (mappingsOf request .revisions) (field r (js "parentRevisionId")) :=
    revision_fields.1
  have hrestored : field (rewritten request .revisions r) (js "restoredFromRevisionId") =
      mapReference (mappingsOf request .revisions) (field r (js "restoredFromRevisionId")) :=
    revision_fields.2.1
  have hmerged : field (rewritten request .revisions r) (js "mergeParentRevisionIds") =
      match field r (js "mergeParentRevisionIds") with
      | .array items => .array (items.map (mapReference (mappingsOf request .revisions)))
      | v => v := revision_fields.2.2
  have hparents : (∀ items, field (rewritten request .revisions r) (js "mergeParentRevisionIds") =
        .array items → ∀ v ∈ items, Known request .revisions v) ↔
      ∀ items, field r (js "mergeParentRevisionIds") = .array items →
        ∀ v ∈ items, Names request .revisions v := by
    rw [hmerged]
    cases field r (js "mergeParentRevisionIds") with
    | array items => simp [known_mapReference_iff request .revisions (by decide)]
    | _ => simp
  have hp := optionally_isString_iff (parent_known hparent)
  have hs := optionally_known_iff request .revisions (by decide)
    (field r (js "restoredFromRevisionId"))
  simp only [ReferencesResolve, Optionally, resolves_iff h hr, known_of_requireId hresource,
    known_of_requireId hdataset, schema_known h hr hschema, true_and, hparents] at hp hs ⊢
  rw [hp, hparentId, isNullish_mapReference, isString_mapReference, hrestored, hs]

theorem attachment_resolves :
    ∀ r ∈ plannedRecords plan .revisionBlobs, ReferencesResolve plan .revisionBlobs r := by
  intro r hmem
  have hcheck := hc.attachment r ((mem_plannedRecords h hr _ _).mp hmem)
  rw [validateAttachment, List.append_eq_nil_iff] at hcheck
  simpa only [ReferencesResolve, resolves_iff h hr] using
    ⟨known_of_requireId hcheck.1, known_of_requireId hcheck.2⟩

theorem relation_resolves_iff :
    (∀ r ∈ plannedRecords plan .relations, ReferencesResolve plan .relations r) ↔
      ∀ r ∈ request.archive.verification.records .relations,
        Names request .datasets (field r (js "datasetId")) := by
  apply forall_planned_iff h hr
  intro r hmem hmem'
  have hcheck := hc.relation _ hmem'
  rw [validateRelation, List.append_eq_nil_iff] at hcheck
  have hdataset : field (rewritten request .relations r) (js "datasetId") =
      mapReference (mappingsOf request .datasets) (field r (js "datasetId")) := relation_datasetId
  have hnames := known_mapReference_iff request .datasets (by decide)
    (field r (js "datasetId"))
  simp only [ReferencesResolve, EndResolves, resolves_iff h hr, end_known hcheck.1,
    end_known hcheck.2, and_true, hdataset, hnames]

theorem tombstone_resolves_iff :
    (∀ r ∈ plannedRecords plan .tombstones, ReferencesResolve plan .tombstones r) ↔
      ∀ r ∈ request.archive.verification.records .tombstones,
        Names request .datasets (field r (js "datasetId")) ∧
        Optionally IsString (field r (js "priorRevisionId")) := by
  apply forall_planned_iff h hr
  intro r hmem hmem'
  have hcheck := hc.tombstone _ hmem'
  have hdataset : field (rewritten request .tombstones r) (js "datasetId") =
      mapReference (mappingsOf request .datasets) (field r (js "datasetId")) := tombstone_fields.1
  have hprior : field (rewritten request .tombstones r) (js "priorRevisionId") =
      mapReference (mappingsOf request .revisions) (field r (js "priorRevisionId")) :=
    tombstone_fields.2
  have hnames := known_mapReference_iff request .datasets (by decide)
    (field r (js "datasetId"))
  have hp := optionally_isString_iff (prior_known hcheck)
  simp only [ReferencesResolve, SubjectResolves, Optionally, resolves_iff h hr,
    subject_known hcheck, true_and, hdataset, hnames] at hp ⊢
  rw [hp, hprior, isNullish_mapReference, isString_mapReference]

end Closed

/-- A ready plan is closed under references exactly when the references that are
rewritten without a check name records of the archive. -/
theorem ready_plan_closed_iff (localeLe : JsString → JsString → Bool)
    (request : ArchiveImportRequest) (plan : ArchiveImportPlan)
    (h : planArchiveImport localeLe request = some plan) (hr : plan.status = .ready) :
    ClosedUnderReferences plan ↔ UncheckedResolve request := by
  obtain ⟨-, -, -, -, hgraph, hret, -⟩ := planArchiveImport_ready h hr
  have hc := validateGraph_eq_nil hgraph
  have hdataset := dataset_resolves_iff h hr hc hret
  have hrevision := revision_resolves_iff h hr hc
  have hrelation := relation_resolves_iff h hr hc
  have htombstone := tombstone_resolves_iff h hr hc
  constructor
  · intro hclosed
    have hrev := hrevision.mp (hclosed .revisions)
    have htomb := htombstone.mp (hclosed .tombstones)
    exact
      { restored := fun r hmem => (hrev r hmem).2.1
        merged := fun r hmem => (hrev r hmem).2.2
        relation := hrelation.mp (hclosed .relations)
        tombstone := fun r hmem => (htomb r hmem).1
        parent := fun r hmem => (hrev r hmem).1
        prior := fun r hmem => (htomb r hmem).2
        retention := hdataset.mp (hclosed .datasets) }
  · intro hu kind
    cases kind with
    | datasets => exact hdataset.mpr hu.retention
    | resources => exact resource_resolves h hr hc
    | revisions =>
      exact hrevision.mpr fun r hmem => ⟨hu.parent r hmem, hu.restored r hmem, hu.merged r hmem⟩
    | revisionBlobs => exact attachment_resolves h hr hc
    | relations => exact hrelation.mpr hu.relation
    | tombstones => exact htombstone.mpr fun r hmem => ⟨hu.tombstone r hmem, hu.prior r hmem⟩
    | _ => exact fun _ _ => trivial

/-- A workspace with one resource at its first revision, which says what it was
restored from. -/
def sampleRecords (restoredFrom : JsValue) : Records
  | .workspaces => [[(js "id", .string (js "w"))]]
  | .datasets =>
    [[(js "id", .string (js "d")), (js "workspaceId", .string (js "w")),
      (js "schemaPackageId", .string (js "s")), (js "retentionPolicyId", .null)]]
  | .resources =>
    [[(js "id", .string (js "r")), (js "workspaceId", .string (js "w")),
      (js "datasetId", .string (js "d")), (js "currentRevisionId", .string (js "v"))]]
  | .revisions =>
    [[(js "id", .string (js "v")), (js "workspaceId", .string (js "w")),
      (js "datasetId", .string (js "d")), (js "resourceId", .string (js "r")),
      (js "schemaPackageId", .string (js "s")), (js "revisionNumber", numberOf 1),
      (js "parentRevisionId", .null), (js "restoredFromRevisionId", restoredFrom),
      (js "mergeParentRevisionIds", .array [])]]
  | _ => []

def sampleManifest : TrustArchiveManifest where
  formatVersion := .v02
  exportId := js "e"
  workspaceId := js "w"
  datasetIds := [js "d"]
  createdAt := js "2026-01-01T00:00:00.000Z"
  createdBy := js "u"
  sourceVersion := js "0.3"
  signatureProfile := .unsigned
  auditLineage := ⟨js "w", 0, .null, .null⟩
  recordCounts := fun kind => (sampleRecords .null kind).length
  blobCount := 0
  totalBlobBytes := 0

/-- The archive of these records, imported into an empty target under its own ids. -/
def sampleRequest (restoredFrom : JsValue) : ArchiveImportRequest where
  archive := ⟨EntryMap.empty, sampleManifest, ⟨true, sampleRecords restoredFrom⟩⟩
  mode := .preserveIds
  conflictMode := .rejectOnError
  target := ⟨none, fun _ => none, []⟩

theorem sample_uncheckedResolve : UncheckedResolve (sampleRequest .null) where
  restored := by
    intro r hr
    rw [List.mem_singleton.mp hr]
    exact Or.inl (by decide)
  merged := by
    intro r hr items hi
    rw [List.mem_singleton.mp hr, show field _ (js "mergeParentRevisionIds") = .array [] from rfl,
      JsValue.array.injEq] at hi
    simp [← hi]
  relation := by simp [sampleRequest, sampleRecords]
  tombstone := by simp [sampleRequest, sampleRecords]
  parent := by
    intro r hr
    rw [List.mem_singleton.mp hr]
    exact Or.inl (by decide)
  prior := by simp [sampleRequest, sampleRecords]
  retention := by
    intro r hr
    rw [List.mem_singleton.mp hr]
    exact Or.inl (by decide)

theorem ready_plan_closed_sample : ∃ plan,
    planArchiveImport unitsLe (sampleRequest .null) = some plan ∧ plan.status = .ready ∧
      ClosedUnderReferences plan := by
  have hplan : (planArchiveImport unitsLe (sampleRequest .null)).map (·.status) = some .ready := by
    decide +kernel
  obtain ⟨plan, h, hr⟩ := Option.map_eq_some_iff.mp hplan
  exact ⟨plan, h, hr, (ready_plan_closed_iff unitsLe _ plan h hr).mpr sample_uncheckedResolve⟩

/-- The revision says it was restored from one that is not in the archive, and the
plan is ready all the same. -/
theorem dangling_restoredFrom_ready : ∃ plan,
    (sampleRequest (.string (js "gone"))).archive.verification.valid = true ∧
    planArchiveImport unitsLe (sampleRequest (.string (js "gone"))) = some plan ∧
      plan.status = .ready ∧ ¬ ClosedUnderReferences plan := by
  have hplan : (planArchiveImport unitsLe (sampleRequest (.string (js "gone")))).map (·.status) =
      some .ready := by decide +kernel
  obtain ⟨plan, h, hr⟩ := Option.map_eq_some_iff.mp hplan
  refine ⟨plan, rfl, h, hr, ?_⟩
  intro hclosed
  obtain ⟨-, -, -, -, hgraph, -, -⟩ := planArchiveImport_ready h hr
  have hrev := (revision_resolves_iff h hr (validateGraph_eq_nil hgraph)).mp (hclosed .revisions)
  obtain ⟨-, hn | ⟨id, hid, he⟩, -⟩ := hrev _ List.mem_cons_self
  · revert hn
    decide
  · have hv : id = js "v" := List.mem_singleton.mp hid
    rw [hv] at he
    rcases he with he | he
    · have hne : js "gone" ≠ js "v" := by decide
      exact hne (JsValue.string.inj he)
    · have hne : js "gone" ≠ entityId (js "w") (js "w") .revisions (js "v") := by decide
      exact hne (JsValue.string.inj he)

end TrustCore.ImportReferences
