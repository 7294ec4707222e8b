import TrustCore.ArchiveRoundTrip
import TrustCore.EntityIds
import TrustCore.ImportActions

/-!
# The id mapping of a mapped workspace

The records planned for another workspace are the image of the archive under one
mapping of ids: ids and references go through the mapping, the workspace is
exchanged, and every other field stays.
-/

namespace TrustCore.ImportMapping

open TrustCore.Utf TrustCore.Json TrustCore.Dynamic TrustCore.ArchiveFormat TrustCore.ImportPlan
open TrustCore.ImportReferences TrustCore.ImportActions TrustCore.EntityIds TrustCore.ArchiveVerify

/-- The archive is what the verifier reported of its entries, without an issue. -/
def Verified (archive : ParsedTrustArchive) : Prop :=
  ∃ limits report manifest,
    (verifyArchiveEntries archive.entries limits = some report ∨
      ∃ verifier, verifyArchiveEntriesWithSignatures archive.entries verifier limits = some report) ∧
    report.valid = true ∧ archive.verification.valid = true ∧ report.manifest = some manifest ∧
    property manifest (js "workspaceId") = some (.string archive.manifest.workspaceId) ∧
    ∀ kind, report.records kind = (archive.verification.records kind).map .object

/-- The mapping: the records of the scoped kinds get ids of the target workspace. -/
def idMapping (request : ArchiveImportRequest) (kind : ArchiveRecordKind) (id : JsString) : JsString :=
  if kind = .workspaces then
    if id = request.archive.manifest.workspaceId then mappedWorkspaceId request else id
  else if kind ∈ scopedKinds then mappedEntityId (mappedWorkspaceId request) kind id
  else id

/-- The kind of record a reference names: a fixed one, or one that another field says. -/
inductive ReferenceTable where
  | always (kind : ArchiveRecordKind)
  | named (kindKey : JsString)
  deriving DecidableEq

/-- What the kind of a subject or of an end of a relation stands for. -/
def endKinds : List (JsString × ArchiveRecordKind) :=
  [(js "resource", .resources), (js "revision", .revisions), (js "blob", .blobs),
    (js "relation", .relations), (js "dataset", .datasets)]

def ReferenceTable.kind (r : ArchiveRecord) : ReferenceTable → Option ArchiveRecordKind
  | .always kind => some kind
  | .named kindKey => (asString (field r kindKey)).bind fun name => endKinds.lookup name

def referenceFields : ArchiveRecordKind → List (JsString × ReferenceTable)
  | .datasets => [(js "retentionPolicyId", .always .retention)]
  | .resources =>
    [(js "datasetId", .always .datasets), (js "currentRevisionId", .always .revisions)]
  | .revisions =>
    [(js "datasetId", .always .datasets), (js "resourceId", .always .resources),
      (js "parentRevisionId", .always .revisions),
      (js "restoredFromRevisionId", .always .revisions)]
  | .revisionBlobs => [(js "revisionId", .always .revisions), (js "blobObjectId", .always .blobs)]
  | .relations =>
    [(js "datasetId", .always .datasets), (js "sourceId", .named (js "sourceKind")),
      (js "targetId", .named (js "targetKind"))]
  | .tombstones =>
    [(js "datasetId", .always .datasets), (js "subjectId", .named (js "subjectKind")),
      (js "priorRevisionId", .always .revisions)]
  | _ => []

/-- The image of a value that names a record with one of the ids. -/
def imageValue (m : JsString → JsString) (ids : List JsString) : JsValue → JsValue
  | .string s => .string (if s ∈ ids then m s else s)
  | v => v

/-- The image of a reference to records of a kind. -/
def imageReference (request : ArchiveImportRequest) (kind : ArchiveRecordKind) (v : JsValue) :
    JsValue :=
  imageValue (idMapping request kind) (stringIds (request.archive.verification.records kind)) v

/-- The record is the image of the other under the mapping. -/
structure ImageOf (request : ArchiveImportRequest) (kind : ArchiveRecordKind)
    (r r' : ArchiveRecord) : Prop where
  id : ∀ id, field r (js "id") = .string id →
    field r' (js "id") = .string (idMapping request kind id)
  withoutId : (∀ id, field r (js "id") ≠ .string id) → field r' (js "id") = field r (js "id")
  reference : ∀ key table, (key, table) ∈ referenceFields kind → ∀ named, table.kind r = some named →
    field r' key = imageReference request named (field r key)
  unnamed : ∀ key table, (key, table) ∈ referenceFields kind → table.kind r = none →
    field r' key = field r key
  merge : kind = .revisions → ∀ items, field r (js "mergeParentRevisionIds") = .array items →
    field r' (js "mergeParentRevisionIds") = .array (items.map (imageReference request .revisions))
  noMerge : kind = .revisions → (∀ items, field r (js "mergeParentRevisionIds") ≠ .array items) →
    field r' (js "mergeParentRevisionIds") = field r (js "mergeParentRevisionIds")
  workspace : kind ≠ .auditEvents → (r.lookup (js "workspaceId")).isSome →
    field r' (js "workspaceId") = .string (mappedWorkspaceId request)
  noWorkspace : kind = .auditEvents ∨ r.lookup (js "workspaceId") = none →
    field r' (js "workspaceId") = field r (js "workspaceId")
  other : ∀ key, key ≠ js "id" → key ≠ js "workspaceId" →
    key ∉ (referenceFields kind).map Prod.fst →
    (kind = .revisions → key ≠ js "mergeParentRevisionIds") → field r' key = field r key
  schema : kind = .schemaPackages → ∀ key, key ≠ js "workspaceId" → field r' key = field r key
  event : kind = .auditEvents → ∀ key, field r' key = field r key

section Planned

variable {localeLe : JsString → JsString → Bool} {request : ArchiveImportRequest}
  {plan : ArchiveImportPlan}

theorem filterMap_indexActions {β : Type} {f : ArchiveImportAction → Option β}
    (hf : ∀ a index disposition, f { a with index, disposition } = f a) (blocked : Bool)
    (actions : List ArchiveImportAction) :
    (indexActions blocked actions).filterMap f = actions.filterMap f := by
  have hfilter : ∀ l : List ArchiveImportAction, l.filterMap f = (l.map f).filterMap id := by
    intro l
    rw [List.filterMap_map]
    rfl
  rw [hfilter, hfilter, map_indexActions hf]

theorem filterMap_planned {β : Type} {kind kind' : ArchiveRecordKind}
    {f : ArchiveImportAction → Option β} {g : ArchiveRecord × ArchiveRecord → β}
    (hf : ∀ kind' pair p, planRecord request kind' pair = some p →
      f p.1 = if kind' = kind then some (g pair) else none)
    {pairs : List (ArchiveRecord × ArchiveRecord)}
    {planned : List (ArchiveImportAction × List ArchiveIssue)}
    (h : List.Forall₂ (fun pair p => planRecord request kind' pair = some p) pairs planned) :
    (planned.map Prod.fst).filterMap f = if kind' = kind then pairs.map g else [] := by
  induction h with
  | nil => simp
  | @cons pair p pairs planned hp _ ih =>
    have hvalue := hf kind' pair p hp
    by_cases hkind : kind' = kind
    · rw [if_pos hkind] at hvalue ih ⊢
      rw [List.map_cons, List.filterMap_cons_some hvalue, ih, List.map_cons]
    · rw [if_neg hkind] at hvalue ih ⊢
      rw [List.map_cons, List.filterMap_cons_none hvalue, ih]

theorem filterMap_groups {β : Type} {kind : ArchiveRecordKind} {kinds : List ArchiveRecordKind}
    {f : ArchiveImportAction → Option β} {g : ArchiveRecord × ArchiveRecord → β}
    (hf : ∀ kind' pair p, planRecord request kind' pair = some p →
      f p.1 = if kind' = kind then some (g pair) else none)
    {groups : List (List (ArchiveImportAction × List ArchiveIssue))}
    (h : List.Forall₂ (fun kind group =>
      ((request.archive.verification.records kind).zip (transformed request kind)).mapM
        (planRecord request kind) = some group) kinds groups) :
    (groups.flatten.map Prod.fst).filterMap f = kinds.flatMap fun kind' => if kind' = kind then
      ((request.archive.verification.records kind').zip (transformed request kind')).map g
        else [] := by
  induction h with
  | nil => rfl
  | @cons kind' group _ _ hgroup _ ih =>
    rw [List.flatten_cons, List.map_append, List.filterMap_append, ih, List.flatMap_cons,
      filterMap_planned hf (mapM_eq_some hgroup)]

/-- What is told from the actions of one kind, of any plan, is told from the records of the kind. -/
theorem filterMap_actions_perm {β : Type} {kind : ArchiveRecordKind}
    {f : ArchiveImportAction → Option β} {g : ArchiveRecord × ArchiveRecord → β}
    (h : planArchiveImport localeLe request = some plan)
    (hf : ∀ kind' pair p, planRecord request kind' pair = some p →
      f p.1 = if kind' = kind then some (g pair) else none)
    (hbytes : ∀ a, a.kind = .blobBytes → f a = none)
    (hindex : ∀ a index disposition, f { a with index, disposition } = f a) :
    (plan.actions.filterMap f).Perm
      (((request.archive.verification.records kind).zip (transformed request kind)).map g) := by
  rw [planArchiveImport] at h
  obtain ⟨graphIssues, -, h⟩ := Option.bind_eq_some_iff.mp h
  obtain ⟨planned, hplanned, h⟩ := Option.bind_eq_some_iff.mp h
  obtain ⟨bytes, hblobs, h⟩ := Option.bind_eq_some_iff.mp h
  obtain ⟨planId, -, h⟩ := Option.bind_eq_some_iff.mp h
  cases h
  obtain ⟨groups, hgroups, rfl⟩ := Option.map_eq_some_iff.mp hplanned
  have hnone : bytes.reduceOption.filterMap f = [] := by
    rw [List.filterMap_eq_nil_iff]
    intro a ha
    rw [List.reduceOption_mem_iff] at ha
    obtain ⟨r, -, hplan⟩ := (mem_of_forall₂ (mapM_eq_some hblobs)).2 _ ha
    exact hbytes a (planBytes_kind hplan)
  have hrecords := filterMap_groups hf (mapM_eq_some hgroups)
  have hone : ∀ rows : ArchiveRecordKind → List β, (archiveRecordKinds.flatMap fun kind' =>
      if kind' = kind then rows kind' else []) = rows kind := by
    intro rows
    cases kind <;> simp [archiveRecordKinds]
  rw [filterMap_indexActions hindex]
  refine ((List.perm_insertionSort _ _).filterMap _).trans ?_
  rw [List.filterMap_append, hnone, List.append_nil, hrecords, hone]

/-- The record of an action of the kind. -/
def recordOf (kind : ArchiveRecordKind) (a : ArchiveImportAction) : Option ArchiveRecord :=
  if a.kind = .record kind then a.record else none

/-- The planned records of a kind, of any plan, are the rewritten records of the kind. -/
theorem plannedRecords_perm (h : planArchiveImport localeLe request = some plan)
    (kind : ArchiveRecordKind) :
    (plannedRecords plan kind).Perm (transformed request kind) := by
  have hsnd : ((request.archive.verification.records kind).zip
      (transformed request kind)).map Prod.snd = transformed request kind := by
    rw [zip_transformed, List.map_map]
    rfl
  rw [← hsnd, plannedRecords]
  change (plan.actions.filterMap (recordOf kind)).Perm _
  apply filterMap_actions_perm h
  · intro kind' pair p hp
    have hplans := planRecord_plans hp
    simp only [recordOf, hplans.kind, ActionKind.record.injEq, hplans.record]
  · intro a ha
    simp [recordOf, ha]
  · exact fun _ _ _ => rfl

end Planned

section Images

variable {request : ArchiveImportRequest} {kind : ArchiveRecordKind} {r : ArchiveRecord}

theorem idMapping_scoped (hk : kind ∈ scopedKinds) (id : JsString) :
    idMapping request kind id = mappedEntityId (mappedWorkspaceId request) kind id := by
  have hw : kind ≠ .workspaces := by
    rintro rfl
    revert hk
    decide
  rw [idMapping, if_neg hw, if_pos hk]

/-- A reference to a scoped kind goes through the mapping. -/
theorem imported_eq_imageReference
    (hne : request.archive.manifest.workspaceId ≠ mappedWorkspaceId request)
    (hk : kind ∈ scopedKinds) (v : JsValue) :
    imported request kind v = imageReference request kind v := by
  cases v with
  | string s =>
    rw [imported, mapReference, imageReference, imageValue]
    by_cases hs : s ∈ stringIds (request.archive.verification.records kind)
    · rw [mapping_of_mem hk hs, Option.getD_some, if_pos hs, entityId, if_neg hne,
        idMapping_scoped hk]
    · rw [mapping_of_not_mem hk hs, Option.getD_none, if_neg hs]
  | undefined => rfl
  | null => rfl
  | bool b => rfl
  | number n => rfl
  | array items => rfl
  | object members => rfl

theorem relationRecordKind_eq (v : JsValue) :
    relationRecordKind v = (asString v).bind fun name => endKinds.lookup name := by
  cases v with
  | string s =>
    have hlookup : ∀ (name : JsString) (named : ArchiveRecordKind) rest,
        List.lookup s ((name, named) :: rest) =
          if strictEq (.string s) (.string name) then some named else List.lookup s rest := by
      intro name named rest
      rw [List.lookup_cons, strictEq]
      cases s == name <;> rfl
    rw [asString, Option.bind_some, endKinds, hlookup, hlookup, hlookup, hlookup, hlookup,
      relationRecordKind, List.lookup_nil]
  | undefined => rfl
  | null => rfl
  | bool b => rfl
  | number n => rfl
  | array items => rfl
  | object members => rfl

theorem endKinds_scoped {name : JsString} {named : ArchiveRecordKind}
    (h : endKinds.lookup name = some named) : named ∈ scopedKinds := by
  have hmem := mem_of_lookup h
  have hall : ∀ p ∈ endKinds, p.2 ∈ scopedKinds := by decide
  exact hall _ hmem

/-- The field of a rewritten record that a reference table lists. -/
theorem field_mapRecord_reference {s t key : JsString} {m : Mappings} {table : ReferenceTable}
    (h : (key, table) ∈ referenceFields kind) :
    field (mapRecord kind r s t m) key =
      match table.kind r with
      | some named => mapReference (m named) (field r key)
      | none => field r key := by
  have hend : ∀ kindKey v, mapRelationReference m (field r kindKey) v =
      match ReferenceTable.kind r (.named kindKey) with
      | some named => mapReference (m named) v
      | none => v := by
    intro kindKey v
    rw [mapRelationReference, relationRecordKind_eq]
    rfl
  cases kind with
  | workspaces | schemaPackages | auditEvents | retention | blobs => cases h
  | datasets =>
    cases List.mem_singleton.mp h
    exact dataset_fields
  | resources =>
    rcases List.mem_pair.mp h with h | h <;> cases h <;>
      simp (disch := decide) only [mapRecord, field_mapField_self, field_mapField_ne,
        field_mapWorkspaceId_ne, ReferenceTable.kind]
  | revisions =>
    simp only [referenceFields, List.mem_cons, List.not_mem_nil, or_false] at h
    rcases h with h | h | h | h <;> cases h <;>
      simp (disch := decide) only [mapRecord, field_mapField_self, field_mapField_ne,
        field_mapMergeParents_ne, field_mapWorkspaceId_ne, ReferenceTable.kind]
  | revisionBlobs =>
    rcases List.mem_pair.mp h with h | h <;> cases h <;>
      simp (disch := decide) only [mapRecord, field_mapField_self, field_mapField_ne,
        field_mapWorkspaceId_ne, ReferenceTable.kind]
  | relations =>
    simp only [referenceFields, List.mem_cons, List.not_mem_nil, or_false] at h
    rcases h with h | h | h <;> cases h <;>
      simp (disch := decide) only [mapRecord, field_mapField_self, field_mapField_ne,
        field_mapEnd_self, field_mapEnd_ne, field_mapWorkspaceId_ne, hend]
    rfl
  | tombstones =>
    simp only [referenceFields, List.mem_cons, List.not_mem_nil, or_false] at h
    rcases h with h | h | h <;> cases h <;>
      simp (disch := decide) only [mapRecord, field_mapField_self, field_mapField_ne,
        field_mapEnd_self, field_mapEnd_ne, field_mapWorkspaceId_ne, hend]
    · rfl
    · rfl

theorem table_scoped {key : JsString} {table : ReferenceTable} {named : ArchiveRecordKind}
    (h : (key, table) ∈ referenceFields kind) (hn : table.kind r = some named) :
    named ∈ scopedKinds := by
  cases table with
  | always fixed =>
    have hall : ∀ kind ∈ archiveRecordKinds, ∀ p ∈ referenceFields kind,
        ∀ fixed ∈ archiveRecordKinds, p.2 = .always fixed → fixed ∈ scopedKinds := by decide
    have hfixed := hall kind (mem_archiveRecordKinds kind) _ h fixed (mem_archiveRecordKinds fixed) rfl
    rwa [Option.some.inj hn] at hfixed
  | named kindKey =>
    obtain ⟨name, -, hlookup⟩ := Option.bind_eq_some_iff.mp hn
    exact endKinds_scoped hlookup

theorem field_workspaceId {s t : JsString} {m : Mappings} :
    field (mapRecord kind r s t m) (js "workspaceId") =
      field (mapWorkspaceId kind s t r) (js "workspaceId") := by
  cases kind <;>
    simp (disch := decide) only [mapRecord, field_mapField_ne, field_mapEnd_ne,
      field_mapMergeParents_ne]

/-- The fields outside the mapping. -/
theorem mappedKeys_eq {key : JsString} (hid : key ≠ js "id") (hworkspace : key ≠ js "workspaceId")
    (hreference : key ∉ (referenceFields kind).map Prod.fst)
    (hmerge : kind = .revisions → key ≠ js "mergeParentRevisionIds") : key ∉ mappedKeys kind := by
  cases kind <;>
    simp_all [mappedKeys, referenceFields]

theorem imported_id (hne : request.archive.manifest.workspaceId ≠ mappedWorkspaceId request)
    {id : JsString} (hr : r ∈ request.archive.verification.records kind)
    (hid : field r (js "id") = .string id) :
    imported request kind (.string id) = .string (idMapping request kind id) := by
  by_cases hk : kind ∈ scopedKinds
  · rw [imported_eq_imageReference hne hk, imageReference, imageValue,
      if_pos (mem_stringIds.mpr ⟨r, hr, hid⟩)]
  · rw [imported, mapReference, idMapping, mappingsOf, buildIdMappings]
    by_cases hw : kind = .workspaces
    · rw [if_pos hw, if_pos hw]
      split <;> rfl
    · rw [if_neg hw, if_neg hw, if_neg hk, if_neg fun hc => hk hc.1, Option.getD_none]

/-- Schema packages and audit events keep their ids. -/
theorem imported_unscoped (hw : kind ≠ .workspaces) (hk : kind ∉ scopedKinds) (v : JsValue) :
    imported request kind v = v := by
  cases v with
  | string s =>
    rw [imported, mapReference, mappingsOf, buildIdMappings, if_neg hw, if_neg fun hc => hk hc.1,
      Option.getD_none]
  | undefined => rfl
  | null => rfl
  | bool b => rfl
  | number n => rfl
  | array items => rfl
  | object members => rfl

theorem field_rewritten_workspaceId (hk : kind ≠ .auditEvents)
    (hsome : (r.lookup (js "workspaceId")).isSome)
    (hscope : ∀ v, r.lookup (js "workspaceId") = some v →
      v = .string request.archive.manifest.workspaceId) :
    field (rewritten request kind r) (js "workspaceId") = .string (mappedWorkspaceId request) := by
  obtain ⟨v, hv⟩ := Option.isSome_iff_exists.mp hsome
  have hfield : field r (js "workspaceId") = .string request.archive.manifest.workspaceId := by
    rw [field, hv, Option.getD_some, hscope v hv]
  have hequal : strictEq (field r (js "workspaceId"))
      (.string request.archive.manifest.workspaceId) = true := by
    rw [hfield, strictEq, BEq.rfl]
  rw [rewritten, field_workspaceId, mapWorkspaceId, if_pos ⟨hk, hequal⟩, field_setMember_self]

theorem field_rewritten_noWorkspaceId
    (h : kind = .auditEvents ∨ r.lookup (js "workspaceId") = none) :
    field (rewritten request kind r) (js "workspaceId") = field r (js "workspaceId") := by
  rw [rewritten, field_workspaceId, mapWorkspaceId, if_neg]
  rintro ⟨hk, hequal⟩
  rcases h with h | h
  · exact hk h
  · rw [field, h] at hequal
    cases hequal

theorem field_rewritten_merge
    (hne : request.archive.manifest.workspaceId ≠ mappedWorkspaceId request) {items : List JsValue}
    (hitems : field r (js "mergeParentRevisionIds") = .array items) :
    field (rewritten request .revisions r) (js "mergeParentRevisionIds") =
      .array (items.map (imageReference request .revisions)) := by
  have hmap : items.map (imported request .revisions) =
      items.map (imageReference request .revisions) :=
    List.map_congr_left fun v _ =>
      @imported_eq_imageReference request .revisions hne (by decide) v
  rw [rewritten, revision_fields.2.2, hitems]
  exact congrArg JsValue.array hmap

/-- A rewritten record is the image of the record of the archive. -/
theorem imageOf_rewritten (hne : request.archive.manifest.workspaceId ≠ mappedWorkspaceId request)
    (hr : r ∈ request.archive.verification.records kind)
    (hscope : ∀ v, r.lookup (js "workspaceId") = some v →
      v = .string request.archive.manifest.workspaceId) :
    ImageOf request kind r (rewritten request kind r) := by
  have hidOf : field (rewritten request kind r) (js "id") =
      imported request kind (field r (js "id")) := idOf_mapRecord kind
  have hreference : ∀ key table, (key, table) ∈ referenceFields kind →
      field (rewritten request kind r) key =
        match table.kind r with
        | some named => imported request named (field r key)
        | none => field r key := fun key table h => field_mapRecord_reference h
  have hother : ∀ key, key ∉ mappedKeys kind →
      field (rewritten request kind r) key = field r key := fun key h =>
    field_mapRecord_of_not_mem kind h
  constructor
  case id =>
    intro id hid
    rw [hidOf, hid, imported_id hne hr hid]
  case withoutId =>
    intro hnone
    rw [hidOf]
    cases hv : field r (js "id") with
    | string id => exact absurd hv (hnone id)
    | undefined => rfl
    | null => rfl
    | bool b => rfl
    | number n => rfl
    | array items => rfl
    | object members => rfl
  case reference =>
    intro key table h named hnamed
    rw [hreference key table h, hnamed]
    exact imported_eq_imageReference hne (table_scoped h hnamed) _
  case unnamed =>
    intro key table h hnone
    rw [hreference key table h, hnone]
  case merge =>
    rintro rfl items hitems
    exact field_rewritten_merge hne hitems
  case noMerge =>
    rintro rfl hnone
    rw [rewritten, revision_fields.2.2]
    split
    · rename_i items hitems
      exact absurd hitems (hnone items)
    · rfl
  case workspace => exact fun hk hsome => field_rewritten_workspaceId hk hsome hscope
  case noWorkspace => exact field_rewritten_noWorkspaceId
  case other =>
    intro key hid hworkspace href hmerge
    exact hother key (mappedKeys_eq hid hworkspace href hmerge)
  case schema =>
    rintro rfl key hworkspace
    by_cases hid : key = js "id"
    · rw [hid, hidOf, imported_unscoped (by decide) (by decide)]
    · exact hother key (mappedKeys_eq hid hworkspace (by simp [referenceFields]) (by simp))
  case event =>
    rintro rfl key
    by_cases hid : key = js "id"
    · rw [hid, hidOf, imported_unscoped (by decide) (by decide)]
    · by_cases hworkspace : key = js "workspaceId"
      · rw [hworkspace]
        exact field_rewritten_noWorkspaceId (Or.inl rfl)
      · exact hother key (mappedKeys_eq hid hworkspace (by simp [referenceFields]) (by simp))

end Images

section Scope

variable {archive : ParsedTrustArchive}

/-- What a report without issues says of the records. -/
theorem validateRecords_of_issues {entries : EntryMap} {limits : ArchiveVerificationLimits}
    {defer : Bool} {report : VerificationReport}
    (h : verifyArchiveEntriesBase entries limits defer = some report) (hi : report.issues = []) :
    validateRecords report.manifest report.records = some [] := by
  rw [verifyArchiveEntriesBase] at h
  obtain ⟨read, -, h⟩ := Option.bind_eq_some_iff.mp h
  obtain ⟨checked, hchecked, h⟩ := Option.bind_eq_some_iff.mp h
  obtain ⟨blobs, -, h⟩ := Option.bind_eq_some_iff.mp h
  cases h
  simp only [List.append_eq_nil_iff] at hi
  obtain ⟨⟨-, rfl⟩, -⟩ := hi
  exact hchecked

theorem validateRecords_of_verified {entries : EntryMap} {limits : ArchiveVerificationLimits}
    {report : VerificationReport}
    (h : verifyArchiveEntries entries limits = some report ∨
      ∃ verifier, verifyArchiveEntriesWithSignatures entries verifier limits = some report)
    (hv : report.valid = true) : validateRecords report.manifest report.records = some [] := by
  rcases h with h | ⟨verifier, h⟩
  · exact validateRecords_of_issues h (issues_of_valid h hv)
  · rw [verifyArchiveEntriesWithSignatures] at h
    obtain ⟨base, hbase, h⟩ := Option.bind_eq_some_iff.mp h
    cases h
    have hnil := List.isEmpty_iff.mp hv
    rw [List.append_eq_nil_iff] at hnil
    have hchecked := validateRecords_of_issues hbase hnil.1
    exact hchecked

/-- A record that passes the check has the workspace of the manifest, or none. -/
theorem scope_of_validateScope {workspaceId : JsValue} {kind : ArchiveRecordKind}
    {r : ArchiveRecord} (h : validateScope workspaceId kind (.object r) = some []) {v : JsValue}
    (hv : r.lookup (js "workspaceId") = some v) : v = workspaceId := by
  simp only [validateScope, hasProperty, property, field, hv, Option.isSome_some,
    Option.getD_some, Option.bind_eq_bind, Option.bind_some, Bool.true_and, Option.pure_def,
    Option.some.injEq] at h
  split at h
  · cases h
  · rename_i hequal
    exact eq_of_strictEq (by simpa using hequal)

theorem scope_of_verified (h : Verified archive) {kind : ArchiveRecordKind} {r : ArchiveRecord}
    (hr : r ∈ archive.verification.records kind) {v : JsValue}
    (hv : r.lookup (js "workspaceId") = some v) : v = .string archive.manifest.workspaceId := by
  obtain ⟨limits, report, manifest, hreport, hvalid, -, hmanifest, hworkspace, hrecords⟩ := h
  have hchecked := validateRecords_of_verified hreport hvalid
  rw [hmanifest, validateRecords] at hchecked
  obtain ⟨references, hreferences, hchecked⟩ := Option.bind_eq_some_iff.mp hchecked
  obtain ⟨lineage, -, hchecked⟩ := Option.bind_eq_some_iff.mp hchecked
  obtain ⟨hnil, -⟩ := List.append_eq_nil_iff.mp (Option.some.inj hchecked)
  subst hnil
  rw [validateScopeAndReferences] at hreferences
  obtain ⟨resources, -, hreferences⟩ := Option.bind_eq_some_iff.mp hreferences
  obtain ⟨revisions, -, hreferences⟩ := Option.bind_eq_some_iff.mp hreferences
  obtain ⟨workspaceId, hw, hreferences⟩ := Option.bind_eq_some_iff.mp hreferences
  obtain ⟨scopes, hscopes, hreferences⟩ := Option.bind_eq_some_iff.mp hreferences
  obtain ⟨checked, -, hreferences⟩ := Option.bind_eq_some_iff.mp hreferences
  obtain ⟨hnil, -⟩ := List.append_eq_nil_iff.mp (Option.some.inj hreferences)
  rw [hworkspace, Option.some.injEq] at hw
  obtain ⟨group, hgroup, hkind⟩ :=
    (mem_of_forall₂ (mapM_eq_some hscopes)).1 kind (mem_archiveRecordKinds kind)
  have hmem : JsValue.object r ∈ report.records kind := by
    rw [hrecords]
    exact List.mem_map_of_mem hr
  obtain ⟨issues, hissues, hscope⟩ := (mem_of_forall₂ (mapM_eq_some hkind)).1 _ hmem
  have hempty : issues = [] := by
    rw [List.flatten_eq_nil_iff] at hnil
    exact hnil issues (List.mem_flatten.mpr ⟨group, hgroup, hissues⟩)
  rw [hempty, ← hw] at hscope
  exact scope_of_validateScope hscope hv

end Scope

/-- The records planned for another workspace are the image of the archive under the
mapping. The ids of the scoped kinds are stored as they are, and no two ids of one kind
become one, unless a workspace of the archive has the id of the target. -/
theorem mapped_plan_is_image (localeLe : JsString → JsString → Bool)
    (request : ArchiveImportRequest) (plan : ArchiveImportPlan)
    (hverified : Verified request.archive)
    (hne : request.archive.manifest.workspaceId ≠ mappedWorkspaceId request)
    (hplan : planArchiveImport localeLe request = some plan)
    (hcollision : ∀ kind ∈ scopedKinds, TruncatedCollisionFree
      (mappingMessages (mappedWorkspaceId request) kind
        (stringIds (request.archive.verification.records kind)))) :
    (∀ kind, ∃ images : List ArchiveRecord, images.Perm (plannedRecords plan kind) ∧
      List.Forall₂ (ImageOf request kind) (request.archive.verification.records kind) images) ∧
    (∀ kind ∈ scopedKinds, ∀ id,
      storedId (idMapping request kind id) = idMapping request kind id) ∧
    (∀ kind, (kind = .workspaces →
        mappedWorkspaceId request ∉ stringIds (request.archive.verification.records kind)) →
      Set.InjOn (idMapping request kind)
        { id | id ∈ stringIds (request.archive.verification.records kind) }) := by
  refine ⟨?_, ?_, ?_⟩
  · intro kind
    refine ⟨transformed request kind, (plannedRecords_perm hplan kind).symm, ?_⟩
    have himages : ∀ r ∈ request.archive.verification.records kind,
        ImageOf request kind r (rewritten request kind r) := fun r hr =>
      imageOf_rewritten hne hr fun v hv => scope_of_verified hverified hr hv
    rw [transformed, transformRecords, List.forall₂_map_right_iff]
    exact List.forall₂_same.mpr himages
  · intro kind hk id
    rw [idMapping_scoped hk]
    exact storedId_mappedEntityId _ _ _
  · intro kind htarget a ha b hb hab
    by_cases hw : kind = .workspaces
    · have hfree := htarget hw
      rw [idMapping, idMapping, if_pos hw, if_pos hw] at hab
      split_ifs at hab with hsource hsource' hsource'
      · exact hsource.trans hsource'.symm
      · exact absurd (hab ▸ hb) hfree
      · exact absurd (hab ▸ ha) hfree
      · exact hab
    by_cases hk : kind ∈ scopedKinds
    · rw [idMapping_scoped hk, idMapping_scoped hk] at hab
      exact mappedEntityId_injOn (hcollision kind hk) ha hb hab
    · rwa [idMapping, idMapping, if_neg hw, if_neg hw, if_neg hk, if_neg hk] at hab

section Samples

open TrustCore.ArchiveAssemble

/-- A small source whose records stand in order, with their keys in order, is read back as
it is. -/
theorem exists_verified {source : ArchiveSource} (hs : WellFormedSource source)
    (hsmall : (assembleArchiveEntries unitsLe source).map (fun p => isSmall 10000 p.1) = some true)
    (hsorted : ∀ kind, sortedRecords unitsLe (source.records kind) = some (source.records kind))
    (hcanonical : ∀ kind, (source.records kind).map (fun r => reread (.object r)) =
      (source.records kind).map .object) :
    ∃ entries, Verified ⟨entries, manifestOf source, ⟨true, source.records⟩⟩ := by
  obtain ⟨⟨entries, manifest⟩, hassemble, hfits⟩ := Option.map_eq_some_iff.mp hsmall
  have hl := withinLimits_of_isSmall (by decide) hfits
  obtain ⟨-, manifestText, ha⟩ := assembled_of_assemble hassemble
  obtain ⟨sorted, hsorted', hreport⟩ := verifyArchiveEntries_assembled ha hs hl
  have hworkspace := property_manifest (safeCounts ha hs.json hl) (boundary_of_oneChain hs.events).json
    (js "workspaceId")
  refine ⟨entries, defaults, _, _, Or.inl hreport, rfl, rfl, rfl, hworkspace, ?_⟩
  intro kind
  have hsame : sorted kind = source.records kind := by
    have hequal := hsorted' kind
    rw [hsorted, Option.some.injEq] at hequal
    exact hequal.symm
  simp only [hsame]
  exact hcanonical kind

/-- A schema package that names its workspace, a dataset that names its retention policy, and
these workspaces. -/
def mappingSource (workspaces : List ArchiveRecord) : ArchiveSource where
  exportId := js "e"
  workspaceId := js "a"
  datasetIds := []
  createdAt := js "t"
  createdBy := js "u"
  sourceVersion := js "0.3"
  records := fun kind =>
    match kind with
    | .workspaces => workspaces
    | .schemaPackages => [[(js "id", .string (js "s")), (js "workspaceId", .string (js "a"))]]
    | .datasets => [[(js "id", .string (js "d")), (js "retentionPolicyId", .string (js "p")),
        (js "schemaPackageId", .string (js "s")), (js "workspaceId", .string (js "a"))]]
    | .retention => [[(js "id", .string (js "p")), (js "workspaceId", .string (js "a"))]]
    | _ => []
  blobs := []

/-- The workspace of the archive, and another with the id of the target. -/
def twoWorkspaces : List ArchiveRecord :=
  [[(js "id", .string (js "a"))], [(js "id", .string (js "b"))]]

def mappingRequest (entries : EntryMap) : ArchiveImportRequest where
  archive := ⟨entries, manifestOf (mappingSource twoWorkspaces),
    ⟨true, (mappingSource twoWorkspaces).records⟩⟩
  mode := .mappedWorkspace
  conflictMode := .rejectOnError
  target := ⟨some (js "b"), fun _ => none, []⟩

/-- What the sample is known by, by one evaluation. -/
theorem mappingSource_evaluated :
    (∀ kind ∈ archiveRecordKinds, ∀ r ∈ (mappingSource twoWorkspaces).records kind,
      isJson (.object r) = true ∧
        (r.lookup (js "workspaceId")).all (strictEq · (.string (js "a"))) = true) ∧
    (assembleArchiveEntries unitsLe (mappingSource twoWorkspaces)).map
      (fun p => isSmall 10000 p.1) = some true ∧
    (planArchiveImport unitsLe (mappingRequest EntryMap.empty)).isSome = true ∧
    storedId (js "b") ≠ js "b" := by
  decide +kernel

theorem mappingSource_wellFormed : WellFormedSource (mappingSource twoWorkspaces) where
  json kind r hr := (mappingSource_evaluated.1 kind (mem_archiveRecordKinds kind) r hr).1
  scope := by
    intro kind r hr v hv
    have hsame := (mappingSource_evaluated.1 kind (mem_archiveRecordKinds kind) r hr).2
    rw [hv] at hsame
    exact eq_of_strictEq hsame
  resources := by
    intro r hr
    cases hr
  parents := by
    intro r hr
    cases hr
  blobs := List.Perm.nil
  events := ⟨[], List.Perm.nil, by simp, List.nodup_nil, by simp, List.isChain_nil⟩

theorem mappingRequest_verified : ∃ entries, Verified (mappingRequest entries).archive := by
  apply exists_verified mappingSource_wellFormed mappingSource_evaluated.2.1
  · intro kind
    cases kind <;> rfl
  · intro kind
    cases kind <;> rfl

theorem planArchiveImport_entries (entries : EntryMap) :
    planArchiveImport unitsLe (mappingRequest entries) =
      planArchiveImport unitsLe (mappingRequest EntryMap.empty) := rfl

theorem exists_plan (entries : EntryMap) :
    ∃ plan, planArchiveImport unitsLe (mappingRequest entries) = some plan := by
  rw [planArchiveImport_entries]
  exact Option.isSome_iff_exists.mp mappingSource_evaluated.2.2.1

theorem workspaces_differ (entries : EntryMap) :
    (mappingRequest entries).archive.manifest.workspaceId ≠ mappedWorkspaceId (mappingRequest entries) := by
  have hne : js "a" ≠ js "b" := by decide
  exact hne

theorem truncatedCollisionFree_of_length {workspaceId : JsString} {kind : ArchiveRecordKind}
    {ids : List JsString} (h : ids.length ≤ 1) :
    TruncatedCollisionFree (mappingMessages workspaceId kind ids) := by
  rintro x ⟨a, ha, rfl⟩ y ⟨b, hb, rfl⟩ _
  cases ids with
  | nil => cases ha
  | cons id ids =>
    cases ids with
    | nil => rw [List.mem_singleton.mp ha, List.mem_singleton.mp hb]
    | cons id' ids => simp at h

theorem mapped_plan_is_image_sample : ∃ entries plan, Verified (mappingRequest entries).archive ∧
    planArchiveImport unitsLe (mappingRequest entries) = some plan ∧
    ∃ r ∈ plannedRecords plan .datasets,
      field r (js "id") = .string (mappedEntityId (js "b") .datasets (js "d")) ∧
      field r (js "retentionPolicyId") = .string (mappedEntityId (js "b") .retention (js "p")) := by
  obtain ⟨entries, hverified⟩ := mappingRequest_verified
  obtain ⟨plan, hplan⟩ := exists_plan entries
  have hcollision : ∀ kind ∈ scopedKinds, TruncatedCollisionFree
      (mappingMessages (mappedWorkspaceId (mappingRequest entries)) kind
        (stringIds ((mappingSource twoWorkspaces).records kind))) := by
    have hall : ∀ kind ∈ scopedKinds,
        (stringIds ((mappingSource twoWorkspaces).records kind)).length ≤ 1 := by decide
    exact fun kind hk => truncatedCollisionFree_of_length (hall kind hk)
  obtain ⟨himages, -, -⟩ := mapped_plan_is_image unitsLe (mappingRequest entries) plan hverified
    (workspaces_differ entries) hplan hcollision
  obtain ⟨images, hperm, himages⟩ := himages .datasets
  obtain ⟨r, rest, himage, -, rfl⟩ := List.forall₂_cons_left_iff.mp himages
  refine ⟨entries, plan, hverified, hplan, r, hperm.mem_iff.mp List.mem_cons_self, ?_, ?_⟩
  · exact himage.id (js "d") rfl
  · have hids : stringIds ((mappingSource twoWorkspaces).records .retention) = [js "p"] := rfl
    rw [himage.reference (js "retentionPolicyId") (.always .retention) List.mem_cons_self .retention
      rfl]
    exact congrArg JsValue.string (if_pos (hids ▸ List.mem_cons_self))

/-- A schema package that names its workspace is not left alone, the id of the workspace is
not one that the adapter stores, and two workspaces get one id. -/
theorem mapped_plan_exceptions : ∃ entries plan, Verified (mappingRequest entries).archive ∧
    (mappingRequest entries).archive.manifest.workspaceId ≠
      mappedWorkspaceId (mappingRequest entries) ∧
    planArchiveImport unitsLe (mappingRequest entries) = some plan ∧
    (∃ r ∈ (mappingRequest entries).archive.verification.records .schemaPackages,
      ∀ r' ∈ plannedRecords plan .schemaPackages,
        field r' (js "workspaceId") ≠ field r (js "workspaceId")) ∧
    storedId (idMapping (mappingRequest entries) .workspaces (js "a")) ≠
      idMapping (mappingRequest entries) .workspaces (js "a") ∧
    ¬Set.InjOn (idMapping (mappingRequest entries) .workspaces)
      { id | id ∈ stringIds ((mappingRequest entries).archive.verification.records .workspaces) } := by
  obtain ⟨entries, hverified⟩ := mappingRequest_verified
  obtain ⟨plan, hplan⟩ := exists_plan entries
  have htarget : idMapping (mappingRequest entries) .workspaces (js "a") = js "b" := rfl
  refine ⟨entries, plan, hverified, workspaces_differ entries, hplan, ?_, ?_, ?_⟩
  · refine ⟨_, List.mem_singleton_self _, ?_⟩
    intro r' hr'
    have hmem := (plannedRecords_perm hplan .schemaPackages).mem_iff.mp hr'
    cases List.mem_singleton.mp hmem
    intro heq
    have hne : js "b" ≠ js "a" := by decide
    exact hne (JsValue.string.inj heq)
  · rw [htarget]
    exact mappingSource_evaluated.2.2.2
  · intro hinj
    have hne : js "a" ≠ js "b" := by decide
    have hids : stringIds twoWorkspaces = [js "a", js "b"] := rfl
    apply hne
    apply hinj
    · have hmem : js "a" ∈ stringIds twoWorkspaces := by
        rw [hids]
        exact List.mem_cons_self
      exact hmem
    · have hmem : js "b" ∈ stringIds twoWorkspaces := by
        rw [hids]
        exact List.mem_cons_of_mem _ (List.mem_singleton_self _)
      exact hmem
    · rw [htarget]
      rfl

end Samples

end TrustCore.ImportMapping
