import TrustCore.ImportPlanIds
import TrustCore.PlainTexts

/-!
# A plan in its `jsonb` column

A plan is stored as JSON. Its texts are those of the archive, ids made of hexadecimal digits, and
texts of the planner, so that a `jsonb` column that has taken the records and the manifest of an
archive takes the plans made of it.
-/

namespace TrustCore.ImportPlan

open TrustCore.Utf TrustCore.Json TrustCore.Dynamic TrustCore.Sha256 TrustCore.Columns
open TrustCore.ArchiveFormat TrustCore.ImportReferences

/-! ## The JSON of a plan -/

def Disposition.text : Disposition → JsString
  | .insert => js "insert"
  | .alreadyPresent => js "already_present"
  | .blocked => js "blocked"

def PlanStatus.text : PlanStatus → JsString
  | .ready => js "ready"
  | .rejected => js "rejected"
  | .reportOnly => js "report_only"

def issueValue (issue : ArchiveIssue) : JsValue :=
  .object ([(js "code", .string issue.code), (js "message", .string issue.message)] ++
    (issue.path.map fun path => (js "path", JsValue.string path)).toList)

def ArchiveImportAction.value (a : ArchiveImportAction) : JsValue :=
  .object ([(js "index", numberOf a.index), (js "phase", numberOf a.phase),
    (js "kind", .string a.kind.text), (js "sourceId", .string a.sourceId),
    (js "targetId", .string a.targetId), (js "disposition", .string a.disposition.text)] ++
    (a.record.map fun record => (js "record", JsValue.object record)).toList ++
    [(js "dependsOn", .array (a.dependsOn.map .string))])

def ArchiveImportPlan.value (plan : ArchiveImportPlan) : JsValue :=
  .object [(js "planId", .string plan.planId), (js "archiveExportId", .string plan.archiveExportId),
    (js "sourceWorkspaceId", .string plan.sourceWorkspaceId),
    (js "targetWorkspaceId", .string plan.targetWorkspaceId), (js "mode", .string plan.mode.text),
    (js "conflictMode", .string plan.conflictMode.text), (js "status", .string plan.status.text),
    (js "issues", .array (plan.issues.map issueValue)),
    (js "actions", .array (plan.actions.map ArchiveImportAction.value)),
    (js "counts", .object [(js "insert", numberOf (plan.counts .insert)),
      (js "already_present", numberOf (plan.counts .alreadyPresent)),
      (js "blocked", numberOf (plan.counts .blocked))])]

/-- The plan that `plan_json` gives back, with the keys of its records in the order of `jsonb`. -/
def ArchiveImportPlan.inColumn (plan : ArchiveImportPlan) : ArchiveImportPlan :=
  { plan with
    actions := plan.actions.map fun a =>
      { a with record := a.record.map fun record =>
          sortByKey jsonbOrder (sortKeysMembers jsonbOrder record) } }

def planColumn (plan : ArchiveImportPlan) : Option ArchiveImportPlan :=
  if jsonbAccepts plan.value then some plan.inColumn else none

/-! ## Texts that a column takes -/

section Texts

theorem jsonbText_append {s t : JsString} (hs : jsonbText s = true) (ht : jsonbText t = true) :
    jsonbText (s ++ t) = true := by
  simp only [jsonbText, Bool.and_eq_true, Bool.not_eq_true', decide_eq_false_iff_not,
    List.mem_append, not_or] at hs ht ⊢
  exact ⟨isWellFormed_append s t hs.1 ht.1, hs.2, ht.2⟩

theorem plain_hexByte (n : Nat) : Plain (hexByte n) :=
  plain_append (plain_hexDigit (Nat.mod_lt _ (by decide))) (plain_hexDigit (Nat.mod_lt _ (by decide)))

theorem plain_mappedEntityId (workspaceId : JsString) (kind : ArchiveRecordKind)
    (sourceId : JsString) : Plain (mappedEntityId workspaceId kind sourceId) := by
  have hhyphen : Plain (js "-") := by decide
  have hfive : Plain (js "-5") := by decide
  have hpart : ∀ text m n, Plain (((sha256Text text).drop m).take n) := fun text m n =>
    (plain_of_isSha256 (isSha256_sha256 (textEncode text))).of_sublist
      ((List.take_sublist n _).trans (List.drop_sublist m _))
  exact plain_append (plain_append (plain_append (plain_append (plain_append (plain_append
    (plain_append (plain_append (plain_append (hpart _ 0 8) hhyphen) (hpart _ 8 4)) hfive)
    (hpart _ 13 3)) hhyphen) (plain_hexByte _)) (hpart _ 18 2)) hhyphen) (hpart _ 20 12)

end Texts

/-! ## Records that a column takes -/

section Records

variable {r : ArchiveRecord} {k : JsString} {v : JsValue}

theorem jsonbAcceptsItems_iff {xs : List JsValue} :
    jsonbAcceptsItems xs = true ↔ ∀ x ∈ xs, jsonbAccepts x = true := by
  induction xs with
  | nil => exact iff_of_true rfl fun _ hx => absurd hx List.not_mem_nil
  | cons x xs ih => rw [jsonbAcceptsItems_cons, Bool.and_eq_true, ih, List.forall_mem_cons]

theorem jsonbAcceptsMembers_iff {ms : List (JsString × JsValue)} :
    jsonbAcceptsMembers ms = true ↔ ∀ m ∈ ms, jsonbText m.1 = true ∧ jsonbAccepts m.2 = true := by
  induction ms with
  | nil => exact iff_of_true rfl fun _ hm => absurd hm List.not_mem_nil
  | cons m ms ih =>
    rw [jsonbAcceptsMembers_cons, Bool.and_eq_true, Bool.and_eq_true, ih, List.forall_mem_cons, and_assoc]

theorem jsonbAccepts_object {ms : List (JsString × JsValue)} :
    jsonbAccepts (.object ms) = true ↔
      ∀ m ∈ ms, jsonbText m.1 = true ∧ jsonbAccepts m.2 = true := jsonbAcceptsMembers_iff

theorem jsonbAccepts_array {xs : List JsValue} :
    jsonbAccepts (.array xs) = true ↔ ∀ x ∈ xs, jsonbAccepts x = true := jsonbAcceptsItems_iff

theorem jsonbAccepts_field (hr : jsonbAccepts (.object r) = true) (k : JsString) :
    jsonbAccepts (field r k) = true := by
  rw [field]
  cases hlookup : r.lookup k with
  | none => rfl
  | some v => exact (jsonbAccepts_object.mp hr _ (mem_of_lookup hlookup)).2

theorem jsonbText_field (hr : jsonbAccepts (.object r) = true) {s : JsString}
    (h : field r k = .string s) : jsonbText s = true := by
  have hfield := jsonbAccepts_field hr k
  rw [h] at hfield
  exact hfield

theorem mem_setMember {α : Type} {k : JsString} {v : α} {ms : List (JsString × α)}
    {m : JsString × α} (h : m ∈ setMember k v ms) : m = (k, v) ∨ m ∈ ms := by
  induction ms with
  | nil => exact Or.inl (List.mem_singleton.mp h)
  | cons m' ms ih =>
    rw [setMember] at h
    split_ifs at h with hkey
    · exact (List.mem_cons.mp h).imp_right (List.mem_cons_of_mem _)
    · rcases List.mem_cons.mp h with rfl | h
      · exact Or.inr List.mem_cons_self
      · exact (ih h).imp_right (List.mem_cons_of_mem _)

theorem jsonbAccepts_setMember (hr : jsonbAccepts (.object r) = true) (hk : jsonbText k = true)
    (hv : jsonbAccepts v = true) : jsonbAccepts (.object (setMember k v r)) = true := by
  rw [jsonbAccepts_object] at hr ⊢
  intro m hm
  rcases mem_setMember hm with rfl | hm
  · exact ⟨hk, hv⟩
  · exact hr m hm

/-- A map of ids that gives texts a column takes. -/
def Taken (mapping : JsString → Option JsString) : Prop :=
  ∀ s s', jsonbText s = true → mapping s = some s' → jsonbText s' = true

theorem jsonbAccepts_mapReference {mapping : JsString → Option JsString} (hm : Taken mapping)
    (hv : jsonbAccepts v = true) : jsonbAccepts (mapReference mapping v) = true := by
  cases v with
  | string s =>
    rw [mapReference]
    cases hs : mapping s with
    | none => exact hv
    | some s' => exact hm s s' hv hs
  | _ => exact hv

theorem jsonbAccepts_mapField {mapping : JsString → Option JsString} (hm : Taken mapping)
    (hk : jsonbText k = true) (hr : jsonbAccepts (.object r) = true) :
    jsonbAccepts (.object (mapField mapping k r)) = true :=
  jsonbAccepts_setMember hr hk (jsonbAccepts_mapReference hm (jsonbAccepts_field hr k))

theorem jsonbAccepts_mapEnd {m : Mappings} (hm : ∀ kind, Taken (m kind)) (kindKey : JsString)
    (hk : jsonbText k = true) (hr : jsonbAccepts (.object r) = true) :
    jsonbAccepts (.object (mapEnd m kindKey k r)) = true := by
  refine jsonbAccepts_setMember hr hk ?_
  rw [mapRelationReference]
  split
  · exact jsonbAccepts_mapReference (hm _) (jsonbAccepts_field hr k)
  · exact jsonbAccepts_field hr k

theorem jsonbAccepts_mapMergeParents {m : Mappings} (hm : ∀ kind, Taken (m kind))
    (hr : jsonbAccepts (.object r) = true) :
    jsonbAccepts (.object (mapMergeParents m r)) = true := by
  have hfield := jsonbAccepts_field hr (js "mergeParentRevisionIds")
  rw [mapMergeParents]
  split
  · rename_i items hitems
    rw [hitems, jsonbAccepts_array] at hfield
    refine jsonbAccepts_setMember hr (by decide) (jsonbAccepts_array.mpr fun v hv => ?_)
    obtain ⟨item, hitem, rfl⟩ := List.mem_map.mp hv
    exact jsonbAccepts_mapReference (hm _) (hfield item hitem)
  · exact hr

theorem jsonbAccepts_mapRecord {m : Mappings} (hm : ∀ kind, Taken (m kind)) {s t : JsString}
    (ht : jsonbText t = true) (kind : ArchiveRecordKind) (hr : jsonbAccepts (.object r) = true) :
    jsonbAccepts (.object (mapRecord kind r s t m)) = true := by
  have hworkspace : jsonbAccepts (.object (mapWorkspaceId kind s t r)) = true := by
    rw [mapWorkspaceId]
    split
    · exact jsonbAccepts_setMember hr (by decide) ht
    · exact hr
  have hid := jsonbAccepts_mapField (hm kind) (k := js "id") (by decide) hworkspace
  have hfield : ∀ kind' (k : JsString), jsonbText k = true → ∀ r, jsonbAccepts (.object r) = true →
      jsonbAccepts (.object (mapField (m kind') k r)) = true := fun kind' _ hk _ =>
    jsonbAccepts_mapField (hm kind') hk
  cases kind with
  | workspaces => exact hid
  | schemaPackages => exact hid
  | auditEvents => exact hid
  | retention => exact hid
  | blobs => exact hid
  | datasets => exact hfield _ _ (by decide) _ hid
  | resources => exact hfield _ _ (by decide) _ (hfield _ _ (by decide) _ hid)
  | revisions =>
    exact jsonbAccepts_mapMergeParents hm (hfield _ _ (by decide) _ (hfield _ _ (by decide) _
      (hfield _ _ (by decide) _ (hfield _ _ (by decide) _ hid))))
  | revisionBlobs => exact hfield _ _ (by decide) _ (hfield _ _ (by decide) _ hid)
  | relations =>
    exact jsonbAccepts_mapEnd hm _ (by decide) (jsonbAccepts_mapEnd hm _ (by decide)
      (hfield _ _ (by decide) _ hid))
  | tombstones =>
    exact hfield _ _ (by decide) _ (jsonbAccepts_mapEnd hm _ (by decide)
      (hfield _ _ (by decide) _ hid))

end Records

/-! ## Plans that a column takes -/

section Plans

variable {localeLe : JsString → JsString → Bool} {request : ArchiveImportRequest}
  {kind : ArchiveRecordKind}

/-- A column has taken the records and the manifest of the archive, and takes the workspace id. -/
structure StoredRequest (request : ArchiveImportRequest) : Prop where
  records : ∀ kind, ∀ r ∈ request.archive.verification.records kind,
    jsonbAccepts (.object r) = true
  exportId : jsonbText request.archive.manifest.exportId = true
  workspaceId : jsonbText request.archive.manifest.workspaceId = true
  targetWorkspaceId : jsonbText (mappedWorkspaceId request) = true

theorem StoredRequest.taken (h : StoredRequest request) (kind : ArchiveRecordKind) :
    Taken (mappingsOf request kind) := by
  intro s s' hs hmapping
  rw [mappingsOf, buildIdMappings] at hmapping
  split_ifs at hmapping with hworkspaces hid hscoped
  · cases hmapping
    exact h.targetWorkspaceId
  · cases hmapping
    rw [entityId]
    split
    · exact hs
    · exact (plain_mappedEntityId _ _ _).jsonbText

theorem StoredRequest.transformed (h : StoredRequest request) {r : ArchiveRecord}
    (hr : r ∈ transformed request kind) : jsonbAccepts (.object r) = true := by
  obtain ⟨r₀, hr₀, rfl⟩ := mem_transformed.mp hr
  exact jsonbAccepts_mapRecord h.taken h.targetWorkspaceId kind (h.records kind r₀ hr₀)

theorem jsonbText_recordId {r : ArchiveRecord} (hr : jsonbAccepts (.object r) = true) {id : JsString}
    (h : recordId r kind = some id) : jsonbText id = true := by
  rw [recordId] at h
  split at h
  · rename_i u s hid
    cases h
    exact jsonbText_field hr hid
  · split_ifs at h
    obtain ⟨text, -, rfl⟩ := Option.map_eq_some_iff.mp h
    exact (plain_of_isSha256 (isSha256_sha256 _)).jsonbText

theorem jsonbText_kind (kind : ArchiveRecordKind) : jsonbText kind.text = true := by
  cases kind <;> decide

theorem jsonbText_dependency {v : JsValue} (hv : jsonbAccepts v = true) {d : JsString}
    (hd : d ∈ dependency kind v) : jsonbText d = true := by
  cases v with
  | string s =>
    rw [List.mem_singleton.mp hd]
    exact jsonbText_append (jsonbText_append (jsonbText_kind kind) (by decide)) hv
  | _ => cases hd

theorem jsonbText_dependencies {r : ArchiveRecord} (hr : jsonbAccepts (.object r) = true)
    {d : JsString} (hd : d ∈ dependencies kind r) : jsonbText d = true := by
  have hadd : ∀ kind k, d ∈ dependency kind (field r k) → jsonbText d = true := fun kind k =>
    jsonbText_dependency (jsonbAccepts_field hr k)
  unfold dependencies at hd
  simp only [List.mem_insertionSort, List.mem_dedup] at hd
  cases kind with
  | workspaces => cases hd
  | schemaPackages => cases hd
  | blobs => cases hd
  | auditEvents => cases hd
  | retention => cases hd
  | datasets => exact hadd _ _ hd
  | resources => exact hadd _ _ hd
  | tombstones => exact hadd _ _ hd
  | revisions =>
    simp only [List.mem_append] at hd
    rcases hd with ((hd | hd) | hd) | hd
    · exact hadd _ _ hd
    · exact hadd _ _ hd
    · exact hadd _ _ hd
    · exact hadd _ _ hd
  | revisionBlobs => exact (List.mem_append.mp hd).elim (hadd _ _) (hadd _ _)
  | relations => exact (List.mem_append.mp hd).elim (hadd _ _) (hadd _ _)

/-- The texts of an issue, which has no path. -/
structure CleanIssue (issue : ArchiveIssue) : Prop where
  code : jsonbText issue.code = true
  message : jsonbText issue.message = true
  path : issue.path = none

theorem clean_planIssue {code message : JsString} (hcode : jsonbText code = true)
    (hmessage : jsonbText message = true) : CleanIssue (planIssue code message) :=
  ⟨hcode, hmessage, rfl⟩

theorem clean_requestIssues : ∀ issue ∈ requestIssues request, CleanIssue issue := by
  intro issue hissue
  simp only [requestIssues, List.mem_append] at hissue
  rcases hissue with (hissue | hissue) | hissue
  · split_ifs at hissue
    · cases hissue
    · rw [List.mem_singleton.mp hissue]
      exact clean_planIssue (by decide) (by decide)
  · split_ifs at hissue
    · cases hissue
    · rw [List.mem_singleton.mp hissue]
      exact clean_planIssue (by decide) (by decide)
  · split_ifs at hissue
    · rw [List.mem_singleton.mp hissue]
      exact clean_planIssue (by decide) (by decide)
    · cases hissue

theorem clean_requireId {ids : List JsString} {v : JsValue} {label : JsString} {allow : Bool}
    (hlabel : jsonbText label = true) :
    ∀ issue ∈ requireId ids v label allow, CleanIssue issue := by
  have hmissing : CleanIssue (planIssue (js "IMPORT_REFERENCE_INVALID")
      (label ++ js " does not exist in the archive.")) :=
    clean_planIssue (by decide) (jsonbText_append hlabel (by decide))
  intro issue hissue
  simp only [requireId] at hissue
  split at hissue
  · split_ifs at hissue
    · rwa [List.mem_singleton.mp hissue]
    · cases hissue
  · rwa [List.mem_singleton.mp hissue]

theorem clean_validateRelationEnd {kind id : JsValue} {ids : ArchiveRecordKind → List JsString}
    {side : JsString} (hside : jsonbText side = true) :
    ∀ issue ∈ validateRelationEnd kind id ids side, CleanIssue issue := by
  have hlabel : jsonbText (js "relation " ++ side) = true := jsonbText_append (by decide) hside
  intro issue hissue
  rw [validateRelationEnd] at hissue
  split_ifs at hissue
  · exact clean_requireId hlabel issue hissue
  · exact clean_requireId hlabel issue hissue
  · exact clean_requireId hlabel issue hissue
  · cases hissue
  · rw [List.mem_singleton.mp hissue]
    exact clean_planIssue (by decide)
      (jsonbText_append (jsonbText_append (by decide) hside) (by decide))

theorem clean_validateParent {revisions : List ArchiveRecord} {revision : ArchiveRecord}
    {issues : List ArchiveIssue} (h : validateParent revisions revision = some issues) :
    ∀ issue ∈ issues, CleanIssue issue := by
  rw [validateParent] at h
  split at h
  · split at h
    · cases h
      exact List.forall_mem_singleton.mpr (clean_planIssue (by decide) (by decide))
    · obtain ⟨invalid, -, rfl⟩ := Option.map_eq_some_iff.mp h
      split
      · exact List.forall_mem_singleton.mpr (clean_planIssue (by decide) (by decide))
      · simp
  · cases h
    simp

theorem clean_validateRevisions {ids : ArchiveRecordKind → List JsString}
    {revisions rest : List ArchiveRecord} {seen : List (JsString × Numbers.JsNumber)}
    {issues : List ArchiveIssue} (h : validateRevisions ids revisions seen rest = some issues) :
    ∀ issue ∈ issues, CleanIssue issue := by
  induction rest generalizing seen issues with
  | nil =>
    cases h
    simp
  | cons revision rest ih =>
    rw [validateRevisions] at h
    split at h
    · rename_i parent later hparent hlater
      cases h
      simp only [List.forall_mem_append]
      refine ⟨⟨⟨?_, ?_⟩, clean_validateParent hparent⟩, ih hlater⟩
      · simp only [validateRevision, List.forall_mem_append]
        exact ⟨⟨clean_requireId (by decide), clean_requireId (by decide)⟩,
          clean_requireId (by decide)⟩
      · rw [validateNumber]
        split
        · split
          · exact List.forall_mem_singleton.mpr (clean_planIssue (by decide) (by decide))
          · simp
        · simp
    · cases h

theorem clean_flatMap {α : Type} {xs : List α} {f : α → List ArchiveIssue}
    (h : ∀ x ∈ xs, ∀ issue ∈ f x, CleanIssue issue) : ∀ issue ∈ xs.flatMap f, CleanIssue issue := by
  intro issue hissue
  obtain ⟨x, hx, hissue⟩ := List.mem_flatMap.mp hissue
  exact h x hx issue hissue

theorem clean_validateGraph {records : Records} {workspaceId : JsString} {issues : List ArchiveIssue}
    (h : validateGraph records workspaceId = some issues) : ∀ issue ∈ issues, CleanIssue issue := by
  obtain ⟨revisions, hrevisions, rfl⟩ := Option.map_eq_some_iff.mp h
  simp only [List.forall_mem_append]
  refine ⟨⟨⟨⟨⟨⟨?_, ?_⟩, ?_⟩, clean_validateRevisions hrevisions⟩, ?_⟩, ?_⟩, ?_⟩
  · refine clean_flatMap fun kind _ => clean_flatMap fun r _ issue hissue => ?_
    rw [validateWorkspace] at hissue
    split_ifs at hissue
    · rw [List.mem_singleton.mp hissue]
      exact clean_planIssue (by decide) (jsonbText_append (jsonbText_kind kind) (by decide))
    · cases hissue
  · exact clean_flatMap fun r _ => clean_requireId (by decide)
  · refine clean_flatMap fun r _ => ?_
    simp only [validateResource, List.forall_mem_append]
    refine ⟨clean_requireId (by decide), ?_⟩
    split
    · simp
    · exact clean_requireId (by decide)
  · refine clean_flatMap fun r _ => ?_
    simp only [validateAttachment, List.forall_mem_append]
    exact ⟨clean_requireId (by decide), clean_requireId (by decide)⟩
  · refine clean_flatMap fun r _ => ?_
    simp only [validateRelation, List.forall_mem_append]
    exact ⟨clean_validateRelationEnd (by decide), clean_validateRelationEnd (by decide)⟩
  · refine clean_flatMap fun r _ => ?_
    simp only [validateTombstone, List.forall_mem_append]
    constructor
    · split
      · exact List.forall_mem_singleton.mpr (clean_planIssue (by decide) (by decide))
      · exact clean_requireId (by decide)
    · split
      · exact clean_requireId (by decide)
      · simp

theorem clean_validateRetention (h : StoredRequest request) :
    ∀ issue ∈ validateRetentionAssignments (transformed request), CleanIssue issue := by
  refine clean_flatMap fun dataset hdataset issue hissue => ?_
  rw [validateRetention] at hissue
  split at hissue
  · rename_i s hs
    split_ifs at hissue
    · cases hissue
    · rw [List.mem_singleton.mp hissue]
      exact clean_planIssue (by decide)
        (jsonbText_append (by decide) (jsonbText_field (h.transformed hdataset) hs))
  · cases hissue

theorem clean_validateSchemaConflicts {records : Records} {target : List ArchiveRecord} :
    ∀ issue ∈ validateSchemaConflicts records target, CleanIssue issue := by
  refine clean_flatMap fun schema _ issue hissue => ?_
  split at hissue
  · split_ifs at hissue
    · cases hissue
    · rw [List.mem_singleton.mp hissue]
      exact clean_planIssue (by decide) (by decide)
  · cases hissue

/-- What a plan says of one record is made of texts that a column takes. -/
structure TakenAction (a : ArchiveImportAction) : Prop where
  sourceId : jsonbText a.sourceId = true
  targetId : jsonbText a.targetId = true
  record : ∀ r, a.record = some r → jsonbAccepts (.object r) = true
  dependsOn : ∀ d ∈ a.dependsOn, jsonbText d = true

theorem TakenAction.of_erase {a b : ArchiveImportAction} (h : erase a = erase b)
    (ha : TakenAction a) : TakenAction b := by
  simp only [erase, ArchiveImportAction.mk.injEq] at h
  obtain ⟨-, -, -, hsource, htarget, -, hrecord, hdepends⟩ := h
  exact ⟨hsource ▸ ha.sourceId, htarget ▸ ha.targetId, hrecord ▸ ha.record, hdepends ▸ ha.dependsOn⟩

theorem taken_planRecord (h : StoredRequest request) {pair : ArchiveRecord × ArchiveRecord}
    (hpair : pair ∈ (request.archive.verification.records kind).zip (transformed request kind))
    {planned : ArchiveImportAction × List ArchiveIssue}
    (hplanned : planRecord request kind pair = some planned) :
    TakenAction planned.1 ∧ ∀ issue ∈ planned.2, CleanIssue issue := by
  have hsource := h.records kind pair.1 (List.of_mem_zip hpair).1
  have htarget := h.transformed (List.of_mem_zip hpair).2
  rw [planRecord] at hplanned
  obtain ⟨sourceId, hsourceId, hplanned⟩ := Option.bind_eq_some_iff.mp hplanned
  obtain ⟨targetId, htargetId, hplanned⟩ := Option.bind_eq_some_iff.mp hplanned
  obtain ⟨disposition, -, hplanned⟩ := Option.bind_eq_some_iff.mp hplanned
  cases hplanned
  have htext := jsonbText_recordId htarget htargetId
  refine ⟨⟨?_, htext, ?_, fun d hd => jsonbText_dependencies htarget hd⟩, ?_⟩
  · dsimp only
    split_ifs
    · exact h.workspaceId
    · exact jsonbText_recordId hsource hsourceId
  · rintro r ⟨⟩
    exact htarget
  · intro issue hissue
    dsimp only at hissue
    split_ifs at hissue
    · rw [List.mem_singleton.mp hissue]
      exact clean_planIssue (by decide)
        (jsonbText_append (jsonbText_append (jsonbText_kind kind) (by decide)) htext)
    · cases hissue

theorem taken_planBytes {r : ArchiveRecord} (hr : jsonbAccepts (.object r) = true)
    {a : ArchiveImportAction} (h : planBytes request r = some (some a)) : TakenAction a := by
  rw [planBytes] at h
  split at h
  · rename_i digest hdigest
    obtain ⟨blobId, hid, h⟩ := Option.map_eq_some_iff.mp h
    cases h
    have hdigestText := jsonbText_field hr hdigest
    refine ⟨hdigestText, hdigestText, fun _ hrecord => (by cases hrecord), fun d hd => ?_⟩
    rw [List.mem_singleton.mp hd]
    exact jsonbText_append (by decide) (jsonbText_recordId hr hid)
  · cases h

theorem jsonbText_actionKind (kind : ActionKind) : jsonbText kind.text = true := by
  cases kind with
  | record kind => exact jsonbText_kind kind
  | blobBytes => decide

theorem jsonbAccepts_action {a : ArchiveImportAction} (h : TakenAction a) :
    jsonbAccepts a.value = true := by
  rw [ArchiveImportAction.value, jsonbAccepts_object]
  simp only [List.forall_mem_append, List.forall_mem_cons, List.not_mem_nil, false_implies,
    forall_true_iff, and_true]
  refine ⟨⟨⟨⟨by decide, rfl⟩, ⟨by decide, rfl⟩, ⟨by decide, ?_⟩, ⟨by decide, ?_⟩, ⟨by decide, ?_⟩,
    by decide, ?_⟩, ?_⟩, by decide, ?_⟩
  · exact jsonbText_actionKind a.kind
  · exact h.sourceId
  · exact h.targetId
  · cases a.disposition <;> decide
  · intro m hm
    obtain ⟨r, hr, rfl⟩ := Option.map_eq_some_iff.mp (Option.mem_toList.mp hm)
    have hname : jsonbText (js "record") = true := by decide
    exact ⟨hname, h.record r hr⟩
  · refine jsonbAccepts_array.mpr fun v hv => ?_
    obtain ⟨d, hd, rfl⟩ := List.mem_map.mp hv
    exact h.dependsOn d hd

theorem jsonbAccepts_issue {issue : ArchiveIssue} (h : CleanIssue issue) :
    jsonbAccepts (issueValue issue) = true := by
  rw [issueValue, h.path, jsonbAccepts_object]
  simp only [List.forall_mem_append, List.forall_mem_cons, List.not_mem_nil, false_implies,
    forall_true_iff, and_true, Option.map_none, Option.toList_none]
  exact ⟨⟨by decide, h.code⟩, by decide, h.message⟩

theorem clean_planIssues (h : StoredRequest request) {plan : ArchiveImportPlan}
    {planned : List (ArchiveImportAction × List ArchiveIssue)}
    {bytes : List (Option ArchiveImportAction)} {graphIssues : List ArchiveIssue}
    (hparts : Parts localeLe request planned bytes graphIssues plan)
    (hplanned : ∀ p ∈ planned, ∀ issue ∈ p.2, CleanIssue issue) :
    ∀ issue ∈ plan.issues, CleanIssue issue := by
  rw [hparts.issues]
  simp only [List.forall_mem_append]
  exact ⟨⟨⟨⟨clean_requestIssues, clean_validateGraph hparts.graph⟩, clean_validateRetention h⟩,
    clean_validateSchemaConflicts⟩, clean_flatMap hplanned⟩

theorem isSha256_planId {manifest : TrustArchiveManifest} {s t planId : JsString}
    {mode : ArchiveImportMode} {conflictMode : ArchiveConflictMode}
    {actions : List ArchiveImportAction}
    (h : calculateArchiveImportPlanId manifest s t mode conflictMode actions = some planId) :
    isSha256 planId = true := by
  rw [calculateArchiveImportPlanId] at h
  obtain ⟨manifestText, -, h⟩ := Option.bind_eq_some_iff.mp h
  obtain ⟨identities, -, h⟩ := Option.bind_eq_some_iff.mp h
  obtain ⟨text, -, h⟩ := Option.bind_eq_some_iff.mp h
  cases h
  exact isSha256_sha256 _

/-- A column that has taken an archive takes its plans. -/
theorem jsonbAccepts_plan (h : StoredRequest request) {plan : ArchiveImportPlan}
    (hplan : planArchiveImport localeLe request = some plan) :
    jsonbAccepts plan.value = true := by
  obtain ⟨planned, bytes, graphIssues, hparts⟩ := planArchiveImport_parts hplan
  have hplanned : ∀ p ∈ planned, TakenAction p.1 ∧ ∀ issue ∈ p.2, CleanIssue issue := by
    intro p hp
    obtain ⟨groups, hgroups, rfl⟩ := Option.map_eq_some_iff.mp hparts.records
    obtain ⟨group, hgroup, hp⟩ := List.mem_flatten.mp hp
    obtain ⟨kind, -, hzip⟩ := (mem_of_forall₂ (mapM_eq_some hgroups)).2 group hgroup
    obtain ⟨pair, hpair, hp⟩ := (mem_of_forall₂ (mapM_eq_some hzip)).2 p hp
    exact taken_planRecord h hpair hp
  have hsorted : ∀ a ∈ sortedActions localeLe planned bytes, TakenAction a := by
    intro a ha
    rw [sortedActions, List.mem_insertionSort, List.mem_append] at ha
    rcases ha with ha | ha
    · obtain ⟨p, hp, rfl⟩ := List.mem_map.mp ha
      exact (hplanned p hp).1
    · obtain ⟨r, hr, hbytes⟩ :=
        (mem_of_forall₂ (mapM_eq_some hparts.blobBytes)).2 _ (List.reduceOption_mem_iff.mp ha)
      exact taken_planBytes (h.transformed hr) hbytes
  obtain ⟨blocked, hactions⟩ := hparts.actions
  have haction : ∀ a ∈ plan.actions, TakenAction a := by
    intro a ha
    have herased : erase a ∈ plan.actions.map erase := List.mem_map_of_mem ha
    rw [hactions, erase_indexActions, List.mem_map] at herased
    obtain ⟨b, hb, herased⟩ := herased
    exact .of_erase herased (hsorted b hb)
  have hid := (plain_of_isSha256 (isSha256_planId hparts.planId)).jsonbText
  rw [ArchiveImportPlan.value, jsonbAccepts_object]
  simp only [List.forall_mem_cons, List.not_mem_nil, false_implies, forall_true_iff, and_true]
  refine ⟨⟨by decide, hid⟩, ⟨by decide, ?_⟩, ⟨by decide, ?_⟩, ⟨by decide, ?_⟩, ⟨by decide, ?_⟩,
    ⟨by decide, ?_⟩, ⟨by decide, ?_⟩, ⟨by decide, ?_⟩, ⟨by decide, ?_⟩, by decide, ?_⟩
  · rw [hparts.archiveExportId]
    exact h.exportId
  · rw [hparts.sourceWorkspaceId]
    exact h.workspaceId
  · rw [hparts.targetWorkspaceId]
    exact h.targetWorkspaceId
  · cases plan.mode <;> decide
  · cases plan.conflictMode <;> decide
  · cases plan.status <;> decide
  · refine jsonbAccepts_array.mpr fun v hv => ?_
    obtain ⟨issue, hissue, rfl⟩ := List.mem_map.mp hv
    exact jsonbAccepts_issue (clean_planIssues h hparts (fun p hp => (hplanned p hp).2) issue hissue)
  · refine jsonbAccepts_array.mpr fun v hv => ?_
    obtain ⟨a, ha, rfl⟩ := List.mem_map.mp hv
    exact jsonbAccepts_action (haction a ha)
  · rw [jsonbAccepts_object]
    simp only [List.forall_mem_cons, List.not_mem_nil, false_implies, forall_true_iff, and_true]
    exact ⟨⟨by decide, rfl⟩, ⟨by decide, rfl⟩, by decide, rfl⟩

theorem planColumn_eq (h : StoredRequest request) {plan : ArchiveImportPlan}
    (hplan : planArchiveImport localeLe request = some plan) :
    planColumn plan = some plan.inColumn := if_pos (jsonbAccepts_plan h hplan)

end Plans

end TrustCore.ImportPlan
