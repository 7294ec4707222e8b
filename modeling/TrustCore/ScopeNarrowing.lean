import TrustCore.RevisionTrees

/-!
# Narrower scopes

A run over a dataset or a resource checks less than a run over the workspace. What
it reports of an entity in its scope is the same when every row that the checks of
the entity read is selected with it. The rows of a dataset are selected by their
own `datasetId`, so a revision that has another one than its resource is not.
-/

namespace TrustCore.ScopeNarrowing

open TrustCore.Utf TrustCore.Json TrustCore.Verification TrustCore.RevisionTrees
open TrustCore.History (Resource Revision Tombstone)

/-! ## Reports about one entity -/

inductive Entity where
  | resource (resource : Resource)
  | revision (resource : Resource) (revision : Revision)
  | relation (relation : Relation)
  | tombstone (tombstone : Tombstone)

/-- The issues of the resource itself: its graph, and whether it has one. -/
def ownIssues (resource : Resource) (revisions : List Revision) : List VerificationIssue :=
  verifyResourceGraph resource revisions ++
  if (ownRevisions resource revisions).isEmpty ∧ resource.status ≠ .deletedLogically then
    [issue "ORPHAN_RESOURCE_WITHOUT_REVISION" .critical .resource resource.id
      "Resource has no revision history."]
  else []

section Reports

variable (isDate isUrl : JsString → Bool) (storage : BlobStorage) (snapshot : Snapshot)
  (selected : SelectedScope) (found : VerificationIssue)

/-- What a run that has selected these rows reports about one of them. -/
def Reports : Entity → Prop
  | .resource resource =>
    resource ∈ selected.resources ∧ found ∈ ownIssues resource selected.revisions
  | .revision resource revision =>
    resource ∈ selected.resources ∧ revision ∈ ownRevisions resource selected.revisions ∧
      (found ∈ verifySchema isDate isUrl resource revision
          (selected.datasets.find? (·.id == resource.datasetId)) snapshot.schemaPackages ∨
        ∃ reference ∈ snapshot.revisionBlobs, reference.revisionId = revision.id ∧
          found ∈ referenceIssues snapshot reference)
  | .relation relation => relation ∈ selected.relations ∧ found ∈ verifyRelation relation snapshot
  | .tombstone tombstone =>
    tombstone ∈ selected.tombstones ∧ found ∈ verifyTombstone tombstone snapshot

variable {isDate isUrl snapshot selected found}

/-- A run has all its reports about entities among its issues. -/
theorem Reports.mem {entity : Entity} (h : Reports isDate isUrl snapshot selected found entity)
    (level : StructuralLevel) (workspaceId : JsString) :
    found ∈ structuralIssues isDate isUrl storage snapshot selected level workspaceId := by
  have hresource : ∀ resource ∈ selected.resources,
      found ∈ resourceIssues isDate isUrl selected snapshot.schemaPackages resource →
      found ∈ structuralIssues isDate isUrl storage snapshot selected level workspaceId := by
    intro resource hmem hfound
    simp only [structuralIssues, List.mem_append, List.mem_flatMap]
    exact .inl (.inl (.inl (.inl (.inl (.inr ⟨resource, hmem, hfound⟩)))))
  cases entity with
  | resource resource =>
    obtain ⟨hmem, hfound⟩ := h
    apply hresource resource hmem
    rcases List.mem_append.mp hfound with hgraph | horphan
    · exact List.mem_append_left _ (List.mem_append_left _ hgraph)
    · exact List.mem_append_right _ horphan
  | revision resource revision =>
    obtain ⟨hmem, hown, hschema | ⟨reference, href, hid, hfound⟩⟩ := h
    · apply hresource resource hmem
      exact List.mem_append_left _ (List.mem_append_right _
        (List.mem_flatMap.mpr ⟨revision, hown, hschema⟩))
    · simp only [structuralIssues, List.mem_append, List.mem_flatMap]
      refine .inl (.inl (.inl (.inl (.inr ⟨reference, ?_, hfound⟩))))
      rw [selectedReferences, List.mem_filter, List.any_eq_true]
      exact ⟨href, revision, List.mem_of_mem_filter hown, by simp [hid]⟩
  | relation relation =>
    simp only [structuralIssues, List.mem_append, List.mem_flatMap]
    exact .inl (.inl (.inr ⟨relation, h⟩))
  | tombstone tombstone =>
    simp only [structuralIssues, List.mem_append, List.mem_flatMap]
    exact .inl (.inr ⟨tombstone, h⟩)

end Reports

/-! ## Scopes -/

def datasetScope (dataset : Dataset) : VerificationScope := ⟨.dataset, dataset.id⟩

def resourceScope (resource : Resource) : VerificationScope := ⟨.resource, resource.id⟩

def workspaceScope (workspaceId : JsString) : VerificationScope := ⟨.workspace, workspaceId⟩

/-- The resources of a dataset, their revisions, and the relations and tombstones of the dataset. -/
def OfDataset (dataset : Dataset) : Entity → Prop
  | .resource resource => resource.datasetId = dataset.id
  | .revision resource _ => resource.datasetId = dataset.id
  | .relation relation => relation.datasetId = dataset.id
  | .tombstone tombstone => tombstone.datasetId = dataset.id

/-- A resource, its revisions, the relations at one of its ends and its tombstones. -/
def OfResource (resource : Resource) : Entity → Prop
  | .resource other => other = resource
  | .revision other _ => other = resource
  | .relation relation => relation.sourceId = resource.id ∨ relation.targetId = resource.id
  | .tombstone tombstone =>
    tombstone.subjectKind = .resource ∧ tombstone.subjectId = resource.id

/-- The revisions of the resources of a dataset are in that dataset. -/
def Placed (snapshot : Snapshot) (dataset : Dataset) : Prop :=
  snapshot.workspaceExists = false ∨
    ∀ resource ∈ snapshot.resources, resource.datasetId = dataset.id →
      ∀ revision ∈ ownRevisions resource snapshot.revisions, revision.datasetId = dataset.id

section Scopes

variable (isDate isUrl : JsString → Bool) (storage : BlobStorage) (workspaceId : JsString)
  (snapshot : Snapshot)

/-- Whatever the run over the workspace reports of an entity, the run over the scope reports. -/
def HidesNothing (level : StructuralLevel) (scope : VerificationScope) (inside : Entity → Prop) :
    Prop :=
  ∀ draw, ∃ outcome,
    runStructural isDate isUrl storage draw workspaceId level (some scope) snapshot = .ok outcome ∧
    ∀ entity found, inside entity →
      Reports isDate isUrl snapshot (selectScope snapshot (workspaceScope workspaceId)) found
        entity → found ∈ outcome.run.issues

variable {isDate isUrl storage workspaceId snapshot}

/-- A run below the level of the workspace takes every scope of its kind. -/
theorem runStructural_issues (draw : RunDraw) {level : StructuralLevel}
    {scope : VerificationScope} (hkind : scope.kind = level.kind) (hlevel : level ≠ .workspace) :
    ∃ outcome,
      runStructural isDate isUrl storage draw workspaceId level (some scope) snapshot =
        .ok outcome ∧
      outcome.run.issues = structuralIssues isDate isUrl storage snapshot
        (selectScope snapshot scope) level workspaceId := by
  have hresolved : resolveScope workspaceId level (some scope) = .ok scope := by
    have hother : scope.kind ≠ .workspace := by
      rw [hkind]
      cases level with
      | resource => decide
      | dataset => decide
      | workspace => exact absurd rfl hlevel
    simp [resolveScope, Option.filter, hkind]
    simp [← hkind, hother]
  exact ⟨_, by rw [runStructural, hresolved], rfl⟩

theorem hidesNothing_iff {level : StructuralLevel} {scope : VerificationScope}
    {inside : Entity → Prop} (hkind : scope.kind = level.kind) (hlevel : level ≠ .workspace) :
    HidesNothing isDate isUrl storage workspaceId snapshot level scope inside ↔
      ∀ entity found, inside entity →
        Reports isDate isUrl snapshot (selectScope snapshot (workspaceScope workspaceId)) found
          entity →
        found ∈ structuralIssues isDate isUrl storage snapshot (selectScope snapshot scope) level
          workspaceId := by
  constructor
  · intro h entity found hinside hreports
    obtain ⟨outcome, hrun, hissues⟩ := h ⟨[], [], []⟩
    obtain ⟨outcome', hrun', hissues'⟩ :=
      @runStructural_issues isDate isUrl storage workspaceId snapshot ⟨[], [], []⟩ level scope hkind
        hlevel
    rw [hrun] at hrun'
    cases hrun'
    exact hissues' ▸ hissues entity found hinside hreports
  · intro h draw
    obtain ⟨outcome, hrun, hissues⟩ := runStructural_issues draw hkind hlevel
    exact ⟨outcome, hrun, hissues ▸ h⟩

end Scopes

section Whole

variable {snapshot : Snapshot} {workspaceId : JsString}

/-- A workspace that is not there has no entity to report about. -/
theorem selectScope_missing (h : snapshot.workspaceExists = false) (scope : VerificationScope) :
    selectScope snapshot scope = emptySelection (issue "SCOPE_NOT_FOUND" .critical .workspace
      scope.id "Workspace scope does not exist.") := by
  rw [selectScope, h]
  rfl

theorem not_reports_missing {isDate isUrl : JsString → Bool} {scope : VerificationScope}
    (h : snapshot.workspaceExists = false) (found : VerificationIssue) (entity : Entity) :
    ¬ Reports isDate isUrl snapshot (selectScope snapshot scope) found entity := by
  rw [selectScope_missing h]
  cases entity with
  | resource resource => exact fun hreports => List.not_mem_nil hreports.1
  | revision resource revision => exact fun hreports => List.not_mem_nil hreports.1
  | relation relation => exact fun hreports => List.not_mem_nil hreports.1
  | tombstone tombstone => exact fun hreports => List.not_mem_nil hreports.1

theorem selectScope_dataset {dataset first : Dataset} (h : snapshot.workspaceExists = true)
    (hfirst : snapshot.datasets.find? (·.id == dataset.id) = some first) :
    selectScope snapshot (datasetScope dataset) =
      ⟨[first], snapshot.resources.filter (·.datasetId == dataset.id),
        snapshot.revisions.filter (·.datasetId == dataset.id),
        snapshot.relations.filter (·.datasetId == dataset.id),
        snapshot.tombstones.filter (·.datasetId == dataset.id), []⟩ := by
  simp only [selectScope, h, Bool.not_true, Bool.false_eq_true, if_false, datasetScope, hfirst]

theorem selectScope_resource {resource : Resource} (h : snapshot.workspaceExists = true)
    (hfirst : snapshot.resources.find? (·.id == resource.id) = some resource) :
    selectScope snapshot (resourceScope resource) =
      ⟨snapshot.datasets.filter (·.id == resource.datasetId), [resource],
        snapshot.revisions.filter (·.resourceId == resource.id),
        snapshot.relations.filter fun relation =>
          relation.sourceId == resource.id || relation.targetId == resource.id,
        snapshot.tombstones.filter fun tombstone =>
          tombstone.subjectKind = .resource ∧ tombstone.subjectId = resource.id, []⟩ := by
  simp only [selectScope, h, Bool.not_true, Bool.false_eq_true, if_false, resourceScope, hfirst]

/-- Filtering first by something that the own revisions have keeps all of them. -/
theorem ownRevisions_filter {resource : Resource} {revisions : List Revision}
    {p : Revision → Bool} (h : ∀ r ∈ ownRevisions resource revisions, p r = true) :
    ownRevisions resource (revisions.filter p) = ownRevisions resource revisions := by
  rw [ownRevisions, List.filter_filter]
  apply List.filter_congr
  intro r hr
  cases hown : r.resourceId == resource.id with
  | false => rfl
  | true =>
    rw [h r (List.mem_filter.mpr ⟨hr, hown⟩)]
    rfl

/-- The checks of a resource read nothing but its own revisions. -/
theorem ownIssues_congr {resource : Resource} {revisions revisions' : List Revision}
    (h : ownRevisions resource revisions = ownRevisions resource revisions') :
    ownIssues resource revisions = ownIssues resource revisions' := by
  have hgraph : verifyResourceGraph resource revisions = verifyResourceGraph resource revisions' := by
    simp only [verifyResourceGraph]
    rw [show revisions.filter (·.resourceId == resource.id) =
      revisions'.filter (·.resourceId == resource.id) from h]
  rw [ownIssues, ownIssues, hgraph, h]

theorem find_filter_same {datasets : List Dataset} {id : JsString} :
    (datasets.filter (·.id == id)).find? (·.id == id) = datasets.find? (·.id == id) := by
  simp only [List.find?_filter, and_self, Bool.decide_eq_true]

end Whole

/-! ## What a narrower run still reports -/

section Narrower

variable {isDate isUrl : JsString → Bool} {storage : BlobStorage} {workspaceId : JsString}
  {snapshot : Snapshot}

/-- Reports pass from one selection to another that has the rows they come from. -/
theorem Reports.mono {selected selected' : SelectedScope} {inside : Entity → Prop}
    {found : VerificationIssue} {entity : Entity}
    (hresources : ∀ r ∈ selected.resources, inside (.resource r) → r ∈ selected'.resources ∧
      ownRevisions r selected'.revisions = ownRevisions r selected.revisions ∧
      selected'.datasets.find? (·.id == r.datasetId) =
        selected.datasets.find? (·.id == r.datasetId))
    (hrelations : ∀ r ∈ selected.relations, inside (.relation r) → r ∈ selected'.relations)
    (htombstones : ∀ t ∈ selected.tombstones, inside (.tombstone t) → t ∈ selected'.tombstones)
    (hrevision : ∀ r v, inside (.revision r v) → inside (.resource r)) (hinside : inside entity)
    (h : Reports isDate isUrl snapshot selected found entity) :
    Reports isDate isUrl snapshot selected' found entity := by
  cases entity with
  | resource resource =>
    obtain ⟨hmem, hfound⟩ := h
    obtain ⟨hmem', hown, -⟩ := hresources resource hmem hinside
    exact ⟨hmem', by rwa [ownIssues_congr hown]⟩
  | revision resource revision =>
    obtain ⟨hmem, hrevisions, hfound⟩ := h
    obtain ⟨hmem', hown, hdataset⟩ := hresources resource hmem (hrevision _ _ hinside)
    exact ⟨hmem', by rwa [hown], by rwa [hdataset]⟩
  | relation relation => exact ⟨hrelations relation h.1 hinside, h.2⟩
  | tombstone tombstone => exact ⟨htombstones tombstone h.1 hinside, h.2⟩

theorem hidesNothing_dataset {dataset : Dataset} (hmem : dataset ∈ snapshot.datasets)
    (hplaced : Placed snapshot dataset) :
    HidesNothing isDate isUrl storage workspaceId snapshot .dataset (datasetScope dataset)
      (OfDataset dataset) := by
  refine (hidesNothing_iff rfl (by decide)).mpr fun entity found hinside hreports => ?_
  rcases hplaced with hmissing | hplaced
  · exact absurd hreports (not_reports_missing hmissing found entity)
  cases hexists : snapshot.workspaceExists with
  | false => exact absurd hreports (not_reports_missing hexists found entity)
  | true =>
    obtain ⟨first, hfirst⟩ : ∃ first, snapshot.datasets.find? (·.id == dataset.id) = some first :=
      Option.isSome_iff_exists.mp (List.find?_isSome.mpr ⟨dataset, hmem, by simp⟩)
    rw [selectScope_workspace snapshot rfl, if_pos hexists, wholeSelection] at hreports
    apply Reports.mem
    rw [selectScope_dataset hexists hfirst]
    refine hreports.mono ?_ ?_ ?_ (fun _ _ h => h) hinside
    · intro r hr hdataset
      have hdataset : r.datasetId = dataset.id := hdataset
      refine ⟨List.mem_filter.mpr ⟨hr, by simp [hdataset]⟩, ownRevisions_filter ?_, ?_⟩
      · intro v hv
        simp [hplaced r hr hdataset v hv]
      · have hid : first.id = dataset.id := by simpa using List.find?_some hfirst
        simp [hdataset, hfirst, hid]
    · exact fun r hr hdataset => List.mem_filter.mpr ⟨hr, beq_iff_eq.mpr hdataset⟩
    · exact fun t ht hdataset => List.mem_filter.mpr ⟨ht, beq_iff_eq.mpr hdataset⟩

theorem hidesNothing_resource {resource : Resource}
    (hfirst : snapshot.resources.find? (·.id == resource.id) = some resource) :
    HidesNothing isDate isUrl storage workspaceId snapshot .resource (resourceScope resource)
      (OfResource resource) := by
  refine (hidesNothing_iff rfl (by decide)).mpr fun entity found hinside hreports => ?_
  cases hexists : snapshot.workspaceExists with
  | false => exact absurd hreports (not_reports_missing hexists found entity)
  | true =>
    rw [selectScope_workspace snapshot rfl, if_pos hexists, wholeSelection] at hreports
    apply Reports.mem
    rw [selectScope_resource hexists hfirst]
    refine hreports.mono ?_ ?_ ?_ (fun _ _ h => h) hinside
    · rintro r - rfl
      refine ⟨List.mem_singleton_self r, ownRevisions_filter ?_, find_filter_same⟩
      intro v hv
      exact (List.mem_filter.mp hv).2
    · intro r hr hend
      refine List.mem_filter.mpr ⟨hr, ?_⟩
      rcases hend with hsource | htarget
      · simp [hsource]
      · simp [htarget]
    · exact fun t ht hsubject => List.mem_filter.mpr ⟨ht, decide_eq_true hsubject⟩

end Narrower

/-! ## What a run over a dataset hides -/

section Hidden

variable {isDate isUrl : JsString → Bool} {storage : BlobStorage} {workspaceId : JsString}
  {snapshot : Snapshot} {found : VerificationIssue}

def scopeMismatch (resource : Resource) (revision : Revision) : VerificationIssue :=
  graphIssue resource "REVISION_SCOPE_MISMATCH"
    (js "Revision " ++ revision.id ++ js " crosses resource scope.")

def mismatchCode : JsString := js "REVISION_SCOPE_MISMATCH"

/-- No issue is about a revision that crosses the scope of its resource. -/
def Plain (issues : List VerificationIssue) : Prop := ∀ found ∈ issues, found.code ≠ mismatchCode

theorem plain_nil : Plain [] := fun _ h => absurd h List.not_mem_nil

theorem plain_singleton (h : found.code ≠ mismatchCode) : Plain [found] := by
  intro found' hmem
  rwa [List.mem_singleton.mp hmem]

theorem plain_if {p : Prop} [Decidable p] (h : found.code ≠ mismatchCode) :
    Plain (if p then [found] else []) := by
  split
  · exact plain_singleton h
  · exact plain_nil

theorem Plain.append {issues issues' : List VerificationIssue} (h : Plain issues)
    (h' : Plain issues') : Plain (issues ++ issues') := by
  intro found hmem
  rcases List.mem_append.mp hmem with hleft | hright
  · exact h found hleft
  · exact h' found hright

theorem Plain.flatMap {α : Type} {rows : List α} {check : α → List VerificationIssue}
    (h : ∀ row ∈ rows, Plain (check row)) : Plain (rows.flatMap check) := by
  intro found hmem
  obtain ⟨row, hrow, hfound⟩ := List.mem_flatMap.mp hmem
  exact h row hrow found hfound

theorem plain_datasetIssues (packages : List SchemaPackageRow) (dataset : Dataset) :
    Plain (datasetIssues packages dataset) := by
  unfold datasetIssues
  split
  · exact plain_singleton (by simp only [issue]; decide)
  · split
    · exact plain_singleton (by simp only [issue]; decide)
    · exact plain_nil

theorem plain_packageIssues (revision : Revision) (dataset : Option Dataset)
    (package : SchemaPackageRow) : Plain (packageIssues revision dataset package) := by
  refine Plain.append (.append ?_ (plain_if ?_)) ?_
  · cases dataset with
    | none => exact plain_nil
    | some dataset => exact plain_if (by simp only [issue, VerificationIssue.comparing]; decide)
  · simp only [issue, VerificationIssue.comparing]
    decide
  · split
    · exact plain_singleton (by simp only [issue]; decide)
    · exact plain_nil

theorem plain_verifySchema (resource : Resource) (revision : Revision) (dataset : Option Dataset)
    (packages : List SchemaPackageRow) :
    Plain (verifySchema isDate isUrl resource revision dataset packages) := by
  unfold verifySchema
  split
  · exact plain_singleton (by simp only [issue]; decide)
  · refine (plain_packageIssues _ _ _).append ?_
    intro found hmem
    obtain ⟨schemaFound, -, rfl⟩ := List.mem_map.mp hmem
    simp only [schemaIssue]
    cases schemaFound.code <;> decide

theorem plain_verifyBlob (blob : ObjectIngest.BlobObject) :
    Plain (verifyBlob storage blob .metadata).issues := by
  unfold verifyBlob
  split
  · exact plain_singleton (show js "BLOB_MISSING_OR_INACCESSIBLE" ≠ mismatchCode by decide)
  · refine Plain.append (.append (plain_if ?_) (plain_if ?_)) ?_
    · exact show js "STORAGE_KEY_MISMATCH" ≠ mismatchCode by decide
    · exact show js "BLOB_LENGTH_MISMATCH" ≠ mismatchCode by decide
    · split
      · exact plain_nil
      · exact plain_if (show js "STORED_HASH_METADATA_MISMATCH" ≠ mismatchCode by decide)

theorem plain_referenceIssues (reference : RevisionBlobReference) :
    Plain (referenceIssues snapshot reference) := by
  unfold referenceIssues
  split
  · exact plain_nil
  · exact plain_singleton (show js "REVISION_BLOB_TARGET_MISSING" ≠ mismatchCode by decide)

theorem plain_verifyRelation (relation : Relation) : Plain (verifyRelation relation snapshot) := by
  have hend : ∀ side kind id, Plain (endpointIssues snapshot relation side kind id) := by
    intro side kind id
    unfold endpointIssues
    split
    · exact plain_nil
    · exact plain_singleton (show js "RELATION_ENDPOINT_MISSING" ≠ mismatchCode by decide)
  exact (hend _ _ _).append (hend _ _ _)

theorem plain_verifyTombstone (tombstone : Tombstone) :
    Plain (verifyTombstone tombstone snapshot) := by
  refine Plain.append (.append (.append (plain_if ?_) (plain_if ?_)) (plain_if ?_)) ?_
  · exact show js "TOMBSTONE_SUBJECT_MISSING" ≠ mismatchCode by decide
  · exact show js "RETENTION_WINDOW_INVALID" ≠ mismatchCode by decide
  · exact show js "TOMBSTONE_PRIOR_REVISION_INVALID" ≠ mismatchCode by decide
  · split
    · exact plain_singleton (show js "TOMBSTONE_STATUS_MISMATCH" ≠ mismatchCode by decide)
    · exact plain_nil

/-- A mismatch that the graph of a resource reports is of one of its revisions. -/
theorem mismatch_of_graph {resource : Resource} {own revisions : List Revision}
    {numbers : List Nat} (hcode : found.code = mismatchCode)
    (h : found ∈ revisionsGraphIssues resource own numbers revisions) :
    ∃ revision ∈ revisions, found = scopeMismatch resource revision := by
  induction revisions generalizing numbers with
  | nil => exact absurd h List.not_mem_nil
  | cons revision revisions ih =>
    rcases List.mem_append.mp h with hfirst | hrest
    · refine ⟨revision, List.mem_cons_self, ?_⟩
      rw [revisionGraphIssues, List.append_assoc, List.append_assoc] at hfirst
      rcases List.mem_append.mp hfirst with hscope | hother
      · split at hscope
        · exact List.mem_singleton.mp hscope
        · cases hscope
      · refine absurd hcode ((Plain.append ?_ (.append ?_ ?_) : Plain _) found hother)
        · exact plain_if (show js "REVISION_NUMBER_DUPLICATE" ≠ mismatchCode by decide)
        · exact plain_if (show js "FIRST_REVISION_HAS_PARENT" ≠ mismatchCode by decide)
        · split
          · split
            · exact plain_singleton (show js "REVISION_PARENT_MISSING" ≠ mismatchCode by decide)
            · exact plain_if (show js "REVISION_PARENT_ORDER_INVALID" ≠ mismatchCode by decide)
          · exact plain_nil
    · obtain ⟨other, hmem, hother⟩ := ih hrest
      exact ⟨other, List.mem_cons_of_mem _ hmem, hother⟩

theorem mismatch_of_resource {resource : Resource} {selected : SelectedScope}
    {packages : List SchemaPackageRow} (hcode : found.code = mismatchCode)
    (h : found ∈ resourceIssues isDate isUrl selected packages resource) :
    ∃ revision ∈ ownRevisions resource selected.revisions,
      found = scopeMismatch resource revision := by
  simp only [resourceIssues, verifyResourceGraph, List.append_assoc] at h
  rcases List.mem_append.mp h with hpointer | h
  · exact absurd hcode (plain_if (show js "CURRENT_REVISION_MISSING" ≠ mismatchCode by decide)
      found hpointer)
  rcases List.mem_append.mp h with hgraph | h
  · exact mismatch_of_graph hcode hgraph
  · refine absurd hcode ((Plain.append (.flatMap ?_) (plain_if ?_) : Plain _) found h)
    · exact fun revision _ => plain_verifySchema _ _ _ _
    · exact show js "ORPHAN_RESOURCE_WITHOUT_REVISION" ≠ mismatchCode by decide

/-- A run below the level of the workspace reports a mismatch for a revision that it selects. -/
theorem mismatch_of_run {selected : SelectedScope} {level : StructuralLevel}
    (hlevel : level ≠ .workspace) (hscope : selected.scopeIssues = [])
    (hcode : found.code = mismatchCode)
    (h : found ∈ structuralIssues isDate isUrl storage snapshot selected level workspaceId) :
    ∃ resource ∈ selected.resources, ∃ revision ∈ ownRevisions resource selected.revisions,
      found = scopeMismatch resource revision := by
  simp only [structuralIssues, hscope, List.nil_append, if_neg hlevel, List.append_nil,
    List.append_assoc] at h
  rcases List.mem_append.mp h with hdataset | h
  · exact absurd hcode (Plain.flatMap (fun _ _ => plain_datasetIssues _ _) found hdataset)
  rcases List.mem_append.mp h with hresource | h
  · obtain ⟨resource, hmem, hfound⟩ := List.mem_flatMap.mp hresource
    exact ⟨resource, hmem, mismatch_of_resource hcode hfound⟩
  · refine absurd hcode ((Plain.append (.flatMap ?_)
      (.append (.flatMap ?_) (.append (.flatMap ?_) (.flatMap ?_))) : Plain _) found h)
    · exact fun reference _ => plain_referenceIssues reference
    · exact fun blob _ => plain_verifyBlob blob
    · exact fun relation _ => plain_verifyRelation relation
    · exact fun tombstone _ => plain_verifyTombstone tombstone

theorem mem_scopeMismatch {resource : Resource} {own revisions : List Revision}
    {revision : Revision} {numbers : List Nat} (hmem : revision ∈ revisions)
    (hcrosses : revision.datasetId ≠ resource.datasetId) :
    scopeMismatch resource revision ∈ revisionsGraphIssues resource own numbers revisions := by
  induction revisions generalizing numbers with
  | nil => cases hmem
  | cons first revisions ih =>
    rcases List.mem_cons.mp hmem with rfl | hrest
    · apply List.mem_append_left
      simp [revisionGraphIssues, hcrosses, scopeMismatch]
    · exact List.mem_append_right _ (ih hrest)

theorem placed_of_hidesNothing {dataset : Dataset} (hmem : dataset ∈ snapshot.datasets)
    (hids : (snapshot.revisions.map (·.id)).Nodup)
    (h : HidesNothing isDate isUrl storage workspaceId snapshot .dataset (datasetScope dataset)
      (OfDataset dataset)) : Placed snapshot dataset := by
  cases hexists : snapshot.workspaceExists with
  | false => exact .inl hexists
  | true =>
    refine .inr fun resource hresource hdataset revision hown => ?_
    by_contra hcrosses
    rw [← hdataset] at hcrosses
    have hreports : Reports isDate isUrl snapshot
        (selectScope snapshot (workspaceScope workspaceId)) (scopeMismatch resource revision)
        (.resource resource) := by
      rw [selectScope_workspace snapshot rfl, if_pos hexists, wholeSelection]
      exact ⟨hresource, List.mem_append_left _ (List.mem_append_right _
        (mem_scopeMismatch hown hcrosses))⟩
    obtain ⟨first, hfirst⟩ : ∃ first, snapshot.datasets.find? (·.id == dataset.id) = some first :=
      Option.isSome_iff_exists.mp (List.find?_isSome.mpr ⟨dataset, hmem, by simp⟩)
    have hfound := (hidesNothing_iff rfl (by decide)).mp h (.resource resource) _ hdataset hreports
    rw [selectScope_dataset hexists hfirst] at hfound
    obtain ⟨resource', -, revision', hown', hsame⟩ :=
      mismatch_of_run (by decide) rfl (by rfl) hfound
    -- The message has the id, so the run over the dataset has selected the very revision.
    have hid : revision.id = revision'.id := by
      have hmessage := congrArg VerificationIssue.message hsame
      simpa [scopeMismatch, graphIssue] using hmessage
    obtain ⟨hselected, hplace⟩ := List.mem_filter.mp (List.mem_of_mem_filter hown')
    rw [← List.inj_on_of_nodup_map hids (List.mem_of_mem_filter hown) hselected hid] at hplace
    exact hcrosses ((beq_iff_eq.mp hplace).trans hdataset.symm)

end Hidden

/-- A run over a dataset hides no report about the dataset exactly when the revisions of its
resources are in it, and a run over a resource hides none. -/
theorem narrowing_hides_nothing (isDate isUrl : JsString → Bool) (storage : BlobStorage)
    (workspaceId : JsString) (snapshot : Snapshot) :
    (∀ dataset ∈ snapshot.datasets,
      (Placed snapshot dataset → HidesNothing isDate isUrl storage workspaceId snapshot .dataset
        (datasetScope dataset) (OfDataset dataset)) ∧
      ((snapshot.revisions.map (·.id)).Nodup →
        HidesNothing isDate isUrl storage workspaceId snapshot .dataset (datasetScope dataset)
          (OfDataset dataset) → Placed snapshot dataset)) ∧
    ∀ resource, snapshot.resources.find? (·.id == resource.id) = some resource →
      HidesNothing isDate isUrl storage workspaceId snapshot .resource (resourceScope resource)
        (OfResource resource) :=
  ⟨fun _ hmem => ⟨hidesNothing_dataset hmem, placed_of_hidesNothing hmem⟩,
    fun _ hfirst => hidesNothing_resource hfirst⟩

section Example

/-- A resource of one dataset, with its revision in another. -/
def placedIn (dataset : String) : Snapshot where
  workspaceExists := true
  datasets := [⟨js "dataset", js "schema"⟩, ⟨js "other", js "schema"⟩]
  resources := [pointedAt (some (js "a"))]
  revisions := [{ numbered "a" 1 none with datasetId := js dataset }]
  blobs := []
  revisionBlobs := []
  relations := []
  tombstones := []
  auditEvents := []
  schemaPackages := []

def noStorage : BlobStorage where
  head _ := .error none
  openReadStream _ := ([], none)

theorem narrowing_hides_nothing_placed :
    HidesNothing (fun _ => true) (fun _ => true) noStorage (js "workspace") (placedIn "dataset")
        .dataset (datasetScope ⟨js "dataset", js "schema"⟩)
        (OfDataset ⟨js "dataset", js "schema"⟩) ∧
      HidesNothing (fun _ => true) (fun _ => true) noStorage (js "workspace") (placedIn "other")
        .resource (resourceScope (pointedAt (some (js "a"))))
        (OfResource (pointedAt (some (js "a")))) := by
  have hplaced := narrowing_hides_nothing (fun _ => true) (fun _ => true) noStorage
    (js "workspace") (placedIn "dataset")
  have hstray := narrowing_hides_nothing (fun _ => true) (fun _ => true) noStorage
    (js "workspace") (placedIn "other")
  refine ⟨(hplaced.1 _ List.mem_cons_self).1 (.inr (by decide)), hstray.2 _ rfl⟩

/-- The workspace run reports that the revision crosses the scope of its resource, the run over
the dataset of the resource does not. -/
theorem stray_revision_hidden :
    ¬ HidesNothing (fun _ => true) (fun _ => true) noStorage (js "workspace") (placedIn "other")
      .dataset (datasetScope ⟨js "dataset", js "schema"⟩)
      (OfDataset ⟨js "dataset", js "schema"⟩) := by
  intro h
  obtain ⟨outcome, hrun, hissues⟩ := h ⟨[], [], []⟩
  have hfound := hissues (.resource (pointedAt (some (js "a"))))
    (scopeMismatch (pointedAt (some (js "a"))) (numbered "a" 1 none)) rfl
    ⟨List.mem_singleton_self _, by decide⟩
  cases hrun
  revert hfound
  decide

end Example

end TrustCore.ScopeNarrowing
