import TrustCore.ImportActions

/-!
# The id of an import plan

The id of a plan leaves out what the target decides, the dispositions: planning into an empty
workspace gives the same id. Planning into another one throws where that does, or where the inventory
is asked for a record by the name of a method that every object inherits.
-/

namespace TrustCore.ImportPlan

open TrustCore.Utf TrustCore.Json TrustCore.Dynamic TrustCore.ArchiveFormat
open TrustCore.ImportActions TrustCore.ImportReferences

section Blank

variable {localeLe : JsString → JsString → Bool} {request : ArchiveImportRequest}
  {kind : ArchiveRecordKind}

/-- The same request on a workspace without content. -/
def blank (request : ArchiveImportRequest) : ArchiveImportRequest :=
  { request with target := ⟨request.target.workspaceId, fun _ => none, []⟩ }

/-- The id of the plan of a request; `none` is a thrown error. -/
def importPlanId (localeLe : JsString → JsString → Bool) (request : ArchiveImportRequest) :
    Option JsString := (planArchiveImport localeLe (blank request)).map ArchiveImportPlan.planId

/-- An action without its place and its disposition. -/
def erase (a : ArchiveImportAction) : ArchiveImportAction :=
  { a with index := 0, disposition := .insert }

/-- The disposition of every record can be decided. -/
def Decides (request : ArchiveImportRequest) : Prop :=
  ∀ kind, ∀ r ∈ transformed request kind, ∀ id, recordId r kind = some id →
    ∃ disposition, dispositionOf request.mode kind r (request.target.find kind id) = some disposition

theorem planRecord_blank {pair : ArchiveRecord × ArchiveRecord}
    {planned : ArchiveImportAction × List ArchiveIssue}
    (h : planRecord request kind pair = some planned) :
    ∃ planned', planRecord (blank request) kind pair = some planned' ∧
      erase planned'.1 = erase planned.1 := by
  rw [planRecord] at h
  obtain ⟨sourceId, hsource, h⟩ := Option.bind_eq_some_iff.mp h
  obtain ⟨transformedId, hid, h⟩ := Option.bind_eq_some_iff.mp h
  obtain ⟨disposition, -, h⟩ := Option.bind_eq_some_iff.mp h
  cases h
  rw [planRecord, hsource, hid]
  exact ⟨_, rfl, rfl⟩

theorem planRecord_of_blank {pair : ArchiveRecord × ArchiveRecord}
    {planned : ArchiveImportAction × List ArchiveIssue}
    (h : planRecord (blank request) kind pair = some planned)
    (hdecides : ∀ id, recordId pair.2 kind = some id →
      ∃ disposition, dispositionOf request.mode kind pair.2 (request.target.find kind id) =
        some disposition) :
    ∃ planned', planRecord request kind pair = some planned' ∧
      erase planned'.1 = erase planned.1 := by
  rw [planRecord] at h
  obtain ⟨sourceId, hsource, h⟩ := Option.bind_eq_some_iff.mp h
  obtain ⟨transformedId, hid, h⟩ := Option.bind_eq_some_iff.mp h
  obtain ⟨disposition, -, h⟩ := Option.bind_eq_some_iff.mp h
  cases h
  obtain ⟨decided, hdecided⟩ := hdecides transformedId hid
  rw [planRecord, hsource, hid]
  simp only [Option.bind_eq_bind, Option.bind_some, hdecided]
  exact ⟨_, rfl, rfl⟩

theorem planBytes_agree (request' : ArchiveImportRequest) {r : ArchiveRecord}
    {planned : Option ArchiveImportAction} (h : planBytes request r = some planned) :
    ∃ planned', planBytes request' r = some planned' ∧ planned'.map erase = planned.map erase := by
  rw [planBytes] at h ⊢
  split at h
  · obtain ⟨blobId, hid, rfl⟩ := Option.map_eq_some_iff.mp h
    rw [hid]
    exact ⟨_, rfl, rfl⟩
  · cases h
    exact ⟨none, rfl, rfl⟩

/-- Two functions that agree up to `e` agree so on lists. -/
theorem mapM_agree {α β γ : Type} {f g : α → Option β} {e : β → γ} {xs : List α} {ys : List β}
    (hfg : ∀ x ∈ xs, ∀ y, f x = some y → ∃ y', g x = some y' ∧ e y' = e y)
    (h : xs.mapM f = some ys) : ∃ ys', xs.mapM g = some ys' ∧ ys'.map e = ys.map e := by
  induction xs generalizing ys with
  | nil =>
    cases h
    exact ⟨[], rfl, rfl⟩
  | cons x xs ih =>
    rw [List.mapM_cons] at h
    obtain ⟨y, hy, h⟩ := Option.bind_eq_some_iff.mp h
    obtain ⟨ys, hys, h⟩ := Option.bind_eq_some_iff.mp h
    cases h
    obtain ⟨y', hy', he⟩ := hfg x List.mem_cons_self y hy
    obtain ⟨ys', hys', hes⟩ := ih (fun x hx => hfg x (List.mem_cons_of_mem _ hx)) hys
    refine ⟨y' :: ys', ?_, by rw [List.map_cons, List.map_cons, he, hes]⟩
    rw [List.mapM_cons, hy', hys']
    rfl

/-- So do they on lists of lists. -/
theorem planRecords_agree (request request' : ArchiveImportRequest)
    {planned : List (ArchiveImportAction × List ArchiveIssue)}
    (hsource : request'.archive = request.archive) (htarget : transformed request' = transformed request)
    (hagree : ∀ kind, ∀ pair ∈ (request.archive.verification.records kind).zip (transformed request kind),
      ∀ p, planRecord request kind pair = some p →
        ∃ p', planRecord request' kind pair = some p' ∧ erase p'.1 = erase p.1)
    (h : planRecords request = some planned) :
    ∃ planned', planRecords request' = some planned' ∧
      (planned'.map Prod.fst).map erase = (planned.map Prod.fst).map erase := by
  obtain ⟨groups, hgroups, rfl⟩ := Option.map_eq_some_iff.mp h
  obtain ⟨groups', hgroups', he⟩ := mapM_agree (e := List.map fun p => erase p.1)
    (g := fun kind => ((request'.archive.verification.records kind).zip
      (transformed request' kind)).mapM (planRecord request' kind)) (fun kind _ group hgroup => by
        rw [hsource, htarget]
        exact mapM_agree (hagree kind) hgroup) hgroups
  refine ⟨groups'.flatten, by rw [planRecords, hgroups']; rfl, ?_⟩
  rw [List.map_map, List.map_map, List.map_flatten, List.map_flatten]
  exact congrArg List.flatten he

theorem bytes_agree {bytes bytes' : List (Option ArchiveImportAction)}
    (h : bytes'.map (Option.map erase) = bytes.map (Option.map erase)) :
    bytes'.reduceOption.map erase = bytes.reduceOption.map erase := by
  have hmap : ∀ l : List (Option ArchiveImportAction),
      l.reduceOption.map erase = (l.map (Option.map erase)).reduceOption := by
    intro l
    induction l with
    | nil => rfl
    | cons a l ih =>
      cases a with
      | none =>
        rw [List.map_cons, Option.map_none, List.reduceOption_cons_of_none,
          List.reduceOption_cons_of_none, ih]
      | some a =>
        rw [List.map_cons, Option.map_some, List.reduceOption_cons_of_some,
          List.reduceOption_cons_of_some, List.map_cons, ih]
  rw [hmap, hmap, h]

/-- The actions in the order of their plan. -/
def sortedActions (localeLe : JsString → JsString → Bool)
    (planned : List (ArchiveImportAction × List ArchiveIssue))
    (bytes : List (Option ArchiveImportAction)) : List ArchiveImportAction :=
  (planned.map Prod.fst ++ bytes.reduceOption).insertionSort
    fun a b => actionLe localeLe a b = true

/-- The order of the actions does not look at what is erased. -/
theorem erase_sortedActions {planned planned' : List (ArchiveImportAction × List ArchiveIssue)}
    {bytes bytes' : List (Option ArchiveImportAction)}
    (hplanned : (planned'.map Prod.fst).map erase = (planned.map Prod.fst).map erase)
    (hbytes : bytes'.reduceOption.map erase = bytes.reduceOption.map erase) :
    (sortedActions localeLe planned' bytes').map erase =
      (sortedActions localeLe planned bytes).map erase := by
  have hsort : ∀ l : List ArchiveImportAction,
      (l.insertionSort fun a b => actionLe localeLe a b = true).map erase =
        (l.map erase).insertionSort fun a b => actionLe localeLe a b = true := fun l =>
    List.map_insertionSort _ _ erase l fun _ _ _ _ => Iff.rfl
  rw [sortedActions, sortedActions, hsort, hsort, List.map_append, List.map_append, hplanned, hbytes]

/-- Nor does the id. -/
theorem planId_agree {manifest : TrustArchiveManifest} {s t : JsString} {mode : ArchiveImportMode}
    {conflictMode : ArchiveConflictMode} {actions actions' : List ArchiveImportAction}
    (h : actions'.map erase = actions.map erase) :
    calculateArchiveImportPlanId manifest s t mode conflictMode actions' =
      calculateArchiveImportPlanId manifest s t mode conflictMode actions := by
  have hidentities : ∀ l : List ArchiveImportAction,
      l.mapM actionIdentity = (l.map erase).mapM actionIdentity := by
    intro l
    induction l with
    | nil => rfl
    | cons a l ih =>
      rw [List.map_cons, List.mapM_cons, List.mapM_cons, ih]
      rfl
  rw [calculateArchiveImportPlanId, calculateArchiveImportPlanId, hidentities, h, ← hidentities]

/-- What a plan is made of. -/
structure Parts (localeLe : JsString → JsString → Bool) (request : ArchiveImportRequest)
    (planned : List (ArchiveImportAction × List ArchiveIssue))
    (bytes : List (Option ArchiveImportAction)) (graphIssues : List ArchiveIssue)
    (plan : ArchiveImportPlan) : Prop where
  graph : validateGraph (transformed request) (mappedWorkspaceId request) = some graphIssues
  records : planRecords request = some planned
  blobBytes : (transformed request .blobs).mapM (planBytes request) = some bytes
  planId : calculateArchiveImportPlanId request.archive.manifest request.archive.manifest.workspaceId
    (mappedWorkspaceId request) request.mode request.conflictMode
    (sortedActions localeLe planned bytes) = some plan.planId
  archiveExportId : plan.archiveExportId = request.archive.manifest.exportId
  sourceWorkspaceId : plan.sourceWorkspaceId = request.archive.manifest.workspaceId
  targetWorkspaceId : plan.targetWorkspaceId = mappedWorkspaceId request
  issues : plan.issues = requestIssues request ++ graphIssues ++
    validateRetentionAssignments (transformed request) ++
    validateSchemaConflicts (transformed request) (schemaInventory request.target) ++
    planned.flatMap Prod.snd
  actions : ∃ blocked, plan.actions = indexActions blocked (sortedActions localeLe planned bytes)

theorem erase_indexActions (blocked : Bool) (actions : List ArchiveImportAction) :
    (indexActions blocked actions).map erase = actions.map erase :=
  map_indexActions (fun _ _ _ => rfl) blocked actions

theorem planArchiveImport_parts {plan : ArchiveImportPlan}
    (h : planArchiveImport localeLe request = some plan) :
    ∃ planned bytes graphIssues, Parts localeLe request planned bytes graphIssues plan := by
  rw [planArchiveImport] at h
  obtain ⟨graphIssues, hgraph, h⟩ := Option.bind_eq_some_iff.mp h
  obtain ⟨planned, hplanned, h⟩ := Option.bind_eq_some_iff.mp h
  obtain ⟨bytes, hbytes, h⟩ := Option.bind_eq_some_iff.mp h
  obtain ⟨planId, hid, h⟩ := Option.bind_eq_some_iff.mp h
  cases h
  refine ⟨planned, bytes, graphIssues, hgraph, hplanned, hbytes, ?_, rfl, rfl, rfl, rfl, _, rfl⟩
  rw [← hid]
  exact (planId_agree (erase_indexActions _ _)).symm

theorem exists_planArchiveImport (request : ArchiveImportRequest)
    {planned : List (ArchiveImportAction × List ArchiveIssue)}
    {bytes : List (Option ArchiveImportAction)} {graphIssues : List ArchiveIssue}
    {planId : JsString}
    (hgraph : validateGraph (transformed request) (mappedWorkspaceId request) = some graphIssues)
    (hplanned : planRecords request = some planned)
    (hbytes : (transformed request .blobs).mapM (planBytes request) = some bytes)
    (hid : calculateArchiveImportPlanId request.archive.manifest
      request.archive.manifest.workspaceId (mappedWorkspaceId request) request.mode
      request.conflictMode (sortedActions localeLe planned bytes) = some planId) :
    ∃ plan, planArchiveImport localeLe request = some plan ∧ plan.planId = planId := by
  have hindexed : ∀ blocked, calculateArchiveImportPlanId request.archive.manifest
      request.archive.manifest.workspaceId (mappedWorkspaceId request) request.mode
      request.conflictMode (indexActions blocked (sortedActions localeLe planned bytes)) =
        some planId := fun blocked => (planId_agree (erase_indexActions blocked _)).trans hid
  unfold sortedActions at hindexed
  rw [planArchiveImport, hgraph, hplanned, hbytes]
  simp only [Option.bind_eq_bind, Option.bind_some, hindexed]
  exact ⟨_, rfl, rfl⟩

/-- The id of a plan is the one that planning into an empty workspace gives. -/
theorem importPlanId_eq {plan : ArchiveImportPlan}
    (h : planArchiveImport localeLe request = some plan) :
    importPlanId localeLe request = some plan.planId := by
  obtain ⟨planned, bytes, graphIssues, hparts⟩ := planArchiveImport_parts h
  obtain ⟨planned', hplanned', herased⟩ := planRecords_agree request (blank request) rfl rfl
    (fun kind pair _ p hp => planRecord_blank hp) hparts.records
  obtain ⟨bytes', hbytes', hbytesErased⟩ := mapM_agree
    (fun r _ p hp => planBytes_agree (blank request) hp) hparts.blobBytes
  obtain ⟨plan', hplan', hid⟩ := exists_planArchiveImport (blank request) hparts.graph
    hplanned' hbytes' ((planId_agree (erase_sortedActions herased (bytes_agree hbytesErased))).trans
      hparts.planId)
  rw [importPlanId, hplan', Option.map_some, hid]

/-- Planning throws only where it does so on an empty workspace, or cannot decide. -/
theorem exists_plan_of_decides {planId : JsString} (h : importPlanId localeLe request = some planId)
    (hdecides : Decides request) :
    ∃ plan, planArchiveImport localeLe request = some plan ∧ plan.planId = planId := by
  obtain ⟨plan, hplan, rfl⟩ := Option.map_eq_some_iff.mp h
  obtain ⟨planned, bytes, graphIssues, hparts⟩ := planArchiveImport_parts hplan
  obtain ⟨planned', hplanned', herased⟩ := planRecords_agree (blank request) request rfl rfl
    (fun kind pair hpair p hp => planRecord_of_blank hp
      (hdecides kind pair.2 (List.of_mem_zip hpair).2)) hparts.records
  obtain ⟨bytes', hbytes', hbytesErased⟩ := mapM_agree
    (fun r _ p hp => planBytes_agree request hp) hparts.blobBytes
  exact exists_planArchiveImport request hparts.graph hplanned' hbytes'
    ((planId_agree (erase_sortedActions herased (bytes_agree hbytesErased))).trans hparts.planId)

theorem calculate_texts {manifest : TrustArchiveManifest} {s t planId : JsString}
    {mode : ArchiveImportMode} {conflictMode : ArchiveConflictMode}
    {actions : List ArchiveImportAction}
    (h : calculateArchiveImportPlanId manifest s t mode conflictMode actions = some planId)
    {a : ArchiveImportAction} (ha : a ∈ actions) {r : ArchiveRecord} (hr : a.record = some r) :
    ∃ text, canonicalJson (.object r) = some text := by
  rw [calculateArchiveImportPlanId] at h
  obtain ⟨manifestText, -, h⟩ := Option.bind_eq_some_iff.mp h
  obtain ⟨identities, hidentities, -⟩ := Option.bind_eq_some_iff.mp h
  obtain ⟨identity, -, hidentity⟩ := (mem_of_forall₂ (mapM_eq_some hidentities)).1 a ha
  rw [actionIdentity, hr] at hidentity
  obtain ⟨hash, hhash, -⟩ := Option.bind_eq_some_iff.mp hidentity
  obtain ⟨text, htext, -⟩ := Option.map_eq_some_iff.mp hhash
  exact ⟨text, htext⟩

/-- Every rewritten record of a plan with an id has a canonical text. -/
theorem exists_text {planId : JsString} (h : importPlanId localeLe request = some planId)
    {r : ArchiveRecord} (hr : r ∈ transformed request kind) :
    ∃ text, canonicalJson (.object r) = some text := by
  obtain ⟨plan, hplan, rfl⟩ := Option.map_eq_some_iff.mp h
  obtain ⟨planned, bytes, graphIssues, hparts⟩ := planArchiveImport_parts hplan
  obtain ⟨groups, hgroups, rfl⟩ := Option.map_eq_some_iff.mp hparts.records
  obtain ⟨group, hgroup, hzip⟩ :=
    (mem_of_forall₂ (mapM_eq_some hgroups)).1 kind (mem_archiveRecordKinds kind)
  obtain ⟨pair, hpair, rfl⟩ := mem_zip_transformed hr
  obtain ⟨p, hp, hplanRecord⟩ := (mem_of_forall₂ (mapM_eq_some hzip)).1 pair hpair
  have hsorted : p.1 ∈ sortedActions localeLe groups.flatten bytes := by
    rw [sortedActions, List.mem_insertionSort]
    exact List.mem_append_left _ (List.mem_map_of_mem (List.mem_flatten.mpr ⟨group, hgroup, hp⟩))
  exact calculate_texts hparts.planId hsorted (planRecord_action hplanRecord).2

/-- Some record is looked up by the name of a method that every object inherits. -/
def LooksUpMethod (request : ArchiveImportRequest) : Prop :=
  ∃ kind, ∃ r ∈ transformed request kind, ∃ id, recordId r kind = some id ∧
    request.target.find kind id = .inherited ∧
      ¬ (kind = .workspaces ∧ request.mode = .mappedWorkspace)

theorem decides_iff (h : ∀ kind, ∀ r ∈ transformed request kind,
      ∃ text, canonicalJson (.object r) = some text)
    (htarget : ∀ kind id r, request.target.find kind id = .record r →
      ∃ text, canonicalJson (.object r) = some text) :
    Decides request ↔ ¬ LooksUpMethod request := by
  have hdisposition : ∀ kind, ∀ r ∈ transformed request kind, ∀ id,
      (∃ disposition, dispositionOf request.mode kind r (request.target.find kind id) =
        some disposition) ↔ ¬ (request.target.find kind id = .inherited ∧
          ¬ (kind = .workspaces ∧ request.mode = .mappedWorkspace)) := by
    intro kind r hr id
    obtain ⟨text, htext⟩ := h kind r hr
    cases hfind : request.target.find kind id with
    | absent => simp [dispositionOf]
    | inherited => simp [dispositionOf]
    | record existing =>
      obtain ⟨old, hold⟩ := htarget kind id existing hfind
      simp only [dispositionOf, hold, htext, reduceCtorEq, false_and, not_false_eq_true, iff_true]
      split
      · exact ⟨_, rfl⟩
      · exact ⟨_, rfl⟩
  constructor
  · rintro hdecides ⟨kind, r, hr, id, hid, hmethod⟩
    exact (hdisposition kind r hr id).mp (hdecides kind r hr id hid) hmethod
  · intro hnone kind r hr id hid
    exact (hdisposition kind r hr id).mpr fun hmethod => hnone ⟨kind, r, hr, id, hid, hmethod⟩

/-- A plan decides about every record. -/
theorem decides_of_plan {plan : ArchiveImportPlan}
    (h : planArchiveImport localeLe request = some plan) : Decides request := by
  obtain ⟨planned, bytes, graphIssues, hparts⟩ := planArchiveImport_parts h
  obtain ⟨groups, hgroups, -⟩ := Option.map_eq_some_iff.mp hparts.records
  intro kind r hr id hid
  obtain ⟨group, -, hzip⟩ :=
    (mem_of_forall₂ (mapM_eq_some hgroups)).1 kind (mem_archiveRecordKinds kind)
  obtain ⟨pair, hpair, rfl⟩ := mem_zip_transformed hr
  obtain ⟨p, -, hp⟩ := (mem_of_forall₂ (mapM_eq_some hzip)).1 pair hpair
  rw [planRecord] at hp
  obtain ⟨sourceId, -, hp⟩ := Option.bind_eq_some_iff.mp hp
  obtain ⟨transformedId, htransformed, hp⟩ := Option.bind_eq_some_iff.mp hp
  obtain ⟨disposition, hdisposition, -⟩ := Option.bind_eq_some_iff.mp hp
  rw [hid, Option.some.injEq] at htransformed
  exact ⟨disposition, htransformed ▸ hdisposition⟩

/-- When planning does not throw, for an inventory of JSON data. -/
theorem exists_plan_iff (htarget : ∀ kind id r, request.target.find kind id = .record r →
      ∃ text, canonicalJson (.object r) = some text) :
    (∃ plan, planArchiveImport localeLe request = some plan) ↔
      (∃ planId, importPlanId localeLe request = some planId) ∧ ¬ LooksUpMethod request := by
  constructor
  · rintro ⟨plan, hplan⟩
    have hid := importPlanId_eq hplan
    exact ⟨⟨_, hid⟩, (decides_iff (fun _ _ => exists_text hid) htarget).mp (decides_of_plan hplan)⟩
  · rintro ⟨⟨planId, hid⟩, hnone⟩
    obtain ⟨plan, hplan, -⟩ := exists_plan_of_decides hid
      ((decides_iff (fun _ _ => exists_text hid) htarget).mpr hnone)
    exact ⟨plan, hplan⟩

end Blank

end TrustCore.ImportPlan
