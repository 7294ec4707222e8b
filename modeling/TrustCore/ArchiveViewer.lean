import TrustCore.ArchiveContainer

/-!
# The archive viewer

`projectArchive` makes the model of the viewer from an archive that was read. `none` is a thrown
error: the refusal of an archive that is not valid, or a `TypeError` of a record that is no object.
-/

namespace TrustCore.ArchiveViewer

open TrustCore.Utf TrustCore.Json TrustCore.Dynamic TrustCore.ArchiveFormat TrustCore.ArchiveVerify
open TrustCore.ArchiveAssemble TrustCore.ArchiveContainer

structure ViewerItem where
  id : JsString
  name : JsString
  deriving DecidableEq

structure ViewerResource where
  id : JsString
  name : JsString
  type : JsString
  status : JsString
  revisionCount : Nat
  deleted : Bool
  deriving DecidableEq

structure ArchiveViewerModel where
  exportId : JsValue
  workspace : Option ViewerItem
  datasets : List ViewerItem
  resources : List ViewerResource
  counts : JsValue
  eventCount : JsValue
  firstEventHash : JsValue
  lastEventHash : JsValue

def string (value : JsValue) (fallback : JsString) : JsString := (asString value).getD fallback

def label (value : JsValue) : Option JsString := do
  let name ← property value (js "name")
  let title ← property value (js "title")
  let id ← property value (js "id")
  return string name (string title (string id (js "Untitled")))

/-- One more of a key. -/
def increment (counts : List (JsString × Nat)) (value : JsString) : List (JsString × Nat) :=
  setMember value ((counts.lookup value).getD 0 + 1) counts

def countBy (records : List JsValue) (key : JsString) : Option (List (JsString × Nat)) := do
  let values ← records.mapM fun record => property record key
  return (values.map fun value => string value []).foldl increment []

/-- The subjects of the tombstones of resources. -/
def deletedIds (tombstones : List JsValue) : Option (List JsString) := do
  let kinds ← tombstones.mapM fun item => property item (js "subjectKind")
  let ofResources := (tombstones.zip kinds).filter fun p => strictEq p.2 (.string (js "resource"))
  ofResources.mapM fun p => do
    let subjectId ← property p.1 (js "subjectId")
    return string subjectId []

def viewerItem (item : JsValue) : Option ViewerItem := do
  let id ← property item (js "id")
  let name ← label item
  return ⟨string id [], name⟩

def viewerResource (revisionsByResource : List (JsString × Nat)) (deleted : List JsString)
    (item : JsValue) : Option ViewerResource := do
  let itemId ← property item (js "id")
  let name ← label item
  let type ← property item (js "resourceType")
  let status ← property item (js "status")
  let id := string itemId []
  return {
    id, name
    type := string type (js "Resource")
    status := string status (js "unknown")
    revisionCount := (revisionsByResource.lookup id).getD 0
    deleted := deleted.contains id }

/-- The first of the workspaces with this id. -/
def findWorkspace (workspaceId : JsValue) : List JsValue → Option (Option JsValue)
  | [] => some none
  | item :: items => do
    let id ← property item (js "id")
    if strictEq id workspaceId then return some item
    findWorkspace workspaceId items

def viewerWorkspace : Option JsValue → Option (Option ViewerItem)
  | some item => (viewerItem item).map some
  | none => some none

def projectArchive (archive : ReadArchive) : Option ArchiveViewerModel := do
  if !archive.verification.valid then none
  let records := archive.verification.records
  let revisionsByResource ← countBy (records .revisions) (js "resourceId")
  let deleted ← deletedIds (records .tombstones)
  let workspaceId ← property archive.manifest (js "workspaceId")
  let workspaceRecord ← findWorkspace workspaceId (records .workspaces)
  let exportId ← property archive.manifest (js "exportId")
  let workspace ← viewerWorkspace workspaceRecord
  let datasets ← (records .datasets).mapM viewerItem
  let resources ← (records .resources).mapM (viewerResource revisionsByResource deleted)
  let counts ← property archive.manifest (js "recordCounts")
  let lineage ← property archive.manifest (js "auditLineage")
  let eventCount ← property lineage (js "eventCount")
  let firstEventHash ← property lineage (js "firstEventHash")
  let lastEventHash ← property lineage (js "lastEventHash")
  return {
    exportId, workspace, datasets, resources, counts, eventCount, firstEventHash, lastEventHash }

section Projection

variable {records tombstones : List JsValue}

theorem lookup_increment (counts : List (JsString × Nat)) (value id : JsString) :
    ((increment counts value).lookup id).getD 0 =
      (counts.lookup id).getD 0 + if value = id then 1 else 0 := by
  rw [increment]
  split
  · rename_i heq
    rw [heq, lookup_setMember_self, Option.getD_some]
  · rename_i hne
    rw [lookup_setMember_ne _ _ (Ne.symm hne), Nat.add_zero]

theorem lookup_increments (values : List JsString) (counts : List (JsString × Nat)) (id : JsString) :
    ((values.foldl increment counts).lookup id).getD 0 =
      (counts.lookup id).getD 0 + values.count id := by
  induction values generalizing counts with
  | nil => simp
  | cons value values ih =>
    rw [List.foldl_cons, ih, lookup_increment, List.count_cons]
    simp only [beq_iff_eq]
    omega

/-- The counts are those of the texts under the key. -/
theorem lookup_countBy {key : JsString} {values : List JsValue}
    (hvalues : records.mapM (fun record => property record key) = some values)
    {counts : List (JsString × Nat)} (h : countBy records key = some counts) (id : JsString) :
    (counts.lookup id).getD 0 = (values.map fun value => string value []).count id := by
  rw [countBy, hvalues] at h
  cases h
  simpa using lookup_increments (values.map fun value => string value []) [] id

/-- What the list of resources is made from. -/
theorem resources_of_project {archive : ReadArchive} {model : ArchiveViewerModel}
    (h : projectArchive archive = some model) :
    archive.verification.valid = true ∧ ∃ counts deleted,
      countBy (archive.verification.records .revisions) (js "resourceId") = some counts ∧
      deletedIds (archive.verification.records .tombstones) = some deleted ∧
      (archive.verification.records .resources).mapM (viewerResource counts deleted) =
        some model.resources := by
  rw [projectArchive] at h
  split at h
  · cases h
  · rename_i hvalid
    obtain ⟨counts, hcounts, h⟩ := Option.bind_eq_some_iff.mp h
    obtain ⟨deleted, hdeleted, h⟩ := Option.bind_eq_some_iff.mp h
    obtain ⟨workspaceId, -, h⟩ := Option.bind_eq_some_iff.mp h
    obtain ⟨workspaceRecord, -, h⟩ := Option.bind_eq_some_iff.mp h
    obtain ⟨exportId, -, h⟩ := Option.bind_eq_some_iff.mp h
    obtain ⟨workspace, -, h⟩ := Option.bind_eq_some_iff.mp h
    obtain ⟨datasets, -, h⟩ := Option.bind_eq_some_iff.mp h
    obtain ⟨resources, hresources, h⟩ := Option.bind_eq_some_iff.mp h
    obtain ⟨recordCounts, -, h⟩ := Option.bind_eq_some_iff.mp h
    obtain ⟨lineage, -, h⟩ := Option.bind_eq_some_iff.mp h
    obtain ⟨eventCount, -, h⟩ := Option.bind_eq_some_iff.mp h
    obtain ⟨firstEventHash, -, h⟩ := Option.bind_eq_some_iff.mp h
    obtain ⟨lastEventHash, -, h⟩ := Option.bind_eq_some_iff.mp h
    cases h
    exact ⟨by simpa using hvalid, counts, deleted, hcounts, hdeleted, hresources⟩

@[simp] theorem string_string (s fallback : JsString) : string (.string s) fallback = s := rfl

theorem string_reread (v : JsValue) (fallback : JsString) :
    string (reread v) fallback = string v fallback := by
  rw [string, string, asString_reread]

variable {rs : List ArchiveRecord}

/-- The number of records with the text, of records that were read back. -/
theorem lookup_countBy_reread (hjson : ∀ r ∈ rs, isJson (.object r) = true) {key : JsString}
    {counts : List (JsString × Nat)}
    (h : countBy (rs.map fun r => reread (.object r)) key = some counts) (id : JsString) :
    (counts.lookup id).getD 0 = (rs.map fun r => string (field r key) []).count id := by
  have hvalues := column_reread hjson key
  rw [column] at hvalues
  rw [lookup_countBy hvalues h, List.map_map]
  congr 1
  apply List.map_congr_left
  intro r _
  exact string_reread _ _

theorem strictEq_reread (v : JsValue) (s : JsString) :
    strictEq (reread v) (.string s) = strictEq v (.string s) := by
  cases v <;> rfl

/-- The subjects of the tombstones of resources, of records that were read back. -/
theorem deletedIds_reread (hjson : ∀ r ∈ rs, isJson (.object r) = true) :
    deletedIds (rs.map fun r => reread (.object r)) =
      some ((rs.filter fun r => strictEq (field r (js "subjectKind")) (.string (js "resource"))).map
        fun r => string (field r (js "subjectId")) []) := by
  have hkinds := column_reread hjson (js "subjectKind")
  rw [column] at hkinds
  rw [deletedIds, hkinds, Option.bind_eq_bind, Option.bind_some, List.zip_map', List.filter_map,
    List.mapM_map]
  have hfilter : (fun p : JsValue × JsValue => strictEq p.2 (.string (js "resource"))) ∘
      (fun r => (reread (.object r), reread (field r (js "subjectKind")))) =
      fun r : ArchiveRecord => strictEq (field r (js "subjectKind")) (.string (js "resource")) := by
    funext r
    exact strictEq_reread _ _
  rw [hfilter]
  apply mapM_of_forall
  intro r hr
  rw [Function.comp_apply, property_reread (hjson r (List.mem_of_mem_filter hr)), Option.bind_eq_bind,
    Option.bind_some, string_reread]
  rfl

theorem item_of_viewerResource {counts : List (JsString × Nat)} {deleted : List JsString}
    {r : ArchiveRecord} (hjson : isJson (.object r) = true) {item : ViewerResource}
    (h : viewerResource counts deleted (reread (.object r)) = some item) :
    item.id = string (field r (js "id")) [] ∧
      item.revisionCount = (counts.lookup item.id).getD 0 ∧
      (item.deleted = true ↔ item.id ∈ deleted) := by
  rw [viewerResource, property_reread hjson] at h
  obtain ⟨itemId, hid, h⟩ := Option.bind_eq_some_iff.mp h
  cases hid
  obtain ⟨name, -, h⟩ := Option.bind_eq_some_iff.mp h
  obtain ⟨type, -, h⟩ := Option.bind_eq_some_iff.mp h
  obtain ⟨status, -, h⟩ := Option.bind_eq_some_iff.mp h
  cases h
  exact ⟨string_reread _ _, rfl, List.contains_iff_mem⟩

theorem exists_viewerItem {r : ArchiveRecord} (hjson : isJson (.object r) = true) :
    ∃ item, viewerItem (reread (.object r)) = some item := by
  rw [viewerItem, label, property_reread hjson, property_reread hjson, property_reread hjson]
  exact ⟨_, rfl⟩

theorem exists_viewerResource (counts : List (JsString × Nat)) (deleted : List JsString)
    {r : ArchiveRecord} (hjson : isJson (.object r) = true) :
    ∃ item, viewerResource counts deleted (reread (.object r)) = some item := by
  rw [viewerResource, label]
  simp only [property_reread hjson]
  exact ⟨_, rfl⟩

theorem exists_viewerWorkspace (hjson : ∀ r ∈ rs, isJson (.object r) = true) (workspaceId : JsValue) :
    ∃ record, findWorkspace workspaceId (rs.map fun r => reread (.object r)) = some record ∧
      ∃ workspace, viewerWorkspace record = some workspace := by
  induction rs with
  | nil => exact ⟨none, rfl, none, rfl⟩
  | cons r rs ih =>
    rw [List.forall_mem_cons] at hjson
    rw [List.map_cons, findWorkspace, property_reread hjson.1, Option.bind_eq_bind, Option.bind_some]
    split
    · obtain ⟨item, hitem⟩ := exists_viewerItem hjson.1
      exact ⟨_, rfl, some item, by rw [viewerWorkspace, hitem]; rfl⟩
    · exact ih hjson.2

/-- Every valid archive of an export opens. -/
theorem exists_project {archive : ReadArchive} {source : ArchiveSource} {sorted : Records}
    (hvalid : archive.verification.valid = true) (hcounts : SafeCounts source)
    (hlineage : JsonLineage source) (hmanifest : archive.manifest = reread (manifestOf source).value)
    (hjson : ∀ kind, ∀ r ∈ sorted kind, isJson (.object r) = true)
    (hrecords : ∀ kind, archive.verification.records kind =
      (sorted kind).map fun r => reread (.object r)) :
    ∃ model, projectArchive archive = some model := by
  obtain ⟨values, hvalues⟩ : ∃ values, ((sorted .revisions).map fun r => reread (.object r)).mapM
      (fun record => property record (js "resourceId")) = some values :=
    ⟨_, column_reread (hjson .revisions) _⟩
  obtain ⟨record, hrecord, workspace, hworkspace⟩ := exists_viewerWorkspace (hjson .workspaces)
    (.string source.workspaceId)
  obtain ⟨datasets, hdatasets⟩ : ∃ datasets, ((sorted .datasets).map fun r =>
      reread (.object r)).mapM viewerItem = some datasets := by
    refine exists_mapM fun v hv => ?_
    obtain ⟨r, hr, rfl⟩ := List.mem_map.mp hv
    exact exists_viewerItem (hjson _ r hr)
  have hresources : ∀ counts deleted, ∃ resources, ((sorted .resources).map fun r =>
      reread (.object r)).mapM (viewerResource counts deleted) = some resources := by
    intro counts deleted
    refine exists_mapM fun v hv => ?_
    obtain ⟨r, hr, rfl⟩ := List.mem_map.mp hv
    exact exists_viewerResource counts deleted (hjson _ r hr)
  have hfield : ∀ k, property archive.manifest k = (property (manifestOf source).value k).map reread := by
    intro k
    rw [hmanifest, property_manifest hcounts hlineage]
  have hworkspaceId : property archive.manifest (js "workspaceId") =
      some (.string source.workspaceId) := by
    rw [hfield]
    rfl
  have hauditLineage : property archive.manifest (js "auditLineage") =
      some (reread (auditLineage source).value) := by
    rw [hfield]
    rfl
  obtain ⟨exportId, hexportId⟩ : ∃ v, property archive.manifest (js "exportId") = some v := by
    rw [hfield]
    exact ⟨_, rfl⟩
  obtain ⟨counts, hrecordCounts⟩ : ∃ v, property archive.manifest (js "recordCounts") = some v := by
    rw [hfield]
    exact ⟨_, rfl⟩
  have hbounds : ∀ k, ∃ v, property (reread (auditLineage source).value) k = some v := fun k => by
    rw [property_lineage hcounts hlineage]
    exact ⟨_, rfl⟩
  obtain ⟨eventCount, heventCount⟩ := hbounds (js "eventCount")
  obtain ⟨first, hfirst⟩ := hbounds (js "firstEventHash")
  obtain ⟨last, hlast⟩ := hbounds (js "lastEventHash")
  simp only [projectArchive, countBy, hvalid, Bool.not_true, Bool.false_eq_true, if_false, hrecords,
    hvalues, deletedIds_reread (hjson .tombstones), hworkspaceId, hrecord, hexportId,
    hworkspace, hdatasets, hrecordCounts, hauditLineage, heventCount, hfirst, hlast,
    Option.bind_eq_bind, Option.pure_def, Option.bind_some]
  obtain ⟨resources, hresources⟩ := hresources _ _
  rw [hresources]
  exact ⟨_, rfl⟩

end Projection

end TrustCore.ArchiveViewer
