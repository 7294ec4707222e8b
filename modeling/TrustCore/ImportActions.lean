import TrustCore.ImportReferences

/-!
# Identities of the planned actions

Every record of the archive and every blob digest becomes one action. Nothing
looks for two records of a kind with one id, so the actions of a ready plan have
different identities exactly when the archive's records have.
-/

namespace TrustCore.ImportActions

open TrustCore.Utf TrustCore.Json TrustCore.Dynamic TrustCore.ArchiveFormat TrustCore.ImportPlan
open TrustCore.ImportReferences

/-- The identity under which an action is executed. -/
def identity (a : ArchiveImportAction) : ActionKind × JsString := (a.kind, a.targetId)

/-- The id under which a record of the archive is imported. -/
def importedId (request : ArchiveImportRequest) (kind : ArchiveRecordKind) (r : ArchiveRecord) :
    Option JsString :=
  match imported request kind (idOf r) with
  | .string (u :: s) => some (u :: s)
  | _ =>
    if kind = .retention then
      (canonicalJson (.object (rewritten request kind r))).map sha256Text
    else none

def blobDigest (r : ArchiveRecord) : Option JsString := asString (field r (js "sha256"))

/-- No two records of a kind have one id, and no two blobs one digest. -/
structure DistinctRecords (request : ArchiveImportRequest) : Prop where
  ids : ∀ kind, ((request.archive.verification.records kind).map (importedId request kind)).Nodup
  digests : ((request.archive.verification.records .blobs).filterMap blobDigest).Nodup

theorem recordId_rewritten (request : ArchiveImportRequest) (kind : ArchiveRecordKind)
    (r : ArchiveRecord) : recordId (rewritten request kind r) kind = importedId request kind r := by
  have hid : idOf (rewritten request kind r) = imported request kind (idOf r) := idOf_mapRecord kind
  cases himported : imported request kind (idOf r) with
  | string s =>
    cases s with
    | nil => simp only [recordId, importedId, hid, himported]
    | cons u s => simp only [recordId, importedId, hid, himported]
  | _ => simp only [recordId, importedId, hid, himported]

/-- What `planRecord` makes of a rewritten record. -/
structure PlansRecord (recordKind : ArchiveRecordKind) (r : ArchiveRecord)
    (a : ArchiveImportAction) : Prop where
  phase : a.phase = phases (.record recordKind)
  kind : a.kind = .record recordKind
  targetId : recordId r recordKind = some a.targetId
  record : a.record = some r
  dependsOn : a.dependsOn = dependencies recordKind r

/-- What `planBytes` makes of a rewritten blob record. -/
structure PlansBytes (r : ArchiveRecord) (a : ArchiveImportAction) : Prop where
  phase : a.phase = phases .blobBytes
  kind : a.kind = .blobBytes
  targetId : field r (js "sha256") = .string a.targetId
  record : a.record = none
  dependsOn : ∃ blobId, recordId r .blobs = some blobId ∧ a.dependsOn = [js "blobs:" ++ blobId]

section Planning

variable {request : ArchiveImportRequest}

theorem planRecord_plans {kind : ArchiveRecordKind} {pair : ArchiveRecord × ArchiveRecord}
    {planned : ArchiveImportAction × List ArchiveIssue}
    (h : planRecord request kind pair = some planned) : PlansRecord kind pair.2 planned.1 := by
  rw [planRecord] at h
  obtain ⟨sourceId, _, h⟩ := Option.bind_eq_some_iff.mp h
  obtain ⟨transformedId, hid, h⟩ := Option.bind_eq_some_iff.mp h
  obtain ⟨disposition, _, h⟩ := Option.bind_eq_some_iff.mp h
  cases h
  exact ⟨rfl, rfl, hid, rfl, rfl⟩

/-- A blob record with a digest has an action for its bytes, one without has none. -/
theorem planBytes_cases {r : ArchiveRecord} {planned : Option ArchiveImportAction}
    (h : planBytes request r = some planned) :
    (blobDigest r = none ∧ planned = none) ∨
      ∃ a, blobDigest r = some a.targetId ∧ planned = some a ∧
        PlansBytes r a := by
  rw [planBytes] at h
  split at h
  · rename_i digest hd
    obtain ⟨blobId, hid, h⟩ := Option.map_eq_some_iff.mp h
    subst h
    right
    refine ⟨_, ?_, rfl, rfl, rfl, hd, rfl, blobId, hid, rfl⟩
    rw [blobDigest, hd, asString]
  · rename_i hd
    cases h
    left
    refine ⟨?_, rfl⟩
    rw [blobDigest]
    cases hv : field r (js "sha256") with
    | string s => exact absurd hv (hd s)
    | _ => rfl

theorem identities_planned {kind : ArchiveRecordKind}
    {pairs : List (ArchiveRecord × ArchiveRecord)}
    {planned : List (ArchiveImportAction × List ArchiveIssue)}
    (h : List.Forall₂ (fun pair p => planRecord request kind pair = some p) pairs planned) :
    planned.map (fun p => (p.1.kind, some p.1.targetId)) =
      pairs.map fun pair => (.record kind, recordId pair.2 kind) := by
  induction h with
  | nil => rfl
  | cons hp _ ih =>
    have hplans := planRecord_plans hp
    rw [List.map_cons, List.map_cons, ih, hplans.kind, hplans.targetId]

theorem identities_bytes {records : List ArchiveRecord}
    {planned : List (Option ArchiveImportAction)}
    (h : List.Forall₂ (fun r p => planBytes request r = some p) records planned) :
    planned.reduceOption.map (fun a => (a.kind, some a.targetId)) =
      (records.filterMap blobDigest).map fun digest => (.blobBytes, some digest) := by
  induction h with
  | nil => rfl
  | @cons r p _ _ hp _ ih =>
    rcases planBytes_cases hp with ⟨hd, rfl⟩ | ⟨a, hd, rfl, hplans⟩
    · rw [List.reduceOption_cons_of_none, ih,
        List.filterMap_cons_none hd]
    · rw [List.reduceOption_cons_of_some, List.map_cons, ih,
        List.filterMap_cons_some hd, List.map_cons, hplans.kind]

theorem map_indexActions {β : Type} {f : ArchiveImportAction → β}
    (hf : ∀ a index disposition, f { a with index, disposition } = f a) (blocked : Bool)
    (actions : List ArchiveImportAction) :
    (indexActions blocked actions).map f = actions.map f := by
  rw [indexActions, List.map_map]
  have hcomp : (f ∘ fun p : ArchiveImportAction × Nat =>
      { p.1 with
        index := p.2
        disposition := if blocked && p.1.disposition == .insert then .blocked
          else p.1.disposition }) = f ∘ Prod.fst := by
    funext p
    exact hf p.1 _ _
  rw [hcomp, ← List.map_map, List.zipIdx_map_fst]

/-- The identities that the archive's records and digests give. -/
def archiveIdentities (request : ArchiveImportRequest) : List (ActionKind × Option JsString) :=
  archiveRecordKinds.flatMap (fun kind => (request.archive.verification.records kind).map
      fun r => (.record kind, importedId request kind r)) ++
    ((request.archive.verification.records .blobs).filterMap blobDigest).map
      fun digest => (.blobBytes, some digest)

theorem zip_transformed (kind : ArchiveRecordKind) :
    (request.archive.verification.records kind).zip (transformed request kind) =
      (request.archive.verification.records kind).map fun r => (r, rewritten request kind r) := by
  rw [transformed, transformRecords, ← List.map_prod_left_eq_zip]
  rfl

theorem identities_groups {kinds : List ArchiveRecordKind}
    {groups : List (List (ArchiveImportAction × List ArchiveIssue))}
    (h : List.Forall₂ (fun kind group =>
      ((request.archive.verification.records kind).zip (transformed request kind)).mapM
        (planRecord request kind) = some group) kinds groups) :
    groups.flatten.map (fun p => (p.1.kind, some p.1.targetId)) =
      kinds.flatMap fun kind => (request.archive.verification.records kind).map
        fun r => (.record kind, importedId request kind r) := by
  induction h with
  | nil => rfl
  | @cons kind group _ _ hgroup _ ih =>
    rw [List.flatten_cons, List.map_append, ih, List.flatMap_cons,
      identities_planned (mapM_eq_some hgroup), zip_transformed, List.map_map]
    congr 1
    apply List.map_congr_left
    intro r _
    rw [Function.comp_apply, recordId_rewritten]

theorem filterMap_blobDigest_transformed :
    (transformed request .blobs).filterMap blobDigest =
      (request.archive.verification.records .blobs).filterMap blobDigest := by
  rw [transformed, transformRecords, List.filterMap_map]
  apply List.filterMap_congr
  intro r _
  rw [Function.comp_apply, blobDigest, blobDigest, blob_sha256]

/-- The actions of a ready plan have the identities of the archive. -/
theorem perm_archiveIdentities {localeLe : JsString → JsString → Bool} {plan : ArchiveImportPlan}
    (h : planArchiveImport localeLe request = some plan) (hr : plan.status = .ready) :
    (plan.actions.map fun a => (a.kind, some a.targetId)).Perm (archiveIdentities request) := by
  obtain ⟨planned, bytes, hplanned, hbytes, -, -, hactions⟩ := planArchiveImport_ready h hr
  obtain ⟨groups, hgroups, rfl⟩ := Option.map_eq_some_iff.mp hplanned
  rw [hactions, map_indexActions (fun _ _ _ => rfl)]
  refine ((List.perm_insertionSort _ _).map _).trans ?_
  rw [List.map_append, List.map_map, identities_bytes (mapM_eq_some hbytes),
    filterMap_blobDigest_transformed]
  have hrecords := identities_groups (mapM_eq_some hgroups)
  rw [archiveIdentities, ← hrecords]
  rfl

theorem nodup_archiveIdentities : (archiveIdentities request).Nodup ↔ DistinctRecords request := by
  have hkinds : archiveRecordKinds.Pairwise (Function.onFun List.Disjoint fun kind =>
      (request.archive.verification.records kind).map
        fun r => (ActionKind.record kind, importedId request kind r)) := by
    apply archiveRecordKinds_nodup.imp
    intro kind kind' hne x hx hx'
    obtain ⟨r, -, rfl⟩ := List.mem_map.mp hx
    obtain ⟨r', -, heq⟩ := List.mem_map.mp hx'
    exact hne (ActionKind.record.inj (Prod.mk.inj heq).1).symm
  have hbytes : List.Disjoint
      (archiveRecordKinds.flatMap fun kind => (request.archive.verification.records kind).map
        fun r => (ActionKind.record kind, importedId request kind r))
      (((request.archive.verification.records .blobs).filterMap blobDigest).map
        fun digest => (ActionKind.blobBytes, some digest)) := by
    intro x hx hx'
    obtain ⟨kind, -, hx⟩ := List.mem_flatMap.mp hx
    obtain ⟨r, -, rfl⟩ := List.mem_map.mp hx
    obtain ⟨digest, -, heq⟩ := List.mem_map.mp hx'
    cases heq
  have hids : ∀ kind, ((request.archive.verification.records kind).map
      fun r => (ActionKind.record kind, importedId request kind r)).Nodup ↔
        ((request.archive.verification.records kind).map (importedId request kind)).Nodup := by
    intro kind
    have hmap : ((request.archive.verification.records kind).map
        fun r => (ActionKind.record kind, importedId request kind r)) =
          ((request.archive.verification.records kind).map (importedId request kind)).map
            (Prod.mk (ActionKind.record kind)) := by
      rw [List.map_map]
      rfl
    rw [hmap, List.nodup_map_iff (Prod.mk_right_injective _)]
  have hdigests : (((request.archive.verification.records .blobs).filterMap blobDigest).map
      fun digest => (ActionKind.blobBytes, some digest)).Nodup ↔
        ((request.archive.verification.records .blobs).filterMap blobDigest).Nodup := by
    apply List.nodup_map_iff
    intro a b hab
    exact Option.some.inj (Prod.mk.inj hab).2
  rw [archiveIdentities, List.nodup_append', List.nodup_flatMap, hdigests]
  simp only [hids]
  constructor
  · intro ⟨⟨hrecords, _⟩, hblobs, _⟩
    exact ⟨fun kind => hrecords kind (mem_archiveRecordKinds kind), hblobs⟩
  · intro hd
    exact ⟨⟨fun kind _ => hd.ids kind, hkinds⟩, hd.digests, hbytes⟩

end Planning

/-- The actions of a ready plan have different identities exactly when no two records of the archive
are imported under one id and no two blobs have one digest. -/
theorem nodup_identities_iff {localeLe : JsString → JsString → Bool}
    {request : ArchiveImportRequest} {plan : ArchiveImportPlan}
    (h : planArchiveImport localeLe request = some plan) (hr : plan.status = .ready) :
    (plan.actions.map identity).Nodup ↔ DistinctRecords request := by
  have hmap : (plan.actions.map fun a => (a.kind, some a.targetId)) =
      (plan.actions.map identity).map (Prod.map id some) := by
    rw [List.map_map]
    rfl
  have hinj : Function.Injective (Prod.map (id : ActionKind → ActionKind) (@some JsString)) :=
    Function.injective_id.prodMap (Option.some_injective _)
  rw [← nodup_archiveIdentities, ← (perm_archiveIdentities h hr).nodup_iff, hmap,
    List.nodup_map_iff hinj]

end TrustCore.ImportActions
