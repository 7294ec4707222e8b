import TrustCore.ImportActions
import TrustCore.RevisionParents
import TrustCore.StableSort

/-!
# The order of the planned actions

Actions are sorted by the phase of their kind and then by id, so a dependency on
an earlier kind comes first whatever the ids are. A revision and its parent are of
one kind and come in the order of their ids. Two dependencies may name no action
at all: a schema package of an archive that has none, and the end of a relation
outside the workspace.
-/

namespace TrustCore.ImportDependencies

open TrustCore.Utf TrustCore.Json TrustCore.Dynamic TrustCore.ArchiveFormat TrustCore.ImportPlan
open TrustCore.ImportReferences TrustCore.RevisionParents TrustCore.ImportActions
open TrustCore.StableSort

/-- `kind:id`, as dependencies name actions. -/
def actionName (a : ArchiveImportAction) : JsString := a.kind.text ++ js ":" ++ a.targetId

/-- Every dependency names an action with a smaller index. -/
def DependencyOrdered (plan : ArchiveImportPlan) : Prop :=
  ∀ a ∈ plan.actions, ∀ d ∈ a.dependsOn, ∃ b ∈ plan.actions, d = actionName b ∧ b.index < a.index

/-- `localeCompare` is a consistent comparison. -/
structure LocaleOrder (localeLe : JsString → JsString → Bool) : Prop where
  total : ∀ a b, localeLe a b = true ∨ localeLe b a = true
  trans : ∀ a b c, localeLe a b = true → localeLe b c = true → localeLe a c = true

/-- A record of the kind is imported under the id. -/
def ImportedAs (request : ArchiveImportRequest) (kind : ArchiveRecordKind) (id : JsString) : Prop :=
  ∃ r ∈ request.archive.verification.records kind, imported request kind (idOf r) = .string id

/-- The ends of a relation, as fields of the kind and the id. -/
def relationEnds : List (JsString × JsString) :=
  [(js "sourceKind", js "sourceId"), (js "targetKind", js "targetId")]

/-- What the phases do not order. -/
structure DependenciesPlanned (localeLe : JsString → JsString → Bool)
    (request : ArchiveImportRequest) : Prop where
  schema : request.archive.verification.records .schemaPackages = [] →
    request.archive.verification.records .datasets = [] ∧ archiveRevisions request = []
  external : ∀ r ∈ request.archive.verification.records .relations, ∀ e ∈ relationEnds,
    field r e.1 = .string (js "external") → ∀ id, field r e.2 = .string id →
      ImportedAs request .resources id
  parents : ∀ i : Fin (archiveRevisions request).length, ∀ id,
    imported request .revisions (field ((archiveRevisions request).get i) (js "parentRevisionId")) =
        .string id →
      ∃ j : Fin (archiveRevisions request).length, ∃ childId,
        imported request .revisions (idOf ((archiveRevisions request).get j)) = .string id ∧
        imported request .revisions (idOf ((archiveRevisions request).get i)) = .string childId ∧
        localeLe id childId = true ∧ (j < i ∨ localeLe childId id = false)

section Order

variable {localeLe : JsString → JsString → Bool}

theorem localeLe_refl (hl : LocaleOrder localeLe) (a : JsString) : localeLe a a = true := by
  rcases hl.total a a with h | h
  · exact h
  · exact h

theorem localeLt_trans_le (hl : LocaleOrder localeLe) {a b c : JsString}
    (hab : localeLt localeLe a b = true) (hbc : localeLe b c = true) :
    localeLt localeLe a c = true := by
  simp only [localeLt, Bool.and_eq_true, Bool.not_eq_true'] at hab ⊢
  refine ⟨hl.trans a b c hab.1 hbc, ?_⟩
  by_contra hca
  rw [Bool.not_eq_false] at hca
  rw [hl.trans b c a hbc hca] at hab
  cases hab.2

theorem localeLe_trans_lt (hl : LocaleOrder localeLe) {a b c : JsString}
    (hab : localeLe a b = true) (hbc : localeLt localeLe b c = true) :
    localeLt localeLe a c = true := by
  simp only [localeLt, Bool.and_eq_true, Bool.not_eq_true'] at hbc ⊢
  refine ⟨hl.trans a b c hab hbc.1, ?_⟩
  by_contra hca
  rw [Bool.not_eq_false] at hca
  rw [hl.trans c a b hca hab] at hbc
  cases hbc.2

/-- The three levels of `compareActions`. -/
theorem actionLe_iff {a b : ArchiveImportAction} : actionLe localeLe a b = true ↔
    a.phase < b.phase ∨ a.phase = b.phase ∧ (localeLt localeLe a.kind.text b.kind.text = true ∨
      localeLe a.kind.text b.kind.text = true ∧ localeLe a.targetId b.targetId = true) := by
  simp only [actionLe, Bool.or_eq_true, Bool.and_eq_true, decide_eq_true_eq, beq_iff_eq]

theorem actionLe_total (hl : LocaleOrder localeLe) (a b : ArchiveImportAction) :
    actionLe localeLe a b = true ∨ actionLe localeLe b a = true := by
  rw [actionLe_iff, actionLe_iff]
  rcases lt_trichotomy a.phase b.phase with hphase | hphase | hphase
  · exact Or.inl (Or.inl hphase)
  · cases hab : localeLe a.kind.text b.kind.text with
    | false =>
      have hba : localeLe b.kind.text a.kind.text = true := by
        rcases hl.total a.kind.text b.kind.text with h | h
        · rw [hab] at h
          cases h
        · exact h
      exact Or.inr (Or.inr ⟨hphase.symm, Or.inl (by simp [localeLt, hab, hba])⟩)
    | true =>
      cases hba : localeLe b.kind.text a.kind.text with
      | false => exact Or.inl (Or.inr ⟨hphase, Or.inl (by simp [localeLt, hab, hba])⟩)
      | true =>
        rcases hl.total a.targetId b.targetId with h | h
        · exact Or.inl (Or.inr ⟨hphase, Or.inr ⟨rfl, h⟩⟩)
        · exact Or.inr (Or.inr ⟨hphase.symm, Or.inr ⟨rfl, h⟩⟩)
  · exact Or.inr (Or.inl hphase)

theorem localeLe_of_lt {a b : JsString} (h : localeLt localeLe a b = true) :
    localeLe a b = true := by
  rw [localeLt, Bool.and_eq_true] at h
  exact h.1

theorem actionLe_trans (hl : LocaleOrder localeLe) {a b c : ArchiveImportAction}
    (hab : actionLe localeLe a b = true) (hbc : actionLe localeLe b c = true) :
    actionLe localeLe a c = true := by
  rw [actionLe_iff] at hab hbc ⊢
  rcases hab with hab | ⟨hab, hkind⟩
  · left
    rcases hbc with hbc | ⟨hbc, -⟩ <;> omega
  · rcases hbc with hbc | ⟨hbc, hkind'⟩
    · left
      omega
    · right
      refine ⟨hab.trans hbc, ?_⟩
      rcases hkind with hlt | ⟨hle, hid⟩
      · left
        rcases hkind' with hlt' | ⟨hle', -⟩
        · exact localeLt_trans_le hl hlt (localeLe_of_lt hlt')
        · exact localeLt_trans_le hl hlt hle'
      · rcases hkind' with hlt' | ⟨hle', hid'⟩
        · exact Or.inl (localeLe_trans_lt hl hle hlt')
        · exact Or.inr ⟨hl.trans _ _ _ hle hle', hl.trans _ _ _ hid hid'⟩

variable {actions : List ArchiveImportAction} {i j : Fin actions.length}

theorem precedes_of_phase_lt (h : (actions.get j).phase < (actions.get i).phase) :
    Precedes (fun a b => actionLe localeLe a b = true) actions j i := by
  refine ⟨actionLe_iff.mpr (Or.inl h), Or.inr ?_⟩
  intro hle
  rcases actionLe_iff.mp hle with hlt | ⟨heq, -⟩ <;> omega

/-- Actions of one kind come in the order of their ids. -/
theorem precedes_same_kind (hl : LocaleOrder localeLe)
    (hphase : (actions.get j).phase = (actions.get i).phase)
    (hkind : (actions.get j).kind = (actions.get i).kind) :
    Precedes (fun a b => actionLe localeLe a b = true) actions j i ↔
      localeLe (actions.get j).targetId (actions.get i).targetId = true ∧
        (j < i ∨ localeLe (actions.get i).targetId (actions.get j).targetId = false) := by
  have hle : ∀ a b : ArchiveImportAction, a.phase = b.phase → a.kind = b.kind →
      (actionLe localeLe a b = true ↔ localeLe a.targetId b.targetId = true) := by
    intro a b hp hk
    rw [actionLe_iff, hk]
    simp [localeLt, localeLe_refl hl, hp]
  rw [Precedes, hle _ _ hphase hkind, hle _ _ hphase.symm hkind.symm, Bool.not_eq_true]

end Order

theorem mem_indexActions {actions : List ArchiveImportAction} {a : ArchiveImportAction} :
    a ∈ indexActions false actions ↔
      ∃ n : Fin actions.length, a = { actions.get n with index := n } := by
  rw [indexActions, List.mem_map]
  constructor
  · rintro ⟨⟨b, n⟩, hmem, rfl⟩
    obtain ⟨hn, hb⟩ := List.getElem?_eq_some_iff.mp (List.mk_mem_zipIdx_iff_getElem?.mp hmem)
    exact ⟨⟨n, hn⟩, by rw [List.get_eq_getElem, hb]; rfl⟩
  · rintro ⟨n, rfl⟩
    refine ⟨(actions.get n, n), ?_, rfl⟩
    rw [List.mk_mem_zipIdx_iff_getElem?]
    exact List.getElem?_eq_getElem n.isLt

/-- The order of a plan, seen in the actions before they are sorted. -/
theorem dependencyOrdered_iff {localeLe : JsString → JsString → Bool} (hl : LocaleOrder localeLe)
    {plan : ArchiveImportPlan} {actions : List ArchiveImportAction}
    (hactions : plan.actions = indexActions false
      (actions.insertionSort fun a b => actionLe localeLe a b = true)) :
    DependencyOrdered plan ↔ ∀ i : Fin actions.length, ∀ d ∈ (actions.get i).dependsOn,
      ∃ j : Fin actions.length, d = actionName (actions.get j) ∧
        Precedes (fun a b => actionLe localeLe a b = true) actions j i := by
  have htotal : Std.Total fun a b : ArchiveImportAction => actionLe localeLe a b = true :=
    ⟨actionLe_total hl⟩
  have htrans : IsTrans ArchiveImportAction fun a b => actionLe localeLe a b = true :=
    ⟨fun _ _ _ => actionLe_trans hl⟩
  obtain ⟨place, hget, hlt⟩ :=
    exists_places (fun a b : ArchiveImportAction => actionLe localeLe a b = true) actions
  rw [DependencyOrdered, hactions]
  constructor
  · intro h i d hd
    rw [← hget i] at hd
    obtain ⟨b, hb, hname, hindex⟩ := h _ (mem_indexActions.mpr ⟨place i, rfl⟩) d hd
    obtain ⟨n, rfl⟩ := mem_indexActions.mp hb
    obtain ⟨j, rfl⟩ := place.surjective n
    refine ⟨j, ?_, (hlt j i).mp hindex⟩
    rw [hname, ← hget j]
    rfl
  · intro h a ha d hd
    obtain ⟨n, rfl⟩ := mem_indexActions.mp ha
    obtain ⟨i, rfl⟩ := place.surjective n
    have hd' : d ∈ (actions.get i).dependsOn := by
      rw [← hget i]
      exact hd
    obtain ⟨j, hname, hj⟩ := h i d hd'
    refine ⟨_, mem_indexActions.mpr ⟨place j, rfl⟩, ?_, (hlt j i).mpr hj⟩
    rw [hname, ← hget j]
    rfl

section Names

theorem append_colon_inj {a b s t : JsString} (ha : (58 : UInt16) ∉ a) (hb : (58 : UInt16) ∉ b)
    (h : a ++ js ":" ++ s = b ++ js ":" ++ t) : a = b ∧ s = t := by
  have hcolon : js ":" = [58] := rfl
  rw [hcolon, List.append_assoc, List.append_assoc] at h
  induction a generalizing b with
  | nil =>
    cases b with
    | nil => exact ⟨rfl, List.cons.inj h |>.2⟩
    | cons v b =>
      have hv := (List.cons.inj h).1
      exact absurd (hv ▸ List.mem_cons_self) hb
  | cons u a ih =>
    cases b with
    | nil =>
      have hu := (List.cons.inj h).1
      exact absurd (hu ▸ List.mem_cons_self) ha
    | cons v b =>
      obtain ⟨hu, htail⟩ := List.cons.inj h
      obtain ⟨hab, hst⟩ := ih (fun hm => ha (List.mem_cons_of_mem _ hm))
        (fun hm => hb (List.mem_cons_of_mem _ hm)) htail
      exact ⟨by rw [hu, hab], hst⟩

theorem colon_not_mem_text (kind : ActionKind) : (58 : UInt16) ∉ kind.text := by
  cases kind with
  | blobBytes => decide
  | record kind => cases kind <;> decide

theorem text_injective {kind kind' : ActionKind} (h : kind.text = kind'.text) : kind = kind' := by
  revert h
  cases kind with
  | blobBytes =>
    cases kind' with
    | blobBytes => decide
    | record k => cases k <;> decide
  | record k =>
    cases kind' with
    | blobBytes => cases k <;> decide
    | record k' => cases k <;> cases k' <;> decide

theorem eq_actionName_iff {kind : ArchiveRecordKind} {s : JsString} {a : ArchiveImportAction} :
    kind.text ++ js ":" ++ s = actionName a ↔ a.kind = .record kind ∧ a.targetId = s := by
  constructor
  · intro h
    obtain ⟨hk, hs⟩ := append_colon_inj (colon_not_mem_text (.record kind))
      (colon_not_mem_text a.kind) h
    exact ⟨(text_injective hk).symm, hs.symm⟩
  · rintro ⟨hk, rfl⟩
    rw [actionName, hk]
    rfl

end Names

/-- The references that `dependencies` collects. -/
def references (kind : ArchiveRecordKind) (r : ArchiveRecord) :
    List (ArchiveRecordKind × JsValue) :=
  match kind with
  | .datasets => [(.schemaPackages, field r (js "schemaPackageId"))]
  | .resources => [(.datasets, field r (js "datasetId"))]
  | .revisions =>
    [(.resources, field r (js "resourceId")), (.datasets, field r (js "datasetId")),
      (.schemaPackages, field r (js "schemaPackageId")),
      (.revisions, field r (js "parentRevisionId"))]
  | .revisionBlobs =>
    [(.revisions, field r (js "revisionId")), (.blobs, field r (js "blobObjectId"))]
  | .relations =>
    [(relationKind (field r (js "sourceKind")), field r (js "sourceId")),
      (relationKind (field r (js "targetKind")), field r (js "targetId"))]
  | .tombstones => [(.revisions, field r (js "priorRevisionId"))]
  | _ => []

theorem mem_dependency {kind : ArchiveRecordKind} {v : JsValue} {d : JsString} :
    d ∈ dependency kind v ↔ ∃ s, v = .string s ∧ d = kind.text ++ js ":" ++ s := by
  cases v <;> simp [dependency]

theorem mem_dependencies {kind : ArchiveRecordKind} {r : ArchiveRecord} {d : JsString} :
    d ∈ dependencies kind r ↔ ∃ p ∈ references kind r, ∃ s, p.2 = .string s ∧
      d = p.1.text ++ js ":" ++ s := by
  cases kind <;> simp [dependencies, references, mem_dependency]

/-- The actions before they are sorted; the revisions stand together, in the order of
the archive. -/
structure Unsorted (request : ArchiveImportRequest)
    (before revisions after : List ArchiveImportAction) : Prop where
  inOrder : List.Forall₂ (fun r a => PlansRecord .revisions (rewritten request .revisions r) a)
    (archiveRevisions request) revisions
  notBefore : ∀ a ∈ before, a.kind ≠ .record .revisions
  notAfter : ∀ a ∈ after, a.kind ≠ .record .revisions
  planned : ∀ a ∈ before ++ (revisions ++ after),
    (∃ kind, ∃ r ∈ transformed request kind, PlansRecord kind r a) ∨
      ∃ r ∈ transformed request .blobs, PlansBytes r a
  all : ∀ kind, ∀ r ∈ transformed request kind, ∃ a ∈ before ++ (revisions ++ after),
    PlansRecord kind r a

section Planning

variable {request : ArchiveImportRequest}

theorem forall₂_plans {kind : ArchiveRecordKind}
    {group : List (ArchiveImportAction × List ArchiveIssue)}
    (h : ((request.archive.verification.records kind).zip (transformed request kind)).mapM
      (planRecord request kind) = some group) :
    List.Forall₂ (fun r a => PlansRecord kind (rewritten request kind r) a)
      (request.archive.verification.records kind) (group.map Prod.fst) := by
  rw [zip_transformed] at h
  have hpairs := List.forall₂_map_left_iff.mp (mapM_eq_some h)
  rw [List.forall₂_map_right_iff]
  exact hpairs.imp fun _ _ hp => planRecord_plans hp

theorem groups_plans {kinds : List ArchiveRecordKind}
    {groups : List (List (ArchiveImportAction × List ArchiveIssue))}
    (h : List.Forall₂ (fun kind group =>
      ((request.archive.verification.records kind).zip (transformed request kind)).mapM
        (planRecord request kind) = some group) kinds groups) :
    (∀ a ∈ groups.flatten.map Prod.fst,
      ∃ kind ∈ kinds, ∃ r ∈ transformed request kind, PlansRecord kind r a) ∧
    ∀ kind ∈ kinds, ∀ r ∈ transformed request kind, ∃ a ∈ groups.flatten.map Prod.fst,
      PlansRecord kind r a := by
  induction h with
  | nil => simp
  | @cons kind group _ _ hgroup _ ih =>
    obtain ⟨hrecords, hactions⟩ := mem_of_forall₂ (forall₂_plans hgroup)
    rw [List.flatten_cons, List.map_append]
    constructor
    · intro a ha
      rcases List.mem_append.mp ha with ha | ha
      · obtain ⟨r, hr, hplans⟩ := hactions a ha
        exact ⟨kind, List.mem_cons_self, _, mem_transformed.mpr ⟨r, hr, rfl⟩, hplans⟩
      · obtain ⟨kind', hkind', hplans⟩ := ih.1 a ha
        exact ⟨kind', List.mem_cons_of_mem _ hkind', hplans⟩
    · intro kind' hkind' r hr
      rcases List.mem_cons.mp hkind' with rfl | hkind'
      · obtain ⟨r₀, hr₀, rfl⟩ := mem_transformed.mp hr
        obtain ⟨a, ha, hplans⟩ := hrecords r₀ hr₀
        exact ⟨a, List.mem_append_left _ ha, hplans⟩
      · obtain ⟨a, ha, hplans⟩ := ih.2 kind' hkind' r hr
        exact ⟨a, List.mem_append_right _ ha, hplans⟩

theorem bytes_plan {records : List ArchiveRecord} {planned : List (Option ArchiveImportAction)}
    (h : List.Forall₂ (fun r p => planBytes request r = some p) records planned) :
    ∀ a ∈ planned.reduceOption, ∃ r ∈ records, PlansBytes r a := by
  intro a ha
  rw [List.reduceOption_mem_iff] at ha
  obtain ⟨r, hr, hp⟩ := (mem_of_forall₂ h).2 _ ha
  rcases planBytes_cases hp with ⟨-, hnone⟩ | ⟨a', -, hsome, hplans⟩
  · cases hnone
  · rw [Option.some.inj hsome]
    exact ⟨r, hr, hplans⟩

theorem ready_unsorted {localeLe : JsString → JsString → Bool} {plan : ArchiveImportPlan}
    (h : planArchiveImport localeLe request = some plan) (hr : plan.status = .ready) :
    ∃ before revisions after, Unsorted request before revisions after ∧
      plan.actions = indexActions false ((before ++ (revisions ++ after)).insertionSort
        fun a b => actionLe localeLe a b = true) := by
  obtain ⟨planned, bytes, hplanned, hbytes, -, -, hactions⟩ := planArchiveImport_ready h hr
  obtain ⟨groups, hgroups, rfl⟩ := Option.map_eq_some_iff.mp hplanned
  have hkinds : archiveRecordKinds = [.workspaces, .schemaPackages, .datasets, .resources] ++
      (.revisions :: [.revisionBlobs, .blobs, .relations, .tombstones, .auditEvents, .retention]) :=
    rfl
  rw [hkinds, List.mapM_append] at hgroups
  obtain ⟨early, hearly, hgroups⟩ := Option.bind_eq_some_iff.mp hgroups
  obtain ⟨rest, hrest, hgroups⟩ := Option.bind_eq_some_iff.mp hgroups
  rw [List.mapM_cons] at hrest
  obtain ⟨group, hgroup, hrest⟩ := Option.bind_eq_some_iff.mp hrest
  obtain ⟨later, hlater, hrest⟩ := Option.bind_eq_some_iff.mp hrest
  cases hrest
  cases hgroups
  obtain ⟨hearly, hearly'⟩ := groups_plans (mapM_eq_some hearly)
  obtain ⟨hlater, hlater'⟩ := groups_plans (mapM_eq_some hlater)
  have hgroup := forall₂_plans hgroup
  have hbytes := bytes_plan (mapM_eq_some hbytes)
  refine ⟨early.flatten.map Prod.fst, group.map Prod.fst,
    later.flatten.map Prod.fst ++ bytes.reduceOption, ⟨hgroup, ?_, ?_, ?_, ?_⟩, ?_⟩
  · intro a ha hkind
    obtain ⟨kind, hmem, r, -, hplans⟩ := hearly a ha
    rw [hplans.kind, ActionKind.record.injEq] at hkind
    rw [hkind] at hmem
    revert hmem
    decide
  · intro a ha hkind
    rcases List.mem_append.mp ha with ha | ha
    · obtain ⟨kind, hmem, r, -, hplans⟩ := hlater a ha
      rw [hplans.kind, ActionKind.record.injEq] at hkind
      rw [hkind] at hmem
      revert hmem
      decide
    · obtain ⟨r, -, hplans⟩ := hbytes a ha
      rw [hplans.kind] at hkind
      cases hkind
  · intro a ha
    rcases List.mem_append.mp ha with ha | ha
    · obtain ⟨kind, -, hplans⟩ := hearly a ha
      exact Or.inl ⟨kind, hplans⟩
    · rcases List.mem_append.mp ha with ha | ha
      · obtain ⟨r, hr, hplans⟩ := (mem_of_forall₂ hgroup).2 a ha
        exact Or.inl ⟨_, _, mem_transformed.mpr ⟨r, hr, rfl⟩, hplans⟩
      · rcases List.mem_append.mp ha with ha | ha
        · obtain ⟨kind, -, hplans⟩ := hlater a ha
          exact Or.inl ⟨kind, hplans⟩
        · exact Or.inr (hbytes a ha)
  · intro kind r hmem
    have hkind : kind ∈ [.workspaces, .schemaPackages, .datasets, .resources] ++
        (.revisions :: [.revisionBlobs, .blobs, .relations, .tombstones, .auditEvents,
          .retention]) := hkinds ▸ mem_archiveRecordKinds kind
    rcases List.mem_append.mp hkind with hkind | hkind
    · obtain ⟨a, ha, hplans⟩ := hearly' kind hkind r hmem
      exact ⟨a, List.mem_append_left _ ha, hplans⟩
    · rcases List.mem_cons.mp hkind with rfl | hkind
      · obtain ⟨r₀, hr₀, rfl⟩ := mem_transformed.mp hmem
        obtain ⟨a, ha, hplans⟩ := (mem_of_forall₂ hgroup).1 r₀ hr₀
        exact ⟨a, List.mem_append_right _ (List.mem_append_left _ ha), hplans⟩
      · obtain ⟨a, ha, hplans⟩ := hlater' kind hkind r hmem
        exact ⟨a, List.mem_append_right _ (List.mem_append_right _ (List.mem_append_left _ ha)),
          hplans⟩
  · rw [hactions, List.flatten_append, List.flatten_cons, List.map_append, List.map_append,
      List.append_assoc, List.append_assoc]

end Planning

section Served

variable {request : ArchiveImportRequest}

theorem idOf_of_recordId {kind : ArchiveRecordKind} (hk : kind ≠ .retention) {r : ArchiveRecord}
    {id : JsString} (h : recordId r kind = some id) : idOf r = .string id := by
  rw [recordId] at h
  split at h
  · rename_i u s hs
    rw [hs, Option.some.inj h]
  · rw [if_neg hk] at h
    cases h

theorem known_string_iff {kind : ArchiveRecordKind} {s : JsString} :
    Known request kind (.string s) ↔ ImportedAs request kind s := by
  have hid : ∀ r, idOf (rewritten request kind r) = imported request kind (idOf r) :=
    fun r => idOf_mapRecord kind
  constructor
  · rintro ⟨id, hmem, heq⟩
    rw [JsValue.string.injEq] at heq
    obtain ⟨r, hr, hs⟩ := mem_stringIds.mp (heq ▸ hmem)
    obtain ⟨r₀, hr₀, rfl⟩ := mem_transformed.mp hr
    exact ⟨r₀, hr₀, by rw [← hid, hs]⟩
  · rintro ⟨r₀, hr₀, hs⟩
    exact ⟨s, mem_stringIds.mpr ⟨_, mem_transformed.mpr ⟨r₀, hr₀, rfl⟩, by rw [hid, hs]⟩, rfl⟩

variable {before revisions after : List ArchiveImportAction}

/-- An action with the kind and the id comes before the one at the place. -/
def Served (localeLe : JsString → JsString → Bool) (actions : List ArchiveImportAction)
    (i : Fin actions.length) (kind : ArchiveRecordKind) (s : JsString) : Prop :=
  ∃ j : Fin actions.length, kind.text ++ js ":" ++ s = actionName (actions.get j) ∧
    Precedes (fun a b => actionLe localeLe a b = true) actions j i

theorem plans_of_kind (hu : Unsorted request before revisions after)
    {a : ArchiveImportAction} (ha : a ∈ before ++ (revisions ++ after)) {kind : ArchiveRecordKind}
    (hk : a.kind = .record kind) : ∃ r ∈ transformed request kind, PlansRecord kind r a := by
  rcases hu.planned a ha with ⟨kind', r, hr, hplans⟩ | ⟨r, -, hplans⟩
  · rw [hplans.kind, ActionKind.record.injEq] at hk
    rw [← hk]
    exact ⟨r, hr, hplans⟩
  · rw [hplans.kind] at hk
    cases hk

/-- A reference to an earlier phase is served when its record is there. -/
theorem served_iff (localeLe : JsString → JsString → Bool)
    (hu : Unsorted request before revisions after) {kind : ArchiveRecordKind}
    (hk : kind ≠ .retention) (i : Fin (before ++ (revisions ++ after)).length)
    (hphase : phases (.record kind) < ((before ++ (revisions ++ after)).get i).phase)
    (s : JsString) :
    Served localeLe (before ++ (revisions ++ after)) i kind s ↔ ImportedAs request kind s := by
  rw [← known_string_iff]
  constructor
  · rintro ⟨j, hname, -⟩
    obtain ⟨hkind, rfl⟩ := eq_actionName_iff.mp hname
    obtain ⟨r, hr, hplans⟩ := plans_of_kind hu (List.get_mem _ j) hkind
    exact ⟨_, mem_stringIds.mpr ⟨r, hr, idOf_of_recordId hk hplans.targetId⟩, rfl⟩
  · rintro ⟨id, hmem, heq⟩
    rw [JsValue.string.injEq] at heq
    subst heq
    obtain ⟨r, hr, hid⟩ := mem_stringIds.mp hmem
    obtain ⟨a, ha, hplans⟩ := hu.all kind r hr
    obtain ⟨j, rfl⟩ := List.mem_iff_get.mp ha
    have hs := idOf_of_recordId hk hplans.targetId
    rw [hid, JsValue.string.injEq] at hs
    refine ⟨j, eq_actionName_iff.mpr ⟨hplans.kind, hs.symm⟩, precedes_of_phase_lt ?_⟩
    rw [hplans.phase]
    exact hphase

theorem dependsOn_served_iff {localeLe : JsString → JsString → Bool}
    {actions : List ArchiveImportAction} {i : Fin actions.length} {kind : ArchiveRecordKind}
    {r : ArchiveRecord} (hplans : PlansRecord kind r (actions.get i)) :
    (∀ d ∈ (actions.get i).dependsOn, ∃ j : Fin actions.length, d = actionName (actions.get j) ∧
      Precedes (fun a b => actionLe localeLe a b = true) actions j i) ↔
      ∀ p ∈ references kind r, ∀ s, p.2 = .string s → Served localeLe actions i p.1 s := by
  rw [hplans.dependsOn]
  constructor
  · intro h p hp s hs
    exact h _ (mem_dependencies.mpr ⟨p, hp, s, hs, rfl⟩)
  · intro h d hd
    obtain ⟨p, hp, s, hs, rfl⟩ := mem_dependencies.mp hd
    exact h p hp s hs

/-- The place of a revision of the archive among the actions. -/
theorem exists_revision_place (hu : Unsorted request before revisions after)
    (k : Fin (archiveRevisions request).length) :
    ∃ i : Fin (before ++ (revisions ++ after)).length, i.val = before.length + k.val ∧
      PlansRecord .revisions (rewritten request .revisions ((archiveRevisions request).get k))
        ((before ++ (revisions ++ after)).get i) := by
  have hlen := hu.inOrder.length_eq
  have hk : k.val < revisions.length := hlen ▸ k.isLt
  have hplans := List.forall₂_iff_get.mp hu.inOrder |>.2 k.val k.isLt hk
  have hi : before.length + k.val < (before ++ (revisions ++ after)).length := by
    simp only [List.length_append]
    omega
  refine ⟨⟨before.length + k.val, hi⟩, rfl, ?_⟩
  have hget : (before ++ (revisions ++ after)).get ⟨before.length + k.val, hi⟩ =
      revisions.get ⟨k.val, hk⟩ := by
    simp only [List.get_eq_getElem]
    rw [List.getElem_append_right (by omega), List.getElem_append_left (by omega)]
    simp
  rw [hget]
  exact hplans

theorem revision_place (hu : Unsorted request before revisions after)
    {i : Fin (before ++ (revisions ++ after)).length}
    (hi : ((before ++ (revisions ++ after)).get i).kind = .record .revisions) :
    ∃ k : Fin (archiveRevisions request).length, i.val = before.length + k.val := by
  have hlen := hu.inOrder.length_eq
  have hbefore : before.length ≤ i.val := by
    by_contra hlt
    have hlt : i.val < before.length := by omega
    apply hu.notBefore _ (List.getElem_mem hlt)
    rw [List.get_eq_getElem, List.getElem_append_left hlt] at hi
    exact hi
  have hafter : i.val - before.length < revisions.length := by
    by_contra hge
    rw [List.get_eq_getElem, List.getElem_append_right hbefore,
      List.getElem_append_right (by omega)] at hi
    exact hu.notAfter _ (List.getElem_mem _) hi
  exact ⟨⟨i.val - before.length, hlen ▸ hafter⟩, by simp only; omega⟩

/-- A parent is served when its revision comes first in the order of the ids. -/
theorem parent_served_iff {localeLe : JsString → JsString → Bool} (hl : LocaleOrder localeLe)
    (hu : Unsorted request before revisions after) (k : Fin (archiveRevisions request).length)
    (i : Fin (before ++ (revisions ++ after)).length) (hi : i.val = before.length + k.val)
    (hplans : PlansRecord .revisions
      (rewritten request .revisions ((archiveRevisions request).get k))
      ((before ++ (revisions ++ after)).get i)) (id : JsString) :
    Served localeLe (before ++ (revisions ++ after)) i .revisions id ↔
      ∃ j : Fin (archiveRevisions request).length, ∃ childId,
        imported request .revisions (idOf ((archiveRevisions request).get j)) = .string id ∧
        imported request .revisions (idOf ((archiveRevisions request).get k)) = .string childId ∧
        localeLe id childId = true ∧ (j < k ∨ localeLe childId id = false) := by
  have hchild := idOf_of_recordId (by decide) hplans.targetId
  rw [idOf_rewritten] at hchild
  constructor
  · rintro ⟨n, hname, hprecedes⟩
    obtain ⟨hkind, rfl⟩ := eq_actionName_iff.mp hname
    obtain ⟨j, hj⟩ := revision_place hu hkind
    obtain ⟨n', hn', hparent⟩ := exists_revision_place hu j
    obtain rfl : n = n' := Fin.ext (by omega)
    have hid := idOf_of_recordId (by decide) hparent.targetId
    rw [idOf_rewritten] at hid
    rw [precedes_same_kind hl (by rw [hparent.phase, hplans.phase])
      (by rw [hparent.kind, hplans.kind])] at hprecedes
    have hlt : n < i ↔ j < k := by
      rw [Fin.lt_def, Fin.lt_def]
      omega
    rw [hlt] at hprecedes
    exact ⟨j, _, hid, hchild, hprecedes⟩
  · rintro ⟨j, childId, hid, hchildId, hle, hlt⟩
    rw [hchild, JsValue.string.injEq] at hchildId
    subst hchildId
    obtain ⟨n, hn, hparent⟩ := exists_revision_place hu j
    have htarget := idOf_of_recordId (by decide) hparent.targetId
    rw [idOf_rewritten, hid, JsValue.string.injEq] at htarget
    subst htarget
    refine ⟨n, eq_actionName_iff.mpr ⟨hparent.kind, rfl⟩, ?_⟩
    rw [precedes_same_kind hl (by rw [hparent.phase, hplans.phase])
      (by rw [hparent.kind, hplans.kind])]
    have hiff : n < i ↔ j < k := by
      rw [Fin.lt_def, Fin.lt_def]
      omega
    rw [hiff]
    exact ⟨hle, hlt⟩

end Served

section Relations

variable {request : ArchiveImportRequest} {r : ArchiveRecord}

theorem relation_kind_field {e : JsString × JsString} (he : e ∈ relationEnds) :
    field (rewritten request .relations r) e.1 = field r e.1 := by
  apply field_mapRecord_of_not_mem
  revert e
  decide

theorem relation_end_field {e : JsString × JsString} (he : e ∈ relationEnds) :
    field (rewritten request .relations r) e.2 =
      mapRelationReference (mappingsOf request) (field r e.1) (field r e.2) := by
  simp only [relationEnds, List.mem_cons, List.not_mem_nil, or_false] at he
  rcases he with rfl | rfl <;>
    simp (disch := decide) only [rewritten, mapRecord, field_mapEnd_self, field_mapEnd_ne,
      field_mapField_ne, field_mapWorkspaceId_ne]

theorem external_end_field {e : JsString × JsString} (he : e ∈ relationEnds)
    (hext : field r e.1 = .string (js "external")) :
    field (rewritten request .relations r) e.2 = field r e.2 := by
  rw [relation_end_field he, hext]
  rfl

theorem references_relations : references .relations r =
    relationEnds.map fun e => (relationKind (field r e.1), field r e.2) := rfl

/-- A checked end outside the archive's resources, revisions and blobs is external. -/
theorem relationEnd_cases {r : ArchiveRecord}
    (h : validateRelation (fun kind => stringIds (transformed request kind)) r = [])
    {e : JsString × JsString} (he : e ∈ relationEnds) :
    field r e.1 = .string (js "external") ∨
      Known request (relationKind (field r e.1)) (field r e.2) := by
  rw [validateRelation, List.append_eq_nil_iff] at h
  have hend : field r e.1 = .string (js "external") ∨
      ∃ recordKind, endKind (field r e.1) = some recordKind ∧
        Known request recordKind (field r e.2) := by
    simp only [relationEnds, List.mem_cons, List.not_mem_nil, or_false] at he
    rcases he with rfl | rfl
    · exact end_known h.1
    · exact end_known h.2
  rcases hend with hext | ⟨recordKind, hkind, hknown⟩
  · exact Or.inl hext
  · right
    have hsame : relationKind (field r e.1) = recordKind := by
      rw [endKind] at hkind
      rw [relationKind]
      split at hkind
      · rename_i hresource
        rw [strictEq_string.mp hresource, ← Option.some.inj hkind]
        rfl
      · split at hkind
        · rename_i hrevision
          rw [if_pos hrevision, Option.some.inj hkind]
        · rename_i hrevision
          rw [if_neg hrevision]
          split at hkind
          · rename_i hblob
            rw [if_pos hblob, Option.some.inj hkind]
          · cases hkind
    rw [hsame]
    exact hknown

end Relations

section Ordered

variable {request : ArchiveImportRequest} {before revisions after : List ArchiveImportAction}

/-- The actions before they are sorted serve every dependency in order. -/
def AllServed (localeLe : JsString → JsString → Bool) (actions : List ArchiveImportAction) : Prop :=
  ∀ i : Fin actions.length, ∀ d ∈ (actions.get i).dependsOn, ∃ j : Fin actions.length,
    d = actionName (actions.get j) ∧
      Precedes (fun a b => actionLe localeLe a b = true) actions j i

/-- The references of every record are served. -/
theorem served_of_allServed {localeLe : JsString → JsString → Bool}
    (hu : Unsorted request before revisions after)
    (hs : AllServed localeLe (before ++ (revisions ++ after))) {kind : ArchiveRecordKind}
    {r : ArchiveRecord} (hr : r ∈ transformed request kind) {target : ArchiveRecordKind}
    {v : JsValue} (hp : (target, v) ∈ references kind r) (hk : target ≠ .retention)
    (hphase : phases (.record target) < phases (.record kind)) {s : JsString}
    (hv : v = .string s) : ImportedAs request target s := by
  obtain ⟨a, ha, hplans⟩ := hu.all kind r hr
  obtain ⟨i, rfl⟩ := List.mem_iff_get.mp ha
  rw [← served_iff localeLe hu hk i (by rw [hplans.phase]; exact hphase)]
  exact (dependsOn_served_iff hplans).mp (hs i) (target, v) hp s hv

theorem dependenciesPlanned_of_allServed {localeLe : JsString → JsString → Bool}
    (hl : LocaleOrder localeLe) (hu : Unsorted request before revisions after)
    (hc : Checked (transformed request))
    (hs : AllServed localeLe (before ++ (revisions ++ after))) :
    DependenciesPlanned localeLe request where
  schema := by
    intro hnil
    have hnone : ∀ s, ¬ ImportedAs request .schemaPackages s := by
      rintro s ⟨r, hr, -⟩
      rw [hnil] at hr
      cases hr
    constructor
    · rw [List.eq_nil_iff_forall_not_mem]
      intro r hr
      have hr' := mem_transformed.mpr ⟨r, hr, rfl⟩
      obtain ⟨s, hv, -⟩ := requireId_eq_nil.mp (hc.dataset _ hr')
      exact hnone s (served_of_allServed hu hs hr' List.mem_cons_self (by decide) (by decide) hv)
    · rw [List.eq_nil_iff_forall_not_mem]
      intro r hr
      have hr' := mem_transformed.mpr ⟨r, hr, rfl⟩
      have hcheck := (hc.revision _ hr').1
      rw [validateRevision, List.append_eq_nil_iff] at hcheck
      obtain ⟨s, hv, -⟩ := requireId_eq_nil.mp hcheck.2
      exact hnone s (served_of_allServed hu hs hr'
        (List.mem_cons_of_mem _ (List.mem_cons_of_mem _ List.mem_cons_self)) (by decide)
        (by decide) hv)
  external := by
    intro r hr e he hext id hid
    have hr' := mem_transformed.mpr ⟨r, hr, rfl⟩
    have hmem : (ArchiveRecordKind.resources, field (rewritten request .relations r) e.2) ∈
        references .relations (rewritten request .relations r) := by
      rw [references_relations, List.mem_map]
      refine ⟨e, he, ?_⟩
      rw [relation_kind_field he, hext]
      rfl
    refine served_of_allServed hu hs hr' hmem (by decide) (by decide) ?_
    rw [external_end_field he hext, hid]
  parents := by
    intro k id hid
    obtain ⟨i, hi, hplans⟩ := exists_revision_place hu k
    rw [← parent_served_iff hl hu k i hi hplans]
    rw [← field_rewritten_parent] at hid
    exact (dependsOn_served_iff hplans).mp (hs i) (.revisions, _)
      (List.mem_cons_of_mem _ (List.mem_cons_of_mem _ (List.mem_cons_of_mem _ List.mem_cons_self)))
      id hid

theorem importedAs_of_known {kind : ArchiveRecordKind} {v : JsValue} (h : Known request kind v)
    {s : JsString} (hv : v = .string s) : ImportedAs request kind s := by
  rw [hv] at h
  exact known_string_iff.mp h

/-- With every schema package in the plan, the references to them are known. -/
theorem schema_importedAs {localeLe : JsString → JsString → Bool}
    (hu : Unsorted request before revisions after) (hd : DependenciesPlanned localeLe request)
    (hsome : request.archive.verification.records .datasets ≠ [] ∨ archiveRevisions request ≠ [])
    {v : JsValue} {label : JsString}
    (hv : requireId (stringIds (transformed request .schemaPackages)) v label true = [])
    {s : JsString} (hs : v = .string s) : ImportedAs request .schemaPackages s := by
  obtain ⟨s', hs', hmem | ⟨-, hnil⟩⟩ := requireId_eq_nil.mp hv
  · exact importedAs_of_known ⟨s', hmem, hs'⟩ hs
  · exfalso
    have hempty : request.archive.verification.records .schemaPackages = [] := by
      rw [List.eq_nil_iff_forall_not_mem]
      intro r hr
      have hr' := mem_transformed.mpr ⟨r, hr, rfl⟩
      obtain ⟨a, -, hplans⟩ := hu.all .schemaPackages _ hr'
      have hin := mem_stringIds.mpr ⟨_, hr', idOf_of_recordId (by decide) hplans.targetId⟩
      rw [hnil] at hin
      cases hin
    obtain ⟨hdatasets, hrevisions⟩ := hd.schema hempty
    rcases hsome with h | h
    · exact h hdatasets
    · exact h hrevisions

theorem ne_nil_of_mem_transformed {kind : ArchiveRecordKind} {r : ArchiveRecord}
    (hr : r ∈ transformed request kind) : request.archive.verification.records kind ≠ [] := by
  obtain ⟨r₀, hr₀, -⟩ := mem_transformed.mp hr
  exact List.ne_nil_of_mem hr₀

/-- Every reference names a record of an earlier phase, or a parent. -/
theorem references_known {localeLe : JsString → JsString → Bool}
    (hu : Unsorted request before revisions after) (hc : Checked (transformed request))
    (hd : DependenciesPlanned localeLe request) {kind : ArchiveRecordKind} {r : ArchiveRecord}
    (hr : r ∈ transformed request kind) {target : ArchiveRecordKind} {v : JsValue}
    (hp : (target, v) ∈ references kind r) {s : JsString} (hv : v = .string s) :
    (kind = .revisions ∧ target = .revisions ∧ v = field r (js "parentRevisionId")) ∨
      (target ≠ .retention ∧ phases (.record target) < phases (.record kind) ∧
        ImportedAs request target s) := by
  cases kind with
  | datasets =>
    obtain ⟨rfl, rfl⟩ := Prod.mk.inj (List.mem_singleton.mp hp)
    exact Or.inr ⟨by decide, by decide, schema_importedAs hu hd
      (Or.inl (ne_nil_of_mem_transformed hr)) (hc.dataset r hr) hv⟩
  | resources =>
    obtain ⟨rfl, rfl⟩ := Prod.mk.inj (List.mem_singleton.mp hp)
    exact Or.inr ⟨by decide, by decide, importedAs_of_known (current_known (hc.resource r hr)).1 hv⟩
  | revisions =>
    have hcheck := (hc.revision r hr).1
    rw [validateRevision, List.append_eq_nil_iff, List.append_eq_nil_iff] at hcheck
    simp only [references, List.mem_cons, Prod.mk.injEq, List.not_mem_nil, or_false] at hp
    rcases hp with ⟨rfl, rfl⟩ | ⟨rfl, rfl⟩ | ⟨rfl, rfl⟩ | ⟨rfl, rfl⟩
    · exact Or.inr ⟨by decide, by decide, importedAs_of_known (known_of_requireId hcheck.1.1) hv⟩
    · exact Or.inr ⟨by decide, by decide, importedAs_of_known (known_of_requireId hcheck.1.2) hv⟩
    · exact Or.inr ⟨by decide, by decide, schema_importedAs hu hd
        (Or.inr (ne_nil_of_mem_transformed hr)) hcheck.2 hv⟩
    · exact Or.inl ⟨rfl, rfl, rfl⟩
  | revisionBlobs =>
    have hcheck := hc.attachment r hr
    rw [validateAttachment, List.append_eq_nil_iff] at hcheck
    simp only [references, List.mem_cons, Prod.mk.injEq, List.not_mem_nil, or_false] at hp
    rcases hp with ⟨rfl, rfl⟩ | ⟨rfl, rfl⟩
    · exact Or.inr ⟨by decide, by decide, importedAs_of_known (known_of_requireId hcheck.1) hv⟩
    · exact Or.inr ⟨by decide, by decide, importedAs_of_known (known_of_requireId hcheck.2) hv⟩
  | relations =>
    rw [references_relations] at hp
    obtain ⟨e, he, heq⟩ := List.mem_map.mp hp
    obtain ⟨rfl, rfl⟩ := Prod.mk.inj heq
    have hkinds : ∀ w, relationKind w ≠ .retention ∧
        phases (.record (relationKind w)) < phases (.record .relations) := by
      intro w
      rw [relationKind]
      split
      · decide
      · split <;> decide
    right
    refine ⟨(hkinds _).1, (hkinds _).2, ?_⟩
    rcases relationEnd_cases (hc.relation r hr) he with hext | hknown
    · obtain ⟨r₀, hr₀, rfl⟩ := mem_transformed.mp hr
      rw [relation_kind_field he] at hext
      rw [external_end_field he hext] at hv
      rw [relation_kind_field he, hext]
      exact hd.external r₀ hr₀ e he hext s hv
    · exact importedAs_of_known hknown hv
  | tombstones =>
    obtain ⟨rfl, rfl⟩ := Prod.mk.inj (List.mem_singleton.mp hp)
    exact Or.inr ⟨by decide, by decide,
      importedAs_of_known (prior_known (hc.tombstone r hr) s hv) hv⟩
  | _ => cases hp

theorem allServed_of_dependenciesPlanned {localeLe : JsString → JsString → Bool}
    (hl : LocaleOrder localeLe) (hu : Unsorted request before revisions after)
    (hc : Checked (transformed request)) (hd : DependenciesPlanned localeLe request) :
    AllServed localeLe (before ++ (revisions ++ after)) := by
  intro i
  rcases hu.planned _ (List.get_mem _ i) with ⟨kind, r, hr, hplans⟩ | ⟨r, hr, hplans⟩
  · rw [dependsOn_served_iff hplans]
    rintro ⟨target, v⟩ hp s hv
    rcases references_known hu hc hd hr hp hv with ⟨rfl, rfl, hparent⟩ | ⟨hk, hphase, himported⟩
    · obtain ⟨k, hk⟩ := revision_place hu hplans.kind
      obtain ⟨i', hi', hplans'⟩ := exists_revision_place hu k
      obtain rfl : i = i' := Fin.ext (by omega)
      have hsame := hplans.record.symm.trans hplans'.record
      rw [Option.some.injEq] at hsame
      rw [parent_served_iff hl hu k i hk hplans']
      apply hd.parents k s
      rw [← field_rewritten_parent, ← hsame, ← hparent]
      exact hv
    · exact (served_iff localeLe hu hk i (by rw [hplans.phase]; exact hphase) s).mpr himported
  · intro d hdep
    obtain ⟨blobId, hid, hdepends⟩ := hplans.dependsOn
    rw [hdepends, List.mem_singleton] at hdep
    rw [hdep]
    apply (served_iff localeLe hu (by decide : ArchiveRecordKind.blobs ≠ .retention) i
      (by rw [hplans.phase]; decide) blobId).mpr
    exact known_string_iff.mp
      ⟨blobId, mem_stringIds.mpr ⟨r, hr, idOf_of_recordId (by decide) hid⟩, rfl⟩

end Ordered

/-- A ready plan is in the order of its dependencies exactly when the dependencies that
the phases do not order are planned, and every parent sorts before its child. -/
theorem ready_plan_ordered_iff (localeLe : JsString → JsString → Bool)
    (hl : LocaleOrder localeLe) (request : ArchiveImportRequest) (plan : ArchiveImportPlan)
    (h : planArchiveImport localeLe request = some plan) (hr : plan.status = .ready) :
    DependencyOrdered plan ↔ DependenciesPlanned localeLe request := by
  obtain ⟨before, revisions, after, hu, hactions⟩ := ready_unsorted h hr
  obtain ⟨-, -, -, -, hgraph, -, -⟩ := planArchiveImport_ready h hr
  have hc := validateGraph_eq_nil hgraph
  rw [dependencyOrdered_iff hl hactions]
  constructor
  · exact dependenciesPlanned_of_allServed hl hu hc
  · exact allServed_of_dependenciesPlanned hl hu hc

/-- The sample archive with its schema package and with these revisions. -/
def orderedRecords (revisions : List ArchiveRecord) : Records
  | .schemaPackages => [[(js "id", .string (js "s"))]]
  | .revisions => revisions
  | kind => sampleRecords .null kind

def orderedRequest (revisions : List ArchiveRecord) : ArchiveImportRequest where
  archive := ⟨EntryMap.empty,
    { sampleManifest with recordCounts := fun kind => (orderedRecords revisions kind).length },
    ⟨true, orderedRecords revisions⟩⟩
  mode := .preserveIds
  conflictMode := .rejectOnError
  target := ⟨none, fun _ => none, []⟩

/-- Revision `v` and a second revision with `v` as its parent. -/
def childRevisions (child : JsString) : List ArchiveRecord :=
  [(js "revisionNumber", numberOf 1) :: unnumbered (js "v") .null,
    (js "revisionNumber", numberOf 2) :: unnumbered child (.string (js "v"))]

theorem localeOrder_units : LocaleOrder unitsLe := ⟨Columns.unitsLe_total, Columns.unitsLe_trans⟩

theorem ready_plan_ordered_sample : ∃ plan, LocaleOrder unitsLe ∧
    planArchiveImport unitsLe (orderedRequest (childRevisions (js "w"))) = some plan ∧
      plan.status = .ready ∧ DependencyOrdered plan := by
  have hplan : (planArchiveImport unitsLe (orderedRequest (childRevisions (js "w")))).map
      (·.status) = some .ready := by decide +kernel
  obtain ⟨plan, h, hr⟩ := Option.map_eq_some_iff.mp hplan
  refine ⟨plan, localeOrder_units, h, hr,
    (ready_plan_ordered_iff unitsLe localeOrder_units _ plan h hr).mpr ⟨?_, ?_, ?_⟩⟩
  · intro hnil
    cases hnil
  · intro r hrel
    cases hrel
  · intro i id hid
    have hlt : i.val < 2 := i.isLt
    obtain h0 | h1 : i.val = 0 ∨ i.val = 1 := by omega
    · obtain rfl : i = ⟨0, by decide⟩ := Fin.ext h0
      have hnull : imported (orderedRequest (childRevisions (js "w"))) .revisions .null =
          .string id := hid
      cases hnull
    · obtain rfl : i = ⟨1, by decide⟩ := Fin.ext h1
      have hparent : imported (orderedRequest (childRevisions (js "w"))) .revisions
          (.string (js "v")) = .string (js "v") := strictEq_string.mp (by decide +kernel)
      have hchild : imported (orderedRequest (childRevisions (js "w"))) .revisions
          (.string (js "w")) = .string (js "w") := strictEq_string.mp (by decide +kernel)
      have hv : imported (orderedRequest (childRevisions (js "w"))) .revisions
          (.string (js "v")) = .string id := hid
      rw [hparent, JsValue.string.injEq] at hv
      rw [← hv]
      exact ⟨⟨0, by decide⟩, js "w", hparent, hchild, by decide, Or.inl (by decide)⟩

/-- The second revision sorts before its parent. -/
theorem child_before_parent_ready : ∃ plan, LocaleOrder unitsLe ∧
    (orderedRequest (childRevisions (js "u"))).archive.verification.valid = true ∧
    planArchiveImport unitsLe (orderedRequest (childRevisions (js "u"))) = some plan ∧
      plan.status = .ready ∧ ¬ DependencyOrdered plan := by
  have hplan : (planArchiveImport unitsLe (orderedRequest (childRevisions (js "u")))).map
      (·.status) = some .ready := by decide +kernel
  obtain ⟨plan, h, hr⟩ := Option.map_eq_some_iff.mp hplan
  refine ⟨plan, localeOrder_units, rfl, h, hr, ?_⟩
  intro hordered
  obtain ⟨before, revisions, after, hu, hactions⟩ := ready_unsorted h hr
  obtain ⟨-, -, -, -, hgraph, -, -⟩ := planArchiveImport_ready h hr
  rw [dependencyOrdered_iff localeOrder_units hactions] at hordered
  have hd := dependenciesPlanned_of_allServed localeOrder_units hu (validateGraph_eq_nil hgraph)
    hordered
  obtain ⟨j, childId, -, hchild, hle, -⟩ :=
    hd.parents ⟨1, by decide⟩ (js "v") (strictEq_string.mp (by decide +kernel))
  have hu : imported (orderedRequest (childRevisions (js "u"))) .revisions
      (idOf ((archiveRevisions (orderedRequest (childRevisions (js "u")))).get ⟨1, by decide⟩)) =
        .string (js "u") := strictEq_string.mp (by decide +kernel)
  rw [← JsValue.string.inj (hu.symm.trans hchild)] at hle
  revert hle
  decide

end TrustCore.ImportDependencies
