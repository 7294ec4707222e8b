import TrustCore.ImportReferences

/-!
# Parents of the planned revisions

`validateGraph` never looks for a cycle: it compares each revision with the last
revision that has its parent's id, by resource and by `Number(revisionNumber)`.
The comparison says nothing where a number is `NaN`, and it does not see the
other revisions with that id. A cycle that a ready plan has passes through one
of the two.
-/

namespace TrustCore.RevisionParents

open TrustCore.Utf TrustCore.Json TrustCore.Numbers TrustCore.Dynamic TrustCore.ArchiveFormat
open TrustCore.ImportPlan TrustCore.ImportReferences
open Relation

/-- One revision names the other as its parent. -/
def ParentLink (revisions : List ArchiveRecord) (child parent : ArchiveRecord) : Prop :=
  child ∈ revisions ∧ parent ∈ revisions ∧
    ∃ id, field child (js "parentRevisionId") = .string id ∧ idOf parent = .string id

/-- No revision is its own ancestor, and all its ancestors are of its resource. -/
structure SoundHistory (revisions : List ArchiveRecord) : Prop where
  acyclic : ∀ r, ¬ TransGen (ParentLink revisions) r r
  oneResource : ∀ r ancestor, ReflTransGen (ParentLink revisions) r ancestor →
    field ancestor (js "resourceId") = field r (js "resourceId")

section Archive

variable (request : ArchiveImportRequest)

/-- The revisions as the archive has them. -/
def archiveRevisions : List ArchiveRecord := request.archive.verification.records .revisions

/-- One revision of the archive names the other as its parent, once ids are imported. -/
def ArchiveParent (child parent : ArchiveRecord) : Prop :=
  child ∈ archiveRevisions request ∧ parent ∈ archiveRevisions request ∧
    ∃ id, imported request .revisions (field child (js "parentRevisionId")) = .string id ∧
      imported request .revisions (idOf parent) = .string id

/-- The revision has no number to compare by, or not its id alone. -/
def Uncompared (r : ArchiveRecord) : Prop :=
  toNumber (field r (js "revisionNumber")) = some .nan ∨
    ∃ r' ∈ archiveRevisions request, r' ≠ r ∧
      imported request .revisions (idOf r') = imported request .revisions (idOf r)

/-- What the comparison of numbers and resources leaves open. -/
structure UncomparedSound : Prop where
  acyclic : ∀ r, Uncompared request r → ¬ TransGen (ArchiveParent request) r r
  oneResource : ∀ r parent parent', ArchiveParent request r parent →
    ArchiveParent request r parent' →
      imported request .resources (field parent (js "resourceId")) =
        imported request .resources (field parent' (js "resourceId"))

end Archive

/-- On a cycle, every step is between two elements of a cycle. -/
theorem transGen_on_cycle {α : Type} {R : α → α → Prop} {a b : α} (hab : TransGen R a b)
    (hba : TransGen R b a) :
    TransGen (fun x y => R x y ∧ TransGen R x x ∧ TransGen R y y) a b := by
  induction hab with
  | single h => exact .single ⟨h, hba.head h, hba.tail h⟩
  | @tail b c hab hbc ih =>
    have hca := hba
    have hstep := ih (hca.head hbc)
    have hbb : TransGen R b b := (hca.head hbc).trans hab
    have hcc : TransGen R c c := (hca.trans hab).tail hbc
    exact hstep.tail ⟨hbc, hbb, hcc⟩

/-- Numbers that fall with every step come to no cycle. -/
theorem not_transGen_self {α : Type} {R : α → α → Prop} (number : α → JsNumber)
    (h : ∀ a b, R a b → number a ≠ .nan ∧ number b ≠ .nan ∧ numberLe (number a) (number b) = false)
    (a : α) : ¬ TransGen R a a := by
  have hfalls : ∀ b, TransGen R a b →
      number a ≠ .nan ∧ number b ≠ .nan ∧ numberLe (number a) (number b) = false := by
    intro b hab
    induction hab with
    | single hab => exact h _ _ hab
    | @tail b c _ hbc ih =>
      obtain ⟨ha, hb, hab⟩ := ih
      obtain ⟨-, hc, hbc⟩ := h _ _ hbc
      have hcb : numberLe (number c) (number b) = true := by
        rcases numberLe_total hb hc with hle | hle
        · rw [hbc] at hle
          cases hle
        · exact hle
      refine ⟨ha, hc, ?_⟩
      by_contra hac
      rw [Bool.not_eq_false] at hac
      rw [numberLe_trans hac hcb] at hab
      cases hab
  intro haa
  obtain ⟨ha, -, hlt⟩ := hfalls a haa
  rcases numberLe_total ha ha with hle | hle
  · rw [hlt] at hle
    cases hle
  · rw [hlt] at hle
    cases hle

section Rewritten

variable {request : ArchiveImportRequest}

theorem field_rewritten_parent (r : ArchiveRecord) :
    field (rewritten request .revisions r) (js "parentRevisionId") =
      imported request .revisions (field r (js "parentRevisionId")) := revision_fields.1

theorem field_rewritten_resource (r : ArchiveRecord) :
    field (rewritten request .revisions r) (js "resourceId") =
      imported request .resources (field r (js "resourceId")) := revision_resourceId

theorem idOf_rewritten (r : ArchiveRecord) :
    idOf (rewritten request .revisions r) = imported request .revisions (idOf r) :=
  idOf_mapRecord .revisions

theorem field_rewritten_number (r : ArchiveRecord) :
    field (rewritten request .revisions r) (js "revisionNumber") = field r (js "revisionNumber") :=
  field_mapRecord_of_not_mem .revisions (by decide)

theorem parentLink_rewritten {child parent : ArchiveRecord} (hc : child ∈ archiveRevisions request)
    (hp : parent ∈ archiveRevisions request) :
    ParentLink (transformed request .revisions) (rewritten request .revisions child)
        (rewritten request .revisions parent) ↔ ArchiveParent request child parent := by
  have hc' := mem_transformed.mpr ⟨child, hc, rfl⟩
  have hp' := mem_transformed.mpr ⟨parent, hp, rfl⟩
  simp only [ParentLink, ArchiveParent, hc, hp, hc', hp', true_and, field_rewritten_parent,
    idOf_rewritten]

theorem transGen_rewritten {a b : ArchiveRecord} (h : TransGen (ArchiveParent request) a b) :
    TransGen (ParentLink (transformed request .revisions)) (rewritten request .revisions a)
      (rewritten request .revisions b) := by
  induction h with
  | single hlink => exact .single ((parentLink_rewritten hlink.1 hlink.2.1).mpr hlink)
  | tail _ hlink ih => exact ih.tail ((parentLink_rewritten hlink.1 hlink.2.1).mpr hlink)

theorem transGen_archive {x y : ArchiveRecord}
    (h : TransGen (ParentLink (transformed request .revisions)) x y) {a b : ArchiveRecord}
    (ha : a ∈ archiveRevisions request) (hb : b ∈ archiveRevisions request)
    (hx : rewritten request .revisions a = x) (hy : rewritten request .revisions b = y) :
    TransGen (ArchiveParent request) a b := by
  induction h generalizing b with
  | single hlink =>
    subst hx hy
    exact .single ((parentLink_rewritten ha hb).mp hlink)
  | @tail y z _ hlink ih =>
    obtain ⟨c, hc, hcy⟩ := mem_transformed.mp hlink.1
    have hac := ih hc hcy
    subst hcy hy
    exact hac.tail ((parentLink_rewritten hc hb).mp hlink)

/-- The revision that a passed check has compared with. -/
theorem validateParent_compared {revisions : List ArchiveRecord} {r : ArchiveRecord}
    (h : validateParent revisions r = some []) {id : JsString}
    (hid : field r (js "parentRevisionId") = .string id) :
    ∃ parent ∈ revisions, idOf parent = .string id ∧
      field parent (js "resourceId") = field r (js "resourceId") ∧
      ∃ parentNumber number, toNumber (field parent (js "revisionNumber")) = some parentNumber ∧
        toNumber (field r (js "revisionNumber")) = some number ∧
        numberLe number parentNumber = false := by
  rw [validateParent, hid] at h
  simp only at h
  split at h
  · cases h
  · rename_i parent hfind
    have hmem := List.mem_reverse.mp (List.mem_of_find?_eq_some hfind)
    have hidOf : idOf parent = .string id := by simpa using List.find?_some hfind
    obtain ⟨invalid, hinvalid, hnil⟩ := Option.map_eq_some_iff.mp h
    have hfalse : invalid = false := by
      cases invalid with
      | false => rfl
      | true => cases hnil
    rw [hfalse, parentInvalid] at hinvalid
    split at hinvalid
    · cases hinvalid
    · rename_i hresource
      rw [Bool.not_eq_true', Bool.not_eq_false] at hresource
      split at hinvalid
      · rename_i parentNumber number hparentNumber hnumber
        exact ⟨parent, hmem, hidOf, eq_of_strictEq hresource, parentNumber, number, hparentNumber,
          hnumber, Option.some.inj hinvalid⟩
      · cases hinvalid

/-- A link between revisions that have numbers and their ids alone has been compared. -/
theorem number_lt_of_compared {child parent : ArchiveRecord}
    (hcheck : validateParent (transformed request .revisions)
      (rewritten request .revisions child) = some [])
    (hlink : ArchiveParent request child parent) (hchild : ¬ Uncompared request child)
    (hparent : ¬ Uncompared request parent) :
    ∃ parentNumber number, toNumber (field parent (js "revisionNumber")) = some parentNumber ∧
      toNumber (field child (js "revisionNumber")) = some number ∧
      number ≠ .nan ∧ parentNumber ≠ .nan ∧ numberLe number parentNumber = false := by
  obtain ⟨-, -, id, hid, hpid⟩ := hlink
  rw [← field_rewritten_parent] at hid
  obtain ⟨q, hq, hqid, -, parentNumber, number, hpn, hn, hlt⟩ := validateParent_compared hcheck hid
  obtain ⟨q₀, hq₀, rfl⟩ := mem_transformed.mp hq
  have hsame : q₀ = parent := by
    by_contra hne
    apply hparent
    right
    refine ⟨q₀, hq₀, hne, ?_⟩
    rw [← idOf_rewritten, hqid, hpid]
  subst hsame
  rw [field_rewritten_number] at hpn hn
  refine ⟨parentNumber, number, hpn, hn, ?_, ?_, hlt⟩
  · rintro rfl
    exact hchild (Or.inl hn)
  · rintro rfl
    exact hparent (Or.inl hpn)

end Rewritten

section Ready

variable {request : ArchiveImportRequest}
  (hcheck : ∀ r ∈ transformed request .revisions,
    validateParent (transformed request .revisions) r = some [])

include hcheck

theorem acyclic_of_uncompared (hu : UncomparedSound request) (x : ArchiveRecord) :
    ¬ TransGen (ParentLink (transformed request .revisions)) x x := by
  intro hcycle
  have hon := transGen_on_cycle hcycle hcycle
  let number (r : ArchiveRecord) : JsNumber :=
    (toNumber (field r (js "revisionNumber"))).getD .nan
  refine not_transGen_self number ?_ x hon
  intro child parent ⟨hlink, hcc, hpp⟩
  obtain ⟨c, hc, rfl⟩ := mem_transformed.mp hlink.1
  obtain ⟨p, hp, rfl⟩ := mem_transformed.mp hlink.2.1
  have hchild : ¬ Uncompared request c := fun h => hu.acyclic c h (transGen_archive hcc hc hc rfl rfl)
  have hparent : ¬ Uncompared request p := fun h => hu.acyclic p h (transGen_archive hpp hp hp rfl rfl)
  obtain ⟨parentNumber, n, hpn, hn, hn0, hpn0, hlt⟩ := number_lt_of_compared
    (hcheck _ hlink.1) ((parentLink_rewritten hc hp).mp hlink) hchild hparent
  have hnum : number (rewritten request .revisions c) = n := by
    simp only [number, field_rewritten_number, hn, Option.getD_some]
  have hpnum : number (rewritten request .revisions p) = parentNumber := by
    simp only [number, field_rewritten_number, hpn, Option.getD_some]
  rw [hnum, hpnum]
  exact ⟨hn0, hpn0, hlt⟩

theorem resource_of_link (hu : UncomparedSound request) {child parent : ArchiveRecord}
    (hlink : ParentLink (transformed request .revisions) child parent) :
    field parent (js "resourceId") = field child (js "resourceId") := by
  obtain ⟨id, hid, hpid⟩ := hlink.2.2
  obtain ⟨q, hq, hqid, hresource, -⟩ := validateParent_compared (hcheck _ hlink.1) hid
  obtain ⟨c, hc, rfl⟩ := mem_transformed.mp hlink.1
  obtain ⟨p, hp, rfl⟩ := mem_transformed.mp hlink.2.1
  obtain ⟨q₀, hq₀, rfl⟩ := mem_transformed.mp hq
  have hparent := (parentLink_rewritten hc hp).mp hlink
  have hlast := (parentLink_rewritten hc hq₀).mp ⟨hlink.1, hq, id, hid, hqid⟩
  rw [← hresource, field_rewritten_resource, field_rewritten_resource]
  exact hu.oneResource c p q₀ hparent hlast

theorem soundHistory_iff :
    SoundHistory (transformed request .revisions) ↔ UncomparedSound request := by
  constructor
  · intro hs
    constructor
    · intro r _ hcycle
      exact hs.acyclic _ (transGen_rewritten hcycle)
    · intro r parent parent' h h'
      rw [← field_rewritten_resource, ← field_rewritten_resource,
        hs.oneResource _ _ (.single ((parentLink_rewritten h.1 h.2.1).mpr h)),
        hs.oneResource _ _ (.single ((parentLink_rewritten h'.1 h'.2.1).mpr h'))]
  · intro hu
    constructor
    · exact acyclic_of_uncompared hcheck hu
    · intro r ancestor hpath
      induction hpath with
      | refl => rfl
      | tail _ hlink ih => rw [resource_of_link hcheck hu hlink, ih]

end Ready

theorem soundHistory_congr {l l' : List ArchiveRecord} (h : ∀ r, r ∈ l ↔ r ∈ l') :
    SoundHistory l ↔ SoundHistory l' := by
  have hlinks : ParentLink l = ParentLink l' := by
    funext child parent
    simp only [ParentLink, h]
  constructor
  · intro ⟨hacyclic, hresource⟩
    rw [hlinks] at hacyclic hresource
    exact ⟨hacyclic, hresource⟩
  · intro ⟨hacyclic, hresource⟩
    rw [← hlinks] at hacyclic hresource
    exact ⟨hacyclic, hresource⟩

/-- The parents of a ready plan form an acyclic history within each resource exactly
when the revisions that the checks pass over are sound. -/
theorem ready_history_sound_iff (localeLe : JsString → JsString → Bool)
    (request : ArchiveImportRequest) (plan : ArchiveImportPlan)
    (h : planArchiveImport localeLe request = some plan) (hr : plan.status = .ready) :
    SoundHistory (plannedRecords plan .revisions) ↔ UncomparedSound request := by
  obtain ⟨-, -, -, -, hgraph, -, -⟩ := planArchiveImport_ready h hr
  have hchecked := validateGraph_eq_nil hgraph
  rw [soundHistory_congr (mem_plannedRecords h hr .revisions)]
  exact soundHistory_iff fun r hmem => (hchecked.revision r hmem).2

/-- A revision of resource `r`, without a number. -/
def unnumbered (id : JsString) (parent : JsValue) : ArchiveRecord :=
  [(js "id", .string id), (js "workspaceId", .string (js "w")), (js "datasetId", .string (js "d")),
    (js "resourceId", .string (js "r")), (js "schemaPackageId", .string (js "s")),
    (js "parentRevisionId", parent), (js "restoredFromRevisionId", .null),
    (js "mergeParentRevisionIds", .array [])]

/-- The sample archive with other revisions. -/
def historyRecords (revisions : List ArchiveRecord) : Records
  | .revisions => revisions
  | kind => sampleRecords .null kind

def historyRequest (revisions : List ArchiveRecord) : ArchiveImportRequest where
  archive := ⟨EntryMap.empty,
    { sampleManifest with recordCounts := fun kind => (historyRecords revisions kind).length },
    ⟨true, historyRecords revisions⟩⟩
  mode := .preserveIds
  conflictMode := .rejectOnError
  target := ⟨none, fun _ => none, []⟩

def firstRevision : ArchiveRecord :=
  (js "revisionNumber", numberOf 1) :: unnumbered (js "v") .null

def secondRevision : ArchiveRecord :=
  (js "revisionNumber", numberOf 2) :: unnumbered (js "u") (.string (js "v"))

/-- A revision and its parent. -/
theorem ready_history_sound_linked : ∃ plan,
    planArchiveImport unitsLe (historyRequest [firstRevision, secondRevision]) = some plan ∧
      plan.status = .ready ∧
      (∃ child parent, ParentLink (plannedRecords plan .revisions) child parent) ∧
      SoundHistory (plannedRecords plan .revisions) := by
  have hplan : (planArchiveImport unitsLe (historyRequest [firstRevision, secondRevision])).map
      (·.status) = some .ready := by decide +kernel
  obtain ⟨plan, h, hr⟩ := Option.map_eq_some_iff.mp hplan
  let request := historyRequest [firstRevision, secondRevision]
  have hparent : imported request .revisions (field secondRevision (js "parentRevisionId")) =
      .string (js "v") := strictEq_string.mp (by decide +kernel)
  have hfirst : imported request .revisions (idOf firstRevision) = .string (js "v") :=
    strictEq_string.mp (by decide +kernel)
  have hsecond : imported request .revisions (idOf secondRevision) = .string (js "u") :=
    strictEq_string.mp (by decide +kernel)
  have hlinked : ArchiveParent request secondRevision firstRevision :=
    ⟨List.mem_cons_of_mem _ List.mem_cons_self, List.mem_cons_self, js "v", hparent, hfirst⟩
  have honly : ∀ child parent, ArchiveParent request child parent →
      child = secondRevision ∧ parent = firstRevision := by
    rintro child parent ⟨hchild, hmem, id, hid, hpid⟩
    rcases List.mem_pair.mp hchild with rfl | rfl
    · cases hid
    · rcases List.mem_pair.mp hmem with rfl | rfl
      · exact ⟨rfl, rfl⟩
      · rw [hsecond, ← hid, hparent] at hpid
        exact absurd (JsValue.string.inj hpid) (by decide)
  have hne : firstRevision ≠ secondRevision := by
    intro heq
    rw [heq, hsecond] at hfirst
    exact absurd (JsValue.string.inj hfirst) (by decide)
  refine ⟨plan, h, hr, ?_, (ready_history_sound_iff unitsLe _ plan h hr).mpr ⟨?_, ?_⟩⟩
  · have hlink := (parentLink_rewritten hlinked.1 hlinked.2.1).mpr hlinked
    exact ⟨_, _, (mem_plannedRecords h hr .revisions _).mpr hlink.1,
      (mem_plannedRecords h hr .revisions _).mpr hlink.2.1, hlink.2.2⟩
  · intro r _ hcycle
    obtain ⟨parent, hhead, hrest⟩ := TransGen.head'_iff.mp hcycle
    obtain ⟨rfl, rfl⟩ := honly _ _ hhead
    rcases hrest.cases_head with heq | ⟨next, hnext, -⟩
    · exact hne heq
    · exact hne (honly _ _ hnext).1
  · intro r parent parent' hlink hlink'
    rw [(honly _ _ hlink).2, (honly _ _ hlink').2]

/-- Two revisions that name each other as parents, and a ready plan. -/
def cyclicRevisions : List ArchiveRecord :=
  [unnumbered (js "v") (.string (js "u")), unnumbered (js "u") (.string (js "v"))]

theorem cyclic_revisions_ready : ∃ plan,
    (historyRequest cyclicRevisions).archive.verification.valid = true ∧
    planArchiveImport unitsLe (historyRequest cyclicRevisions) = some plan ∧
      plan.status = .ready ∧ ¬ SoundHistory (plannedRecords plan .revisions) := by
  have hplan : (planArchiveImport unitsLe (historyRequest cyclicRevisions)).map (·.status) =
      some .ready := by decide +kernel
  obtain ⟨plan, h, hr⟩ := Option.map_eq_some_iff.mp hplan
  refine ⟨plan, rfl, h, hr, ?_⟩
  intro hs
  rw [soundHistory_congr (mem_plannedRecords h hr .revisions)] at hs
  let v := unnumbered (js "v") (.string (js "u"))
  let u := unnumbered (js "u") (.string (js "v"))
  have hv : v ∈ archiveRevisions (historyRequest cyclicRevisions) := by
    exact List.mem_cons_self
  have hu' : u ∈ archiveRevisions (historyRequest cyclicRevisions) := by
    exact List.mem_cons_of_mem _ List.mem_cons_self
  have hvu : ArchiveParent (historyRequest cyclicRevisions) v u :=
    ⟨hv, hu', js "u", strictEq_string.mp (by decide +kernel), strictEq_string.mp (by decide +kernel)⟩
  have huv : ArchiveParent (historyRequest cyclicRevisions) u v :=
    ⟨hu', hv, js "v", strictEq_string.mp (by decide +kernel), strictEq_string.mp (by decide +kernel)⟩
  exact hs.acyclic _ (transGen_rewritten ((TransGen.single hvu).tail huv))

end TrustCore.RevisionParents
