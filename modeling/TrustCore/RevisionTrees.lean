import Mathlib.Logic.Relation
import TrustCore.Verification

/-!
# Trees of revisions

`verifyResourceGraph` looks at one revision and its parent at a time. That the
revisions of a resource are one tree below revision 1 follows, since each step to
a parent lowers the number. The code takes an empty id for no id.
-/

namespace TrustCore.RevisionTrees

open TrustCore.Utf TrustCore.Json TrustCore.Verification
open TrustCore.History (Resource Revision)
open Relation

/-! ## Trees with ranks -/

section Trees

variable {α : Type} (nodes : List α) (Parent : α → α → Prop)

def Link (a b : α) : Prop := a ∈ nodes ∧ b ∈ nodes ∧ Parent a b

/-- The nodes are a tree below the root. -/
structure IsTree (root : α) : Prop where
  mem : root ∈ nodes
  rooted : ∀ a, ¬ Link nodes Parent a root
  parent : ∀ b ∈ nodes, b ≠ root → ∃! a, Link nodes Parent a b
  reaches : ∀ b ∈ nodes, ReflTransGen (Link nodes Parent) root b
  acyclic : ∀ a, ¬ TransGen (Link nodes Parent) a a

variable {nodes Parent} {root : α}

/-- Parents of a lower rank lead down to the root. -/
theorem isTree_of_rank (rank : α → Nat) (hmem : root ∈ nodes)
    (hrooted : ∀ a, ¬ Link nodes Parent a root)
    (hunique : ∀ a a' b, Link nodes Parent a b → Link nodes Parent a' b → a = a')
    (hlower : ∀ b ∈ nodes, b ≠ root → ∃ a, Link nodes Parent a b ∧ rank a < rank b) :
    IsTree nodes Parent root where
  mem := hmem
  rooted := hrooted
  parent := by
    intro b hb hne
    obtain ⟨a, hlink, -⟩ := hlower b hb hne
    exact ⟨a, hlink, fun a' hlink' => hunique a' a b hlink' hlink⟩
  reaches := by
    intro b hb
    induction hrank : rank b using Nat.strong_induction_on generalizing b with
    | _ n ih =>
      by_cases hroot : b = root
      · rw [hroot]
      · obtain ⟨a, hlink, hlt⟩ := hlower b hb hroot
        exact (ih (rank a) (hrank ▸ hlt) a hlink.1 rfl).tail hlink
  acyclic := by
    have hrises : ∀ a b, Link nodes Parent a b → rank a < rank b := by
      intro a b hlink
      have hne : b ≠ root := by
        rintro rfl
        exact hrooted a hlink
      obtain ⟨a', hlink', hlt⟩ := hlower b hlink.2.1 hne
      rwa [hunique a a' b hlink hlink']
    have hpath : ∀ a b, TransGen (Link nodes Parent) a b → rank a < rank b := by
      intro a b h
      induction h with
      | single hlink => exact hrises _ _ hlink
      | tail _ hlink ih => exact ih.trans (hrises _ _ hlink)
    exact fun a h => absurd (hpath a a h) (Nat.lt_irrefl _)

end Trees

/-! ## Graphs of a resource -/

/-- The revisions of a resource in a list. -/
def ownRevisions (resource : Resource) (revisions : List Revision) : List Revision :=
  revisions.filter (·.resourceId == resource.id)

section Graph

-- The id that a field with an id or `null` names.
variable (named : Option JsString → Option JsString)

def IsParent (parent child : Revision) : Prop := named child.parentRevisionId = some parent.id

/-- One history, with branches and gaps in its numbers, and a pointer into it. -/
structure SoundGraph (resource : Resource) (own : List Revision) : Prop where
  scope : ∀ r ∈ own, r.workspaceId = resource.workspaceId ∧ r.datasetId = resource.datasetId
  numbers : (own.map (·.revisionNumber)).Nodup
  tree : own ≠ [] → ∃ root, IsTree own (IsParent named) root ∧
    root.revisionNumber = 1 ∧ root.parentRevisionId = none
  follows : ∀ child ∈ own, child.revisionNumber ≠ 1 →
    ∃ parent ∈ own, IsParent named parent child ∧ parent.revisionNumber < child.revisionNumber
  current : ∀ id, named resource.currentRevisionId = some id → ∃ r ∈ own, r.id = id

end Graph

/-! ## The checks of one revision -/

section Checks

variable {resource : Resource} {own revisions : List Revision} {revision : Revision}

theorem lastById_some {id : JsString} (h : lastById own id = some revision) :
    revision ∈ own ∧ revision.id = id :=
  ⟨List.mem_reverse.mp (List.mem_of_find?_eq_some h), by simpa using List.find?_some h⟩

theorem lastById_of_mem (hids : (own.map (·.id)).Nodup) (hmem : revision ∈ own) :
    lastById own revision.id = some revision := by
  cases hfound : lastById own revision.id with
  | none =>
    have hnone := List.find?_eq_none.mp hfound revision (List.mem_reverse.mpr hmem)
    simp at hnone
  | some found =>
    obtain ⟨hmem', hid⟩ := lastById_some hfound
    rw [List.inj_on_of_nodup_map hids hmem' hmem hid]

/-- What the graph asks of one revision, apart from its number being new. -/
structure Checked (resource : Resource) (own : List Revision) (revision : Revision) : Prop where
  scope : revision.workspaceId = resource.workspaceId ∧ revision.datasetId = resource.datasetId
  first : revision.revisionNumber = 1 → revision.parentRevisionId = none
  follows : 1 < revision.revisionNumber → ∃ parent,
    (truthy revision.parentRevisionId).bind (lastById own) = some parent ∧
      parent.revisionNumber < revision.revisionNumber

theorem singleton_unless {α : Type} {p : Prop} [Decidable p] {a : α} :
    (if p then [a] else []) = [] ↔ ¬ p := by
  by_cases h : p
  · simp [h]
  · simp [h]

theorem revisionGraphIssues_eq_nil {numbers : List Nat} :
    revisionGraphIssues resource own numbers revision = [] ↔
      Checked resource own revision ∧ revision.revisionNumber ∉ numbers := by
  have hscope : ¬ (revision.workspaceId ≠ resource.workspaceId ∨
      revision.datasetId ≠ resource.datasetId) ↔
      revision.workspaceId = resource.workspaceId ∧
        revision.datasetId = resource.datasetId := by
    rw [not_or, not_not, not_not]
  have hfirst : ¬ (revision.revisionNumber = 1 ∧ revision.parentRevisionId.isSome = true) ↔
      (revision.revisionNumber = 1 → revision.parentRevisionId = none) := by
    simp
  rw [revisionGraphIssues, List.append_eq_nil_iff, List.append_eq_nil_iff, List.append_eq_nil_iff,
    singleton_unless, singleton_unless, singleton_unless, hscope, hfirst]
  cases hfound : (truthy revision.parentRevisionId).bind (lastById own) with
  | none =>
    constructor
    · rintro ⟨⟨⟨hsame, hnumber⟩, hroot⟩, hparent⟩
      exact ⟨⟨hsame, hroot, fun hlater => absurd hlater (singleton_unless.mp hparent)⟩, hnumber⟩
    · rintro ⟨⟨hsame, hroot, hfollows⟩, hnumber⟩
      refine ⟨⟨⟨hsame, hnumber⟩, hroot⟩, singleton_unless.mpr fun hlater => ?_⟩
      obtain ⟨parent, hparent, -⟩ := hfollows hlater
      rw [hfound] at hparent
      cases hparent
  | some parent =>
    constructor
    · rintro ⟨⟨⟨hsame, hnumber⟩, hroot⟩, hparent⟩
      refine ⟨⟨hsame, hroot, fun hlater => ⟨parent, hfound, ?_⟩⟩, hnumber⟩
      rw [if_pos hlater, singleton_unless] at hparent
      exact Nat.lt_of_not_le hparent
    · rintro ⟨⟨hsame, hroot, hfollows⟩, hnumber⟩
      refine ⟨⟨⟨hsame, hnumber⟩, hroot⟩, ?_⟩
      split
      · next hlater =>
        obtain ⟨parent', hparent, hlt⟩ := hfollows hlater
        rw [hfound] at hparent
        cases hparent
        exact singleton_unless.mpr (Nat.not_le_of_lt hlt)
      · rfl

theorem revisionsGraphIssues_eq_nil {numbers : List Nat} :
    revisionsGraphIssues resource own numbers revisions = [] ↔
      (∀ r ∈ revisions, Checked resource own r) ∧ (revisions.map (·.revisionNumber)).Nodup ∧
        ∀ r ∈ revisions, r.revisionNumber ∉ numbers := by
  induction revisions generalizing numbers with
  | nil => simp [revisionsGraphIssues]
  | cons r rs ih =>
    rw [revisionsGraphIssues, List.append_eq_nil_iff, revisionGraphIssues_eq_nil, ih]
    constructor
    · rintro ⟨⟨hr, hnumber⟩, hrs, hnodup, hfresh⟩
      refine ⟨List.forall_mem_cons.mpr ⟨hr, hrs⟩, ?_, ?_⟩
      · rw [List.map_cons, List.nodup_cons]
        refine ⟨?_, hnodup⟩
        intro hmem
        obtain ⟨r', hr', hsame⟩ := List.mem_map.mp hmem
        exact hfresh r' hr' (by simp [hsame])
      · refine List.forall_mem_cons.mpr ⟨hnumber, fun r' hr' hmem => ?_⟩
        exact hfresh r' hr' (List.mem_cons_of_mem _ hmem)
    · rintro ⟨hall, hnodup, hfresh⟩
      rw [List.map_cons, List.nodup_cons] at hnodup
      obtain ⟨hr, hrs⟩ := List.forall_mem_cons.mp hall
      obtain ⟨hnumber, hfresh⟩ := List.forall_mem_cons.mp hfresh
      refine ⟨⟨hr, hnumber⟩, hrs, hnodup.2, fun r' hr' hmem => ?_⟩
      rcases List.mem_cons.mp hmem with hsame | hmem
      · exact hnodup.1 (List.mem_map.mpr ⟨r', hr', hsame⟩)
      · exact hfresh r' hr' hmem

end Checks

/-! ## One tree -/

section Tree

variable {resource : Resource} {own revisions : List Revision} {revision root : Revision}

/-- A later revision has a parent that is found by its id. -/
theorem Checked.parent (h : Checked resource own revision) (hlater : 1 < revision.revisionNumber) :
    ∃ parent ∈ own, IsParent truthy parent revision ∧
      parent.revisionNumber < revision.revisionNumber := by
  obtain ⟨parent, hfound, hlt⟩ := h.follows hlater
  obtain ⟨id, hid, hparent⟩ := Option.bind_eq_some_iff.mp hfound
  obtain ⟨hmem, rfl⟩ := lastById_some hparent
  exact ⟨parent, hmem, hid, hlt⟩

/-- The numbers of the parents go down to 1. -/
theorem exists_first (hpositive : ∀ r ∈ own, 0 < r.revisionNumber)
    (hchecked : ∀ r ∈ own, Checked resource own r) (hmem : revision ∈ own) :
    ∃ first ∈ own, first.revisionNumber = 1 := by
  induction hnumber : revision.revisionNumber using Nat.strong_induction_on
    generalizing revision with
  | _ n ih =>
    by_cases hfirst : revision.revisionNumber = 1
    · exact ⟨revision, hmem, hfirst⟩
    · have hlater : 1 < revision.revisionNumber := by
        have hpos := hpositive revision hmem
        omega
      obtain ⟨parent, hparent, -, hlt⟩ := (hchecked revision hmem).parent hlater
      exact ih parent.revisionNumber (hnumber ▸ hlt) hparent rfl

theorem link_unique (hids : (own.map (·.id)).Nodup) {a a' b : Revision}
    (h : Link own (IsParent truthy) a b) (h' : Link own (IsParent truthy) a' b) : a = a' := by
  have hsame : some a.id = some a'.id := h.2.2.symm.trans h'.2.2
  exact List.inj_on_of_nodup_map hids h.1 h'.1 (Option.some.inj hsame)

/-- Local checks of every revision give a tree below revision 1. -/
theorem isTree_of_checked (hids : (own.map (·.id)).Nodup)
    (hnumbers : (own.map (·.revisionNumber)).Nodup)
    (hpositive : ∀ r ∈ own, 0 < r.revisionNumber)
    (hchecked : ∀ r ∈ own, Checked resource own r) (hroot : root ∈ own)
    (hfirst : root.revisionNumber = 1) : IsTree own (IsParent truthy) root := by
  apply isTree_of_rank (·.revisionNumber) hroot
  · intro a hlink
    have hparent := hlink.2.2
    rw [IsParent, (hchecked root hroot).first hfirst] at hparent
    cases hparent
  · intro a a' b h h'
    exact link_unique hids h h'
  · intro b hb hne
    have hlater : 1 < b.revisionNumber := by
      have hpos := hpositive b hb
      have hother : b.revisionNumber ≠ 1 := fun h =>
        hne (List.inj_on_of_nodup_map hnumbers hb hroot (h.trans hfirst.symm))
      omega
    obtain ⟨parent, hmem, hparent, hlt⟩ := (hchecked b hb).parent hlater
    exact ⟨parent, ⟨hmem, hb, hparent⟩, hlt⟩

theorem checked_iff_soundGraph (hids : (own.map (·.id)).Nodup)
    (hpositive : ∀ r ∈ own, 0 < r.revisionNumber) :
    ((∀ r ∈ own, Checked resource own r) ∧ (own.map (·.revisionNumber)).Nodup ∧
        ∀ id, truthy resource.currentRevisionId = some id → ∃ r ∈ own, r.id = id) ↔
      SoundGraph truthy resource own := by
  constructor
  · rintro ⟨hchecked, hnumbers, hcurrent⟩
    refine ⟨fun r hr => (hchecked r hr).scope, hnumbers, ?_, ?_, hcurrent⟩
    · intro hne
      obtain ⟨r, hr⟩ := List.exists_mem_of_ne_nil own hne
      obtain ⟨root, hroot, hfirst⟩ := exists_first hpositive hchecked hr
      exact ⟨root, isTree_of_checked hids hnumbers hpositive hchecked hroot hfirst, hfirst,
        (hchecked root hroot).first hfirst⟩
    · intro child hchild hother
      apply (hchecked child hchild).parent
      have hpos := hpositive child hchild
      omega
  · intro h
    refine ⟨fun r hr => ⟨h.scope r hr, ?_, ?_⟩, h.numbers, h.current⟩
    · intro hfirst
      obtain ⟨root, htree, hnumber, hparent⟩ := h.tree (List.ne_nil_of_mem hr)
      rwa [List.inj_on_of_nodup_map h.numbers hr htree.mem (hfirst.trans hnumber.symm)]
    · intro hlater
      obtain ⟨parent, hmem, hparent, hlt⟩ := h.follows r hr (by omega)
      refine ⟨parent, ?_, hlt⟩
      rw [hparent, Option.bind_some, lastById_of_mem hids hmem]

/-- Whether the pointer of a resource has an issue. -/
theorem pointer_resolves (hids : (own.map (·.id)).Nodup) :
    ((truthy resource.currentRevisionId).any fun id => (lastById own id).isNone) = false ↔
      ∀ id, truthy resource.currentRevisionId = some id → ∃ r ∈ own, r.id = id := by
  cases hpointer : truthy resource.currentRevisionId with
  | none => simp
  | some id =>
    simp only [Option.any_some, Option.isNone_eq_false_iff, Option.isSome_iff_exists,
      Option.some.injEq, forall_eq']
    constructor
    · rintro ⟨r, hr⟩
      exact ⟨r, lastById_some hr⟩
    · rintro ⟨r, hmem, rfl⟩
      exact ⟨r, lastById_of_mem hids hmem⟩

/-- No issue is reported exactly if the pointer resolves, every revision is checked and no number
is repeated. -/
theorem verifyResourceGraph_nil : verifyResourceGraph resource revisions = [] ↔
    ((truthy resource.currentRevisionId).any fun id =>
      (lastById (ownRevisions resource revisions) id).isNone) = false ∧
    (∀ r ∈ ownRevisions resource revisions,
      Checked resource (ownRevisions resource revisions) r) ∧
    ((ownRevisions resource revisions).map (·.revisionNumber)).Nodup := by
  rw [verifyResourceGraph, List.append_eq_nil_iff, singleton_unless, Bool.not_eq_true]
  change _ ∧ revisionsGraphIssues resource (ownRevisions resource revisions) []
    (ownRevisions resource revisions) = [] ↔ _
  rw [revisionsGraphIssues_eq_nil]
  simp [ownRevisions]

/-- No issue is reported exactly when the revisions of the resource are a sound graph, where an
empty id counts as none. -/
theorem verifyResourceGraph_eq_nil_iff (resource : Resource) (revisions : List Revision)
    (hids : (revisions.map (·.id)).Nodup) (hpositive : ∀ r ∈ revisions, 0 < r.revisionNumber) :
    verifyResourceGraph resource revisions = [] ↔
      SoundGraph truthy resource (ownRevisions resource revisions) := by
  have hids' : ((ownRevisions resource revisions).map (·.id)).Nodup :=
    hids.sublist (List.filter_sublist.map _)
  have hpositive' : ∀ r ∈ ownRevisions resource revisions, 0 < r.revisionNumber :=
    fun r hr => hpositive r (List.mem_of_mem_filter hr)
  rw [verifyResourceGraph_nil, pointer_resolves hids', ← checked_iff_soundGraph hids' hpositive']
  exact ⟨fun ⟨hcurrent, hchecked, hnumbers⟩ => ⟨hchecked, hnumbers, hcurrent⟩,
    fun ⟨hchecked, hnumbers, hcurrent⟩ => ⟨hcurrent, hchecked, hnumbers⟩⟩

end Tree

section Example

def pointedAt (current : Option JsString) : Resource :=
  ⟨js "resource", js "workspace", js "dataset", js "Note", none, .active, current,
    js "actor", ⟨0, Columns.epoch_bound⟩, ⟨0, Columns.epoch_bound⟩⟩

def numbered (id : String) (number : Nat) (parent : Option JsString) : Revision where
  id := js id
  workspaceId := js "workspace"
  datasetId := js "dataset"
  resourceId := js "resource"
  revisionNumber := number
  parentRevisionId := parent
  mergeParentRevisionIds := []
  schemaPackageId := js "schema"
  schemaVersion := js "1.0.0"
  canonicalPayload := ⟨[], AuditLog.isJson_empty⟩
  canonicalPayloadHash := []
  createdBy := js "actor"
  createdOnDeviceId := none
  source := .user
  changeNote := none
  restoredFromRevisionId := none
  createdAt := ⟨0, Columns.epoch_bound⟩

/-- Two branches, and no revision 3. -/
def branched : List Revision :=
  [numbered "d" 4 (some (js "a")), numbered "a" 1 none, numbered "b" 2 (some (js "a"))]

theorem soundGraph_branched :
    SoundGraph truthy (pointedAt (some (js "d")))
      (ownRevisions (pointedAt (some (js "d"))) branched) :=
  (verifyResourceGraph_eq_nil_iff _ branched (by decide) (by decide)).mp (by decide)

/-- A pointer that is an empty text is not reported, and names no revision. -/
theorem verifyResourceGraph_empty_pointer :
    (branched.map (·.id)).Nodup ∧ (∀ r ∈ branched, 0 < r.revisionNumber) ∧
    verifyResourceGraph (pointedAt (some [])) branched = [] ∧
    ¬ SoundGraph id (pointedAt (some [])) (ownRevisions (pointedAt (some [])) branched) := by
  refine ⟨by decide, by decide, by decide, ?_⟩
  intro h
  obtain ⟨r, hmem, hid⟩ := h.current [] rfl
  have hids : ∀ r ∈ ownRevisions (pointedAt (some [])) branched, r.id ≠ [] := by decide
  exact hids r hmem hid

end Example

end TrustCore.RevisionTrees
