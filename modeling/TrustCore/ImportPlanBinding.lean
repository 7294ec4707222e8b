import TrustCore.ArchiveManifest
import TrustCore.ImportDependencies
import TrustCore.ImportExecutor
import TrustCore.ImportPlanIds

/-!
# What the id of a plan binds

The id leaves out the positions and the dispositions, so it does not depend on the target's
inventory, and the executor computes it again from the plan. Everything else of a plan goes into it:
two plans with one id differ only if SHA-256 collides on what is hashed for them.
-/

namespace TrustCore.ImportPlan

open TrustCore.Utf TrustCore.Json TrustCore.Numbers TrustCore.Dynamic TrustCore.Sha256
open TrustCore.ArchiveFormat TrustCore.ArchiveAssemble TrustCore.ImportActions
open TrustCore.ImportDependencies TrustCore.ImportReferences

/-- What `calculateArchiveImportPlanId` is given. -/
structure PlanContent where
  manifest : TrustArchiveManifest
  sourceWorkspaceId : JsString
  targetWorkspaceId : JsString
  mode : ArchiveImportMode
  conflictMode : ArchiveConflictMode
  actions : List ArchiveImportAction

def PlanContent.planId (c : PlanContent) : Option JsString :=
  calculateArchiveImportPlanId c.manifest c.sourceWorkspaceId c.targetWorkspaceId c.mode
    c.conflictMode c.actions

/-- What the executor hands on when it computes the id of a plan again. -/
def contentOf (archive : ParsedTrustArchive) (plan : ArchiveImportPlan) : PlanContent where
  manifest := archive.manifest
  sourceWorkspaceId := plan.sourceWorkspaceId
  targetWorkspaceId := plan.targetWorkspaceId
  mode := plan.mode
  conflictMode := plan.conflictMode
  actions := plan.actions

/-- Equal up to the order of keys. -/
def SameContent (v w : JsValue) : Prop := reread v = reread w

/-- The same but for the positions and the dispositions. -/
structure SameAction (a b : ArchiveImportAction) : Prop where
  phase : numberOf a.phase = numberOf b.phase
  kind : a.kind = b.kind
  sourceId : a.sourceId = b.sourceId
  targetId : a.targetId = b.targetId
  dependsOn : a.dependsOn = b.dependsOn
  record : Option.Rel (fun r s => SameContent (.object r) (.object s)) a.record b.record

structure SamePlan (c d : PlanContent) : Prop where
  manifest : SameContent c.manifest.value d.manifest.value
  sourceWorkspaceId : c.sourceWorkspaceId = d.sourceWorkspaceId
  targetWorkspaceId : c.targetWorkspaceId = d.targetWorkspaceId
  mode : c.mode = d.mode
  conflictMode : c.conflictMode = d.conflictMode
  actions : List.Forall₂ SameAction c.actions d.actions

/-- The manifest and the records are JSON. -/
structure JsonContent (c : PlanContent) : Prop where
  manifest : isJson c.manifest.value = true
  records : ∀ a ∈ c.actions, ∀ r ∈ a.record, isJson (.object r) = true

section Texts

/-- A number as its text gives it back. -/
def phaseValue (n : Nat) : JsValue :=
  match numberOf n with
  | .number (.finite d hd) => .number (.finite d hd)
  | _ => .null

theorem numberOf_cases (n : Nat) :
    (∃ d hd, numberOf n = .number (.finite d hd)) ∨ numberOf n = .number (.infinite false) := by
  rw [numberOf]
  unfold ofDecimal
  split
  · rename_i d hd
    exact Or.inl ⟨d, nearestDouble_idem hd, rfl⟩
  · exact Or.inr rfl

theorem encode_phaseValue (n : Nat) :
    encode canonicalEncoder (phaseValue n) = encode canonicalEncoder (numberOf n) := by
  rw [phaseValue]
  rcases numberOf_cases n with ⟨d, hd, h⟩ | h
  · rw [h]
  · rw [h]
    rfl

theorem numberOf_eq {m n : Nat} (h : phaseValue m = phaseValue n) : numberOf m = numberOf n := by
  rw [phaseValue, phaseValue] at h
  rcases numberOf_cases m with ⟨d, hd, hm⟩ | hm
  · rcases numberOf_cases n with ⟨e, he, hn⟩ | hn
    · rw [hm, hn] at h ⊢
      exact h
    · rw [hm, hn] at h
      cases h
  · rcases numberOf_cases n with ⟨e, he, hn⟩ | hn
    · rw [hm, hn] at h
      cases h
    · rw [hm, hn]

theorem isJson_phaseValue (n : Nat) : isJson (phaseValue n) = true := by
  rw [phaseValue]
  rcases numberOf_cases n with ⟨d, hd, h⟩ | h
  · rw [h]
    rfl
  · rw [h]
    rfl

theorem reread_phaseValue (n : Nat) : reread (phaseValue n) = phaseValue n := by
  rw [phaseValue]
  rcases numberOf_cases n with ⟨d, hd, h⟩ | h
  · rw [h]
    rfl
  · rw [h]
    rfl

/-- What is hashed for an action. -/
def actionMembers (a : ArchiveImportAction) (hash : Option JsString) : List (JsString × JsValue) :=
  [(js "phase", phaseValue a.phase), (js "kind", .string a.kind.text),
    (js "sourceId", .string a.sourceId), (js "targetId", .string a.targetId),
    (js "dependsOn", .array (a.dependsOn.map .string))] ++
      (hash.map fun hash => (js "recordHash", JsValue.string hash)).toList

/-- The digest of the record of an action. -/
def recordHash (a : ArchiveImportAction) : Option JsString :=
  a.record.bind fun r => (canonicalJson (.object r)).map sha256Text

def planMembers (c : PlanContent) (manifestText : JsString) : List (JsString × JsValue) :=
  [(js "format", .string (js "trust-import-plan-v1")),
    (js "archiveExportId", .string c.manifest.exportId),
    (js "archiveManifestHash", .string (sha256Text manifestText)),
    (js "sourceWorkspaceId", .string c.sourceWorkspaceId),
    (js "targetWorkspaceId", .string c.targetWorkspaceId), (js "mode", .string c.mode.text),
    (js "conflictMode", .string c.conflictMode.text),
    (js "actions", .array (c.actions.map fun a => .object (actionMembers a (recordHash a))))]

theorem encode_identity {a : ArchiveImportAction} {identity : JsValue}
    (h : actionIdentity a = some identity) :
    encode canonicalEncoder identity =
      encode canonicalEncoder (.object (actionMembers a (recordHash a))) := by
  cases hrecord : a.record with
  | none =>
    rw [actionIdentity, hrecord] at h
    cases h
    simp only [actionMembers, recordHash, hrecord, encode, List.cons_append, List.nil_append,
      encodeMembers, encode_phaseValue, Option.bind_none, Option.map_none, Option.toList_none]
  | some r =>
    rw [actionIdentity, hrecord] at h
    obtain ⟨hash, hhash, heq⟩ := Option.bind_eq_some_iff.mp h
    obtain ⟨text, htext, rfl⟩ := Option.map_eq_some_iff.mp hhash
    cases heq
    simp only [actionMembers, recordHash, hrecord, encode, List.cons_append, List.nil_append,
      encodeMembers, encode_phaseValue, Option.bind_some, htext, Option.map_some,
      Option.toList_some]

theorem encodeItems_identities {actions : List ArchiveImportAction} {identities : List JsValue}
    (h : actions.mapM actionIdentity = some identities) :
    encodeItems canonicalEncoder identities = encodeItems canonicalEncoder
      (actions.map fun a => .object (actionMembers a (recordHash a))) := by
  induction actions generalizing identities with
  | nil =>
    cases h
    rfl
  | cons a actions ih =>
    rw [List.mapM_cons] at h
    obtain ⟨identity, hidentity, h⟩ := Option.bind_eq_some_iff.mp h
    obtain ⟨rest, hrest, h⟩ := Option.bind_eq_some_iff.mp h
    cases h
    rw [List.map_cons, encodeItems, encodeItems, encode_identity hidentity, ih hrest]

/-- What is hashed for an id. -/
theorem PlanContent.planId_eq_some {c : PlanContent} {planId : JsString}
    (h : c.planId = some planId) : ∃ manifestText text,
      canonicalJson c.manifest.value = some manifestText ∧
        canonicalJson (.object (planMembers c manifestText)) = some text ∧
          planId = sha256Text text := by
  rw [PlanContent.planId, calculateArchiveImportPlanId] at h
  obtain ⟨manifestText, hmanifest, h⟩ := Option.bind_eq_some_iff.mp h
  obtain ⟨identities, hidentities, h⟩ := Option.bind_eq_some_iff.mp h
  obtain ⟨text, htext, h⟩ := Option.bind_eq_some_iff.mp h
  cases h
  refine ⟨manifestText, text, hmanifest, ?_, rfl⟩
  rw [← htext, canonicalJson, canonicalJson, planMembers]
  simp only [encode, encodeMembers, encodeItems_identities hidentities]

end Texts

section Binding

/-- The values whose texts are hashed. -/
inductive Hashed (c : PlanContent) : JsValue → Prop where
  | manifest : Hashed c c.manifest.value
  | record {a : ArchiveImportAction} {r : ArchiveRecord} (ha : a ∈ c.actions) (hr : r ∈ a.record) :
      Hashed c (.object r)
  | plan {manifestText : JsString} (h : canonicalJson c.manifest.value = some manifestText) :
      Hashed c (.object (planMembers c manifestText))

/-- What is hashed for the id of a plan. -/
def messages (c : PlanContent) : Set Bytes :=
  { m | ∃ v t, Hashed c v ∧ canonicalJson v = some t ∧ m = textEncode t }

/-- Values with one digest are the same unless it collides. -/
theorem same_of_digest {c d : PlanContent} (hc : CollisionFree (messages c ∪ messages d))
    {v w : JsValue} {s t : JsString} (hv : Hashed c v) (hw : Hashed d w)
    (hjv : isJson v = true) (hjw : isJson w = true) (hs : canonicalJson v = some s)
    (ht : canonicalJson w = some t) (h : sha256Text s = sha256Text t) : SameContent v w := by
  have hbytes := hc (Or.inl ⟨v, s, hv, hs, rfl⟩) (Or.inr ⟨w, t, hw, ht, rfl⟩) h
  obtain ⟨s', hs', hwell, hparse⟩ := parseJson_encode canonicalEncoder v hjv
  obtain ⟨t', ht', hwell', hparse'⟩ := parseJson_encode canonicalEncoder w hjw
  rw [canonicalJson, hs', Option.some.injEq] at hs
  rw [canonicalJson, ht', Option.some.injEq] at ht
  subst hs ht
  rw [textEncode_injective hwell hwell' hbytes, hparse', Option.some.injEq] at hparse
  exact hparse.symm

theorem isJson_texts (texts : List JsString) : isJsonItems (texts.map .string) = true := by
  induction texts with
  | nil => rfl
  | cons t texts ih => simpa [isJsonItems, isJson] using ih

theorem isJson_action (a : ArchiveImportAction) (hash : Option JsString) :
    isJson (.object (actionMembers a hash)) = true := by
  have hkeys : ((actionMembers a hash).map Prod.fst).Nodup := by
    cases hash with
    | none =>
      change [js "phase", js "kind", js "sourceId", js "targetId", js "dependsOn"].Nodup
      decide
    | some hash =>
      change [js "phase", js "kind", js "sourceId", js "targetId", js "dependsOn",
        js "recordHash"].Nodup
      decide
  rw [isJson, Bool.and_eq_true, decide_eq_true_eq]
  refine ⟨?_, hkeys⟩
  cases hash <;> simp [actionMembers, isJson, isJsonMembers, isJson_phaseValue, isJson_texts]

theorem isJson_plan (c : PlanContent) (manifestText : JsString) :
    isJson (.object (planMembers c manifestText)) = true := by
  have hactions : isJsonItems (c.actions.map fun a => .object (actionMembers a (recordHash a))) =
      true := by
    induction c.actions with
    | nil => rfl
    | cons a actions ih => simp [isJsonItems, isJson_action, ih]
  have hkeys : ((planMembers c manifestText).map Prod.fst).Nodup := by
    simp only [planMembers, List.map_cons, List.map_nil]
    decide
  rw [isJson, Bool.and_eq_true, decide_eq_true_eq]
  exact ⟨by simp [planMembers, isJson, isJsonMembers, hactions], hkeys⟩

theorem same_field {r s : ArchiveRecord} (h : SameContent (.object r) (.object s))
    (hr : isJson (.object r) = true) (hs : isJson (.object s) = true) (k : JsString) :
    reread (field r k) = reread (field s k) := by
  have hproperty := property_reread hr k
  rw [show reread (.object r) = reread (.object s) from h, property_reread hs k,
    Option.some.injEq] at hproperty
  exact hproperty.symm

theorem reread_texts (texts : List JsString) :
    reread (.array (texts.map .string)) = .array (texts.map .string) := by
  have hitems : sortKeysItems canonicalEncoder (texts.map .string) = texts.map .string := by
    induction texts with
    | nil => rfl
    | cons t texts ih =>
      rw [List.map_cons, sortKeysItems, ih]
      rfl
  rw [reread, sortKeys, hitems]

theorem ArchiveImportMode.text_injective {m n : ArchiveImportMode} (h : m.text = n.text) :
    m = n := by
  revert h
  cases m <;> cases n <;> decide

theorem ArchiveConflictMode.text_injective {m n : ArchiveConflictMode} (h : m.text = n.text) :
    m = n := by
  revert h
  cases m <;> cases n <;> decide

theorem recordHash_field (a : ArchiveImportAction) (hash : Option JsString) :
    field (actionMembers a hash) (js "recordHash") = (hash.map JsValue.string).getD .undefined := by
  cases hash <;> rfl

/-- Two actions with one text are the same. -/
theorem same_action {c d : PlanContent} (hc : CollisionFree (messages c ∪ messages d))
    (hjc : JsonContent c) (hjd : JsonContent d) {a b : ArchiveImportAction} (ha : a ∈ c.actions)
    (hb : b ∈ d.actions) (h : SameContent (.object (actionMembers a (recordHash a)))
      (.object (actionMembers b (recordHash b)))) : SameAction a b := by
  have hfield := same_field h (isJson_action a _) (isJson_action b _)
  constructor
  · have hphase : reread (phaseValue a.phase) = reread (phaseValue b.phase) := hfield (js "phase")
    rw [reread_phaseValue, reread_phaseValue] at hphase
    exact numberOf_eq hphase
  · exact text_injective (JsValue.string.inj (hfield (js "kind")))
  · exact JsValue.string.inj (hfield (js "sourceId"))
  · exact JsValue.string.inj (hfield (js "targetId"))
  · have hdepends : reread (.array (a.dependsOn.map .string)) =
        reread (.array (b.dependsOn.map .string)) := hfield (js "dependsOn")
    rw [reread_texts, reread_texts, JsValue.array.injEq] at hdepends
    exact List.map_injective_iff.mpr (fun _ _ => JsValue.string.inj) hdepends
  · have hhash : recordHash a = recordHash b := by
      have hrecord := hfield (js "recordHash")
      rw [recordHash_field, recordHash_field] at hrecord
      cases hash : recordHash a with
      | none =>
        cases hash' : recordHash b with
        | none => rfl
        | some _ => rw [hash, hash'] at hrecord; cases hrecord
      | some _ =>
        cases hash' : recordHash b with
        | none => rw [hash, hash'] at hrecord; cases hrecord
        | some _ => rw [hash, hash'] at hrecord; exact congrArg some (JsValue.string.inj hrecord)
    have htext : ∀ r : ArchiveRecord, isJson (.object r) = true →
        ∃ t, canonicalJson (.object r) = some t := fun r hr =>
      let ⟨t, ht, _⟩ := parseJson_encode canonicalEncoder (.object r) hr
      ⟨t, ht⟩
    rw [recordHash, recordHash] at hhash
    cases hra : a.record with
    | none =>
      cases hrb : b.record with
      | none => exact .none
      | some r =>
        obtain ⟨t, ht⟩ := htext r (hjd.records b hb r hrb)
        rw [hra, hrb, Option.bind_none, Option.bind_some, ht] at hhash
        cases hhash
    | some r =>
      obtain ⟨t, ht⟩ := htext r (hjc.records a ha r hra)
      cases hrb : b.record with
      | none =>
        rw [hra, hrb, Option.bind_none, Option.bind_some, ht] at hhash
        cases hhash
      | some r' =>
        obtain ⟨t', ht'⟩ := htext r' (hjd.records b hb r' hrb)
        rw [hra, hrb, Option.bind_some, Option.bind_some, ht, ht'] at hhash
        exact .some (same_of_digest hc (.record ha hra) (.record hb hrb) (hjc.records a ha r hra)
          (hjd.records b hb r' hrb) ht ht' (Option.some.inj hhash))

theorem same_actions {c d : PlanContent} (hc : CollisionFree (messages c ∪ messages d))
    (hjc : JsonContent c) (hjd : JsonContent d) {as bs : List ArchiveImportAction}
    (ha : as ⊆ c.actions) (hb : bs ⊆ d.actions)
    (h : sortKeysItems canonicalEncoder (as.map fun a => .object (actionMembers a (recordHash a))) =
      sortKeysItems canonicalEncoder (bs.map fun a => .object (actionMembers a (recordHash a)))) :
    List.Forall₂ SameAction as bs := by
  induction as generalizing bs with
  | nil =>
    cases bs with
    | nil => exact .nil
    | cons b bs => cases h
  | cons a as ih =>
    cases bs with
    | nil => cases h
    | cons b bs =>
      obtain ⟨hhead, htail⟩ := List.cons.inj h
      exact .cons (same_action hc hjc hjd (ha List.mem_cons_self) (hb List.mem_cons_self) hhead)
        (ih (fun _ hx => ha (List.mem_cons_of_mem _ hx)) (fun _ hx => hb (List.mem_cons_of_mem _ hx))
          htail)

/-- Two plans with one id are the same. -/
theorem same_plan {c d : PlanContent} (hc : CollisionFree (messages c ∪ messages d))
    (hjc : JsonContent c) (hjd : JsonContent d) {planId : JsString} (hidc : c.planId = some planId)
    (hidd : d.planId = some planId) : SamePlan c d := by
  obtain ⟨manifest, text, hmanifest, htext, rfl⟩ := PlanContent.planId_eq_some hidc
  obtain ⟨manifest', text', hmanifest', htext', hid⟩ := PlanContent.planId_eq_some hidd
  have hplan := same_of_digest hc (.plan hmanifest) (.plan hmanifest') (isJson_plan c manifest)
    (isJson_plan d manifest') htext htext' hid
  have hfield := same_field hplan (isJson_plan c manifest) (isJson_plan d manifest')
  have hactions : reread (.array (c.actions.map fun a => .object (actionMembers a (recordHash a)))) =
      reread (.array (d.actions.map fun a => .object (actionMembers a (recordHash a)))) :=
    hfield (js "actions")
  constructor
  · exact same_of_digest hc .manifest .manifest hjc.manifest hjd.manifest hmanifest hmanifest'
      (JsValue.string.inj (hfield (js "archiveManifestHash")))
  · exact JsValue.string.inj (hfield (js "sourceWorkspaceId"))
  · exact JsValue.string.inj (hfield (js "targetWorkspaceId"))
  · exact ArchiveImportMode.text_injective (JsValue.string.inj (hfield (js "mode")))
  · exact ArchiveConflictMode.text_injective (JsValue.string.inj (hfield (js "conflictMode")))
  · rw [reread, reread, sortKeys, sortKeys, JsValue.array.injEq] at hactions
    exact same_actions hc hjc hjd (List.Subset.refl _) (List.Subset.refl _) hactions

end Binding

section Ready

variable {localeLe : JsString → JsString → Bool} {request : ArchiveImportRequest}
  {plan : ArchiveImportPlan}

/-- The inventory of the target does not go into the id. -/
theorem planId_inventory {records : ArchiveRecordKind → Option (List (JsString × ArchiveRecord))}
    {blobDigests : List JsString} {plan' : ArchiveImportPlan}
    (h : planArchiveImport localeLe request = some plan)
    (h' : planArchiveImport localeLe
      { request with target := ⟨request.target.workspaceId, records, blobDigests⟩ } = some plan') :
    plan'.planId = plan.planId := by
  have hid := importPlanId_eq h
  have hid' := importPlanId_eq h'
  have hblank : importPlanId localeLe
      { request with target := ⟨request.target.workspaceId, records, blobDigests⟩ } =
        importPlanId localeLe request := rfl
  rw [hblank, hid, Option.some.injEq] at hid'
  exact hid'.symm

/-- The issues of a plan, in the order in which they are found. -/
def planIssues (request : ArchiveImportRequest) (graphIssues : List ArchiveIssue)
    (planned : List (ArchiveImportAction × List ArchiveIssue)) : List ArchiveIssue :=
  requestIssues request ++ graphIssues ++ validateRetentionAssignments (transformed request) ++
    validateSchemaConflicts (transformed request) (schemaInventory request.target) ++
    planned.flatMap Prod.snd

/-- The plan of these parts. -/
def builtPlan (localeLe : JsString → JsString → Bool) (request : ArchiveImportRequest)
    (graphIssues : List ArchiveIssue) (planned : List (ArchiveImportAction × List ArchiveIssue))
    (bytes : List (Option ArchiveImportAction)) (planId : JsString) : ArchiveImportPlan :=
  let issues := planIssues request graphIssues planned
  let indexed := indexActions (request.conflictMode == .rejectOnError && !issues.isEmpty)
    (sortedActions localeLe planned bytes)
  { planId, archiveExportId := request.archive.manifest.exportId,
    sourceWorkspaceId := request.archive.manifest.workspaceId,
    targetWorkspaceId := mappedWorkspaceId request, mode := request.mode,
    conflictMode := request.conflictMode,
    status := match request.conflictMode with
      | .reportOnly => .reportOnly
      | .rejectOnError => if issues.isEmpty then .ready else .rejected
    issues, actions := indexed,
    counts := fun disposition => (indexed.filter fun action =>
      action.disposition == disposition).length }

theorem planArchiveImport_eq : planArchiveImport localeLe request = some plan ↔
    ∃ graphIssues planned bytes planId,
      validateGraph (transformed request) (mappedWorkspaceId request) = some graphIssues ∧
      planRecords request = some planned ∧
      (transformed request .blobs).mapM (planBytes request) = some bytes ∧
      calculateArchiveImportPlanId request.archive.manifest request.archive.manifest.workspaceId
        (mappedWorkspaceId request) request.mode request.conflictMode
        (sortedActions localeLe planned bytes) = some planId ∧
      plan = builtPlan localeLe request graphIssues planned bytes planId := by
  constructor
  · intro h
    rw [planArchiveImport] at h
    obtain ⟨graphIssues, hgraph, h⟩ := Option.bind_eq_some_iff.mp h
    obtain ⟨planned, hplanned, h⟩ := Option.bind_eq_some_iff.mp h
    obtain ⟨bytes, hbytes, h⟩ := Option.bind_eq_some_iff.mp h
    obtain ⟨planId, hid, h⟩ := Option.bind_eq_some_iff.mp h
    cases h
    refine ⟨graphIssues, planned, bytes, planId, hgraph, hplanned, hbytes, ?_, rfl⟩
    rw [← hid]
    exact (planId_agree (erase_indexActions _ _)).symm
  · rintro ⟨graphIssues, planned, bytes, planId, hgraph, hplanned, hbytes, hid, rfl⟩
    have hindexed : ∀ blocked, calculateArchiveImportPlanId request.archive.manifest
        request.archive.manifest.workspaceId (mappedWorkspaceId request) request.mode
        request.conflictMode (indexActions blocked (sortedActions localeLe planned bytes)) =
          some planId := fun blocked => (planId_agree (erase_indexActions blocked _)).trans hid
    unfold sortedActions at hindexed
    rw [planArchiveImport, hgraph, hplanned, hbytes]
    simp only [Option.bind_eq_bind, Option.bind_some, hindexed]
    rfl

theorem builtPlan_ready {graphIssues : List ArchiveIssue}
    {planned : List (ArchiveImportAction × List ArchiveIssue)}
    {bytes : List (Option ArchiveImportAction)} {planId : JsString} :
    (builtPlan localeLe request graphIssues planned bytes planId).status = .ready ↔
      request.conflictMode = .rejectOnError ∧ planIssues request graphIssues planned = [] := by
  cases hmode : request.conflictMode with
  | reportOnly => simp [builtPlan, hmode]
  | rejectOnError => simp [builtPlan, hmode]

/-- A record is blocked with an issue. -/
theorem planRecord_blocked {kind : ArchiveRecordKind} {pair : ArchiveRecord × ArchiveRecord}
    {p : ArchiveImportAction × List ArchiveIssue} (h : planRecord request kind pair = some p) :
    p.2 = [] ↔ p.1.disposition ≠ .blocked := by
  rw [planRecord] at h
  obtain ⟨sourceId, -, h⟩ := Option.bind_eq_some_iff.mp h
  obtain ⟨transformedId, -, h⟩ := Option.bind_eq_some_iff.mp h
  obtain ⟨disposition, -, h⟩ := Option.bind_eq_some_iff.mp h
  cases h
  by_cases hblocked : disposition = .blocked <;> simp [hblocked]

theorem planBytes_blocked {r : ArchiveRecord} {a : ArchiveImportAction}
    (h : planBytes request r = some (some a)) : a.disposition ≠ .blocked := by
  rw [planBytes] at h
  split at h
  · obtain ⟨blobId, -, h⟩ := Option.map_eq_some_iff.mp h
    cases h
    split <;> simp
  · cases h

theorem mem_planned {planned : List (ArchiveImportAction × List ArchiveIssue)}
    (h : planRecords request = some planned) {p : ArchiveImportAction × List ArchiveIssue}
    (hp : p ∈ planned) : ∃ kind,
      ∃ pair ∈ (request.archive.verification.records kind).zip (transformed request kind),
        planRecord request kind pair = some p := by
  obtain ⟨groups, hgroups, rfl⟩ := Option.map_eq_some_iff.mp h
  obtain ⟨group, hgroup, hp⟩ := List.mem_flatten.mp hp
  obtain ⟨kind, -, hzip⟩ := (mem_of_forall₂ (mapM_eq_some hgroups)).2 group hgroup
  obtain ⟨pair, hpair, hplan⟩ := (mem_of_forall₂ (mapM_eq_some hzip)).2 p hp
  exact ⟨kind, pair, hpair, hplan⟩

theorem mem_bytes {bytes : List (Option ArchiveImportAction)}
    (h : (transformed request .blobs).mapM (planBytes request) = some bytes)
    {a : ArchiveImportAction} (ha : a ∈ bytes.reduceOption) :
    ∃ r ∈ transformed request .blobs, planBytes request r = some (some a) := by
  obtain ⟨r, hr, hplan⟩ := (mem_of_forall₂ (mapM_eq_some h)).2 _ (List.reduceOption_mem_iff.mp ha)
  exact ⟨r, hr, hplan⟩

/-- Without an issue no action is blocked. -/
theorem not_blocked {planned : List (ArchiveImportAction × List ArchiveIssue)}
    {bytes : List (Option ArchiveImportAction)} (hplanned : planRecords request = some planned)
    (hbytes : (transformed request .blobs).mapM (planBytes request) = some bytes)
    (hnone : planned.flatMap Prod.snd = []) {a : ArchiveImportAction}
    (ha : a ∈ sortedActions localeLe planned bytes) : a.disposition ≠ .blocked := by
  rw [sortedActions, List.mem_insertionSort, List.mem_append] at ha
  rcases ha with ha | ha
  · obtain ⟨p, hp, rfl⟩ := List.mem_map.mp ha
    obtain ⟨kind, pair, -, hplan⟩ := mem_planned hplanned hp
    exact (planRecord_blocked hplan).mp (List.flatMap_eq_nil_iff.mp hnone p hp)
  · obtain ⟨r, -, hplan⟩ := mem_bytes hbytes ha
    exact planBytes_blocked hplan

theorem disposition_indexActions {actions : List ArchiveImportAction} {a : ArchiveImportAction}
    (ha : a ∈ indexActions false actions) : ∃ b ∈ actions, a.disposition = b.disposition := by
  obtain ⟨p, hp, rfl⟩ := List.mem_map.mp ha
  exact ⟨p.1, List.fst_mem_of_mem_zipIdx hp, rfl⟩

/-- The executor takes a ready plan of a valid archive. -/
theorem validateInput_ready (hvalid : request.archive.verification.valid = true)
    (h : planArchiveImport localeLe request = some plan) (hready : plan.status = .ready) :
    ImportExecutor.validateInput request.archive plan = .ok () := by
  obtain ⟨graphIssues, planned, bytes, planId, -, hplanned, hbytes, hid, rfl⟩ :=
    planArchiveImport_eq.mp h
  obtain ⟨hmode, hissues⟩ := builtPlan_ready.mp hready
  have hnone : planned.flatMap Prod.snd = [] := (List.append_eq_nil_iff.mp hissues).2
  have hindexed : (builtPlan localeLe request graphIssues planned bytes planId).actions =
      indexActions false (sortedActions localeLe planned bytes) := by
    simp only [builtPlan, hissues, List.isEmpty_nil, Bool.not_true, Bool.and_false]
  have hblocked : ¬ (builtPlan localeLe request graphIssues planned bytes planId).counts .blocked >
      0 := by
    have hcount : (builtPlan localeLe request graphIssues planned bytes planId).counts .blocked =
        ((builtPlan localeLe request graphIssues planned bytes planId).actions.filter fun action =>
          action.disposition == .blocked).length := rfl
    rw [hcount, hindexed, gt_iff_lt, List.length_pos_iff, ne_eq, not_not, List.filter_eq_nil_iff]
    intro a ha
    obtain ⟨b, hb, heq⟩ := disposition_indexActions ha
    rw [heq, beq_iff_eq]
    exact not_blocked hplanned hbytes hnone hb
  have hagain : (contentOf request.archive
      (builtPlan localeLe request graphIssues planned bytes planId)).planId = some planId := by
    rw [PlanContent.planId, contentOf, hindexed]
    exact (planId_agree (erase_indexActions false _)).trans hid
  rw [PlanContent.planId] at hagain
  simp only [contentOf] at hagain
  rw [ImportExecutor.validateInput, hvalid, hready]
  simp only [Bool.not_true, Bool.false_eq_true, if_false, ne_eq, not_true_eq_false, false_or,
    hblocked, hagain]
  simp [builtPlan]

/-- The id of a plan is the same for every inventory of the target, the executor takes every ready
plan of a valid archive, and two plans to which it computes one id differ only in the positions and
the dispositions of their actions. -/
theorem planId_binds (localeLe : JsString → JsString → Bool) (request : ArchiveImportRequest)
    (plan : ArchiveImportPlan) (h : planArchiveImport localeLe request = some plan) :
    (∀ records blobDigests plan', planArchiveImport localeLe
      { request with target := ⟨request.target.workspaceId, records, blobDigests⟩ } = some plan' →
        plan'.planId = plan.planId) ∧
    (request.archive.verification.valid = true → plan.status = .ready →
      ImportExecutor.validateInput request.archive plan = .ok ()) ∧
    (contentOf request.archive plan).planId = some plan.planId ∧
    ∀ c d : PlanContent, JsonContent c → JsonContent d → CollisionFree (messages c ∪ messages d) →
      ∀ planId, c.planId = some planId → d.planId = some planId → SamePlan c d := by
  refine ⟨?_, ?_, ?_, ?_⟩
  · intro records blobDigests plan' h'
    exact planId_inventory h h'
  · intro hvalid hready
    exact validateInput_ready hvalid h hready
  · obtain ⟨graphIssues, planned, bytes, planId, -, -, -, hid, rfl⟩ := planArchiveImport_eq.mp h
    exact (planId_agree (erase_indexActions _ _)).trans hid
  · intro c d hjc hjd hc planId hidc hidd
    exact same_plan hc hjc hjd hidc hidd

end Ready

section Sample

def packageRecord : ArchiveRecord := [(js "id", .string (js "s"))]

/-- An archive of one schema package, imported into a target that holds it already or not. -/
def packageRequest (held : Bool) : ArchiveImportRequest where
  archive :=
    { entries := EntryMap.empty
      manifest := { sampleManifest with
        recordCounts := fun kind => if kind = .schemaPackages then 1 else 0 }
      verification :=
        ⟨true, fun kind => if kind = .schemaPackages then [packageRecord] else []⟩ }
  mode := .preserveIds
  conflictMode := .rejectOnError
  target := ⟨none, fun kind =>
    if held ∧ kind = .schemaPackages then some [(js "s", packageRecord)] else none, []⟩

def packageContent (disposition : Disposition) : PlanContent where
  manifest := (packageRequest false).archive.manifest
  sourceWorkspaceId := js "w"
  targetWorkspaceId := js "w"
  mode := .preserveIds
  conflictMode := .rejectOnError
  actions := [{
    index := 0, phase := phases (.record .schemaPackages), kind := .record .schemaPackages,
    sourceId := js "s", targetId := js "s", disposition, record := some packageRecord,
    dependsOn := [] }]

theorem planned_package (held : Bool) :
    (planArchiveImport unitsLe (packageRequest held)).map
      (fun plan => (plan.status, contentOf (packageRequest held).archive plan)) =
      some (.ready, packageContent (if held then .alreadyPresent else .insert)) := by
  cases held with
  | false => rfl
  | true => rfl

/-- What is hashed for the id of the plan, the disposition left out of it. -/
def packageTexts : List JsString :=
  let manifestText := (canonicalJson (packageContent .insert).manifest.value).getD []
  [manifestText, (canonicalJson (.object packageRecord)).getD [],
    (canonicalJson (.object (planMembers (packageContent .insert) manifestText))).getD []]

theorem messages_packageContent {disposition : Disposition} {m : Bytes}
    (hm : m ∈ messages (packageContent disposition)) : m ∈ packageTexts.map textEncode := by
  obtain ⟨v, t, hv, ht, rfl⟩ := hm
  apply List.mem_map_of_mem
  cases hv with
  | manifest =>
    rw [← Option.getD_some (a := t) (b := []), ← ht]
    exact List.mem_cons_self
  | record ha hr =>
    cases List.mem_singleton.mp ha
    cases hr
    rw [← Option.getD_some (a := t) (b := []), ← ht]
    exact List.mem_cons_of_mem _ List.mem_cons_self
  | plan hmanifest =>
    rename_i manifestText
    have htext : (canonicalJson (packageContent .insert).manifest.value).getD [] = manifestText := by
      rw [← Option.getD_some (a := manifestText) (b := []), ← hmanifest]
      rfl
    rw [packageTexts, htext, ← Option.getD_some (a := t) (b := []), ← ht]
    exact List.mem_cons_of_mem _ (List.mem_cons_of_mem _ List.mem_cons_self)

theorem collisionFree_packageContent : CollisionFree
    (messages (packageContent .insert) ∪ messages (packageContent .alreadyPresent)) := by
  have hdigests : ((packageTexts.map textEncode).map sha256).Nodup := by decide +kernel
  intro a ha b hb hab
  have hmem : ∀ m ∈ messages (packageContent .insert) ∪ messages (packageContent .alreadyPresent),
      m ∈ packageTexts.map textEncode := by
    rintro m (hm | hm)
    · exact messages_packageContent hm
    · exact messages_packageContent hm
  exact List.inj_on_of_nodup_map hdigests (hmem a ha) (hmem b hb) hab

theorem planId_binds_package : ∃ plan plan',
    planArchiveImport unitsLe (packageRequest false) = some plan ∧
    planArchiveImport unitsLe (packageRequest true) = some plan' ∧
    plan'.planId = plan.planId ∧
    ImportExecutor.validateInput (packageRequest false).archive plan = .ok () ∧
    contentOf (packageRequest false).archive plan = packageContent .insert ∧
    contentOf (packageRequest true).archive plan' = packageContent .alreadyPresent ∧
    SamePlan (packageContent .insert) (packageContent .alreadyPresent) := by
  obtain ⟨plan, h, heq⟩ := Option.map_eq_some_iff.mp (planned_package false)
  obtain ⟨plan', h', heq'⟩ := Option.map_eq_some_iff.mp (planned_package true)
  obtain ⟨hready, hcontent⟩ := Prod.mk.inj heq
  obtain ⟨-, hcontent'⟩ := Prod.mk.inj heq'
  obtain ⟨hinventory, hvalid, hid, hbinds⟩ := planId_binds unitsLe (packageRequest false) plan h
  obtain ⟨-, -, hid', -⟩ := planId_binds unitsLe (packageRequest true) plan' h'
  have hsame : plan'.planId = plan.planId := hinventory _ _ _ h'
  rw [hcontent] at hid
  rw [hcontent', hsame] at hid'
  refine ⟨plan, plan', h, h', hsame, hvalid rfl hready, hcontent, hcontent', ?_⟩
  have hjson : ∀ disposition, JsonContent (packageContent disposition) := by
    have hmanifest : isJson (packageContent .insert).manifest.value = true := by decide +kernel
    intro disposition
    refine ⟨hmanifest, fun a ha r hr => ?_⟩
    cases List.mem_singleton.mp ha
    cases hr
    rfl
  exact hbinds _ _ (hjson .insert) (hjson .alreadyPresent) collisionFree_packageContent _ hid hid'

end Sample

end TrustCore.ImportPlan
