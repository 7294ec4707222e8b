import TrustCore.Policy

/-!
# Which records decide a request

A decision is a question about existence: some matching assignment has the capability,
or some grant is in force. So it sees neither the records that are not in force nor the
order of the lists, with one exception. The application behind the principal is the first
active registration with its id or its namespace, and only that one is asked for the
capability.
-/

namespace TrustCore.Policy

open TrustCore.Utf

/-- A search does not see the elements that it would not stop at. -/
theorem find?_filter_of_imp {α : Type} {q p : α → Bool} (h : ∀ a, q a = true → p a = true)
    (l : List α) : (l.filter p).find? q = l.find? q := by
  rw [List.find?_filter]
  congr 1
  funext a
  cases hq : q a with
  | false => simp
  | true => simp [h a hq]

section Records

variable (dateParse : JsString → Option Int) (now : JsString) (input : PolicyEvaluationInput)

/-- The assignment is of the workspace and the principal of the request, not revoked, and
not scoped to another dataset or application. -/
def ScopedPolicyAssignment.InForce (a : ScopedPolicyAssignment) : Prop :=
  a.workspaceId = input.scope.workspaceId ∧ a.principalType = input.principal.type ∧
    a.principalId = input.principal.id ∧ isRevoked a.revokedAt = false ∧
    (a.scopeKind = .dataset → input.scope.datasetId = some a.scopeId) ∧
    (a.scopeKind = .application → input.scope.applicationId = some a.scopeId)

instance (a : ScopedPolicyAssignment) : Decidable (a.InForce input) :=
  inferInstanceAs (Decidable (_ ∧ _))

/-- The grant is of the workspace and the principal, not revoked, has a reason, lists the
action, and is valid at the time of the evaluation. -/
def ActiveBreakGlassGrant.InForce (g : ActiveBreakGlassGrant) : Prop :=
  g.workspaceId = input.scope.workspaceId ∧ g.principalId = input.principal.id ∧
    isRevoked g.revokedAt = false ∧ Dynamic.trim g.reason ≠ [] ∧ input.action.text ∈ g.actions ∧
    numberLe (dateParse g.grantedAt) (dateParse (input.«at».getD now)) = true ∧
    numberLt (dateParse (input.«at».getD now)) (dateParse g.expiresAt) = true

instance (g : ActiveBreakGlassGrant) : Decidable (g.InForce dateParse now input) :=
  inferInstanceAs (Decidable (_ ∧ _))

/-- The application is an active one of the workspace. -/
def RegisteredApplication.InForce (a : RegisteredApplication) : Prop :=
  a.workspaceId = input.scope.workspaceId ∧ a.status = .active

instance (a : RegisteredApplication) : Decidable (a.InForce input) :=
  inferInstanceAs (Decidable (_ ∧ _))

/-- The same request, and the same records in force for it. -/
structure SameInForce (i j : PolicyEvaluationInput) : Prop where
  principal : j.principal = i.principal
  action : j.action = i.action
  scope : j.scope = i.scope
  «at» : j.«at» = i.«at»
  assignments : (j.assignments.getD []).filter (fun a => a.InForce i) =
    (i.assignments.getD []).filter fun a => a.InForce i
  applications : (j.applications.getD []).filter (fun a => a.InForce i) =
    (i.applications.getD []).filter fun a => a.InForce i
  breakGlassGrants : (j.breakGlassGrants.getD []).filter (fun g => g.InForce dateParse now i) =
    (i.breakGlassGrants.getD []).filter fun g => g.InForce dateParse now i

/-- The assignment matches the request and its role has the capability. -/
def grantsAction (a : ScopedPolicyAssignment) : Bool :=
  assignmentMatches a input && (capabilitiesForRole a.role).contains input.action

/-- Some stored or claimed assignment gives the action, or some grant does. -/
def Granted : Prop :=
  (∃ a ∈ input.assignments.getD [] ++ claimedRoleAssignments input, grantsAction input a = true) ∨
    isBreakGlassEligibleAction input.action = true ∧
      ∃ g ∈ input.breakGlassGrants.getD [], grantMatches dateParse now input g = true

/-- The registrations that an application principal may be. -/
def registrations : List RegisteredApplication :=
  (input.applications.getD []).filter (isRegistration input)

/-- The same request over the same records, in any order. -/
structure Reordered (i j : PolicyEvaluationInput) : Prop where
  principal : j.principal = i.principal
  action : j.action = i.action
  scope : j.scope = i.scope
  «at» : j.«at» = i.«at»
  assignments : (j.assignments.getD []).Perm (i.assignments.getD [])
  applications : (j.applications.getD []).Perm (i.applications.getD [])
  breakGlassGrants : (j.breakGlassGrants.getD []).Perm (i.breakGlassGrants.getD [])

end Records

section Matchers

variable {dateParse : JsString → Option Int} {now : JsString} {input : PolicyEvaluationInput}

theorem not_revoked_of_matches {a : ScopedPolicyAssignment}
    (h : assignmentMatches a input = true) : isRevoked a.revokedAt = false := by
  rw [assignmentMatches] at h
  split at h
  · cases h
  · next hcheck =>
    simp only [Bool.or_eq_true, not_or, Bool.not_eq_true] at hcheck
    exact hcheck.1.1.1

theorem inForce_of_matches {a : ScopedPolicyAssignment} (h : assignmentMatches a input = true) :
    a.InForce input := by
  have hrevoked := not_revoked_of_matches h
  rw [assignmentMatches] at h
  split at h
  · cases h
  · next hcheck =>
    simp only [Bool.or_eq_true, not_or, bne_iff_ne, not_not] at hcheck
    obtain ⟨⟨⟨-, hworkspace⟩, htype⟩, hid⟩ := hcheck
    refine ⟨hworkspace, htype, hid, hrevoked, ?_, ?_⟩
    · intro hkind
      rw [hkind] at h
      exact beq_iff_eq.mp h
    · intro hkind
      rw [hkind] at h
      exact beq_iff_eq.mp h

theorem grantMatches_iff {g : ActiveBreakGlassGrant} :
    grantMatches dateParse now input g = true ↔ g.InForce dateParse now input := by
  simp [grantMatches, ActiveBreakGlassGrant.InForce, and_assoc, List.length_pos_iff]

theorem inForce_of_isRegistration {a : RegisteredApplication}
    (h : isRegistration input a = true) : a.InForce input := by
  simp only [isRegistration, Bool.and_eq_true, beq_iff_eq] at h
  exact h.1

theorem mem_registrations {a : RegisteredApplication} :
    a ∈ registrations input ↔
      a ∈ input.applications.getD [] ∧ isRegistration input a = true := List.mem_filter

theorem mem_of_registeredApplication {a : RegisteredApplication}
    (h : registeredApplication input = some a) : a ∈ registrations input :=
  mem_registrations.mpr ⟨List.mem_of_find?_eq_some h, List.find?_some h⟩

theorem exists_registeredApplication (h : registrations input ≠ []) :
    ∃ a, registeredApplication input = some a := by
  obtain ⟨a, ha⟩ := List.exists_mem_of_ne_nil _ h
  obtain ⟨hmem, hreg⟩ := mem_registrations.mp ha
  exact Option.isSome_iff_exists.mp (List.find?_isSome.mpr ⟨a, hmem, hreg⟩)

theorem activeBreakGlassGrant_eq_some {g : ActiveBreakGlassGrant}
    (h : activeBreakGlassGrant dateParse now input = some g) :
    isBreakGlassEligibleAction input.action = true ∧ g ∈ input.breakGlassGrants.getD [] ∧
      g.InForce dateParse now input := by
  rw [activeBreakGlassGrant] at h
  split at h
  · cases h
  · next hcheck =>
    have heligible : isBreakGlassEligibleAction input.action = true := by simpa using hcheck
    exact ⟨heligible, List.mem_of_find?_eq_some h, grantMatches_iff.mp (List.find?_some h)⟩

theorem evaluateGrants_allowed :
    (evaluateGrants dateParse now input).allowed = true ↔ Granted dateParse now input := by
  have hroles : (grantingAssignment input).isSome = true ↔
      ∃ a ∈ input.assignments.getD [] ++ claimedRoleAssignments input,
        grantsAction input a = true := List.find?_isSome
  have hgrants : (activeBreakGlassGrant dateParse now input).isSome = true ↔
      isBreakGlassEligibleAction input.action = true ∧
        ∃ g ∈ input.breakGlassGrants.getD [], grantMatches dateParse now input g = true := by
    rw [activeBreakGlassGrant]
    cases isBreakGlassEligibleAction input.action with
    | false => simp
    | true => simp
  rw [Granted, ← hroles, ← hgrants, evaluateGrants]
  cases grantingAssignment input with
  | some a => simp [PolicyDecision.allowed]
  | none =>
    cases activeBreakGlassGrant dateParse now input with
    | some g => simp [PolicyDecision.allowed]
    | none => simp [PolicyDecision.allowed]

/-- Allowed: the application of an application principal lists the action, and some
assignment or grant gives it. -/
theorem evaluatePolicy_allowed :
    (evaluatePolicy dateParse now input).allowed = true ↔
      (input.principal.type = .application → ∃ a, registeredApplication input = some a ∧
        input.action.text ∈ a.capabilities) ∧ Granted dateParse now input := by
  rw [← evaluateGrants_allowed, evaluatePolicy]
  by_cases htype : input.principal.type = .application
  · rw [if_pos htype]
    cases registeredApplication input with
    | none => simp [htype, PolicyDecision.allowed]
    | some a =>
      by_cases hcapable : input.action.text ∈ a.capabilities
      · have hany : a.capabilities.any (· == input.action.text) = true :=
          List.any_eq_true.mpr ⟨_, hcapable, beq_self_eq_true _⟩
        simp [hany, hcapable]
      · have hany : a.capabilities.any (· == input.action.text) = false := by
          simpa using fun c hc (he : c = input.action.text) => hcapable (he ▸ hc)
        simp [hany, hcapable, htype, PolicyDecision.allowed]
  · simp [htype]

end Matchers

section Isolation

variable {dateParse : JsString → Option Int} {now : JsString}

theorem grantsAction_inForce {input : PolicyEvaluationInput} {a : ScopedPolicyAssignment}
    (h : grantsAction input a = true) : a.InForce input := by
  rw [grantsAction, Bool.and_eq_true] at h
  exact inForce_of_matches h.1

/-- The decision is made by the records in force. -/
theorem evaluatePolicy_congr {i j : PolicyEvaluationInput} (h : SameInForce dateParse now i j) :
    evaluatePolicy dateParse now j = evaluatePolicy dateParse now i := by
  obtain ⟨hprincipal, haction, hscope, hat, hassignments, happlications, hgrants⟩ := h
  have hmatches : ∀ a, assignmentMatches a j = assignmentMatches a i := by
    intro a
    simp only [assignmentMatches, hprincipal, hscope]
  have hclaimed : claimedRoleAssignments j = claimedRoleAssignments i := by
    simp only [claimedRoleAssignments, hprincipal, hscope]
  have hgranting : grantingAssignment j = grantingAssignment i := by
    simp only [grantingAssignment, hmatches, hclaimed, haction, List.find?_append]
    have hq : ∀ a, (assignmentMatches a i && (capabilitiesForRole a.role).contains i.action) = true →
        decide (a.InForce i) = true := fun a ha => decide_eq_true (grantsAction_inForce ha)
    rw [← find?_filter_of_imp hq, hassignments, find?_filter_of_imp hq]
  have hgrantMatches : grantMatches dateParse now j = grantMatches dateParse now i := by
    funext g
    simp only [grantMatches, hprincipal, hscope, haction, hat]
  have hgrant : activeBreakGlassGrant dateParse now j = activeBreakGlassGrant dateParse now i := by
    have hq : ∀ g, grantMatches dateParse now i g = true →
        decide (g.InForce dateParse now i) = true := fun g hg =>
      decide_eq_true (grantMatches_iff.mp hg)
    rw [activeBreakGlassGrant, activeBreakGlassGrant, haction, hgrantMatches,
      ← find?_filter_of_imp hq, hgrants, find?_filter_of_imp hq]
  have hregistration : isRegistration j = isRegistration i := by
    funext a
    simp only [isRegistration, hprincipal, hscope]
  have happlication : registeredApplication j = registeredApplication i := by
    have hq : ∀ a, isRegistration i a = true → decide (a.InForce i) = true := fun a ha =>
      decide_eq_true (inForce_of_isRegistration ha)
    rw [registeredApplication, registeredApplication, hregistration, ← find?_filter_of_imp hq,
      happlications, find?_filter_of_imp hq]
  have hevaluate : evaluateGrants dateParse now j = evaluateGrants dateParse now i := by
    rw [evaluateGrants, evaluateGrants, hgranting, hgrant]
  rw [evaluatePolicy, evaluatePolicy, hprincipal, happlication, haction, hevaluate]

/-- What revoking leaves is a part of what there was. -/
theorem mem_of_mem_revoked {α : Type} {before after : List α} {a a' b : α}
    (hne : b ≠ a') (hb : b ∈ before ++ a' :: after) : b ∈ before ++ a :: after := by
  rw [List.mem_append, List.mem_cons] at *
  obtain hb | hb | hb := hb
  · exact .inl hb
  · exact absurd hb hne
  · exact .inr (.inr hb)

theorem denied_of_revoked_assignment {input : PolicyEvaluationInput}
    {before after : List ScopedPolicyAssignment} {a : ScopedPolicyAssignment} {t : JsString}
    (ht : t ≠ []) (hlist : input.assignments = some (before ++ a :: after))
    (hdenied : (evaluatePolicy dateParse now input).allowed = false) :
    (evaluatePolicy dateParse now { input with
      assignments := some (before ++ { a with revokedAt := some t } :: after) }).allowed = false := by
  rw [← Bool.not_eq_true, evaluatePolicy_allowed] at hdenied ⊢
  rintro ⟨hgate, hgranted⟩
  refine hdenied ⟨hgate, ?_⟩
  obtain ⟨b, hb, hgrants⟩ | hgrant := hgranted
  · refine .inl ⟨b, ?_, hgrants⟩
    rw [List.mem_append] at hb ⊢
    obtain hb | hb := hb
    · left
      rw [hlist]
      refine mem_of_mem_revoked ?_ hb
      intro he
      have hrevoked := (grantsAction_inForce hgrants).2.2.2.1
      rw [he] at hrevoked
      simp [isRevoked, ht] at hrevoked
    · exact .inr hb
  · exact .inr hgrant

theorem denied_of_revoked_grant {input : PolicyEvaluationInput}
    {before after : List ActiveBreakGlassGrant} {g : ActiveBreakGlassGrant} {t : JsString}
    (ht : t ≠ []) (hlist : input.breakGlassGrants = some (before ++ g :: after))
    (hdenied : (evaluatePolicy dateParse now input).allowed = false) :
    (evaluatePolicy dateParse now { input with
      breakGlassGrants := some (before ++ { g with revokedAt := some t } :: after) }).allowed =
        false := by
  rw [← Bool.not_eq_true, evaluatePolicy_allowed] at hdenied ⊢
  rintro ⟨hgate, hgranted⟩
  refine hdenied ⟨hgate, ?_⟩
  obtain hrole | ⟨heligible, b, hb, hmatches⟩ := hgranted
  · exact .inl hrole
  · refine .inr ⟨heligible, b, ?_, hmatches⟩
    rw [hlist]
    refine mem_of_mem_revoked ?_ hb
    intro he
    have hrevoked := (grantMatches_iff.mp hmatches).2.2.1
    rw [he] at hrevoked
    simp [isRevoked, ht] at hrevoked

/-- A decision for break glass names a grant in force for an eligible action. -/
theorem grant_of_breakGlass {input : PolicyEvaluationInput} {grantId reason : JsString}
    (h : evaluatePolicy dateParse now input = .breakGlass grantId reason) :
    input.action ∈ breakGlassEligibleActions ∧ ∃ g ∈ input.breakGlassGrants.getD [],
      g.id = grantId ∧ g.InForce dateParse now input := by
  have hgrants : evaluateGrants dateParse now input = .breakGlass grantId reason := by
    rw [evaluatePolicy] at h
    split at h
    · split at h
      · cases h
      · split at h
        · exact h
        · cases h
    · exact h
  rw [evaluateGrants] at hgrants
  split at hgrants
  · cases hgrants
  · split at hgrants
    · next g hg =>
      obtain ⟨heligible, hmem, hforce⟩ := activeBreakGlassGrant_eq_some hg
      cases hgrants
      exact ⟨List.contains_iff_mem.mp heligible, g, hmem, rfl, hforce⟩
    · cases hgrants

/-- The decision depends on the records in force for the principal and its workspace only: revoking
an assignment or a grant never allows more, an application acts within the capabilities that it
registered, and break glass opens eligible actions to the principal of an unrevoked grant. -/
theorem evaluatePolicy_isolated (dateParse : JsString → Option Int) (now : JsString) :
    (∀ i j, SameInForce dateParse now i j →
      (evaluatePolicy dateParse now j).allowed = (evaluatePolicy dateParse now i).allowed) ∧
    (∀ input before a after t, t ≠ [] →
      input.assignments = some (before ++ a :: after) →
      (evaluatePolicy dateParse now input).allowed = false →
      (evaluatePolicy dateParse now { input with
        assignments := some (before ++ { a with revokedAt := some t } :: after) }).allowed =
          false) ∧
    (∀ input before g after t, t ≠ [] →
      input.breakGlassGrants = some (before ++ g :: after) →
      (evaluatePolicy dateParse now input).allowed = false →
      (evaluatePolicy dateParse now { input with
        breakGlassGrants := some (before ++ { g with revokedAt := some t } :: after) }).allowed =
          false) ∧
    (∀ input, input.principal.type = .application →
      (evaluatePolicy dateParse now input).allowed = true →
      ∃ a ∈ registrations input, registeredApplication input = some a ∧
        input.action.text ∈ a.capabilities) ∧
    ∀ input grantId reason, evaluatePolicy dateParse now input = .breakGlass grantId reason →
      input.action ∈ breakGlassEligibleActions ∧ ∃ g ∈ input.breakGlassGrants.getD [],
        g.id = grantId ∧ g.workspaceId = input.scope.workspaceId ∧
        g.principalId = input.principal.id ∧ isRevoked g.revokedAt = false ∧
        numberLt (dateParse (input.«at».getD now)) (dateParse g.expiresAt) = true := by
  refine ⟨?_, ?_, ?_, ?_, ?_⟩
  · intro i j h
    rw [evaluatePolicy_congr h]
  · intro input before a after t ht hlist hdenied
    exact denied_of_revoked_assignment ht hlist hdenied
  · intro input before g after t ht hlist hdenied
    exact denied_of_revoked_grant ht hlist hdenied
  · intro input htype hallowed
    obtain ⟨a, ha, hcapable⟩ := (evaluatePolicy_allowed.mp hallowed).1 htype
    exact ⟨a, mem_of_registeredApplication ha, ha, hcapable⟩
  · intro input grantId reason h
    obtain ⟨heligible, g, hg, hid, hforce⟩ := grant_of_breakGlass h
    exact ⟨heligible, g, hg, hid, hforce.1, hforce.2.1, hforce.2.2.1, hforce.2.2.2.2.2.2⟩

/-- A grant in force for a user, next to an assignment that has been revoked. -/
def recoveryRequest : PolicyEvaluationInput :=
  { principal := ⟨js "u", .user, none, none⟩
    action := .historyRead
    scope := ⟨js "w", none, none⟩
    assignments := some [⟨js "p", js "w", .user, js "u", js "editor", .workspace, js "w",
      some (js "2026-01-01T00:00:00.000Z")⟩]
    applications := none
    breakGlassGrants := some [⟨js "g", js "w", js "u", js "restore", [js "history:read"],
      js "2026-01-01T00:00:00.000Z", js "2026-01-02T00:00:00.000Z", none⟩]
    «at» := some (js "2026-01-01T12:00:00.000Z") }

/-- `Date.parse` of the three texts of the request. -/
def recoveryTimes (text : JsString) : Option Int :=
  if text = js "2026-01-01T00:00:00.000Z" then some 1767225600000
  else if text = js "2026-01-01T12:00:00.000Z" then some 1767268800000
  else if text = js "2026-01-02T00:00:00.000Z" then some 1767312000000
  else none

theorem evaluatePolicy_isolated_recovery :
    (evaluatePolicy recoveryTimes [] { recoveryRequest with assignments := none }).allowed =
      (evaluatePolicy recoveryTimes [] recoveryRequest).allowed ∧
    recoveryRequest.action ∈ breakGlassEligibleActions := by
  obtain ⟨hsame, -, -, -, hgrant⟩ := evaluatePolicy_isolated recoveryTimes []
  refine ⟨hsame recoveryRequest _ ⟨rfl, rfl, rfl, rfl, by decide, rfl, rfl⟩, ?_⟩
  exact (hgrant recoveryRequest (js "g") (js "restore") (by decide)).1

end Isolation

section Order

variable {dateParse : JsString → Option Int} {now : JsString}

theorem granted_reordered {i j : PolicyEvaluationInput} (h : Reordered i j) :
    Granted dateParse now j ↔ Granted dateParse now i := by
  obtain ⟨hprincipal, haction, hscope, hat, hassignments, -, hgrants⟩ := h
  have hgrantsAction : ∀ a, grantsAction j a = grantsAction i a := by
    intro a
    simp only [grantsAction, assignmentMatches, hprincipal, hscope, haction]
  have hclaimed : claimedRoleAssignments j = claimedRoleAssignments i := by
    simp only [claimedRoleAssignments, hprincipal, hscope]
  have hgrantMatches : ∀ g, grantMatches dateParse now j g = grantMatches dateParse now i g := by
    intro g
    simp only [grantMatches, hprincipal, hscope, haction, hat]
  simp only [Granted, hgrantsAction, hclaimed, hgrantMatches, haction, List.mem_append,
    hassignments.mem_iff, hgrants.mem_iff]

theorem registrations_reordered {i j : PolicyEvaluationInput} (h : Reordered i j) :
    (registrations j).Perm (registrations i) := by
  have hregistration : isRegistration j = isRegistration i := by
    funext a
    simp only [isRegistration, h.principal, h.scope]
  rw [registrations, registrations, hregistration]
  exact h.applications.filter _

/-- Some order of the applications makes any of the registrations the one that is found. -/
theorem exists_reordered {i : PolicyEvaluationInput} {a : RegisteredApplication}
    (ha : a ∈ registrations i) : ∃ j, Reordered i j ∧ registeredApplication j = some a := by
  obtain ⟨hmem, hreg⟩ := mem_registrations.mp ha
  refine ⟨{ i with applications := some (a :: (i.applications.getD []).erase a) },
    ⟨rfl, rfl, rfl, rfl, .refl _, (List.perm_cons_erase hmem).symm, .refl _⟩, ?_⟩
  exact List.find?_cons_of_pos hreg

/-- The order of the lists does not decide exactly when all registrations of an application
principal agree on the action, or nothing gives the action. -/
theorem order_irrelevant_iff (dateParse : JsString → Option Int) (now : JsString)
    (i : PolicyEvaluationInput) :
    (∀ j, Reordered i j →
      (evaluatePolicy dateParse now j).allowed = (evaluatePolicy dateParse now i).allowed) ↔
    (i.principal.type = .application → Granted dateParse now i →
      ∀ a ∈ registrations i, ∀ b ∈ registrations i,
        (i.action.text ∈ a.capabilities ↔ i.action.text ∈ b.capabilities)) := by
  constructor
  · intro hsame htype hgranted
    have hdecides : ∀ a ∈ registrations i, i.action.text ∈ a.capabilities ↔
        (evaluatePolicy dateParse now i).allowed = true := by
      intro a ha
      obtain ⟨j, hj, hfound⟩ := exists_reordered ha
      rw [← hsame j hj, evaluatePolicy_allowed, hj.principal, hj.action, hfound]
      simp [htype, (granted_reordered hj).mpr hgranted]
    intro a ha b hb
    rw [hdecides a ha, hdecides b hb]
  · intro hagree j hj
    rw [Bool.eq_iff_iff, evaluatePolicy_allowed, evaluatePolicy_allowed, granted_reordered hj,
      hj.principal, hj.action]
    refine and_congr_left fun hgranted => imp_congr_right fun htype => ?_
    have hperm := registrations_reordered hj
    constructor
    · rintro ⟨a, ha, hcapable⟩
      have hmem := hperm.mem_iff.mp (mem_of_registeredApplication ha)
      obtain ⟨b, hb⟩ := exists_registeredApplication (List.ne_nil_of_mem hmem)
      exact ⟨b, hb, (hagree htype hgranted a hmem b (mem_of_registeredApplication hb)).mp hcapable⟩
    · rintro ⟨a, ha, hcapable⟩
      have hmem := hperm.mem_iff.mpr (mem_of_registeredApplication ha)
      obtain ⟨b, hb⟩ := exists_registeredApplication (List.ne_nil_of_mem hmem)
      have hmemb := hperm.mem_iff.mp (mem_of_registeredApplication hb)
      exact ⟨b, hb, (hagree htype hgranted a (mem_of_registeredApplication ha) b hmemb).mp hcapable⟩

/-- An application principal `x`, with a registration whose namespace is `x` before the one
whose id is `x`. -/
def sharedNameRequest : PolicyEvaluationInput :=
  { principal := ⟨js "x", .application, none, none⟩
    action := .resourceRead
    scope := ⟨js "w", none, none⟩
    assignments := some [⟨js "p", js "w", .application, js "x", js "editor", .workspace, js "w",
      none⟩]
    applications := some [⟨js "a", js "w", js "x", [js "resource:read"], .active⟩,
      ⟨js "x", js "w", js "b", [], .active⟩]
    breakGlassGrants := none
    «at» := none }

/-- The same rows, the application with the id `x` first. -/
def sharedNameReordered : PolicyEvaluationInput :=
  { sharedNameRequest with
    applications := (sharedNameRequest.applications.getD []).reverse }

theorem row_order_decides : Reordered sharedNameRequest sharedNameReordered ∧
    (evaluatePolicy (fun _ => none) [] sharedNameRequest).allowed = true ∧
    (evaluatePolicy (fun _ => none) [] sharedNameReordered).allowed = false :=
  ⟨⟨rfl, rfl, rfl, rfl, .refl _, .swap _ _ _, .refl _⟩, by decide, by decide⟩

end Order

end TrustCore.Policy
