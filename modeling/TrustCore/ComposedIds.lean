import Mathlib.Data.List.Basic
import TrustCore.AuditLog

/-!
# Ids composed of the parts of a request

An export, a policy assignment and a portability audit event take their id from a text in which the
parts of the request are joined by colons. A workspace id is a UUID and the principal types, actions
and outcomes are fixed words, but an actor id or a key may itself contain a colon. Where two such
parts stand side by side another pair of them can give the same text.
-/

namespace TrustCore.ComposedIds

open TrustCore.Utf TrustCore.Json TrustCore.Sha256 TrustCore.AuditChain TrustCore.AuditLog

/-! ## Two texts around a separator -/

section Joined

variable {α : Type*} {sep : α} {a b a' b' : List α}

/-- The second pair has its separator further on. -/
def Shifts (sep : α) (a b a' b' : List α) : Prop := ∃ m, a' = a ++ sep :: m ∧ b = m ++ sep :: b'

theorem join_of_shifts (h : Shifts sep a b a' b') : a ++ sep :: b = a' ++ sep :: b' := by
  obtain ⟨m, rfl, rfl⟩ := h
  simp

theorem join_eq_iff : a ++ sep :: b = a' ++ sep :: b' ↔
    (a = a' ∧ b = b') ∨ Shifts sep a b a' b' ∨ Shifts sep a' b' a b := by
  constructor
  · intro h
    rcases List.append_eq_append_iff.mp h with ⟨m, hm, hrest⟩ | ⟨m, hm, hrest⟩
    · cases m with
      | nil =>
        rw [List.nil_append, List.cons.injEq] at hrest
        exact Or.inl ⟨by simpa using hm.symm, hrest.2⟩
      | cons u m =>
        rw [List.cons_append, List.cons.injEq] at hrest
        obtain ⟨rfl, hrest⟩ := hrest
        exact Or.inr (Or.inl ⟨m, hm, hrest⟩)
    · cases m with
      | nil =>
        rw [List.nil_append, List.cons.injEq] at hrest
        exact Or.inl ⟨by simpa using hm, hrest.2.symm⟩
      | cons u m =>
        rw [List.cons_append, List.cons.injEq] at hrest
        obtain ⟨rfl, hrest⟩ := hrest
        exact Or.inr (Or.inr ⟨m, hm, hrest⟩)
  · rintro (⟨rfl, rfl⟩ | h | h)
    · rfl
    · exact join_of_shifts h
    · exact (join_of_shifts h).symm

/-- Where neither first text has the separator there is one way to part the joined text. -/
theorem join_inj (ha : sep ∉ a) (ha' : sep ∉ a') :
    a ++ sep :: b = a' ++ sep :: b' ↔ a = a' ∧ b = b' := by
  rw [join_eq_iff]
  constructor
  · rintro (h | ⟨m, rfl, -⟩ | ⟨m, rfl, -⟩)
    · exact h
    · exact absurd (by simp) ha'
    · exact absurd (by simp) ha
  · exact Or.inl

/-- Nor where neither second text has it. -/
theorem join_inj_right (hb : sep ∉ b) (hb' : sep ∉ b') :
    a ++ sep :: b = a' ++ sep :: b' ↔ a = a' ∧ b = b' := by
  rw [join_eq_iff]
  constructor
  · rintro (h | ⟨m, -, rfl⟩ | ⟨m, -, rfl⟩)
    · exact h
    · exact absurd (by simp) hb
    · exact absurd (by simp) hb'
  · exact Or.inl

end Joined

/-! ## The composed texts -/

/-- The id of a workspace, in a `uuid` column; all that is used of it is that it has no colon. -/
structure WorkspaceId where
  text : JsString
  plain : (58 : UInt16) ∉ text

inductive PortabilityPrincipalType where
  | user
  | service
  | application
  deriving DecidableEq

def PortabilityPrincipalType.text : PortabilityPrincipalType → JsString
  | .user => js "user"
  | .service => js "service"
  | .application => js "application"

/-- What an export id is composed of. -/
structure ExportRequest where
  workspaceId : WorkspaceId
  principalType : PortabilityPrincipalType
  actorId : JsString
  idempotencyKey : JsString

def exportText (r : ExportRequest) : JsString :=
  r.workspaceId.text ++ 58 :: (r.principalType.text ++ 58 :: (r.actorId ++ 58 :: r.idempotencyKey))

def exportId (r : ExportRequest) : JsString :=
  js "export-" ++ (sha256 (textEncode (exportText r))).take 40

/-- What the id of a policy assignment is composed of. -/
structure AssignmentRequest where
  workspaceId : WorkspaceId
  actorId : JsString
  idempotencyKey : JsString

def assignmentText (r : AssignmentRequest) : JsString :=
  js "policy-assignment:" ++ r.workspaceId.text ++ 58 :: (r.actorId ++ 58 :: r.idempotencyKey)

def assignmentId (r : AssignmentRequest) : JsString := deterministicUuid (assignmentText r)

/-- The actions that `PostgresPortabilityProvider` writes an audit event of. -/
inductive PortabilityAction where
  | exported
  | exportFailed
  | uploadVerified
  | uploadRejected
  | uploadFailed
  | importPlanned
  | importPlanFailed
  | importResumed
  | importExecuted
  | importFailed
  deriving DecidableEq

def PortabilityAction.text : PortabilityAction → JsString
  | .exported => js "archive.exported"
  | .exportFailed => js "archive.export.failed"
  | .uploadVerified => js "archive.upload.verified"
  | .uploadRejected => js "archive.upload.rejected"
  | .uploadFailed => js "archive.upload.failed"
  | .importPlanned => js "archive.import.planned"
  | .importPlanFailed => js "archive.import.plan_failed"
  | .importResumed => js "archive.import.resumed"
  | .importExecuted => js "archive.import.executed"
  | .importFailed => js "archive.import.failed"

/-- What the id of a portability audit event is composed of. -/
structure AuditRequest where
  workspaceId : WorkspaceId
  action : PortabilityAction
  requestId : JsString
  outcome : Outcome

def auditText (r : AuditRequest) : JsString :=
  js "portability-audit:" ++ r.workspaceId.text ++ 58 :: (r.action.text ++
    58 :: (r.requestId ++ 58 :: r.outcome.text))

/-! ## Where two texts are the same -/

theorem PortabilityPrincipalType.plain (p : PortabilityPrincipalType) : (58 : UInt16) ∉ p.text := by
  cases p <;> decide

theorem PortabilityPrincipalType.text_injective : Function.Injective text := by
  intro p q h
  revert h
  cases p <;> cases q <;> decide

theorem PortabilityAction.plain (x : PortabilityAction) : (58 : UInt16) ∉ x.text := by
  cases x <;> decide

theorem PortabilityAction.text_injective : Function.Injective text := by
  intro x y h
  revert h
  cases x <;> cases y <;> decide

theorem outcome_plain (o : Outcome) : (58 : UInt16) ∉ o.text := by
  cases o <;> decide

theorem outcome_text_injective : Function.Injective Outcome.text := by
  intro o o' h
  cases o <;> cases o'
  · rfl
  · exact absurd h (by decide)
  · exact absurd h (by decide)
  · rfl

theorem WorkspaceId.text_injective : Function.Injective WorkspaceId.text := by
  rintro ⟨w, hw⟩ ⟨w', hw'⟩ rfl
  rfl

/-- The actor id of one request goes on with a colon and a beginning of the key of the other. -/
def Shifted (actorId idempotencyKey actorId' idempotencyKey' : JsString) : Prop :=
  Shifts 58 actorId idempotencyKey actorId' idempotencyKey' ∨
    Shifts 58 actorId' idempotencyKey' actorId idempotencyKey

theorem exportText_eq_iff (r s : ExportRequest) : exportText r = exportText s ↔
    r = s ∨ (r.workspaceId = s.workspaceId ∧ r.principalType = s.principalType ∧
      Shifted r.actorId r.idempotencyKey s.actorId s.idempotencyKey) := by
  obtain ⟨w, p, actor, key⟩ := r
  obtain ⟨w', p', actor', key'⟩ := s
  simp only [exportText, join_inj w.plain w'.plain, join_inj p.plain p'.plain, join_eq_iff,
    WorkspaceId.text_injective.eq_iff, PortabilityPrincipalType.text_injective.eq_iff, Shifted,
    ExportRequest.mk.injEq]
  tauto

theorem assignmentText_eq_iff (r s : AssignmentRequest) : assignmentText r = assignmentText s ↔
    r = s ∨ (r.workspaceId = s.workspaceId ∧
      Shifted r.actorId r.idempotencyKey s.actorId s.idempotencyKey) := by
  obtain ⟨w, actor, key⟩ := r
  obtain ⟨w', actor', key'⟩ := s
  simp only [assignmentText, List.append_assoc, List.append_cancel_left_eq,
    join_inj w.plain w'.plain, join_eq_iff, WorkspaceId.text_injective.eq_iff, Shifted,
    AssignmentRequest.mk.injEq]
  tauto

theorem auditText_injective : Function.Injective auditText := by
  rintro ⟨w, x, request, o⟩ ⟨w', x', request', o'⟩ h
  simp only [auditText, List.append_assoc, List.append_cancel_left_eq, join_inj w.plain w'.plain,
    join_inj x.plain x'.plain, join_inj_right (outcome_plain o) (outcome_plain o'),
    WorkspaceId.text_injective.eq_iff, PortabilityAction.text_injective.eq_iff,
    outcome_text_injective.eq_iff] at h
  obtain ⟨rfl, rfl, rfl, rfl⟩ := h
  rfl

/-- Two different requests are composed to different texts, for an export and a policy assignment
exactly where they are not of one workspace (and principal type) with one actor id and key a shifted
form of the other, and for an audit event always. -/
theorem composed_differ_iff (r s : ExportRequest) (a b : AssignmentRequest)
    (e f : AuditRequest) :
    (r ≠ s → (exportText r ≠ exportText s ↔
      ¬ (r.workspaceId = s.workspaceId ∧ r.principalType = s.principalType ∧
        Shifted r.actorId r.idempotencyKey s.actorId s.idempotencyKey))) ∧
    (a ≠ b → (assignmentText a ≠ assignmentText b ↔
      ¬ (a.workspaceId = b.workspaceId ∧
        Shifted a.actorId a.idempotencyKey b.actorId b.idempotencyKey))) ∧
    (e ≠ f → auditText e ≠ auditText f) := by
  refine ⟨fun hne => ?_, fun hne => ?_, fun hne => auditText_injective.ne hne⟩
  · rw [ne_eq, exportText_eq_iff, or_iff_right hne]
  · rw [ne_eq, assignmentText_eq_iff, or_iff_right hne]

def sampleWorkspaceId : WorkspaceId := ⟨sampleWorkspace, by decide⟩

/-- Two users of one issuer, one of which is named with a port. -/
def portlessExport : ExportRequest := ⟨sampleWorkspaceId, .user, js "https://id", js "443:key"⟩

def portExport : ExportRequest := ⟨sampleWorkspaceId, .user, js "https://id:443", js "key"⟩

def portlessAssignment : AssignmentRequest := ⟨sampleWorkspaceId, js "https://id", js "443:key"⟩

def portAssignment : AssignmentRequest := ⟨sampleWorkspaceId, js "https://id:443", js "key"⟩

/-- Requests in two different keys. -/
theorem composed_differ_iff_keys :
    exportText portExport ≠ exportText { portExport with idempotencyKey := js "other" } := by
  have hdiffer := composed_differ_iff portExport { portExport with idempotencyKey := js "other" }
    portAssignment portlessAssignment ⟨sampleWorkspaceId, .exported, js "r", .succeeded⟩
    ⟨sampleWorkspaceId, .exported, js "s", .succeeded⟩
  refine (hdiffer.1 ?_).mpr ?_
  · intro h
    exact absurd (congrArg ExportRequest.idempotencyKey h) (by decide)
  · rintro ⟨-, -, ⟨m, hm, -⟩ | ⟨m, hm, -⟩⟩
    · simp [portExport] at hm
    · simp [portExport] at hm

/-- Different users with different keys are given one export id, and one assignment id. -/
theorem port_and_key_collide :
    portlessExport.actorId ≠ portExport.actorId ∧
    portlessExport.idempotencyKey ≠ portExport.idempotencyKey ∧
    exportText portlessExport = exportText portExport ∧
    exportId portlessExport = exportId portExport ∧
    assignmentText portlessAssignment = assignmentText portAssignment ∧
    assignmentId portlessAssignment = assignmentId portAssignment := by
  have hexport : exportText portlessExport = exportText portExport := by decide
  have hassignment : assignmentText portlessAssignment = assignmentText portAssignment := by decide
  refine ⟨by decide, by decide, hexport, ?_, hassignment, ?_⟩
  · rw [exportId, exportId, hexport]
  · rw [assignmentId, assignmentId, hassignment]

end TrustCore.ComposedIds
