import TrustCore.ChainIdentity

/-!
# Reading an audit event back

Each writer hashes an event and stores its columns; `mapAuditEvent` puts the event together again.
Its metadata come back with the key order of `jsonb`, which does not reach the hash. What comes back
differs where a text had an unpaired surrogate, and where a writer of the contract repository has
stored the empty predecessor of a root, which a `char(64)` column pads to 64 blanks.
-/

namespace TrustCore.AuditReadback

open TrustCore.Utf TrustCore.Json TrustCore.Columns TrustCore.Sha256 TrustCore.Runs
open TrustCore.AuditChain TrustCore.AuditLog TrustCore.ChainIdentity

/-- The same body, but for the order of the keys of its metadata. -/
structure SameBody (read written : AuditEventBody) : Prop where
  texts : { read with metadata := written.metadata } = written
  metadata : SameJson read.metadata written.metadata

/-- What a row gives back is the event that was hashed, so its hash is the stored one. -/
structure ReadsBack (read written : ChainedAuditEvent) : Prop where
  body : SameBody read.body written.body
  previousEventHash : read.previousEventHash = written.previousEventHash
  eventHash : (appendAuditEvent read.body read.previousEventHash).eventHash = read.eventHash

/-- The event that an append hashes. -/
def hashedEvent (t : Table) (a : Append) : ChainedAuditEvent :=
  appendAuditEvent a.body (previousHash t a.body.workspaceId)

/-! ## The stored predecessor -/

def Digests (t : Table) : Prop := ∀ r ∈ t, r.eventHash.length = 64

theorem eventRow_eventHash {e : ChainedAuditEvent} {occurredAt : Instant} {previous : Option JsString}
    {row : AuditRow} (h : eventRow e occurredAt previous = some row) :
    row.eventHash = char64Column e.eventHash ∧ row.previousEventHash = previous := by
  simp only [eventRow, Option.bind_eq_bind, Option.bind_eq_some_iff, Option.pure_def,
    Option.some.injEq] at h
  obtain ⟨actorId, -, action, -, subjectKind, -, subjectId, -, requestId, -, correlationId, -,
    metadataJson, -, rfl⟩ := h
  exact ⟨rfl, rfl⟩

theorem length_hash (b : AuditEventBody) (p : JsString) :
    (appendAuditEvent b p).eventHash.length = 64 := isSha256_length (isSha256_sha256 _)

theorem digests_of_reachable {t : Table} (h : auditLog.Reachable t) : Digests t := by
  refine h.invariant ?_ ?_
  · rintro t rfl r hr
    cases hr
  · rintro t a t' hdigests rfl
    rcases append_cases t a with heq | ⟨row, hrow, -, heq⟩
    · rw [heq]
      exact hdigests
    · rw [heq]
      intro r hr
      rcases List.mem_append.mp hr with hr | hr
      · exact hdigests r hr
      · rw [List.mem_singleton.mp hr, (eventRow_eventHash hrow).1,
          char64Column_of_length (length_hash _ _)]
        exact length_hash _ _

/-- The hash that an append follows is a digest, or it is the first of its workspace. -/
theorem previousHash_cases {t : Table} (h : Digests t) (w : JsString) :
    (workspaceRows t w = [] ∧ previousHash t w = []) ∨
      (workspaceRows t w ≠ [] ∧ (previousHash t w).length = 64) := by
  have hperm : (orderedRows t w).Perm (workspaceRows t w) := List.perm_insertionSort _ _
  cases hrows : orderedRows t w with
  | nil =>
    rw [hrows] at hperm
    refine Or.inl ⟨hperm.nil_eq.symm, ?_⟩
    rw [previousHash, hrows]
    rfl
  | cons r rows =>
    rw [hrows] at hperm
    refine Or.inr ⟨fun hnil => by simp [hnil] at hperm, ?_⟩
    have hlast := List.getLast?_eq_some_getLast (List.cons_ne_nil r rows)
    rw [previousHash, hrows, hlast]
    have hmem := hperm.mem_iff.mp (List.getLast_mem (List.cons_ne_nil r rows))
    exact h _ (List.mem_of_mem_filter hmem)

/-- The column gives the predecessor back, unless it is the empty one as it is. -/
theorem column_getD_iff {t : Table} (h : Digests t) (a : Append) :
    ((if a.isContract then asGiven else orNull) (previousHash t a.body.workspaceId)).getD [] =
        previousHash t a.body.workspaceId ↔
      (a.isContract = true → workspaceRows t a.body.workspaceId ≠ []) := by
  rcases previousHash_cases h a.body.workspaceId with ⟨hrows, hp⟩ | ⟨hrows, hp⟩
  · rw [hp]
    cases a.isContract with
    | true => simp [hrows, asGiven, char64Column]
    | false => simp [orNull]
  · have hne : previousHash t a.body.workspaceId ≠ [] := by
      intro hnil
      rw [hnil] at hp
      cases hp
    cases a.isContract with
    | true => simp [hrows, asGiven, char64Column_of_length hp]
    | false => simp [orNull, hne, char64Column_of_length hp]

/-! ## The columns of texts -/

theorem textColumn_self_iff {s t : JsString} (h : textColumn s = some t) :
    t = s ↔ isWellFormed s = true := by
  constructor
  · rintro rfl
    unfold textColumn at h
    split at h
    · cases h
    · rw [Option.some.injEq] at h
      rw [← h]
      exact isWellFormed_fromScalars (scalars_isScalar _)
  · exact textColumn_eq h

/-- The texts of a row that are those of the event had no unpaired surrogate. -/
theorem wellFormedTexts_of_row {b : AuditEventBody} {p : JsString} {occurredAt : Instant}
    {previous : Option JsString} {row : AuditRow}
    (h : eventRow (appendAuditEvent b p) occurredAt previous = some row)
    (hsame : { (mapAuditEvent row).body with metadata := b.metadata } = b) : WellFormedTexts b := by
  simp only [eventRow, appendAuditEvent, Option.bind_eq_bind, Option.bind_eq_some_iff,
    Option.pure_def, Option.some.injEq] at h
  obtain ⟨actorId, h₁, action, h₂, subjectKind, h₃, subjectId, h₄, requestId, h₅, correlationId,
    h₆, metadataJson, -, rfl⟩ := h
  simp only [mapAuditEvent] at hsame
  exact
    { actorId := (textColumn_self_iff h₁).mp (congrArg AuditEventBody.actorId hsame)
      action := (textColumn_self_iff h₂).mp (congrArg AuditEventBody.action hsame)
      subjectKind := (textColumn_self_iff h₃).mp (congrArg AuditEventBody.subjectKind hsame)
      subjectId := (textColumn_self_iff h₄).mp (congrArg AuditEventBody.subjectId hsame)
      requestId := (textColumn_self_iff h₅).mp (congrArg AuditEventBody.requestId hsame)
      correlationId := (textColumn_self_iff h₆).mp (congrArg AuditEventBody.correlationId hsame) }

theorem sameJson_sortKeys (E : Encoder) {v : JsValue} (h : isJson v = true) :
    SameJson (sortKeys E v) v := by
  obtain ⟨t, ht, -, hread⟩ := parseJson_encode auditEncoder v h
  obtain ⟨t', ht', -, hread'⟩ := parseJson_encode auditEncoder (sortKeys E v) (isJson_sortKeys E v h)
  have htext : encode auditEncoder (sortKeys E v) = encode auditEncoder v :=
    encode_sortKeys (keyOrder_units _ _) E v h
  rw [htext, ht, Option.some.injEq] at ht'
  rw [← ht', hread, Option.some.injEq] at hread'
  exact hread'.symm

/-- Every stored event reads back as it was hashed, exactly where a root is not stored by the
contract repository and no text of it has an unpaired surrogate. -/
theorem readsBack_iff {t : Table} (ht : auditLog.Reachable t) {a : Append} {row : AuditRow}
    (hstored : append t a = t ++ [row]) :
    ReadsBack (mapAuditEvent row) (hashedEvent t a) ↔
      (a.isContract = true → workspaceRows t a.body.workspaceId ≠ []) ∧ WellFormedTexts a.body := by
  obtain ⟨row', hrow, hstored'⟩ : ∃ row', eventRow (hashedEvent t a) a.occurredAt
      ((if a.isContract then asGiven else orNull) (previousHash t a.body.workspaceId)) =
        some row' ∧ append t a = t ++ [row'] := by
    rcases append_cases t a with heq | ⟨row', hrow, -, heq⟩
    · simp [heq] at hstored
    · exact ⟨row', hrow, heq⟩
  obtain rfl : row = row' := by
    rw [hstored', List.append_cancel_left_eq, List.singleton_inj] at hstored
    exact hstored.symm
  rw [← column_getD_iff (digests_of_reachable ht)]
  constructor
  · intro h
    refine ⟨?_, wellFormedTexts_of_row hrow h.body.texts⟩
    have hprevious := h.previousEventHash
    rw [mapAuditEvent, (eventRow_eventHash hrow).2] at hprevious
    exact hprevious
  · rintro ⟨hcolumn, hw⟩
    have heq := eventRow_eq hrow hw
    have hprevious : (mapAuditEvent row).previousEventHash = previousHash t a.body.workspaceId := by
      rw [mapAuditEvent, (eventRow_eventHash hrow).2]
      exact hcolumn
    have hbody : (mapAuditEvent row).body =
        { a.body with metadata := sortKeys jsonbOrder a.body.metadata } := by
      rw [heq, mapAuditEvent, ← timestamp_eq a]
    refine ⟨⟨?_, ?_⟩, hprevious, ?_⟩
    · rw [hbody]
      rfl
    · rw [hbody]
      exact sameJson_sortKeys jsonbOrder (isJson_metadata a)
    · have hmessage := message_sortKeys a.body jsonbOrder (isJson_metadata a)
        (previousHash t a.body.workspaceId)
      rw [hprevious, hbody, heq]
      exact congrArg sha256 hmessage

/-- A revocation recorded as the first event of its workspace. -/
def firstChange : Append :=
  .policyAssignment (js "00000000-0000-4000-8000-000000000001")
    { workspaceId := sampleWorkspace, actorId := js "user-1", principalType := none,
      assignmentId := js "00000000-0000-4000-8000-0000000000cc", created := false,
      requestId := js "request-1", occurredAt := ⟨1000, by decide⟩, metadata := ⟨[], isJson_empty⟩ }

/-- An append to the empty table that is not refused. -/
theorem exists_row {a : Append} (h : (append [] a).length = 1) : ∃ row, append [] a = [] ++ [row] := by
  obtain ⟨row, hrow⟩ := List.length_eq_one_iff.mp h
  exact ⟨row, hrow⟩

/-- The row of an edit reads back. -/
theorem readsBack_iff_edit : ∃ row, append [] firstSample = [] ++ [row] ∧
    ReadsBack (mapAuditEvent row) (hashedEvent [] firstSample) := by
  obtain ⟨row, hrow⟩ := exists_row (a := firstSample) (by decide +kernel)
  refine ⟨row, hrow, (readsBack_iff (.init rfl) hrow).mpr ⟨?_, ⟨rfl, rfl, rfl, rfl, rfl, rfl⟩⟩⟩
  exact fun h => absurd h (by decide)

/-- The root that the contract repository stores reads back with 64 blanks before it, and its hash
is not the stored one. -/
theorem first_change_differs : ∃ row, append [] firstChange = [] ++ [row] ∧
    (mapAuditEvent row).previousEventHash = List.replicate 64 32 ∧
    (hashedEvent [] firstChange).previousEventHash = [] ∧
    (appendAuditEvent (mapAuditEvent row).body (mapAuditEvent row).previousEventHash).eventHash ≠
      row.eventHash ∧
    ¬ ReadsBack (mapAuditEvent row) (hashedEvent [] firstChange) := by
  have hread : ∀ row ∈ append [] firstChange,
      (mapAuditEvent row).previousEventHash = List.replicate 64 32 ∧
      (appendAuditEvent (mapAuditEvent row).body (mapAuditEvent row).previousEventHash).eventHash ≠
        row.eventHash := by decide +kernel
  obtain ⟨row, hrow⟩ := exists_row (a := firstChange) (by decide +kernel)
  obtain ⟨hblanks, hhash⟩ := hread row (by simp [hrow])
  have hroot : (hashedEvent [] firstChange).previousEventHash = [] := rfl
  refine ⟨row, hrow, hblanks, hroot, hhash, fun h => ?_⟩
  have hprevious := h.previousEventHash
  rw [hblanks, hroot] at hprevious
  cases hprevious

end TrustCore.AuditReadback
