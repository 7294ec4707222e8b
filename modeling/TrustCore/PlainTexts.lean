import TrustCore.AuditLog

/-!
# Texts that every column takes

ASCII without NUL is stored in a `text` and in a `jsonb` column as it is. Digests and the ids that are
made of them are such texts.
-/

namespace TrustCore.Columns

open TrustCore.Utf TrustCore.Json TrustCore.Sha256 TrustCore.AuditChain
open TrustCore.AuditLog (deterministicUuid)

/-- Plain text is stored in every column. -/
def Plain (s : JsString) : Prop := ∀ u ∈ s, u ≠ 0 ∧ u.toNat < 128

instance (s : JsString) : Decidable (Plain s) :=
  inferInstanceAs (Decidable (∀ u ∈ s, u ≠ 0 ∧ u.toNat < 128))

theorem plain_append {s t : JsString} (hs : Plain s) (ht : Plain t) : Plain (s ++ t) := by
  intro u hu
  rcases List.mem_append.mp hu with hu | hu
  · exact hs u hu
  · exact ht u hu

theorem Plain.of_sublist {s t : JsString} (ht : Plain t) (h : s.Sublist t) : Plain s :=
  fun u hu => ht u (h.subset hu)

theorem plain_of_isSha256 {digest : JsString} (h : isSha256 digest = true) : Plain digest := by
  intro u hu
  have hhex := isSha256_isLowerHex h u hu
  simp only [isLowerHex, decide_eq_true_eq] at hhex
  constructor
  · rintro rfl
    simp at hhex
  · omega

theorem plain_hexDigit {n : Nat} (h : n < 16) : Plain [hexDigit n] := by
  revert n
  decide

theorem Plain.textColumn {s : JsString} (h : Plain s) : ∃ t, textColumn s = some t := by
  rw [Columns.textColumn, if_neg fun h0 => (h 0 h0).1 rfl]
  exact ⟨_, rfl⟩

theorem Plain.jsonbText {s : JsString} (h : Plain s) : jsonbText s = true := by
  rw [Columns.jsonbText, isWellFormed_ascii s fun u hu => (h u hu).2, Bool.true_and,
    Bool.not_eq_true', decide_eq_false_iff_not]
  exact fun h0 => (h 0 h0).1 rfl

theorem textColumn_jsonbText {s : JsString} (h : jsonbText s = true) : textColumn s = some s := by
  simp only [jsonbText, Bool.and_eq_true, Bool.not_eq_true', decide_eq_false_iff_not] at h
  rw [textColumn, if_neg h.2, fromScalars_scalars s h.1]

theorem plain_hyphenate {hex : JsString} (h : Plain hex) : Plain (AuditLog.hyphenate hex) := by
  have hdash : Plain (js "-") := by decide
  have htake : ∀ (s : JsString) n, Plain s → Plain (s.take n) :=
    fun s n hs => hs.of_sublist (List.take_sublist n s)
  have hdrop : ∀ (s : JsString) n, Plain s → Plain (s.drop n) :=
    fun s n hs => hs.of_sublist (List.drop_sublist n s)
  rw [AuditLog.hyphenate]
  refine plain_append (plain_append (plain_append (plain_append (plain_append (plain_append
    (plain_append (plain_append (htake _ _ h) hdash) ?_) hdash) ?_) hdash) ?_) hdash) ?_
  · exact htake _ _ (hdrop _ _ h)
  · exact htake _ _ (hdrop _ _ h)
  · exact htake _ _ (hdrop _ _ h)
  · exact hdrop _ _ h

theorem plain_deterministicUuid (value : JsString) : Plain (deterministicUuid value) := by
  have hset : ∀ (s : JsString) n v, Plain s → v ≠ 0 ∧ v.toNat < 128 → Plain (s.set n v) := by
    intro s n v hs hv u hu
    rcases List.mem_or_eq_of_mem_set hu with hu | rfl
    · exact hs u hu
    · exact hv
  have hvariant : ∀ n, (js "89ab").getD (n % 4) 56 ≠ 0 ∧ ((js "89ab").getD (n % 4) 56).toNat < 128 := by
    intro n
    have hn : n % 4 < 4 := Nat.mod_lt _ (by decide)
    interval_cases n % 4 <;> decide
  apply plain_hyphenate
  apply hset _ _ _ _ (hvariant _)
  apply hset _ _ _ _ (by decide)
  exact (plain_of_isSha256 (isSha256_sha256 _)).of_sublist (List.take_sublist 32 _)

/-- The row of an event whose actor and request are stored, and whose other texts are plain. -/
theorem exists_eventRow (b : AuditEventBody) (p : JsString) (occurredAt : Instant)
    (previous : Option JsString) {actorId requestId : JsString} (hactor : textColumn b.actorId = some actorId)
    (haction : Plain b.action) (hkind : Plain b.subjectKind) (hsubject : Plain b.subjectId)
    (hrequest : textColumn b.requestId = some requestId) (hcorrelation : Plain b.correlationId)
    (hmetadata : jsonbAccepts b.metadata = true) :
    ∃ row, AuditLog.eventRow (appendAuditEvent b p) occurredAt previous = some row := by
  obtain ⟨action, haction⟩ := haction.textColumn
  obtain ⟨kind, hkind⟩ := hkind.textColumn
  obtain ⟨subject, hsubject⟩ := hsubject.textColumn
  obtain ⟨correlation, hcorrelation⟩ := hcorrelation.textColumn
  simp [AuditLog.eventRow, appendAuditEvent, haction, hkind, hsubject, hrequest, hcorrelation,
    hactor, jsonbColumn, hmetadata]

end TrustCore.Columns
