import TrustCore.Columns

/-!
# The audit chain

`appendAuditEvent` hashes the canonical text of an event body together with the
hash of its predecessor; `verifyAuditChain` recomputes the chain. A chain it
accepts names each event as a predecessor at most once, unless SHA-256 collides
on the messages of its own events.
-/

namespace TrustCore.AuditChain

open TrustCore.Utf TrustCore.Json TrustCore.Columns TrustCore.Sha256

inductive ActorType where
  | user
  | service
  | application
  | system
  deriving DecidableEq

def ActorType.text : ActorType → JsString
  | .user => js "user"
  | .service => js "service"
  | .application => js "application"
  | .system => js "system"

structure AuditEventBody where
  id : JsString
  workspaceId : JsString
  actorType : ActorType
  actorId : JsString
  action : JsString
  subjectKind : JsString
  subjectId : JsString
  timestamp : JsString
  requestId : JsString
  correlationId : JsString
  metadata : JsValue

structure ChainedAuditEvent where
  body : AuditEventBody
  previousEventHash : JsString
  eventHash : JsString

/-- An undefined value prints as nothing between commas and as its name after a key. -/
def auditEncoder : Encoder := ⟨unitsLe, some [], some (js "undefined")⟩

def canonicalValue (v : JsValue) : JsString := (encode auditEncoder v).getD []

def AuditEventBody.members (b : AuditEventBody) : List (JsString × JsValue) :=
  [(js "id", .string b.id), (js "workspaceId", .string b.workspaceId),
    (js "actorType", .string b.actorType.text), (js "actorId", .string b.actorId),
    (js "action", .string b.action), (js "subjectKind", .string b.subjectKind),
    (js "subjectId", .string b.subjectId), (js "timestamp", .string b.timestamp),
    (js "requestId", .string b.requestId), (js "correlationId", .string b.correlationId),
    (js "metadata", b.metadata)]

def AuditEventBody.value (b : AuditEventBody) : JsValue := .object b.members

/-- What is hashed for an event: its body, then the hash of its predecessor. -/
def message (b : AuditEventBody) (previousEventHash : JsString) : Bytes :=
  textEncode (canonicalValue b.value) ++ textEncode previousEventHash

def appendAuditEvent (b : AuditEventBody) (previousEventHash : JsString) : ChainedAuditEvent :=
  ⟨b, previousEventHash, sha256 (message b previousEventHash)⟩

def verifyFrom (previous : JsString) : List ChainedAuditEvent → Bool
  | [] => true
  | e :: es =>
    if e.previousEventHash ≠ previous then false
    else if (appendAuditEvent e.body previous).eventHash ≠ e.eventHash then false
    else verifyFrom e.eventHash es

def verifyAuditChain (events : List ChainedAuditEvent) : Bool := verifyFrom [] events

/-- The hash the next event has to name. -/
def lastHash (previous : JsString) (es : List ChainedAuditEvent) : JsString :=
  (es.getLast?.map ChainedAuditEvent.eventHash).getD previous

theorem verifyFrom_cons (p : JsString) (e : ChainedAuditEvent) (es : List ChainedAuditEvent) :
    verifyFrom p (e :: es) = true ↔ e.previousEventHash = p ∧
      e.eventHash = sha256 (message e.body p) ∧ verifyFrom e.eventHash es = true := by
  have he : (appendAuditEvent e.body p).eventHash = sha256 (message e.body p) := rfl
  rw [verifyFrom, he]
  split_ifs with h₁ h₂
  · simp [h₁]
  · simp [Ne.symm h₂]
  · simp only [ne_eq, not_not] at h₁ h₂
    simp [h₁, h₂]

theorem lastHash_cons (p : JsString) (e : ChainedAuditEvent) (es : List ChainedAuditEvent) :
    lastHash p (e :: es) = lastHash e.eventHash es := by
  cases es with
  | nil => rfl
  | cons d ds => simp [lastHash, List.getLast?_eq_some_getLast]

theorem verifyFrom_append (p : JsString) (es : List ChainedAuditEvent) (e : ChainedAuditEvent) :
    verifyFrom p (es ++ [e]) = true ↔ verifyFrom p es = true ∧
      e.previousEventHash = lastHash p es ∧
      e.eventHash = sha256 (message e.body (lastHash p es)) := by
  induction es generalizing p with
  | nil =>
    rw [List.nil_append, verifyFrom_cons]
    simp [verifyFrom, lastHash]
  | cons d ds ih =>
    rw [List.cons_append, verifyFrom_cons, verifyFrom_cons, lastHash_cons, ih]
    constructor
    · rintro ⟨h₁, h₂, h₃, h₄⟩
      exact ⟨⟨h₁, h₂, h₃⟩, h₄⟩
    · rintro ⟨⟨h₁, h₂, h₃⟩, h₄⟩
      exact ⟨h₁, h₂, h₃, h₄⟩

/-- The predecessors named along a chain are its own hashes, one behind. -/
theorem map_previous_of_verifyFrom {p : JsString} {es : List ChainedAuditEvent}
    (h : verifyFrom p es = true) : es.map ChainedAuditEvent.previousEventHash =
      (p :: es.map ChainedAuditEvent.eventHash).take es.length := by
  induction es generalizing p with
  | nil => rfl
  | cons e es ih =>
    rw [verifyFrom_cons] at h
    simp [h.1, ih h.2.2]

theorem hash_of_verifyFrom {p : JsString} {es : List ChainedAuditEvent}
    (h : verifyFrom p es = true) : ∀ e ∈ es, e.eventHash =
      sha256 (message e.body e.previousEventHash) := by
  induction es generalizing p with
  | nil => simp
  | cons d ds ih =>
    rw [verifyFrom_cons] at h
    intro e he
    rcases List.mem_cons.mp he with rfl | he
    · rw [h.1]
      exact h.2.1
    · exact ih h.2.2 e he

theorem isWellFormed_previous {p : JsString} {es : List ChainedAuditEvent}
    (h : verifyFrom p es = true) (hp : isWellFormed p = true) :
    ∀ e ∈ es, isWellFormed e.previousEventHash = true := by
  induction es generalizing p with
  | nil => simp
  | cons d ds ih =>
    rw [verifyFrom_cons] at h
    have hd : isWellFormed d.eventHash = true := by
      rw [h.2.1]
      exact isWellFormed_of_isSha256 (isSha256_sha256 _)
    intro e he
    rcases List.mem_cons.mp he with rfl | he
    · rw [h.1]
      exact hp
    · exact ih h.2.2 hd e he

theorem keys_members (b : AuditEventBody) : (b.members.map Prod.fst).Nodup := by
  simp only [AuditEventBody.members, List.map_cons, List.map_nil]
  decide

theorem isJson_value (b : AuditEventBody) (h : isJson b.metadata = true) :
    isJson b.value = true := by
  have hm : isJsonMembers b.members = true := by
    simp [AuditEventBody.members, isJsonMembers, isJson, h]
  simp only [AuditEventBody.value, isJson, hm, keys_members, decide_true, Bool.and_self]

/-- A hashed text tells the object and the hash after it: the object ends where its text says. -/
theorem canonicalValue_append_inj {ms ms' : List (JsString × JsValue)} {p p' : JsString}
    (hms : isJson (.object ms) = true) (hms' : isJson (.object ms') = true)
    (hp : isWellFormed p = true) (hp' : isWellFormed p' = true)
    (h : textEncode (canonicalValue (.object ms)) ++ textEncode p =
      textEncode (canonicalValue (.object ms')) ++ textEncode p') :
    sortKeys auditEncoder (.object ms) = sortKeys auditEncoder (.object ms') ∧ p = p' := by
  obtain ⟨t, ht, hr⟩ := encode_reads auditEncoder (.object ms) hms
  obtain ⟨t', ht', hr'⟩ := encode_reads auditEncoder (.object ms') hms'
  simp only [canonicalValue, ht, ht', Option.getD_some] at h
  rw [← textEncode_append _ _ hr.wellFormed, ← textEncode_append _ _ hr'.wellFormed] at h
  have htext : t ++ p = t' ++ p' :=
    textEncode_injective (isWellFormed_append _ _ hr.wellFormed hp)
      (isWellFormed_append _ _ hr'.wellFormed hp') h
  exact hr.self_delimiting hr' (by simp [sortKeys, IsNumber]) (by simp [sortKeys, IsNumber]) htext

/-- Equal messages come from events with one id. -/
theorem id_eq_of_message {b b' : AuditEventBody} {p p' : JsString}
    (hb : isJson b.metadata = true) (hb' : isJson b'.metadata = true)
    (hp : isWellFormed p = true) (hp' : isWellFormed p' = true)
    (h : message b p = message b' p') : b.id = b'.id := by
  have hv := (canonicalValue_append_inj (isJson_value b hb) (isJson_value b' hb') hp hp' h).1
  simp only [sortKeys, JsValue.object.injEq] at hv
  have hid : ((js "id", .string b.id) : JsString × JsValue) ∈
      sortByKey auditEncoder (sortKeysMembers auditEncoder b'.members) := by
    rw [← hv, (sortByKey_perm _ _).mem_iff]
    simp [AuditEventBody.members, sortKeysMembers, sortKeys]
  rw [(sortByKey_perm _ _).mem_iff] at hid
  have hkeys : js "id" ∉ [js "workspaceId", js "actorType", js "actorId", js "action",
      js "subjectKind", js "subjectId", js "timestamp", js "requestId", js "correlationId",
      js "metadata"] := by decide
  simp only [List.mem_cons, List.not_mem_nil, or_false, not_or] at hkeys
  simpa [AuditEventBody.members, sortKeysMembers, sortKeys, hkeys] using hid

/-- The messages hashed for the events of a chain. -/
def messages (es : List ChainedAuditEvent) : Set Bytes :=
  {m | ∃ e ∈ es, m = message e.body e.previousEventHash}

theorem collisionFree_messages {es : List ChainedAuditEvent}
    (h : (es.map fun e => sha256 (message e.body e.previousEventHash)).Nodup) :
    CollisionFree (messages es) := by
  rintro m ⟨e, he, rfl⟩ m' ⟨d, hd, rfl⟩ heq
  rw [List.inj_on_of_nodup_map h he hd heq]

theorem nodup_eventHash {es : List ChainedAuditEvent} (h : verifyAuditChain es = true)
    (hid : (es.map fun e => e.body.id).Nodup) (hjson : ∀ e ∈ es, isJson e.body.metadata = true)
    (hc : CollisionFree (messages es)) : (es.map ChainedAuditEvent.eventHash).Nodup := by
  have hhash := hash_of_verifyFrom h
  have hprev := isWellFormed_previous h rfl
  rw [List.nodup_map_iff_inj_on (List.Nodup.of_map _ hid)]
  intro e he d hd heq
  have hm : message e.body e.previousEventHash = message d.body d.previousEventHash := by
    apply hc ⟨e, he, rfl⟩ ⟨d, hd, rfl⟩
    rw [← hhash e he, ← hhash d hd, heq]
  have hids := id_eq_of_message (hjson e he) (hjson d hd) (hprev e he) (hprev d hd) hm
  exact List.inj_on_of_nodup_map hid he hd hids

/-- No two events of an accepted chain name the same predecessor. -/
theorem nodup_previousEventHash {es : List ChainedAuditEvent} (h : verifyAuditChain es = true)
    (hid : (es.map fun e => e.body.id).Nodup) (hjson : ∀ e ∈ es, isJson e.body.metadata = true)
    (hc : CollisionFree (messages es)) : (es.map ChainedAuditEvent.previousEventHash).Nodup := by
  rw [map_previous_of_verifyFrom h]
  apply List.Nodup.sublist (List.take_sublist _ _)
  rw [List.nodup_cons]
  refine ⟨?_, nodup_eventHash h hid hjson hc⟩
  intro hmem
  obtain ⟨e, he, hnil⟩ := List.mem_map.mp hmem
  rw [hash_of_verifyFrom h e he] at hnil
  exact sha256_ne_nil _ hnil

end TrustCore.AuditChain
