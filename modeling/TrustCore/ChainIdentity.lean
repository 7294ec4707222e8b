import TrustCore.AuditLog
import TrustCore.Dynamic

/-!
# What the last hash of a chain fixes

`verifyAuditChain` takes its events as JSON: apart from the two hashes, whatever members an event
has are its body. The canonical text of a body ends where its closing brace says, so what is hashed
tells the body and the hash before it, and by induction from the last event the whole chain. The
root cannot have a predecessor: it names the empty string, which is no digest.
-/

namespace TrustCore.ChainIdentity

open TrustCore.Utf TrustCore.Json TrustCore.Columns TrustCore.Sha256 TrustCore.Dynamic
open TrustCore.AuditChain TrustCore.AuditLog

/-! ## Events of any shape -/

def isBodyKey (key : JsString) : Bool := key != js "previousEventHash" && key != js "eventHash"

/-- The other members of `{ previousEventHash, eventHash, ...body }`. -/
def bodyMembers (event : JsonObject) : List (JsString × JsValue) :=
  event.members.filter fun m => isBodyKey m.1

/-- What `appendAuditEvent` hashes for a body and the hash before it. -/
def hashed (body : List (JsString × JsValue)) (previousEventHash : JsString) : Bytes :=
  textEncode (canonicalValue (.object body)) ++ textEncode previousEventHash

def verifyEventsFrom (previous : JsString) : List JsonObject → Bool
  | [] => true
  | event :: events =>
    if !strictEq (field event.members (js "previousEventHash")) (.string previous) then false
    else
      match field event.members (js "eventHash") with
      | .string eventHash =>
        if sha256 (hashed (bodyMembers event) previous) ≠ eventHash then false
        else verifyEventsFrom eventHash events
      | _ => false

/-- `verifyAuditChain` of events with arbitrary bodies. -/
def verifyEvents (events : List JsonObject) : Bool := verifyEventsFrom [] events

/-- The event as the JSON value that it is. -/
def eventMembers (e : ChainedAuditEvent) : List (JsString × JsValue) :=
  e.body.members ++
    [(js "previousEventHash", .string e.previousEventHash), (js "eventHash", .string e.eventHash)]

theorem keys_eventMembers (e : ChainedAuditEvent) : ((eventMembers e).map Prod.fst).Nodup := by
  simp only [eventMembers, AuditEventBody.members, List.map_append, List.map_cons, List.map_nil]
  decide

theorem field_eventMembers (e : ChainedAuditEvent) :
    field (eventMembers e) (js "previousEventHash") = .string e.previousEventHash ∧
      field (eventMembers e) (js "eventHash") = .string e.eventHash := by
  constructor
  · rw [field, lookup_of_mem (v := .string e.previousEventHash) (keys_eventMembers e)
      (by simp [eventMembers]), Option.getD_some]
  · rw [field, lookup_of_mem (v := .string e.eventHash) (keys_eventMembers e)
      (by simp [eventMembers]), Option.getD_some]

theorem bodyMembers_eventMembers {event : JsonObject} {e : ChainedAuditEvent}
    (h : event.members = eventMembers e) : bodyMembers event = e.body.members := by
  have hkeys : ∀ key ∈ e.body.members.map Prod.fst, isBodyKey key = true := by
    simp only [AuditEventBody.members, List.map_cons, List.map_nil]
    decide
  rw [bodyMembers, h, eventMembers, List.filter_append, List.filter_eq_self.mpr]
  · simp [isBodyKey]
  · exact fun m hm => hkeys m.1 (List.mem_map_of_mem hm)

/-- On the events that the services write it is the chain of `AuditChain`. -/
theorem verifyEventsFrom_eventMembers {events : List JsonObject} {es : List ChainedAuditEvent}
    (h : List.Forall₂ (fun event e => event.members = eventMembers e) events es)
    (previous : JsString) : verifyEventsFrom previous events = verifyFrom previous es := by
  induction h generalizing previous with
  | nil => rfl
  | @cons event e events es h _ ih =>
    obtain ⟨hprevious, hhash⟩ := field_eventMembers e
    have happend : (appendAuditEvent e.body previous).eventHash =
        sha256 (hashed e.body.members previous) := rfl
    rw [verifyEventsFrom, verifyFrom, h, hprevious, hhash, bodyMembers_eventMembers h, happend]
    simp only [ih, strictEq]
    by_cases hp : e.previousEventHash = previous <;> simp [hp]

/-! ## Equal as JSON -/

/-- The same value, but for the order of the keys of its objects. -/
def SameJson (v w : JsValue) : Prop := sortKeys auditEncoder v = sortKeys auditEncoder w

def SameEvent (a b : JsonObject) : Prop := SameJson a.value b.value

theorem sameJson_of_perm {ms ns : List (JsString × JsValue)} (hkeys : (ms.map Prod.fst).Nodup)
    (hp : (sortKeysMembers auditEncoder ms).Perm (sortKeysMembers auditEncoder ns)) :
    SameJson (.object ms) (.object ns) := by
  rw [SameJson, sortKeys, sortKeys]
  congr 1
  apply sortByKey_eq_of_perm (keyOrder_units _ _) hp
  rw [keys_sortKeysMembers]
  exact hkeys

/-- A member that is there, and the others. -/
theorem perm_cons_filter {ms : List (JsString × JsValue)} {key : JsString} {value : JsValue}
    (hkeys : (ms.map Prod.fst).Nodup) (h : (key, value) ∈ ms) :
    ms.Perm ((key, value) :: ms.filter fun m => m.1 != key) := by
  have hsame : ∀ m ∈ ms, (m.1 == key) = true → m = (key, value) := fun m hm hkey =>
    List.inj_on_of_nodup_map hkeys hm h (beq_iff_eq.mp hkey)
  have hone : ms.filter (fun m => m.1 == key) = [(key, value)] := by
    apply List.perm_singleton.mp
    rw [List.perm_ext_iff_of_nodup ((List.Nodup.of_map _ hkeys).filter _) (List.nodup_singleton _)]
    intro m
    rw [List.mem_filter, List.mem_singleton]
    constructor
    · rintro ⟨hm, hkey⟩
      exact hsame m hm hkey
    · rintro rfl
      exact ⟨h, beq_self_eq_true key⟩
  have hsplit := (List.filter_append_perm (fun m : JsString × JsValue => m.1 == key) ms).symm
  rw [hone, List.singleton_append] at hsplit
  exact hsplit

/-! ## Accepted chains -/

def hashOf (event : JsonObject) (previous : JsString) : JsString :=
  sha256 (hashed (bodyMembers event) previous)

/-- What an accepted event has in it. -/
structure Links (event : JsonObject) (previous : JsString) : Prop where
  named : (js "previousEventHash", .string previous) ∈ event.members
  hash : (js "eventHash", .string (hashOf event previous)) ∈ event.members

/-- The hash that the next event of a chain has to name. -/
def endHash (events : List JsonObject) : JsString := events.foldl (fun p event => hashOf event p) []

theorem keys_nodup (event : JsonObject) : (event.members.map Prod.fst).Nodup := by
  have hjson := event.json
  simp only [isJson, Bool.and_eq_true, decide_eq_true_eq] at hjson
  exact hjson.2

theorem field_eq_string_iff {event : JsonObject} {key value : JsString} :
    field event.members key = .string value ↔ (key, .string value) ∈ event.members := by
  constructor
  · intro h
    cases hfound : event.members.lookup key with
    | none => simp [field, hfound] at h
    | some found =>
      rw [field, hfound, Option.getD_some] at h
      subst h
      exact mem_of_lookup hfound
  · intro h
    rw [field, lookup_of_mem (keys_nodup event) h, Option.getD_some]

theorem verifyEventsFrom_cons {previous : JsString} {event : JsonObject}
    {events : List JsonObject} : verifyEventsFrom previous (event :: events) = true ↔
      Links event previous ∧ verifyEventsFrom (hashOf event previous) events = true := by
  rw [verifyEventsFrom]
  constructor
  · intro h
    split at h
    · cases h
    rename_i hprevious
    split at h
    · rename_i eventHash hhash
      split at h
      · cases h
      rename_i hsame
      rw [ne_eq, not_not] at hsame
      subst hsame
      refine ⟨⟨field_eq_string_iff.mp ?_, field_eq_string_iff.mp hhash⟩, h⟩
      cases hfield : field event.members (js "previousEventHash") with
      | string p => simpa [hfield, strictEq] using hprevious
      | _ => simp [hfield, strictEq] at hprevious
    · cases h
  · rintro ⟨⟨hprevious, hhash⟩, h⟩
    rw [← field_eq_string_iff] at hprevious hhash
    have hsame : sha256 (hashed (bodyMembers event) previous) = hashOf event previous := rfl
    simpa [hprevious, hhash, strictEq, hsame] using h

theorem verifyEventsFrom_concat {previous : JsString} {events : List JsonObject}
    {event : JsonObject} : verifyEventsFrom previous (events ++ [event]) = true ↔
      verifyEventsFrom previous events = true ∧
        Links event (events.foldl (fun p event => hashOf event p) previous) := by
  induction events generalizing previous with
  | nil =>
    rw [List.nil_append, verifyEventsFrom_cons]
    simp [verifyEventsFrom]
  | cons first events ih =>
    rw [List.cons_append, verifyEventsFrom_cons, verifyEventsFrom_cons, ih, List.foldl_cons,
      and_assoc]

theorem isWellFormed_endHash (events : List JsonObject) : isWellFormed (endHash events) = true := by
  induction events using List.reverseRecOn with
  | nil => rfl
  | append_singleton events event _ =>
    rw [endHash, List.foldl_concat]
    exact isWellFormed_of_isSha256 (isSha256_sha256 _)

/-- The predecessor that an event names. -/
def predecessor (event : JsonObject) : JsString :=
  (asString (field event.members (js "previousEventHash"))).getD []

theorem Links.predecessor_eq {event : JsonObject} {previous : JsString} (h : Links event previous) :
    predecessor event = previous := by
  rw [ChainIdentity.predecessor, field_eq_string_iff.mpr h.named]
  rfl

/-- What is hashed for the events of a chain. -/
def messages (events : List JsonObject) : Set Bytes :=
  {m | ∃ event ∈ events, m = hashed (bodyMembers event) (predecessor event)}

theorem isJson_bodyMembers (event : JsonObject) : isJson (.object (bodyMembers event)) = true := by
  have hjson := event.json
  simp only [isJson, Bool.and_eq_true, decide_eq_true_eq, isJsonMembers_iff] at hjson ⊢
  constructor
  · intro m hm
    exact hjson.1 m (List.mem_of_mem_filter hm)
  · exact hjson.2.sublist (List.Sublist.map _ List.filter_sublist)

/-- The two hashes and the body are all there is in an event. -/
theorem Links.perm {event : JsonObject} {previous : JsString} (h : Links event previous) :
    event.members.Perm ((js "previousEventHash", .string previous) ::
      (js "eventHash", .string (hashOf event previous)) :: bodyMembers event) := by
  have hfirst := perm_cons_filter (keys_nodup event) h.named
  have hrest : (js "eventHash", JsValue.string (hashOf event previous)) ∈
      event.members.filter fun m => m.1 != js "previousEventHash" :=
    List.mem_filter.mpr ⟨h.hash, bne_iff_ne.mpr (show js "eventHash" ≠ js "previousEventHash" by decide)⟩
  have hsecond := perm_cons_filter
    ((keys_nodup event).sublist (List.Sublist.map _ List.filter_sublist)) hrest
  rw [List.filter_filter] at hsecond
  refine hfirst.trans ((hsecond.trans ?_).cons _)
  refine List.Perm.cons _ (List.Perm.of_eq (List.filter_congr fun m _ => ?_))
  rw [isBodyKey, Bool.and_comm]

/-- Two accepted events with one hash are the same event, after the same one. -/
theorem Links.same {a b : JsonObject} {p q : JsString} (ha : Links a p) (hb : Links b q)
    (hp : isWellFormed p = true) (hq : isWellFormed q = true)
    (h : hashed (bodyMembers a) p = hashed (bodyMembers b) q) : SameEvent a b ∧ p = q := by
  obtain ⟨hbody, rfl⟩ := canonicalValue_append_inj (isJson_bodyMembers a) (isJson_bodyMembers b)
    hp hq h
  refine ⟨?_, rfl⟩
  apply sameJson_of_perm (keys_nodup a)
  have hhash : hashOf a p = hashOf b p := by rw [hashOf, hashOf, h]
  have hmembers : (sortKeysMembers auditEncoder (bodyMembers a)).Perm
      (sortKeysMembers auditEncoder (bodyMembers b)) := by
    simp only [sortKeys, JsValue.object.injEq] at hbody
    exact (sortByKey_perm auditEncoder _).symm.trans (hbody ▸ sortByKey_perm auditEncoder _)
  rw [sortKeysMembers_eq_map, sortKeysMembers_eq_map] at hmembers ⊢
  refine (ha.perm.map _).trans (List.Perm.trans ?_ (hb.perm.map _).symm)
  rw [hhash]
  simpa only [List.map_cons] using (hmembers.cons _).cons _

/-- Two accepted chains that end in one hash are the same, event by event. -/
theorem forall₂_of_endHash {as bs : List JsonObject} (ha : verifyEvents as = true)
    (hb : verifyEvents bs = true) (hend : endHash as = endHash bs)
    (hc : CollisionFree (messages as ∪ messages bs)) : List.Forall₂ SameEvent as bs := by
  induction as using List.reverseRecOn generalizing bs with
  | nil =>
    induction bs using List.reverseRecOn with
    | nil => exact .nil
    | append_singleton bs b _ =>
      rw [endHash, endHash, List.foldl_concat] at hend
      exact absurd hend.symm (sha256_ne_nil _)
  | append_singleton as a ih =>
    induction bs using List.reverseRecOn with
    | nil =>
      rw [endHash, endHash, List.foldl_concat] at hend
      exact absurd hend (sha256_ne_nil _)
    | append_singleton bs b _ =>
      obtain ⟨ha', hlinkA⟩ := verifyEventsFrom_concat.mp ha
      obtain ⟨hb', hlinkB⟩ := verifyEventsFrom_concat.mp hb
      rw [endHash, endHash, List.foldl_concat, List.foldl_concat] at hend
      have hmessage : hashed (bodyMembers a) (endHash as) = hashed (bodyMembers b) (endHash bs) := by
        refine hc (Or.inl ⟨a, by simp, ?_⟩) (Or.inr ⟨b, by simp, ?_⟩) hend
        · rw [hlinkA.predecessor_eq]
          rfl
        · rw [hlinkB.predecessor_eq]
          rfl
      obtain ⟨hsame, hprevious⟩ := hlinkA.same hlinkB (isWellFormed_endHash as)
        (isWellFormed_endHash bs) hmessage
      have hsub : messages as ∪ messages bs ⊆ messages (as ++ [a]) ∪ messages (bs ++ [b]) := by
        rintro m (⟨event, hmem, hm⟩ | ⟨event, hmem, hm⟩)
        · exact Or.inl ⟨event, List.mem_append_left _ hmem, hm⟩
        · exact Or.inr ⟨event, List.mem_append_left _ hmem, hm⟩
      have hrest := ih ha' hb' hprevious (Set.InjOn.mono hsub hc)
      exact List.rel_append hrest (.cons hsame .nil)

/-- What the last event of a chain has recorded is the hash of the whole chain. -/
theorem endHash_of_getLast? {events : List JsonObject} {last : JsonObject}
    (h : verifyEvents events = true) (hlast : events.getLast? = some last) :
    field last.members (js "eventHash") = .string (endHash events) := by
  obtain ⟨rest, rfl⟩ := List.getLast?_eq_some_iff.mp hlast
  obtain ⟨-, hlink⟩ := verifyEventsFrom_concat.mp h
  rw [field_eq_string_iff, endHash, List.foldl_concat]
  exact hlink.hash

/-- Two chains that `verifyAuditChain` accepts and whose last events have the same hash are equal
event by event, and so of one length. -/
theorem chains_equal {as bs : List JsonObject} {lastA lastB : JsonObject}
    (ha : verifyEvents as = true) (hb : verifyEvents bs = true)
    (hlastA : as.getLast? = some lastA) (hlastB : bs.getLast? = some lastB)
    (hlast : field lastA.members (js "eventHash") = field lastB.members (js "eventHash"))
    (hc : CollisionFree (messages as ∪ messages bs)) :
    List.Forall₂ SameEvent as bs ∧ as.length = bs.length := by
  rw [endHash_of_getLast? ha hlastA, endHash_of_getLast? hb hlastB, JsValue.string.injEq] at hlast
  have hsame := forall₂_of_endHash ha hb hlast hc
  exact ⟨hsame, hsame.length_eq⟩

/-- An event with a body of its own shape, chained to the one before it. -/
def sampleEvent (body : List (JsString × JsValue)) (previous : JsString) :
    List (JsString × JsValue) :=
  body ++ [(js "previousEventHash", .string previous),
    (js "eventHash", .string (sha256 (hashed body previous)))]

theorem isJson_sampleEvent {body : List (JsString × JsValue)} {previous : JsString}
    (hbody : isJsonMembers body = true)
    (hkeys : (body.map Prod.fst ++ [js "previousEventHash", js "eventHash"]).Nodup) :
    isJson (.object (sampleEvent body previous)) = true := by
  rw [isJsonMembers_iff] at hbody
  simp only [isJson, Bool.and_eq_true, decide_eq_true_eq, isJsonMembers_iff, sampleEvent,
    List.map_append]
  refine ⟨fun m hm => ?_, hkeys⟩
  rcases List.mem_append.mp hm with hm | hm
  · exact hbody m hm
  · simp only [List.mem_cons, List.not_mem_nil, or_false] at hm
    rcases hm with rfl | rfl <;> rfl

def firstBody : List (JsString × JsValue) :=
  [(js "id", .string (js "e1")), (js "metadata", .object [(js "a", .null), (js "b", .bool true)])]

def secondBody : List (JsString × JsValue) :=
  [(js "id", .string (js "e2")), (js "metadata", .object [])]

/-- The same bodies with their keys in another order. -/
def firstReordered : List (JsString × JsValue) :=
  [(js "metadata", .object [(js "b", .bool true), (js "a", .null)]), (js "id", .string (js "e1"))]

def secondReordered : List (JsString × JsValue) :=
  [(js "metadata", .object []), (js "id", .string (js "e2"))]

def firstHash : JsString := sha256 (hashed firstBody [])

def sampleChain : List JsonObject :=
  [⟨sampleEvent firstBody [], isJson_sampleEvent (by decide) (by decide)⟩,
    ⟨sampleEvent secondBody firstHash, isJson_sampleEvent (by decide) (by decide)⟩]

def reorderedChain : List JsonObject :=
  [⟨sampleEvent firstReordered [], isJson_sampleEvent (by decide) (by decide)⟩,
    ⟨sampleEvent secondReordered firstHash, isJson_sampleEvent (by decide) (by decide)⟩]

theorem hashed_reordered (previous : JsString) :
    hashed firstReordered previous = hashed firstBody previous ∧
      hashed secondReordered previous = hashed secondBody previous := by
  have hfirst : canonicalValue (.object firstReordered) = canonicalValue (.object firstBody) := by
    decide +kernel
  have hsecond : canonicalValue (.object secondReordered) = canonicalValue (.object secondBody) := by
    decide +kernel
  rw [hashed, hashed, hashed, hashed, hfirst, hsecond]
  exact ⟨rfl, rfl⟩

theorem messages_samples {m : Bytes} (h : m ∈ messages sampleChain ∪ messages reorderedChain) :
    m = hashed firstBody [] ∨ m = hashed secondBody firstHash := by
  rcases h with ⟨event, hmem, rfl⟩ | ⟨event, hmem, rfl⟩
  · rcases List.mem_pair.mp hmem with rfl | rfl
    · exact Or.inl rfl
    · exact Or.inr rfl
  · rcases List.mem_pair.mp hmem with rfl | rfl
    · exact Or.inl (hashed_reordered []).1
    · exact Or.inr (hashed_reordered firstHash).2

theorem chains_equal_reordered :
    List.Forall₂ SameEvent sampleChain reorderedChain ∧
      sampleChain.length = reorderedChain.length := by
  have hlast : field (sampleEvent secondBody firstHash) (js "eventHash") =
      field (sampleEvent secondReordered firstHash) (js "eventHash") := by
    have hsecond : field (sampleEvent secondBody firstHash) (js "eventHash") =
        .string (sha256 (hashed secondBody firstHash)) := rfl
    have hreordered : field (sampleEvent secondReordered firstHash) (js "eventHash") =
        .string (sha256 (hashed secondReordered firstHash)) := rfl
    rw [hsecond, hreordered, (hashed_reordered firstHash).2]
  refine chains_equal (by decide +kernel) (by decide +kernel) rfl rfl hlast ?_
  have hdistinct : sha256 (hashed firstBody []) ≠ sha256 (hashed secondBody firstHash) := by
    decide +kernel
  intro m hm m' hm' hsame
  rcases messages_samples hm with rfl | rfl
  · rcases messages_samples hm' with rfl | rfl
    · rfl
    · exact absurd hsame hdistinct
  · rcases messages_samples hm' with rfl | rfl
    · exact absurd hsame.symm hdistinct
    · rfl

end TrustCore.ChainIdentity
