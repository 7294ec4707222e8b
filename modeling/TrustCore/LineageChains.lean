import TrustCore.ArchiveLineage

/-!
# What the lineage check accepts

`validateAuditLineage` looks at roots, tails, references, branches and coverage apart.
Together they leave exactly the lists of events that are one chain in some order.
-/

namespace TrustCore.ArchiveAssemble

open TrustCore.Utf TrustCore.Json TrustCore.Dynamic TrustCore.Sha256 TrustCore.ArchiveFormat
open TrustCore.ImportPlan TrustCore.ArchiveVerify TrustCore.HashChains

section Walk

/-- The loop from `current` on, which has `visited` behind it, ends with these hashes. -/
inductive Ends (byHash : List (JsString × JsValue)) :
    List JsString → JsString → List JsString → Prop where
  | empty {visited : List JsString} : Ends byHash visited [] visited
  | seen {visited : List JsString} {current : JsString} (hseen : visited.contains current = true) :
      Ends byHash visited current visited
  | root {visited : List JsString} {current : JsString} (hnew : visited.contains current = false)
      (hne : current ≠ []) (hroot : (byHash.reverse.lookup current).bind nonEmptyString = none) :
      Ends byHash visited current (visited ++ [current])
  | step {visited : List JsString} {current previous : JsString} {result : List JsString}
      (hnew : visited.contains current = false) (hne : current ≠ [])
      (hprevious : (byHash.reverse.lookup current).bind nonEmptyString = some previous)
      (hrest : Ends byHash (visited ++ [current]) previous result) : Ends byHash visited current result

variable {byHash : List (JsString × JsValue)}

theorem key_of_previous {current previous : JsString}
    (h : (byHash.reverse.lookup current).bind nonEmptyString = some previous) :
    current ∈ byHash.map Prod.fst := by
  obtain ⟨v, hv, -⟩ := Option.bind_eq_some_iff.mp h
  exact List.mem_map.mpr ⟨(current, v), List.mem_reverse.mp (mem_of_lookup hv), rfl⟩

theorem nodup_visit {visited : List JsString} {current : JsString} (hn : visited.Nodup)
    (hnew : visited.contains current = false) : (visited ++ [current]).Nodup := by
  have hfresh : current ∉ visited := by simpa using hnew
  exact List.nodup_append_comm.mp (List.nodup_cons.mpr ⟨hfresh, hn⟩)

/-- Every hash behind the walk is a key of its own, so the walk ends before they run out. -/
theorem ends_visitChain {fuel : Nat} {visited : List JsString} {current : JsString}
    (hn : visited.Nodup) (hkeys : visited ⊆ byHash.map Prod.fst)
    (hfuel : byHash.length < visited.length + fuel) :
    Ends byHash visited current (visitChain byHash fuel visited current) := by
  induction fuel generalizing visited current with
  | zero =>
    have hcount := (List.subperm_of_subset hn hkeys).length_le
    rw [List.length_map] at hcount
    omega
  | succ fuel ih =>
    rw [visitChain]
    split
    · rename_i hstop
      rcases Bool.or_eq_true_iff.mp hstop with hempty | hseen
      · rw [List.isEmpty_iff.mp hempty]
        exact .empty
      · exact .seen hseen
    · rename_i hgo
      obtain ⟨hne, hnew⟩ := Bool.or_eq_false_iff.mp (Bool.eq_false_iff.mpr hgo)
      rw [List.isEmpty_eq_false_iff] at hne
      split
      · rename_i previous hprevious
        refine .step hnew hne hprevious (ih (nodup_visit hn hnew) ?_ ?_)
        · intro x hx
          rcases List.mem_append.mp hx with hx | hx
          · exact hkeys hx
          · rw [List.mem_singleton.mp hx]
            exact key_of_previous hprevious
        · rw [List.length_append, List.length_singleton]
          omega
      · exact .root hnew hne ‹_›

/-- What the walk has behind it: distinct hashes, each with a link to the next. -/
structure Visits (byHash : List (JsString × JsValue)) (hashes visited : List JsString) : Prop where
  nodup : visited.Nodup
  known : visited ⊆ hashes
  linked : visited.IsChain fun a b => (byHash.reverse.lookup a).bind nonEmptyString = some b

theorem Ends.visits {hashes visited result : List JsString} {current : JsString}
    (h : Ends byHash visited current result)
    (hclosed : ∀ a b, (byHash.reverse.lookup a).bind nonEmptyString = some b → b ∈ hashes)
    (hv : Visits byHash hashes visited) (hcurrent : current ∈ hashes)
    (hlink : ∀ a ∈ visited.getLast?,
      (byHash.reverse.lookup a).bind nonEmptyString = some current) :
    Visits byHash hashes result := by
  have hgo : ∀ {visited current}, Visits byHash hashes visited → current ∈ hashes →
      visited.contains current = false →
      (∀ a ∈ visited.getLast?, (byHash.reverse.lookup a).bind nonEmptyString = some current) →
        Visits byHash hashes (visited ++ [current]) := by
    intro visited current hv hcurrent hnew hlink
    constructor
    · exact nodup_visit hv.nodup hnew
    · exact List.append_subset.mpr ⟨hv.known, by simpa using hcurrent⟩
    · exact List.isChain_append.mpr ⟨hv.linked, List.isChain_singleton _, by simpa using hlink⟩
  induction h with
  | empty => exact hv
  | seen => exact hv
  | root hnew _ _ => exact hgo hv hcurrent hnew hlink
  | step hnew _ hprevious _ ih =>
    exact ih (hgo hv hcurrent hnew hlink) (hclosed _ _ hprevious) (by simpa using hprevious)

/-- The walk begins where it starts. -/
theorem Ends.prefix {visited result : List JsString} {current : JsString}
    (h : Ends byHash visited current result) :
    result = visited ∨ (visited ++ [current]) <+: result := by
  induction h with
  | empty => exact Or.inl rfl
  | seen => exact Or.inl rfl
  | root => exact Or.inr List.prefix_rfl
  | step _ _ _ _ ih =>
    rcases ih with heq | hprefix
    · exact Or.inr (heq ▸ List.prefix_rfl)
    · exact Or.inr ((List.prefix_append _ _).trans hprefix)

end Walk

section Accepted

variable {lineage : JsValue} {pairs : List EventPair}

/-- The link of an event: its hash and the hash it names before it. -/
def namedLink (p : EventPair) : JsString × Option JsString :=
  ((asString p.1).getD [], nonEmptyString p.2)

/-- What the separate checks say together. -/
structure Accepted (lineage : JsValue) (pairs : List EventPair) (root : EventPair)
    (tail : JsString) : Prop where
  valid : ∀ p ∈ pairs, isSha256 ((asString p.1).getD []) = true
  nodup : (pairs.map fun p => (asString p.1).getD []).Nodup
  roots : (pairs.filter fun p => isRoot p.2) = [root]
  references : ∀ p ∈ pairs, ∀ h, nonEmptyString p.2 = some h →
    h ∈ pairs.map fun p => (asString p.1).getD []
  tail_mem : tail ∈ pairs.map fun p => (asString p.1).getD []
  first : ∃ v, property lineage (js "firstEventHash") = some v ∧ strictEq v root.1 = true
  last : ∃ v, property lineage (js "lastEventHash") = some v ∧ strictEq v (.string tail) = true
  covered : (visitChain ((pairs.map fun p => (asString p.1).getD []).zip (pairs.map Prod.snd))
    (pairs.length + 2) [] tail).length = pairs.length

theorem nonEmptyString_of_isRoot {v : JsValue} (h : isRoot v = true) : nonEmptyString v = none := by
  cases v with
  | string s =>
    cases s with
    | nil => rfl
    | cons u s => cases h
  | _ => rfl

theorem string_of_sha256 {v : JsValue} (h : isSha256 ((asString v).getD []) = true) :
    ∃ s, v = .string s ∧ isSha256 s = true := by
  cases v with
  | string s => exact ⟨s, rfl, h⟩
  | _ => cases h

theorem nodup_of_dedup_length {α : Type} [DecidableEq α] {l : List α}
    (h : l.dedup.length = l.length) : l.Nodup :=
  List.dedup_eq_self.mp ((List.dedup_sublist l).eq_of_length h)

theorem accepted_of_chainIssues
    (h : chainIssues lineage (pairs.map Prod.fst) (pairs.map Prod.snd) = some []) :
    ∃ root tail, Accepted lineage pairs root tail := by
  have hzip : (pairs.map Prod.fst).zip (pairs.map Prod.snd) = pairs :=
    (List.zip_of_prod rfl rfl).symm
  have hhashes : ((pairs.map Prod.fst).map fun v => (asString v).getD []) =
      pairs.map fun p => (asString p.1).getD [] := List.map_map
  rw [chainIssues] at h
  simp only [hzip, hhashes] at h
  obtain ⟨first, hfirst, h⟩ := Option.bind_eq_some_iff.mp h
  obtain ⟨last, hlast, h⟩ := Option.bind_eq_some_iff.mp h
  generalize htails : ((pairs.map fun p => (asString p.1).getD []).filter fun hash =>
    !((pairs.map Prod.snd).filterMap nonEmptyString).contains hash) = tails at h
  have hone : ∃ tail, tails = [tail] := by
    rcases tails with _ | ⟨tail, _ | ⟨other, rest⟩⟩
    · simp at h
    · exact ⟨tail, rfl⟩
    · simp at h
  obtain ⟨tail, rfl⟩ := hone
  obtain ⟨byHash, hindex, h⟩ := Option.bind_eq_some_iff.mp h
  simp only [Option.bind_eq_bind, Option.pure_def, Option.bind_some, Option.some.injEq,
    List.append_eq_nil_iff, ite_eq_right_iff, reduceCtorEq, imp_false, Bool.not_eq_true,
    Bool.or_eq_false_iff, bne_eq_false_iff_eq] at h
  obtain ⟨⟨⟨⟨hinvalid, hdedup⟩, ⟨⟨hroots, -⟩, hfirstEq⟩, hlastEq⟩, hunknown, -⟩, hcovered⟩ := h
  obtain ⟨root, hroot⟩ := List.length_eq_one_iff.mp hroots
  have hvalid : ∀ p ∈ pairs, isSha256 ((asString p.1).getD []) = true := by
    intro p hp
    simpa using List.any_eq_false.mp hinvalid _ (List.mem_map_of_mem hp)
  have htail : tail ∈ pairs.map fun p => (asString p.1).getD [] := by
    have hmem : tail ∈ [tail] := List.mem_singleton_self tail
    rw [← htails] at hmem
    exact (List.mem_filter.mp hmem).1
  have hbyHash : byHash =
      (pairs.map fun p => (asString p.1).getD []).zip (pairs.map Prod.snd) := by
    have htexts : (pairs.map Prod.fst).mapM toText =
        some (pairs.map fun p => (asString p.1).getD []) := by
      rw [List.mapM_map]
      refine mapM_of_forall fun p hp => ?_
      obtain ⟨s, hs, -⟩ := string_of_sha256 (hvalid p hp)
      rw [Function.comp_apply, hs]
      rfl
    rw [hashIndex, htexts] at hindex
    exact (Option.some.inj hindex).symm
  refine ⟨root, tail, hvalid, nodup_of_dedup_length hdedup, hroot, ?_, htail, ?_, ?_, ?_⟩
  · intro p hp h hh
    have hreference := List.any_eq_false.mp hunknown h
      (List.mem_filterMap.mpr ⟨p.2, List.mem_map_of_mem hp, hh⟩)
    simpa using hreference
  · exact ⟨first, hfirst, by simpa [hroot] using hfirstEq⟩
  · exact ⟨last, hlast, by simpa using hlastEq⟩
  · rw [← hbyHash]
    simpa using hcovered

/-- The walk from the tail of accepted pairs goes through one chain. -/
theorem Accepted.chain {root : EventPair} {tail : JsString} (h : Accepted lineage pairs root tail) :
    ∃ hashes, (pairs.map namedLink).Perm (chainLinks none hashes) ∧
      hashes.head? = some ((asString root.1).getD []) ∧ hashes.getLast? = some tail := by
  have hzip : (pairs.map fun p => (asString p.1).getD []).zip (pairs.map Prod.snd) =
      pairs.map fun p => ((asString p.1).getD [], p.2) := by
    rw [List.zip_map']
  have hcovered := h.covered
  have hlinks : (pairs.map namedLink).map Prod.fst =
      pairs.map fun p => (asString p.1).getD [] := List.map_map
  rw [hzip] at hcovered
  have hends := @ends_visitChain (pairs.map fun p => ((asString p.1).getD [], p.2))
    (pairs.length + 2) [] tail List.nodup_nil (List.nil_subset _)
    (by rw [List.length_map, List.length_nil]; omega)
  generalize visitChain (pairs.map fun p => ((asString p.1).getD [], p.2)) (pairs.length + 2) []
    tail = result at hends hcovered
  have hstep : ∀ a b, ((pairs.map fun p => ((asString p.1).getD [], p.2)).reverse.lookup a).bind
      nonEmptyString = some b → (a, some b) ∈ pairs.map namedLink ∧
        b ∈ pairs.map fun p => (asString p.1).getD [] := by
    intro a b hab
    obtain ⟨v, hv, hb⟩ := Option.bind_eq_some_iff.mp hab
    obtain ⟨p, hp, heq⟩ := List.mem_map.mp (List.mem_reverse.mp (mem_of_lookup hv))
    cases heq
    exact ⟨List.mem_map.mpr ⟨p, hp, by rw [namedLink, hb]⟩, h.references p hp b hb⟩
  have hvisits := hends.visits (fun a b hab => (hstep a b hab).2)
    ⟨List.nodup_nil, List.nil_subset _, List.isChain_nil⟩ h.tail_mem (by simp)
  have hroot : ((asString root.1).getD [], none) ∈ pairs.map namedLink := by
    have hmem := List.mem_singleton_self root
    rw [← h.roots, List.mem_filter] at hmem
    exact List.mem_map.mpr ⟨root, hmem.1, by rw [namedLink, nonEmptyString_of_isRoot hmem.2]⟩
  obtain ⟨hperm, hhead⟩ := perm_chainLinks (hlinks ▸ h.nodup) hroot hvisits.nodup
    (hlinks ▸ hvisits.known) (by rw [hcovered, List.length_map])
    (hvisits.linked.imp fun a b hab => (hstep a b hab).1)
  refine ⟨result.reverse, hperm, hhead, ?_⟩
  rw [List.getLast?_reverse]
  rcases hends.prefix with hnil | ⟨rest, hrest⟩
  · rw [hnil] at hhead
    cases hhead
  · rw [← hrest]
    rfl

end Accepted

section Events

/-- `null`, absent or empty. -/
def NoHash (v : JsValue) : Prop := v = .null ∨ v = .undefined ∨ v = .string []

theorem isRoot_iff {v : JsValue} : isRoot v = true ↔ NoHash v := by
  cases v <;> simp [isRoot, isNullish, strictEq, NoHash]

/-- The events follow one another from one that has no hash before it. -/
structure Chain (chain : List ArchiveRecord) : Prop where
  hash : ∀ event ∈ chain, ∃ hash, eventHash event = .string hash ∧ isSha256 hash = true
  distinct : (chain.map eventHash).Nodup
  root : ∀ first ∈ chain.head?, NoHash (previousEventHash first)
  linked : chain.IsChain fun a b => previousEventHash b = eventHash a

/-- What the lineage says of the events: how many they are, and where their chain begins and ends. -/
structure Describes (lineage : JsValue) (events : List ArchiveRecord) : Prop where
  count : ∃ count, property lineage (js "eventCount") = some count ∧
    strictEq count (numberOf events.length) = true
  bounds : (events = [] ∧ property lineage (js "firstEventHash") = some .null ∧
      property lineage (js "lastEventHash") = some .null) ∨
    ∃ chain, chain.Perm events ∧ Chain chain ∧
      ∃ first ∈ chain.head?, ∃ last ∈ chain.getLast?,
        property lineage (js "firstEventHash") = some (eventHash first) ∧
          property lineage (js "lastEventHash") = some (eventHash last)

theorem eq_null_of_strictEq {v : JsValue} (h : strictEq v .null = true) : v = .null := by
  cases v <;> simp_all [strictEq]

theorem string_of_nonEmptyString {v : JsValue} {s : JsString} (h : nonEmptyString v = some s) :
    v = .string s := by
  cases v with
  | string t =>
    cases t with
    | nil => cases h
    | cons u t => exact congrArg JsValue.string (Option.some.inj h)
  | _ => cases h

theorem isChain_of_links {previous : Option JsString} {chain : List ArchiveRecord}
    {hashes : List JsString} (hhash : ∀ event ∈ chain, ∃ hash, eventHash event = .string hash)
    (hlinks : chain.map (fun event => namedLink (pairOf event)) = chainLinks previous hashes) :
    chain.IsChain fun a b => previousEventHash b = eventHash a := by
  induction chain generalizing previous hashes with
  | nil => exact List.isChain_nil
  | cons a chain ih =>
    cases hashes with
    | nil => cases hlinks
    | cons h hashes =>
      obtain ⟨ha, hrest⟩ := List.cons.inj hlinks
      have hchain := ih (fun event he => hhash event (List.mem_cons_of_mem _ he)) hrest
      cases chain with
      | nil => exact List.isChain_singleton a
      | cons b chain =>
        cases hashes with
        | nil => cases hrest
        | cons h' hashes =>
          obtain ⟨hash, hhash⟩ := hhash a List.mem_cons_self
          have hb : nonEmptyString (previousEventHash b) = some h :=
            congrArg Prod.snd (List.cons.inj hrest).1
          have heq : (asString (eventHash a)).getD [] = h := congrArg Prod.fst ha
          rw [hhash] at heq
          refine List.isChain_cons_cons.mpr ⟨?_, hchain⟩
          rw [string_of_nonEmptyString hb, hhash, ← heq]
          rfl

/-- Accepted links are those of one chain of the events. -/
theorem Accepted.events {lineage : JsValue} {events : List ArchiveRecord} {root : EventPair}
    {tail : JsString} (h : Accepted lineage (events.map pairOf) root tail) :
    ∃ chain, chain.Perm events ∧ Chain chain ∧
      ∃ first ∈ chain.head?, ∃ last ∈ chain.getLast?,
        property lineage (js "firstEventHash") = some (eventHash first) ∧
          property lineage (js "lastEventHash") = some (eventHash last) := by
  obtain ⟨hashes, hperm, hhead, hlast⟩ := h.chain
  rw [List.map_map] at hperm
  obtain ⟨chain, hevents, hchain⟩ := exists_perm_of_map hperm.symm
  have hhash : ∀ event ∈ chain, ∃ hash, eventHash event = .string hash ∧ isSha256 hash = true :=
    fun event he => string_of_sha256
      (h.valid _ (List.mem_map_of_mem (hevents.mem_iff.mp he)))
  have hhashes : chain.map (fun event => (asString (eventHash event)).getD []) = hashes := by
    rw [← map_fst_chainLinks none hashes, ← hchain, List.map_map]
    rfl
  have hdistinct : (chain.map fun event => (asString (eventHash event)).getD []).Nodup := by
    have hn := h.nodup
    rw [List.map_map] at hn
    exact (hevents.map _).nodup_iff.mpr hn
  have hends : ∀ event ∈ chain, ∀ hash, (asString (eventHash event)).getD [] = hash →
      eventHash event = .string hash := by
    rintro event he hash rfl
    obtain ⟨s, hs, -⟩ := hhash event he
    rw [hs]
    rfl
  rw [← hhashes, List.head?_map, Option.map_eq_some_iff] at hhead
  rw [← hhashes, List.getLast?_map, Option.map_eq_some_iff] at hlast
  obtain ⟨first, hfirst, hroot⟩ := hhead
  obtain ⟨last, hlast, htail⟩ := hlast
  have hmem := List.mem_of_head? hfirst
  have hrootMem : root ∈ events.map pairOf ∧ isRoot root.2 = true := by
    have hsingle := List.mem_singleton_self root
    rwa [← h.roots, List.mem_filter] at hsingle
  -- the event that begins the chain has the hash of the one root, so it is that root
  have hpair : pairOf first = root :=
    List.inj_on_of_nodup_map h.nodup (List.mem_map_of_mem (hevents.mem_iff.mp hmem)) hrootMem.1 hroot
  obtain ⟨v, hv, heqv⟩ := h.first
  obtain ⟨w, hw, heqw⟩ := h.last
  have hlastHash := hends last (List.mem_of_getLast? hlast) tail htail
  refine ⟨chain, hevents, ⟨hhash, ?_, ?_, ?_⟩, first, hfirst, last, hlast, ?_, ?_⟩
  · apply List.Nodup.of_map fun v => (asString v).getD []
    rw [List.map_map]
    exact hdistinct
  · intro event he
    cases (Option.mem_unique hfirst he)
    have hfirstRoot := hrootMem.2
    rw [← hpair] at hfirstRoot
    exact isRoot_iff.mp hfirstRoot
  · exact isChain_of_links (fun event he => (hhash event he).imp fun _ hs => hs.1) hchain
  · obtain ⟨s, hs, -⟩ := hhash first hmem
    rw [← hpair, show (pairOf first).1 = .string s from hs, strictEq_string] at heqv
    rw [hv, heqv, hs]
  · rw [strictEq_string] at heqw
    rw [hw, heqw, hlastHash]

end Events

section Rooted

/-- A root is a root however it is written. -/
def rooted (v : JsValue) : JsValue := if isRoot v then .null else v

theorem isRoot_rooted (v : JsValue) : isRoot (rooted v) = isRoot v := by
  by_cases h : isRoot v = true
  · rw [rooted, if_pos h, h]
    rfl
  · rw [rooted, if_neg h]

theorem nonEmptyString_rooted (v : JsValue) : nonEmptyString (rooted v) = nonEmptyString v := by
  by_cases h : isRoot v = true
  · rw [rooted, if_pos h, nonEmptyString_of_isRoot h]
    rfl
  · rw [rooted, if_neg h]

theorem lookup_map_rooted (l : List (JsString × JsValue)) (h : JsString) :
    ((l.map (Prod.map id rooted)).lookup h).bind nonEmptyString =
      (l.lookup h).bind nonEmptyString := by
  induction l with
  | nil => rfl
  | cons p l ih =>
    rw [List.map_cons, Prod.map, id, List.lookup_cons, List.lookup_cons]
    by_cases hh : (h == p.1) = true
    · simp [hh, nonEmptyString_rooted]
    · simpa [hh] using ih

theorem visitChain_rooted {byHash : List (JsString × JsValue)} {fuel : Nat}
    {visited : List JsString} {current : JsString} :
    visitChain (byHash.map (Prod.map id rooted)) fuel visited current =
      visitChain byHash fuel visited current := by
  induction fuel generalizing visited current with
  | zero => rfl
  | succ fuel ih => simp only [visitChain, ← List.map_reverse, lookup_map_rooted, ih]

theorem chainIssues_rooted {lineage : JsValue} {eventHashes previousHashes : List JsValue} :
    chainIssues lineage eventHashes (previousHashes.map rooted) =
      chainIssues lineage eventHashes previousHashes := by
  have hroots : ((eventHashes.zip (previousHashes.map rooted)).filter fun p => isRoot p.2) =
      ((eventHashes.zip previousHashes).filter fun p => isRoot p.2).map (Prod.map id rooted) := by
    rw [List.zip_map_right, List.filter_map]
    exact congrArg _ (List.filter_congr fun p _ => isRoot_rooted p.2)
  have hreferences : (previousHashes.map rooted).filterMap nonEmptyString =
      previousHashes.filterMap nonEmptyString := by
    rw [List.filterMap_map]
    exact List.filterMap_congr fun v _ => nonEmptyString_rooted v
  have hindex : hashIndex eventHashes (previousHashes.map rooted) =
      (hashIndex eventHashes previousHashes).map fun byHash => byHash.map (Prod.map id rooted) := by
    cases htexts : eventHashes.mapM toText with
    | none => simp [hashIndex, htexts]
    | some texts => simp [hashIndex, htexts, List.zip_map_right]
  have hfst : (Prod.fst : EventPair → JsValue) ∘ Prod.map id rooted = Prod.fst := rfl
  simp only [chainIssues, hroots, hreferences, hindex, List.length_map, List.head?_map,
    Option.map_map, hfst]
  cases hashIndex eventHashes previousHashes with
  | none => rfl
  | some byHash =>
    simp only [Option.map_some, Option.bind_eq_bind, Option.bind_some, visitChain_rooted]

/-- The event with its root written as `null`. -/
def rootedEvent (event : ArchiveRecord) : ArchiveRecord :=
  (js "previousEventHash", rooted (previousEventHash event)) :: event

theorem previousEventHash_rooted (event : ArchiveRecord) :
    previousEventHash (rootedEvent event) = rooted (previousEventHash event) := by
  rw [previousEventHash, field, rootedEvent, List.lookup_cons_self]
  rfl

theorem eventHash_rooted (event : ArchiveRecord) : eventHash (rootedEvent event) = eventHash event := by
  have hne : (js "eventHash" == js "previousEventHash") = false := by decide
  rw [eventHash, field, rootedEvent, List.lookup_cons, hne]
  rfl

theorem Chain.eventHash_eq {chain : List ArchiveRecord} (h : Chain chain) {event : ArchiveRecord}
    (he : event ∈ chain) : eventHash event = .string ((asString (eventHash event)).getD []) := by
  obtain ⟨hash, hhash, -⟩ := h.hash event he
  rw [hhash]
  rfl

theorem Chain.texts_nodup {chain : List ArchiveRecord} (h : Chain chain) :
    (chain.map fun event => (asString (eventHash event)).getD []).Nodup := by
  refine List.Nodup.map_on ?_ (h.distinct.of_map _)
  intro a ha b hb hab
  exact List.inj_on_of_nodup_map h.distinct ha hb (by rw [h.eventHash_eq ha, h.eventHash_eq hb, hab])

theorem Chain.pairs {chain events : List ArchiveRecord} (h : Chain chain)
    (hperm : chain.Perm events) :
    ChainPairs (chain.map fun event => (asString (eventHash event)).getD [])
      ((events.map rootedEvent).map pairOf) := by
  have hmap : chain.map (fun event => (asString (eventHash event)).getD []) =
      (chain.map rootedEvent).map fun event => (asString (eventHash event)).getD [] := by
    rw [List.map_map]
    exact List.map_congr_left fun event _ => by rw [Function.comp_apply, eventHash_rooted]
  have hdistinct := h.texts_nodup
  rw [hmap]
  rw [hmap] at hdistinct
  refine chainPairs_of_chain (hperm.map _) ?_ hdistinct ?_ ?_
  · intro event he
    obtain ⟨source, hsource, rfl⟩ := List.mem_map.mp he
    rw [eventHash_rooted]
    exact h.hash source hsource
  · intro root hroot
    rw [List.head?_map, Option.map_eq_some_iff] at hroot
    obtain ⟨first, hfirst, rfl⟩ := hroot
    rw [previousEventHash_rooted, rooted, if_pos (isRoot_iff.mpr (h.root first hfirst))]
    rfl
  · rw [List.isChain_map]
    refine h.linked.imp_of_mem_imp fun a b ha _ hab => ?_
    obtain ⟨hash, hhash, hsha⟩ := h.hash a ha
    rw [previousEventHash_rooted, eventHash_rooted, rooted, if_neg, hab]
    rw [hab, hhash, isRoot_iff]
    rintro (hnull | hnull | hnull)
    · cases hnull
    · cases hnull
    · cases hnull
      cases hsha

theorem chainIssues_of_chain {lineage : JsValue} {chain events : List ArchiveRecord}
    {first last : ArchiveRecord} (h : Chain chain) (hperm : chain.Perm events)
    (hhead : first ∈ chain.head?) (htail : last ∈ chain.getLast?)
    (hfirst : property lineage (js "firstEventHash") = some (eventHash first))
    (hlast : property lineage (js "lastEventHash") = some (eventHash last)) :
    chainIssues lineage (events.map eventHash) (events.map previousEventHash) = some [] := by
  have hpairs := h.pairs hperm
  have hhashes : events.map eventHash = ((events.map rootedEvent).map pairOf).map Prod.fst := by
    rw [List.map_map, List.map_map]
    exact List.map_congr_left fun event _ => (eventHash_rooted event).symm
  have hprevious : (events.map previousEventHash).map rooted =
      ((events.map rootedEvent).map pairOf).map Prod.snd := by
    rw [List.map_map, List.map_map, List.map_map]
    exact List.map_congr_left fun event _ => (previousEventHash_rooted event).symm
  rw [← chainIssues_rooted, hhashes, hprevious]
  rw [h.eventHash_eq (List.mem_of_head? hhead)] at hfirst
  rw [h.eventHash_eq (List.mem_of_getLast? htail)] at hlast
  cases chain with
  | nil => cases hhead
  | cons root chain =>
    cases hhead
    refine chainIssues_eq_nil hpairs hfirst ?_
    rw [hlast]
    have hgetLast := congrArg (Option.map fun event => (asString (eventHash event)).getD []) htail
    rw [← List.getLast?_map, List.map_cons,
      List.getLast?_eq_getLast_of_ne_nil (List.cons_ne_nil _ _)] at hgetLast
    exact congrArg (Option.map JsValue.string) hgetLast.symm

end Rooted

theorem column_object (events : List ArchiveRecord) (key : JsString) :
    column (events.map .object) key = some (events.map fun event => field event key) := by
  rw [column, List.mapM_map]
  exact mapM_of_forall fun _ _ => rfl

/-- The count that the check compares first. -/
theorem counted_eq_nil {count : JsValue} {n : Nat} {rest : List ArchiveIssue} :
    (if strictEq count (numberOf n) then []
      else [lineageIssue "Audit lineage count does not match exported audit records."]) ++ rest = [] ↔
      strictEq count (numberOf n) = true ∧ rest = [] := by
  by_cases h : strictEq count (numberOf n) = true <;> simp [h]

theorem validateAuditLineage_eq_nil {manifest : JsValue} {events : List ArchiveRecord} :
    validateAuditLineage manifest (events.map .object) = some [] ↔
      ∃ lineage, property manifest (js "auditLineage") = some lineage ∧
        Describes lineage events := by
  constructor
  · intro h
    obtain ⟨lineage, hlineage, h⟩ := Option.bind_eq_some_iff.mp h
    obtain ⟨count, hcount, h⟩ := Option.bind_eq_some_iff.mp h
    simp only [column_object, Option.bind_eq_bind, Option.bind_some, List.map_eq_nil_iff,
      List.length_map] at h
    refine ⟨lineage, hlineage, ?_⟩
    by_cases hnil : events = []
    · rw [if_pos hnil] at h
      obtain ⟨first, hfirst, h⟩ := Option.bind_eq_some_iff.mp h
      obtain ⟨last, hlast, h⟩ := Option.bind_eq_some_iff.mp h
      obtain ⟨hequal, hbounds⟩ := counted_eq_nil.mp (Option.some.inj h)
      simp only [ite_eq_left_iff, reduceCtorEq, imp_false, not_not, Bool.and_eq_true] at hbounds
      rw [eq_null_of_strictEq hbounds.1] at hfirst
      rw [eq_null_of_strictEq hbounds.2] at hlast
      exact ⟨⟨count, hcount, hequal⟩, Or.inl ⟨hnil, hfirst, hlast⟩⟩
    · rw [if_neg hnil] at h
      obtain ⟨chain, hchain, h⟩ := Option.bind_eq_some_iff.mp h
      obtain ⟨hequal, rfl⟩ := counted_eq_nil.mp (Option.some.inj h)
      have hpairs : chainIssues lineage ((events.map pairOf).map Prod.fst)
          ((events.map pairOf).map Prod.snd) = some [] := by
        rw [List.map_map, List.map_map]
        exact hchain
      obtain ⟨root, tail, haccepted⟩ := accepted_of_chainIssues hpairs
      exact ⟨⟨count, hcount, hequal⟩, Or.inr haccepted.events⟩
  · rintro ⟨lineage, hlineage, ⟨count, hcount, hequal⟩, hbounds⟩
    rw [validateAuditLineage, hlineage, Option.bind_eq_bind, Option.bind_some, hcount]
    simp only [column_object, Option.bind_eq_bind, Option.bind_some, List.map_eq_nil_iff,
      List.length_map, hequal, if_true, List.nil_append]
    rcases hbounds with ⟨hnil, hfirst, hlast⟩ | ⟨chain, hperm, hchain, first, hhead, last, htail,
      hfirst, hlast⟩
    · rw [if_pos hnil, hfirst, hlast]
      rfl
    · have hne : events ≠ [] := by
        rintro rfl
        rw [hperm.eq_nil] at hhead
        cases hhead
      have hissues := chainIssues_of_chain hchain hperm hhead htail hfirst hlast
      rw [if_neg hne]
      exact congrArg (Option.bind · some) hissues

/-- The check adds no issue for the events of one chain in any order, with the count and the ends of
the chain in the manifest, and for no others; and its walk ends on whatever links it is given. -/
theorem validateAuditLineage_iff (manifest : JsValue) (events : List ArchiveRecord) :
    (validateAuditLineage manifest (events.map .object) = some [] ↔
      ∃ lineage, property manifest (js "auditLineage") = some lineage ∧
        Describes lineage events) ∧
    ∀ (byHash : List (JsString × JsValue)) (tail : JsString) (fuel : Nat),
      Ends byHash [] tail (visitChain byHash (byHash.length + 1 + fuel) [] tail) := by
  refine ⟨validateAuditLineage_eq_nil, fun byHash tail fuel => ?_⟩
  exact ends_visitChain List.nodup_nil (List.nil_subset _) (by rw [List.length_nil]; omega)

section Assembled

variable {source : ArchiveSource} {chain : List ArchiveRecord}

theorem strictEq_count (n : Nat) : strictEq (numberOf n) (numberOf n) = true := by
  rw [numberOf, strictEq]
  unfold Numbers.ofDecimal
  split <;> simp

/-- A root with the empty string before it is not found by the assembler. -/
theorem firstEventHash_of_empty (hchain : Chain chain)
    (hperm : chain.Perm (source.records .auditEvents)) {first : ArchiveRecord}
    (hfirst : first ∈ chain.head?) (hempty : previousEventHash first = .string []) :
    (auditLineage source).firstEventHash = .null := by
  have hnone : (source.records .auditEvents).find? (fun event =>
      isNullish (field event (js "previousEventHash"))) = none := by
    rw [List.find?_eq_none]
    intro event he
    have hprevious : ∃ s, previousEventHash event = .string s := by
      cases chain with
      | nil => cases hfirst
      | cons root rest =>
        cases hfirst
        rcases first_or_linked hchain.linked event (hperm.mem_iff.mpr he) with rfl | ⟨a, ha, hlink⟩
        · exact ⟨[], hempty⟩
        · exact ⟨_, hlink.trans (hchain.eventHash_eq ha)⟩
    obtain ⟨s, hs⟩ := hprevious
    rw [show field event (js "previousEventHash") = .string s from hs]
    simp [isNullish]
  simp only [auditLineage, hnone]
  rfl

theorem refused_of_empty (hchain : Chain chain) (hperm : chain.Perm (source.records .auditEvents))
    {root : ArchiveRecord} (hroot : root ∈ chain.head?) (hempty : previousEventHash root = .string []) :
    validateAuditLineage (manifestOf source).value ((source.records .auditEvents).map .object) ≠
      some [] := by
  rw [ne_eq, validateAuditLineage_eq_nil]
  rintro ⟨lineage, heq, hdescribes⟩
  have hlineage : (auditLineage source).value = lineage := Option.some.inj heq
  rw [← hlineage] at hdescribes
  rcases hdescribes.bounds with ⟨hnil, -, -⟩ | ⟨chain', -, hchain', first, hhead, -, -, hbound, -⟩
  · rw [hnil] at hperm
    rw [hperm.eq_nil] at hroot
    cases hroot
  · have hfirst : property (auditLineage source).value (js "firstEventHash") =
        some (auditLineage source).firstEventHash := rfl
    rw [hfirst, firstEventHash_of_empty hchain hperm hroot hempty,
      hchain'.eventHash_eq (List.mem_of_head? hhead)] at hbound
    cases hbound

/-- The assembler's lineage is accepted for the events of a chain in any order unless its root has
the empty string before it. -/
theorem assembled_lineage_accepted_iff (source : ArchiveSource) (chain : List ArchiveRecord)
    (hchain : Chain chain) (hperm : chain.Perm (source.records .auditEvents)) :
    validateAuditLineage (manifestOf source).value ((source.records .auditEvents).map .object) =
        some [] ↔
      ∀ root ∈ chain.head?, previousEventHash root ≠ .string [] := by
  have hfirst : property (auditLineage source).value (js "firstEventHash") =
      some (auditLineage source).firstEventHash := rfl
  have hlast : property (auditLineage source).value (js "lastEventHash") =
      some (auditLineage source).lastEventHash := rfl
  constructor
  · intro haccepted root hroot hempty
    exact refused_of_empty hchain hperm hroot hempty haccepted
  · intro hroot
    refine validateAuditLineage_eq_nil.mpr ⟨(auditLineage source).value, rfl,
      ⟨_, rfl, strictEq_count _⟩, ?_⟩
    cases chain with
    | nil =>
      have hnil := hperm.symm.eq_nil
      rw [hfirst, hlast, auditLineage, hnil]
      exact Or.inl ⟨rfl, rfl, rfl⟩
    | cons first rest =>
      have hnullish : ∀ root, (first :: rest).head? = some root →
          isNullish (previousEventHash root) = true := by
        intro root hhead
        rcases hchain.root root hhead with hnull | hnull | hnull
        · rw [hnull]
          rfl
        · rw [hnull]
          rfl
        · exact absurd hnull (hroot root hhead)
      have hpairs := chainPairs_of_chain hperm hchain.hash hchain.texts_nodup hnullish hchain.linked
      obtain ⟨hheadHash, hlastHash⟩ := auditLineage_hashes hpairs
      have hne := List.cons_ne_nil first rest
      have hgetLast : ((first :: rest).map fun event =>
          (asString (eventHash event)).getD []).getLast (by simp) =
          (asString (eventHash ((first :: rest).getLast hne))).getD [] := List.getLast_map _
      refine Or.inr ⟨first :: rest, hperm, hchain, first, rfl, _,
        List.getLast?_eq_getLast_of_ne_nil hne, ?_, ?_⟩
      · rw [hfirst, hheadHash, hchain.eventHash_eq List.mem_cons_self]
      · rw [hlast, hlastHash, hchain.eventHash_eq (List.getLast_mem _), ← hgetLast]
        rfl

end Assembled

section Sample

def eventsSource (events : List ArchiveRecord) : ArchiveSource where
  exportId := js "e"
  workspaceId := js "w"
  datasetIds := []
  createdAt := js "t"
  createdBy := js "u"
  sourceVersion := js "0.3"
  records := fun kind => if kind = .auditEvents then events else []
  blobs := []

theorem chain_one {root : JsValue} (hroot : NoHash root) : Chain [chainedEvent (digestOf 97) root] := by
  constructor
  · intro event he
    rw [List.mem_singleton.mp he]
    exact ⟨digestOf 97, rfl, by decide⟩
  · exact List.nodup_singleton _
  · rintro first ⟨⟩
    exact hroot
  · exact List.isChain_singleton _

def rootEvent : ArchiveRecord := chainedEvent (digestOf 97) .null

def tailEvent : ArchiveRecord := chainedEvent (digestOf 98) (.string (digestOf 97))

theorem chain_two : Chain [rootEvent, tailEvent] := by
  constructor
  · intro event he
    rcases List.mem_pair.mp he with rfl | rfl
    · exact ⟨digestOf 97, rfl, by decide⟩
    · exact ⟨digestOf 98, rfl, by decide⟩
  · have hne : eventHash rootEvent ≠ eventHash tailEvent := by
      intro heq
      exact absurd (JsValue.string.inj heq) (by decide)
    simp [hne]
  · rintro first ⟨⟩
    exact Or.inl rfl
  · exact List.isChain_pair.mpr rfl

/-- Two events, the later first. -/
theorem assembled_lineage_accepted_iff_reversed :
    validateAuditLineage (manifestOf (eventsSource [tailEvent, rootEvent])).value
      [.object tailEvent, .object rootEvent] = some [] := by
  refine (assembled_lineage_accepted_iff (eventsSource [tailEvent, rootEvent])
    [rootEvent, tailEvent] chain_two (List.Perm.swap _ _ _)).mpr ?_
  rintro root ⟨⟩ ⟨⟩

/-- One event with the empty string before it, as `appendAuditEvent` gives it, is refused. -/
theorem empty_root_refused :
    Chain [chainedEvent (digestOf 97) (.string [])] ∧
      validateAuditLineage (manifestOf (eventsSource [chainedEvent (digestOf 97) (.string [])])).value
        [.object (chainedEvent (digestOf 97) (.string []))] ≠ some [] :=
  ⟨chain_one (Or.inr (Or.inr rfl)), @refused_of_empty
    (eventsSource [chainedEvent (digestOf 97) (.string [])]) _ (chain_one (Or.inr (Or.inr rfl)))
    (List.Perm.refl _) _ rfl rfl⟩

end Sample

end TrustCore.ArchiveAssemble
