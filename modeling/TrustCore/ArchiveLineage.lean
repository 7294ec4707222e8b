import TrustCore.ArchiveText
import TrustCore.HashChains

/-!
# The audit lineage of an archive

`auditLineage` names the root and the tail of the exported chain, and
`validateAuditLineage` walks the chain from that tail. The events of the archive
stand in another order than the chain, so both read the chain off its links.
-/

namespace TrustCore.ArchiveAssemble

open TrustCore.Utf TrustCore.Json TrustCore.Dynamic TrustCore.Sha256 TrustCore.ArchiveFormat
open TrustCore.ImportPlan TrustCore.ArchiveVerify TrustCore.HashChains

def eventHash (event : ArchiveRecord) : JsValue := field event (js "eventHash")

def previousEventHash (event : ArchiveRecord) : JsValue := field event (js "previousEventHash")

/-- The events, in some order, follow one another from a root without a hash before it. -/
def OneChain (events : List ArchiveRecord) : Prop :=
  ∃ chain : List ArchiveRecord, chain.Perm events ∧
    (∀ event ∈ chain, ∃ hash, eventHash event = .string hash ∧ isSha256 hash = true) ∧
    (chain.map fun event => (asString (eventHash event)).getD []).Nodup ∧
    (∀ root, chain.head? = some root → isNullish (previousEventHash root) = true) ∧
    chain.IsChain fun a b => previousEventHash b = eventHash a

/-- The hash of an event and the hash before it. -/
abbrev EventPair := JsValue × JsValue

def pairOf (event : ArchiveRecord) : EventPair := (eventHash event, previousEventHash event)

def linkOf (p : EventPair) : JsString × Option JsString := ((asString p.1).getD [], asString p.2)

structure Linked (p : EventPair) : Prop where
  hash : ∃ h, p.1 = .string h ∧ isSha256 h = true
  previous : isNullish p.2 = true ∨ ∃ h, p.2 = .string h ∧ isSha256 h = true

/-- The pairs are the links of the chain of these hashes. -/
structure ChainPairs (hashes : List JsString) (pairs : List EventPair) : Prop where
  linked : ∀ p ∈ pairs, Linked p
  nodup : hashes.Nodup
  perm : (pairs.map linkOf).Perm (chainLinks none hashes)

theorem asString_of_nullish {v : JsValue} (h : isNullish v = true) : asString v = none := by
  cases v <;> first | rfl | cases h

theorem nonEmptyString_of_sha256 {s : JsString} (h : isSha256 s = true) :
    nonEmptyString (.string s) = some s := by
  cases s with
  | nil => cases h
  | cons u s => rfl

theorem nonEmptyString_previous {p : EventPair} (h : Linked p) : nonEmptyString p.2 = (linkOf p).2 := by
  rcases h.previous with hn | ⟨s, hs, hsha⟩
  · rw [linkOf, asString_of_nullish hn]
    cases hv : p.2 <;> rw [hv] at hn <;> first | rfl | cases hn
  · rw [linkOf, hs, nonEmptyString_of_sha256 hsha]
    rfl

theorem isRoot_previous {p : EventPair} (h : Linked p) : isRoot p.2 = (linkOf p).2.isNone := by
  rcases h.previous with hn | ⟨s, hs, hsha⟩
  · rw [linkOf, asString_of_nullish hn, isRoot, hn]
    rfl
  · rw [linkOf, hs, isRoot]
    cases s with
    | nil => cases hsha
    | cons u s => rfl

theorem isNullish_previous {p : EventPair} (h : Linked p) :
    isNullish p.2 = (linkOf p).2.isNone := by
  rcases h.previous with hn | ⟨s, hs, -⟩
  · rw [linkOf, asString_of_nullish hn, hn]
    rfl
  · rw [linkOf, hs]
    rfl

theorem linkOf_fst {p : EventPair} (h : Linked p) : p.1 = .string (linkOf p).1 := by
  obtain ⟨s, hs, -⟩ := h.hash
  rw [linkOf, hs]
  rfl

/-- A chain, event by event, behind the hash before it. -/
theorem links_of_chain {previous : JsValue} {chain : List ArchiveRecord}
    (hhash : ∀ event ∈ chain, ∃ h, eventHash event = .string h ∧ isSha256 h = true)
    (hhead : ∀ first, chain.head? = some first → previousEventHash first = previous)
    (hchain : chain.IsChain fun a b => previousEventHash b = eventHash a) :
    (chain.map pairOf).map linkOf = chainLinks (asString previous)
      (chain.map fun event => (asString (eventHash event)).getD []) := by
  induction chain generalizing previous with
  | nil => rfl
  | cons event chain ih =>
    obtain ⟨h, hh, -⟩ := hhash event List.mem_cons_self
    have hprev := hhead event rfl
    have hrest := @ih (eventHash event) (fun e he => hhash e (List.mem_cons_of_mem _ he))
      (fun first hfirst => by
        cases chain with
        | nil => cases hfirst
        | cons second chain =>
          cases hfirst
          exact (List.isChain_cons_cons.mp hchain).1)
      hchain.tail
    rw [List.map_cons, List.map_cons, List.map_cons, chainLinks_cons, hrest, hh]
    simp only [pairOf, linkOf, hprev, hh]
    rfl

theorem linked_of_chain {chain : List ArchiveRecord}
    (hhash : ∀ event ∈ chain, ∃ h, eventHash event = .string h ∧ isSha256 h = true)
    (hhead : ∀ first, chain.head? = some first →
      isNullish (previousEventHash first) = true ∨
        ∃ h, previousEventHash first = .string h ∧ isSha256 h = true)
    (hchain : chain.IsChain fun a b => previousEventHash b = eventHash a) :
    ∀ event ∈ chain, Linked (pairOf event) := by
  induction chain with
  | nil => simp
  | cons event chain ih =>
    intro e he
    rcases List.mem_cons.mp he with rfl | he
    · exact ⟨hhash e List.mem_cons_self, hhead e rfl⟩
    · refine ih (fun e he => hhash e (List.mem_cons_of_mem _ he)) ?_ hchain.tail e he
      intro first hfirst
      cases chain with
      | nil => cases hfirst
      | cons second chain =>
        cases hfirst
        obtain ⟨h, hh, hsha⟩ := hhash event List.mem_cons_self
        exact Or.inr ⟨h, (List.isChain_cons_cons.mp hchain).1.trans hh, hsha⟩

theorem chainPairs_of_chain {chain events : List ArchiveRecord} (hperm : chain.Perm events)
    (hhash : ∀ event ∈ chain, ∃ hash, eventHash event = .string hash ∧ isSha256 hash = true)
    (hnodup : (chain.map fun event => (asString (eventHash event)).getD []).Nodup)
    (hroot : ∀ root, chain.head? = some root → isNullish (previousEventHash root) = true)
    (hchain : chain.IsChain fun a b => previousEventHash b = eventHash a) :
    ChainPairs (chain.map fun event => (asString (eventHash event)).getD [])
      (events.map pairOf) := by
  refine ⟨?_, hnodup, ?_⟩
  · intro p hp
    obtain ⟨event, he, rfl⟩ := List.mem_map.mp hp
    exact linked_of_chain hhash (fun first hfirst => Or.inl (hroot first hfirst)) hchain event
      (hperm.mem_iff.mpr he)
  · have hmap := ((hperm.map pairOf).map linkOf).symm
    cases chain with
    | nil => exact hmap
    | cons root chain =>
      have hlinks := @links_of_chain (previousEventHash root) (root :: chain) hhash
        (fun first hfirst => by cases hfirst; rfl) hchain
      rw [asString_of_nullish (hroot root rfl)] at hlinks
      rwa [hlinks] at hmap

theorem chainPairs_of_oneChain {events : List ArchiveRecord} (h : OneChain events) :
    ∃ hashes, ChainPairs hashes (events.map pairOf) := by
  obtain ⟨chain, hperm, hhash, hnodup, hroot, hchain⟩ := h
  exact ⟨_, chainPairs_of_chain hperm hhash hnodup hroot hchain⟩

section Walk

theorem goes_on {visited rest : List JsString} {current : JsString}
    (hn : (visited ++ current :: rest).Nodup) (hne : current ≠ []) :
    (current.isEmpty || visited.contains current) = false := by
  have hfresh : current ∉ visited := fun hmem =>
    (List.nodup_append.mp hn).2.2 _ hmem _ List.mem_cons_self rfl
  simp [hne, hfresh]

/-- The walk goes along a chain of steps to the hash without one. -/
theorem visitChain_chain {byHash : List (JsString × JsValue)} {next : JsString → Option JsString}
    (hnext : ∀ h, next h = (byHash.reverse.lookup h).bind nonEmptyString) {rest : List JsString}
    {current : JsString} {fuel : Nat} {visited : List JsString}
    (hfuel : rest.length < fuel) (hn : (visited ++ current :: rest).Nodup)
    (hne : ∀ h ∈ current :: rest, h ≠ [])
    (hchain : (current :: rest).IsChain fun a b => next a = some b)
    (hend : next ((current :: rest).getLast (List.cons_ne_nil _ _)) = none) :
    visitChain byHash fuel visited current = visited ++ current :: rest := by
  induction rest generalizing current fuel visited with
  | nil =>
    obtain ⟨fuel, rfl⟩ := Nat.exists_eq_succ_of_ne_zero (Nat.ne_of_gt (Nat.zero_lt_of_lt hfuel))
    have hfresh := goes_on hn (hne current List.mem_cons_self)
    rw [List.getLast_singleton, hnext] at hend
    rw [visitChain, hfresh, hend]
    rfl
  | cons h rest ih =>
    obtain ⟨fuel, rfl⟩ := Nat.exists_eq_succ_of_ne_zero (Nat.ne_of_gt (Nat.zero_lt_of_lt hfuel))
    have hfresh := goes_on hn (hne current List.mem_cons_self)
    have hstep := (List.isChain_cons_cons.mp hchain).1
    rw [hnext] at hstep
    have hrest := @ih h fuel (visited ++ [current]) (by simpa using hfuel) (by simpa using hn)
      (fun x hx => hne x (List.mem_cons_of_mem _ hx)) hchain.tail (by rwa [List.getLast_cons (List.cons_ne_nil h rest)] at hend)
    rw [visitChain, hfresh, hstep]
    simp only [Bool.false_eq_true, if_false]
    rw [hrest, List.append_assoc]
    rfl

/-- The step from a hash to the one before it. -/
def before (pairs : List EventPair) (h : JsString) : Option JsString :=
  ((((pairs.map fun p => (linkOf p).1).zip (pairs.map Prod.snd)).reverse).lookup h).bind
    nonEmptyString

theorem before_eq {pairs : List EventPair} (hlinked : ∀ p ∈ pairs, Linked p)
    (hn : (pairs.map fun p => (linkOf p).1).Nodup) {p : EventPair} (hp : p ∈ pairs) :
    before pairs (linkOf p).1 = (linkOf p).2 := by
  have hkeys : ((pairs.map fun p => ((linkOf p).1, p.2)).reverse.map Prod.fst).Nodup := by
    rw [List.map_reverse, List.nodup_reverse, List.map_map]
    exact hn
  have hzip : (pairs.map fun p => (linkOf p).1).zip (pairs.map Prod.snd) =
      pairs.map fun p => ((linkOf p).1, p.2) := by
    rw [List.zip_map']
  have hmem : ((linkOf p).1, p.2) ∈ (pairs.map fun p => ((linkOf p).1, p.2)).reverse :=
    List.mem_reverse.mpr (List.mem_map_of_mem hp)
  rw [before, hzip, lookup_of_mem hkeys hmem, Option.bind_some,
    nonEmptyString_previous (hlinked p hp)]

end Walk

section Chain

variable {h : JsString} {hs : List JsString} {pairs : List EventPair}

theorem map_hash (hc : ChainPairs (h :: hs) pairs) :
    pairs.map Prod.fst = ((pairs.map linkOf).map Prod.fst).map .string := by
  rw [List.map_map, List.map_map]
  exact List.map_congr_left fun p hp => linkOf_fst (hc.linked p hp)

theorem nodup_hashes (hc : ChainPairs (h :: hs) pairs) : ((pairs.map linkOf).map Prod.fst).Nodup :=
  (hashes_perm hc.perm).nodup_iff.mpr hc.nodup

/-- The roots of the pairs, as the verifier and the assembler look for them. -/
theorem filter_roots (hc : ChainPairs (h :: hs) pairs) {root : JsValue → Bool}
    (hroot : ∀ p ∈ pairs, root p.2 = (linkOf p).2.isNone) :
    ∃ p, (pairs.filter fun p => root p.2) = [p] ∧ p.1 = .string h := by
  have hroots : (pairs.filter fun p => root p.2).map linkOf = [(h, none)] := by
    rw [← filter_root hc.perm, List.filter_map]
    exact congrArg (List.map linkOf) (List.filter_congr hroot)
  obtain ⟨p, hp, hlink⟩ := List.map_eq_singleton_iff.mp hroots
  refine ⟨p, hp, ?_⟩
  have hmem : p ∈ pairs := by
    have : p ∈ pairs.filter fun p => root p.2 := by
      rw [hp]
      exact List.mem_singleton_self p
    exact (List.mem_filter.mp this).1
  rw [linkOf_fst (hc.linked p hmem), hlink]

theorem filterMap_references {f : JsValue → Option JsString} (hf : ∀ p ∈ pairs, f p.2 = (linkOf p).2) :
    (pairs.map Prod.snd).filterMap f = (pairs.map linkOf).filterMap Prod.snd := by
  rw [List.filterMap_map, List.filterMap_map]
  exact List.filterMap_congr hf

/-- The walk from the tail meets every hash. -/
theorem length_visitChain (hc : ChainPairs (h :: hs) pairs) :
    (visitChain (((pairs.map linkOf).map Prod.fst).zip (pairs.map Prod.snd)) (pairs.length + 2) []
      ((h :: hs).getLast (List.cons_ne_nil _ _))).length = pairs.length := by
  have hlength : pairs.length = (h :: hs).length := by
    rw [← (hashes_perm hc.perm).length_eq, List.length_map, List.length_map]
  have hnext : ∀ l ∈ chainLinks none (h :: hs), before pairs l.1 = l.2 := by
    intro l hl
    obtain ⟨p, hp, rfl⟩ := List.mem_map.mp (hc.perm.mem_iff.mpr hl)
    refine before_eq hc.linked ?_ hp
    have hn := nodup_hashes hc
    rwa [List.map_map] at hn
  have hchain := isChain_reverse none hs h hnext
  have hroot := hnext (h, none) List.mem_cons_self
  have hne : (h :: hs).reverse ≠ [] := by simp
  obtain ⟨tail, rest, htail⟩ := List.exists_cons_of_ne_nil hne
  have hlast : (h :: hs).getLast (List.cons_ne_nil _ _) = tail := by
    have hhead := @List.head?_reverse _ (h :: hs)
    rw [htail, List.head?_cons, List.getLast?_eq_getLast_of_ne_nil (List.cons_ne_nil _ _),
      Option.some.injEq] at hhead
    exact hhead.symm
  have hend : (tail :: rest).getLast (List.cons_ne_nil _ _) = h := by
    have hh := @List.getLast?_reverse _ (h :: hs)
    rw [htail, List.head?_cons, List.getLast?_eq_getLast_of_ne_nil (List.cons_ne_nil _ _),
      Option.some.injEq] at hh
    exact hh
  have hcount : (tail :: rest).length = (h :: hs).length := by
    rw [← htail, List.length_reverse]
  have hn : (tail :: rest).Nodup := by
    rw [← htail, List.nodup_reverse]
    exact hc.nodup
  have hfull : ∀ x ∈ tail :: rest, x ≠ [] := by
    rintro x hx rfl
    rw [← htail, List.mem_reverse, ← (hashes_perm hc.perm).mem_iff, List.map_map] at hx
    obtain ⟨p, hp, hnil⟩ := List.mem_map.mp hx
    obtain ⟨s, hs, hsha⟩ := (hc.linked p hp).hash
    rw [Function.comp_apply, linkOf, hs] at hnil
    rw [show s = [] from hnil] at hsha
    cases hsha
  rw [htail] at hchain
  have hvisit := @visitChain_chain (((pairs.map linkOf).map Prod.fst).zip (pairs.map Prod.snd))
    (before pairs) (fun x => by rw [before, List.map_map]; rfl) rest tail (pairs.length + 2) []
    (by rw [hlength, ← hcount, List.length_cons]; omega) hn hfull hchain (by rw [hend]; exact hroot)
  rw [hlast, hvisit, List.nil_append, hcount, hlength]

theorem chainIssues_eq_nil (hc : ChainPairs (h :: hs) pairs) {lineage : JsValue}
    (hfirst : property lineage (js "firstEventHash") = some (.string h))
    (hlast : property lineage (js "lastEventHash") =
      some (.string ((h :: hs).getLast (List.cons_ne_nil _ _)))) :
    chainIssues lineage (pairs.map Prod.fst) (pairs.map Prod.snd) = some [] := by
  have hhashes : ((pairs.map Prod.fst).map fun v => (asString v).getD []) =
      (pairs.map linkOf).map Prod.fst := by
    rw [List.map_map, List.map_map]
    rfl
  have hzip : (pairs.map Prod.fst).zip (pairs.map Prod.snd) = pairs :=
    (List.zip_of_prod rfl rfl).symm
  obtain ⟨root, hroots, hroot⟩ := filter_roots hc fun p hp => isRoot_previous (hc.linked p hp)
  have hrefs := @filterMap_references pairs nonEmptyString
    fun p hp => nonEmptyString_previous (hc.linked p hp)
  have htails := filter_tail hc.nodup hc.perm
  have htexts : (pairs.map Prod.fst).mapM toText = some ((pairs.map linkOf).map Prod.fst) := by
    have htext : ∀ x ∈ (pairs.map linkOf).map Prod.fst,
        (toText ∘ JsValue.string) x = some (id x) := fun _ _ => rfl
    rw [map_hash hc, List.mapM_map, mapM_of_forall htext, List.map_id]
  have hvalid : ∀ x ∈ (pairs.map linkOf).map Prod.fst, isSha256 x = true := by
    intro x hx
    obtain ⟨l, hl, rfl⟩ := List.mem_map.mp hx
    obtain ⟨p, hp, rfl⟩ := List.mem_map.mp hl
    obtain ⟨s, hs, hsha⟩ := (hc.linked p hp).hash
    rw [linkOf, hs]
    exact hsha
  have hinvalid : ((pairs.map linkOf).map Prod.fst).any (fun x => !isSha256 x) = false := by
    rw [List.any_eq_false]
    intro x hx
    simp [hvalid x hx]
  have hdedup := (nodup_hashes hc).dedup
  have hrefsDedup := (references_nodup hc.nodup hc.perm).dedup
  have hknown : ((pairs.map linkOf).filterMap Prod.snd).any
      (fun previous => !((pairs.map linkOf).map Prod.fst).contains previous) = false := by
    rw [List.any_eq_false]
    intro r hr
    simpa using mem_hashes_of_reference hc.perm hr
  have hwalk := length_visitChain hc
  have hindex : hashIndex (pairs.map Prod.fst) (pairs.map Prod.snd) =
      some (((pairs.map linkOf).map Prod.fst).zip (pairs.map Prod.snd)) := by
    rw [hashIndex, htexts]
    rfl
  simp only [chainIssues, hfirst, hlast, Option.bind_eq_bind, Option.bind_some, hhashes, hzip,
    hroots, hrefs, htails, hindex, hinvalid, hdedup, hrefsDedup, hknown, List.length_map, hwalk]
  simp [strictEq, hroot]

/-- The boundary hashes that the assembler writes. -/
theorem auditLineage_hashes {source : ArchiveSource}
    (hc : ChainPairs (h :: hs) ((source.records .auditEvents).map pairOf)) :
    (auditLineage source).firstEventHash = .string h ∧
      (auditLineage source).lastEventHash =
        .string ((h :: hs).getLast (List.cons_ne_nil _ _)) := by
  have hlinked : ∀ event ∈ source.records .auditEvents, Linked (pairOf event) := fun event he =>
    hc.linked _ (List.mem_map_of_mem he)
  constructor
  · obtain ⟨p, hfilter, hp⟩ := filter_roots hc fun p hp => isNullish_previous (hc.linked p hp)
    rw [List.filter_map] at hfilter
    obtain ⟨event, hevent, rfl⟩ := List.map_eq_singleton_iff.mp hfilter
    have hfind : ((source.records .auditEvents).find? fun event =>
        isNullish (field event (js "previousEventHash"))) = some event := by
      rw [← List.head?_filter]
      exact congrArg List.head? hevent
    have hhash : field event (js "eventHash") = .string h := hp
    simp only [auditLineage, hfind, hhash]
    rfl
  · have hhashes : ((source.records .auditEvents).filterMap fun event =>
        asString (field event (js "eventHash"))) =
        (((source.records .auditEvents).map pairOf).map linkOf).map Prod.fst := by
      rw [List.map_map, List.map_map, ← List.filterMap_eq_map]
      apply List.filterMap_congr
      intro event he
      obtain ⟨x, hx, -⟩ := (hlinked event he).hash
      have hx' : field event (js "eventHash") = .string x := hx
      simp [linkOf, pairOf, eventHash, hx', asString]
    have hrefs : ((source.records .auditEvents).filterMap fun event =>
        asString (field event (js "previousEventHash"))) =
        (((source.records .auditEvents).map pairOf).map linkOf).filterMap Prod.snd := by
      rw [List.filterMap_map, List.filterMap_map]
      rfl
    have htail := congrArg List.head? (filter_tail hc.nodup hc.perm)
    rw [List.head?_filter] at htail
    simp only [auditLineage, hhashes, hrefs, htail]
    rfl

end Chain

/-- A digest of one digit. -/
def digestOf (u : UInt16) : JsString := List.replicate 64 u

/-- An event with its two hashes only. -/
def chainedEvent (hash : JsString) (previous : JsValue) : ArchiveRecord :=
  [(js "eventHash", .string hash), (js "previousEventHash", previous)]

end TrustCore.ArchiveAssemble
