import TrustCore.ArchiveLineage

/-!
# The manifest of an assembled archive

The manifest reads back as the value that was written, with its keys in canonical
order, and it passes every check of `readManifest`. The counts are integers that
a double holds exactly.
-/

namespace TrustCore.ArchiveAssemble

open TrustCore.Utf TrustCore.Json TrustCore.Numbers TrustCore.Dynamic TrustCore.Sha256
open TrustCore.ArchiveFormat TrustCore.ImportPlan TrustCore.ArchiveVerify TrustCore.HashChains

/-- A value as `JSON.parse` returns it from its canonical text. -/
abbrev reread (v : JsValue) : JsValue := sortKeys canonicalEncoder v

theorem lookup_sortKeysMembers (E : Encoder) (ms : List (JsString × JsValue)) (k : JsString) :
    (sortKeysMembers E ms).lookup k = (ms.lookup k).map (sortKeys E) := by
  induction ms with
  | nil => rfl
  | cons m ms ih =>
    obtain ⟨k', v⟩ := m
    rw [sortKeysMembers, List.lookup_cons, List.lookup_cons, ih]
    cases k == k' <;> rfl

theorem lookup_reread {ms : List (JsString × JsValue)} (h : isJson (.object ms) = true)
    (k : JsString) :
    (sortByKey canonicalEncoder (sortKeysMembers canonicalEncoder ms)).lookup k =
      (ms.lookup k).map reread := by
  simp only [isJson, Bool.and_eq_true, decide_eq_true_eq] at h
  have hperm := sortByKey_perm canonicalEncoder (sortKeysMembers canonicalEncoder ms)
  have hn : ((sortByKey canonicalEncoder (sortKeysMembers canonicalEncoder ms)).map
      Prod.fst).Nodup := by
    rw [(hperm.map Prod.fst).nodup_iff, keys_sortKeysMembers]
    exact h.2
  rw [lookup_perm hn hperm, lookup_sortKeysMembers]

/-- A field of a record that was written and read. -/
theorem property_reread {r : ArchiveRecord} (h : isJson (.object r) = true) (k : JsString) :
    property (reread (.object r)) k = some (reread (field r k)) := by
  rw [reread, sortKeys, property, field, lookup_reread h, field]
  cases r.lookup k <;> rfl

theorem hasProperty_reread {r : ArchiveRecord} (h : isJson (.object r) = true) (k : JsString) :
    hasProperty (reread (.object r)) k = some (r.lookup k).isSome := by
  rw [reread, sortKeys, hasProperty, lookup_reread h]
  cases r.lookup k <;> rfl

section Counts

variable {n : Nat}

theorem numberOf_finite (h : n < 2 ^ 53) : ∃ d hd, numberOf n = .number (.finite d hd) ∧
    d.neg = false ∧ roundBinary (ratio d.coeff d.exp) = roundBinary (n, 1) := by
  obtain ⟨d, hd, hneg, hround⟩ := nearestDouble_nat h
  exact ⟨d, _, congrArg JsValue.number (ofDecimal_eq hd), hneg, hround⟩

theorem isJson_numberOf (h : n < 2 ^ 53) : isJson (numberOf n) = true := by
  obtain ⟨d, hd, heq, -⟩ := numberOf_finite h
  rw [heq]
  rfl

theorem strictEq_numberOf (h : n < 2 ^ 53) : strictEq (numberOf n) (numberOf n) = true := by
  obtain ⟨d, hd, heq, -⟩ := numberOf_finite h
  rw [heq, strictEq]
  simp

theorem reread_numberOf (n : Nat) : reread (numberOf n) = numberOf n := rfl

theorem isSafeCount_numberOf (h : n < 2 ^ 53) : isSafeCount (numberOf n) = true := by
  obtain ⟨d, hd, heq, hneg, hround⟩ := numberOf_finite h
  rw [heq, isSafeCount, hround]
  by_cases h0 : n = 0
  · subst h0
    rw [hneg]
    rfl
  · rw [roundBinary_nat h0 h]
    have hlog : n.log2 ≤ 52 := by
      have := (Nat.log2_lt h0).mpr h
      omega
    have hexp : ((n.log2 : Int) - 52).toNat = 0 := by omega
    have hden : (-((n.log2 : Int) - 52)).toNat = 52 - n.log2 := by omega
    simp only [hexp, hden, pow_zero, mul_one, hneg, Bool.false_and, Bool.not_false, Bool.and_true,
      Nat.mul_mod_left, Nat.mul_div_cancel _ (Nat.two_pow_pos (52 - n.log2))]
    simp only [BEq.rfl, Bool.true_and, decide_eq_true_eq]
    omega

end Counts

section Manifest

variable {source : ArchiveSource}

/-- Every count of the manifest is a safe integer. -/
structure SafeCounts (source : ArchiveSource) : Prop where
  records : ∀ kind, (source.records kind).length < 2 ^ 53
  blobs : source.blobs.length < 2 ^ 53
  bytes : (source.blobs.map ArchiveBlobInput.byteLength).sum < 2 ^ 53

theorem isJson_strings (texts : List JsString) : isJson (.array (texts.map .string)) = true := by
  rw [isJson, Columns.isJsonItems_iff]
  intro v hv
  obtain ⟨s, -, rfl⟩ := List.mem_map.mp hv
  rfl

theorem kinds_nodup : (archiveRecordKinds.map ArchiveRecordKind.text).Nodup := by decide +kernel

theorem isJson_counts (h : SafeCounts source) :
    isJson (.object (archiveRecordKinds.map fun kind =>
      (kind.text, numberOf ((manifestOf source).recordCounts kind)))) = true := by
  rw [isJson, Bool.and_eq_true, Columns.isJsonMembers_iff, decide_eq_true_eq, List.map_map]
  constructor
  · intro m hm
    obtain ⟨kind, -, rfl⟩ := List.mem_map.mp hm
    exact isJson_numberOf (h.records kind)
  · exact kinds_nodup

/-- The boundary hashes that stand in the manifest. -/
inductive Boundary (source : ArchiveSource) : Prop where
  | empty (events : source.records .auditEvents = [])
    (first : (auditLineage source).firstEventHash = .null)
    (last : (auditLineage source).lastEventHash = .null)
  | chain (h : JsString) (hs : List JsString)
    (pairs : ChainPairs (h :: hs) ((source.records .auditEvents).map pairOf))
    (first : (auditLineage source).firstEventHash = .string h)
    (last : (auditLineage source).lastEventHash =
      .string ((h :: hs).getLast (List.cons_ne_nil _ _)))

theorem boundary_of_oneChain (hc : OneChain (source.records .auditEvents)) : Boundary source := by
  obtain ⟨hashes, hpairs⟩ := chainPairs_of_oneChain hc
  cases hashes with
  | nil =>
    have hnil : source.records .auditEvents = [] := by
      have hlinks := hpairs.perm.eq_nil
      rwa [List.map_eq_nil_iff, List.map_eq_nil_iff] at hlinks
    refine .empty hnil ?_ ?_
    · rw [auditLineage, hnil]
      rfl
    · rw [auditLineage, hnil]
      rfl
  | cons h hs =>
    obtain ⟨hfirst, hlast⟩ := auditLineage_hashes hpairs
    exact .chain h hs hpairs hfirst hlast

/-- The boundary hashes of the manifest are JSON data. -/
structure JsonLineage (source : ArchiveSource) : Prop where
  first : isJson (auditLineage source).firstEventHash = true
  last : isJson (auditLineage source).lastEventHash = true

theorem Boundary.json (hb : Boundary source) : JsonLineage source := by
  cases hb with
  | empty hevents hfirst hlast => exact ⟨hfirst ▸ rfl, hlast ▸ rfl⟩
  | chain h hs hpairs hfirst hlast => exact ⟨hfirst ▸ rfl, hlast ▸ rfl⟩

theorem isJson_field {r : ArchiveRecord} (h : isJson (.object r) = true) {k : JsString} {v : JsValue}
    (hv : r.lookup k = some v) : isJson v = true := by
  rw [isJson, Bool.and_eq_true, Columns.isJsonMembers_iff] at h
  exact h.1 (k, v) (mem_of_lookup hv)

/-- Of records that are JSON data the boundary hashes are. -/
theorem jsonLineage_of_records
    (h : ∀ r ∈ source.records .auditEvents, isJson (.object r) = true) : JsonLineage source := by
  constructor
  · have hnull : isJson .null = true := rfl
    simp only [auditLineage]
    split
    · split_ifs with hnullish
      · exact hnull
      · rename_i event hfind
        have hjson := h event (List.mem_of_find?_eq_some hfind)
        rw [field] at hnullish ⊢
        cases hlookup : event.lookup (js "eventHash") with
        | none =>
          rw [hlookup] at hnullish
          exact absurd rfl hnullish
        | some v => exact isJson_field hjson hlookup
    · split_ifs <;> rfl
  · simp only [auditLineage]
    split <;> rfl

theorem isJson_lineage (h : SafeCounts source) (hl : JsonLineage source) :
    isJson (auditLineage source).value = true := by
  have hcount : isJson (numberOf (auditLineage source).eventCount) = true :=
    isJson_numberOf (h.records .auditEvents)
  rw [AuditLineage.value, isJson, Bool.and_eq_true, decide_eq_true_eq]
  constructor
  · simp only [isJsonMembers, hcount, hl.first, hl.last, isJson, Bool.and_self]
  · have hkeys : [js "mode", js "sourceWorkspaceId", js "eventCount", js "firstEventHash",
        js "lastEventHash"].Nodup := by decide +kernel
    exact hkeys

theorem isJson_manifest (h : SafeCounts source) (hl : JsonLineage source) :
    isJson (manifestOf source).value = true := by
  have hlineage : isJson (manifestOf source).auditLineage.value = true := isJson_lineage h hl
  have hdatasets : isJson (.array ((manifestOf source).datasetIds.map .string)) = true :=
    isJson_strings _
  have hblobs : isJson (numberOf (manifestOf source).blobCount) = true := isJson_numberOf h.blobs
  have hbytes : isJson (numberOf (manifestOf source).totalBlobBytes) = true :=
    isJson_numberOf h.bytes
  have hprofile : isJson (manifestOf source).signatureProfile.value = true := rfl
  rw [TrustArchiveManifest.value, isJson, Bool.and_eq_true, decide_eq_true_eq]
  constructor
  · simp only [isJsonMembers, hlineage, hdatasets, hblobs, hbytes, hprofile, isJson_counts h,
      Bool.and_true, Bool.and_self]
    rfl
  · have hkeys : [js "format", js "formatVersion", js "exportId", js "workspaceId",
        js "datasetIds", js "createdAt", js "createdBy", js "sourceVersion",
        js "checksumAlgorithm", js "canonicalJsonProfile", js "signatureProfile",
        js "auditLineage", js "recordCounts", js "blobCount", js "totalBlobBytes"].Nodup := by
      decide +kernel
    exact hkeys

/-- A text file of one canonical object. -/
theorem read_canonical {r : ArchiveRecord} (hr : isJson (.object r) = true) {t : JsString}
    (ht : canonicalJson (.object r) = some t) :
    textDecode (textEncode (t ++ [10])) = some (t ++ [10]) ∧
      parseJson (t ++ [10]) = some (reread (.object r)) := by
  obtain ⟨t', ht', hreads⟩ := encode_reads canonicalEncoder (.object r) hr
  obtain ⟨t'', ht'', -, -, -, hhead, -⟩ := record_line hr
  have heq : t = t' := Option.some.inj (ht.symm.trans ht')
  have heq' : t = t'' := Option.some.inj (ht.symm.trans ht'')
  subst heq heq'
  constructor
  · apply textDecode_textEncode
    · exact isWellFormed_append _ _ hreads.wellFormed rfl
    · rw [List.head?_append, hhead]
      decide
  · have hparse := hreads.parse (t.length + 1 + 1) [10] (by omega) fun h => h.elim
    rw [parseJson, List.length_append, List.length_singleton, hparse]
    rfl

/-- A field of the manifest that is read. -/
theorem property_manifest (h : SafeCounts source) (hl : JsonLineage source) (k : JsString) :
    property (reread (manifestOf source).value) k =
      (property (manifestOf source).value k).map reread :=
  property_reread (isJson_manifest h hl) k

theorem property_lineage (h : SafeCounts source) (hl : JsonLineage source) (k : JsString) :
    property (reread (auditLineage source).value) k =
      (property (auditLineage source).value k).map reread :=
  property_reread (isJson_lineage h hl) k

theorem recordCount_manifest (h : SafeCounts source) (hl : JsonLineage source)
    (kind : ArchiveRecordKind) : recordCount (reread (manifestOf source).value) kind =
      some (numberOf (source.records kind).length) := by
  have hcounts : property (manifestOf source).value (js "recordCounts") =
    some (.object (archiveRecordKinds.map fun kind =>
      (kind.text, numberOf ((manifestOf source).recordCounts kind)))) := rfl
  have hn : ((archiveRecordKinds.map fun kind =>
      (kind.text, numberOf ((manifestOf source).recordCounts kind))).map Prod.fst).Nodup := by
    rw [List.map_map]
    exact kinds_nodup
  have hmem : (kind.text, numberOf ((manifestOf source).recordCounts kind)) ∈
      archiveRecordKinds.map fun kind =>
        (kind.text, numberOf ((manifestOf source).recordCounts kind)) :=
    List.mem_map.mpr ⟨kind, mem_archiveRecordKinds kind, rfl⟩
  rw [recordCount, property_manifest h hl, hcounts, Option.map_some, Option.bind_eq_bind,
    Option.bind_some, property_reread (isJson_counts h), field, lookup_of_mem hn hmem]
  rfl

/-- The manifest passes every check of the reader, and is read as it was written. -/
theorem readManifest_manifest (h : SafeCounts source) (hl : JsonLineage source) {t : JsString}
    (ht : canonicalJson (manifestOf source).value = some t) :
    readManifest (some (textEncode (t ++ [10]))) =
      ([], some (reread (manifestOf source).value)) := by
  have hjson := isJson_manifest h hl
  obtain ⟨hdecode, hparse⟩ : textDecode (textEncode (t ++ [10])) = some (t ++ [10]) ∧
      parseJson (t ++ [10]) = some (reread (manifestOf source).value) := read_canonical hjson ht
  have hformat : property (manifestOf source).value (js "format") =
    some (.string (js "trustarchive")) := rfl
  have hversion : property (manifestOf source).value (js "formatVersion") =
    some (.string (js "0.2")) := rfl
  have halgorithm : property (manifestOf source).value (js "checksumAlgorithm") =
    some (.string (js "sha256")) := rfl
  have hprofile : property (manifestOf source).value (js "canonicalJsonProfile") =
    some (.string (js "trust-core-canonical-json-v1")) := rfl
  have hsignature : property (manifestOf source).value (js "signatureProfile") =
    some (.string (js "unsigned")) := rfl
  have hlineage : property (manifestOf source).value (js "auditLineage") =
    some (auditLineage source).value := rfl
  have hworkspace : property (manifestOf source).value (js "workspaceId") =
    some (.string source.workspaceId) := rfl
  have hmode : property (auditLineage source).value (js "mode") =
    some (.string (js "source_chain")) := rfl
  have hsource : property (auditLineage source).value (js "sourceWorkspaceId") =
    some (.string source.workspaceId) := rfl
  have hcount : property (auditLineage source).value (js "eventCount") =
    some (numberOf (source.records .auditEvents).length) := rfl
  have hcanonical : canonicalJson (reread (manifestOf source).value) = some t := by
    have hsorted : encode canonicalEncoder (reread (manifestOf source).value) =
        encode canonicalEncoder (manifestOf source).value :=
      Columns.encode_sortKeys (Columns.keyOrder_units none none) _ _ hjson
    exact hsorted.trans ht
  have hsafe := isSafeCount_numberOf (h.records .auditEvents)
  have hstring : ∀ s, reread (.string s) = .string s := fun _ => rfl
  rw [readManifest, parseManifest]
  simp only [hdecode, hparse, property_manifest h hl, property_lineage h hl, hformat, hversion,
    halgorithm, hprofile, hsignature, hlineage, hworkspace, hmode, hsource, hcount, hcanonical,
    hsafe, hstring, strictEq_self, reread_numberOf, isUnsignedProfile, Option.map_some, Option.bind_eq_bind,
    Option.bind_some, Bool.true_or, Bool.and_self, Bool.not_true, Bool.false_and,
    Bool.false_eq_true, if_false, if_true, pure, Option.getD_some]

end Manifest

end TrustCore.ArchiveAssemble
