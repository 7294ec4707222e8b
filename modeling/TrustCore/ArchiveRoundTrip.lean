import Mathlib.Algebra.Order.BigOperators.Group.List
import TrustCore.ArchiveManifest

/-!
# Assembled archives verify

What `assembleArchiveEntries` writes, `verifyArchiveEntries` accepts and reads
back: every entry has its line in the checksum file, every record its line in the
file of its kind, every blob its record, and the audit events are the chain that
the manifest names.
-/

namespace TrustCore.ArchiveAssemble

open TrustCore.Utf TrustCore.Json TrustCore.Numbers TrustCore.Dynamic TrustCore.Sha256
open TrustCore.ArchiveFormat TrustCore.ArchiveVerify TrustCore.HashChains

section Entries

variable {localeLe : JsString → JsString → Bool} {source : ArchiveSource} {m m' : EntryMap}

def blobPath (digest : JsString) : JsString := js "blobs/" ++ digest.take 2 ++ js "/" ++ digest

def blobEntry (blob : ArchiveBlobInput) : JsString × Bytes := (blobPath blob.sha256, blob.bytes)

/-- The file of the records of one kind. -/
def recordBytes (localeLe : JsString → JsString → Bool) (source : ArchiveSource)
    (kind : ArchiveRecordKind) : Bytes :=
  textEncode ((recordLines localeLe (source.records kind)).getD [] ++ [10])

def recordEntry (localeLe : JsString → JsString → Bool) (source : ArchiveSource)
    (kind : ArchiveRecordKind) : JsString × Bytes :=
  (recordsPath kind, recordBytes localeLe source kind)

theorem add_eq_some {path : JsString} {bytes : Bytes} (h : m.add path bytes = some m') :
    isSafeArchivePath path = true ∧ m'.entries = m.entries ++ [(path, bytes)] := by
  rw [EntryMap.add] at h
  split at h
  · rename_i hsafe
    split at h
    · cases h
    · cases h
      exact ⟨hsafe, rfl⟩
  · cases h

/-- The bytes of a blob are what its digest and length say. -/
structure BlobMatches (blob : ArchiveBlobInput) : Prop where
  length : blob.bytes.length = blob.byteLength
  digest : sha256 blob.bytes = blob.sha256

theorem addBlob_eq_some {blob : ArchiveBlobInput} (h : addBlob m blob = some m') :
    BlobMatches blob ∧ isSafeArchivePath (blobPath blob.sha256) = true ∧
      m'.entries = m.entries ++ [blobEntry blob] := by
  rw [addBlob] at h
  split at h
  · rename_i hmatch
    obtain ⟨path, hpath, h⟩ := Option.bind_eq_some_iff.mp h
    rw [blobArchivePath] at hpath
    split at hpath
    · cases hpath
      obtain ⟨hsafe, hentries⟩ := add_eq_some h
      exact ⟨⟨hmatch.1, hmatch.2⟩, hsafe, hentries⟩
    · cases hpath
  · cases h

theorem addBlobs_eq_some {blobs : List ArchiveBlobInput} (h : blobs.foldlM addBlob m = some m') :
    (∀ blob ∈ blobs, BlobMatches blob ∧ isSafeArchivePath (blobPath blob.sha256) = true) ∧
      m'.entries = m.entries ++ blobs.map blobEntry := by
  induction blobs generalizing m with
  | nil =>
    cases h
    simp
  | cons blob blobs ih =>
    rw [List.foldlM_cons] at h
    obtain ⟨next, hnext, h⟩ := Option.bind_eq_some_iff.mp h
    obtain ⟨hmatch, hsafe, hentries⟩ := addBlob_eq_some hnext
    obtain ⟨hrest, hrestEntries⟩ := ih h
    constructor
    · intro b hb
      rcases List.mem_cons.mp hb with rfl | hb
      · exact ⟨hmatch, hsafe⟩
      · exact hrest b hb
    · rw [hrestEntries, hentries, List.append_assoc]
      rfl

theorem addRecords_eq_some {kind : ArchiveRecordKind}
    (h : addRecords localeLe source m kind = some m') :
    (source.records kind = [] ∧ m' = m) ∨
      (source.records kind ≠ [] ∧ (∃ lines, recordLines localeLe (source.records kind) = some lines) ∧
        m'.entries = m.entries ++ [recordEntry localeLe source kind]) := by
  rw [addRecords] at h
  split at h
  · rename_i hnil
    cases h
    exact Or.inl ⟨hnil, rfl⟩
  · rename_i hnil
    obtain ⟨lines, hlines, h⟩ := Option.bind_eq_some_iff.mp h
    refine Or.inr ⟨hnil, ⟨lines, hlines⟩, ?_⟩
    rw [(add_eq_some h).2, recordEntry, recordBytes, hlines]
    rfl

theorem addAllRecords_eq_some {kinds : List ArchiveRecordKind}
    (h : kinds.foldlM (addRecords localeLe source) m = some m') :
    (∀ kind ∈ kinds, source.records kind ≠ [] →
      ∃ lines, recordLines localeLe (source.records kind) = some lines) ∧
      m'.entries = m.entries ++ (kinds.filter fun kind => !(source.records kind).isEmpty).map
        (recordEntry localeLe source) := by
  induction kinds generalizing m with
  | nil =>
    cases h
    simp
  | cons kind kinds ih =>
    rw [List.foldlM_cons] at h
    obtain ⟨next, hnext, h⟩ := Option.bind_eq_some_iff.mp h
    obtain ⟨hrest, hrestEntries⟩ := ih h
    rcases addRecords_eq_some hnext with ⟨hnil, rfl⟩ | ⟨hne, hlines, hentries⟩
    · constructor
      · intro k hk hkne
        rcases List.mem_cons.mp hk with rfl | hk
        · exact absurd hnil hkne
        · exact hrest k hk hkne
      · rw [hrestEntries, List.filter_cons_of_neg (by simp [hnil])]
    · constructor
      · intro k hk hkne
        rcases List.mem_cons.mp hk with rfl | hk
        · exact hlines
        · exact hrest k hk hkne
      · rw [hrestEntries, hentries, List.filter_cons_of_pos (by simp [hne]), List.append_assoc]
        rfl

/-- The entries before the checksum file. -/
def listedEntries (localeLe : JsString → JsString → Bool) (source : ArchiveSource)
    (manifestText : JsString) : List (JsString × Bytes) :=
  (source.blobs.insertionSort fun a b => localeLe a.sha256 b.sha256 = true).map blobEntry ++
    (archiveRecordKinds.filter fun kind => !(source.records kind).isEmpty).map
      (recordEntry localeLe source) ++
    [(manifestPath, textEncode (manifestText ++ [10])), (js "README.txt", textEncode readme)]

/-- What the assembler has written. -/
structure Assembled (localeLe : JsString → JsString → Bool) (source : ArchiveSource)
    (entries : EntryMap) (manifestText : JsString) : Prop where
  blobs : ∀ blob ∈ source.blobs, BlobMatches blob
  safe : ∀ blob ∈ source.blobs, isSafeArchivePath (blobPath blob.sha256) = true
  records : ∀ kind, source.records kind ≠ [] →
    ∃ lines, recordLines localeLe (source.records kind) = some lines
  manifest : canonicalJson (manifestOf source).value = some manifestText
  entries : entries.entries = listedEntries localeLe source manifestText ++
    [(checksumsPath, textEncode (checksumText localeLe
      (listedEntries localeLe source manifestText) ++ [10]))]

theorem assembled_of_assemble {entries : EntryMap} {manifest : TrustArchiveManifest}
    (h : assembleArchiveEntries localeLe source = some (entries, manifest)) :
    manifest = manifestOf source ∧
      ∃ manifestText, Assembled localeLe source entries manifestText := by
  rw [assembleArchiveEntries] at h
  obtain ⟨withBlobs, hblobs, h⟩ := Option.bind_eq_some_iff.mp h
  obtain ⟨withRecords, hrecords, h⟩ := Option.bind_eq_some_iff.mp h
  obtain ⟨manifestText, hmanifest, h⟩ := Option.bind_eq_some_iff.mp h
  obtain ⟨withManifest, hadd, h⟩ := Option.bind_eq_some_iff.mp h
  obtain ⟨withReadme, hreadme, h⟩ := Option.bind_eq_some_iff.mp h
  obtain ⟨withChecksums, hchecksums, h⟩ := Option.bind_eq_some_iff.mp h
  cases h
  obtain ⟨hmatches, hblobEntries⟩ := addBlobs_eq_some hblobs
  obtain ⟨hlines, hrecordEntries⟩ := addAllRecords_eq_some hrecords
  have hlisted : withReadme.entries = listedEntries localeLe source manifestText := by
    rw [(add_eq_some hreadme).2, (add_eq_some hadd).2, hrecordEntries, hblobEntries, listedEntries,
      List.append_assoc _ [_] [_]]
    rfl
  refine ⟨rfl, manifestText, ?_, ?_, fun kind => hlines kind (mem_archiveRecordKinds kind),
    hmanifest, ?_⟩
  · intro blob hblob
    exact (hmatches blob ((List.perm_insertionSort _ _).mem_iff.mpr hblob)).1
  · intro blob hblob
    exact (hmatches blob ((List.perm_insertionSort _ _).mem_iff.mpr hblob)).2
  · rw [(add_eq_some hchecksums).2, hlisted]

end Entries

section Paths

variable {localeLe : JsString → JsString → Bool} {source : ArchiveSource} {entries : EntryMap}
  {manifestText : JsString}

/-- The paths that are the same in every archive. -/
theorem fixed_paths : (∀ kind ∈ archiveRecordKinds, PlainPath (recordsPath kind)) ∧
    (∀ kind ∈ archiveRecordKinds, ∀ kind' ∈ archiveRecordKinds,
      recordsPath kind = recordsPath kind' → kind = kind') ∧
    PlainPath manifestPath ∧ PlainPath (js "README.txt") ∧
    isSafeArchivePath checksumsPath = true := by
  decide +kernel

theorem length_fixed : (∀ kind ∈ archiveRecordKinds, (recordsPath kind).length ≤ 50) ∧
    manifestPath.length ≤ 50 ∧ (js "README.txt").length ≤ 50 ∧ readme.length ≤ 200 := by
  decide +kernel

theorem plainPath_records (kind : ArchiveRecordKind) : PlainPath (recordsPath kind) :=
  fixed_paths.1 kind (mem_archiveRecordKinds kind)

theorem recordsPath_injective {kind kind' : ArchiveRecordKind}
    (h : recordsPath kind = recordsPath kind') : kind = kind' :=
  fixed_paths.2.1 kind (mem_archiveRecordKinds kind) kind' (mem_archiveRecordKinds kind') h

theorem plainPath_blob {digest : JsString} (hsafe : isSafeArchivePath (blobPath digest) = true)
    (hdigest : isSha256 digest = true) : PlainPath (blobPath digest) := by
  refine ⟨hsafe, ?_⟩
  intro u hu
  have hhex : ∀ u ∈ digest, 32 < u.toNat ∧ u.toNat < 127 := fun u hu =>
    plain_isLowerHex (isSha256_isLowerHex hdigest u hu)
  rw [blobPath, List.mem_append, List.mem_append, List.mem_append] at hu
  rcases hu with ((hu | hu) | hu) | hu
  · revert u
    decide
  · exact hhex u (List.mem_of_mem_take hu)
  · revert u
    decide
  · exact hhex u hu

theorem mem_listed {path : JsString} {bytes : Bytes} :
    (path, bytes) ∈ listedEntries localeLe source manifestText ↔
      (∃ blob ∈ source.blobs, blobEntry blob = (path, bytes)) ∨
      (∃ kind, source.records kind ≠ [] ∧ recordEntry localeLe source kind = (path, bytes)) ∨
      (manifestPath, textEncode (manifestText ++ [10])) = (path, bytes) ∨
      (js "README.txt", textEncode readme) = (path, bytes) := by
  rw [listedEntries, List.mem_append, List.mem_append, List.mem_map, List.mem_map, or_assoc]
  have hkind : ∀ kind, (!(source.records kind).isEmpty) = true ↔ source.records kind ≠ [] := by
    intro kind
    rw [Bool.not_eq_true', List.isEmpty_eq_false_iff]
  simp only [(List.perm_insertionSort _ _).mem_iff, List.mem_filter, mem_archiveRecordKinds,
    true_and, hkind, List.mem_cons, List.not_mem_nil, or_false, @eq_comm _ (path, bytes)]

theorem plainPath_listed (h : Assembled localeLe source entries manifestText)
    {e : JsString × Bytes} (he : e ∈ listedEntries localeLe source manifestText) :
    PlainPath e.1 := by
  rcases mem_listed.mp he with ⟨blob, hblob, heq⟩ | ⟨kind, -, heq⟩ | heq | heq
  · rw [← congrArg Prod.fst heq]
    apply plainPath_blob (h.safe blob hblob)
    rw [← (h.blobs blob hblob).digest]
    exact isSha256_sha256 _
  · rw [← congrArg Prod.fst heq]
    exact plainPath_records kind
  · rw [← congrArg Prod.fst heq]
    exact fixed_paths.2.2.1
  · rw [← congrArg Prod.fst heq]
    exact fixed_paths.2.2.2.1

theorem get_listed (h : Assembled localeLe source entries manifestText) {path : JsString}
    {bytes : Bytes} (hmem : (path, bytes) ∈ listedEntries localeLe source manifestText) :
    entries.get path = some bytes := by
  apply lookup_of_mem entries.nodup
  rw [h.entries]
  exact List.mem_append_left _ hmem

theorem get_checksumFile (h : Assembled localeLe source entries manifestText) :
    entries.get checksumsPath = some (textEncode (checksumText localeLe
      (listedEntries localeLe source manifestText) ++ [10])) := by
  apply lookup_of_mem entries.nodup
  rw [h.entries]
  exact List.mem_append_right _ (List.mem_singleton_self _)

/-- The first unit tells the five kinds of paths apart. -/
theorem get_eq_none (h : Assembled localeLe source entries manifestText) {path : JsString}
    (hhead : ∀ u ∈ ([98, 109, 82, 99] : List UInt16), path.head? ≠ some u)
    (hrecord : ∀ kind, source.records kind ≠ [] → path ≠ recordsPath kind) :
    entries.get path = none := by
  apply lookup_eq_none
  intro hmem
  obtain ⟨⟨path', bytes⟩, he, rfl⟩ := List.mem_map.mp hmem
  rw [h.entries, List.mem_append, mem_listed, List.mem_singleton] at he
  rcases he with (⟨blob, -, heq⟩ | ⟨kind, hne, heq⟩ | heq | heq) | heq
  · cases heq
    exact hhead 98 (by decide) rfl
  · cases heq
    exact hrecord kind hne rfl
  · cases heq
    exact hhead 109 (by decide) rfl
  · cases heq
    exact hhead 82 (by decide) rfl
  · cases heq
    exact hhead 99 (by decide) rfl

theorem get_absentRecords (h : Assembled localeLe source entries manifestText)
    {kind : ArchiveRecordKind} (hnil : source.records kind = []) :
    entries.get (recordsPath kind) = none := by
  have hrecords : (recordsPath kind).head? = some 114 := rfl
  apply get_eq_none h
  · rw [hrecords]
    decide
  · intro kind' hne hpath
    rw [recordsPath_injective hpath] at hnil
    exact hne hnil

theorem get_signature (h : Assembled localeLe source entries manifestText) :
    entries.get manifestSignaturePath = none := by
  apply get_eq_none h
  · decide
  · intro kind _ hpath
    have hhead : (recordsPath kind).head? = some 114 := rfl
    rw [← hpath] at hhead
    revert hhead
    decide

theorem listed_nodup (h : Assembled localeLe source entries manifestText) :
    ((listedEntries localeLe source manifestText).map Prod.fst).Nodup := by
  have hn := entries.nodup
  rw [h.entries, List.map_append] at hn
  exact (List.nodup_append.mp hn).1

/-- The checksum file is read without an issue, and lists every other entry. -/
theorem readChecksums_assembled (h : Assembled localeLe source entries manifestText) :
    readChecksums (entries.get checksumsPath) =
      ([], digests localeLe (listedEntries localeLe source manifestText)) := by
  rw [get_checksumFile h]
  apply readChecksums_checksumText
  · rw [listedEntries]
    simp
  · exact listed_nodup h
  · exact fun e he => plainPath_listed h he

/-- The digests of all entries that need one are the entries. -/
theorem checksumIssues_digests {entries : EntryMap} {es : List (JsString × Bytes)}
    (hn : (es.map Prod.fst).Nodup) (hget : ∀ e ∈ es, entries.get e.1 = some e.2)
    (hall : ∀ e ∈ entries.entries, isUnchecked e.1 = false → e ∈ es) :
    checksumIssues entries (digests localeLe es) = [] := by
  have hperm := List.perm_insertionSort (fun a b : JsString × Bytes => localeLe a.1 b.1 = true) es
  have hpaths : ((digests localeLe es).map Prod.fst).Nodup := by
    rw [digests, List.map_map]
    exact (hperm.map Prod.fst).nodup_iff.mpr hn
  rw [checksumIssues, List.append_eq_nil_iff, List.flatMap_eq_nil_iff, List.flatMap_eq_nil_iff]
  constructor
  · intro line hline
    obtain ⟨e, he, rfl⟩ := List.mem_map.mp hline
    rw [hget e (hperm.mem_iff.mp he)]
    simp
  · intro e he
    cases hunchecked : isUnchecked e.1 with
    | true => simp
    | false =>
      have hmem := hperm.mem_iff.mpr (hall e he hunchecked)
      rw [lookup_of_mem hpaths (List.mem_map.mpr ⟨e, hmem, rfl⟩)]
      simp

theorem checksumIssues_assembled (h : Assembled localeLe source entries manifestText) :
    checksumIssues entries (digests localeLe (listedEntries localeLe source manifestText)) = [] := by
  apply checksumIssues_digests (listed_nodup h) fun e he => get_listed h he
  intro e he hunchecked
  rw [h.entries, List.mem_append, List.mem_singleton] at he
  rcases he with he | rfl
  · exact he
  · cases hunchecked

end Paths

section Sizes

/-- The archive stays within the limits of the verifier. -/
structure WithinLimits (limits : ArchiveVerificationLimits) (entries : EntryMap) : Prop where
  count : entries.entries.length ≤ limits.maxEntries
  entry : ∀ e ∈ entries.entries, e.2.length ≤ limits.maxEntryBytes
  total : (entries.entries.map fun e => e.2.length).sum ≤ limits.maxTotalBytes

variable {localeLe : JsString → JsString → Bool} {source : ArchiveSource} {entries : EntryMap}
  {manifestText : JsString}

theorem checksumsPath_safe : isSafeArchivePath checksumsPath = true := fixed_paths.2.2.2.2

theorem safe_assembled (h : Assembled localeLe source entries manifestText) {e : JsString × Bytes}
    (he : e ∈ entries.entries) : isSafeArchivePath e.1 = true := by
  rw [h.entries, List.mem_append, List.mem_singleton] at he
  rcases he with hmem | rfl
  · exact (plainPath_listed h hmem).1
  · exact checksumsPath_safe

/-- Nothing is reported of safe paths within the limits, and of nothing else. -/
theorem limitIssues_eq_nil_iff {limits : ArchiveVerificationLimits} :
    limitIssues limits entries = [] ↔
      (∀ e ∈ entries.entries, isSafeArchivePath e.1 = true) ∧ WithinLimits limits entries := by
  simp only [limitIssues, List.append_eq_nil_iff, List.flatMap_eq_nil_iff, ite_eq_right_iff,
    List.cons_ne_nil, imp_false, Nat.not_lt]
  constructor
  · rintro ⟨⟨hcount, hentries⟩, htotal⟩
    refine ⟨?_, hcount, fun e he => (hentries e he).2, htotal⟩
    intro e he
    have hpath := (hentries e he).1
    split at hpath
    · assumption
    · cases hpath
  · rintro ⟨hsafe, hl⟩
    exact ⟨⟨hl.count, fun e he => ⟨if_pos (hsafe e he), hl.entry e he⟩⟩, hl.total⟩

theorem limitIssues_assembled {limits : ArchiveVerificationLimits}
    (h : Assembled localeLe source entries manifestText) (hl : WithinLimits limits entries) :
    limitIssues limits entries = [] :=
  limitIssues_eq_nil_iff.mpr ⟨fun _ he => safe_assembled h he, hl⟩

theorem WithinLimits.perm {limits : ArchiveVerificationLimits} {m : EntryMap}
    (h : WithinLimits limits m) (hm : m.entries.Perm entries.entries) :
    WithinLimits limits entries where
  count := hm.length_eq ▸ h.count
  entry e he := h.entry e (hm.mem_iff.mpr he)
  total := (hm.map fun e : JsString × Bytes => e.2.length).sum_eq ▸ h.total

theorem encodeScalar_ne_nil (n : Nat) : 1 ≤ (encodeScalar n).length := by
  unfold encodeScalar
  split_ifs <;> simp

theorem length_encodeScalar_le (n : Nat) : (encodeScalar n).length ≤ 4 := by
  unfold encodeScalar
  split_ifs <;> simp

theorem length_le_textEncode (s : JsString) : s.length ≤ 2 * (textEncode s).length := by
  have hscalars : s.length ≤ 2 * (scalars s).length := by
    induction s using scalars.induct with
    | case1 => simp
    | case2 u => simp [scalars]
    | case3 u v s hp ih =>
      simp only [scalars, hp, if_true, List.length_cons]
      omega
    | case4 u v s hp ih =>
      simp only [scalars, hp, Bool.false_eq_true, if_false, List.length_cons] at ih ⊢
      omega
  have hbytes : (scalars s).length ≤ (textEncode s).length := by
    rw [textEncode, List.length_flatMap]
    have hsum := List.length_le_sum_of_one_le ((scalars s).map fun n => (encodeScalar n).length)
      (by
        intro i hi
        obtain ⟨n, -, rfl⟩ := List.mem_map.mp hi
        exact encodeScalar_ne_nil n)
    rwa [List.length_map] at hsum
  omega

theorem length_le_joinLines {lines : List JsString} (h : ∀ line ∈ lines, line ≠ []) :
    lines.length ≤ (joinLines lines).length := by
  induction lines with
  | nil => simp
  | cons line lines ih =>
    have hline := List.length_pos_of_ne_nil (h line List.mem_cons_self)
    cases lines with
    | nil => exact hline
    | cons line' lines =>
      have hrest := ih fun l hl => h l (List.mem_cons_of_mem _ hl)
      rw [joinLines_cons (List.cons_ne_nil _ _), List.length_append]
      simp only [List.length_cons] at hrest ⊢
      omega

end Sizes

section Records

variable {localeLe : JsString → JsString → Bool} {source : ArchiveSource} {entries : EntryMap}
  {manifestText : JsString}

/-- The lines of a record file: one for each record, in the order of their ids. -/
theorem recordLines_eq {records : List ArchiveRecord} {text : JsString}
    (h : recordLines localeLe records = some text) :
    ∃ (sorted : List ArchiveRecord) (lines : List JsString),
      sortedRecords localeLe records = some sorted ∧
      (sorted.mapM fun record => canonicalJson (.object record)) = some lines ∧
      text = joinLines lines := by
  obtain ⟨sorted, hsorted, h⟩ := Option.bind_eq_some_iff.mp h
  obtain ⟨lines, hlines, h⟩ := Option.bind_eq_some_iff.mp h
  cases h
  exact ⟨sorted, lines, hsorted, hlines, rfl⟩

/-- A file of records is read as the records that were written. -/
theorem parseRecords_recordLines {records : List ArchiveRecord} (hne : records ≠ [])
    (hjson : ∀ r ∈ records, isJson (.object r) = true) {text : JsString}
    (h : recordLines localeLe records = some text) :
    records.length ≤ text.length ∧ ∃ sorted, sortedRecords localeLe records = some sorted ∧
      parseRecords (textEncode (text ++ [10])) = some (sorted.map fun r => reread (.object r)) := by
  obtain ⟨sorted, lines, hsorted, hlines, rfl⟩ := recordLines_eq h
  have hperm := sortedRecords_perm hsorted
  have hjson' : ∀ r ∈ sorted, isJson (.object r) = true := fun r hr =>
    hjson r (hperm.mem_iff.mp hr)
  obtain ⟨hshape, hparsed⟩ := forall₂_lines hjson' hlines
  have hlength : lines.length = records.length := by
    rw [← hperm.length_eq, (ImportReferences.mapM_eq_some hlines).length_eq]
  have hnil : ∀ line ∈ lines, line ≠ [] := by
    intro line hline hnil
    have hhead := (hshape line hline).2.2.2
    rw [hnil] at hhead
    cases hhead
  refine ⟨hlength ▸ length_le_joinLines hnil, sorted, hsorted, ?_⟩
  cases lines with
  | nil => exact absurd (List.length_eq_zero_iff.mp hlength.symm) hne
  | cons line lines =>
    have hlast : ∃ l ∈ (line :: lines).getLast?, EndsVisible l :=
      ⟨_, List.getLast?_eq_some_getLast (List.cons_ne_nil _ _),
        (hshape _ (List.getLast_mem _)).2.1⟩
    obtain ⟨text, htext, hsplit⟩ := @lines_of_text line lines (hnil line List.mem_cons_self)
      (fun l hl => (hshape l hl).1) hlast (fun l hl => (hshape l hl).2.2.1)
      (by rw [(hshape line List.mem_cons_self).2.2.2]; decide)
    have hfilter : (line :: lines).filter (fun l => l != []) = line :: lines := by
      rw [List.filter_eq_self]
      intro l hl
      exact bne_iff_ne.mpr (hnil l hl)
    rw [parseRecords, htext, Option.bind_eq_bind, Option.bind_some, hsplit, hfilter]
    exact hparsed

/-- A source whose records fit together. -/
structure WellFormedSource (source : ArchiveSource) : Prop where
  json : ∀ kind, ∀ r ∈ source.records kind, isJson (.object r) = true
  scope : ∀ kind, ∀ r ∈ source.records kind, ∀ v, r.lookup (js "workspaceId") = some v →
    v = .string source.workspaceId
  resources : ∀ r ∈ source.records .revisions, ∃ id, field r (js "resourceId") = .string id ∧
    ∃ resource ∈ source.records .resources, field resource (js "id") = .string id
  parents : ∀ r ∈ source.records .revisions, ∀ id, field r (js "parentRevisionId") = .string id →
    ∃ parent ∈ source.records .revisions, field parent (js "id") = .string id
  blobs : ((source.records .blobs).map fun r =>
      (field r (js "sha256"), field r (js "byteLength"))).Perm
    (source.blobs.map fun blob => (.string blob.sha256, numberOf blob.byteLength))
  events : OneChain (source.records .auditEvents)

theorem records_length (h : Assembled localeLe source entries manifestText)
    (hjson : ∀ kind, ∀ r ∈ source.records kind, isJson (.object r) = true)
    (hl : WithinLimits defaults entries) (kind : ArchiveRecordKind) :
    (source.records kind).length < 2 ^ 53 := by
  by_cases hnil : source.records kind = []
  · rw [hnil]
    decide
  · obtain ⟨text, htext⟩ := h.records kind hnil
    obtain ⟨hlength, -⟩ := parseRecords_recordLines hnil (hjson kind) htext
    have hmem : recordEntry localeLe source kind ∈ entries.entries := by
      rw [h.entries]
      exact List.mem_append_left _ (mem_listed.mpr (Or.inr (Or.inl ⟨kind, hnil, rfl⟩)))
    have hentry : (textEncode (text ++ [10])).length ≤ 2 * 1024 * 1024 * 1024 := by
      have hle := hl.entry _ hmem
      rwa [recordEntry, recordBytes, htext] at hle
    have hunits := length_le_textEncode (text ++ [10])
    rw [List.length_append, List.length_singleton] at hunits
    omega

theorem safeCounts (h : Assembled localeLe source entries manifestText)
    (hjson : ∀ kind, ∀ r ∈ source.records kind, isJson (.object r) = true)
    (hl : WithinLimits defaults entries) : SafeCounts source := by
  have hperm := List.perm_insertionSort
    (fun a b : ArchiveBlobInput => localeLe a.sha256 b.sha256 = true) source.blobs
  refine ⟨records_length h hjson hl, ?_, ?_⟩
  · have hcount : entries.entries.length ≤ 100000 := hl.count
    rw [h.entries, listedEntries] at hcount
    simp only [List.length_append, List.length_map, hperm.length_eq] at hcount
    omega
  · have htotal : (entries.entries.map fun e => e.2.length).sum ≤ 20 * 1024 * 1024 * 1024 := hl.total
    have hbytes : (source.blobs.map ArchiveBlobInput.byteLength).sum =
        (((source.blobs.insertionSort fun a b => localeLe a.sha256 b.sha256 = true).map
          blobEntry).map fun e => e.2.length).sum := by
      rw [List.map_map, (hperm.map _).sum_eq]
      congr 1
      exact List.map_congr_left fun blob hblob => (h.blobs blob hblob).length.symm
    rw [h.entries, listedEntries] at htotal
    simp only [List.map_append, List.sum_append] at htotal
    omega

/-- The records of one kind are read as they were written. -/
theorem readRecords_assembled (h : Assembled localeLe source entries manifestText)
    (hjson : ∀ kind, ∀ r ∈ source.records kind, isJson (.object r) = true)
    (hcounts : SafeCounts source) (hl : JsonLineage source) (kind : ArchiveRecordKind) :
    ∃ sorted, sortedRecords localeLe (source.records kind) = some sorted ∧
      readRecords entries (some (reread (manifestOf source).value)) kind =
        some ([], sorted.map fun r => reread (.object r)) := by
  have hcount := recordCount_manifest hcounts hl kind
  by_cases hnil : source.records kind = []
  · refine ⟨[], by rw [hnil]; rfl, ?_⟩
    rw [hnil] at hcount
    simp only [readRecords, get_absentRecords h hnil, hcount, Option.bind_eq_bind, Option.bind_some]
    have hzero : strictEq (numberOf 0) (numberOf 0) = true := strictEq_numberOf (by decide)
    simp only [List.length_nil, hzero, Bool.or_true, if_true]
    rfl
  · obtain ⟨text, htext⟩ := h.records kind hnil
    obtain ⟨-, sorted, hsorted, hparsed⟩ := parseRecords_recordLines hnil (hjson kind) htext
    have hperm := sortedRecords_perm hsorted
    have hget : entries.get (recordsPath kind) = some (textEncode (text ++ [10])) := by
      apply get_listed h
      rw [mem_listed]
      refine Or.inr (Or.inl ⟨kind, hnil, ?_⟩)
      rw [recordEntry, recordBytes, htext]
      rfl
    refine ⟨sorted, hsorted, ?_⟩
    simp only [readRecords, hget, hparsed, hcount, List.length_map, hperm.length_eq,
      strictEq_numberOf (hcounts.records kind), if_true]

theorem readAllRecords_assembled (h : Assembled localeLe source entries manifestText)
    (hjson : ∀ kind, ∀ r ∈ source.records kind, isJson (.object r) = true)
    (hcounts : SafeCounts source) (hl : JsonLineage source) :
    ∃ sorted : Records, (∀ kind, sortedRecords localeLe (source.records kind) = some (sorted kind)) ∧
      readAllRecords entries (some (reread (manifestOf source).value)) =
        some fun kind => ([], (sorted kind).map fun r => reread (.object r)) := by
  choose sorted hsorted hread using readRecords_assembled h hjson hcounts hl
  refine ⟨sorted, hsorted, ?_⟩
  rw [readAllRecords, mapM_of_forall fun kind _ => hread kind, Option.bind_eq_bind,
    Option.bind_some]
  congr 1
  funext kind
  cases kind <;> rfl

end Records

section Checks

variable {localeLe : JsString → JsString → Bool} {source : ArchiveSource} {entries : EntryMap}
  {manifestText : JsString} {sorted : Records}

@[simp] theorem asString_reread (v : JsValue) : asString (reread v) = asString v := by
  cases v <;> rfl

@[simp] theorem reread_string (s : JsString) : reread (.string s) = .string s := rfl

theorem column_reread {rs : List ArchiveRecord} (hjson : ∀ r ∈ rs, isJson (.object r) = true)
    (k : JsString) : column (rs.map fun r => reread (.object r)) k =
      some (rs.map fun r => reread (field r k)) := by
  rw [column, List.mapM_map]
  exact mapM_of_forall fun r hr => property_reread (hjson r hr) k

theorem json_sorted (hs : WellFormedSource source)
    (hperm : ∀ kind, (sorted kind).Perm (source.records kind)) (kind : ArchiveRecordKind) :
    ∀ r ∈ sorted kind, isJson (.object r) = true := fun r hr =>
  hs.json kind r ((hperm kind).mem_iff.mp hr)

theorem validateScope_reread {r : ArchiveRecord} (hjson : isJson (.object r) = true)
    {workspaceId : JsString} (hscope : ∀ v, r.lookup (js "workspaceId") = some v →
      v = .string workspaceId) (kind : ArchiveRecordKind) :
    validateScope (.string workspaceId) kind (reread (.object r)) = some [] := by
  rw [validateScope, hasProperty_reread hjson, property_reread hjson, field]
  cases hlookup : r.lookup (js "workspaceId") with
  | none => rfl
  | some v =>
    rw [hscope v hlookup]
    simp [strictEq]

theorem mem_ids {rs : List ArchiveRecord} {id : JsString}
    (h : ∃ r ∈ rs, field r (js "id") = .string id) :
    ((rs.map fun r => reread (field r (js "id"))).filterMap asString).contains id = true := by
  obtain ⟨r, hr, hid⟩ := h
  rw [List.contains_iff_mem, List.mem_filterMap]
  exact ⟨_, List.mem_map_of_mem hr, by rw [hid]; rfl⟩

theorem validateRevision_reread {r : ArchiveRecord} (hjson : isJson (.object r) = true)
    {resources revisions : List JsString}
    (hresource : ∃ id, field r (js "resourceId") = .string id ∧ resources.contains id = true)
    (hparent : ∀ id, field r (js "parentRevisionId") = .string id → revisions.contains id = true) :
    validateRevision resources revisions (reread (.object r)) = some [] := by
  obtain ⟨id, hid, hmem⟩ := hresource
  rw [validateRevision, property_reread hjson, property_reread hjson, hid]
  simp only [reread_string, Option.bind_eq_bind, Option.bind_some, hmem, if_true, List.nil_append]
  cases hp : field r (js "parentRevisionId") with
  | string parent => simp only [reread_string, hparent parent hp, if_true, pure]
  | undefined => rfl
  | null => rfl
  | bool b => rfl
  | number n => rfl
  | array items => rfl
  | object members => rfl

/-- The scope and the references of a source hold in whatever order they are read. -/
theorem validateScopeAndReferences_assembled (hs : WellFormedSource source)
    (hcounts : SafeCounts source) (hb : Boundary source)
    (hperm : ∀ kind, (sorted kind).Perm (source.records kind)) :
    validateScopeAndReferences (reread (manifestOf source).value)
      (fun kind => (sorted kind).map fun r => reread (.object r)) = some [] := by
  have hjson := json_sorted hs hperm
  have hworkspace : property (reread (manifestOf source).value) (js "workspaceId") =
      some (.string source.workspaceId) := by
    rw [property_manifest hcounts hb.json]
    rfl
  have hscopes : ∀ kind ∈ archiveRecordKinds,
      (((sorted kind).map fun r => reread (.object r)).mapM
        (validateScope (.string source.workspaceId) kind)) =
      some ((sorted kind).map fun _ => ([] : List ArchiveIssue)) := by
    intro kind _
    rw [List.mapM_map]
    apply mapM_of_forall
    intro r hr
    exact validateScope_reread (hjson kind r hr)
      (hs.scope kind r ((hperm kind).mem_iff.mp hr)) kind
  have hrevisions : (((sorted .revisions).map fun r => reread (.object r)).mapM
      (validateRevision
        (((sorted .resources).map fun r => reread (field r (js "id"))).filterMap asString)
        (((sorted .revisions).map fun r => reread (field r (js "id"))).filterMap asString))) =
      some ((sorted .revisions).map fun _ => ([] : List ArchiveIssue)) := by
    rw [List.mapM_map]
    apply mapM_of_forall
    intro r hr
    have hr' := (hperm .revisions).mem_iff.mp hr
    apply validateRevision_reread (hjson .revisions r hr)
    · obtain ⟨id, hid, resource, hmem, hresource⟩ := hs.resources r hr'
      exact ⟨id, hid, mem_ids ⟨resource, (hperm .resources).mem_iff.mpr hmem, hresource⟩⟩
    · intro id hid
      obtain ⟨parent, hmem, hparent⟩ := hs.parents r hr' id hid
      exact mem_ids ⟨parent, (hperm .revisions).mem_iff.mpr hmem, hparent⟩
  have hflat : ∀ rs : List ArchiveRecord, (rs.map fun _ => ([] : List ArchiveIssue)).flatten = [] := by
    intro rs
    simp
  rw [validateScopeAndReferences, column_reread (hjson .resources), column_reread (hjson .revisions),
    hworkspace]
  simp only [Option.bind_eq_bind, Option.bind_some, mapM_of_forall hscopes, hrevisions, hflat]
  simp

/-- The length of the bytes that a digest names. -/
def storedLength (entries : EntryMap) (digest : JsValue) : Nat :=
  ((entries.get (blobPath ((asString digest).getD []))).getD []).length

theorem get_blob (h : Assembled localeLe source entries manifestText) {blob : ArchiveBlobInput}
    (hblob : blob ∈ source.blobs) : entries.get (blobPath blob.sha256) = some blob.bytes :=
  get_listed h (mem_listed.mpr (Or.inl ⟨blob, hblob, rfl⟩))

theorem storedLength_blob (h : Assembled localeLe source entries manifestText)
    {blob : ArchiveBlobInput} (hblob : blob ∈ source.blobs) :
    storedLength entries (.string blob.sha256) = blob.byteLength := by
  rw [storedLength, asString, Option.getD_some, get_blob h hblob, Option.getD_some,
    (h.blobs blob hblob).length]

theorem validateBlob_reread (h : Assembled localeLe source entries manifestText)
    (hcounts : SafeCounts source) {r : ArchiveRecord} (hjson : isJson (.object r) = true)
    {blob : ArchiveBlobInput} (hblob : blob ∈ source.blobs)
    (hdigest : field r (js "sha256") = .string blob.sha256)
    (hlength : field r (js "byteLength") = numberOf blob.byteLength) :
    validateBlob entries (reread (.object r)) = some ([], blob.byteLength) := by
  have hmatch := h.blobs blob hblob
  have hsha : isSha256 blob.sha256 = true := by
    rw [← hmatch.digest]
    exact isSha256_sha256 _
  have hpath : blobArchivePath blob.sha256 = some (blobPath blob.sha256) := by
    rw [blobArchivePath, if_pos hsha]
    rfl
  have hsmall : blob.byteLength < 2 ^ 53 :=
    lt_of_le_of_lt (List.single_le_sum (fun _ _ => Nat.zero_le _) _ (List.mem_map_of_mem hblob)) hcounts.bytes
  obtain ⟨d, hd, hnumber, -⟩ := numberOf_finite hsmall
  have hequal : strictEq (numberOf blob.byteLength) (.number (.finite d hd)) = true := by
    rw [← hnumber]
    exact strictEq_numberOf hsmall
  rw [validateBlob, property_reread hjson, property_reread hjson, hdigest, hlength,
    reread_numberOf, reread_string, hnumber]
  simp only [Option.bind_eq_bind, Option.bind_some, hpath, get_blob h hblob, hmatch.length,
    hmatch.digest, hequal, BEq.rfl, Bool.and_self, if_true]

theorem validateBlobs_assembled (h : Assembled localeLe source entries manifestText)
    (hs : WellFormedSource source) (hcounts : SafeCounts source) (hb : Boundary source)
    (hperm : ∀ kind, (sorted kind).Perm (source.records kind)) :
    validateBlobs (some (reread (manifestOf source).value))
      ((sorted .blobs).map fun r => reread (.object r)) entries = some [] := by
  have hpairs := ((hperm .blobs).map fun r =>
    (field r (js "sha256"), field r (js "byteLength"))).trans hs.blobs
  have hchecked : (((sorted .blobs).map fun r => reread (.object r)).mapM (validateBlob entries)) =
      some ((sorted .blobs).map fun r =>
        (([] : List ArchiveIssue), storedLength entries (field r (js "sha256")))) := by
    rw [List.mapM_map]
    apply mapM_of_forall
    intro r hr
    have hmem := hpairs.mem_iff.mp (List.mem_map_of_mem hr)
    obtain ⟨blob, hblob, hpair⟩ := List.mem_map.mp hmem
    rw [Prod.mk.injEq] at hpair
    rw [← hpair.1, storedLength_blob h hblob]
    exact validateBlob_reread h hcounts (json_sorted hs hperm .blobs r hr) hblob hpair.1.symm
      hpair.2.symm
  have hcount : (sorted .blobs).length = source.blobs.length := by
    have hlength := hpairs.length_eq
    rwa [List.length_map, List.length_map] at hlength
  have htotal : ((sorted .blobs).map fun r => storedLength entries (field r (js "sha256"))).sum =
      (source.blobs.map ArchiveBlobInput.byteLength).sum := by
    have hsum := (hpairs.map fun p => storedLength entries p.1).sum_eq
    rw [List.map_map, List.map_map] at hsum
    have hlengths : source.blobs.map ((fun p : JsValue × JsValue => storedLength entries p.1) ∘
        fun blob => (.string blob.sha256, numberOf blob.byteLength)) =
        source.blobs.map ArchiveBlobInput.byteLength :=
      List.map_congr_left fun blob hblob => storedLength_blob h hblob
    rw [hlengths] at hsum
    exact hsum
  have hmanifestCount : property (reread (manifestOf source).value) (js "blobCount") =
      some (numberOf source.blobs.length) := by
    rw [property_manifest hcounts hb.json]
    rfl
  have hmanifestTotal : property (reread (manifestOf source).value) (js "totalBlobBytes") =
      some (numberOf (source.blobs.map ArchiveBlobInput.byteLength).sum) := by
    rw [property_manifest hcounts hb.json]
    rfl
  rw [validateBlobs, hchecked]
  simp only [Option.bind_eq_bind, Option.bind_some, hmanifestCount, hmanifestTotal, List.map_map,
    List.length_map, hcount, Function.comp_def, htotal, strictEq_numberOf hcounts.blobs,
    strictEq_numberOf hcounts.bytes, Bool.and_self, if_true, pure, List.append_nil]
  simp

theorem reread_hash {p : EventPair} (h : Linked p) : reread p.1 = p.1 := by
  obtain ⟨s, hs, -⟩ := h.hash
  rw [hs, reread_string]

theorem reread_previous {p : EventPair} (h : Linked p) : reread p.2 = p.2 := by
  rcases h.previous with hn | ⟨s, hs, -⟩
  · cases hv : p.2 <;> rw [hv] at hn <;> first | rfl | cases hn
  · rw [hs, reread_string]

/-- The lineage of the manifest is the chain of the events that were read. -/
theorem validateAuditLineage_assembled (hs : WellFormedSource source)
    (hcounts : SafeCounts source) (hb : Boundary source)
    (hperm : ∀ kind, (sorted kind).Perm (source.records kind)) :
    validateAuditLineage (reread (manifestOf source).value)
      ((sorted .auditEvents).map fun r => reread (.object r)) = some [] := by
  have hlineage : property (reread (manifestOf source).value) (js "auditLineage") =
      some (reread (auditLineage source).value) := by
    rw [property_manifest hcounts hb.json]
    rfl
  have hcount : property (reread (auditLineage source).value) (js "eventCount") =
      some (numberOf (source.records .auditEvents).length) := by
    rw [property_lineage hcounts hb.json]
    rfl
  have hfirst : property (reread (auditLineage source).value) (js "firstEventHash") =
      some (reread (auditLineage source).firstEventHash) := by
    rw [property_lineage hcounts hb.json]
    rfl
  have hlast : property (reread (auditLineage source).value) (js "lastEventHash") =
      some (reread (auditLineage source).lastEventHash) := by
    rw [property_lineage hcounts hb.json]
    rfl
  have hjson := json_sorted hs hperm .auditEvents
  rw [validateAuditLineage, hlineage]
  simp only [Option.bind_eq_bind, Option.bind_some, hcount, List.length_map,
    (hperm .auditEvents).length_eq, strictEq_numberOf (hcounts.records .auditEvents), if_true,
    column_reread hjson, hfirst, hlast]
  cases hb with
  | empty hevents hnoFirst hnoLast =>
    have hnil : sorted .auditEvents = [] := by
      have hp := hperm .auditEvents
      rw [hevents] at hp
      exact hp.eq_nil
    rw [hnil, hnoFirst, hnoLast]
    rfl
  | chain h hs hpairs hheadHash hlastHash =>
    have hp := (hperm .auditEvents).map pairOf
    have hsorted : ChainPairs (h :: hs) ((sorted .auditEvents).map pairOf) :=
      ⟨fun p hmem => hpairs.linked p (hp.mem_iff.mp hmem), hpairs.nodup,
        (hp.map linkOf).trans hpairs.perm⟩
    have hhashes : ((sorted .auditEvents).map fun r => reread (field r (js "eventHash"))) =
        ((sorted .auditEvents).map pairOf).map Prod.fst := by
      rw [List.map_map]
      exact List.map_congr_left fun r hr =>
        reread_hash (hsorted.linked _ (List.mem_map_of_mem hr))
    have hprevious : ((sorted .auditEvents).map fun r =>
        reread (field r (js "previousEventHash"))) =
        ((sorted .auditEvents).map pairOf).map Prod.snd := by
      rw [List.map_map]
      exact List.map_congr_left fun r hr =>
        reread_previous (hsorted.linked _ (List.mem_map_of_mem hr))
    have hne : ((sorted .auditEvents).map fun r => reread (.object r)) ≠ [] := by
      intro hnil
      rw [List.map_eq_nil_iff] at hnil
      have hlinks := hsorted.perm
      rw [hnil] at hlinks
      cases hlinks.symm.eq_nil
    rw [hheadHash, reread_string] at hfirst
    rw [hlastHash, reread_string] at hlast
    rw [if_neg hne, hhashes, hprevious, chainIssues_eq_nil hsorted hfirst hlast]
    rfl

theorem profileIssues_assembled (h : Assembled localeLe source entries manifestText)
    (hcounts : SafeCounts source) (hb : Boundary source) :
    profileIssues entries false (some (reread (manifestOf source).value)) = [] := by
  have hunsigned : isUnsigned (reread (manifestOf source).value) = true := by
    rw [isUnsigned, property_manifest hcounts hb.json]
    rfl
  rw [profileIssues, hunsigned, get_signature h]
  rfl

/-- The report on an assembled archive. -/
theorem verifyArchiveEntries_assembled (ha : Assembled localeLe source entries manifestText)
    (hs : WellFormedSource source) (hl : WithinLimits defaults entries) :
    ∃ sorted : Records, (∀ kind, sortedRecords localeLe (source.records kind) = some (sorted kind)) ∧
      verifyArchiveEntries entries defaults = some {
        valid := true
        checkedEntries := (digests localeLe (listedEntries localeLe source manifestText)).length
        issues := []
        manifest := some (reread (manifestOf source).value)
        records := fun kind => (sorted kind).map fun r => reread (.object r) } := by
  have hcounts := safeCounts ha hs.json hl
  have hb := boundary_of_oneChain hs.events
  obtain ⟨sorted, hsorted, hread⟩ := readAllRecords_assembled ha hs.json hcounts hb.json
  have hperm := fun kind => sortedRecords_perm (hsorted kind)
  have hmanifest : readManifest (entries.get manifestPath) =
      ([], some (reread (manifestOf source).value)) := by
    rw [get_listed ha (mem_listed.mpr (Or.inr (Or.inr (Or.inl rfl))))]
    exact readManifest_manifest hcounts hb.json ha.manifest
  have hrecords : validateRecords (some (reread (manifestOf source).value))
      (fun kind => (sorted kind).map fun r => reread (.object r)) = some [] := by
    rw [validateRecords, validateScopeAndReferences_assembled hs hcounts hb hperm,
      validateAuditLineage_assembled hs hcounts hb hperm]
    rfl
  have hblobs := validateBlobs_assembled ha hs hcounts hb hperm
  refine ⟨sorted, hsorted, ?_⟩
  rw [verifyArchiveEntries, verifyArchiveEntriesBase, readChecksums_assembled ha, hmanifest]
  simp only [hread, hrecords, hblobs, Option.bind_eq_bind, Option.bind_some,
    limitIssues_assembled ha hl, checksumIssues_assembled ha,
    profileIssues_assembled ha hcounts hb]
  rfl

end Checks

/-- A source that fits together and the limits is assembled to a valid archive, from which
the manifest and the records are read back, up to the order of keys and of records. -/
theorem assembled_archive_verifies (localeLe : JsString → JsString → Bool) (source : ArchiveSource)
    (entries : EntryMap) (manifest : TrustArchiveManifest)
    (h : assembleArchiveEntries localeLe source = some (entries, manifest))
    (hs : WellFormedSource source) (hl : WithinLimits defaults entries) :
    ∃ report, verifyArchiveEntries entries defaults = some report ∧ report.valid = true ∧
      report.manifest = some (reread manifest.value) ∧
      ∀ kind, (report.records kind).Perm
        ((source.records kind).map fun r => reread (.object r)) := by
  obtain ⟨rfl, manifestText, ha⟩ := assembled_of_assemble h
  obtain ⟨sorted, hsorted, hreport⟩ := verifyArchiveEntries_assembled ha hs hl
  exact ⟨_, hreport, rfl, rfl, fun kind => (sortedRecords_perm (hsorted kind)).map _⟩

/-- A revision with its resource, a blob of one byte, and two events, the later first. -/
def sampleSource : ArchiveSource where
  exportId := js "e"
  workspaceId := js "w"
  datasetIds := []
  createdAt := js "t"
  createdBy := js "u"
  sourceVersion := js "0.3"
  records := fun kind =>
    match kind with
    | .resources => [[(js "id", .string (js "r")), (js "workspaceId", .string (js "w"))]]
    | .revisions => [[(js "resourceId", .string (js "r")), (js "id", .string (js "v"))]]
    | .blobs => [[(js "sha256", .string (sha256 [7])), (js "byteLength", numberOf 1)]]
    | .auditEvents => [chainedEvent (digestOf 98) (.string (digestOf 97)),
        chainedEvent (digestOf 97) .null]
    | _ => []
  blobs := [⟨sha256 [7], 1, [7]⟩]

theorem sampleSource_wellFormed : WellFormedSource sampleSource where
  json := by
    have hall : ∀ kind ∈ archiveRecordKinds, ∀ r ∈ sampleSource.records kind,
        isJson (.object r) = true := by decide +kernel
    exact fun kind => hall kind (mem_archiveRecordKinds kind)
  scope := by
    have hall : ∀ kind ∈ archiveRecordKinds, ∀ r ∈ sampleSource.records kind,
        (r.lookup (js "workspaceId")).all (strictEq · (.string (js "w"))) = true := by
      decide +kernel
    intro kind r hr v hv
    have hsame := hall kind (mem_archiveRecordKinds kind) r hr
    rw [hv] at hsame
    exact eq_of_strictEq hsame
  resources := by
    intro r hr
    cases List.mem_singleton.mp hr
    exact ⟨js "r", rfl, _, List.mem_singleton_self _, rfl⟩
  parents := by
    intro r hr id hid
    cases List.mem_singleton.mp hr
    cases hid
  blobs := List.Perm.refl _
  events := by
    refine ⟨[chainedEvent (digestOf 97) .null, chainedEvent (digestOf 98) (.string (digestOf 97))],
      List.Perm.swap _ _ _, ?_, ?_, ?_, ?_⟩
    · intro event hevent
      rcases List.mem_cons.mp hevent with rfl | hevent
      · exact ⟨digestOf 97, rfl, by decide⟩
      · cases List.mem_singleton.mp hevent
        exact ⟨digestOf 98, rfl, by decide⟩
    · decide +kernel
    · intro root hroot
      cases hroot
      rfl
    · exact List.isChain_cons_cons.mpr ⟨rfl, List.isChain_singleton _⟩

/-- At most `n` entries, of at most `n` bytes together. -/
def isSmall (n : Nat) (entries : EntryMap) : Bool :=
  decide (entries.entries.length ≤ n) &&
    decide ((entries.entries.map fun e => e.2.length).sum ≤ n)

theorem withinLimits_of_isSmall {n : Nat} (hn : n ≤ 100000) {entries : EntryMap}
    (h : isSmall n entries = true) : WithinLimits defaults entries := by
  rw [isSmall, Bool.and_eq_true, decide_eq_true_eq, decide_eq_true_eq] at h
  have hentry : ∀ e ∈ entries.entries, e.2.length ≤ n := fun e he =>
    le_trans (List.single_le_sum (fun _ _ => Nat.zero_le _) _ (List.mem_map.mpr ⟨e, he, rfl⟩)) h.2
  have hbytes : n ≤ 2 * 1024 * 1024 * 1024 := by omega
  have htotal : n ≤ 20 * 1024 * 1024 * 1024 := by omega
  exact ⟨le_trans h.1 hn, fun e he => le_trans (hentry e he) hbytes, le_trans h.2 htotal⟩

theorem length_textEncode_le (s : JsString) : (textEncode s).length ≤ 4 * s.length := by
  have hscalars : (scalars s).length ≤ s.length := by
    induction s using scalars.induct with
    | case1 => simp [scalars]
    | case2 u => simp [scalars]
    | case3 u v s hp ih =>
      simp only [scalars, hp, if_true, List.length_cons]
      omega
    | case4 u v s hp ih =>
      simp only [scalars, hp, Bool.false_eq_true, if_false, List.length_cons] at ih ⊢
      omega
  have hbytes : (textEncode s).length ≤ (scalars s).length * 4 := by
    rw [textEncode, List.length_flatMap]
    have hsum := List.sum_le_card_nsmul ((scalars s).map fun n => (encodeScalar n).length) 4 (by
      intro i hi
      obtain ⟨n, -, rfl⟩ := List.mem_map.mp hi
      exact length_encodeScalar_le n)
    rwa [List.length_map, nsmul_eq_mul, Nat.cast_id] at hsum
  omega

theorem length_joinLines_le (lines : List JsString) :
    (joinLines lines).length ≤ (lines.map fun line => line.length + 1).sum := by
  induction lines with
  | nil => simp [joinLines]
  | cons line lines ih =>
    by_cases hnil : lines = []
    · simp [hnil, joinLines]
    · rw [joinLines_cons hnil, List.map_cons, List.sum_cons, List.length_append, List.length_cons]
      omega

/-- The units of the record files. -/
def recordUnits (localeLe : JsString → JsString → Bool) (source : ArchiveSource) : Nat :=
  (archiveRecordKinds.map fun kind =>
    ((recordLines localeLe (source.records kind)).getD []).length + 1).sum

theorem length_blobPath {blob : ArchiveBlobInput} (h : BlobMatches blob) :
    (blobPath blob.sha256).length ≤ 100 := by
  have hsha : blob.sha256.length = 64 := by
    rw [← h.digest]
    exact isSha256_length (isSha256_sha256 _)
  have htexts : (js "blobs/").length = 6 ∧ (js "/").length = 1 := by decide
  rw [blobPath]
  simp only [List.length_append, List.length_take]
  omega

/-- Every path that the assembler lists has at most a hundred units. -/
theorem length_listedPath {localeLe : JsString → JsString → Bool} {source : ArchiveSource}
    {entries : EntryMap} {manifestText : JsString}
    (h : Assembled localeLe source entries manifestText) :
    ∀ e ∈ listedEntries localeLe source manifestText, e.1.length ≤ 100 := by
  obtain ⟨hpaths, hmanifest, hreadme, -⟩ := length_fixed
  intro e he
  rw [listedEntries, List.mem_append, List.mem_append, List.mem_map, List.mem_map] at he
  obtain (⟨blob, hblob, rfl⟩ | ⟨kind, hkind, rfl⟩) | he := he
  · exact length_blobPath (h.blobs blob ((List.perm_insertionSort _ _).mem_iff.mp hblob))
  · exact le_trans (hpaths kind (List.mem_of_mem_filter hkind)) (by decide)
  · simp only [List.mem_cons, List.not_mem_nil, or_false] at he
    rcases he with rfl | rfl
    · exact le_trans hmanifest (by decide)
    · exact le_trans hreadme (by decide)

theorem length_listedEntries (localeLe : JsString → JsString → Bool) {source : ArchiveSource}
    (manifestText : JsString) (hblobs : source.blobs.length ≤ 8) :
    (listedEntries localeLe source manifestText).length ≤ 21 := by
  have hkinds : archiveRecordKinds.length = 11 := rfl
  have hfilter := List.length_filter_le (fun kind => !(source.records kind).isEmpty)
    archiveRecordKinds
  rw [listedEntries, List.length_append, List.length_append, List.length_map, List.length_map,
    List.length_insertionSort, List.length_cons, List.length_singleton]
  omega

/-- The archive of short records and few blobs is small. -/
theorem isSmall_of_texts {localeLe : JsString → JsString → Bool} {source : ArchiveSource}
    {entries : EntryMap} {manifestText : JsString}
    (h : Assembled localeLe source entries manifestText) (hblobs : source.blobs.length ≤ 8)
    (hbytes : (source.blobs.map fun blob => blob.bytes.length).sum ≤ 1000)
    (hunits : recordUnits localeLe source + manifestText.length ≤ 10000) :
    isSmall 60000 entries = true := by
  have hreadmeUnits := length_fixed.2.2.2
  have hcount := length_listedEntries localeLe manifestText hblobs
  have hblobBytes : (((source.blobs.insertionSort fun a b => localeLe a.sha256 b.sha256 = true).map
      blobEntry).map fun e => e.2.length).sum ≤ 1000 := by
    rw [List.map_map, (((List.perm_insertionSort _ source.blobs).map _).sum_eq)]
    exact hbytes
  have hrecords : (((archiveRecordKinds.filter fun kind => !(source.records kind).isEmpty).map
      (recordEntry localeLe source)).map fun e => e.2.length).sum ≤
        4 * recordUnits localeLe source := by
    rw [List.map_map, recordUnits, ← List.sum_map_mul_left]
    refine le_trans (List.sum_le_sum (g := fun kind =>
      4 * (((recordLines localeLe (source.records kind)).getD []).length + 1)) ?_)
      ((List.filter_sublist.map _).sum_le_sum fun _ _ => Nat.zero_le _)
    intro kind _
    have hle := length_textEncode_le ((recordLines localeLe (source.records kind)).getD [] ++ [10])
    rwa [List.length_append, List.length_singleton] at hle
  have hchecksums : (checksumText localeLe (listedEntries localeLe source manifestText)).length ≤
      21 * 167 := by
    rw [checksumText]
    refine le_trans (length_joinLines_le _) ?_
    rw [List.map_map]
    refine le_trans (List.sum_le_card_nsmul _ 167 ?_) ?_
    · intro n hn
      obtain ⟨e, he, rfl⟩ := List.mem_map.mp hn
      have hsha : (sha256 e.2).length = 64 := isSha256_length (isSha256_sha256 e.2)
      have hblanks : (js "  ").length = 2 := by decide
      have hle := length_listedPath h e ((List.perm_insertionSort _ _).mem_iff.mp he)
      simp only [Function.comp_apply, List.length_append]
      omega
    · rw [List.length_map, List.length_insertionSort, nsmul_eq_mul, Nat.cast_id]
      exact Nat.mul_le_mul_right _ hcount
  have hmanifest := length_textEncode_le (manifestText ++ [10])
  have hreadme := length_textEncode_le readme
  have hchecksumBytes := length_textEncode_le
    (checksumText localeLe (listedEntries localeLe source manifestText) ++ [10])
  rw [List.length_append, List.length_singleton] at hmanifest hchecksumBytes
  rw [isSmall, Bool.and_eq_true, decide_eq_true_eq, decide_eq_true_eq, h.entries]
  constructor
  · rw [List.length_append, List.length_singleton]
    omega
  · rw [List.map_append, List.sum_append, listedEntries, List.map_append, List.map_append,
      List.sum_append, List.sum_append, ← listedEntries]
    simp only [List.map_cons, List.map_nil, List.sum_cons, List.sum_nil]
    omega

theorem sampleSource_assembles : (assembleArchiveEntries unitsLe sampleSource).isSome = true ∧
    recordUnits unitsLe sampleSource +
      ((canonicalJson (manifestOf sampleSource).value).getD []).length ≤ 10000 := by
  decide +kernel

theorem exists_assembledSample : ∃ entries manifest,
    assembleArchiveEntries unitsLe sampleSource = some (entries, manifest) ∧
      entries.entries.length ≤ 22 ∧ isSmall 60000 entries = true := by
  obtain ⟨⟨entries, manifest⟩, hassemble⟩ := Option.isSome_iff_exists.mp sampleSource_assembles.1
  obtain ⟨-, manifestText, h⟩ := assembled_of_assemble hassemble
  have hunits := sampleSource_assembles.2
  rw [h.manifest, Option.getD_some] at hunits
  refine ⟨entries, manifest, hassemble, ?_, isSmall_of_texts h (by decide) (by decide) hunits⟩
  rw [h.entries, List.length_append, List.length_singleton]
  exact Nat.succ_le_succ (length_listedEntries unitsLe manifestText (by decide))

theorem assembled_archive_verifies_sample : ∃ entries manifest report,
    assembleArchiveEntries unitsLe sampleSource = some (entries, manifest) ∧
      verifyArchiveEntries entries defaults = some report ∧ report.valid = true := by
  obtain ⟨entries, manifest, hassemble, -, hsmall⟩ := exists_assembledSample
  obtain ⟨report, hreport, hvalid, -⟩ := assembled_archive_verifies unitsLe sampleSource entries
    manifest hassemble sampleSource_wellFormed (withinLimits_of_isSmall (by decide) hsmall)
  exact ⟨entries, manifest, report, hassemble, hreport, hvalid⟩

end TrustCore.ArchiveAssemble
