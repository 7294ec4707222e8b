import TrustCore.ArchiveRoundTrip

/-!
# The container of an archive

`writeTrustArchive` puts the entries of an archive into a ZIP container and `readTrustArchive` takes
them out again. The writer checks the paths alone; the reader also bounds the number of entries, the
size of each and of all together, and how much smaller than an entry its compressed form may be. Of
the ZIP library it is assumed that it gives back what was written. An export is then read back
exactly if its entries keep to the bounds of the reader.
-/

namespace TrustCore.ArchiveContainer

open TrustCore.Utf TrustCore.Json TrustCore.Dynamic TrustCore.Sha256 TrustCore.ArchiveFormat
open TrustCore.ArchiveVerify TrustCore.ArchiveAssemble

/-! ## Writer and reader -/

structure ArchiveContainerLimits where
  maxContainerBytes : Nat
  maxEntries : Nat
  maxEntryBytes : Nat
  maxTotalBytes : Nat
  maxCompressionRatio : Nat

def defaultLimits : ArchiveContainerLimits :=
  ⟨10 * 1024 * 1024 * 1024, 100000, 2 * 1024 * 1024 * 1024, 20 * 1024 * 1024 * 1024, 200⟩

/-- The limits of the service. -/
def archiveLimits : ArchiveContainerLimits := ⟨8000000, 10000, 4000000, 16000000, 100⟩

structure ArchiveContainerError where
  code : JsString
  message : JsString
  path : Option JsString
  deriving DecidableEq

def containerError (code message : String) (path : Option JsString) : ArchiveContainerError :=
  ⟨js code, js message, path⟩

/-- An entry of the directory of a container, as the ZIP library gives it. -/
structure Entry where
  filename : JsString
  directory : Bool
  encrypted : Bool
  unixMode : Option Nat
  unixExternalUpper : Option Nat
  compressionMethod : Nat
  uncompressedSize : Nat
  compressedSize : Nat

/-- The ZIP library: `none` is a thrown error. A container is written with one timestamp for all of
its entries. -/
structure ZipLibrary where
  write : Int → List (JsString × Bytes) → Bytes
  getEntries : Bytes → Option (List Entry)
  getData : Bytes → Entry → Option Bytes

/-- `Date.UTC(1980, 0, 1)`. -/
def minimumTimestamp : Int := 315532800000

def validZipTimestamp (dateParse : JsString → Option Int) (value : JsString) : Option Int :=
  (dateParse value).map fun parsed => if parsed < minimumTimestamp then minimumTimestamp else parsed

def sortedEntries (localeLe : JsString → JsString → Bool) (entries : EntryMap) :
    List (JsString × Bytes) :=
  entries.entries.insertionSort fun left right => localeLe left.1 right.1 = true

def writeTrustArchive (zip : ZipLibrary) (localeLe : JsString → JsString → Bool)
    (dateParse : JsString → Option Int) (entries : EntryMap) (manifest : TrustArchiveManifest) :
    Option Bytes := do
  let timestamp ← validZipTimestamp dateParse manifest.createdAt
  if (sortedEntries localeLe entries).all fun entry => isSafeArchivePath entry.1 then
    some (zip.write timestamp (sortedEntries localeLe entries))
  else none

def isSymbolicLink (entry : Entry) : Bool :=
  match entry.unixMode.or entry.unixExternalUpper with
  | some mode => mode &&& 0o170000 == 0o120000
  | none => false

/-- The quotient of two lengths in a container is not so close to a bound that its rounding counts. -/
def exceedsRatio (limits : ArchiveContainerLimits) (entry : Entry) : Bool :=
  if entry.uncompressedSize = 0 then decide (limits.maxCompressionRatio < 1)
  else decide (limits.maxCompressionRatio * entry.compressedSize < entry.uncompressedSize)

/-- The loop of `validateDirectory` over the entries that are left. -/
def validateEntries (limits : ArchiveContainerLimits) :
    List JsString → Nat → List Entry → Except ArchiveContainerError Unit
  | _, _, [] => .ok ()
  | paths, total, entry :: rest =>
    if entry.directory then
      .error (containerError "ARCHIVE_DIRECTORY_ENTRY_DENIED"
        "Explicit directory entries are not permitted." entry.filename)
    else if !isSafeArchivePath entry.filename then
      .error (containerError "ARCHIVE_PATH_UNSAFE" "Archive path is unsafe." entry.filename)
    else if paths.contains entry.filename then
      .error (containerError "ARCHIVE_PATH_DUPLICATE" "Archive path is duplicated." entry.filename)
    else if entry.encrypted then
      .error (containerError "ARCHIVE_ENCRYPTION_UNSUPPORTED"
        "Encrypted archive entries are not supported." entry.filename)
    else if isSymbolicLink entry then
      .error (containerError "ARCHIVE_LINK_DENIED"
        "Symbolic links are not permitted in Trust Archives." entry.filename)
    else if entry.compressionMethod != 0 && entry.compressionMethod != 8 then
      .error (containerError "ARCHIVE_COMPRESSION_UNSUPPORTED"
        "Archive compression method is not supported." entry.filename)
    else if limits.maxEntryBytes < entry.uncompressedSize then
      .error (containerError "ARCHIVE_ENTRY_TOO_LARGE" "Archive entry exceeds its size limit."
        entry.filename)
    else if limits.maxTotalBytes < total + entry.uncompressedSize then
      .error (containerError "ARCHIVE_TOTAL_TOO_LARGE"
        "Archive exceeds its total uncompressed size limit." none)
    else if exceedsRatio limits entry then
      .error (containerError "ARCHIVE_COMPRESSION_RATIO_EXCEEDED"
        "Archive entry exceeds the permitted compression ratio." entry.filename)
    else validateEntries limits (entry.filename :: paths) (total + entry.uncompressedSize) rest

def validateDirectory (entries : List Entry) (limits : ArchiveContainerLimits) :
    Except ArchiveContainerError Unit :=
  if limits.maxEntries < entries.length then
    .error (containerError "ARCHIVE_ENTRY_LIMIT" "Archive contains too many entries." none)
  else validateEntries limits [] 0 entries

def containerInvalid : ArchiveContainerError :=
  containerError "ARCHIVE_CONTAINER_INVALID"
    "Archive container is corrupt, ambiguous or unsupported." none

/-- The entries of the container, taken out one after the other. -/
def extract (zip : ZipLibrary) (bytes : Bytes) :
    EntryMap → List Entry → Except ArchiveContainerError EntryMap
  | extracted, [] => .ok extracted
  | extracted, entry :: rest =>
    if entry.directory then extract zip bytes extracted rest
    else
      match zip.getData bytes entry with
      | none => .error containerInvalid
      | some data =>
        if data.length ≠ entry.uncompressedSize then
          .error (containerError "ARCHIVE_ENTRY_SIZE_INVALID"
            "Extracted entry size does not match its directory metadata." entry.filename)
        else extract zip bytes (extracted.set entry.filename data) rest

/-- What `readTrustArchive` returns; the manifest is the one of the report. -/
structure ReadArchive where
  entries : EntryMap
  manifest : JsValue
  verification : VerificationReport

def readTrustArchive (zip : ZipLibrary) (bytes : Bytes) (limits : ArchiveContainerLimits)
    (signatureVerifier : Option ArchiveManifestVerifier) : Except ArchiveContainerError ReadArchive :=
  if limits.maxContainerBytes < bytes.length then
    .error (containerError "ARCHIVE_CONTAINER_TOO_LARGE"
      "Archive container exceeds its size limit." none)
  else
    match zip.getEntries bytes with
    | none => .error containerInvalid
    | some entries => do
      validateDirectory entries limits
      let extracted ← extract zip bytes .empty entries
      let verificationLimits : ArchiveVerificationLimits :=
        ⟨limits.maxEntries, limits.maxEntryBytes, limits.maxTotalBytes⟩
      match signatureVerifier.elim (verifyArchiveEntries extracted verificationLimits)
          fun verifier => verifyArchiveEntriesWithSignatures extracted verifier verificationLimits with
      | none => .error containerInvalid
      | some verification =>
        match verification.manifest with
        | none => .error (containerError "ARCHIVE_MANIFEST_INVALID"
            "Archive manifest could not be verified." none)
        | some manifest => .ok ⟨extracted, manifest, verification⟩

/-! ## What the directory check accepts -/

section Directory

variable {limits : ArchiveContainerLimits} {entry : Entry} {entries : List Entry}

/-- What the check asks of one entry by itself. -/
structure Admissible (limits : ArchiveContainerLimits) (entry : Entry) : Prop where
  file : entry.directory = false
  safe : isSafeArchivePath entry.filename = true
  plain : entry.encrypted = false
  noLink : isSymbolicLink entry = false
  method : entry.compressionMethod = 0 ∨ entry.compressionMethod = 8
  size : entry.uncompressedSize ≤ limits.maxEntryBytes
  ratio : exceedsRatio limits entry = false

theorem validateEntries_cons {paths : List JsString} {total : Nat} {rest : List Entry} :
    validateEntries limits paths total (entry :: rest) = .ok () ↔
      Admissible limits entry ∧ entry.filename ∉ paths ∧
        total + entry.uncompressedSize ≤ limits.maxTotalBytes ∧
        validateEntries limits (entry.filename :: paths) (total + entry.uncompressedSize) rest =
          .ok () := by
  constructor
  · intro h
    simp only [validateEntries] at h
    split_ifs at h with hdirectory hsafe hpath hencrypted hlink hmethod hsize htotal hratio
    simp only [Bool.not_eq_true] at hdirectory hpath hencrypted hlink hratio
    refine ⟨⟨hdirectory, by simpa using hsafe, hencrypted, hlink, ?_, Nat.le_of_not_lt hsize, hratio⟩,
      by simpa using hpath, Nat.le_of_not_lt htotal, h⟩
    by_cases hzero : entry.compressionMethod = 0
    · exact Or.inl hzero
    · exact Or.inr (by simpa [hzero] using hmethod)
  · rintro ⟨⟨hdirectory, hsafe, hencrypted, hlink, hmethod, hsize, hratio⟩, hpath, htotal, hrest⟩
    have hmethods : (entry.compressionMethod != 0 && entry.compressionMethod != 8) = false := by
      rcases hmethod with h | h <;> simp [h]
    have hnew : paths.contains entry.filename = false := by simpa using hpath
    simp only [validateEntries, hdirectory, hsafe, hencrypted, hlink, hmethods, hnew, hratio,
      if_neg (Nat.not_lt.mpr hsize), if_neg (Nat.not_lt.mpr htotal), hrest, Bool.not_true,
      Bool.false_eq_true, if_false]

/-- The loop ends when every entry is admissible, the paths are new and the sizes stay in bounds. -/
theorem validateEntries_ok_iff {paths : List JsString} {total : Nat}
    (htotal : total ≤ limits.maxTotalBytes) : validateEntries limits paths total entries = .ok () ↔
      (∀ entry ∈ entries, Admissible limits entry) ∧ (entries.map Entry.filename).Nodup ∧
        (∀ path ∈ entries.map Entry.filename, path ∉ paths) ∧
        total + (entries.map Entry.uncompressedSize).sum ≤ limits.maxTotalBytes := by
  induction entries generalizing paths total with
  | nil => simp [validateEntries, htotal]
  | cons entry rest ih =>
    rw [validateEntries_cons, List.map_cons, List.map_cons, List.sum_cons, List.nodup_cons,
      ← Nat.add_assoc]
    constructor
    · rintro ⟨hentry, hpath, hsize, hrest⟩
      obtain ⟨hall, hnodup, hnew, hsum⟩ := (ih hsize).mp hrest
      refine ⟨List.forall_mem_cons.mpr ⟨hentry, hall⟩, ⟨fun hmem => ?_, hnodup⟩, ?_, hsum⟩
      · exact hnew _ hmem List.mem_cons_self
      · exact List.forall_mem_cons.mpr ⟨hpath, fun path hmem hold =>
          hnew path hmem (List.mem_cons_of_mem _ hold)⟩
    · rintro ⟨hall, ⟨hfresh, hnodup⟩, hnew, hsum⟩
      have hsize : total + entry.uncompressedSize ≤ limits.maxTotalBytes := by omega
      obtain ⟨hentry, hall⟩ := List.forall_mem_cons.mp hall
      obtain ⟨hpath, hnew⟩ := List.forall_mem_cons.mp hnew
      refine ⟨hentry, hpath, hsize, (ih hsize).mpr ⟨hall, hnodup, fun path hmem hold => ?_, hsum⟩⟩
      rcases List.mem_cons.mp hold with rfl | hold
      · exact hfresh hmem
      · exact hnew path hmem hold

theorem validateDirectory_ok_iff : validateDirectory entries limits = .ok () ↔
    entries.length ≤ limits.maxEntries ∧ (∀ entry ∈ entries, Admissible limits entry) ∧
      (entries.map Entry.filename).Nodup ∧
      (entries.map Entry.uncompressedSize).sum ≤ limits.maxTotalBytes := by
  rw [validateDirectory]
  by_cases hcount : limits.maxEntries < entries.length
  · rw [if_pos hcount]
    exact iff_of_false (by simp) fun h => absurd h.1 (Nat.not_le.mpr hcount)
  · rw [if_neg hcount, validateEntries_ok_iff (Nat.zero_le _), Nat.zero_add]
    simp [Nat.le_of_not_lt hcount]

end Directory

/-! ## What is written and read -/

section RoundTrip

variable {zip : ZipLibrary} {deflated : Bytes → Nat} {bytes : Bytes} {es : List (JsString × Bytes)}
  {directory : List Entry} {limits : ArchiveContainerLimits}

/-- The directory entry of a file that was written, with the length of its compressed form. -/
structure Describes (zip : ZipLibrary) (deflated : Bytes → Nat) (bytes : Bytes)
    (e : JsString × Bytes) (d : Entry) : Prop where
  filename : d.filename = e.1
  file : d.directory = false
  plain : d.encrypted = false
  noLink : isSymbolicLink d = false
  method : d.compressionMethod = 0 ∨ d.compressionMethod = 8
  size : d.uncompressedSize = e.2.length
  compressed : d.compressedSize = deflated e.2
  data : zip.getData bytes d = some e.2

/-- The container gives the files back in the order they were written in. -/
def ZipLibrary.Lossless (zip : ZipLibrary) (deflated : Bytes → Nat) (bytes : Bytes)
    (es : List (JsString × Bytes)) : Prop :=
  ∃ directory, zip.getEntries bytes = some directory ∧
    List.Forall₂ (Describes zip deflated bytes) es directory

/-- The files keep to the bounds of the reader. -/
structure Fits (limits : ArchiveContainerLimits) (deflated : Bytes → Nat)
    (es : List (JsString × Bytes)) : Prop where
  count : es.length ≤ limits.maxEntries
  size : ∀ e ∈ es, e.2.length ≤ limits.maxEntryBytes
  total : (es.map fun e => e.2.length).sum ≤ limits.maxTotalBytes
  ratio : ∀ e ∈ es, e.2 ≠ [] → e.2.length ≤ limits.maxCompressionRatio * deflated e.2

theorem Fits.perm {es' : List (JsString × Bytes)} (h : Fits limits deflated es) (hp : es.Perm es') :
    Fits limits deflated es' :=
  ⟨hp.length_eq ▸ h.count, fun e he => h.size e (hp.mem_iff.mpr he),
    (hp.map fun e => e.2.length).sum_eq ▸ h.total, fun e he => h.ratio e (hp.mem_iff.mpr he)⟩

theorem admissible_iff {e : JsString × Bytes} {d : Entry} (h : Describes zip deflated bytes e d)
    (hratio : 1 ≤ limits.maxCompressionRatio) (hsafe : isSafeArchivePath e.1 = true) :
    Admissible limits d ↔ e.2.length ≤ limits.maxEntryBytes ∧
      (e.2 ≠ [] → e.2.length ≤ limits.maxCompressionRatio * deflated e.2) := by
  have hexceeds : exceedsRatio limits d = false ↔
      (e.2 ≠ [] → e.2.length ≤ limits.maxCompressionRatio * deflated e.2) := by
    rw [exceedsRatio, h.size, h.compressed]
    by_cases hnil : e.2 = []
    · simp only [hnil, List.length_nil, if_true, decide_eq_false_iff_not, not_lt, ne_eq,
        not_true_eq_false, false_implies, iff_true]
      exact hratio
    · have hlength : e.2.length ≠ 0 := fun hzero => hnil (List.length_eq_zero_iff.mp hzero)
      simp [hnil, hlength]
  constructor
  · exact fun hd => ⟨h.size ▸ hd.size, hexceeds.mp hd.ratio⟩
  · rintro ⟨hsize, hdeflated⟩
    exact ⟨h.file, h.filename ▸ hsafe, h.plain, h.noLink, h.method, h.size ▸ hsize,
      hexceeds.mpr hdeflated⟩

theorem filenames_eq (h : List.Forall₂ (Describes zip deflated bytes) es directory) :
    directory.map Entry.filename = es.map Prod.fst ∧
      directory.map Entry.uncompressedSize = es.map fun e => e.2.length := by
  induction h with
  | nil => exact ⟨rfl, rfl⟩
  | cons he _ ih => exact ⟨by simp [he.filename, ih.1], by simp [he.size, ih.2]⟩

/-- The directory of files with safe and distinct paths passes if they fit. -/
theorem validateDirectory_iff_fits (h : List.Forall₂ (Describes zip deflated bytes) es directory)
    (hratio : 1 ≤ limits.maxCompressionRatio) (hsafe : ∀ e ∈ es, isSafeArchivePath e.1 = true)
    (hnodup : (es.map Prod.fst).Nodup) :
    validateDirectory directory limits = .ok () ↔ Fits limits deflated es := by
  obtain ⟨hnames, hsizes⟩ := filenames_eq h
  have hall : (∀ d ∈ directory, Admissible limits d) ↔ ∀ e ∈ es, e.2.length ≤ limits.maxEntryBytes ∧
      (e.2 ≠ [] → e.2.length ≤ limits.maxCompressionRatio * deflated e.2) := by
    clear hnames hsizes hnodup
    induction h with
    | nil => simp
    | cons he _ ih =>
      rw [List.forall_mem_cons, List.forall_mem_cons]
      rw [List.forall_mem_cons] at hsafe
      rw [admissible_iff he hratio hsafe.1, ih hsafe.2]
  rw [validateDirectory_ok_iff, hnames, hsizes, hall, ← h.length_eq]
  constructor
  · rintro ⟨hcount, hfiles, -, htotal⟩
    exact ⟨hcount, fun e he => (hfiles e he).1, htotal, fun e he => (hfiles e he).2⟩
  · rintro ⟨hcount, hsize, htotal, hdeflated⟩
    exact ⟨hcount, fun e he => ⟨hsize e he, hdeflated e he⟩, hnodup, htotal⟩

/-- The files are taken out as they were written. -/
theorem extract_eq {extracted : EntryMap} (h : List.Forall₂ (Describes zip deflated bytes) es directory)
    (hnodup : (extracted.entries.map Prod.fst ++ es.map Prod.fst).Nodup) :
    ∃ m : EntryMap, extract zip bytes extracted directory = .ok m ∧
      m.entries = extracted.entries ++ es := by
  induction h generalizing extracted with
  | nil => exact ⟨extracted, rfl, (List.append_nil _).symm⟩
  | @cons e d es directory he _ ih =>
    have hset : (extracted.set d.filename e.2).entries = extracted.entries ++ [e] := by
      rw [he.filename]
      apply setMember_fresh
      rw [List.map_cons, List.nodup_append] at hnodup
      exact fun hmem => hnodup.2.2 e.1 hmem e.1 List.mem_cons_self rfl
    have hnext : ((extracted.set d.filename e.2).entries.map Prod.fst ++ es.map Prod.fst).Nodup := by
      rw [hset]
      simpa using hnodup
    obtain ⟨m, hm, hentries⟩ := ih hnext
    refine ⟨m, ?_, ?_⟩
    · rw [extract, he.file, he.data]
      simpa [he.size] using hm
    · rw [hentries, hset, List.append_assoc]
      rfl

end RoundTrip

/-! ## The verification of what was read -/

section Verification

variable {localeLe : JsString → JsString → Bool} {source : ArchiveSource} {entries : EntryMap}
  {manifestText : JsString} {sorted : Records}

/-- Rows of the database: JSON data, and a text for the hash of each audit event. -/
structure DatabaseRecords (source : ArchiveSource) : Prop where
  json : ∀ kind, ∀ r ∈ source.records kind, isJson (.object r) = true
  hashes : ∀ r ∈ source.records .auditEvents, ∃ hash, field r (js "eventHash") = .string hash

theorem records_of_wellFormed (h : WellFormedSource source) : DatabaseRecords source := by
  refine ⟨h.json, fun r hr => ?_⟩
  obtain ⟨chain, hperm, hhashes, -⟩ := h.events
  obtain ⟨hash, hhash, -⟩ := hhashes r (hperm.mem_iff.mpr hr)
  exact ⟨hash, hhash⟩

/-- The checks of the records end, whatever they find. -/
theorem exists_validateRecords (hrecords : DatabaseRecords source) (hcounts : SafeCounts source)
    (hperm : ∀ kind, (sorted kind).Perm (source.records kind)) :
    ∃ issues, validateRecords (some (reread (manifestOf source).value))
      (fun kind => (sorted kind).map fun r => reread (.object r)) = some issues := by
  have hl := jsonLineage_of_records (hrecords.json .auditEvents)
  have hjson : ∀ kind, ∀ r ∈ sorted kind, isJson (.object r) = true := fun kind r hr =>
    hrecords.json kind r ((hperm kind).mem_iff.mp hr)
  have hreferences : ∃ references, validateScopeAndReferences (reread (manifestOf source).value)
      (fun kind => (sorted kind).map fun r => reread (.object r)) = some references := by
    have hworkspace : property (reread (manifestOf source).value) (js "workspaceId") =
        some (.string source.workspaceId) := by
      rw [property_manifest hcounts hl]
      rfl
    obtain ⟨scopes, hscopes⟩ : ∃ scopes, archiveRecordKinds.mapM (fun kind =>
        ((sorted kind).map fun r => reread (.object r)).mapM
          (validateScope (.string source.workspaceId) kind)) = some scopes := by
      refine exists_mapM fun kind _ => exists_mapM fun v hv => ?_
      obtain ⟨r, hr, rfl⟩ := List.mem_map.mp hv
      rw [validateScope, hasProperty_reread (hjson kind r hr), property_reread (hjson kind r hr)]
      exact ⟨_, rfl⟩
    obtain ⟨references, hreferences⟩ : ∃ references,
        ((sorted .revisions).map fun r => reread (.object r)).mapM (validateRevision
          (((sorted .resources).map fun r => reread (field r (js "id"))).filterMap asString)
          (((sorted .revisions).map fun r => reread (field r (js "id"))).filterMap asString)) =
            some references := by
      refine exists_mapM fun v hv => ?_
      obtain ⟨r, hr, rfl⟩ := List.mem_map.mp hv
      rw [validateRevision, property_reread (hjson _ r hr), property_reread (hjson _ r hr)]
      exact ⟨_, rfl⟩
    rw [validateScopeAndReferences, column_reread (hjson .resources), column_reread (hjson .revisions),
      hworkspace]
    simp only [hscopes, hreferences, Option.bind_eq_bind, Option.bind_some]
    exact ⟨_, rfl⟩
  have hlineage : ∃ lineage, validateAuditLineage (reread (manifestOf source).value)
      ((sorted .auditEvents).map fun r => reread (.object r)) = some lineage := by
    have hfield : property (reread (manifestOf source).value) (js "auditLineage") =
        some (reread (auditLineage source).value) := by
      rw [property_manifest hcounts hl]
      rfl
    have hbounds : ∀ k, ∃ v, property (reread (auditLineage source).value) k = some v := fun k => by
      rw [property_lineage hcounts hl]
      exact ⟨_, rfl⟩
    obtain ⟨count, hcount⟩ := hbounds (js "eventCount")
    obtain ⟨first, hfirst⟩ := hbounds (js "firstEventHash")
    obtain ⟨last, hlast⟩ := hbounds (js "lastEventHash")
    obtain ⟨texts, htexts⟩ : ∃ texts,
        ((sorted .auditEvents).map fun r => reread (field r (js "eventHash"))).mapM toText =
          some texts := by
      refine exists_mapM fun v hv => ?_
      obtain ⟨r, hr, rfl⟩ := List.mem_map.mp hv
      obtain ⟨hash, hhash⟩ := hrecords.hashes r ((hperm .auditEvents).mem_iff.mp hr)
      rw [hhash]
      exact ⟨hash, rfl⟩
    rw [validateAuditLineage, hfield, Option.bind_eq_bind, Option.bind_some, hcount,
      column_reread (hjson .auditEvents), column_reread (hjson .auditEvents)]
    by_cases hnil : ((sorted .auditEvents).map fun r => reread (.object r)) = []
    · simp only [hnil, if_true, Option.bind_some, hfirst, hlast]
      exact ⟨_, rfl⟩
    · simp only [hnil, if_false, Option.bind_some, chainIssues, hfirst, hlast, hashIndex, htexts,
        Option.bind_eq_bind]
      split
      · exact ⟨_, rfl⟩
      · exact ⟨_, rfl⟩
  obtain ⟨references, hreferences⟩ := hreferences
  obtain ⟨lineage, hlineage⟩ := hlineage
  exact ⟨references ++ lineage, by rw [validateRecords, hreferences, hlineage]; rfl⟩

theorem exists_validateBlobs (hrecords : DatabaseRecords source) (hcounts : SafeCounts source)
    (hperm : ∀ kind, (sorted kind).Perm (source.records kind)) (m : EntryMap) :
    ∃ issues, validateBlobs (some (reread (manifestOf source).value))
      ((sorted .blobs).map fun r => reread (.object r)) m = some issues := by
  have hl := jsonLineage_of_records (hrecords.json .auditEvents)
  obtain ⟨checked, hchecked⟩ : ∃ checked,
      ((sorted .blobs).map fun r => reread (.object r)).mapM (validateBlob m) = some checked := by
    refine exists_mapM fun v hv => ?_
    obtain ⟨r, hr, rfl⟩ := List.mem_map.mp hv
    have hjson := hrecords.json .blobs r ((hperm .blobs).mem_iff.mp hr)
    rw [validateBlob, property_reread hjson, property_reread hjson]
    simp only [Option.bind_eq_bind, Option.bind_some]
    split
    · split
      · exact ⟨_, rfl⟩
      · split
        · exact ⟨_, rfl⟩
        · exact ⟨_, rfl⟩
    · exact ⟨_, rfl⟩
  have hfields : ∀ k, ∃ v, property (reread (manifestOf source).value) k = some v := fun k => by
    rw [property_manifest hcounts hl]
    exact ⟨_, rfl⟩
  obtain ⟨count, hcount⟩ := hfields (js "blobCount")
  obtain ⟨bytes, hbytes⟩ := hfields (js "totalBlobBytes")
  simp only [validateBlobs, hchecked, hcount, hbytes, Option.bind_eq_bind, Option.bind_some]
  exact ⟨_, rfl⟩

section Order

variable {m : EntryMap} (hm : m.entries.Perm entries.entries)
include hm

theorem get_permuted (path : JsString) : m.get path = entries.get path := lookup_perm m.nodup hm path

theorem readAllRecords_permuted (manifest : Option JsValue) :
    readAllRecords m manifest = readAllRecords entries manifest := by
  have hkinds : readRecords m manifest = readRecords entries manifest := by
    funext kind
    unfold readRecords
    simp only [get_permuted hm]
  rw [readAllRecords, readAllRecords, hkinds]

theorem validateBlobs_permuted (manifest : Option JsValue) (records : List JsValue) :
    validateBlobs manifest records m = validateBlobs manifest records entries := by
  have hblob : validateBlob m = validateBlob entries := by
    funext record
    rw [validateBlob, validateBlob]
    simp only [get_permuted hm]
  rw [validateBlobs, validateBlobs, hblob]

theorem limitIssues_permuted (limits : ArchiveVerificationLimits) :
    (limitIssues limits m).Perm (limitIssues limits entries) := by
  rw [limitIssues, limitIssues, hm.length_eq, (hm.map fun e => e.2.length).sum_eq]
  exact ((List.Perm.refl _).append (hm.flatMap_right _)).append (.refl _)

theorem checksumIssues_permuted (checksums : Checksums) :
    (checksumIssues m checksums).Perm (checksumIssues entries checksums) := by
  rw [checksumIssues, checksumIssues]
  simp only [get_permuted hm]
  exact (List.Perm.refl _).append (hm.flatMap_right _)

/-- The verdict on the same entries in another order. -/
theorem verifyArchiveEntries_permuted {limits : ArchiveVerificationLimits}
    {report : VerificationReport} (h : verifyArchiveEntries entries limits = some report) :
    ∃ report', verifyArchiveEntries m limits = some report' ∧ report'.valid = report.valid := by
  rw [verifyArchiveEntries, verifyArchiveEntriesBase] at h ⊢
  have hprofile : ∀ manifest, profileIssues m false manifest = profileIssues entries false manifest := by
    intro manifest
    cases manifest with
    | none => rfl
    | some manifest => rw [profileIssues, profileIssues, get_permuted hm]
  simp only [get_permuted hm, readAllRecords_permuted hm, validateBlobs_permuted hm, hprofile,
    Option.bind_eq_bind, Option.bind_eq_some_iff, Option.pure_def, Option.some.injEq] at h ⊢
  obtain ⟨read, hread, checked, hchecked, blobs, hblobs, rfl⟩ := h
  refine ⟨_, ⟨read, hread, checked, hchecked, blobs, hblobs, rfl⟩, ?_⟩
  apply List.Perm.isEmpty_eq
  have hlimits := limitIssues_permuted hm limits
  have hchecksums := checksumIssues_permuted hm (readChecksums (entries.get checksumsPath)).2
  exact ((((((hlimits.append_right _).append hchecksums).append_right _).append_right _).append_right
    _).append_right _).append_right _

end Order

/-- The verification of an assembled archive ends and gives its manifest and its records, in whatever
order the entries stand. -/
theorem verifyArchiveEntries_manifest (ha : Assembled localeLe source entries manifestText)
    (hrecords : DatabaseRecords source) (hl : WithinLimits defaults entries) {m : EntryMap}
    (hm : m.entries.Perm entries.entries) (limits : ArchiveVerificationLimits) :
    ∃ report, verifyArchiveEntries m limits = some report ∧
      report.manifest = some (reread (manifestOf source).value) ∧
      ∃ sorted : Records, (∀ kind, (sorted kind).Perm (source.records kind)) ∧
        ∀ kind, report.records kind = (sorted kind).map fun r => reread (.object r) := by
  have hcounts := safeCounts ha hrecords.json hl
  have hlineage := jsonLineage_of_records (hrecords.json .auditEvents)
  obtain ⟨sorted, hsorted, hread⟩ := readAllRecords_assembled ha hrecords.json hcounts hlineage
  have hperm := fun kind => sortedRecords_perm (hsorted kind)
  have hmanifest : readManifest (m.get manifestPath) =
      ([], some (reread (manifestOf source).value)) := by
    rw [get_permuted hm, get_listed ha (mem_listed.mpr (Or.inr (Or.inr (Or.inl rfl))))]
    exact readManifest_manifest hcounts hlineage ha.manifest
  obtain ⟨checked, hchecked⟩ := exists_validateRecords hrecords hcounts hperm
  obtain ⟨blobs, hblobs⟩ := exists_validateBlobs hrecords hcounts hperm m
  rw [verifyArchiveEntries, verifyArchiveEntriesBase, hmanifest]
  simp only [readAllRecords_permuted hm, hread, hchecked, hblobs, Option.bind_eq_bind,
    Option.bind_some]
  exact ⟨_, rfl, rfl, sorted, hperm, fun _ => rfl⟩

end Verification

/-! ## Exports -/

/-- `maxBlobBytes`, `maxTotalBlobBytes` of an export and `maxArchiveBytes` of a container that is
persisted. -/
def maxBlobBytes : Nat := 4000000

def maxTotalBlobBytes : Nat := 16000000

def maxArchiveBytes : Nat := 8000000

/-- `createExport` has assembled a source and persisted its container. -/
structure Completed (zip : ZipLibrary) (localeLe : JsString → JsString → Bool)
    (dateParse : JsString → Option Int) (source : ArchiveSource) (entries : EntryMap)
    (bytes : Bytes) : Prop where
  records : DatabaseRecords source
  blob : ∀ blob ∈ source.blobs, blob.byteLength ≤ maxBlobBytes
  blobs : (source.blobs.map ArchiveBlobInput.byteLength).sum ≤ maxTotalBlobBytes
  assembled : assembleArchiveEntries localeLe source = some (entries, manifestOf source)
  written : writeTrustArchive zip localeLe dateParse entries (manifestOf source) = some bytes
  persisted : bytes.length ≤ maxArchiveBytes

section Exports

variable {zip : ZipLibrary} {deflated : Bytes → Nat} {localeLe : JsString → JsString → Bool}
  {dateParse : JsString → Option Int} {source : ArchiveSource} {entries : EntryMap} {bytes : Bytes}

theorem sortedEntries_perm (localeLe : JsString → JsString → Bool) (entries : EntryMap) :
    (sortedEntries localeLe entries).Perm entries.entries := List.perm_insertionSort _ _

theorem sortedEntries_nodup (localeLe : JsString → JsString → Bool) (entries : EntryMap) :
    ((sortedEntries localeLe entries).map Prod.fst).Nodup :=
  ((sortedEntries_perm localeLe entries).map Prod.fst).nodup_iff.mpr entries.nodup

/-- The directory of an export passes exactly if its entries fit. -/
theorem Completed.directory_iff (h : Completed zip localeLe dateParse source entries bytes)
    {directory : List Entry}
    (hd : List.Forall₂ (Describes zip deflated bytes) (sortedEntries localeLe entries) directory)
    {limits : ArchiveContainerLimits} (hratio : 1 ≤ limits.maxCompressionRatio) :
    validateDirectory directory limits = .ok () ↔ Fits limits deflated entries.entries := by
  have hsafe : ∀ e ∈ sortedEntries localeLe entries, isSafeArchivePath e.1 = true := by
    obtain ⟨timestamp, -, hwritten⟩ := Option.bind_eq_some_iff.mp h.written
    split_ifs at hwritten with hall
    exact List.all_eq_true.mp hall
  rw [validateDirectory_iff_fits hd hratio hsafe (sortedEntries_nodup localeLe entries)]
  have hperm := sortedEntries_perm localeLe entries
  exact ⟨fun hfits => hfits.perm hperm, fun hfits => hfits.perm hperm.symm⟩

theorem Completed.fits_of_read (h : Completed zip localeLe dateParse source entries bytes)
    (hzip : zip.Lossless deflated bytes (sortedEntries localeLe entries)) {archive : ReadArchive}
    (hread : readTrustArchive zip bytes archiveLimits none = .ok archive) :
    Fits archiveLimits deflated entries.entries := by
  obtain ⟨directory, hentries, hdescribes⟩ := hzip
  have hcontainer : ¬ archiveLimits.maxContainerBytes < bytes.length := Nat.not_lt.mpr h.persisted
  rw [readTrustArchive, if_neg hcontainer, hentries] at hread
  cases hvalid : validateDirectory directory archiveLimits with
  | error e => simp [hvalid, bind, Except.bind] at hread
  | ok u => exact (h.directory_iff hdescribes (by decide)).mp hvalid

/-- Under any limits that the container and its entries keep to. -/
theorem Completed.opens_of_fits (h : Completed zip localeLe dateParse source entries bytes)
    (hzip : zip.Lossless deflated bytes (sortedEntries localeLe entries))
    {limits : ArchiveContainerLimits} (hratio : 1 ≤ limits.maxCompressionRatio)
    (hcontainer : bytes.length ≤ limits.maxContainerBytes) (hl : WithinLimits defaults entries)
    (hfits : Fits limits deflated entries.entries) :
    ∃ archive, readTrustArchive zip bytes limits none = .ok archive ∧
      archive.entries.entries.Perm entries.entries := by
  obtain ⟨directory, hentries, hdescribes⟩ := hzip
  have hvalid := (h.directory_iff hdescribes hratio).mpr hfits
  have hnew : (EntryMap.empty.entries.map Prod.fst ++
      (sortedEntries localeLe entries).map Prod.fst).Nodup := sortedEntries_nodup localeLe entries
  obtain ⟨m, hextract, hm⟩ := extract_eq hdescribes hnew
  have hperm : m.entries.Perm entries.entries := hm ▸ sortedEntries_perm localeLe entries
  obtain ⟨-, manifestText, ha⟩ := assembled_of_assemble h.assembled
  obtain ⟨report, hreport, hmanifest, -⟩ := verifyArchiveEntries_manifest ha h.records hl hperm
    ⟨limits.maxEntries, limits.maxEntryBytes, limits.maxTotalBytes⟩
  refine ⟨⟨m, reread (manifestOf source).value, report⟩, ?_, hperm⟩
  rw [readTrustArchive, if_neg (Nat.not_lt.mpr hcontainer), hentries]
  simp only [hvalid, hextract, bind, Except.bind, Option.elim, hreport, hmanifest]

theorem Completed.read_of_fits (h : Completed zip localeLe dateParse source entries bytes)
    (hzip : zip.Lossless deflated bytes (sortedEntries localeLe entries))
    (hfits : Fits archiveLimits deflated entries.entries) :
    ∃ archive, readTrustArchive zip bytes archiveLimits none = .ok archive ∧
      archive.entries.entries.Perm entries.entries := by
  have hl : WithinLimits defaults entries :=
    ⟨hfits.count.trans (by decide), fun e he => (hfits.size e he).trans (by decide),
      hfits.total.trans (by decide)⟩
  exact h.opens_of_fits hzip (by decide) h.persisted hl hfits

/-- What was verified of an archive that was read. -/
theorem verified_of_read
    (hzip : zip.Lossless deflated bytes (sortedEntries localeLe entries)) {archive : ReadArchive}
    (hread : readTrustArchive zip bytes defaultLimits none = .ok archive) :
    ∃ m : EntryMap, m.entries.Perm entries.entries ∧
      verifyArchiveEntries m defaults = some archive.verification ∧
      archive.verification.manifest = some archive.manifest := by
  obtain ⟨directory, hentries, hdescribes⟩ := hzip
  have hnew : (EntryMap.empty.entries.map Prod.fst ++
      (sortedEntries localeLe entries).map Prod.fst).Nodup := sortedEntries_nodup localeLe entries
  obtain ⟨m, hextract, hm⟩ := extract_eq hdescribes hnew
  refine ⟨m, hm ▸ sortedEntries_perm localeLe entries, ?_⟩
  rw [readTrustArchive, hentries] at hread
  split at hread
  · cases hread
  cases hdirectory : validateDirectory directory defaultLimits with
  | error e => simp [hdirectory, bind, Except.bind] at hread
  | ok u =>
    simp only [hdirectory, hextract, bind, Except.bind, Option.elim] at hread
    split at hread
    · cases hread
    · rename_i verification hverification
      split at hread
      · cases hread
      · rename_i manifest hmanifest
        cases hread
        exact ⟨hverification, hmanifest⟩

/-- The records of a valid archive that was read are those of the export. -/
theorem Completed.records_of_read (h : Completed zip localeLe dateParse source entries bytes)
    (hzip : zip.Lossless deflated bytes (sortedEntries localeLe entries)) {archive : ReadArchive}
    (hread : readTrustArchive zip bytes defaultLimits none = .ok archive)
    (hvalid : archive.verification.valid = true) :
    ∃ sorted : Records, (∀ kind, (sorted kind).Perm (source.records kind)) ∧
      ∀ kind, archive.verification.records kind = (sorted kind).map fun r => reread (.object r) := by
  obtain ⟨m, hperm, hverified, -⟩ := verified_of_read hzip hread
  obtain ⟨-, manifestText, ha⟩ := assembled_of_assemble h.assembled
  have hpassed := passed_of_issues hverified (issues_of_valid hverified hvalid)
  have hl : WithinLimits defaults entries :=
    (limitIssues_eq_nil_iff.mp hpassed.limited).2.perm hperm
  obtain ⟨report, hreport, -, sorted, hsorted, hrecords⟩ :=
    verifyArchiveEntries_manifest ha h.records hl hperm defaults
  rw [hverified, Option.some.injEq] at hreport
  rw [hreport]
  exact ⟨sorted, hsorted, hrecords⟩

end Exports

/-- An export is read back with the entries that were written exactly if they keep to the bounds of
the reader. -/
theorem read_export_iff (zip : ZipLibrary) (deflated : Bytes → Nat)
    (localeLe : JsString → JsString → Bool) (dateParse : JsString → Option Int)
    (source : ArchiveSource) (entries : EntryMap) (bytes : Bytes)
    (h : Completed zip localeLe dateParse source entries bytes)
    (hzip : zip.Lossless deflated bytes (sortedEntries localeLe entries)) :
    (∃ archive, readTrustArchive zip bytes archiveLimits none = .ok archive ∧
      archive.entries.entries.Perm entries.entries) ↔
      Fits archiveLimits deflated entries.entries :=
  ⟨fun ⟨_, hread, _⟩ => h.fits_of_read hzip hread, h.read_of_fits hzip⟩

/-- The writer finds the paths of an assembled archive safe. -/
theorem writeTrustArchive_assembled (zip : ZipLibrary) {localeLe : JsString → JsString → Bool}
    {dateParse : JsString → Option Int} {source : ArchiveSource} {entries : EntryMap}
    {manifest : TrustArchiveManifest} {timestamp : Int}
    (hassemble : assembleArchiveEntries localeLe source = some (entries, manifest))
    (htimestamp : validZipTimestamp dateParse manifest.createdAt = some timestamp) :
    writeTrustArchive zip localeLe dateParse entries manifest =
      some (zip.write timestamp (sortedEntries localeLe entries)) := by
  obtain ⟨-, manifestText, ha⟩ := assembled_of_assemble hassemble
  have hsafe : (sortedEntries localeLe entries).all (fun e => isSafeArchivePath e.1) = true :=
    List.all_eq_true.mpr fun e he =>
      safe_assembled ha ((sortedEntries_perm localeLe entries).mem_iff.mp he)
  rw [writeTrustArchive, htimestamp, Option.bind_eq_bind, Option.bind_some, if_pos hsafe]

/-- A library for one container. -/
def zipOf (deflated : Bytes → Nat) (es : List (JsString × Bytes)) : ZipLibrary where
  write _ _ := [80, 75]
  getEntries _ := some (es.map fun e => ⟨e.1, false, false, none, none, 8, e.2.length, deflated e.2⟩)
  getData _ entry := es.lookup entry.filename

theorem lossless_zipOf (deflated : Bytes → Nat) {es : List (JsString × Bytes)}
    (h : (es.map Prod.fst).Nodup) (bytes : Bytes) : (zipOf deflated es).Lossless deflated bytes es := by
  refine ⟨_, rfl, ?_⟩
  rw [List.forall₂_map_right_iff, List.forall₂_same]
  exact fun e he => ⟨rfl, rfl, rfl, rfl, Or.inr rfl, rfl, rfl, lookup_of_mem h he⟩

theorem completed_zipOf (deflated : Bytes → Nat) {source : ArchiveSource} {entries : EntryMap}
    {manifest : TrustArchiveManifest} (hrecords : DatabaseRecords source)
    (hassemble : assembleArchiveEntries unitsLe source = some (entries, manifest))
    (hblob : ∀ blob ∈ source.blobs, blob.byteLength ≤ maxBlobBytes)
    (hblobs : (source.blobs.map ArchiveBlobInput.byteLength).sum ≤ maxTotalBlobBytes) :
    Completed (zipOf deflated (sortedEntries unitsLe entries)) unitsLe (fun _ => some 0) source
      entries [80, 75] := by
  obtain ⟨rfl, -⟩ := assembled_of_assemble hassemble
  exact ⟨hrecords, hblob, hblobs, hassemble, writeTrustArchive_assembled _ hassemble rfl, by decide⟩

theorem read_export_iff_sample : ∃ zip entries bytes archive,
    Completed zip unitsLe (fun _ => some 0) sampleSource entries bytes ∧
      readTrustArchive zip bytes archiveLimits none = .ok archive ∧
      archive.entries.entries.Perm entries.entries := by
  obtain ⟨entries, manifest, hassemble, hcount, hsmall⟩ := exists_assembledSample
  rw [isSmall, Bool.and_eq_true, decide_eq_true_eq, decide_eq_true_eq] at hsmall
  have hcompleted := completed_zipOf List.length (records_of_wellFormed sampleSource_wellFormed)
    hassemble (by decide) (by decide)
  have hentry : ∀ e ∈ entries.entries, e.2.length ≤ 60000 := fun e he =>
    le_trans (List.single_le_sum (fun _ _ => Nat.zero_le _) _ (List.mem_map.mpr ⟨e, he, rfl⟩)) hsmall.2
  obtain ⟨archive, hread, hperm⟩ := (read_export_iff _ List.length unitsLe (fun _ => some 0)
    sampleSource entries [80, 75] hcompleted
    (lossless_zipOf _ (sortedEntries_nodup unitsLe entries) _)).mpr
    ⟨hcount.trans (by decide), fun e he => (hentry e he).trans (by decide), hsmall.2.trans (by decide),
      fun e _ _ => Nat.le_mul_of_pos_left _ (by decide)⟩
  exact ⟨_, entries, _, archive, hcompleted, hread, hperm⟩

/-- A blob of zeros, which DEFLATE brings down to 14 bytes. -/
def zeros : Bytes := List.replicate 1500 0

def zerosSource : ArchiveSource where
  exportId := js "e"
  workspaceId := js "w"
  datasetIds := []
  createdAt := js "t"
  createdBy := js "u"
  sourceVersion := js "0.3"
  records := fun kind =>
    match kind with
    | .blobs => [[(js "sha256", .string (sha256 zeros)), (js "byteLength", numberOf 1500)]]
    | _ => []
  blobs := [⟨sha256 zeros, 1500, zeros⟩]

def zerosDeflated (bytes : Bytes) : Nat := if bytes = zeros then 14 else bytes.length

theorem zerosSource_records : DatabaseRecords zerosSource where
  json := by
    have hall : ∀ kind ∈ archiveRecordKinds, ∀ r ∈ zerosSource.records kind,
        isJson (.object r) = true := by decide +kernel
    exact fun kind => hall kind (mem_archiveRecordKinds kind)
  hashes := fun r hr => by cases hr

/-- An export with the blob of zeros is completed and refused by the reader. -/
theorem zeros_export_refused : ∃ zip entries bytes,
    Completed zip unitsLe (fun _ => some 0) zerosSource entries bytes ∧
      zip.Lossless zerosDeflated bytes (sortedEntries unitsLe entries) ∧
      ∀ archive, readTrustArchive zip bytes archiveLimits none ≠ .ok archive := by
  have hmem : (assembleArchiveEntries unitsLe zerosSource).map (fun p =>
      p.1.entries.any fun e => decide (e.2 = zeros)) = some true := by decide +kernel
  obtain ⟨⟨entries, manifest⟩, hassemble, hzeros⟩ := Option.map_eq_some_iff.mp hmem
  obtain ⟨e, he, hbytes⟩ := List.any_eq_true.mp hzeros
  have hcompleted := completed_zipOf zerosDeflated zerosSource_records hassemble
    (by decide) (by decide)
  have hzip := lossless_zipOf zerosDeflated (sortedEntries_nodup unitsLe entries) [80, 75]
  refine ⟨_, entries, _, hcompleted, hzip, fun archive hread => ?_⟩
  have hratio := (hcompleted.fits_of_read hzip hread).ratio e he
  have hlength : zeros.length = 1500 := List.length_replicate
  have hdeflated : zerosDeflated zeros = 14 := if_pos rfl
  have hne : zeros ≠ [] := fun hnil => by
    rw [hnil] at hlength
    cases hlength
  rw [of_decide_eq_true hbytes, hlength, hdeflated] at hratio
  exact absurd (hratio hne) (by decide)

end TrustCore.ArchiveContainer
