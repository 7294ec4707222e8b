import TrustCore.ArchiveAssemble

/-!
# What the checksum file binds

A valid archive has an entry for every line of its checksum file and a line for
every entry outside `signatures/`, so the bytes of the checksum file fix all
those entries, and the signed message fixes the checksum file.
-/

namespace TrustCore.ArchiveVerify

open TrustCore.Utf TrustCore.Json TrustCore.Numbers TrustCore.Dynamic TrustCore.Sha256
open TrustCore.ArchiveFormat

/-- The archives have the same paths with the same bytes outside `signatures/`. -/
def SameOutsideSignatures (a b : EntryMap) : Prop :=
  ∀ path, startsWith path (js "signatures/") = false → a.get path = b.get path

/-- The bytes of all entries of two archives. -/
def entryBytes (a b : EntryMap) : Set Bytes :=
  { bytes | ∃ path, a.get path = some bytes ∨ b.get path = some bytes }

/-- `manifest.signatureProfile.keyId`. -/
def signingKey (manifest : JsValue) : Option JsValue := do
  let profile ← property manifest (js "signatureProfile")
  property profile (js "keyId")

/-- The archive is reported valid, with this signed manifest. -/
def AcceptedSigned (verifier : ArchiveManifestVerifier) (entries : EntryMap) (manifest : JsValue) :
    Prop :=
  ∃ limits report, verifyArchiveEntriesWithSignatures entries verifier limits = some report ∧
    report.valid = true ∧ report.manifest = some manifest ∧ isUnsigned manifest = false

/-- The archive is reported valid, with an unsigned manifest. -/
def AcceptedUnsigned (entries : EntryMap) : Prop :=
  ∃ limits report manifest, (verifyArchiveEntries entries limits = some report ∨
      ∃ verifier, verifyArchiveEntriesWithSignatures entries verifier limits = some report) ∧
    report.valid = true ∧ report.manifest = some manifest ∧ isUnsigned manifest = true

section Base

variable {entries : EntryMap} {limits : ArchiveVerificationLimits} {defer : Bool}
  {report : VerificationReport}

/-- What a report without issues has passed. -/
structure Passed (entries : EntryMap) (limits : ArchiveVerificationLimits) (defer : Bool)
    (report : VerificationReport) : Prop where
  limited : limitIssues limits entries = []
  listed : (readChecksums (entries.get checksumsPath)).1 = []
  checked : checksumIssues entries (readChecksums (entries.get checksumsPath)).2 = []
  manifest : readManifest (entries.get manifestPath) = ([], report.manifest)
  profile : profileIssues entries defer report.manifest = []

theorem passed_of_issues (h : verifyArchiveEntriesBase entries limits defer = some report)
    (hi : report.issues = []) : Passed entries limits defer report := by
  rw [verifyArchiveEntriesBase] at h
  obtain ⟨read, -, h⟩ := Option.bind_eq_some_iff.mp h
  obtain ⟨checked, -, h⟩ := Option.bind_eq_some_iff.mp h
  obtain ⟨blobs, -, h⟩ := Option.bind_eq_some_iff.mp h
  cases h
  simp only [List.append_eq_nil_iff] at hi
  obtain ⟨⟨⟨⟨⟨⟨⟨hlimited, hlisted⟩, hchecked⟩, hmanifest⟩, hprofile⟩, -⟩, -⟩, -⟩ := hi
  exact ⟨hlimited, hlisted, hchecked, Prod.ext hmanifest rfl, hprofile⟩

theorem issues_of_valid (h : verifyArchiveEntriesBase entries limits defer = some report)
    (hv : report.valid = true) : report.issues = [] := by
  rw [verifyArchiveEntriesBase] at h
  obtain ⟨read, -, h⟩ := Option.bind_eq_some_iff.mp h
  obtain ⟨checked, -, h⟩ := Option.bind_eq_some_iff.mp h
  obtain ⟨blobs, -, h⟩ := Option.bind_eq_some_iff.mp h
  cases h
  exact List.isEmpty_iff.mp hv

/-- A valid report with signatures is a report without issues, and a signature without. -/
theorem passed_of_signatures {verifier : ArchiveManifestVerifier}
    (h : verifyArchiveEntriesWithSignatures entries verifier limits = some report)
    (hv : report.valid = true) : Passed entries limits true report ∧
      ∀ manifest, report.manifest = some manifest → isUnsigned manifest = false →
        verifyManifestSignature entries manifest verifier = [] := by
  rw [verifyArchiveEntriesWithSignatures] at h
  obtain ⟨base, hbase, h⟩ := Option.bind_eq_some_iff.mp h
  cases h
  have hnil := List.isEmpty_iff.mp hv
  rw [List.append_eq_nil_iff] at hnil
  have hpassed := passed_of_issues hbase hnil.1
  refine ⟨⟨hpassed.limited, hpassed.listed, hpassed.checked, hpassed.manifest, hpassed.profile⟩, ?_⟩
  intro manifest hmanifest hsigned
  have hmanifest' : base.manifest = some manifest := hmanifest
  have hsignature := hnil.2
  rw [hmanifest'] at hsignature
  simpa only [hsigned, Bool.false_eq_true, if_false] using hsignature

/-- Every line has its entry, and every entry that needs one its line. -/
theorem checksumIssues_eq_nil {checksums : Checksums} (h : checksumIssues entries checksums = []) :
    (∀ path digest, checksums.lookup path = some digest →
      ∃ bytes, entries.get path = some bytes ∧ sha256 bytes = digest) ∧
    ∀ path bytes, entries.get path = some bytes → isUnchecked path = false →
      ∃ digest, checksums.lookup path = some digest := by
  rw [checksumIssues, List.append_eq_nil_iff, List.flatMap_eq_nil_iff,
    List.flatMap_eq_nil_iff] at h
  constructor
  · intro path digest hlookup
    have hline := h.1 (path, digest) (mem_of_lookup hlookup)
    simp only at hline
    split at hline
    · cases hline
    · rename_i bytes hbytes
      split at hline
      · rename_i hdigest
        exact ⟨bytes, hbytes, hdigest⟩
      · cases hline
  · intro path bytes hget hunchecked
    have hentry := h.2 (path, bytes) (mem_of_lookup hget)
    simp only [hunchecked, Bool.false_or] at hentry
    split at hentry
    · rename_i hsome
      exact Option.isSome_iff_exists.mp hsome
    · cases hentry

end Base

section Binding

variable {a b : EntryMap} {limitsA limitsB : ArchiveVerificationLimits} {deferA deferB : Bool}
  {reportA reportB : VerificationReport}

/-- One side of the comparison: an entry of one archive is an entry of the other. -/
theorem get_of_get (hA : Passed a limitsA deferA reportA) (hB : Passed b limitsB deferB reportB)
    (hsums : a.get checksumsPath = b.get checksumsPath) (hcf : CollisionFree (entryBytes a b))
    {path : JsString} (hpath : startsWith path (js "signatures/") = false) {bytes : Bytes}
    (hget : a.get path = some bytes) : b.get path = some bytes := by
  by_cases hc : path = checksumsPath
  · rw [hc] at hget ⊢
    rw [← hsums, hget]
  · have hunchecked : isUnchecked path = false := by
      rw [isUnchecked, hpath, Bool.or_false, beq_eq_false_iff_ne]
      exact hc
    obtain ⟨hlinesA, hentriesA⟩ := checksumIssues_eq_nil hA.checked
    obtain ⟨hlinesB, -⟩ := checksumIssues_eq_nil hB.checked
    obtain ⟨digest, hdigest⟩ := hentriesA path bytes hget hunchecked
    obtain ⟨bytesA, hgetA, hshaA⟩ := hlinesA path digest hdigest
    rw [hsums] at hdigest
    obtain ⟨bytesB, hgetB, hshaB⟩ := hlinesB path digest hdigest
    have hsame : bytesA = bytesB :=
      hcf ⟨path, Or.inl hgetA⟩ ⟨path, Or.inr hgetB⟩ (hshaA.trans hshaB.symm)
    rw [hget, Option.some.injEq] at hgetA
    rw [hgetB, ← hsame, hgetA]

theorem entryBytes_comm (a b : EntryMap) : entryBytes a b = entryBytes b a := by
  ext bytes
  simp only [entryBytes, Set.mem_ofPred_eq, or_comm]

theorem sameOutsideSignatures (hA : Passed a limitsA deferA reportA)
    (hB : Passed b limitsB deferB reportB) (hsums : a.get checksumsPath = b.get checksumsPath)
    (hcf : CollisionFree (entryBytes a b)) : SameOutsideSignatures a b := by
  intro path hpath
  cases hb : b.get path with
  | some bytes =>
    rw [entryBytes_comm] at hcf
    exact get_of_get hB hA hsums.symm hcf hpath hb
  | none =>
    cases ha : a.get path with
    | none => rfl
    | some bytes =>
      rw [get_of_get hA hB hsums hcf hpath ha] at hb
      cases hb

end Binding

section Payload

/-- The members of the signed message. -/
def payloadValue (checksums manifest : JsString) : JsValue :=
  .object [(js "checksumsSha256", .string checksums), (js "manifestSha256", .string manifest),
    (js "profile", .string signatureProfileName)]

theorem payload_text (checksums manifest : JsString) :
    ∃ t, canonicalJson (payloadValue checksums manifest) = some t ∧ isWellFormed t = true ∧
      parseJson t = some (payloadValue checksums manifest) := by
  obtain ⟨t, ht, hw, hp⟩ := parseJson_encode canonicalEncoder (payloadValue checksums manifest) rfl
  exact ⟨t, ht, hw, hp⟩

theorem signaturePayload_injective {manifest checksums manifest' checksums' : Bytes}
    (h : signaturePayload manifest checksums = signaturePayload manifest' checksums') :
    sha256 checksums = sha256 checksums' := by
  obtain ⟨t, ht, hw, hp⟩ := payload_text (sha256 checksums) (sha256 manifest)
  obtain ⟨t', ht', hw', hp'⟩ := payload_text (sha256 checksums') (sha256 manifest')
  have hline : isWellFormed [10] = true := rfl
  rw [signaturePayload, signaturePayload] at h
  have htext : t ++ [10] = t' ++ [10] := by
    apply textEncode_injective (isWellFormed_append _ _ hw hline)
      (isWellFormed_append _ _ hw' hline)
    have hvalue : textEncode ((canonicalJson (payloadValue (sha256 checksums)
        (sha256 manifest))).getD [] ++ [10]) =
      textEncode ((canonicalJson (payloadValue (sha256 checksums') (sha256 manifest'))).getD [] ++
        [10]) := h
    rwa [ht, ht', Option.getD_some, Option.getD_some] at hvalue
  rw [List.append_cancel_right htext, hp', Option.some.injEq] at hp
  simp only [payloadValue, JsValue.object.injEq, List.cons.injEq, Prod.mk.injEq,
    JsValue.string.injEq, true_and] at hp
  exact hp.1.symm

end Payload

section Signed

variable {entries : EntryMap} {limits : ArchiveVerificationLimits} {defer : Bool}
  {report : VerificationReport}

theorem get_checksums (h : Passed entries limits defer report) :
    ∃ bytes, entries.get checksumsPath = some bytes := by
  have hlisted := h.listed
  cases hget : entries.get checksumsPath with
  | none =>
    rw [hget] at hlisted
    cases hlisted
  | some bytes => exact ⟨bytes, rfl⟩

theorem get_manifest (h : Passed entries limits defer report) :
    ∃ bytes, entries.get manifestPath = some bytes := by
  have hmanifest := h.manifest
  cases hget : entries.get manifestPath with
  | none =>
    rw [hget] at hmanifest
    cases (Prod.mk.inj hmanifest).1
  | some bytes => exact ⟨bytes, rfl⟩

/-- A signature without issues is one that the verifier has accepted. -/
theorem verifyManifestSignature_eq_nil {manifest : JsValue} {verifier : ArchiveManifestVerifier}
    {manifestBytes checksumBytes : Bytes} (hm : entries.get manifestPath = some manifestBytes)
    (hc : entries.get checksumsPath = some checksumBytes)
    (h : verifyManifestSignature entries manifest verifier = []) :
    ∃ algorithm key signature, signingKey manifest = some key ∧
      verifier algorithm key (signaturePayload manifestBytes checksumBytes) signature = .valid := by
  cases hp : property manifest (js "signatureProfile") with
  | none =>
    simp only [verifyManifestSignature, hp, Option.bind_none, Option.getD_none] at h
    cases h
  | some profile =>
    cases profile with
    | object members =>
      simp only [verifyManifestSignature, hp, Option.bind_some, Option.getD_some, hm, hc] at h
      split at h
      · cases h
      · split at h
        · cases h
        · split at h
          · cases h
          · split at h
            · cases h
            · split at h
              · cases h
              · split at h
                · cases h
                · cases h
                · rename_i hanswer
                  refine ⟨_, _, _, ?_, hanswer⟩
                  rw [signingKey, hp]
                  rfl
    | _ =>
      simp only [verifyManifestSignature, hp, Option.bind_some, Option.getD_none] at h
      cases h

/-- The message of a signed archive is the one message that its verifier accepts. -/
theorem signed_message {verifier : ArchiveManifestVerifier} {manifest : JsValue}
    {message : Bytes} (h : AcceptedSigned verifier entries manifest)
    (honly : ∀ algorithm key m signature, signingKey manifest = some key →
      verifier algorithm key m signature = .valid → m = message) :
    ∃ limits report manifestBytes checksumBytes, Passed entries limits true report ∧
      entries.get checksumsPath = some checksumBytes ∧
      signaturePayload manifestBytes checksumBytes = message := by
  obtain ⟨limits, report, hreport, hvalid, hmanifest, hsigned⟩ := h
  obtain ⟨hpassed, hsignature⟩ := passed_of_signatures hreport hvalid
  obtain ⟨checksumBytes, hc⟩ := get_checksums hpassed
  obtain ⟨manifestBytes, hm⟩ := get_manifest hpassed
  obtain ⟨algorithm, key, signature, hkey, hanswer⟩ :=
    verifyManifestSignature_eq_nil hm hc (hsignature manifest hmanifest hsigned)
  exact ⟨limits, report, manifestBytes, checksumBytes, hpassed, hc,
    honly algorithm key _ signature hkey hanswer⟩

theorem passed_of_unsigned (h : AcceptedUnsigned entries) :
    ∃ limits defer report, Passed entries limits defer report := by
  obtain ⟨limits, report, manifest, hreport | ⟨verifier, hreport⟩, hvalid, -, -⟩ := h
  · exact ⟨limits, false, report, passed_of_issues hreport (issues_of_valid hreport hvalid)⟩
  · exact ⟨limits, true, report, (passed_of_signatures hreport hvalid).1⟩

end Signed

/-- Two signed archives under one message, and two unsigned archives with one checksum
file, have the same entries outside `signatures/`. -/
theorem valid_archives_bound (a b : EntryMap) (hcf : CollisionFree (entryBytes a b)) :
    (∀ verifier manifestA manifestB message, AcceptedSigned verifier a manifestA →
      AcceptedSigned verifier b manifestB →
      (∀ algorithm key m signature,
        signingKey manifestA = some key ∨ signingKey manifestB = some key →
          verifier algorithm key m signature = .valid → m = message) →
      SameOutsideSignatures a b) ∧
    (AcceptedUnsigned a → AcceptedUnsigned b → a.get checksumsPath = b.get checksumsPath →
      SameOutsideSignatures a b) := by
  constructor
  · intro verifier manifestA manifestB message hA hB honly
    obtain ⟨_, _, manifestBytesA, checksumsA, hpassedA, hgetA, hmessageA⟩ :=
      signed_message hA fun algorithm key m signature hkey =>
        honly algorithm key m signature (Or.inl hkey)
    obtain ⟨_, _, manifestBytesB, checksumsB, hpassedB, hgetB, hmessageB⟩ :=
      signed_message hB fun algorithm key m signature hkey =>
        honly algorithm key m signature (Or.inr hkey)
    have hsha : sha256 checksumsA = sha256 checksumsB :=
      signaturePayload_injective (hmessageA.trans hmessageB.symm)
    have hsums : checksumsA = checksumsB :=
      hcf ⟨_, Or.inl hgetA⟩ ⟨_, Or.inr hgetB⟩ hsha
    exact sameOutsideSignatures hpassedA hpassedB (by rw [hgetA, hgetB, hsums]) hcf
  · intro hA hB hsums
    obtain ⟨_, _, _, hpassedA⟩ := passed_of_unsigned hA
    obtain ⟨_, _, _, hpassedB⟩ := passed_of_unsigned hB
    exact sameOutsideSignatures hpassedA hpassedB hsums hcf

/-- The manifest of an archive without records. -/
def emptyManifest : TrustArchiveManifest :=
  ArchiveAssemble.manifestOf
    { exportId := js "e", workspaceId := js "w", datasetIds := [], createdAt := js "t",
      createdBy := js "u", sourceVersion := js "0.3", records := fun _ => [], blobs := [] }

/-- An archive of the manifest and its checksum. -/
def bareEntries : EntryMap :=
  let entries := EntryMap.empty.set manifestPath
    (textEncode ((canonicalJson emptyManifest.value).getD [] ++ [10]))
  entries.set checksumsPath (ArchiveAssemble.checksumFile unitsLe entries)

/-- The same archive with a note beside where a signature would be. -/
def notedEntries : EntryMap := bareEntries.set (js "signatures/note.txt") []

/-- The archive signed with key `k`; the signature is one byte. -/
def signedEntries : EntryMap :=
  ((ArchiveAssemble.signArchiveEntries unitsLe EntryMap.empty emptyManifest
    ⟨js "k", fun _ => [1]⟩).map Prod.fst).getD EntryMap.empty

/-- Accepts one message. -/
def oneMessageVerifier (message : Bytes) : ArchiveManifestVerifier :=
  fun _ _ m _ => if m = message then .valid else .invalid

def signedMessage : Bytes :=
  signaturePayload ((signedEntries.get manifestPath).getD [])
    ((signedEntries.get checksumsPath).getD [])

/-- Entries of one archive that are all entries of the other. -/
theorem collisionFree_entries {a b : EntryMap}
    (hn : ((b.entries.map Prod.snd).map sha256).Nodup)
    (hsub : ∀ path bytes, a.get path = some bytes → b.get path = some bytes) :
    CollisionFree (entryBytes a b) := by
  have hbytes : ∀ bytes ∈ entryBytes a b, bytes ∈ b.entries.map Prod.snd := by
    rintro bytes ⟨path, hget | hget⟩
    · exact List.mem_map_of_mem (mem_of_lookup (hsub path bytes hget))
    · exact List.mem_map_of_mem (mem_of_lookup hget)
  intro x hx y hy hxy
  exact List.inj_on_of_nodup_map hn (hbytes x hx) (hbytes y hy) hxy

theorem get_notedEntries {path : JsString} (h : path ≠ js "signatures/note.txt") :
    notedEntries.get path = bareEntries.get path := lookup_setMember_ne _ _ h

/-- What the samples read of a report: whether it is valid, and whether its manifest is unsigned. -/
def verdictOf (report : Option VerificationReport) : Option (Bool × Option Bool) :=
  report.map fun report => (report.valid, report.manifest.map isUnsigned)

theorem acceptedUnsigned_of_eval {entries : EntryMap}
    (h : verdictOf (verifyArchiveEntries entries defaults) = some (true, some true)) :
    AcceptedUnsigned entries := by
  obtain ⟨report, hreport, heq⟩ := Option.map_eq_some_iff.mp h
  obtain ⟨hvalid, hmanifest⟩ := Prod.mk.inj heq
  obtain ⟨manifest, hsome, hunsigned⟩ := Option.map_eq_some_iff.mp hmanifest
  exact ⟨defaults, report, manifest, Or.inl hreport, hvalid, hsome, hunsigned⟩

theorem acceptedSigned_of_eval {entries : EntryMap} {verifier : ArchiveManifestVerifier}
    (h : verdictOf (verifyArchiveEntriesWithSignatures entries verifier defaults) =
      some (true, some false)) :
    ∃ manifest, AcceptedSigned verifier entries manifest := by
  obtain ⟨report, hreport, heq⟩ := Option.map_eq_some_iff.mp h
  obtain ⟨hvalid, hmanifest⟩ := Prod.mk.inj heq
  obtain ⟨manifest, hsome, hsigned⟩ := Option.map_eq_some_iff.mp hmanifest
  exact ⟨manifest, defaults, report, hreport, hvalid, hsome, hsigned⟩

/-- One evaluation, for it shares the texts of the manifests. -/
theorem sample_verdicts :
    verdictOf (verifyArchiveEntries bareEntries defaults) = some (true, some true) ∧
    verdictOf (verifyArchiveEntries notedEntries defaults) = some (true, some true) ∧
    verdictOf (verifyArchiveEntriesWithSignatures signedEntries (oneMessageVerifier signedMessage)
      defaults) = some (true, some false) ∧
    bareEntries.get (js "signatures/note.txt") = none ∧
    ((notedEntries.entries.map Prod.snd).map sha256).Nodup ∧
    ((signedEntries.entries.map Prod.snd).map sha256).Nodup := by
  decide +kernel

theorem valid_archives_bound_samples :
    SameOutsideSignatures bareEntries notedEntries ∧
      SameOutsideSignatures signedEntries signedEntries := by
  obtain ⟨hbareVerdict, hnotedVerdict, hsignedVerdict, hnote, hdigests, hdigests'⟩ := sample_verdicts
  have hbare : AcceptedUnsigned bareEntries := acceptedUnsigned_of_eval hbareVerdict
  have hnoted : AcceptedUnsigned notedEntries := acceptedUnsigned_of_eval hnotedVerdict
  have hsigned : ∃ manifest, AcceptedSigned (oneMessageVerifier signedMessage) signedEntries manifest :=
    acceptedSigned_of_eval hsignedVerdict
  have hcf : CollisionFree (entryBytes bareEntries notedEntries) := by
    apply collisionFree_entries hdigests
    intro path bytes hget
    by_cases hpath : path = js "signatures/note.txt"
    · rw [hpath, hnote] at hget
      cases hget
    · rw [get_notedEntries hpath, hget]
  have hcf' : CollisionFree (entryBytes signedEntries signedEntries) :=
    collisionFree_entries hdigests' fun _ _ hget => hget
  have hsums : bareEntries.get checksumsPath = notedEntries.get checksumsPath :=
    (get_notedEntries (by decide)).symm
  obtain ⟨manifest, hsigned⟩ := hsigned
  constructor
  · exact (valid_archives_bound bareEntries notedEntries hcf).2 hbare hnoted hsums
  · apply (valid_archives_bound signedEntries signedEntries hcf').1 _ manifest manifest signedMessage
      hsigned hsigned
    intro algorithm key m signature _ hanswer
    by_contra hne
    rw [oneMessageVerifier, if_neg hne] at hanswer
    cases hanswer

end TrustCore.ArchiveVerify
