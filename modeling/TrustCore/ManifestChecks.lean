import TrustCore.ArchiveVerify

/-!
# What is known of a manifest that was read

`readManifest` returns a manifest only when its header, its profile and its lineage have passed; the
encoding is checked after that, and a manifest that is not canonical is returned with an issue.
-/

namespace TrustCore.ArchiveVerify

open TrustCore.Utf TrustCore.Json TrustCore.Dynamic TrustCore.ArchiveFormat

theorem object_of_property {v : JsValue} {key s : JsString} (h : property v key = some (.string s)) :
    ∃ members, v = .object members ∧ field members key = .string s := by
  cases v with
  | object members => exact ⟨members, rfl, Option.some.inj h⟩
  | _ => cases h

/-- What was checked of a manifest and of its lineage. -/
structure CheckedManifest (members lineage : List (JsString × JsValue)) : Prop where
  format : field members (js "format") = .string (js "trustarchive")
  formatVersion : field members (js "formatVersion") = .string (js "0.2") ∨
    field members (js "formatVersion") = .string (js "0.3")
  checksumAlgorithm : field members (js "checksumAlgorithm") = .string (js "sha256")
  canonicalJsonProfile :
    field members (js "canonicalJsonProfile") = .string (js "trust-core-canonical-json-v1")
  profile : isUnsignedProfile (field members (js "formatVersion"))
      (field members (js "signatureProfile")) = true ∨
    isSignedProfile (field members (js "formatVersion"))
      (field members (js "signatureProfile")) = true
  auditLineage : field members (js "auditLineage") = .object lineage
  mode : field lineage (js "mode") = .string (js "source_chain")
  source :
    strictEq (field lineage (js "sourceWorkspaceId")) (field members (js "workspaceId")) = true
  eventCount : isSafeCount (field lineage (js "eventCount")) = true

/-- A manifest that is returned was checked; without an issue it is in canonical text. -/
theorem parseManifest_cases {data : Bytes} {issues : List ArchiveIssue} {manifest : Option JsValue}
    (h : parseManifest data = some (issues, manifest)) : manifest = none ∧ issues ≠ [] ∨
    ∃ text canonical members lineage, textDecode data = some text ∧
      parseJson text = some (.object members) ∧ manifest = some (.object members) ∧
      CheckedManifest members lineage ∧ canonicalJson (.object members) = some canonical ∧
      (issues = [] ↔ text = canonical ++ [10]) := by
  rw [parseManifest] at h
  obtain ⟨text, htext, h⟩ := Option.bind_eq_some_iff.mp h
  obtain ⟨value, hvalue, h⟩ := Option.bind_eq_some_iff.mp h
  obtain ⟨format, hformat, h⟩ := Option.bind_eq_some_iff.mp h
  obtain ⟨formatVersion, hversion, h⟩ := Option.bind_eq_some_iff.mp h
  obtain ⟨algorithm, halgorithm, h⟩ := Option.bind_eq_some_iff.mp h
  obtain ⟨canonicalProfile, hcanonical, h⟩ := Option.bind_eq_some_iff.mp h
  split at h
  · cases h
  rename_i hheader
  obtain ⟨profile, hprofile, h⟩ := Option.bind_eq_some_iff.mp h
  split at h
  · cases h
    exact Or.inl ⟨rfl, List.cons_ne_nil _ _⟩
  rename_i hknown
  obtain ⟨lineage, hlineage, h⟩ := Option.bind_eq_some_iff.mp h
  obtain ⟨mode, hmode, h⟩ := Option.bind_eq_some_iff.mp h
  obtain ⟨source, hsource, h⟩ := Option.bind_eq_some_iff.mp h
  obtain ⟨workspace, hworkspace, h⟩ := Option.bind_eq_some_iff.mp h
  obtain ⟨eventCount, hcount, h⟩ := Option.bind_eq_some_iff.mp h
  split at h
  · cases h
  rename_i hchain
  obtain ⟨canonical, hcanonicalText, h⟩ := Option.bind_eq_some_iff.mp h
  cases h
  simp only [Bool.not_eq_true', Bool.not_eq_false, Bool.and_eq_true, Bool.or_eq_true] at hheader hchain
  obtain ⟨⟨⟨hformat', hversion'⟩, halgorithm'⟩, hcanonical'⟩ := hheader
  obtain ⟨⟨hmode', hsource'⟩, hcount'⟩ := hchain
  obtain rfl := eq_of_strictEq hformat'
  obtain rfl := eq_of_strictEq halgorithm'
  obtain rfl := eq_of_strictEq hcanonical'
  obtain rfl := eq_of_strictEq hmode'
  obtain ⟨members, rfl, hformatField⟩ := object_of_property hformat
  obtain ⟨lineageMembers, rfl, hmodeField⟩ := object_of_property hmode
  have hversionField := Option.some.inj hversion
  have hprofileField := Option.some.inj hprofile
  have hcountField := Option.some.inj hcount
  have hsourceField := Option.some.inj hsource
  have hworkspaceField := Option.some.inj hworkspace
  refine Or.inr ⟨text, canonical, members, lineageMembers, htext, hvalue, rfl, ?_, hcanonicalText, ?_⟩
  · constructor
    · exact hformatField
    · rw [hversionField]
      exact hversion'.imp eq_of_strictEq eq_of_strictEq
    · exact Option.some.inj halgorithm
    · exact Option.some.inj hcanonical
    · rw [hversionField, hprofileField]
      simpa only [Bool.and_eq_true, Bool.not_eq_true', not_and_or, Bool.not_eq_false] using hknown
    · exact Option.some.inj hlineage
    · exact hmodeField
    · rw [hsourceField, hworkspaceField]
      exact hsource'
    · rw [hcountField]
      exact hcount'
  · simp

theorem readManifest_some {bytes : Option Bytes} {issues : List ArchiveIssue} {manifest : JsValue}
    (h : readManifest bytes = (issues, some manifest)) :
    ∃ data text canonical members lineage, bytes = some data ∧ textDecode data = some text ∧
      parseJson text = some (.object members) ∧ manifest = .object members ∧
      CheckedManifest members lineage ∧ canonicalJson (.object members) = some canonical ∧
      (issues = [] ↔ text = canonical ++ [10]) := by
  cases bytes with
  | none => cases h
  | some data =>
    rw [readManifest] at h
    cases hparse : parseManifest data with
    | none =>
      rw [hparse] at h
      cases h
    | some read =>
      rw [hparse] at h
      rcases parseManifest_cases (hparse.trans (congrArg some h)) with ⟨hnone, -⟩ |
        ⟨text, canonical, members, lineage, htext, hvalue, hmanifest, hchecked⟩
      · cases hnone
      · exact ⟨data, text, canonical, members, lineage, rfl, htext, hvalue,
          Option.some.inj hmanifest, hchecked⟩

theorem exists_manifest {bytes : Option Bytes} (h : (readManifest bytes).1 = []) :
    ∃ manifest, (readManifest bytes).2 = some manifest := by
  cases bytes with
  | none => cases h
  | some data =>
    rw [readManifest] at h ⊢
    cases hparse : parseManifest data with
    | none =>
      rw [hparse] at h
      cases h
    | some read =>
      rw [hparse] at h
      rw [Option.getD_some] at h ⊢
      rcases parseManifest_cases hparse with ⟨-, hne⟩ | ⟨-, -, members, -, -, -, hsome, -⟩
      · exact absurd h hne
      · exact ⟨.object members, hsome⟩

/-- A checked manifest in canonical text is read without an issue. -/
theorem readManifest_checked {data : Bytes} {canonical : JsString}
    {members lineage : List (JsString × JsValue)} (hdecode : textDecode data = some (canonical ++ [10]))
    (hparse : parseJson (canonical ++ [10]) = some (.object members))
    (h : CheckedManifest members lineage)
    (hcanonical : canonicalJson (.object members) = some canonical) :
    readManifest (some data) = ([], some (.object members)) := by
  have hversion : (strictEq (field members (js "formatVersion")) (.string (js "0.2")) ||
      strictEq (field members (js "formatVersion")) (.string (js "0.3"))) = true := by
    rw [Bool.or_eq_true, strictEq_string, strictEq_string]
    exact h.formatVersion
  have hprofile : (!isUnsignedProfile (field members (js "formatVersion"))
        (field members (js "signatureProfile")) &&
      !isSignedProfile (field members (js "formatVersion"))
        (field members (js "signatureProfile"))) = false := by
    rcases h.profile with hp | hp
    · rw [hp, Bool.not_true, Bool.false_and]
    · rw [hp, Bool.not_true, Bool.and_false]
  have hfield : ∀ ms key, property (.object ms) key = some (field ms key) := fun _ _ => rfl
  rw [readManifest, parseManifest, hdecode]
  simp only [Option.bind_eq_bind, Option.bind_some, hparse, hfield, h.format, hversion,
    h.checksumAlgorithm, h.canonicalJsonProfile, hprofile, h.auditLineage, h.mode, h.source,
    h.eventCount, hcanonical, strictEq_self, Bool.and_self, Bool.not_true, Bool.false_eq_true,
    if_false, if_true]
  rfl

end TrustCore.ArchiveVerify
