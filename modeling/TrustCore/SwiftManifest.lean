import TrustCore.ManifestChecks
import TrustCore.SwiftLines

/-!
# The manifest on both sides

What the server has checked of an unsigned manifest, and the members that the client decodes besides.
-/

namespace TrustCore.SwiftArchive

open TrustCore.Utf TrustCore.Json TrustCore.Dynamic TrustCore.ArchiveFormat TrustCore.Swift
open TrustCore.ArchiveVerify (isUnsigned isUnsignedProfile parseManifest parseManifest_cases)

/-- What the server has checked of an unsigned manifest. -/
structure UnsignedManifest (members lineage : List (JsString × JsValue)) : Prop where
  format : field members (js "format") = .string (js "trustarchive")
  formatVersion : field members (js "formatVersion") = .string (js "0.2")
  checksumAlgorithm : field members (js "checksumAlgorithm") = .string (js "sha256")
  canonicalJsonProfile :
    field members (js "canonicalJsonProfile") = .string (js "trust-core-canonical-json-v1")
  signatureProfile : field members (js "signatureProfile") = .string (js "unsigned")
  auditLineage : field members (js "auditLineage") = .object lineage
  mode : field lineage (js "mode") = .string (js "source_chain")
  source : field lineage (js "sourceWorkspaceId") = field members (js "workspaceId")

theorem unsigned_of_parseManifest {data : Bytes} {manifest : Option JsValue}
    (h : parseManifest data = some ([], manifest))
    (hunsigned : ∀ v, manifest = some v → isUnsigned v = true) :
    ∃ text members lineage, textDecode data = some text ∧ parseJson text = some (.object members) ∧
      UnsignedManifest members lineage := by
  rcases parseManifest_cases h with ⟨-, hissues⟩ |
    ⟨text, canonical, members, lineage, htext, hvalue, rfl, hchecked, -⟩
  · exact absurd rfl hissues
  have hprofile : field members (js "signatureProfile") = .string (js "unsigned") :=
    eq_of_strictEq (hunsigned _ rfl)
  have hversion : field members (js "formatVersion") = .string (js "0.2") := by
    rcases hchecked.profile with hprofile' | hprofile'
    · rw [isUnsignedProfile, Bool.and_eq_true] at hprofile'
      exact eq_of_strictEq hprofile'.1
    · rw [hprofile] at hprofile'
      cases hprofile'
  exact ⟨text, members, lineage, htext, hvalue, hchecked.format, hversion,
    hchecked.checksumAlgorithm, hchecked.canonicalJsonProfile, hprofile, hchecked.auditLineage,
    hchecked.mode, eq_of_strictEq hchecked.source⟩

/-- A text, or nothing. -/
def IsOptional (v : Option JsValue) : Prop := v = none ∨ v = some .null ∨ ∃ s, v = some (.string s)

/-- The members that the client decodes and the server does not check, each of its type; an integer
is one of 64 bits. -/
structure Typed (members lineage : List (JsString × JsValue)) : Prop where
  exportId : ∃ s, member members "exportId" = some (.string s)
  workspaceId : ∃ s, member members "workspaceId" = some (.string s)
  datasetIds : ∃ ids : List JsString, member members "datasetIds" = some (.array (ids.map .string))
  createdAt : ∃ s, member members "createdAt" = some (.string s)
  createdBy : ∃ s, member members "createdBy" = some (.string s)
  sourceVersion : ∃ s, member members "sourceVersion" = some (.string s)
  eventCount : ∃ v n, member lineage "eventCount" = some v ∧ decodeInt v = some n
  firstEventHash : IsOptional (member lineage "firstEventHash")
  lastEventHash : IsOptional (member lineage "lastEventHash")
  recordCounts : ∃ counts, member members "recordCounts" = some (.object counts) ∧
    ∀ count ∈ counts, ∃ n, decodeInt count.2 = some n
  blobCount : ∃ v n, member members "blobCount" = some v ∧ decodeInt v = some n
  totalBlobBytes : ∃ v n, member members "totalBlobBytes" = some v ∧ decodeInt v = some n

theorem decodeString_eq_some {v : JsValue} {s : JsString} :
    decodeString v = some s ↔ v = .string s := by
  cases v <;> simp [decodeString]

theorem decodeOptional_isSome {v : Option JsValue} :
    (∃ s, decodeOptional v = some s) ↔ IsOptional v := by
  rw [IsOptional]
  cases v with
  | none => simp [decodeOptional]
  | some v => cases v <;> simp [decodeOptional]

theorem decodeStrings_isSome {v : JsValue} :
    (∃ ids, decodeStrings v = some ids) ↔ ∃ ids : List JsString, v = .array (ids.map .string) := by
  constructor
  · rintro ⟨ids, h⟩
    cases v with
    | array items =>
      have hitems := ImportReferences.mapM_eq_some h
      refine ⟨ids, congrArg JsValue.array ?_⟩
      rw [← List.forall₂_eq_eq_eq, List.forall₂_map_right_iff]
      exact hitems.imp fun v s hv => decodeString_eq_some.mp hv
    | _ => cases h
  · rintro ⟨ids, rfl⟩
    rw [decodeStrings]
    refine ArchiveAssemble.exists_mapM fun v hv => ?_
    obtain ⟨s, -, rfl⟩ := List.mem_map.mp hv
    exact ⟨s, rfl⟩

theorem decodeCounts_isSome {v : JsValue} :
    (∃ counts, decodeCounts v = some counts) ↔
      ∃ counts, v = .object counts ∧ ∀ count ∈ counts, ∃ n, decodeInt count.2 = some n := by
  constructor
  · rintro ⟨result, h⟩
    cases v with
    | object counts =>
      refine ⟨counts, rfl, fun count hcount => ?_⟩
      obtain ⟨c, -, hc⟩ := (ImportReferences.mem_of_forall₂ (ImportReferences.mapM_eq_some h)).1 count hcount
      obtain ⟨n, hn, -⟩ := Option.map_eq_some_iff.mp hc
      exact ⟨n, hn⟩
    | _ => cases h
  · rintro ⟨counts, rfl, hcounts⟩
    rw [decodeCounts]
    refine ArchiveAssemble.exists_mapM fun count hcount => ?_
    obtain ⟨n, hn⟩ := hcounts count hcount
    exact ⟨(count.1, n), by rw [hn]; rfl⟩

section Decode

variable {P : Platform} {members lineage : List (JsString × JsValue)}

theorem typed_of_decodeFields {m : Manifest}
    (hlineage : member members "auditLineage" = some (.object lineage))
    (h : decodeFields P (.object members) = some m) : Typed members lineage := by
  rw [decodeFields] at h
  obtain ⟨_, -, h⟩ := Option.bind_eq_some_iff.mp h
  obtain ⟨_, -, h⟩ := Option.bind_eq_some_iff.mp h
  obtain ⟨exportId, hexport, h⟩ := Option.bind_eq_some_iff.mp h
  obtain ⟨workspaceId, hworkspace, h⟩ := Option.bind_eq_some_iff.mp h
  obtain ⟨datasetIds, hdatasets, h⟩ := Option.bind_eq_some_iff.mp h
  obtain ⟨createdAt, hcreatedAt, h⟩ := Option.bind_eq_some_iff.mp h
  obtain ⟨createdBy, hcreatedBy, h⟩ := Option.bind_eq_some_iff.mp h
  obtain ⟨sourceVersion, hversion, h⟩ := Option.bind_eq_some_iff.mp h
  obtain ⟨_, -, h⟩ := Option.bind_eq_some_iff.mp h
  obtain ⟨_, -, h⟩ := Option.bind_eq_some_iff.mp h
  obtain ⟨_, -, h⟩ := Option.bind_eq_some_iff.mp h
  obtain ⟨auditLineage, haudit, h⟩ := Option.bind_eq_some_iff.mp h
  obtain ⟨recordCounts, hcounts, h⟩ := Option.bind_eq_some_iff.mp h
  obtain ⟨blobCount, hblobs, h⟩ := Option.bind_eq_some_iff.mp h
  obtain ⟨totalBlobBytes, hbytes, -⟩ := Option.bind_eq_some_iff.mp h
  rw [hlineage, Option.bind_some, decodeLineage] at haudit
  obtain ⟨_, -, haudit⟩ := Option.bind_eq_some_iff.mp haudit
  obtain ⟨_, -, haudit⟩ := Option.bind_eq_some_iff.mp haudit
  obtain ⟨eventCount, hevents, haudit⟩ := Option.bind_eq_some_iff.mp haudit
  obtain ⟨firstEventHash, hfirst, haudit⟩ := Option.bind_eq_some_iff.mp haudit
  obtain ⟨lastEventHash, hlast, -⟩ := Option.bind_eq_some_iff.mp haudit
  have hstring : ∀ {key : String} {s : JsString},
      (member members key).bind decodeString = some s → ∃ s, member members key = some (.string s) := by
    intro key s hkey
    obtain ⟨v, hv, hs⟩ := Option.bind_eq_some_iff.mp hkey
    exact ⟨s, by rw [hv, decodeString_eq_some.mp hs]⟩
  have hint : ∀ {ms : List (JsString × JsValue)} {key : String} {n : Int},
      (member ms key).bind decodeInt = some n →
        ∃ v n, member ms key = some v ∧ decodeInt v = some n := by
    intro ms key n hkey
    obtain ⟨v, hv, hn⟩ := Option.bind_eq_some_iff.mp hkey
    exact ⟨v, n, hv, hn⟩
  refine ⟨hstring hexport, hstring hworkspace, ?_, hstring hcreatedAt, hstring hcreatedBy,
    hstring hversion, hint hevents, decodeOptional_isSome.mp ⟨_, hfirst⟩,
    decodeOptional_isSome.mp ⟨_, hlast⟩, ?_, hint hblobs, hint hbytes⟩
  · obtain ⟨v, hv, hids⟩ := Option.bind_eq_some_iff.mp hdatasets
    obtain ⟨ids, rfl⟩ := decodeStrings_isSome.mp ⟨_, hids⟩
    exact ⟨ids, hv⟩
  · obtain ⟨v, hv, hcounts⟩ := Option.bind_eq_some_iff.mp hcounts
    obtain ⟨counts, rfl, hall⟩ := decodeCounts_isSome.mp ⟨_, hcounts⟩
    exact ⟨counts, hv, hall⟩

theorem decodeManifest_ok {data : Bytes} {m : Manifest}
    (hfields : (P.jsonValue data).bind (decodeFields P) = some m) (hcompatible : isCompatible P m = true)
    (hknown : isKnownProfile P m = true) : decodeManifest P data = .ok m := by
  rw [decodeManifest, hfields]
  simp only [hcompatible, hknown, Bool.not_true, Bool.false_eq_true, if_false]

/-- A manifest that the server takes is decoded when its other members have their types. -/
theorem decodeManifest_iff {data : Bytes} (h : UnsignedManifest members lineage)
    (hdata : P.jsonValue data = some (.object members)) :
    (∃ m, decodeManifest P data = .ok m) ↔ Typed members lineage := by
  have hformat := lookup_of_field h.format (by simp)
  have hversion := lookup_of_field h.formatVersion (by simp)
  have halgorithm := lookup_of_field h.checksumAlgorithm (by simp)
  have hcanonical := lookup_of_field h.canonicalJsonProfile (by simp)
  have hsignature := lookup_of_field h.signatureProfile (by simp)
  have hlineage := lookup_of_field h.auditLineage (by simp)
  have hmode := lookup_of_field h.mode (by simp)
  have hsame : ∀ s, P.tables.same s s = true := fun s => by rw [Tables.same, beq_self_eq_true]
  constructor
  · rintro ⟨m, hm⟩
    rw [decodeManifest, hdata, Option.bind_some] at hm
    cases hfields : decodeFields P (.object members) with
    | none =>
      rw [hfields] at hm
      cases hm
    | some m' => exact typed_of_decodeFields hlineage hfields
  · intro ht
    obtain ⟨exportId, hexport⟩ := ht.exportId
    obtain ⟨workspaceId, hworkspace⟩ := ht.workspaceId
    obtain ⟨ids, hids⟩ := ht.datasetIds
    obtain ⟨datasetIds, hdatasets⟩ := decodeStrings_isSome.mpr ⟨ids, rfl⟩
    obtain ⟨createdAt, hcreatedAt⟩ := ht.createdAt
    obtain ⟨createdBy, hcreatedBy⟩ := ht.createdBy
    obtain ⟨sourceVersion, hsourceVersion⟩ := ht.sourceVersion
    obtain ⟨eventValue, eventCount, hevent, hevents⟩ := ht.eventCount
    obtain ⟨firstEventHash, hfirst⟩ := decodeOptional_isSome.mpr ht.firstEventHash
    obtain ⟨lastEventHash, hlast⟩ := decodeOptional_isSome.mpr ht.lastEventHash
    obtain ⟨counts, hcountsMember, hall⟩ := ht.recordCounts
    obtain ⟨recordCounts, hcounts⟩ := decodeCounts_isSome.mpr ⟨counts, rfl, hall⟩
    obtain ⟨blobValue, blobCount, hblob, hblobs⟩ := ht.blobCount
    obtain ⟨bytesValue, totalBlobBytes, hbytesMember, hbytes⟩ := ht.totalBlobBytes
    have hsource : lineage.lookup (js "sourceWorkspaceId") = some (.string workspaceId) := by
      refine lookup_of_field (h.source.trans ?_) (by simp)
      rw [field]
      rw [member] at hworkspace
      rw [hworkspace]
      rfl
    have hfields : decodeFields P (.object members) = some
        { format := js "trustarchive", formatVersion := js "0.2", exportId, workspaceId, datasetIds,
          createdAt, createdBy, sourceVersion, checksumAlgorithm := js "sha256",
          canonicalJsonProfile := js "trust-core-canonical-json-v1", signatureProfile := .unsigned,
          auditLineage :=
            ⟨js "source_chain", workspaceId, eventCount, firstEventHash, lastEventHash⟩,
          recordCounts, blobCount, totalBlobBytes } := by
      simp only [member] at hexport hworkspace hids hcreatedAt hcreatedBy hsourceVersion
      simp only [member] at hevent hfirst hlast hcountsMember hblob hbytesMember
      simp only [decodeFields, decodeLineage, decodeProfile, member, hformat, hversion, halgorithm,
        hcanonical, hsignature, hlineage, hmode, hsource, hexport, hworkspace, hids, hdatasets,
        hcreatedAt, hcreatedBy, hsourceVersion, hevent, hevents, hfirst, hlast, hcountsMember,
        hcounts, hblob, hblobs, hbytesMember, hbytes, hsame, decodeString, Option.bind_some,
        Option.bind_eq_bind, if_true, pure]
    refine ⟨_, decodeManifest_ok (by rw [hdata, Option.bind_some, hfields]) ?_ ?_⟩
    · simp only [isCompatible, hsame, Bool.and_self]
    · exact hsame _

end Decode

end TrustCore.SwiftArchive
