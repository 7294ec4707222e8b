import TrustCore.ArchiveManifest

/-!
# The signature artifact

The artifact that the signer writes is read back with its signature, and a verifier that accepts the
signature has nothing to report of it.
-/

namespace TrustCore.ArchiveVerify

open TrustCore.Utf TrustCore.Json TrustCore.Dynamic TrustCore.ArchiveFormat
open TrustCore.ArchiveAssemble (signatureArtifact reread property_reread read_canonical)

section Base64

theorem base64_digit : ∀ n < 64, base64Value (base64Unit n) = some n ∧ base64Unit n ≠ 61 := by
  decide +kernel

theorem byte_of_mod {n : Nat} {a : UInt8} (h : n % 256 = a.toNat) : UInt8.ofNat n = a := by
  rw [← UInt8.toNat_inj, UInt8.toNat_ofNat']
  exact h

theorem decodeBase64Groups_pair {a b x : Nat} (ha : a < 64) (hb : b < 64)
    (h : a * 64 + b = x * 16) :
    decodeBase64Groups [base64Unit a, base64Unit b, 61, 61] = some [.ofNat x] := by
  have hmod : (a * 64 + b) % 16 = 0 := by omega
  have hdiv : (a * 64 + b) / 16 = x := by omega
  simp only [decodeBase64Groups, (base64_digit a ha).1, (base64_digit b hb).1,
    Option.bind_eq_bind, Option.bind_some, hmod, if_true, hdiv]

theorem decodeBase64Groups_triple {a b c x : Nat} (ha : a < 64) (hb : b < 64) (hc : c < 64)
    (h : (a * 64 + b) * 64 + c = x * 4) :
    decodeBase64Groups [base64Unit a, base64Unit b, base64Unit c, 61] =
      some [.ofNat (x / 256), .ofNat x] := by
  have hmod : ((a * 64 + b) * 64 + c) % 4 = 0 := by omega
  have hfirst : ((a * 64 + b) * 64 + c) / 1024 = x / 256 := by omega
  have hsecond : ((a * 64 + b) * 64 + c) / 4 = x := by omega
  have hne := (base64_digit c hc).2
  rw [decodeBase64Groups]
  · simp only [(base64_digit a ha).1, (base64_digit b hb).1, (base64_digit c hc).1,
      Option.bind_eq_bind, Option.bind_some, hmod, if_true, hfirst, hsecond]
  · exact hne

theorem decodeBase64Groups_cons {a b c d x : Nat} (ha : a < 64) (hb : b < 64) (hc : c < 64)
    (hd : d < 64) (hx : ((a * 64 + b) * 64 + c) * 64 + d = x) {rest : JsString} {bytes : Bytes}
    (h : decodeBase64Groups rest = some bytes) :
    decodeBase64Groups (base64Unit a :: base64Unit b :: base64Unit c :: base64Unit d :: rest) =
      some (.ofNat (x / 65536) :: .ofNat (x / 256) :: .ofNat x :: bytes) := by
  have hne := (base64_digit d hd).2
  rw [decodeBase64Groups]
  · simp only [(base64_digit a ha).1, (base64_digit b hb).1, (base64_digit c hc).1,
      (base64_digit d hd).1, h, Option.bind_eq_bind, Option.bind_some, hx]
    rfl
  · intro _ h61
    exact absurd h61 hne
  · intro h61
    exact absurd h61 hne

theorem decodeBase64Groups_encode (bytes : Bytes) :
    decodeBase64Groups (encodeBase64 bytes) = some bytes := by
  induction bytes using encodeBase64.induct with
  | case1 => rfl
  | case2 a =>
    have ha := UInt8.toNat_lt a
    have hpair := @decodeBase64Groups_pair (a.toNat / 4) (a.toNat % 4 * 16) a.toNat (by omega)
      (by omega) (by omega)
    rw [UInt8.ofNat_toNat] at hpair
    exact hpair
  | case3 a b =>
    have ha := UInt8.toNat_lt a
    have hb := UInt8.toNat_lt b
    have hfirst : UInt8.ofNat ((a.toNat * 256 + b.toNat) / 256) = a := byte_of_mod (by omega)
    have hsecond : UInt8.ofNat (a.toNat * 256 + b.toNat) = b := byte_of_mod (by omega)
    let x := a.toNat * 256 + b.toNat
    have hx : x = a.toNat * 256 + b.toNat := rfl
    have htriple := @decodeBase64Groups_triple (x / 1024) (x / 16 % 64) (x % 16 * 4) x (by omega)
      (by omega) (by omega) (by omega)
    rw [hfirst, hsecond] at htriple
    exact htriple
  | case4 a b c rest ih =>
    have ha := UInt8.toNat_lt a
    have hb := UInt8.toNat_lt b
    have hc := UInt8.toNat_lt c
    let x := (a.toNat * 256 + b.toNat) * 256 + c.toNat
    have hx : x = (a.toNat * 256 + b.toNat) * 256 + c.toNat := rfl
    have hfirst : UInt8.ofNat (x / 65536) = a := byte_of_mod (by omega)
    have hsecond : UInt8.ofNat (x / 256) = b := byte_of_mod (by omega)
    have hthird : UInt8.ofNat x = c := byte_of_mod (by omega)
    have hgroup := @decodeBase64Groups_cons (x / 262144) (x / 4096 % 64) (x / 64 % 64) (x % 64) x
      (by omega) (by omega) (by omega) (by omega) (by omega) _ _ ih
    rw [hfirst, hsecond, hthird] at hgroup
    exact hgroup

theorem encodeBase64_ne_nil {bytes : Bytes} (h : bytes ≠ []) : encodeBase64 bytes ≠ [] := by
  match bytes with
  | [] => exact absurd rfl h
  | [a] => exact List.cons_ne_nil _ _
  | [a, b] => exact List.cons_ne_nil _ _
  | a :: b :: c :: rest => exact List.cons_ne_nil _ _

/-- A signature is decoded as it was encoded; the empty one is refused. -/
theorem decodeBase64_encodeBase64 {bytes : Bytes} (h : bytes ≠ []) :
    decodeBase64 (encodeBase64 bytes) = some bytes := by
  rw [decodeBase64, if_neg (encodeBase64_ne_nil h), decodeBase64Groups_encode]

end Base64

section Artifact

variable {keyId : JsString} {signature : Bytes}

/-- The members of the artifact in canonical order. -/
def artifactMembers (keyId : JsString) (signature : Bytes) : List (JsString × JsValue) :=
  [(js "algorithm", .string (js "Ed25519")), (js "keyId", .string keyId),
    (js "profile", .string signatureProfileName),
    (js "signature", .string (encodeBase64 signature)),
    (js "signatureEncoding", .string (js "base64")),
    (js "signedEntries", .array [.string manifestPath, .string checksumsPath])]

theorem reread_artifact (keyId : JsString) (signature : Bytes) :
    reread (signatureArtifact keyId signature) = .object (artifactMembers keyId signature) := rfl

theorem artifact_keys (keyId : JsString) (signature : Bytes) :
    (artifactMembers keyId signature).map Prod.fst = signatureKeys := rfl

theorem readSignatureArtifact_canonical (hkey : validKeyId (.string keyId) = true) {text : JsString}
    (htext : canonicalJson (signatureArtifact keyId signature) = some text) :
    readSignatureArtifact (textEncode (text ++ [10])) =
      some ⟨.string signatureProfileName, .string (js "Ed25519"), .string keyId,
        encodeBase64 signature⟩ := by
  obtain ⟨hdecode, hparse⟩ : textDecode (textEncode (text ++ [10])) = some (text ++ [10]) ∧
      parseJson (text ++ [10]) = some (reread (signatureArtifact keyId signature)) :=
    read_canonical rfl htext
  rw [readSignatureArtifact, hdecode, Option.bind_eq_bind, Option.bind_some, hparse,
    reread_artifact, Option.bind_eq_bind, Option.bind_some]
  have hprofile : field (artifactMembers keyId signature) (js "profile") =
    .string signatureProfileName := rfl
  have halgorithm : field (artifactMembers keyId signature) (js "algorithm") =
    .string (js "Ed25519") := rfl
  have hkeyId : field (artifactMembers keyId signature) (js "keyId") = .string keyId := rfl
  have hentries : field (artifactMembers keyId signature) (js "signedEntries") =
    .array [.string manifestPath, .string checksumsPath] := rfl
  have hencoding : field (artifactMembers keyId signature) (js "signatureEncoding") =
    .string (js "base64") := rfl
  have hsignature : field (artifactMembers keyId signature) (js "signature") =
    .string (encodeBase64 signature) := rfl
  have hsorted : signatureKeys.insertionSort (fun a b => unitsLe a b = true) = signatureKeys := by
    decide
  simp only [artifact_keys, hsorted, hprofile, halgorithm, hkeyId, hentries, hencoding, hsignature,
    hkey, strictEq_self, decide_true, Bool.and_self, if_true]

/-- The profile of a signed manifest. -/
structure SignedBy (manifest : JsValue) (keyId : JsString) : Prop where
  profile : ∃ members, property manifest (js "signatureProfile") = some (.object members) ∧
    field members (js "name") = .string signatureProfileName ∧
    field members (js "algorithm") = .string (js "Ed25519") ∧
    field members (js "keyId") = .string keyId

/-- Nothing is reported of a signature that the verifier accepts. -/
theorem verifyManifestSignature_accepted {entries : EntryMap} {manifest : JsValue}
    {verifier : ArchiveManifestVerifier} {manifestBytes checksumBytes : Bytes} {text : JsString}
    (hsigned : SignedBy manifest keyId) (hkey : validKeyId (.string keyId) = true)
    (htext : canonicalJson (signatureArtifact keyId signature) = some text)
    (hartifact : entries.get manifestSignaturePath = some (textEncode (text ++ [10])))
    (hmanifest : entries.get manifestPath = some manifestBytes)
    (hchecksums : entries.get checksumsPath = some checksumBytes) (hne : signature ≠ [])
    (hanswer : verifier (.string (js "Ed25519")) (.string keyId)
      (signaturePayload manifestBytes checksumBytes) signature = .valid) :
    verifyManifestSignature entries manifest verifier = [] := by
  obtain ⟨members, hprofile, hname, halgorithm, hkeyId⟩ := hsigned.profile
  simp only [verifyManifestSignature, hprofile, Option.bind_some, Option.getD_some, hname,
    halgorithm, hkeyId, strictEq_self, Bool.and_self, Bool.not_true, Bool.false_eq_true, if_false,
    hartifact, readSignatureArtifact_canonical hkey htext, hmanifest, hchecksums,
    decodeBase64_encodeBase64 hne, hanswer]

end Artifact

end TrustCore.ArchiveVerify
