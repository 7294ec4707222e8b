import TrustCore.ImportPlan

/-!
# Ids of imported records

The Postgres adapter stores an id that looks like a UUID as it is and replaces
any other by a digest of it. The planner gives the records of a mapped workspace
ids of its own, which look like UUIDs and depend on the source id through a
truncated digest.
-/

namespace TrustCore.EntityIds

open TrustCore.Utf TrustCore.Json TrustCore.Dynamic TrustCore.Sha256 TrustCore.ArchiveFormat
open TrustCore.ImportPlan

/-- `[0-9a-f]` of a pattern that ignores case. -/
def isHexUnit (u : UInt16) : Bool := isLowerHex u || decide (65 ≤ u.toNat ∧ u.toNat ≤ 70)

def isHexPart (n : Nat) (s : JsString) : Bool := s.length == n && s.all isHexUnit

/-- `/^[0-9a-f]{8}-[0-9a-f]{4}-[1-5][0-9a-f]{3}-[89ab][0-9a-f]{3}-[0-9a-f]{12}$/i`. -/
def isUuid (s : JsString) : Bool :=
  match splitAt 45 s with
  | [time, mid, version :: high, variant :: clock, node] =>
    isHexPart 8 time && isHexPart 4 mid && decide (49 ≤ version.toNat ∧ version.toNat ≤ 53) &&
      isHexPart 3 high && (js "89abAB").contains variant && isHexPart 3 clock && isHexPart 12 node
  | _ => false

def deterministicUuid (value : JsString) : JsString :=
  let hex := (sha256Text value).take 32
  let variant := (js "89ab").getD ((hexValue (hex.getD 16 48)).getD 0 % 4) 56
  let hex := (hex.set 12 52).set 16 variant
  hex.take 8 ++ js "-" ++ (hex.drop 8).take 4 ++ js "-" ++ (hex.drop 12).take 4 ++ js "-" ++
    (hex.drop 16).take 4 ++ js "-" ++ hex.drop 20

/-- `id` of the adapter: the id a row is stored under. -/
def storedId (value : JsString) : JsString := if isUuid value then value else deterministicUuid value

section MappedIds

/-- The text that a mapped id is a digest of. -/
def mappingText (workspaceId : JsString) (kind : ArchiveRecordKind) (sourceId : JsString) : JsString :=
  (canonicalJson <| .object
    [(js "format", .string (js "trust-import-mapped-id-v1")), (js "workspaceId", .string workspaceId),
      (js "kind", .string kind.text), (js "sourceId", .string sourceId)]).getD []

def nibble (digest : JsString) (i : Nat) : Nat := (hexValue (digest.getD i 48)).getD 0

/-- The first thirty-two digits of a digest, with the version and the variant of a UUID. -/
def truncatedUuid (digest : JsString) : JsString :=
  digest.take 8 ++ js "-" ++ (digest.drop 8).take 4 ++ js "-5" ++ (digest.drop 13).take 3 ++
    js "-" ++ hexByte ((nibble digest 16 * 16 + nibble digest 17) % 64 + 128) ++
    (digest.drop 18).take 2 ++ js "-" ++ (digest.drop 20).take 12

theorem mappedEntityId_eq (workspaceId : JsString) (kind : ArchiveRecordKind) (sourceId : JsString) :
    mappedEntityId workspaceId kind sourceId =
      truncatedUuid (sha256Text (mappingText workspaceId kind sourceId)) := rfl

theorem isHexPart_slice {digest : JsString} (h : isSha256 digest = true) {i n : Nat}
    (hn : i + n ≤ 64) : isHexPart n ((digest.drop i).take n) = true := by
  rw [isHexPart, Bool.and_eq_true, beq_iff_eq, List.all_eq_true]
  constructor
  · rw [List.length_take, List.length_drop, isSha256_length h]
    omega
  · intro u hu
    have hmem := List.mem_of_mem_drop (List.mem_of_mem_take hu)
    rw [isHexUnit, isSha256_isLowerHex h u hmem]
    rfl

theorem ne_dash_of_hex {u : UInt16} (h : isHexUnit u = true) : u ≠ 45 := by
  intro hu
  rw [hu] at h
  revert h
  decide

theorem hexPart_ne_dash {n : Nat} {s : JsString} (h : isHexPart n s = true) : ∀ u ∈ s, u ≠ 45 := by
  rw [isHexPart, Bool.and_eq_true, List.all_eq_true] at h
  exact fun u hu => ne_dash_of_hex (h.2 u hu)

/-- Five parts of a UUID joined by dashes. -/
theorem splitAt_parts {a b c d e : JsString} (ha : ∀ u ∈ a, u ≠ 45) (hb : ∀ u ∈ b, u ≠ 45)
    (hc : ∀ u ∈ c, u ≠ 45) (hd : ∀ u ∈ d, u ≠ 45) (he : ∀ u ∈ e, u ≠ 45) :
    splitAt 45 (a ++ 45 :: (b ++ 45 :: (c ++ 45 :: (d ++ 45 :: e)))) = [a, b, c, d, e] := by
  rw [splitAt_append a _ ha, splitAt_append b _ hb, splitAt_append c _ hc, splitAt_append d _ hd,
    splitAt_last e he]

/-- The first digit of the variant byte is 8, 9, a or b, and the second any. -/
theorem hexByte_variant (n : Nat) : ∃ variant low, hexByte (n % 64 + 128) = [variant, low] ∧
    (js "89abAB").contains variant = true ∧ isHexUnit variant = true ∧ isHexUnit low = true := by
  have hall : ∀ m < 64, (js "89abAB").contains (hexDigit ((m + 128) / 16 % 16)) = true ∧
      isHexUnit (hexDigit ((m + 128) / 16 % 16)) = true ∧
      isHexUnit (hexDigit ((m + 128) % 16)) = true := by decide +kernel
  obtain ⟨hvariant, hhigh, hlow⟩ := hall (n % 64) (Nat.mod_lt _ (by decide))
  exact ⟨_, _, rfl, hvariant, hhigh, hlow⟩

/-- A mapped id looks like a UUID. -/
theorem isUuid_truncatedUuid {digest : JsString} (h : isSha256 digest = true) :
    isUuid (truncatedUuid digest) = true := by
  obtain ⟨variant, low, hbyte, hvariant, hhigh, hlow⟩ :=
    hexByte_variant (nibble digest 16 * 16 + nibble digest 17)
  have htime := @isHexPart_slice digest h 0 8 (by decide)
  have hmid := @isHexPart_slice digest h 8 4 (by decide)
  have hversion := @isHexPart_slice digest h 13 3 (by decide)
  have hclock := @isHexPart_slice digest h 18 2 (by decide)
  have hnode := @isHexPart_slice digest h 20 12 (by decide)
  rw [List.drop_zero] at htime
  have hclock' : isHexPart 3 (low :: (digest.drop 18).take 2) = true := by
    rw [isHexPart, Bool.and_eq_true, beq_iff_eq] at hclock ⊢
    rw [List.length_cons, hclock.1, List.all_cons, hlow, hclock.2]
    exact ⟨rfl, rfl⟩
  have hshape : truncatedUuid digest = digest.take 8 ++ 45 :: ((digest.drop 8).take 4 ++
      45 :: ((53 :: (digest.drop 13).take 3) ++ 45 :: ((variant :: low :: (digest.drop 18).take 2) ++
        45 :: (digest.drop 20).take 12))) := by
    rw [truncatedUuid, hbyte]
    have hdash : js "-" = [45] := rfl
    have hfive : js "-5" = [45, 53] := rfl
    simp only [hdash, hfive, List.append_assoc, List.cons_append, List.nil_append]
  have hsplit := @splitAt_parts (digest.take 8) ((digest.drop 8).take 4)
    (53 :: (digest.drop 13).take 3) (variant :: low :: (digest.drop 18).take 2)
    ((digest.drop 20).take 12) (hexPart_ne_dash htime) (hexPart_ne_dash hmid)
    (by
      intro u hu
      rcases List.mem_cons.mp hu with rfl | hu
      · decide
      · exact hexPart_ne_dash hversion u hu)
    (by
      intro u hu
      rcases List.mem_cons.mp hu with rfl | hu
      · exact ne_dash_of_hex hhigh
      · exact hexPart_ne_dash hclock' u hu)
    (hexPart_ne_dash hnode)
  have hfive : decide (49 ≤ (53 : UInt16).toNat ∧ (53 : UInt16).toNat ≤ 53) = true := rfl
  rw [isUuid, hshape, hsplit]
  simp only [htime, hmid, hversion, hvariant, hclock', hnode, hfive, Bool.and_self]

/-- The adapter stores a mapped id as it is. -/
theorem storedId_mappedEntityId (workspaceId : JsString) (kind : ArchiveRecordKind)
    (sourceId : JsString) :
    storedId (mappedEntityId workspaceId kind sourceId) = mappedEntityId workspaceId kind sourceId := by
  have hdigest : isSha256 (sha256Text (mappingText workspaceId kind sourceId)) = true :=
    isSha256_sha256 _
  rw [storedId, mappedEntityId_eq, if_pos (isUuid_truncatedUuid hdigest)]

theorem mappingText_injective {workspaceId : JsString} {kind : ArchiveRecordKind} {a b : JsString}
    (h : textEncode (mappingText workspaceId kind a) = textEncode (mappingText workspaceId kind b)) :
    a = b := by
  have htext : ∀ sourceId, ∃ t, canonicalJson (.object
      [(js "format", .string (js "trust-import-mapped-id-v1")),
        (js "workspaceId", .string workspaceId), (js "kind", .string kind.text),
        (js "sourceId", .string sourceId)]) = some t ∧ isWellFormed t = true ∧
      ∃ v, parseJson t = some v ∧ property v (js "sourceId") = some (.string sourceId) := by
    intro sourceId
    obtain ⟨t, ht, hwell, hparse⟩ := parseJson_encode canonicalEncoder (.object
      [(js "format", .string (js "trust-import-mapped-id-v1")),
        (js "workspaceId", .string workspaceId), (js "kind", .string kind.text),
        (js "sourceId", .string sourceId)]) rfl
    exact ⟨t, ht, hwell, _, hparse, rfl⟩
  obtain ⟨t, ht, hwell, v, hparse, hv⟩ := htext a
  obtain ⟨t', ht', hwell', v', hparse', hv'⟩ := htext b
  rw [mappingText, mappingText, ht, ht', Option.getD_some, Option.getD_some] at h
  rw [textEncode_injective hwell hwell' h, hparse', Option.some.injEq] at hparse
  rw [← hparse, hv', Option.some.injEq, JsValue.string.injEq] at hv
  exact hv.symm

/-- The messages of the mapped ids of a kind. -/
def mappingMessages (workspaceId : JsString) (kind : ArchiveRecordKind) (ids : List JsString) :
    Set Bytes := { m | ∃ id ∈ ids, m = textEncode (mappingText workspaceId kind id) }

/-- No two messages of a set share the truncated digest. -/
def TruncatedCollisionFree (messages : Set Bytes) : Prop :=
  Set.InjOn (fun m => truncatedUuid (sha256 m)) messages

theorem mappedEntityId_injOn {workspaceId : JsString} {kind : ArchiveRecordKind} {ids : List JsString}
    (hc : TruncatedCollisionFree (mappingMessages workspaceId kind ids)) :
    Set.InjOn (mappedEntityId workspaceId kind) { id | id ∈ ids } := by
  intro a ha b hb hab
  rw [mappedEntityId_eq, mappedEntityId_eq] at hab
  exact mappingText_injective (hc ⟨a, ha, rfl⟩ ⟨b, hb, rfl⟩ hab)

end MappedIds

end TrustCore.EntityIds
