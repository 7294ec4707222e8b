import TrustCore.ArchiveFormat
import TrustCore.History
import TrustCore.SchemaPackages

/-!
# Four canonical encodings

The audit chain, the archive and the schema registry sort the keys of an object by code unit; the
history service sorts them by the collation of its host. All four give one text where, at every
object inside a payload, the collation has the keys in code unit order, and nowhere else.
-/

namespace TrustCore.CanonicalForms

open TrustCore.Utf TrustCore.Json TrustCore.Columns TrustCore.AuditChain TrustCore.AuditLog
open TrustCore.ArchiveFormat TrustCore.SchemaPackages TrustCore.Sha256

/-! ## The order of keys -/

section Orders

variable {E E' : Encoder} {α : Type}

/-- The keys of an object in the order of a stable sort. -/
def sortedKeys (keyLe : JsString → JsString → Bool) (members : List (JsString × α)) :
    List JsString :=
  (members.map Prod.fst).insertionSort fun a b => keyLe a b = true

mutual
/-- Two orders of keys are the same at every object of a value. -/
def keysAgree (keyLe keyLe' : JsString → JsString → Bool) : JsValue → Bool
  | .array items => keysAgreeItems keyLe keyLe' items
  | .object members =>
    decide (sortedKeys keyLe members = sortedKeys keyLe' members) &&
      keysAgreeMembers keyLe keyLe' members
  | _ => true

def keysAgreeItems (keyLe keyLe' : JsString → JsString → Bool) : List JsValue → Bool
  | [] => true
  | item :: items => keysAgree keyLe keyLe' item && keysAgreeItems keyLe keyLe' items

def keysAgreeMembers (keyLe keyLe' : JsString → JsString → Bool) :
    List (JsString × JsValue) → Bool
  | [] => true
  | (_, value) :: members => keysAgree keyLe keyLe' value && keysAgreeMembers keyLe keyLe' members
end

theorem keys_sortByKey (members : List (JsString × α)) :
    (sortByKey E members).map Prod.fst = sortedKeys E.keyLe members :=
  List.map_insertionSort _ _ Prod.fst members fun _ _ _ _ => Iff.rfl

/-- Members with distinct keys are determined by the order of the keys. -/
theorem eq_of_perm_of_keys {as bs : List (JsString × α)} (hperm : as.Perm bs)
    (hkeys : as.map Prod.fst = bs.map Prod.fst) (hnodup : (as.map Prod.fst).Nodup) : as = bs := by
  induction as generalizing bs with
  | nil => exact hperm.nil_eq
  | cons a as ih =>
    cases bs with
    | nil => cases hkeys
    | cons b bs =>
      rw [List.map_cons, List.map_cons, List.cons.injEq] at hkeys
      obtain ⟨hkey, hkeys⟩ := hkeys
      obtain rfl : a = b := List.inj_on_of_nodup_map hnodup List.mem_cons_self
        (hperm.mem_iff.mpr List.mem_cons_self) hkey
      rw [List.map_cons, List.nodup_cons] at hnodup
      rw [ih (List.perm_cons a |>.mp hperm) hkeys hnodup.2]

theorem sortByKey_congr {members : List (JsString × α)} (hnodup : (members.map Prod.fst).Nodup)
    (h : sortedKeys E.keyLe members = sortedKeys E'.keyLe members) :
    sortByKey E members = sortByKey E' members := by
  have hperm := (sortByKey_perm E members).trans (sortByKey_perm E' members).symm
  refine eq_of_perm_of_keys hperm ?_ ?_
  · rw [keys_sortByKey, keys_sortByKey, h]
  · exact ((sortByKey_perm E members).map Prod.fst).nodup_iff.mpr hnodup

end Orders

/-! ## Texts -/

section Texts

variable {E E' : Encoder}

mutual
theorem encode_congr : ∀ value : JsValue, isJson value = true →
    keysAgree E.keyLe E'.keyLe value = true → encode E value = encode E' value
  | .undefined, h, _ => by simp [isJson] at h
  | .null, _, _ => rfl
  | .bool _, _, _ => rfl
  | .number _, _, _ => rfl
  | .string _, _, _ => rfl
  | .array items, h, hkeys => by
    rw [encode, encode, encodeItems_congr items (by simpa [isJson] using h)
      (by simpa [keysAgree] using hkeys)]
  | .object members, h, hkeys => by
    simp only [isJson, Bool.and_eq_true, decide_eq_true_eq] at h
    simp only [keysAgree, Bool.and_eq_true, decide_eq_true_eq] at hkeys
    have htexts := map_textOf_congr members h.1 hkeys.2
    have hkeysOf : ∀ E : Encoder, (members.map (textOf E)).map Prod.fst = members.map Prod.fst := by
      intro E
      rw [List.map_map]
      rfl
    rw [encode, encode, encodeMembers_eq_map E members h.1, encodeMembers_eq_map E' members h.1,
      Option.map_some, Option.map_some, htexts, sortByKey_congr]
    · rw [hkeysOf]
      exact h.2
    · simp only [sortedKeys, hkeysOf]
      exact hkeys.1

theorem encodeItems_congr : ∀ items : List JsValue, isJsonItems items = true →
    keysAgreeItems E.keyLe E'.keyLe items = true → encodeItems E items = encodeItems E' items
  | [], _, _ => rfl
  | item :: items, h, hkeys => by
    simp only [isJsonItems, Bool.and_eq_true] at h
    simp only [keysAgreeItems, Bool.and_eq_true] at hkeys
    obtain ⟨t, ht, -⟩ := encode_reads E item h.1
    have ht' := ht
    rw [encode_congr item h.1 hkeys.1] at ht'
    simp only [encodeItems, ht, ht', encodeItems_congr items h.2 hkeys.2]
    rfl

theorem map_textOf_congr : ∀ members : List (JsString × JsValue), isJsonMembers members = true →
    keysAgreeMembers E.keyLe E'.keyLe members = true →
    members.map (textOf E) = members.map (textOf E')
  | [], _, _ => rfl
  | (key, value) :: members, h, hkeys => by
    simp only [isJsonMembers, Bool.and_eq_true] at h
    simp only [keysAgreeMembers, Bool.and_eq_true] at hkeys
    rw [List.map_cons, List.map_cons, map_textOf_congr members h.2 hkeys.2, textOf, textOf,
      encode_congr value h.1 hkeys.1]
end

mutual
/-- What the texts of a value are read as says in which order its keys were written. -/
theorem keysAgree_of_sortKeys : ∀ value : JsValue, isJson value = true →
    sortKeys E value = sortKeys E' value → keysAgree E.keyLe E'.keyLe value = true
  | .undefined, _, _ => rfl
  | .null, _, _ => rfl
  | .bool _, _, _ => rfl
  | .number _, _, _ => rfl
  | .string _, _, _ => rfl
  | .array items, h, hsame => by
    rw [sortKeys, sortKeys, JsValue.array.injEq] at hsame
    exact keysAgreeItems_of_sortKeys items (by simpa [isJson] using h) hsame
  | .object members, h, hsame => by
    simp only [isJson, Bool.and_eq_true, decide_eq_true_eq] at h
    rw [sortKeys, sortKeys, JsValue.object.injEq] at hsame
    have horder := congrArg (List.map Prod.fst) hsame
    rw [keys_sortByKey, keys_sortByKey] at horder
    simp only [sortedKeys, keys_sortKeysMembers] at horder
    have hperm := (sortByKey_perm E (sortKeysMembers E members)).symm.trans
      (hsame ▸ sortByKey_perm E' (sortKeysMembers E' members))
    have hmembers : sortKeysMembers E members = sortKeysMembers E' members :=
      eq_of_perm_of_keys hperm (by rw [keys_sortKeysMembers, keys_sortKeysMembers])
        (by rw [keys_sortKeysMembers]; exact h.2)
    rw [keysAgree, Bool.and_eq_true, decide_eq_true_eq]
    exact ⟨horder, keysAgreeMembers_of_sortKeys members h.1 hmembers⟩

theorem keysAgreeItems_of_sortKeys : ∀ items : List JsValue, isJsonItems items = true →
    sortKeysItems E items = sortKeysItems E' items → keysAgreeItems E.keyLe E'.keyLe items = true
  | [], _, _ => rfl
  | item :: items, h, hsame => by
    simp only [isJsonItems, Bool.and_eq_true] at h
    rw [sortKeysItems, sortKeysItems, List.cons.injEq] at hsame
    rw [keysAgreeItems, Bool.and_eq_true]
    exact ⟨keysAgree_of_sortKeys item h.1 hsame.1, keysAgreeItems_of_sortKeys items h.2 hsame.2⟩

theorem keysAgreeMembers_of_sortKeys : ∀ members : List (JsString × JsValue),
    isJsonMembers members = true → sortKeysMembers E members = sortKeysMembers E' members →
    keysAgreeMembers E.keyLe E'.keyLe members = true
  | [], _, _ => rfl
  | (key, value) :: members, h, hsame => by
    simp only [isJsonMembers, Bool.and_eq_true] at h
    rw [sortKeysMembers, sortKeysMembers, List.cons.injEq, Prod.mk.injEq] at hsame
    rw [keysAgreeMembers, Bool.and_eq_true]
    exact ⟨keysAgree_of_sortKeys value h.1 hsame.1.2,
      keysAgreeMembers_of_sortKeys members h.2 hsame.2⟩
end

theorem encode_eq_iff {value : JsValue} (h : isJson value = true) :
    encode E value = encode E' value ↔ keysAgree E.keyLe E'.keyLe value = true := by
  constructor
  · intro hsame
    obtain ⟨t, ht, -, hread⟩ := parseJson_encode E value h
    obtain ⟨t', ht', -, hread'⟩ := parseJson_encode E' value h
    rw [hsame, ht', Option.some.injEq] at ht
    rw [← ht, hread', Option.some.injEq] at hread
    exact keysAgree_of_sortKeys value h hread.symm
  · exact encode_congr value h

end Texts

/-! ## The four encoders -/

section Encoders

/-- The encoder of the history service; `keyLe a b` is `a.localeCompare(b) <= 0` on its host. -/
def historyEncoder (keyLe : JsString → JsString → Bool) : Encoder :=
  ⟨keyLe, some [], some (js "undefined")⟩

/-- `canonicalJson` of the history service. -/
def historyJson (keyLe : JsString → JsString → Bool) (value : JsValue) : JsString :=
  (encode (historyEncoder keyLe) value).getD []

theorem hashCanonical_eq (keyLe : JsString → JsString → Bool) (payload : JsonObject) :
    History.hashCanonical keyLe payload = sha256 (textEncode (historyJson keyLe payload.value)) :=
  rfl

/-- The bytes that the four components hash are the same. -/
def SameBytes (keyLe : JsString → JsString → Bool) (value : JsValue) : Prop :=
  textEncode (historyJson keyLe value) = textEncode (canonicalValue value) ∧
  (canonicalJson value).map textEncode = some (textEncode (canonicalValue value)) ∧
  textEncode (canonicalize value) = textEncode (canonicalValue value)

mutual
theorem keysAgree_self (keyLe : JsString → JsString → Bool) :
    ∀ value : JsValue, keysAgree keyLe keyLe value = true
  | .undefined => rfl
  | .null => rfl
  | .bool _ => rfl
  | .number _ => rfl
  | .string _ => rfl
  | .array items => keysAgreeItems_self keyLe items
  | .object members => by simp [keysAgree, keysAgreeMembers_self keyLe members]

theorem keysAgreeItems_self (keyLe : JsString → JsString → Bool) :
    ∀ items : List JsValue, keysAgreeItems keyLe keyLe items = true
  | [] => rfl
  | item :: items => by
    simp [keysAgreeItems, keysAgree_self keyLe item, keysAgreeItems_self keyLe items]

theorem keysAgreeMembers_self (keyLe : JsString → JsString → Bool) :
    ∀ members : List (JsString × JsValue), keysAgreeMembers keyLe keyLe members = true
  | [] => rfl
  | (_, value) :: members => by
    simp [keysAgreeMembers, keysAgree_self keyLe value, keysAgreeMembers_self keyLe members]
end

/-- The text of an encoder that is known to give one. -/
theorem textEncode_eq_iff {E E' : Encoder} {value : JsValue} (h : isJson value = true) :
    textEncode ((encode E value).getD []) = textEncode ((encode E' value).getD []) ↔
      keysAgree E.keyLe E'.keyLe value = true := by
  rw [← encode_eq_iff h]
  obtain ⟨t, ht, hwell, -⟩ := parseJson_encode E value h
  obtain ⟨t', ht', hwell', -⟩ := parseJson_encode E' value h
  rw [ht, ht', Option.getD_some, Option.getD_some, Option.some.injEq]
  exact ⟨textEncode_injective hwell hwell', congrArg textEncode⟩

/-- The four encodings agree on a payload exactly where the collation of the host has the keys of
every object in it in code unit order. -/
theorem same_bytes_iff (keyLe : JsString → JsString → Bool) (payload : JsonObject) :
    SameBytes keyLe payload.value ↔ keysAgree keyLe unitsLe payload.value = true := by
  have harchive : (canonicalJson payload.value).map textEncode =
      some (textEncode (canonicalValue payload.value)) := by
    obtain ⟨t, ht, -⟩ := parseJson_encode canonicalEncoder payload.value payload.json
    have hsame : encode canonicalEncoder payload.value = encode auditEncoder payload.value :=
      encode_congr payload.value payload.json (keysAgree_self unitsLe payload.value)
    rw [canonicalJson, canonicalValue, ← hsame, ht, Option.map_some, Option.getD_some]
  have hschema : textEncode (canonicalize payload.value) =
      textEncode (canonicalValue payload.value) :=
    (textEncode_eq_iff payload.json).mpr (keysAgree_self unitsLe payload.value)
  rw [SameBytes, and_iff_left ⟨harchive, hschema⟩]
  exact textEncode_eq_iff payload.json

end Encoders

section Example

/-- A collation that looks at the letters before their case. -/
def caselessLe (s t : JsString) : Bool := unitsLe (s.map lowerUnit) (t.map lowerUnit)

def mixedPayload : JsonObject := ⟨[(js "B", .null), (js "a", .null)], by decide⟩

/-- The history service hashes another text than the others. -/
theorem mixed_case_differs :
    historyJson caselessLe mixedPayload.value = js "\x7b\"a\":null,\"B\":null\x7d" ∧
    canonicalValue mixedPayload.value = js "\x7b\"B\":null,\"a\":null\x7d" ∧
    ¬ SameBytes caselessLe mixedPayload.value := by
  refine ⟨by decide, by decide, ?_⟩
  rintro ⟨hsame, -⟩
  revert hsame
  decide

end Example

end TrustCore.CanonicalForms
