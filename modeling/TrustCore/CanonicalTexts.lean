import TrustCore.ArchiveFormat
import TrustCore.HashChains
import TrustCore.ReorderedKeys

/-!
# What a canonical text says of its value

A canonical text is read as its value with sorted keys. Values with the same
sorted form are reorderings of one another, so the text of a value fixes the value
up to the order of the keys of its objects, and is the text of what is read from it.
-/

namespace TrustCore.CanonicalTexts

open TrustCore.Utf TrustCore.Json TrustCore.Columns TrustCore.ArchiveFormat
open TrustCore.ReorderedKeys

/-- Objects with the same sorted members have the same members in some order, each with the same
sorted value. -/
theorem exists_perm_of_sortKeys {E : Encoder} {ms ns : List (JsString × JsValue)}
    (h : sortKeys E (.object ms) = sortKeys E (.object ns)) :
    ∃ ns', ns'.Perm ns ∧ sortKeysMembers E ms = sortKeysMembers E ns' := by
  rw [sortKeys, sortKeys, JsValue.object.injEq] at h
  have hperm : (sortKeysMembers E ms).Perm (sortKeysMembers E ns) := by
    have hms := (sortByKey_perm E (sortKeysMembers E ms)).symm
    rw [h] at hms
    exact hms.trans (sortByKey_perm E (sortKeysMembers E ns))
  rw [sortKeysMembers_eq_map E ns] at hperm
  obtain ⟨ns', hns, hmap⟩ := HashChains.exists_perm_of_map hperm
  exact ⟨ns', hns, by rw [sortKeysMembers_eq_map E ns', hmap]⟩

mutual
/-- Values with one sorted form are reorderings of one another. -/
theorem reordered_of_sortKeys {E : Encoder} : ∀ v w : JsValue, isJson v = true →
    sortKeys E v = sortKeys E w → Reordered v w
  | .undefined, w, h, _ => by simp [isJson] at h
  | .null, w, _, hsame => by
    cases w <;> cases hsame
    exact .refl _
  | .bool _, w, _, hsame => by
    cases w <;> cases hsame
    exact .refl _
  | .number _, w, _, hsame => by
    cases w <;> cases hsame
    exact .refl _
  | .string _, w, _, hsame => by
    cases w <;> cases hsame
    exact .refl _
  | .array xs, .array ys, h, hsame => by
    rw [sortKeys, sortKeys, JsValue.array.injEq] at hsame
    exact .array (reorderedItems_of_sortKeys xs ys (by simpa [isJson] using h) hsame)
  | .object ms, .object ns, h, hsame => by
    simp only [isJson, Bool.and_eq_true, decide_eq_true_eq] at h
    obtain ⟨ns', hperm, hmembers⟩ := exists_perm_of_sortKeys hsame
    exact .object h.2 (reorderedMembers_of_sortKeys ms ns' h.1 hmembers) hperm
  | .array _, .undefined, _, hsame | .array _, .null, _, hsame | .array _, .bool _, _, hsame
  | .array _, .number _, _, hsame | .array _, .string _, _, hsame
  | .array _, .object _, _, hsame => by cases hsame
  | .object _, .undefined, _, hsame | .object _, .null, _, hsame | .object _, .bool _, _, hsame
  | .object _, .number _, _, hsame | .object _, .string _, _, hsame
  | .object _, .array _, _, hsame => by cases hsame

theorem reorderedItems_of_sortKeys {E : Encoder} : ∀ xs ys : List JsValue, isJsonItems xs = true →
    sortKeysItems E xs = sortKeysItems E ys → ReorderedItems xs ys
  | [], ys, _, hsame => by
    cases ys with
    | nil => exact .nil
    | cons y ys => cases hsame
  | x :: xs, [], _, hsame => by cases hsame
  | x :: xs, y :: ys, h, hsame => by
    simp only [isJsonItems, Bool.and_eq_true] at h
    rw [sortKeysItems, sortKeysItems, List.cons.injEq] at hsame
    exact .cons (reordered_of_sortKeys x y h.1 hsame.1)
      (reorderedItems_of_sortKeys xs ys h.2 hsame.2)

theorem reorderedMembers_of_sortKeys {E : Encoder} : ∀ ms ns : List (JsString × JsValue),
    isJsonMembers ms = true → sortKeysMembers E ms = sortKeysMembers E ns → ReorderedMembers ms ns
  | [], ns, _, hsame => by
    cases ns with
    | nil => exact .nil
    | cons n ns => cases hsame
  | (k, x) :: ms, [], _, hsame => by cases hsame
  | (k, x) :: ms, (k', y) :: ns, h, hsame => by
    simp only [isJsonMembers, Bool.and_eq_true] at h
    rw [sortKeysMembers, sortKeysMembers, List.cons.injEq, Prod.mk.injEq] at hsame
    obtain ⟨⟨rfl, hvalue⟩, hmembers⟩ := hsame
    exact .cons (reordered_of_sortKeys x y h.1 hvalue)
      (reorderedMembers_of_sortKeys ms ns h.2 hmembers)
end

theorem reordered_sortKeys {E : Encoder} (hE : KeyOrder E) {v : JsValue} (h : isJson v = true) :
    Reordered v (sortKeys E v) := by
  obtain ⟨t, ht, -, hread⟩ := parseJson_encode E v h
  obtain ⟨t', ht', -, hread'⟩ := parseJson_encode E (sortKeys E v) (isJson_sortKeys E v h)
  have htexts : t' = t := by
    rw [encode_sortKeys hE E v h, ht, Option.some.injEq] at ht'
    exact ht'.symm
  rw [htexts, hread, Option.some.injEq] at hread'
  exact reordered_of_sortKeys v (sortKeys E v) h hread'

/-- JSON values have one text exactly when they are equal up to the order of keys. -/
theorem encode_eq_iff_reordered {E : Encoder} (hE : KeyOrder E) {v w : JsValue}
    (hv : isJson v = true) (hw : isJson w = true) : encode E v = encode E w ↔ Reordered v w := by
  constructor
  · intro hsame
    obtain ⟨t, ht, -, hread⟩ := parseJson_encode E v hv
    obtain ⟨t', ht', -, hread'⟩ := parseJson_encode E w hw
    rw [hsame, ht', Option.some.injEq] at ht
    rw [ht, hread, Option.some.injEq] at hread'
    exact reordered_of_sortKeys v w hv hread'
  · exact encode_reordered hE

/-- The canonical text of a JSON value fixes it up to the order of keys: no other values have the
text, and the text is read as such a value, which has the same text again. -/
theorem canonicalJson_faithful (v w : JsValue) (hv : isJson v = true) (hw : isJson w = true) :
    (canonicalJson v = canonicalJson w ↔ Reordered v w) ∧
    ∃ text parsed, canonicalJson v = some text ∧ parseJson text = some parsed ∧
      Reordered v parsed ∧ canonicalJson parsed = some text := by
  have hE : KeyOrder canonicalEncoder := keyOrder_units none none
  refine ⟨encode_eq_iff_reordered hE hv hw, ?_⟩
  obtain ⟨text, htext, -, hread⟩ := parseJson_encode canonicalEncoder v hv
  refine ⟨text, sortKeys canonicalEncoder v, htext, hread, reordered_sortKeys hE hv, ?_⟩
  rw [canonicalJson, encode_sortKeys hE canonicalEncoder v hv, htext]

/-- A key that looks like the rest of a text, before and after another key. -/
theorem canonicalJson_faithful_quoted :
    canonicalJson (.object [(js "a\":1,\"b", .null), (js "a", .array [.object []])]) =
      canonicalJson (.object [(js "a", .array [.object []]), (js "a\":1,\"b", .null)]) := by
  refine (canonicalJson_faithful _ _ (by decide) (by decide)).1.mpr ?_
  exact .object (by decide) (.refl _) (.swap _ _ _)

end TrustCore.CanonicalTexts
