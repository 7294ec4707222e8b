import TrustCore.ArchiveFormat

/-!
# Values with a canonical text

The encoder rejects a value only for something undefined in it, and nothing that was read from a text
is undefined.
-/

namespace TrustCore.Json

open TrustCore.Utf TrustCore.ArchiveFormat

mutual
/-- Nothing in the value is undefined. -/
def isDefined : JsValue → Bool
  | .undefined => false
  | .array xs => isDefinedItems xs
  | .object ms => isDefinedMembers ms
  | _ => true

def isDefinedItems : List JsValue → Bool
  | [] => true
  | x :: xs => isDefined x && isDefinedItems xs

def isDefinedMembers : List (JsString × JsValue) → Bool
  | [] => true
  | (_, x) :: ms => isDefined x && isDefinedMembers ms
end

theorem isDefinedItems_iff {xs : List JsValue} :
    isDefinedItems xs = true ↔ ∀ x ∈ xs, isDefined x = true := by
  induction xs with
  | nil => simp [isDefinedItems]
  | cons x xs ih => simp [isDefinedItems, ih]

theorem isDefinedMembers_iff {ms : List (JsString × JsValue)} :
    isDefinedMembers ms = true ↔ ∀ m ∈ ms, isDefined m.2 = true := by
  induction ms with
  | nil => simp [isDefinedMembers]
  | cons m ms ih => simp [isDefinedMembers, ih]

@[simp] theorem isDefined_array {xs : List JsValue} :
    isDefined (.array xs) = true ↔ ∀ x ∈ xs, isDefined x = true := by
  rw [isDefined, isDefinedItems_iff]

@[simp] theorem isDefined_object {ms : List (JsString × JsValue)} :
    isDefined (.object ms) = true ↔ ∀ m ∈ ms, isDefined m.2 = true := by
  rw [isDefined, isDefinedMembers_iff]

mutual
theorem isSome_canonicalJson : ∀ v : JsValue, (canonicalJson v).isSome = isDefined v
  | .undefined => rfl
  | .null => rfl
  | .bool _ => rfl
  | .number _ => rfl
  | .string _ => rfl
  | .array xs => by
    rw [canonicalJson, encode, Option.isSome_map, isSome_encodeItems xs, isDefined]
  | .object ms => by
    rw [canonicalJson, encode, Option.isSome_map, isSome_encodeMembers ms, isDefined]

theorem isSome_encodeItems : ∀ xs : List JsValue,
    (encodeItems canonicalEncoder xs).isSome = isDefinedItems xs
  | [] => rfl
  | x :: xs => by
    have hx := isSome_canonicalJson x
    rw [canonicalJson] at hx
    rw [encodeItems, isDefinedItems, ← hx, ← isSome_encodeItems xs]
    cases encode canonicalEncoder x with
    | none => rfl
    | some t => simp

theorem isSome_encodeMembers : ∀ ms : List (JsString × JsValue),
    (encodeMembers canonicalEncoder ms).isSome = isDefinedMembers ms
  | [] => rfl
  | (k, x) :: ms => by
    have hx := isSome_canonicalJson x
    rw [canonicalJson] at hx
    rw [encodeMembers, isDefinedMembers, ← hx, ← isSome_encodeMembers ms]
    cases encode canonicalEncoder x with
    | none => rfl
    | some t => simp
end

/-- A value has a canonical text exactly when nothing in it is undefined. -/
theorem exists_canonicalJson_iff {v : JsValue} :
    (∃ text, canonicalJson v = some text) ↔ isDefined v = true := by
  rw [← isSome_canonicalJson, Option.isSome_iff_exists]

theorem isDefined_setMember {k : JsString} {v : JsValue} {ms : List (JsString × JsValue)}
    (hv : isDefined v = true) (h : ∀ m ∈ ms, isDefined m.2 = true) :
    ∀ m ∈ setMember k v ms, isDefined m.2 = true := by
  induction ms with
  | nil => simpa [setMember] using hv
  | cons m ms ih =>
    obtain ⟨hm, hms⟩ := List.forall_mem_cons.mp h
    rw [setMember]
    split
    · exact List.forall_mem_cons.mpr ⟨hv, hms⟩
    · exact List.forall_mem_cons.mpr ⟨hm, ih hms⟩

theorem isDefined_buildObject {ms : List (JsString × JsValue)}
    (h : ∀ m ∈ ms, isDefined m.2 = true) : isDefined (.object (buildObject ms)) = true := by
  rw [isDefined_object, buildObject]
  have hstart : ∀ (ms o : List (JsString × JsValue)), (∀ m ∈ ms, isDefined m.2 = true) →
      (∀ m ∈ o, isDefined m.2 = true) →
        ∀ m ∈ ms.foldl (fun o m => setMember m.1 m.2 o) o, isDefined m.2 = true := by
    intro ms
    induction ms with
    | nil => exact fun o _ ho => ho
    | cons m ms ih =>
      intro o hms ho
      obtain ⟨hm, hms⟩ := List.forall_mem_cons.mp hms
      exact ih _ hms (isDefined_setMember hm ho)
  exact hstart ms [] h (by simp)

/-- What one fuel reads of a value, of items and of members is defined. -/
def ReadsDefined (fuel : Nat) : Prop :=
  (∀ s v rest, parseValue fuel s = some (v, rest) → isDefined v = true) ∧
  (∀ s xs rest, parseItems fuel s = some (xs, rest) → ∀ x ∈ xs, isDefined x = true) ∧
  ∀ s ms rest, parseMembers fuel s = some (ms, rest) → ∀ m ∈ ms, isDefined m.2 = true

theorem parseWord_value {w s rest : JsString} {u v : JsValue}
    (h : parseWord w u s = some (v, rest)) : v = u := by
  rw [parseWord] at h
  split at h
  · cases h
    rfl
  · cases h

theorem parseValue_defined {fuel : Nat} (ih : ReadsDefined fuel) {s rest : JsString} {v : JsValue}
    (h : parseValue (fuel + 1) s = some (v, rest)) : isDefined v = true := by
  obtain ⟨-, hitems, hmembers⟩ := ih
  rw [parseValue] at h
  split at h
  · cases h
  split at h
  · -- an object
    split at h
    · cases h
    split at h
    · cases h
      rfl
    · obtain ⟨p, hp, heq⟩ := Option.map_eq_some_iff.mp h
      cases heq
      exact isDefined_buildObject (hmembers _ _ _ hp)
  split at h
  · -- an array
    split at h
    · cases h
    split at h
    · cases h
      rfl
    · obtain ⟨p, hp, heq⟩ := Option.map_eq_some_iff.mp h
      cases heq
      exact isDefined_array.mpr (hitems _ _ _ hp)
  split at h
  · obtain ⟨p, -, heq⟩ := Option.map_eq_some_iff.mp h
    cases heq
    rfl
  split at h
  · rw [parseWord_value h]
    rfl
  split at h
  · rw [parseWord_value h]
    rfl
  split at h
  · rw [parseWord_value h]
    rfl
  · obtain ⟨p, -, heq⟩ := Option.map_eq_some_iff.mp h
    cases heq
    rfl

theorem parseItems_defined {fuel : Nat} (ih : ReadsDefined fuel) {s rest : JsString}
    {xs : List JsValue} (h : parseItems (fuel + 1) s = some (xs, rest)) :
    ∀ x ∈ xs, isDefined x = true := by
  obtain ⟨hvalue, hitems, -⟩ := ih
  rw [parseItems] at h
  split at h
  · cases h
  rename_i v s₁ hv
  have hdefined := hvalue _ _ _ hv
  split at h
  · cases h
  split at h
  · obtain ⟨p, hp, heq⟩ := Option.map_eq_some_iff.mp h
    cases heq
    exact List.forall_mem_cons.mpr ⟨hdefined, hitems _ _ _ hp⟩
  split at h
  · cases h
    exact List.forall_mem_singleton.mpr hdefined
  · cases h

theorem parseMembers_defined {fuel : Nat} (ih : ReadsDefined fuel) {s rest : JsString}
    {ms : List (JsString × JsValue)} (h : parseMembers (fuel + 1) s = some (ms, rest)) :
    ∀ m ∈ ms, isDefined m.2 = true := by
  obtain ⟨hvalue, -, hmembers⟩ := ih
  rw [parseMembers] at h
  split at h
  · cases h
  split at h
  · split at h
    · cases h
    split at h
    · cases h
    split at h
    · split at h
      · cases h
      rename_i v s₃ hv
      have hdefined := hvalue _ _ _ hv
      split at h
      · cases h
      split at h
      · obtain ⟨p, hp, heq⟩ := Option.map_eq_some_iff.mp h
        cases heq
        exact List.forall_mem_cons.mpr ⟨hdefined, hmembers _ _ _ hp⟩
      split at h
      · cases h
        exact List.forall_mem_singleton.mpr hdefined
      · cases h
    · cases h
  · cases h

theorem readsDefined (fuel : Nat) : ReadsDefined fuel := by
  induction fuel with
  | zero => exact ⟨nofun, nofun, nofun⟩
  | succ fuel ih =>
    exact ⟨fun _ _ _ => parseValue_defined ih, fun _ _ _ => parseItems_defined ih,
      fun _ _ _ => parseMembers_defined ih⟩

/-- Nothing in a value that was read is undefined. -/
theorem isDefined_parseJson {s : JsString} {v : JsValue} (h : parseJson s = some v) :
    isDefined v = true := by
  rw [parseJson] at h
  split at h
  · cases h
  rename_i w rest hw
  split at h
  · cases h
    exact (readsDefined _).1 _ _ _ hw
  · cases h

end TrustCore.Json
