import Mathlib.Data.List.Perm.Basic
import TrustCore.Columns
import TrustCore.Dynamic

/-!
# Values with their keys in another order

Two values are reorderings of one another when they differ only in the order of
the keys of their objects, at any depth. A field is read from both alike, and the
encoder writes the same text for both, or refuses both.
-/

namespace TrustCore.ReorderedKeys

open TrustCore.Utf TrustCore.Json TrustCore.Columns TrustCore.Dynamic

section Options

variable {α β γ δ : Type*} {r : α → β → Prop} {s : γ → δ → Prop}

theorem rel_map {a : Option α} {b : Option β} {f : α → γ} {g : β → δ} (h : Option.Rel r a b)
    (hf : ∀ x y, r x y → s (f x) (g y)) : Option.Rel s (a.map f) (b.map g) := by
  cases h with
  | some h => exact .some (hf _ _ h)
  | none => exact .none

theorem rel_bind {a : Option α} {b : Option β} {f : α → Option γ} {g : β → Option δ}
    (h : Option.Rel r a b) (hf : ∀ x y, r x y → Option.Rel s (f x) (g y)) :
    Option.Rel s (a.bind f) (b.bind g) := by
  cases h with
  | some h => exact hf _ _ h
  | none => exact .none

theorem rel_trans {r : α → α → Prop} (ht : ∀ x y z, r x y → r y z → r x z) {a b c : Option α}
    (hab : Option.Rel r a b) (hbc : Option.Rel r b c) : Option.Rel r a c := by
  cases hab with
  | some hab =>
    cases hbc with
    | some hbc => exact .some (ht _ _ _ hab hbc)
  | none =>
    cases hbc with
    | none => exact .none

end Options

mutual
/-- The same value, the keys of its objects in another order. -/
inductive Reordered : JsValue → JsValue → Prop
  | refl (v : JsValue) : Reordered v v
  | array {xs ys : List JsValue} (items : ReorderedItems xs ys) :
      Reordered (.array xs) (.array ys)
  | object {ms ns ns' : List (JsString × JsValue)} (keys : (ms.map Prod.fst).Nodup)
      (members : ReorderedMembers ms ns) (perm : ns.Perm ns') :
      Reordered (.object ms) (.object ns')

inductive ReorderedItems : List JsValue → List JsValue → Prop
  | nil : ReorderedItems [] []
  | cons {x y : JsValue} {xs ys : List JsValue} (item : Reordered x y)
      (items : ReorderedItems xs ys) : ReorderedItems (x :: xs) (y :: ys)

inductive ReorderedMembers : List (JsString × JsValue) → List (JsString × JsValue) → Prop
  | nil : ReorderedMembers [] []
  | cons {k : JsString} {x y : JsValue} {ms ns : List (JsString × JsValue)}
      (value : Reordered x y) (members : ReorderedMembers ms ns) :
      ReorderedMembers ((k, x) :: ms) ((k, y) :: ns)
end

theorem ReorderedMembers.refl (ms : List (JsString × JsValue)) : ReorderedMembers ms ms := by
  induction ms with
  | nil => exact .nil
  | cons m ms ih => exact .cons (.refl m.2) ih

theorem ReorderedMembers.keys_eq : ∀ {ms ns : List (JsString × JsValue)},
    ReorderedMembers ms ns → ms.map Prod.fst = ns.map Prod.fst
  | _, _, .nil => rfl
  | _, _, .cons (k := k) _ members => congrArg (k :: ·) members.keys_eq

theorem ReorderedMembers.lookup (key : JsString) : ∀ {ms ns : List (JsString × JsValue)},
    ReorderedMembers ms ns → Option.Rel Reordered (ms.lookup key) (ns.lookup key)
  | _, _, .nil => .none
  | _, _, .cons (k := k) value members => by
    rw [List.lookup_cons, List.lookup_cons]
    cases key == k with
    | true => exact .some value
    | false => exact members.lookup key

/-- A key is read alike from an object and from its reordering. -/
theorem Reordered.field {ms ns : List (JsString × JsValue)}
    (h : Reordered (.object ms) (.object ns)) (key : JsString) :
    Reordered (field ms key) (field ns key) := by
  cases h with
  | refl => exact .refl _
  | object keys members perm =>
    have hlookup := members.lookup key
    rw [lookup_perm (members.keys_eq ▸ keys) perm key] at hlookup
    rw [Dynamic.field, Dynamic.field]
    generalize ms.lookup key = v at hlookup
    generalize ns.lookup key = w at hlookup
    cases hlookup with
    | some h => exact h
    | none => exact .refl _

theorem Reordered.asString_eq {v w : JsValue} (h : Reordered v w) : asString v = asString w := by
  cases h with
  | refl => rfl
  | array => rfl
  | object => rfl

theorem Reordered.isNullish_eq {v w : JsValue} (h : Reordered v w) : isNullish v = isNullish w := by
  cases h with
  | refl => rfl
  | array => rfl
  | object => rfl

theorem encodeMembers_perm (E : Encoder) {ms ns : List (JsString × JsValue)} (h : ms.Perm ns) :
    Option.Rel List.Perm (encodeMembers E ms) (encodeMembers E ns) := by
  induction h with
  | nil => exact .some (.refl _)
  | cons m _ ih =>
    simp only [encodeMembers]
    cases encode E m.2 <|> E.undefinedMember with
    | none => exact .none
    | some t => exact rel_map ih fun _ _ h => h.cons _
  | swap m n ms =>
    simp only [encodeMembers]
    cases encode E m.2 <|> E.undefinedMember with
    | none => cases encode E n.2 <|> E.undefinedMember <;> exact .none
    | some t =>
      cases encode E n.2 <|> E.undefinedMember with
      | none => exact .none
      | some u =>
        cases encodeMembers E ms with
        | none => exact .none
        | some ts => exact .some (.swap _ _ _)
  | trans _ _ ih₁ ih₂ => exact rel_trans (fun _ _ _ h₁ h₂ => h₁.trans h₂) ih₁ ih₂

theorem keys_encodeMembers {E : Encoder} {ms : List (JsString × JsValue)}
    {ts : List (JsString × JsString)} (h : encodeMembers E ms = some ts) :
    ts.map Prod.fst = ms.map Prod.fst := by
  induction ms generalizing ts with
  | nil =>
    cases h
    rfl
  | cons m ms ih =>
    simp only [encodeMembers] at h
    split at h
    · cases h
    · obtain ⟨us, hus, rfl⟩ := Option.map_eq_some_iff.mp h
      rw [List.map_cons, List.map_cons, ih hus]

/-- An object is encoded alike whatever the order of its keys. -/
theorem encode_object_perm {E : Encoder} (hE : KeyOrder E) {ms ns : List (JsString × JsValue)}
    (hn : (ms.map Prod.fst).Nodup) (h : ms.Perm ns) :
    encode E (.object ms) = encode E (.object ns) := by
  have hrel := encodeMembers_perm E h
  simp only [encode]
  cases hms : encodeMembers E ms with
  | none =>
    rw [hms] at hrel
    cases hns : encodeMembers E ns with
    | none => rfl
    | some us => rw [hns] at hrel; cases hrel
  | some ts =>
    rw [hms] at hrel
    cases hns : encodeMembers E ns with
    | none => rw [hns] at hrel; cases hrel
    | some us =>
      rw [hns] at hrel
      cases hrel with
      | some hrel =>
        have hkeys : (ts.map Prod.fst).Nodup := keys_encodeMembers hms ▸ hn
        rw [Option.map_some, Option.map_some, sortByKey_eq_of_perm hE hrel hkeys]

mutual
/-- The text of a value does not show the order of its keys. -/
theorem encode_reordered {E : Encoder} (hE : KeyOrder E) : ∀ {v w : JsValue}, Reordered v w →
    encode E v = encode E w
  | _, _, .refl _ => rfl
  | _, _, .array items => by simp only [encode, encodeItems_reordered hE items]
  | _, _, .object keys members perm => by
    rw [← encode_object_perm hE (members.keys_eq ▸ keys) perm]
    simp only [encode, encodeMembers_reordered hE members]

theorem encodeItems_reordered {E : Encoder} (hE : KeyOrder E) : ∀ {xs ys : List JsValue},
    ReorderedItems xs ys → encodeItems E xs = encodeItems E ys
  | _, _, .nil => rfl
  | _, _, .cons item items => by
    simp only [encodeItems, encode_reordered hE item, encodeItems_reordered hE items]

theorem encodeMembers_reordered {E : Encoder} (hE : KeyOrder E) :
    ∀ {ms ns : List (JsString × JsValue)}, ReorderedMembers ms ns →
      encodeMembers E ms = encodeMembers E ns
  | _, _, .nil => rfl
  | _, _, .cons value members => by
    simp only [encodeMembers, encode_reordered hE value, encodeMembers_reordered hE members]
end

end TrustCore.ReorderedKeys
