import TrustCore.JsonRoundTrip

/-!
# What database columns give back

The services write ECMAScript values into PostgreSQL columns and read them back.
A `text` column refuses U+0000 and holds Unicode scalar values, so an unpaired
surrogate comes back replaced. A `char(n)` column pads with blanks. A `jsonb`
column keeps the value but not the order of keys; the canonical text of the value
does not depend on that order.
-/

namespace TrustCore.Columns

open TrustCore.Utf TrustCore.Json

/-- An instant of a service clock: milliseconds since 1970, up to the year 9999. -/
structure Instant where
  ms : Nat
  bound : ms < 253402300800000
  deriving DecidableEq

theorem epoch_bound : 0 < 253402300800000 := by decide

/-- Year, month and day of a day number since 1970-01-01. -/
def civilFromDays (day : Nat) : Nat × Nat × Nat :=
  let z := day + 719468
  let era := z / 146097
  let doe := z % 146097
  let yoe := (doe - doe / 1460 + doe / 36524 - doe / 146096) / 365
  let doy := doe - (365 * yoe + yoe / 4 - yoe / 100)
  let mp := (5 * doy + 2) / 153
  let month := if mp < 10 then mp + 3 else mp - 9
  (yoe + era * 400 + (if month ≤ 2 then 1 else 0), month, doy - (153 * mp + 2) / 5 + 1)

def padded (width n : Nat) : JsString :=
  ((List.range width).reverse.map fun i => n / 10 ^ i % 10).map Numbers.digitUnit

/-- `Date.prototype.toISOString`, which is also how a `timestamptz` is read back. -/
def toISOString (t : Instant) : JsString :=
  let civil := civilFromDays (t.ms / 86400000)
  let time := t.ms % 86400000
  padded 4 civil.1 ++ js "-" ++ padded 2 civil.2.1 ++ js "-" ++ padded 2 civil.2.2 ++ js "T" ++
    padded 2 (time / 3600000) ++ js ":" ++ padded 2 (time / 60000 % 60) ++ js ":" ++
    padded 2 (time / 1000 % 60) ++ js "." ++ padded 3 (time % 1000) ++ js "Z"

/-- A `text` parameter as stored and read back; `none` is refused. -/
def textColumn (s : JsString) : Option JsString :=
  if (0 : UInt16) ∈ s then none else some (fromScalars (scalars s))

/-- A `char(64)` value comes back padded with blanks. -/
def char64Column (s : JsString) : JsString := s ++ List.replicate (64 - s.length) 32

def bytesLe : Bytes → Bytes → Bool
  | [], _ => true
  | _ :: _, [] => false
  | a :: s, b :: t => decide (a.toNat < b.toNat) || (a == b && bytesLe s t)

/-- The key order of `jsonb`: shorter keys first, then by byte. -/
def jsonbOrder : Encoder where
  keyLe a b :=
    let x := textEncode a
    let y := textEncode b
    decide (x.length < y.length) || (x.length == y.length && bytesLe x y)
  undefinedItem := none
  undefinedMember := none

def jsonbText (s : JsString) : Bool := isWellFormed s && !decide ((0 : UInt16) ∈ s)

mutual
/-- Every string and key of the value can be stored in a `jsonb` column. -/
def jsonbAccepts : JsValue → Bool
  | .string s => jsonbText s
  | .array xs => jsonbAcceptsItems xs
  | .object ms => jsonbAcceptsMembers ms
  | _ => true

def jsonbAcceptsItems : List JsValue → Bool
  | [] => true
  | x :: xs => jsonbAccepts x && jsonbAcceptsItems xs

def jsonbAcceptsMembers : List (JsString × JsValue) → Bool
  | [] => true
  | (k, x) :: ms => jsonbText k && (jsonbAccepts x && jsonbAcceptsMembers ms)
end

theorem jsonbAcceptsItems_cons (x : JsValue) (xs : List JsValue) :
    jsonbAcceptsItems (x :: xs) = (jsonbAccepts x && jsonbAcceptsItems xs) := rfl

theorem jsonbAcceptsMembers_cons (m : JsString × JsValue) (ms : List (JsString × JsValue)) :
    jsonbAcceptsMembers (m :: ms) =
      (jsonbText m.1 && (jsonbAccepts m.2 && jsonbAcceptsMembers ms)) := rfl

def jsonbColumn (v : JsValue) : Option JsValue :=
  if jsonbAccepts v then some (sortKeys jsonbOrder v) else none

theorem textColumn_eq {s t : JsString} (h : textColumn s = some t) (hw : isWellFormed s = true) :
    t = s := by
  unfold textColumn at h
  split at h
  · cases h
  · rw [fromScalars_scalars s hw, Option.some.injEq] at h
    exact h.symm

theorem char64Column_of_length {s : JsString} (h : s.length = 64) : char64Column s = s := by
  simp [char64Column, h]

/-- The keys of an encoder are totally ordered. -/
structure KeyOrder (E : Encoder) : Prop where
  total : ∀ a b, E.keyLe a b = true ∨ E.keyLe b a = true
  trans : ∀ a b c, E.keyLe a b = true → E.keyLe b c = true → E.keyLe a c = true
  antisymm : ∀ a b, E.keyLe a b = true → E.keyLe b a = true → a = b

theorem unitsLe_cons {u v : UInt16} {s t : JsString} :
    unitsLe (u :: s) (v :: t) = true ↔ u.toNat < v.toNat ∨ (u = v ∧ unitsLe s t = true) := by
  simp [unitsLe]

theorem unitsLe_total (s t : JsString) : unitsLe s t = true ∨ unitsLe t s = true := by
  induction s generalizing t with
  | nil => exact Or.inl rfl
  | cons u s ih =>
    cases t with
    | nil => exact Or.inr rfl
    | cons v t =>
      rw [unitsLe_cons, unitsLe_cons]
      rcases Nat.lt_trichotomy u.toNat v.toNat with h | h | h
      · exact Or.inl (Or.inl h)
      · have huv : u = v := UInt16.toNat_inj.mp h
        exact (ih t).imp (fun h => Or.inr ⟨huv, h⟩) (fun h => Or.inr ⟨huv.symm, h⟩)
      · exact Or.inr (Or.inl h)

theorem unitsLe_trans (r s t : JsString) (h₁ : unitsLe r s = true) (h₂ : unitsLe s t = true) :
    unitsLe r t = true := by
  induction r generalizing s t with
  | nil => rfl
  | cons u r ih =>
    cases s with
    | nil => cases h₁
    | cons v s =>
      cases t with
      | nil => cases h₂
      | cons w t =>
        rw [unitsLe_cons] at h₁ h₂ ⊢
        rcases h₁ with h₁ | ⟨rfl, h₁⟩
        · rcases h₂ with h₂ | ⟨rfl, h₂⟩
          · exact Or.inl (by omega)
          · exact Or.inl h₁
        · rcases h₂ with h₂ | ⟨rfl, h₂⟩
          · exact Or.inl h₂
          · exact Or.inr ⟨rfl, ih s t h₁ h₂⟩

theorem unitsLe_antisymm (s t : JsString) (h₁ : unitsLe s t = true) (h₂ : unitsLe t s = true) :
    s = t := by
  induction s generalizing t with
  | nil =>
    cases t with
    | nil => rfl
    | cons v t => cases h₂
  | cons u s ih =>
    cases t with
    | nil => cases h₁
    | cons v t =>
      rw [unitsLe_cons] at h₁ h₂
      rcases h₁ with h₁ | ⟨rfl, h₁⟩
      · rcases h₂ with h₂ | ⟨rfl, h₂⟩
        · omega
        · omega
      · rcases h₂ with h₂ | ⟨_, h₂⟩
        · omega
        · rw [ih t h₁ h₂]

theorem keyOrder_units (item member : Option JsString) : KeyOrder ⟨unitsLe, item, member⟩ :=
  ⟨unitsLe_total, unitsLe_trans, unitsLe_antisymm⟩

theorem pairwise_sortByKey {α : Type} {E : Encoder} (hE : KeyOrder E)
    (ms : List (JsString × α)) :
    (sortByKey E ms).Pairwise (fun a b => E.keyLe a.1 b.1 = true) := by
  have : Std.Total (fun a b : JsString × α => E.keyLe a.1 b.1 = true) := ⟨fun a b => hE.total _ _⟩
  have : IsTrans (JsString × α) (fun a b => E.keyLe a.1 b.1 = true) :=
    ⟨fun _ _ _ => hE.trans _ _ _⟩
  exact List.pairwise_insertionSort _ ms

/-- Sorting forgets the order in which the members came. -/
theorem sortByKey_eq_of_perm {α : Type} {E : Encoder} (hE : KeyOrder E)
    {as bs : List (JsString × α)} (hp : as.Perm bs) (hd : (as.map Prod.fst).Nodup) :
    sortByKey E as = sortByKey E bs := by
  have hperm : (sortByKey E as).Perm (sortByKey E bs) :=
    (sortByKey_perm E as).trans (hp.trans (sortByKey_perm E bs).symm)
  refine List.Perm.eq_of_pairwise ?_ (pairwise_sortByKey hE as) (pairwise_sortByKey hE bs) hperm
  intro a b ha hb hab hba
  have hka : a ∈ as := (sortByKey_perm E as).mem_iff.mp ha
  have hkb : b ∈ as := hp.mem_iff.mpr ((sortByKey_perm E bs).mem_iff.mp hb)
  exact List.inj_on_of_nodup_map hd hka hkb (hE.antisymm _ _ hab hba)

theorem isJsonMembers_iff (ms : List (JsString × JsValue)) :
    isJsonMembers ms = true ↔ ∀ m ∈ ms, isJson m.2 = true := by
  induction ms with
  | nil => exact iff_of_true rfl fun _ hm => absurd hm List.not_mem_nil
  | cons m ms ih => rw [isJsonMembers_cons, Bool.and_eq_true, ih, List.forall_mem_cons]

theorem isJsonItems_iff (xs : List JsValue) :
    isJsonItems xs = true ↔ ∀ x ∈ xs, isJson x = true := by
  induction xs with
  | nil => exact iff_of_true rfl fun _ hx => absurd hx List.not_mem_nil
  | cons x xs ih => rw [isJsonItems_cons, Bool.and_eq_true, ih, List.forall_mem_cons]

mutual
theorem isJson_sortKeys (E : Encoder) : ∀ v : JsValue, isJson v = true →
    isJson (sortKeys E v) = true
  | .undefined, h => h
  | .null, h => h
  | .bool _, h => h
  | .number _, h => h
  | .string _, h => h
  | .array xs, h => isJsonItems_sortKeys E xs h
  | .object ms, h => by
    simp only [isJson, Bool.and_eq_true, decide_eq_true_eq] at h
    have hm := isJsonMembers_sortKeys E ms h.1
    have hp := sortByKey_perm E (sortKeysMembers E ms)
    simp only [sortKeys, isJson, Bool.and_eq_true, decide_eq_true_eq]
    refine ⟨?_, ?_⟩
    · rw [isJsonMembers_iff] at hm ⊢
      exact fun m hmem => hm m (hp.mem_iff.mp hmem)
    · rw [(hp.map Prod.fst).nodup_iff, keys_sortKeysMembers]
      exact h.2

theorem isJsonItems_sortKeys (E : Encoder) : ∀ xs : List JsValue, isJsonItems xs = true →
    isJsonItems (sortKeysItems E xs) = true
  | [], h => h
  | x :: xs, h => by
    simp only [isJsonItems, Bool.and_eq_true] at h
    simp [sortKeysItems, isJsonItems, isJson_sortKeys E x h.1, isJsonItems_sortKeys E xs h.2]

theorem isJsonMembers_sortKeys (E : Encoder) : ∀ ms : List (JsString × JsValue),
    isJsonMembers ms = true → isJsonMembers (sortKeysMembers E ms) = true
  | [], h => h
  | (k, x) :: ms, h => by
    simp only [isJsonMembers, Bool.and_eq_true] at h
    simp [sortKeysMembers, isJsonMembers, isJson_sortKeys E x h.1,
      isJsonMembers_sortKeys E ms h.2]
end

/-- A key with the text of its value. -/
def textOf (E : Encoder) (m : JsString × JsValue) : JsString × JsString :=
  (m.1, (encode E m.2).getD [])

theorem encodeMembers_eq_map (E : Encoder) (ms : List (JsString × JsValue))
    (h : isJsonMembers ms = true) : encodeMembers E ms = some (ms.map (textOf E)) := by
  induction ms with
  | nil => rfl
  | cons m ms ih =>
    obtain ⟨k, x⟩ := m
    simp only [isJsonMembers, Bool.and_eq_true] at h
    obtain ⟨t, ht, _⟩ := encode_reads E x h.1
    simp [encodeMembers, ht, ih h.2, textOf]

mutual
/-- The canonical text does not depend on the order the keys came in. -/
theorem encode_sortKeys {E : Encoder} (hE : KeyOrder E) (E' : Encoder) :
    ∀ v : JsValue, isJson v = true → encode E (sortKeys E' v) = encode E v
  | .undefined, _ => rfl
  | .null, _ => rfl
  | .bool _, _ => rfl
  | .number _, _ => rfl
  | .string _, _ => rfl
  | .array xs, h => by
    simp only [sortKeys, encode, encodeItems_sortKeys hE E' xs (by simpa [isJson] using h)]
  | .object ms, h => by
    have hsorted := isJson_sortKeys E' _ h
    simp only [sortKeys, isJson, Bool.and_eq_true, decide_eq_true_eq] at h hsorted
    have hp := sortByKey_perm E' (sortKeysMembers E' ms)
    have hmap : ((sortByKey E' (sortKeysMembers E' ms)).map (textOf E)).Perm
        (ms.map (textOf E)) := by
      rw [← map_textOf_sortKeys hE E' ms h.1]
      exact hp.map _
    have hkeys : ((sortByKey E' (sortKeysMembers E' ms)).map (textOf E)).map Prod.fst =
        (sortByKey E' (sortKeysMembers E' ms)).map Prod.fst := by
      rw [List.map_map]
      rfl
    simp only [sortKeys, encode, encodeMembers_eq_map E _ hsorted.1, encodeMembers_eq_map E _ h.1,
      Option.map_some, sortByKey_eq_of_perm hE hmap (hkeys ▸ hsorted.2)]

theorem encodeItems_sortKeys {E : Encoder} (hE : KeyOrder E) (E' : Encoder) :
    ∀ xs : List JsValue, isJsonItems xs = true →
      encodeItems E (sortKeysItems E' xs) = encodeItems E xs
  | [], _ => rfl
  | x :: xs, h => by
    simp only [isJsonItems, Bool.and_eq_true] at h
    simp only [sortKeysItems, encodeItems, encode_sortKeys hE E' x h.1,
      encodeItems_sortKeys hE E' xs h.2]

theorem map_textOf_sortKeys {E : Encoder} (hE : KeyOrder E) (E' : Encoder) :
    ∀ ms : List (JsString × JsValue), isJsonMembers ms = true →
      (sortKeysMembers E' ms).map (textOf E) = ms.map (textOf E)
  | [], _ => rfl
  | (k, x) :: ms, h => by
    simp only [isJsonMembers, Bool.and_eq_true] at h
    simp only [sortKeysMembers, List.map_cons, textOf, encode_sortKeys hE E' x h.1,
      map_textOf_sortKeys hE E' ms h.2]
end

end TrustCore.Columns
