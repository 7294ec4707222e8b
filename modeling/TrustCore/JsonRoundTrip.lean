import TrustCore.Json

/-!
# Canonical JSON text reads back

`Reads t v` says that the parser takes the text `t` for `v` and stops exactly at
its end. Arrays and objects read when their items do; from there every JSON value
is read back from its canonical text, and objects are self delimiting.
-/

namespace TrustCore.Json

open TrustCore.Utf TrustCore.Numbers

def IsNumber : JsValue → Prop
  | .number _ => True
  | _ => False

/-- The text `t` is read as `v`; only a number cares about what follows. -/
structure Reads (t : JsString) (v : JsValue) : Prop where
  wellFormed : isWellFormed t = true
  start : ∃ u r, t = u :: r ∧ isWhitespace u = false ∧ u ≠ 93
  parse : ∀ fuel rest, t.length < fuel → (IsNumber v → Stops rest) →
    parseValue fuel (t ++ rest) = some (v, rest)

theorem skipWhitespace_cons {u : UInt16} (h : isWhitespace u = false) (s : JsString) :
    skipWhitespace (u :: s) = u :: s := by
  simp [skipWhitespace, h]

theorem stops_cons {u : UInt16} {s : JsString} (h₁ : isDigit u = false) (h₂ : u ≠ 46)
    (h₃ : u ≠ 101) (h₄ : u ≠ 69) : Stops (u :: s) := by
  intro v hv
  simp only [List.head?_cons, Option.some.injEq] at hv
  subst hv
  exact ⟨h₁, h₂, h₃, h₄⟩

theorem length_le_joinComma (t : JsString) (ts : List JsString) :
    t.length ≤ (joinComma (t :: ts)).length := by
  cases ts <;> simp [joinComma]

theorem joinComma_cons (t : JsString) {ts : List JsString} (h : ts ≠ []) :
    joinComma (t :: ts) = t ++ 44 :: joinComma ts := by
  cases ts with
  | nil => exact False.elim (h rfl)
  | cons t' ts => rfl

theorem parseItems_step (t : JsString) (v : JsValue) (h : Reads t v) (fuel : Nat)
    (hf : t.length < fuel) (u : UInt16) (rest : JsString) (hs : Stops (u :: rest))
    (hw : isWhitespace u = false) :
    parseItems (fuel + 1) (t ++ u :: rest) =
      if u = 44 then (parseItems fuel rest).map fun p => (v :: p.1, p.2)
      else if u = 93 then some ([v], rest)
      else none := by
  have hp := h.parse fuel (u :: rest) hf (fun _ => hs)
  simp only [parseItems, hp, skipWhitespace_cons hw]

theorem parseItems_reads {ts : List JsString} {vs : List JsValue} (h : List.Forall₂ Reads ts vs)
    (hne : ts ≠ []) (fuel : Nat) (rest : JsString) (hf : (joinComma ts).length < fuel) :
    parseItems (fuel + 1) (joinComma ts ++ 93 :: rest) = some (vs, rest) := by
  induction h generalizing fuel with
  | nil => exact False.elim (hne rfl)
  | @cons t v ts vs htv hts ih =>
    have hlen := length_le_joinComma t ts
    cases ts with
    | nil =>
      cases hts
      have hp := parseItems_step t v htv fuel (by simpa [joinComma] using hf) 93 rest
        (stops_cons (by decide) (by decide) (by decide) (by decide)) (by decide)
      simpa [joinComma] using hp
    | cons t' ts =>
      have hl : (joinComma (t :: t' :: ts)).length = t.length + (joinComma (t' :: ts)).length + 1 := by
        rw [joinComma_cons t (by simp)]
        simp
        omega
      have hp := parseItems_step t v htv fuel (by omega) 44 (joinComma (t' :: ts) ++ 93 :: rest)
        (stops_cons (by decide) (by decide) (by decide) (by decide)) (by decide)
      obtain ⟨fuel, rfl⟩ : ∃ f, fuel = f + 1 := ⟨fuel - 1, by omega⟩
      rw [joinComma_cons t (by simp), List.append_assoc, List.cons_append, hp,
        ih (by simp) fuel (by omega)]
      simp

/-- A member text is read as the member of the same key. -/
def MemberReads (m : JsString × JsString) (p : JsString × JsValue) : Prop :=
  m.1 = p.1 ∧ Reads m.2 p.2

theorem memberText_append (m : JsString × JsString) (rest : JsString) :
    memberText m ++ rest = 34 :: (quoteUnits m.1 ++ 34 :: (58 :: (m.2 ++ rest))) := by
  simp [memberText, quote]

theorem length_memberText (m : JsString × JsString) :
    (memberText m).length = (quoteUnits m.1).length + m.2.length + 3 := by
  simp [memberText, quote]
  omega

theorem parseMembers_step (m : JsString × JsString) (v : JsValue) (h : Reads m.2 v) (fuel : Nat)
    (hf : (memberText m).length < fuel) (u : UInt16) (rest : JsString)
    (hs : Stops (u :: rest)) (hw : isWhitespace u = false) :
    parseMembers (fuel + 1) (memberText m ++ u :: rest) =
      if u = 44 then (parseMembers fuel rest).map fun p => ((m.1, v) :: p.1, p.2)
      else if u = 125 then some ([(m.1, v)], rest)
      else none := by
  rw [length_memberText] at hf
  have hp := h.parse fuel (u :: rest) (by omega) (fun _ => hs)
  rw [memberText_append]
  simp only [parseMembers, skipWhitespace_cons (u := 34) (by decide), parseUnits_quoteUnits,
    skipWhitespace_cons (u := 58) (by decide), hp, skipWhitespace_cons hw, ↓reduceIte]

theorem parseMembers_reads {ts : List (JsString × JsString)} {ms : List (JsString × JsValue)}
    (h : List.Forall₂ MemberReads ts ms) (hne : ts ≠ []) (fuel : Nat) (rest : JsString)
    (hf : (joinComma (ts.map memberText)).length < fuel) :
    parseMembers (fuel + 1) (joinComma (ts.map memberText) ++ 125 :: rest) = some (ms, rest) := by
  induction h generalizing fuel with
  | nil => exact False.elim (hne rfl)
  | @cons t m ts ms htm hts ih =>
    have hlen := length_le_joinComma (memberText t) (ts.map memberText)
    have hkey : (t.1, m.2) = m := by rw [htm.1]
    cases ts with
    | nil =>
      cases hts
      have hp := parseMembers_step t m.2 htm.2 fuel (by simpa [joinComma] using hf) 125 rest
        (stops_cons (by decide) (by decide) (by decide) (by decide)) (by decide)
      simpa [joinComma, hkey] using hp
    | cons t' ts =>
      have hl : (joinComma ((t :: t' :: ts).map memberText)).length =
          (memberText t).length + (joinComma ((t' :: ts).map memberText)).length + 1 := by
        rw [List.map_cons, joinComma_cons _ (by simp)]
        simp
        omega
      have hp := parseMembers_step t m.2 htm.2 fuel (by omega) 44
        (joinComma ((t' :: ts).map memberText) ++ 125 :: rest)
        (stops_cons (by decide) (by decide) (by decide) (by decide)) (by decide)
      obtain ⟨fuel, rfl⟩ : ∃ f, fuel = f + 1 := ⟨fuel - 1, by omega⟩
      rw [List.map_cons, joinComma_cons _ (by simp), List.append_assoc, List.cons_append, hp,
        ih (by simp) fuel (by omega)]
      simp [hkey]

theorem setMember_fresh {α : Type} (k : JsString) (v : α) (ms : List (JsString × α))
    (h : k ∉ ms.map Prod.fst) : setMember k v ms = ms ++ [(k, v)] := by
  induction ms with
  | nil => rfl
  | cons m ms ih =>
    simp only [List.map_cons, List.mem_cons, not_or] at h
    simp [setMember, Ne.symm h.1, ih h.2]

theorem buildObject_nodup (ms : List (JsString × JsValue)) (h : (ms.map Prod.fst).Nodup) :
    buildObject ms = ms := by
  have go : ∀ (ms acc : List (JsString × JsValue)), ((acc ++ ms).map Prod.fst).Nodup →
      ms.foldl (fun o m => setMember m.1 m.2 o) acc = acc ++ ms := by
    intro ms
    induction ms with
    | nil => intro acc _; simp
    | cons m ms ih =>
      intro acc hd
      have hk : m.1 ∉ acc.map Prod.fst := by
        intro hm
        rw [List.map_append, List.nodup_append] at hd
        exact hd.2.2 m.1 hm m.1 (by simp) rfl
      rw [List.foldl_cons, setMember_fresh _ _ _ hk]
      simpa using ih (acc ++ [m]) (by simpa using hd)
  simpa [buildObject] using go ms [] (by simpa using h)

theorem sortByKey_perm {α : Type} (E : Encoder) (ms : List (JsString × α)) :
    (sortByKey E ms).Perm ms := List.perm_insertionSort _ _

/-- Sorting by key treats two lists with the same keys alike. -/
theorem forall₂_sortByKey {α β : Type} {R : JsString × α → JsString × β → Prop}
    (hR : ∀ a b, R a b → a.1 = b.1) (E : Encoder) {as : List (JsString × α)}
    {bs : List (JsString × β)} (h : List.Forall₂ R as bs) :
    List.Forall₂ R (sortByKey E as) (sortByKey E bs) := by
  have ins : ∀ {a b} {as : List (JsString × α)} {bs : List (JsString × β)}, R a b →
      List.Forall₂ R as bs →
      List.Forall₂ R (as.orderedInsert (fun a b => E.keyLe a.1 b.1 = true) a)
        (bs.orderedInsert (fun a b => E.keyLe a.1 b.1 = true) b) := by
    intro a b as bs hab h
    induction h with
    | nil => simpa using hab
    | @cons c d cs ds hcd hrest ih =>
      simp only [List.orderedInsert_cons, hR a b hab, hR c d hcd]
      split
      · exact .cons hab (.cons hcd hrest)
      · exact .cons hcd ih
  induction h with
  | nil => exact .nil
  | cons hab _ ih => exact ins hab ih

theorem isWellFormed_joinComma (ts : List JsString) (h : ∀ t ∈ ts, isWellFormed t = true) :
    isWellFormed (joinComma ts) = true := by
  induction ts with
  | nil => rfl
  | cons t ts ih =>
    have ht := h t (by simp)
    cases ts with
    | nil => simpa [joinComma] using ht
    | cons t' ts =>
      rw [joinComma_cons t (by simp)]
      apply isWellFormed_append _ _ ht
      rw [isWellFormed_cons_ascii 44 _ (by decide)]
      exact ih (fun s hs => h s (by simp [hs]))

theorem reads_word (w : JsString) (v : JsValue) (u : UInt16) (r : JsString) (hw : w = u :: r)
    (hs : isWhitespace u = false) (ha : ∀ u ∈ w, u.toNat < 128) (h93 : u ≠ 93)
    (hp : ∀ fuel rest, parseValue (fuel + 1) (w ++ rest) = parseWord w v (w ++ rest)) :
    Reads w v where
  wellFormed := isWellFormed_ascii w ha
  start := ⟨u, r, hw, hs, h93⟩
  parse := by
    intro fuel rest hf _
    obtain ⟨fuel, rfl⟩ : ∃ f, fuel = f + 1 := ⟨fuel - 1, by omega⟩
    rw [hp, parseWord, if_pos (by simp)]
    simp

theorem reads_null : Reads (js "null") .null :=
  reads_word _ _ 110 [117, 108, 108] (by decide) (by decide) (by decide) (by decide) (by
      intro fuel rest
      rw [show js "null" = [110, 117, 108, 108] by decide]
      simp [parseValue, skipWhitespace, isWhitespace]
      rfl)

theorem reads_bool (b : Bool) : Reads (if b then js "true" else js "false") (.bool b) := by
  cases b with
  | true =>
    exact reads_word _ _ 116 [114, 117, 101] (by decide) (by decide) (by decide) (by decide) (by
        intro fuel rest
        rw [show (if true = true then js "true" else js "false") = [116, 114, 117, 101] by decide]
        simp [parseValue, skipWhitespace, isWhitespace]
        rfl)
  | false =>
    exact reads_word _ _ 102 [97, 108, 115, 101] (by decide) (by decide) (by decide) (by decide) (by
        intro fuel rest
        rw [show (if false = true then js "true" else js "false") = [102, 97, 108, 115, 101] by
          decide]
        simp [parseValue, skipWhitespace, isWhitespace]
        rfl)

theorem reads_string (s : JsString) : Reads (quote s) (.string s) where
  wellFormed := isWellFormed_quote s
  start := ⟨34, _, rfl, by decide, by decide⟩
  parse := by
    intro fuel rest hf _
    obtain ⟨fuel, rfl⟩ : ∃ f, fuel = f + 1 := ⟨fuel - 1, by omega⟩
    have hq : quote s ++ rest = 34 :: (quoteUnits s ++ 34 :: rest) := by simp [quote]
    rw [hq]
    simp [parseValue, skipWhitespace, isWhitespace, parseUnits_quoteUnits]

/-- Number text starts with a sign or a digit and stays within ASCII. -/
def NumberUnit (u : UInt16) : Prop :=
  isDigit u = true ∨ u = 43 ∨ u = 45 ∨ u = 46 ∨ u = 101

theorem numberUnit_digits (ds : List Nat) (h : ∀ d ∈ ds, d < 10) :
    ∀ u ∈ ds.map digitUnit, NumberUnit u := by
  intro u hu
  obtain ⟨d, hd, rfl⟩ := List.mem_map.mp hu
  exact Or.inl (isDigit_digitUnit d (h d hd))

theorem numberUnit_decimalText (ds : List Nat) (n : Int) (h : ∀ d ∈ ds, d < 10) :
    ∀ u ∈ decimalText ds n, NumberUnit u := by
  have hds := numberUnit_digits ds h
  have h48 : NumberUnit 48 := Or.inl (by decide)
  have htake : ∀ k, ∀ u ∈ (ds.take k).map digitUnit, NumberUnit u := fun k =>
    numberUnit_digits _ (fun d hd => h d (List.mem_of_mem_take hd))
  have hdrop : ∀ k, ∀ u ∈ (ds.drop k).map digitUnit, NumberUnit u := fun k =>
    numberUnit_digits _ (fun d hd => h d (List.mem_of_mem_drop hd))
  have hexp := numberUnit_digits _ (decimalDigits_lt (n - 1).natAbs)
  intro u hu
  unfold decimalText at hu
  simp only at hu
  split_ifs at hu <;>
    simp only [List.mem_append, List.mem_cons, List.mem_replicate, List.not_mem_nil, or_false] at hu
  all_goals unfold NumberUnit at *
  all_goals grind

theorem numberUnit_finiteText (d : Decimal) : ∀ u ∈ finiteText d, NumberUnit u := by
  intro u hu
  have hd := numberUnit_decimalText (decimalDigits d.coeff)
    (d.exp + (decimalDigits d.coeff).length) (decimalDigits_lt _)
  unfold finiteText at hu
  split_ifs at hu
  · simp only [List.mem_singleton] at hu
    subst hu
    exact Or.inl (by decide)
  · simp only [List.mem_cons] at hu
    rcases hu with rfl | hu
    · exact Or.inr (Or.inr (Or.inl rfl))
    · exact hd u hu
  · exact hd u hu

theorem decimalText_start (ds : List Nat) (n : Int) (h : ∀ d ∈ ds, d < 10) (hne : ds ≠ []) :
    ∃ u r, decimalText ds n = u :: r ∧ isDigit u = true := by
  obtain ⟨d, ds, rfl⟩ := List.exists_cons_of_ne_nil hne
  have hd := isDigit_digitUnit d (h d (by simp))
  unfold decimalText
  simp only
  split_ifs with h₁ h₂ h₃ h₄
  · exact ⟨_, _, rfl, hd⟩
  · obtain ⟨k, hk⟩ : ∃ k, n.toNat = k + 1 := ⟨n.toNat - 1, by omega⟩
    rw [hk]
    exact ⟨_, _, rfl, hd⟩
  · exact ⟨_, _, rfl, by decide⟩
  all_goals exact ⟨_, _, rfl, hd⟩

theorem finiteText_start (d : Decimal) :
    ∃ u r, finiteText d = u :: r ∧ (isDigit u = true ∨ u = 45) := by
  unfold finiteText
  split_ifs
  · exact ⟨_, _, rfl, Or.inl (by decide)⟩
  · exact ⟨_, _, rfl, Or.inr rfl⟩
  · obtain ⟨u, r, h, hu⟩ := decimalText_start (decimalDigits d.coeff)
      (d.exp + (decimalDigits d.coeff).length) (decimalDigits_lt _) (decimalDigits_ne_nil _)
    exact ⟨u, r, h, Or.inl hu⟩

theorem numberUnit_ascii {u : UInt16} (h : NumberUnit u) : u.toNat < 128 := by
  rcases h with h | rfl | rfl | rfl | rfl
  · simp only [isDigit, decide_eq_true_eq] at h
    omega
  all_goals decide

theorem reads_number (d : Decimal) (h : nearestDouble d = some d) :
    Reads (finiteText d) (.number (.finite d h)) := by
  obtain ⟨u, r, ht, hu⟩ := finiteText_start d
  have hne : isWhitespace u = false ∧ u ≠ 93 ∧ u ≠ 123 ∧ u ≠ 91 ∧ u ≠ 34 ∧ u ≠ 110 ∧ u ≠ 116 ∧
      u ≠ 102 := by
    rcases hu with hu | rfl
    · have hb : 48 ≤ u.toNat ∧ u.toNat < 58 := by simpa [isDigit] using hu
      have hn : ∀ v : UInt16, v.toNat < 48 ∨ 58 ≤ v.toNat → u ≠ v := by
        intro v hv he
        subst he
        omega
      refine ⟨?_, hn _ (by decide), hn _ (by decide), hn _ (by decide), hn _ (by decide),
        hn _ (by decide), hn _ (by decide), hn _ (by decide)⟩
      simp [isWhitespace, hn 9 (by decide), hn 10 (by decide), hn 13 (by decide),
        hn 32 (by decide)]
    · decide
  obtain ⟨hw, h93, h123, h91, h34, h110, h116, h102⟩ := hne
  refine ⟨isWellFormed_ascii _ (fun v hv => numberUnit_ascii (numberUnit_finiteText d v hv)),
    ⟨u, r, ht, hw, h93⟩, ?_⟩
  intro fuel rest hf hs
  obtain ⟨fuel, rfl⟩ : ∃ f, fuel = f + 1 := ⟨fuel - 1, by omega⟩
  have hp := parseNumber_finiteText d h rest (hs trivial)
  rw [ht, List.cons_append] at hp ⊢
  simp only [parseValue, skipWhitespace_cons hw, h123, h91, h34, h110, h116, h102, ↓reduceIte, hp,
    Option.map_some]

theorem joinComma_start (ts : List JsString) {t : JsString} (u : UInt16) (r : JsString)
    (h : t = u :: r) : ∃ r', joinComma (t :: ts) = u :: r' := by
  cases ts with
  | nil => exact ⟨r, h⟩
  | cons t' ts => exact ⟨r ++ 44 :: joinComma (t' :: ts), by rw [joinComma_cons _ (by simp), h]; rfl⟩

theorem reads_array {ts : List JsString} {vs : List JsValue} (h : List.Forall₂ Reads ts vs) :
    Reads (91 :: (joinComma ts ++ [93])) (.array vs) := by
  refine ⟨?_, ⟨91, _, rfl, by decide, by decide⟩, ?_⟩
  · have ha : ∀ t ∈ ts, isWellFormed t = true :=
      ((List.forall₂_and_left ts vs).mp (h.imp fun _ _ ht => ⟨ht.wellFormed, ht⟩)).1
    rw [isWellFormed_cons_ascii 91 _ (by decide)]
    exact isWellFormed_append _ _ (isWellFormed_joinComma ts ha) rfl
  · intro fuel rest hf _
    obtain ⟨fuel, rfl⟩ : ∃ f, fuel = f + 1 := ⟨fuel - 1, by omega⟩
    cases h with
    | nil => simp [parseValue, skipWhitespace, isWhitespace, joinComma]
    | @cons t v ts vs htv hts =>
      obtain ⟨u, r, ht, hw, h93⟩ := htv.start
      obtain ⟨r', hj⟩ := joinComma_start ts u r ht
      simp only [List.length_cons, List.length_append, List.length_nil] at hf
      obtain ⟨fuel, rfl⟩ : ∃ f, fuel = f + 1 := ⟨fuel - 1, by omega⟩
      have hp := parseItems_reads (.cons htv hts) (by simp) fuel rest (by omega)
      rw [hj, List.cons_append] at hp
      simp only [hj, List.cons_append, List.append_assoc, List.nil_append] at hp ⊢
      simp [parseValue, skipWhitespace_cons (u := 91) (by decide), skipWhitespace_cons hw, h93, hp]

theorem isWellFormed_memberText (m : JsString × JsString) (h : isWellFormed m.2 = true) :
    isWellFormed (memberText m) = true := by
  apply isWellFormed_append _ _ (isWellFormed_quote m.1)
  rw [isWellFormed_cons_ascii 58 _ (by decide)]
  exact h

theorem reads_object {ts : List (JsString × JsString)} {ms : List (JsString × JsValue)}
    (h : List.Forall₂ MemberReads ts ms) (hd : (ms.map Prod.fst).Nodup) :
    Reads (123 :: (joinComma (ts.map memberText) ++ [125])) (.object ms) := by
  refine ⟨?_, ⟨123, _, rfl, by decide, by decide⟩, ?_⟩
  · have ha : ∀ t ∈ ts, isWellFormed (memberText t) = true :=
      ((List.forall₂_and_left ts ms).mp
        (h.imp fun t _ ht => ⟨isWellFormed_memberText t ht.2.wellFormed, ht⟩)).1
    rw [isWellFormed_cons_ascii 123 _ (by decide)]
    refine isWellFormed_append _ _ (isWellFormed_joinComma _ ?_) rfl
    intro s hs
    obtain ⟨t, ht, rfl⟩ := List.mem_map.mp hs
    exact ha t ht
  · intro fuel rest hf _
    obtain ⟨fuel, rfl⟩ : ∃ f, fuel = f + 1 := ⟨fuel - 1, by omega⟩
    cases h with
    | nil => simp [parseValue, skipWhitespace, isWhitespace, joinComma]
    | @cons t m ts ms htm hts =>
      have hs : memberText t = 34 :: (quoteUnits t.1 ++ [34] ++ 58 :: t.2) := by
        simp [memberText, quote]
      obtain ⟨r', hj⟩ := joinComma_start (ts.map memberText) 34 _ hs
      simp only [List.length_cons, List.length_append, List.length_nil] at hf
      obtain ⟨fuel, rfl⟩ : ∃ f, fuel = f + 1 := ⟨fuel - 1, by omega⟩
      have hp := parseMembers_reads (.cons htm hts) (by simp) fuel rest (by omega)
      simp only [List.map_cons, hj, List.cons_append, List.append_assoc, List.nil_append] at hp ⊢
      simp [parseValue, skipWhitespace_cons (u := 123) (by decide),
        skipWhitespace_cons (u := 34) (by decide), hp, buildObject_nodup _ hd]

theorem sortKeysMembers_eq_map (E : Encoder) (ms : List (JsString × JsValue)) :
    sortKeysMembers E ms = ms.map fun m => (m.1, sortKeys E m.2) := by
  induction ms with
  | nil => rfl
  | cons m ms ih => rw [sortKeysMembers, List.map_cons, ih]

theorem keys_sortKeysMembers (E : Encoder) (ms : List (JsString × JsValue)) :
    (sortKeysMembers E ms).map Prod.fst = ms.map Prod.fst := by
  rw [sortKeysMembers_eq_map, List.map_map]
  rfl

mutual
/-- Every JSON value has a canonical text, and the text reads as the value with
its keys in encoder order. -/
theorem encode_reads (E : Encoder) : ∀ v : JsValue, isJson v = true →
    ∃ t, encode E v = some t ∧ Reads t (sortKeys E v)
  | .undefined, h => by simp [isJson] at h
  | .null, _ => ⟨_, rfl, reads_null⟩
  | .bool b, _ => ⟨_, rfl, reads_bool b⟩
  | .number (.finite d hd), _ => ⟨_, rfl, reads_number d hd⟩
  | .number (.infinite _), h => by simp [isJson] at h
  | .number .nan, h => by simp [isJson] at h
  | .string s, _ => ⟨_, rfl, reads_string s⟩
  | .array xs, h => by
    obtain ⟨ts, ht, hr⟩ := encodeItems_reads E xs (by simpa [isJson] using h)
    exact ⟨_, by simp [encode, ht], reads_array hr⟩
  | .object ms, h => by
    simp only [isJson, Bool.and_eq_true, decide_eq_true_eq] at h
    obtain ⟨ts, ht, hr⟩ := encodeMembers_reads E ms h.1
    refine ⟨_, by simp [encode, ht], reads_object (forall₂_sortByKey (fun _ _ h => h.1) E hr) ?_⟩
    rw [((sortByKey_perm E _).map Prod.fst).nodup_iff, keys_sortKeysMembers]
    exact h.2

theorem encodeItems_reads (E : Encoder) : ∀ xs : List JsValue, isJsonItems xs = true →
    ∃ ts, encodeItems E xs = some ts ∧ List.Forall₂ Reads ts (sortKeysItems E xs)
  | [], _ => ⟨[], rfl, .nil⟩
  | x :: xs, h => by
    simp only [isJsonItems, Bool.and_eq_true] at h
    obtain ⟨t, ht, hr⟩ := encode_reads E x h.1
    obtain ⟨ts, hts, hrs⟩ := encodeItems_reads E xs h.2
    exact ⟨t :: ts, by simp [encodeItems, ht, hts], .cons hr hrs⟩

theorem encodeMembers_reads (E : Encoder) : ∀ ms : List (JsString × JsValue),
    isJsonMembers ms = true →
    ∃ ts, encodeMembers E ms = some ts ∧ List.Forall₂ MemberReads ts (sortKeysMembers E ms)
  | [], _ => ⟨[], rfl, .nil⟩
  | (k, x) :: ms, h => by
    simp only [isJsonMembers, Bool.and_eq_true] at h
    obtain ⟨t, ht, hr⟩ := encode_reads E x h.1
    obtain ⟨ts, hts, hrs⟩ := encodeMembers_reads E ms h.2
    exact ⟨(k, t) :: ts, by simp [encodeMembers, ht, hts], .cons ⟨rfl, hr⟩ hrs⟩
end

theorem Reads.parseJson {t : JsString} {v : JsValue} (h : Reads t v) :
    parseJson t = some v := by
  have hp := h.parse (t.length + 1) [] (by omega) (fun _ u hu => by simp at hu)
  rw [List.append_nil] at hp
  simp [Json.parseJson, hp, skipWhitespace]

/-- Parsing undoes canonical encoding up to the order of keys. -/
theorem parseJson_encode (E : Encoder) (v : JsValue) (h : isJson v = true) :
    ∃ t, encode E v = some t ∧ isWellFormed t = true ∧ parseJson t = some (sortKeys E v) := by
  obtain ⟨t, ht, hr⟩ := encode_reads E v h
  exact ⟨t, ht, hr.wellFormed, hr.parseJson⟩

/-- The text of an object or a string ends where it says it ends. -/
theorem Reads.self_delimiting {t t' rest rest' : JsString} {v v' : JsValue} (h : Reads t v)
    (h' : Reads t' v') (hn : ¬IsNumber v) (hn' : ¬IsNumber v') (he : t ++ rest = t' ++ rest') :
    v = v' ∧ rest = rest' := by
  have hp := h.parse (max t.length t'.length + 1) rest (by omega) (fun h => absurd h hn)
  have hp' := h'.parse (max t.length t'.length + 1) rest' (by omega) (fun h => absurd h hn')
  rw [he, hp', Option.some.injEq, Prod.mk.injEq] at hp
  exact ⟨hp.1.symm, hp.2.symm⟩

/-- A text without control characters, as on one line. -/
def NoControl (t : JsString) : Prop := ∀ u ∈ t, 32 ≤ u.toNat

instance (t : JsString) : Decidable (NoControl t) :=
  inferInstanceAs (Decidable (∀ u ∈ t, 32 ≤ u.toNat))

theorem noControl_cons {u : UInt16} {t : JsString} (hu : 32 ≤ u.toNat) (ht : NoControl t) :
    NoControl (u :: t) := by
  intro v hv
  rcases List.mem_cons.mp hv with rfl | hv
  · exact hu
  · exact ht v hv

theorem noControl_append {s t : JsString} (hs : NoControl s) (ht : NoControl t) :
    NoControl (s ++ t) := by
  intro u hu
  rcases List.mem_append.mp hu with hu | hu
  · exact hs u hu
  · exact ht u hu

theorem noControl_unicodeEscape (u : UInt16) : NoControl (unicodeEscape u) := by
  have hdigit : ∀ n, n < 16 → 32 ≤ (Sha256.hexDigit n).toNat := by decide
  intro v hv
  simp only [unicodeEscape, List.mem_cons, List.not_mem_nil, or_false] at hv
  rcases hv with rfl | rfl | rfl | rfl | rfl | rfl
  · decide
  · decide
  · apply hdigit
    have := toNat_lt u
    omega
  · exact hdigit _ (Nat.mod_lt _ (by decide))
  · exact hdigit _ (Nat.mod_lt _ (by decide))
  · exact hdigit _ (Nat.mod_lt _ (by decide))

theorem shortEscape_visible {u c : UInt16} (h : shortEscape u = some c) : 32 ≤ c.toNat := by
  simp only [shortEscape] at h
  repeat' split at h
  all_goals cases h
  all_goals decide

theorem noControl_escapeUnit (u : UInt16) : NoControl (escapeUnit u) := by
  rw [escapeUnit]
  split
  · rename_i c hc
    exact noControl_cons (by decide) (noControl_cons (shortEscape_visible hc) (by simp [NoControl]))
  · split
    · exact noControl_unicodeEscape u
    · rename_i hu
      rw [Bool.or_eq_true, not_or] at hu
      have hle : ¬ u.toNat < 32 := by simpa using hu.1
      exact noControl_cons (by omega) (by simp [NoControl])

theorem noControl_quoteUnits (s : JsString) : NoControl (quoteUnits s) := by
  induction s using quoteUnits.induct with
  | case1 => simp [quoteUnits, NoControl]
  | case2 u => exact noControl_escapeUnit u
  | case3 u v rest hp ih =>
    have hpair := pair_bounds hp
    rw [quoteUnits, if_pos hp]
    exact noControl_cons (by omega) (noControl_cons (by omega) ih)
  | case4 u v rest hp ih =>
    rw [quoteUnits, if_neg hp]
    exact noControl_append (noControl_escapeUnit u) ih

theorem noControl_quote (s : JsString) : NoControl (quote s) :=
  noControl_cons (by decide)
    (noControl_append (noControl_quoteUnits s) (noControl_cons (by decide) (by simp [NoControl])))

theorem noControl_joinComma {ts : List JsString} (h : ∀ t ∈ ts, NoControl t) :
    NoControl (joinComma ts) := by
  induction ts with
  | nil => simp [joinComma, NoControl]
  | cons t ts ih =>
    cases ts with
    | nil => exact h t List.mem_cons_self
    | cons t' ts =>
      rw [joinComma_cons t (List.cons_ne_nil _ _)]
      exact noControl_append (h t List.mem_cons_self) (noControl_cons (by decide)
        (ih fun x hx => h x (List.mem_cons_of_mem _ hx)))

theorem noControl_numberText (n : JsNumber) : NoControl (numberText n) := by
  cases n with
  | finite d _ =>
    intro u hu
    rcases numberUnit_finiteText d u hu with h | rfl | rfl | rfl | rfl
    · rw [isDigit, decide_eq_true_eq] at h
      omega
    all_goals decide
  | infinite neg =>
    have hnull : NoControl (js "null") := by decide
    exact hnull
  | nan => decide

mutual
/-- Canonical text has no control characters. -/
theorem encode_noControl {E : Encoder} (hi : E.undefinedItem = none) (hm : E.undefinedMember = none) :
    ∀ (v : JsValue) (t : JsString), encode E v = some t → NoControl t
  | .undefined, t, h => by cases h
  | .null, t, h => by
    cases h
    decide
  | .bool b, t, h => by
    cases h
    cases b <;> decide
  | .number n, t, h => by
    cases h
    exact noControl_numberText n
  | .string s, t, h => by
    cases h
    exact noControl_quote s
  | .array xs, t, h => by
    obtain ⟨ts, hts, rfl⟩ := Option.map_eq_some_iff.mp h
    exact noControl_cons (by decide) (noControl_append
      (noControl_joinComma (encodeItems_noControl hi hm xs ts hts))
      (noControl_cons (by decide) (by simp [NoControl])))
  | .object ms, t, h => by
    obtain ⟨ts, hts, rfl⟩ := Option.map_eq_some_iff.mp h
    have hmembers : ∀ t ∈ (sortByKey E ts).map memberText, NoControl t := by
      intro t ht
      obtain ⟨m, hmem, rfl⟩ := List.mem_map.mp ht
      have hin := (sortByKey_perm E ts).mem_iff.mp hmem
      exact noControl_append (noControl_quote m.1)
        (noControl_cons (by decide) (encodeMembers_noControl hi hm ms ts hts m hin))
    exact noControl_cons (by decide) (noControl_append (noControl_joinComma hmembers)
      (noControl_cons (by decide) (by simp [NoControl])))

theorem encodeItems_noControl {E : Encoder} (hi : E.undefinedItem = none)
    (hm : E.undefinedMember = none) : ∀ (xs : List JsValue) (ts : List JsString),
    encodeItems E xs = some ts → ∀ t ∈ ts, NoControl t
  | [], ts, h => by
    cases h
    simp
  | x :: xs, ts, h => by
    rw [encodeItems, hi] at h
    cases hx : encode E x with
    | none => simp [hx] at h
    | some t =>
      simp only [hx, Option.orElse_eq_orElse, Option.orElse_some] at h
      obtain ⟨ts', hts, rfl⟩ := Option.map_eq_some_iff.mp h
      intro t' ht'
      rcases List.mem_cons.mp ht' with rfl | ht'
      · exact encode_noControl hi hm x _ hx
      · exact encodeItems_noControl hi hm xs ts' hts t' ht'

theorem encodeMembers_noControl {E : Encoder} (hi : E.undefinedItem = none)
    (hm : E.undefinedMember = none) :
    ∀ (ms : List (JsString × JsValue)) (ts : List (JsString × JsString)),
    encodeMembers E ms = some ts → ∀ m ∈ ts, NoControl m.2
  | [], ts, h => by
    cases h
    simp
  | (k, x) :: ms, ts, h => by
    rw [encodeMembers, hm] at h
    cases hx : encode E x with
    | none => simp [hx] at h
    | some t =>
      simp only [hx, Option.orElse_eq_orElse, Option.orElse_some] at h
      obtain ⟨ts', hts, rfl⟩ := Option.map_eq_some_iff.mp h
      intro m hmem
      rcases List.mem_cons.mp hmem with rfl | hmem
      · exact encode_noControl hi hm x _ hx
      · exact encodeMembers_noControl hi hm ms ts' hts m hmem
end

end TrustCore.Json
