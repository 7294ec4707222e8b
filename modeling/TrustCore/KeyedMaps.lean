import Mathlib.Data.List.Nodup

/-!
# Insertion-ordered maps of keyed records

A `KeyedMap key` keeps its records in the order in which their keys were first set.
A record carries its key, so a record is always found under its own key, and no two
records have one key.
-/

namespace TrustCore.KeyedMaps

structure KeyedMap {κ α : Type} (key : α → κ) where
  values : List α
  nodup : (values.map key).Nodup

namespace KeyedMap

variable {κ α : Type} {key : α → κ}

@[ext] theorem ext {m m' : KeyedMap key} (h : m.values = m'.values) : m = m' := by
  cases m
  cases m'
  cases h
  rfl

def empty : KeyedMap key := ⟨[], List.nodup_nil⟩

theorem eq_of_key {m : KeyedMap key} {v w : α} (hv : v ∈ m.values) (hw : w ∈ m.values)
    (h : key v = key w) : v = w := List.inj_on_of_nodup_map m.nodup hv hw h

variable [DecidableEq κ]

def get (m : KeyedMap key) (k : κ) : Option α := m.values.find? fun v => decide (key v = k)

/-- The list with `v` in the place of the record of its key. -/
def replace (key : α → κ) (v : α) (l : List α) : List α := l.map fun w => if key w = key v then v else w

theorem mem_replace {v w : α} {l : List α} :
    w ∈ replace key v l ↔ ∃ x ∈ l, (if key x = key v then v else x) = w := List.mem_map

theorem map_key_replace (v : α) (l : List α) : (replace key v l).map key = l.map key := by
  rw [replace, List.map_map]
  apply List.map_congr_left
  intro w _
  by_cases h : key w = key v
  · simp [h]
  · simp [h]

/-- Replaces the record of the same key in its place, or adds the record at the end. -/
def set (m : KeyedMap key) (v : α) : KeyedMap key where
  values := if key v ∈ m.values.map key then replace key v m.values else m.values ++ [v]
  nodup := by
    by_cases h : key v ∈ m.values.map key
    · rw [if_pos h, map_key_replace]
      exact m.nodup
    · rw [if_neg h, List.map_append, List.map_singleton]
      exact m.nodup.append (List.nodup_singleton _) (List.disjoint_singleton.mpr h)

def erase (m : KeyedMap key) (k : κ) : KeyedMap key where
  values := m.values.filter fun v => decide (key v ≠ k)
  nodup := m.nodup.sublist (List.filter_sublist.map key)

@[simp] theorem get_empty (k : κ) : (empty : KeyedMap key).get k = none := rfl

theorem get_eq_some {m : KeyedMap key} {k : κ} {v : α} :
    m.get k = some v ↔ v ∈ m.values ∧ key v = k := by
  constructor
  · intro h
    have hkey : decide (key v = k) = true := List.find?_some (p := fun v => decide (key v = k)) h
    exact ⟨List.mem_of_find?_eq_some h, of_decide_eq_true hkey⟩
  · rintro ⟨hv, hk⟩
    cases hfound : m.get k with
    | none =>
      have hnone := List.find?_eq_none.mp hfound v hv
      exact absurd hk (by simpa using hnone)
    | some w =>
      have hw := List.mem_of_find?_eq_some hfound
      have hkey : decide (key w = k) = true :=
        List.find?_some (p := fun v => decide (key v = k)) hfound
      rw [eq_of_key hw hv ((of_decide_eq_true hkey).trans hk.symm)]

theorem key_of_get {m : KeyedMap key} {k : κ} {v : α} (h : m.get k = some v) : key v = k :=
  (get_eq_some.mp h).2

theorem mem_of_get {m : KeyedMap key} {k : κ} {v : α} (h : m.get k = some v) : v ∈ m.values :=
  (get_eq_some.mp h).1

theorem get_of_mem {m : KeyedMap key} {v : α} (h : v ∈ m.values) : m.get (key v) = some v :=
  get_eq_some.mpr ⟨h, rfl⟩

theorem values_set_of_mem {m : KeyedMap key} {v : α} (h : key v ∈ m.values.map key) :
    (m.set v).values = replace key v m.values := if_pos h

theorem values_set_of_not_mem {m : KeyedMap key} {v : α} (h : key v ∉ m.values.map key) :
    (m.set v).values = m.values ++ [v] := if_neg h

theorem mem_set {m : KeyedMap key} {v w : α} :
    w ∈ (m.set v).values ↔ w = v ∨ w ∈ m.values ∧ key w ≠ key v := by
  by_cases h : key v ∈ m.values.map key
  · rw [values_set_of_mem h, mem_replace]
    obtain ⟨old, hold, hkey⟩ := List.mem_map.mp h
    constructor
    · rintro ⟨x, hx, rfl⟩
      by_cases hxv : key x = key v
      · exact .inl (if_pos hxv)
      · rw [if_neg hxv]
        exact .inr ⟨hx, hxv⟩
    · rintro (rfl | ⟨hw, hne⟩)
      · exact ⟨old, hold, if_pos hkey⟩
      · exact ⟨w, hw, if_neg hne⟩
  · rw [values_set_of_not_mem h, List.mem_append, List.mem_singleton, or_comm]
    have hne (hw : w ∈ m.values) : key w ≠ key v := by
      intro hkey
      exact h (List.mem_map.mpr ⟨w, hw, hkey⟩)
    constructor
    · exact Or.imp id fun hw => ⟨hw, hne hw⟩
    · exact Or.imp id And.left

theorem mem_erase {m : KeyedMap key} {k : κ} {w : α} :
    w ∈ (m.erase k).values ↔ w ∈ m.values ∧ key w ≠ k := by
  change w ∈ m.values.filter (fun v => decide (key v ≠ k)) ↔ _
  rw [List.mem_filter, decide_eq_true_iff]

theorem get_set (m : KeyedMap key) (v : α) (k : κ) :
    (m.set v).get k = if key v = k then some v else m.get k := by
  ext w
  rw [get_eq_some, mem_set]
  by_cases hk : key v = k
  · rw [if_pos hk, Option.some_inj]
    constructor
    · rintro ⟨rfl | ⟨_, hne⟩, hw⟩
      · rfl
      · exact absurd (hw.trans hk.symm) hne
    · rintro rfl
      exact ⟨.inl rfl, hk⟩
  · rw [if_neg hk, get_eq_some]
    constructor
    · rintro ⟨rfl | ⟨hw, _⟩, hkw⟩
      · exact absurd hkw hk
      · exact ⟨hw, hkw⟩
    · rintro ⟨hw, hkw⟩
      exact ⟨.inr ⟨hw, fun h => hk (h.symm.trans hkw)⟩, hkw⟩

@[simp] theorem get_set_self (m : KeyedMap key) (v : α) : (m.set v).get (key v) = some v := by
  rw [get_set, if_pos rfl]

theorem get_set_of_ne (m : KeyedMap key) {v : α} {k : κ} (h : key v ≠ k) :
    (m.set v).get k = m.get k := by
  rw [get_set, if_neg h]

theorem get_erase (m : KeyedMap key) (k k' : κ) :
    (m.erase k).get k' = if k' = k then none else m.get k' := by
  ext w
  rw [get_eq_some, mem_erase]
  by_cases h : k' = k
  · rw [if_pos h]
    constructor
    · rintro ⟨⟨_, hne⟩, hw⟩
      exact absurd (hw.trans h) hne
    · intro hw
      cases hw
  · rw [if_neg h, get_eq_some]
    constructor
    · rintro ⟨⟨hw, _⟩, hk⟩
      exact ⟨hw, hk⟩
    · rintro ⟨hw, hk⟩
      exact ⟨⟨hw, fun hne => h (hk.symm.trans hne)⟩, hk⟩

/-- What a map holds once a list of records is set. -/
theorem mem_of_mem_foldl_set {l : List α} {m : KeyedMap key} {w : α}
    (h : w ∈ (l.foldl set m).values) : w ∈ l ∨ w ∈ m.values := by
  induction l generalizing m with
  | nil => exact .inr h
  | cons v l ih =>
    obtain hw | hw := ih h
    · exact .inl (List.mem_cons_of_mem v hw)
    · obtain rfl | ⟨hw, -⟩ := mem_set.mp hw
      · exact .inl List.mem_cons_self
      · exact .inr hw

theorem mem_foldl_set {l : List α} {m : KeyedMap key} {w : α} (h : w ∈ l ∨ w ∈ m.values)
    (hsame : ∀ v ∈ l, key v = key w → v = w) : w ∈ (l.foldl set m).values := by
  induction l generalizing m with
  | nil => exact h.resolve_left List.not_mem_nil
  | cons v l ih =>
    have hrest : ∀ v ∈ l, key v = key w → v = w :=
      fun v hv => hsame v (List.mem_cons_of_mem _ hv)
    rw [List.foldl_cons]
    by_cases hkey : key v = key w
    · have heq := hsame v List.mem_cons_self hkey
      exact ih (.inr (mem_set.mpr (.inl heq.symm))) hrest
    · refine ih (h.imp ?_ ?_) hrest
      · intro hw
        exact (List.mem_cons.mp hw).resolve_left fun heq => hkey (heq ▸ rfl)
      · intro hw
        exact mem_set.mpr (.inr ⟨hw, fun heq => hkey heq.symm⟩)

/-- Setting the record that is there changes nothing. -/
theorem set_of_get {m : KeyedMap key} {v : α} (h : m.get (key v) = some v) : m.set v = m := by
  have hv := mem_of_get h
  apply ext
  rw [values_set_of_mem (List.mem_map_of_mem hv), replace]
  conv_rhs => rw [← List.map_id m.values]
  apply List.map_congr_left
  intro w hw
  by_cases hkey : key w = key v
  · rw [if_pos hkey, id_eq, eq_of_key hw hv hkey]
  · rw [if_neg hkey, id_eq]

omit [DecidableEq κ] in
/-- A search for a record that only one can be finds exactly that one. -/
theorem find_of_unique {l : List α} {p : α → Bool}
    (h : ∀ v ∈ l, ∀ w ∈ l, p v = true → p w = true → v = w) {v : α} :
    l.find? p = some v ↔ v ∈ l ∧ p v = true := by
  constructor
  · intro hv
    exact ⟨List.mem_of_find?_eq_some hv, List.find?_some hv⟩
  · rintro ⟨hv, hpv⟩
    cases hfound : l.find? p with
    | none => exact absurd hpv (List.find?_eq_none.mp hfound v hv)
    | some w =>
      rw [h w (List.mem_of_find?_eq_some hfound) v hv (List.find?_some hfound) hpv]

/-! A map `m'` with no record but those of `m`, and with all of these that meet `q`. -/

section Part

variable {m m' : KeyedMap key} {q : α → Bool} (hsub : ∀ v ∈ m'.values, v ∈ m.values)
  (hall : ∀ v ∈ m.values, q v = true → v ∈ m'.values)

include hsub hall

theorem filter_get_eq (k : κ) : (m.get k).filter q = (m'.get k).filter q := by
  ext v
  rw [Option.filter_eq_some_iff, Option.filter_eq_some_iff, get_eq_some, get_eq_some]
  constructor
  · rintro ⟨⟨hv, hk⟩, hq⟩
    exact ⟨⟨hall v hv hq, hk⟩, hq⟩
  · rintro ⟨⟨hv, hk⟩, hq⟩
    exact ⟨⟨hsub v hv, hk⟩, hq⟩

omit [DecidableEq κ] in
theorem filter_values_perm : (m.values.filter q).Perm (m'.values.filter q) := by
  have hnodup (n : KeyedMap key) : (n.values.filter q).Nodup := n.nodup.of_map.filter q
  rw [List.perm_ext_iff_of_nodup (hnodup m) (hnodup m')]
  intro v
  rw [List.mem_filter, List.mem_filter]
  constructor
  · rintro ⟨hv, hq⟩
    exact ⟨hall v hv hq, hq⟩
  · rintro ⟨hv, hq⟩
    exact ⟨hsub v hv, hq⟩

omit [DecidableEq κ] in
theorem find_eq (hunique : ∀ v ∈ m.values, ∀ w ∈ m.values, q v = true → q w = true → v = w) :
    m.values.find? q = m'.values.find? q := by
  have hunique' : ∀ v ∈ m'.values, ∀ w ∈ m'.values, q v = true → q w = true → v = w :=
    fun v hv w hw => hunique v (hsub v hv) w (hsub w hw)
  ext v
  rw [find_of_unique hunique, find_of_unique hunique']
  constructor
  · rintro ⟨hv, hq⟩
    exact ⟨hall v hv hq, hq⟩
  · rintro ⟨hv, hq⟩
    exact ⟨hsub v hv, hq⟩

end Part

end KeyedMap

end TrustCore.KeyedMaps
