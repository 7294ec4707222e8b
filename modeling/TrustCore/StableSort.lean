import Mathlib.Data.List.Sort
import Mathlib.Data.List.FinRange
import Mathlib.Data.List.NodupEquivFin

/-!
# Places after a stable sort

Where the elements of a list go when it is sorted by a total preorder: elements
that compare equal keep their order. The places of a list form a list without
repetition, so the sort of the places says where each element goes even when
elements repeat.
-/

namespace TrustCore.StableSort

variable {α : Type*} (r : α → α → Prop)

/-- The element at one place of the list comes before the one at the other once the
list is sorted. -/
def Precedes (l : List α) (i j : Fin l.length) : Prop :=
  r (l.get i) (l.get j) ∧ (i < j ∨ ¬ r (l.get j) (l.get i))

theorem not_precedes_self (l : List α) (i : Fin l.length) : ¬ Precedes r l i i := by
  rintro ⟨hle, hlt | hnot⟩
  · exact lt_irrefl i hlt
  · exact hnot hle

theorem precedes_asymm {l : List α} {i j : Fin l.length} (hij : Precedes r l i j) :
    ¬ Precedes r l j i := by
  rintro ⟨hji, h⟩
  obtain ⟨hle, h'⟩ := hij
  rcases h with hlt | hnot
  · rcases h' with hlt' | hnot'
    · exact lt_asymm hlt hlt'
    · exact hnot' hji
  · exact hnot hle

theorem orderedInsert_eq_concat [DecidableRel r] {a : α} {l : List α} (h : ∀ b ∈ l, ¬ r a b) :
    l.orderedInsert r a = l ++ [a] := by
  induction l with
  | nil => rfl
  | cons b l ih =>
    rw [List.orderedInsert_cons, if_neg (h b List.mem_cons_self),
      ih fun c hc => h c (List.mem_cons_of_mem b hc), List.cons_append]

variable {r} in
/-- A list whose elements are all out of order is sorted by turning it around. -/
theorem insertionSort_eq_reverse [DecidableRel r] {l : List α}
    (h : l.Pairwise fun a b => ¬ r a b) : l.insertionSort r = l.reverse := by
  induction l with
  | nil => rfl
  | cons a l ih =>
    obtain ⟨ha, hl⟩ := List.pairwise_cons.mp h
    rw [List.insertionSort_cons, ih hl, List.reverse_cons]
    exact orderedInsert_eq_concat r fun b hb => ha b (List.mem_reverse.mp hb)

/-- In a list without repetition a pair that stands in order stands in no other order. -/
theorem not_sublist_of_lt {β : Type*} {l : List β} (hn : l.Nodup) {m n : Fin l.length}
    (h : m < n) : ¬ [l.get n, l.get m].Sublist l := by
  intro hs
  obtain ⟨f, hf⟩ := List.sublist_iff_exists_fin_orderEmbedding_get_eq.mp hs
  have h0 : f ⟨0, by simp⟩ = n := (List.nodup_iff_injective_get.mp hn (hf ⟨0, by simp⟩)).symm
  have h1 : f ⟨1, by simp⟩ = m := (List.nodup_iff_injective_get.mp hn (hf ⟨1, by simp⟩)).symm
  have hlt : f ⟨0, by simp⟩ < f ⟨1, by simp⟩ := f.lt_iff_lt.mpr (by simp)
  rw [h0, h1] at hlt
  exact lt_asymm h hlt

variable [DecidableRel r]

/-- The places of a list, sorted by what stands there. -/
def sortedPlaces (l : List α) : List (Fin l.length) :=
  (List.finRange l.length).insertionSort fun i j => r (l.get i) (l.get j)

theorem map_sortedPlaces (l : List α) : (sortedPlaces r l).map l.get = l.insertionSort r := by
  have hmap : ((List.finRange l.length).insertionSort fun i j => r (l.get i) (l.get j)).map l.get =
      ((List.finRange l.length).map l.get).insertionSort r :=
    List.map_insertionSort _ _ _ _ fun _ _ _ _ => Iff.rfl
  rw [sortedPlaces, hmap, List.map_get_finRange]

theorem nodup_sortedPlaces (l : List α) : (sortedPlaces r l).Nodup :=
  (List.perm_insertionSort _ _).nodup_iff.mpr (List.nodup_finRange _)

theorem mem_sortedPlaces (l : List α) (i : Fin l.length) : i ∈ sortedPlaces r l :=
  (List.mem_insertionSort _).mpr (List.mem_finRange i)

variable [Std.Total r] [IsTrans α r]

theorem pairwise_sortedPlaces (l : List α) :
    (sortedPlaces r l).Pairwise fun i j => r (l.get i) (l.get j) := by
  have htotal : Std.Total fun i j : Fin l.length => r (l.get i) (l.get j) :=
    ⟨fun i j => Std.Total.total (l.get i) (l.get j)⟩
  have htrans : IsTrans (Fin l.length) fun i j => r (l.get i) (l.get j) :=
    ⟨fun i j k hij hjk => IsTrans.trans _ _ _ hij hjk⟩
  exact List.pairwise_insertionSort _ _

/-- What stands earlier in the sorted list precedes. -/
theorem precedes_of_lt (l : List α) {m n : Fin (sortedPlaces r l).length} (h : m < n) :
    Precedes r l ((sortedPlaces r l).get m) ((sortedPlaces r l).get n) := by
  have hle := List.pairwise_iff_get.mp (pairwise_sortedPlaces r l) m n h
  refine ⟨hle, ?_⟩
  by_contra hcon
  rw [not_or, not_not] at hcon
  obtain ⟨hnlt, hge⟩ := hcon
  have hne : (sortedPlaces r l).get m ≠ (sortedPlaces r l).get n := by
    intro heq
    exact ne_of_lt h (List.nodup_iff_injective_get.mp (nodup_sortedPlaces r l) heq)
  have hlt : (sortedPlaces r l).get n < (sortedPlaces r l).get m :=
    lt_of_le_of_ne (not_lt.mp hnlt) (Ne.symm hne)
  have hsub : [(sortedPlaces r l).get n, (sortedPlaces r l).get m].Sublist
      (List.finRange l.length) := by
    apply List.sublist_of_subperm_of_sortedLE
    · apply List.subperm_of_subset
      · exact List.pairwise_pair.mpr (Ne.symm hne)
      · exact fun i _ => List.mem_finRange i
    · exact (List.pairwise_pair.mpr (le_of_lt hlt)).sortedLE
    · exact (List.sortedLT_finRange _).sortedLE
  exact not_sublist_of_lt (nodup_sortedPlaces r l) h (List.pair_sublist_insertionSort hge hsub)

/-- The places of a list and the places of its sort, matched up. -/
theorem exists_places (l : List α) :
    ∃ place : Fin l.length ≃ Fin (l.insertionSort r).length,
      (∀ i, (l.insertionSort r).get (place i) = l.get i) ∧
        ∀ i j, place i < place j ↔ Precedes r l i j := by
  have hlen : (sortedPlaces r l).length = (l.insertionSort r).length := by
    rw [← map_sortedPlaces, List.length_map]
  let element : Fin (sortedPlaces r l).length ≃ Fin l.length :=
    (nodup_sortedPlaces r l).getEquivOfForallMemList _ (mem_sortedPlaces r l)
  have hlt : ∀ i j, element.symm i < element.symm j ↔ Precedes r l i j := by
    have hmp : ∀ i j, element.symm i < element.symm j → Precedes r l i j := by
      intro i j h
      have hp : Precedes r l (element (element.symm i)) (element (element.symm j)) :=
        precedes_of_lt r l h
      rwa [Equiv.apply_symm_apply, Equiv.apply_symm_apply] at hp
    intro i j
    constructor
    · exact hmp i j
    · intro hij
      rcases lt_trichotomy (element.symm i) (element.symm j) with h | h | h
      · exact h
      · rw [element.symm.injective h] at hij
        exact absurd hij (not_precedes_self r l j)
      · exact absurd (hmp j i h) (precedes_asymm r hij)
  refine ⟨element.symm.trans (finCongr hlen), ?_, ?_⟩
  · intro i
    have hplace : (sortedPlaces r l).get (element.symm i) = i := element.apply_symm_apply i
    have hget : (l.insertionSort r)[(element.symm i).val]? =
        ((sortedPlaces r l)[(element.symm i).val]?).map l.get := by
      rw [← map_sortedPlaces, List.getElem?_map]
    rw [List.getElem?_eq_getElem (hlen ▸ (element.symm i).isLt),
      List.getElem?_eq_getElem (element.symm i).isLt, Option.map_some, Option.some.injEq] at hget
    rw [List.get_eq_getElem] at hplace
    rw [hplace] at hget
    exact hget
  · intro i j
    rw [← hlt i j]
    rfl

end TrustCore.StableSort
