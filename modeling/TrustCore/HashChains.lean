import Mathlib.Data.List.Perm.Basic
import Mathlib.Data.List.Nodup
import Mathlib.Data.List.Chain

/-!
# Links of a chain

A chain of distinct hashes, given as the links from each hash to the one before
it, in any order: it has one root, one tail, and a walk along the links from the
tail meets every hash.
-/

namespace TrustCore.HashChains

variable {α : Type*}

/-- The links of the chain, the first of which goes to `previous`. -/
def chainLinks : Option α → List α → List (α × Option α)
  | _, [] => []
  | previous, h :: hs => (h, previous) :: chainLinks (some h) hs

theorem chainLinks_cons (previous : Option α) (h : α) (hs : List α) :
    chainLinks previous (h :: hs) = (h, previous) :: chainLinks (some h) hs := rfl

@[simp] theorem map_fst_chainLinks (previous : Option α) (hs : List α) :
    (chainLinks previous hs).map Prod.fst = hs := by
  induction hs generalizing previous with
  | nil => rfl
  | cons h hs ih => rw [chainLinks_cons, List.map_cons, ih]

theorem filterMap_snd_chainLinks (h : α) (hs : List α) :
    (chainLinks (some h) hs).filterMap Prod.snd = (h :: hs).dropLast := by
  induction hs generalizing h with
  | nil => rfl
  | cons h' hs ih =>
    have hrest := ih h'
    rw [chainLinks_cons, List.dropLast_cons_cons, ← hrest]
    rfl

theorem filterMap_snd_root (h : α) (hs : List α) :
    (chainLinks none (h :: hs)).filterMap Prod.snd = (h :: hs).dropLast := by
  rw [chainLinks_cons, List.filterMap_cons_none rfl, filterMap_snd_chainLinks]

theorem filter_none_chainLinks (h : α) (hs : List α) :
    ((chainLinks (some h) hs).filter fun l => l.2.isNone) = [] := by
  induction hs generalizing h with
  | nil => rfl
  | cons h' hs ih => rw [chainLinks_cons, List.filter_cons_of_neg (by simp), ih]

section Links

variable {h : α} {hs : List α} {links : List (α × Option α)}

/-- The one link without a hash before it. -/
theorem filter_root (hp : links.Perm (chainLinks none (h :: hs))) :
    (links.filter fun l => l.2.isNone) = [(h, none)] := by
  have hroots := hp.filter fun l => l.2.isNone
  rw [chainLinks_cons, List.filter_cons_of_pos (by simp), filter_none_chainLinks] at hroots
  exact List.perm_singleton.mp hroots

theorem references_perm (hp : links.Perm (chainLinks none (h :: hs))) :
    (links.filterMap Prod.snd).Perm (h :: hs).dropLast := by
  have hrefs := hp.filterMap Prod.snd
  rwa [filterMap_snd_root] at hrefs

theorem hashes_perm (hp : links.Perm (chainLinks none (h :: hs))) :
    (links.map Prod.fst).Perm (h :: hs) := by
  have hhashes := hp.map Prod.fst
  rwa [map_fst_chainLinks] at hhashes

theorem references_nodup (hn : (h :: hs).Nodup) (hp : links.Perm (chainLinks none (h :: hs))) :
    (links.filterMap Prod.snd).Nodup :=
  (references_perm hp).nodup_iff.mpr (hn.sublist (List.dropLast_sublist _))

theorem mem_hashes_of_reference (hp : links.Perm (chainLinks none (h :: hs))) {r : α}
    (hr : r ∈ links.filterMap Prod.snd) : r ∈ links.map Prod.fst :=
  (hashes_perm hp).mem_iff.mpr (List.dropLast_subset _ ((references_perm hp).mem_iff.mp hr))

/-- The one hash that no link refers to. -/
theorem filter_tail [BEq α] [LawfulBEq α] (hn : (h :: hs).Nodup)
    (hp : links.Perm (chainLinks none (h :: hs))) :
    ((links.map Prod.fst).filter fun x => !(links.filterMap Prod.snd).contains x) =
      [(h :: hs).getLast (List.cons_ne_nil _ _)] := by
  have hrefs : ∀ x, (!(links.filterMap Prod.snd).contains x) = !((h :: hs).dropLast).contains x := by
    intro x
    rw [(references_perm hp).contains_eq]
  have hperm := (hashes_perm hp).filter fun x => !((h :: hs).dropLast).contains x
  have hsplit : ((h :: hs).filter fun x => !((h :: hs).dropLast).contains x) =
      [(h :: hs).getLast (List.cons_ne_nil _ _)] := by
    have hlist := List.dropLast_append_getLast (List.cons_ne_nil h hs)
    have hlast : (h :: hs).getLast (List.cons_ne_nil _ _) ∉ (h :: hs).dropLast := by
      intro hmem
      rw [← hlist] at hn
      exact (List.nodup_append.mp hn).2.2 _ hmem _ (List.mem_singleton_self _) rfl
    generalize (h :: hs).dropLast = init at *
    generalize (h :: hs).getLast (List.cons_ne_nil _ _) = last at *
    rw [← hlist, List.filter_append]
    simp [hlast]
  rw [hsplit] at hperm
  simp only [hrefs]
  exact List.perm_singleton.mp hperm

/-- Going backwards, each hash is followed by the one its link names. -/
theorem isChain_reverse (previous : Option α) (hs : List α) (h : α) {next : α → Option α}
    (hnext : ∀ l ∈ chainLinks previous (h :: hs), next l.1 = l.2) :
    List.IsChain (fun a b => next a = some b) (h :: hs).reverse := by
  induction hs generalizing previous h with
  | nil => simp
  | cons h' hs ih =>
    have htail := ih (some h) h' fun l hl => hnext l (List.mem_cons_of_mem _ hl)
    have hlink := hnext (h', some h) (List.mem_cons_of_mem _ List.mem_cons_self)
    rw [List.reverse_cons, List.isChain_append]
    refine ⟨htail, List.isChain_singleton _, ?_⟩
    intro a ha b hb
    rw [List.getLast?_reverse, List.head?_cons, Option.mem_some_iff] at ha
    rw [List.head?_cons, Option.mem_some_iff] at hb
    rw [← ha, ← hb]
    exact hlink

end Links

/-- A list in the order of its image. -/
theorem exists_perm_of_map {β : Type*} {f : β → α} {l : List β} {l' : List α}
    (h : l'.Perm (l.map f)) : ∃ l'' : List β, l''.Perm l ∧ l''.map f = l' := by
  have hcomp := congrFun (congrFun (List.eq_map_comp_perm f) l') l
  obtain ⟨l'', hmap, hperm⟩ := hcomp.mpr h
  exact ⟨l'', hperm, hmap.symm⟩

section Walk

variable {links : List (α × Option α)}

/-- Each hash of the chain but the first has a link to another one. -/
theorem first_or_linked {R : α → α → Prop} {h : α} {hs : List α} (hchain : (h :: hs).IsChain R) :
    ∀ b ∈ h :: hs, b = h ∨ ∃ a ∈ h :: hs, R a b := by
  induction hs generalizing h with
  | nil => simp
  | cons h' hs ih =>
    obtain ⟨hlink, hrest⟩ := List.isChain_cons_cons.mp hchain
    intro b hb
    rcases List.mem_cons.mp hb with rfl | hb
    · exact Or.inl rfl
    · rcases ih hrest b hb with rfl | ⟨a, ha, hab⟩
      · exact Or.inr ⟨h, List.mem_cons_self, hlink⟩
      · exact Or.inr ⟨a, List.mem_cons_of_mem _ ha, hab⟩

theorem chainLinks_subset {previous : Option α} {h : α} {hs : List α} (hfirst : (h, previous) ∈ links)
    (hchain : (h :: hs).IsChain fun a b => (b, some a) ∈ links) :
    chainLinks previous (h :: hs) ⊆ links := by
  induction hs generalizing previous h with
  | nil => simpa [chainLinks] using hfirst
  | cons h' hs ih =>
    obtain ⟨hlink, hrest⟩ := List.isChain_cons_cons.mp hchain
    rw [chainLinks_cons]
    exact List.cons_subset.mpr ⟨hfirst, ih hlink hrest⟩

theorem eq_of_hash (hn : (links.map Prod.fst).Nodup) {h : α} {x y : Option α} (hx : (h, x) ∈ links)
    (hy : (h, y) ∈ links) : x = y :=
  congrArg Prod.snd (List.inj_on_of_nodup_map hn hx hy rfl)

/-- A walk along the links that meets as many hashes as there are, one of which has none before it,
goes through a chain. -/
theorem perm_chainLinks {walk : List α} (hn : (links.map Prod.fst).Nodup) {root : α}
    (hroot : (root, none) ∈ links) (hwalk : walk.Nodup) (hsub : walk ⊆ links.map Prod.fst)
    (hlength : walk.length = links.length)
    (hsteps : walk.IsChain fun a b => (a, some b) ∈ links) :
    links.Perm (chainLinks none walk.reverse) ∧ walk.reverse.head? = some root := by
  have hperm : walk.Perm (links.map Prod.fst) :=
    (List.subperm_of_subset hwalk hsub).perm_of_length_le (by rw [List.length_map, hlength])
  have hback : walk.reverse.IsChain fun a b => (b, some a) ∈ links := List.isChain_reverse.mpr hsteps
  have hmem : root ∈ walk.reverse :=
    List.mem_reverse.mpr (hperm.mem_iff.mpr (List.mem_map_of_mem hroot))
  -- the root has no link to another hash, so it can only be the last that the walk meets
  obtain ⟨h, hs, hreverse⟩ := List.exists_cons_of_ne_nil (List.ne_nil_of_mem hmem)
  rw [hreverse] at hback hmem
  have hfirst : root = h := by
    rcases first_or_linked hback root hmem with heq | ⟨a, -, ha⟩
    · exact heq
    · cases eq_of_hash hn hroot ha
  subst hfirst
  rw [hreverse]
  have hsubset := chainLinks_subset hroot hback
  have hnodup : (chainLinks none (root :: hs)).Nodup := by
    apply List.Nodup.of_map Prod.fst
    rw [map_fst_chainLinks, ← hreverse]
    exact List.nodup_reverse.mpr hwalk
  have hcount : (chainLinks none (root :: hs)).length = links.length := by
    have hhashes := congrArg List.length (map_fst_chainLinks none (root :: hs))
    rw [List.length_map] at hhashes
    rw [hhashes, ← hreverse, List.length_reverse, hlength]
  exact ⟨((List.subperm_of_subset hnodup hsubset).perm_of_length_le hcount.ge).symm, rfl⟩

end Walk

end TrustCore.HashChains
