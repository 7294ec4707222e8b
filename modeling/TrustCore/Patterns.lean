import Mathlib.Data.List.Basic

/-!
# Fixed-length patterns in a text

A pattern is a list of classes of characters, one for each character it matches. A text
that is cut at a character which no class admits contains a pattern exactly when one of
the two parts does.
-/

namespace TrustCore.Patterns

variable {α : Type}

abbrev Pattern (α : Type) := List (α → Bool)

namespace Pattern

def startsWith : Pattern α → List α → Bool
  | [], _ => true
  | _ :: _, [] => false
  | c :: p, u :: t => c u && startsWith p t

def occurs (p : Pattern α) : List α → Bool
  | [] => p.startsWith []
  | u :: t => p.startsWith (u :: t) || p.occurs t

/-- No class of the pattern admits the character. -/
def Excludes (p : Pattern α) (sep : α) : Prop := ∀ c ∈ p, c sep = false

instance (p : Pattern α) (sep : α) : Decidable (p.Excludes sep) := List.decidableBAll _ _

variable {p : Pattern α} {sep : α}

theorem startsWith_cut (h : p.Excludes sep) (t rest : List α) :
    p.startsWith (t ++ sep :: rest) = p.startsWith t := by
  induction p generalizing t with
  | nil => rfl
  | cons c p ih =>
    have hp : Excludes p sep := fun c hc => h c (List.mem_cons_of_mem _ hc)
    cases t with
    | nil =>
      have hc : c sep = false := h c List.mem_cons_self
      simp only [List.nil_append, startsWith, hc, Bool.false_and]
    | cons u t => rw [List.cons_append, startsWith, startsWith, ih hp]

theorem occurs_cut (h : p.Excludes sep) (t rest : List α) :
    p.occurs (t ++ sep :: rest) = (p.occurs t || p.occurs rest) := by
  induction t with
  | nil =>
    have hcut := startsWith_cut h [] rest
    rw [List.nil_append] at hcut
    rw [List.nil_append, occurs, occurs, hcut]
  | cons u t ih =>
    have hcut := startsWith_cut h (u :: t) rest
    rw [List.cons_append] at hcut
    rw [List.cons_append, occurs, occurs, hcut, ih, Bool.or_assoc]

end Pattern

/-- Some pattern of the list occurs in the text. -/
def anyOccurs (ps : List (Pattern α)) (t : List α) : Bool := ps.any fun p => p.occurs t

theorem anyOccurs_cut {ps : List (Pattern α)} {sep : α} (h : ∀ p ∈ ps, p.Excludes sep)
    (t rest : List α) :
    anyOccurs ps (t ++ sep :: rest) = (anyOccurs ps t || anyOccurs ps rest) := by
  induction ps with
  | nil => rfl
  | cons p ps ih =>
    have hp : p.Excludes sep := h p List.mem_cons_self
    have hps : ∀ p ∈ ps, p.Excludes sep := fun q hq => h q (List.mem_cons_of_mem _ hq)
    simp only [anyOccurs, List.any_cons] at ih ⊢
    rw [Pattern.occurs_cut hp, ih hps]
    ac_rfl

end TrustCore.Patterns
