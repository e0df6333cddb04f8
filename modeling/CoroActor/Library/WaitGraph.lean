import Mathlib.Data.Set.Finite.Basic
import Mathlib.Logic.Relation
import Mathlib.Order.WellFounded

/-! Wait-for graphs. A graph is a relation on the parties; it is acyclic when no party reaches itself. Taking
edges away keeps it so, and so does an edge to a party from which its start cannot be reached. Where the
parties carry labels, a cycle either stays within one label or shows up as a cycle of labels that follow each
other. -/

namespace WaitGraph

open Relation

variable {α β γ : Type} {r r' : α → α → Prop} {a b x y : α}

/-- No party waits for itself, directly or through others. -/
def Acyclic (r : α → α → Prop) : Prop := ∀ x, ¬ TransGen r x x

theorem Acyclic.mono (h : Acyclic r) (hsub : ∀ x y, r' x y → r x y) : Acyclic r' :=
  fun x hx => h x (TransGen.mono hsub x x hx)

theorem acyclic_empty (h : ∀ x y, ¬ r x y) : Acyclic r := by
  intro x hx
  obtain ⟨y, hxy, -⟩ := TransGen.head'_iff.mp hx
  exact h x y hxy

/-- Along every edge the rank drops. -/
theorem acyclic_of_rank [Preorder γ] (rank : α → γ) (h : ∀ x y, r x y → rank y < rank x) : Acyclic r := by
  have hpath : ∀ x y, TransGen r x y → rank y < rank x := by
    intro x y hxy
    induction hxy with
    | single hxy => exact h _ _ hxy
    | tail _ hyz ih => exact (h _ _ hyz).trans ih
  intro x hx
  exact (hpath x x hx).false

/-- In an acyclic graph no finite set of parties waits within itself: one of them waits for none of the others. -/
theorem Acyclic.eq_empty (h : Acyclic r) {s : Set α} (hs : s.Finite) (hwait : ∀ x ∈ s, ∃ y ∈ s, r x y) : s = ∅ := by
  by_contra hne
  obtain ⟨a, ha⟩ := Set.nonempty_iff_ne_empty.mpr hne
  have : Finite s := hs
  let later : s → s → Prop := fun x y => TransGen r y x
  have : IsTrans s later := ⟨fun _ _ _ hxy hyz => hyz.trans hxy⟩
  have : Std.Irrefl later := ⟨fun x => h x⟩
  obtain ⟨m, -, hm⟩ := (Finite.wellFounded_of_trans_of_irrefl later).has_min Set.univ ⟨⟨a, ha⟩, trivial⟩
  obtain ⟨y, hy, hmy⟩ := hwait m m.2
  exact hm ⟨y, hy⟩ trivial (.single hmy)

theorem eq_of_path (h : ReflTransGen r b a) (hb : ∀ y, ¬ r b y) : b = a := by
  rcases ReflTransGen.cases_head h with heq | ⟨y, hby, -⟩
  · exact heq
  · exact absurd hby (hb y)

section Extend

variable (hold : ∀ x y, r' x y → r x y ∨ x = a ∧ y = b)

include hold

/-- A path of the new graph is one of the old, or goes through the new edge. -/
theorem path_of_extend (hp : TransGen r' x y) : TransGen r x y ∨ ReflTransGen r x a ∧ ReflTransGen r b y := by
  induction hp with
  | single hxy =>
      rcases hold _ _ hxy with hxy | ⟨rfl, rfl⟩
      · exact Or.inl (.single hxy)
      · exact Or.inr ⟨.refl, .refl⟩
  | tail _ hyz ih =>
      rcases hold _ _ hyz with hyz | ⟨rfl, rfl⟩
      · rcases ih with hpath | ⟨hxa, hby⟩
        · exact Or.inl (.tail hpath hyz)
        · exact Or.inr ⟨hxa, .tail hby hyz⟩
      · rcases ih with hpath | ⟨hxa, -⟩
        · exact Or.inr ⟨hpath.to_reflTransGen, .refl⟩
        · exact Or.inr ⟨hxa, .refl⟩

/-- A new edge, to a party that does not reach its start. -/
theorem Acyclic.extend (h : Acyclic r) (hpath : ¬ ReflTransGen r b a) : Acyclic r' := by
  intro x hx
  rcases path_of_extend hold hx with hx | ⟨hxa, hbx⟩
  · exact h x hx
  · exact hpath (hbx.trans hxa)

end Extend

/-! ### Labels -/

/-- An edge from a party with the label `c` leads to one with another label, from which an edge leads on. -/
def Follows (r : α → α → Prop) (label : α → β) (c d : β) : Prop :=
  c ≠ d ∧ ∃ x y z, r x y ∧ r y z ∧ label x = c ∧ label y = d

/-- A path keeps its label, or its labels follow each other. -/
theorem path_label (label : α → β) (hp : TransGen r x y) (hy : ∃ z, r y z) :
    TransGen (fun x' y' => r x' y' ∧ label x' = label x) x y ∧ label y = label x ∨
      TransGen (Follows r label) (label x) (label y) := by
  induction hp with
  | @single y hxy =>
      obtain ⟨z, hyz⟩ := hy
      by_cases heq : label y = label x
      · exact Or.inl ⟨.single ⟨hxy, rfl⟩, heq⟩
      · exact Or.inr (.single ⟨Ne.symm heq, x, y, z, hxy, hyz, rfl, rfl⟩)
  | @tail y z hxy hyz ih =>
      obtain ⟨w, hzw⟩ := hy
      have hfollows : label z ≠ label y → Follows r label (label y) (label z) := fun hne =>
        ⟨hne.symm, y, z, w, hyz, hzw, rfl, rfl⟩
      rcases ih ⟨z, hyz⟩ with ⟨hpath, hy⟩ | hpath
      · by_cases heq : label z = label y
        · exact Or.inl ⟨.tail hpath ⟨hyz, hy⟩, heq.trans hy⟩
        · exact Or.inr (.single (hy ▸ hfollows heq))
      · by_cases heq : label z = label y
        · exact Or.inr (heq ▸ hpath)
        · exact Or.inr (.tail hpath (hfollows heq))

/-- A graph is acyclic when it is so within every label, and the labels do not follow each other in a circle. -/
theorem acyclic_of_labels (label : α → β) (hwithin : ∀ c, Acyclic fun x y => r x y ∧ label x = c)
    (hfollows : Acyclic (Follows r label)) : Acyclic r := by
  intro x hx
  obtain ⟨y, hxy, -⟩ := TransGen.head'_iff.mp hx
  rcases path_label label hx ⟨y, hxy⟩ with ⟨hpath, -⟩ | hpath
  · exact hwithin _ x hpath
  · exact hfollows _ hpath

end WaitGraph
