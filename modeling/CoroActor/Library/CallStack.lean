import Mathlib.Data.List.Basic
import Mathlib.Logic.Relation

/-! Nested calls laid out as one list of participants. A call has a caller and a block of
participants that joined the list on its behalf, outermost last; the next call up is made by the
participant on top of the block of the call below, which is then live. Lists are read from the top:
the head of the list of calls is the innermost one. -/

namespace CallStack

variable {α ι : Type}

/-- The list `L` of participants holds the calls `ns`, the innermost first, above the base `a`. Every
call but the innermost is live. -/
inductive Stacked (caller : ι → α) (block : ι → List α) (live : ι → Prop) (a : α) :
    List ι → List α → Prop
  | base : Stacked caller block live a [] [a]
  | call {n : ι} {ns : List ι} {L : List α} : Stacked caller block live a ns (caller n :: L) →
      block n ≠ [] → n ∉ ns → (∀ m ∈ ns.head?, live m) →
      Stacked caller block live a (n :: ns) (block n ++ caller n :: L)

namespace Stacked

variable {caller caller' : ι → α} {block block' : ι → List α} {live live' : ι → Prop} {a : α}
  {ns : List ι} {L : List α} {n m : ι} {x : α}

/-- The layout of the innermost call. -/
theorem top (h : Stacked caller block live a (n :: ns) L) :
    ∃ L', L = block n ++ caller n :: L' ∧ Stacked caller block live a ns (caller n :: L') ∧
      block n ≠ [] ∧ n ∉ ns ∧ ∀ m ∈ ns.head?, live m := by
  cases h with
  | call hs hb hn hl => exact ⟨_, rfl, hs, hb, hn, hl⟩

theorem congr (h : Stacked caller block live a ns L)
    (hcaller : ∀ n ∈ ns, caller' n = caller n) (hblock : ∀ n ∈ ns, block' n = block n)
    (hlive : ∀ n ∈ ns, live n → live' n) : Stacked caller' block' live' a ns L := by
  induction h with
  | base => exact .base
  | @call n ns L hs hb hn hl ih =>
      have hs' := ih (fun m hm => hcaller m (List.mem_cons_of_mem _ hm))
        (fun m hm => hblock m (List.mem_cons_of_mem _ hm))
        (fun m hm => hlive m (List.mem_cons_of_mem _ hm))
      rw [← hcaller n List.mem_cons_self] at hs'
      have hc := Stacked.call hs' (by rwa [hblock n List.mem_cons_self]) hn
        (fun m hm => hlive m (List.mem_cons_of_mem _ (List.mem_of_mem_head? hm)) (hl m hm))
      rwa [hblock n List.mem_cons_self, hcaller n List.mem_cons_self] at hc

/-- A call below the innermost one is live, and the participant on top of its block is a caller. -/
theorem of_not_head (h : Stacked caller block live a ns L) (hm : m ∈ ns) (hne : ns.head? ≠ some m) :
    live m ∧ ∃ n ∈ ns, (block m).head? = some (caller n) := by
  induction h with
  | base => cases hm
  | @call n ns L hs hb hn hl ih =>
      have hmn : m ≠ n := fun heq => hne (by rw [heq]; rfl)
      have hm' : m ∈ ns := (List.mem_cons.mp hm).resolve_left hmn
      by_cases hhead : ns.head? = some m
      · obtain ⟨ns', rfl⟩ : ∃ ns', ns = m :: ns' := by
          cases ns with
          | nil => cases hhead
          | cons k ks =>
              cases hhead
              exact ⟨ks, rfl⟩
        obtain ⟨L', hL', -, hb', -⟩ := hs.top
        refine ⟨hl m rfl, n, List.mem_cons_self, ?_⟩
        cases hbm : block m with
        | nil => exact absurd hbm hb'
        | cons y ys =>
            rw [hbm, List.cons_append] at hL'
            rw [(List.cons.inj hL').1]
            rfl
      · obtain ⟨hlm, k, hk, hkm⟩ := ih hm' hhead
        exact ⟨hlm, k, List.mem_cons_of_mem _ hk, hkm⟩

/-- When the caller of every call but the innermost is related to the participant on top of its block, the
callers lie on one path. -/
theorem path {r : α → α → Prop} (h : Stacked caller block live a (n :: ns) L)
    (hr : ∀ m ∈ ns, ∀ y, (block m).head? = some y → r (caller m) y) (hm : m ∈ ns) :
    Relation.TransGen r (caller m) (caller n) := by
  induction ns generalizing n L with
  | nil => cases hm
  | cons k ks ih =>
      obtain ⟨L', rfl, hs, -⟩ := h.top
      obtain ⟨L'', hL'', -, hb, -⟩ := hs.top
      have hedge : r (caller k) (caller n) := by
        refine hr k List.mem_cons_self _ ?_
        cases hbk : block k with
        | nil => exact absurd hbk hb
        | cons y ys =>
            rw [hbk, List.cons_append] at hL''
            rw [(List.cons.inj hL'').1]
            rfl
      rcases List.mem_cons.mp hm with rfl | hm'
      · exact .single hedge
      · exact .tail (ih hs (fun m hm => hr m (List.mem_cons_of_mem _ hm)) hm') hedge

theorem base_calls (h : Stacked caller block live a ns L) (hne : ns ≠ []) : ∃ n ∈ ns, caller n = a := by
  induction h with
  | base => exact absurd rfl hne
  | @call n ns L hs hb hn hl ih =>
      cases ns with
      | nil =>
          cases hs
          exact ⟨n, List.mem_cons_self, rfl⟩
      | cons k ks =>
          obtain ⟨m, hm, hma⟩ := ih (List.cons_ne_nil _ _)
          exact ⟨m, List.mem_cons_of_mem _ hm, hma⟩

/-- A new call of the participant on top, with a block of its own. -/
theorem push (h : Stacked caller block live a ns L) (hn : n ∉ ns) (hl : ∀ m ∈ ns.head?, live m)
    (htop : L.head? = some (caller n)) (hb : block n = [x]) :
    Stacked caller block live a (n :: ns) (x :: L) := by
  cases L with
  | nil => cases htop
  | cons y L' =>
      cases htop
      have hc := h.call (by rw [hb]; exact List.cons_ne_nil _ _) hn hl
      rwa [hb] at hc

theorem extend (h : Stacked caller block live a (n :: ns) L) (hb : block' n = x :: block n)
    (hblock : ∀ m ∈ ns, block' m = block m) (hlive : ∀ m ∈ ns, live m → live' m) :
    Stacked caller block' live' a (n :: ns) (x :: L) := by
  obtain ⟨L', rfl, hs, -, hn, hl⟩ := h.top
  have hs' := hs.congr (fun _ _ => rfl) hblock hlive
  have hc := hs'.call (n := n) (by rw [hb]; exact List.cons_ne_nil _ _) hn
    (fun m hm => hlive m (List.mem_of_mem_head? hm) (hl m hm))
  rwa [hb] at hc

/-- The participant on top leaves and was the only one of its call: the call is over, and its caller is
on top. -/
theorem pop_last (h : Stacked caller block live a (n :: ns) (x :: L)) (hb : block n = [x]) :
    L.head? = some (caller n) ∧ Stacked caller block live a ns L := by
  obtain ⟨L', hL, hs, -⟩ := h.top
  rw [hb, List.singleton_append] at hL
  rw [(List.cons.inj hL).2]
  exact ⟨rfl, hs⟩

/-- The participant on top leaves, but others had joined for the same call: it stays open. -/
theorem pop_more (h : Stacked caller block live a (n :: ns) (x :: L)) (hb : block n = x :: block' n)
    (hne : block' n ≠ []) (hblock : ∀ m ∈ ns, block' m = block m)
    (hlive : ∀ m ∈ ns, live m → live' m) :
    L.head? = (block' n).head? ∧ Stacked caller block' live' a (n :: ns) L := by
  obtain ⟨L', hL, hs, -, hn, hl⟩ := h.top
  rw [hb, List.cons_append] at hL
  have hs' := (hs.congr (fun _ _ => rfl) hblock hlive).call (n := n) hne hn
    (fun m hm => hlive m (List.mem_of_mem_head? hm) (hl m hm))
  rw [← (List.cons.inj hL).2] at hs'
  refine ⟨?_, hs'⟩
  rw [(List.cons.inj hL).2]
  exact List.head?_append_of_ne_nil _ hne

end Stacked

end CallStack
