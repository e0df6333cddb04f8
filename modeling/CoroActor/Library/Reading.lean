import Mathlib.Data.List.Basic

/-! Reading a byte stream that arrives in pieces. What a read loop gets does not depend on the pieces: it
gets the encodings that the stream begins with, one by one, and stops at the first that is cut. -/

namespace Reading

/-- A stream, in the pieces in which its bytes arrive. After the last piece it has ended. -/
abbrev Stream (β : Type) := List (List β)

variable {β σ α φ : Type} {st : Stream β}

/-- Reading exactly so many bytes: piece after piece, until there are enough or the stream has ended. A read
of no bytes does not touch the stream. -/
def asyncRead : Nat → Stream β → Option (List β × Stream β)
  | 0, st => some ([], st)
  | _ + 1, [] => none
  | n + 1, piece :: st =>
      if piece.length ≤ n + 1 then
        (asyncRead (n + 1 - piece.length) st).map fun r => (piece ++ r.1, r.2)
      else some (piece.take (n + 1), piece.drop (n + 1) :: st)

theorem asyncRead_of_append {bs more : List β} (h : st.flatten = bs ++ more) :
    ∃ rest, asyncRead bs.length st = some (bs, rest) ∧ rest.flatten = more := by
  induction st generalizing bs with
  | nil =>
      obtain ⟨rfl, rfl⟩ := List.append_eq_nil_iff.mp h.symm
      exact ⟨[], rfl, rfl⟩
  | cons piece st ih =>
      cases bs with
      | nil => exact ⟨piece :: st, rfl, h⟩
      | cons b bs =>
          rw [List.flatten_cons] at h
          rw [List.length_cons, asyncRead]
          split
          · next hle =>
              -- the piece is the beginning of what is asked for
              obtain ⟨tail, htail⟩ : piece <+: b :: bs :=
                List.prefix_of_prefix_length_le ⟨_, h⟩ (List.prefix_append _ _) hle
              rw [← htail, List.append_assoc] at h
              obtain ⟨rest, hread, hrest⟩ := ih (List.append_cancel_left h)
              have hlen : bs.length + 1 - piece.length = tail.length := by
                rw [← List.length_cons (a := b), ← htail, List.length_append, Nat.add_sub_cancel_left]
              refine ⟨rest, ?_, hrest⟩
              rw [hlen, hread, ← htail]
              rfl
          · next hgt =>
              -- the piece goes on after it
              obtain ⟨tail, rfl⟩ : b :: bs <+: piece :=
                List.prefix_of_prefix_length_le ⟨_, h.symm⟩ (List.prefix_append _ _) (by simp at hgt ⊢; omega)
              refine ⟨tail :: st, ?_, ?_⟩
              · rw [show bs.length + 1 = (b :: bs).length from rfl, List.take_left, List.drop_left]
              · rw [List.append_assoc] at h
                exact List.append_cancel_left h

theorem asyncRead_of_short {n : Nat} (h : st.flatten.length < n) : asyncRead n st = none := by
  induction st generalizing n with
  | nil =>
      obtain ⟨n, rfl⟩ := Nat.exists_eq_succ_of_ne_zero (Nat.ne_zero_of_lt h)
      rfl
  | cons piece st ih =>
      obtain ⟨n, rfl⟩ := Nat.exists_eq_succ_of_ne_zero (Nat.ne_zero_of_lt h)
      rw [List.flatten_cons, List.length_append] at h
      rw [Nat.succ_eq_add_one, asyncRead, if_pos (by omega), ih (by omega)]
      rfl

/-- What is read is what the stream begins with, as much as was asked for. -/
theorem asyncRead_eq_some {n : Nat} {bs : List β} {rest : Stream β} (h : asyncRead n st = some (bs, rest)) :
    bs.length = n ∧ st.flatten = bs ++ rest.flatten := by
  have hlong : n ≤ st.flatten.length := by
    apply Nat.not_lt.mp
    intro hshort
    rw [asyncRead_of_short hshort] at h
    cases h
  have hlen : (st.flatten.take n).length = n := List.length_take_of_le hlong
  obtain ⟨rest', hread, hrest⟩ := asyncRead_of_append (List.take_append_drop n st.flatten).symm
  rw [hlen, h] at hread
  obtain ⟨rfl, rfl⟩ := Prod.mk.inj (Option.some.inj hread)
  refine ⟨hlen, ?_⟩
  rw [hrest, List.take_append_drop]

theorem asyncRead_of_cut {bs more : List β} (hpre : st.flatten <+: bs ++ more) (hne : st.flatten ≠ bs ++ more) :
    asyncRead bs.length st = none ∨
      ∃ rest, asyncRead bs.length st = some (bs, rest) ∧ rest.flatten <+: more ∧ rest.flatten ≠ more := by
  by_cases hshort : st.flatten.length < bs.length
  · exact Or.inl (asyncRead_of_short hshort)
  · obtain ⟨part, hpart⟩ : bs <+: st.flatten :=
      List.prefix_of_prefix_length_le (List.prefix_append bs more) hpre (Nat.not_lt.mp hshort)
    obtain ⟨rest, hread, hrest⟩ := asyncRead_of_append hpart.symm
    rw [← hpart, List.prefix_append_right_inj] at hpre
    refine Or.inr ⟨rest, hread, hrest ▸ hpre, fun heq => hne ?_⟩
    rw [← hpart, ← hrest, heq]

/-- A round of a read loop: the stream ends in it, or an assertion fails, or it is handled and leaves
something behind. The locals of the loop live on from one round to the next. -/
inductive Round (σ φ β : Type) where
  | ended
  | aborted
  | next (out : φ) (locals : σ) (rest : Stream β)

/-- The loop, for at most so many rounds: what the rounds left behind, and the stream before the round that
it ended in. -/
def readLoop (round : σ → Stream β → Round σ φ β) : Nat → σ → Stream β → Option (List φ × Stream β)
  | 0, _, _ => none
  | n + 1, l, st =>
      match round l st with
      | .ended => some ([], st)
      | .aborted => none
      | .next out l' rest => (readLoop round n l' rest).map fun r => (out :: r.1, r.2)

/-- Rounds that read encodings, until what is left ends one: the loop gets all the encodings and leaves the
rest. -/
theorem readLoop_of_rounds {round : σ → Stream β → Round σ φ β} {enc : α → List β} {ok : α → Prop} {out : α → φ}
    {as : List α} {part : List β} {n : Nat} {l : σ}
    (hwhole : ∀ l st a more, ok a → st.flatten = enc a ++ more →
      ∃ l' rest, round l st = .next (out a) l' rest ∧ rest.flatten = more)
    (hended : ∀ l st, st.flatten = part → round l st = .ended) (hok : ∀ a ∈ as, ok a)
    (hst : st.flatten = as.flatMap enc ++ part) (hn : as.length < n) :
    ∃ rest, readLoop round n l st = some (as.map out, rest) ∧ rest.flatten = part := by
  induction as generalizing n l st with
  | nil =>
      obtain ⟨n, rfl⟩ := Nat.exists_eq_succ_of_ne_zero (Nat.ne_zero_of_lt hn)
      refine ⟨st, ?_, hst⟩
      rw [Nat.succ_eq_add_one, Reading.readLoop, hended l st hst]
      rfl
  | cons a as ih =>
      obtain ⟨n, rfl⟩ := Nat.exists_eq_succ_of_ne_zero (Nat.ne_zero_of_lt hn)
      rw [List.flatMap_cons, List.append_assoc] at hst
      obtain ⟨l', st', hround, hst'⟩ := hwhole l st a _ (hok a List.mem_cons_self) hst
      obtain ⟨rest, hloop, hrest⟩ := ih (fun b hb => hok b (List.mem_cons_of_mem a hb)) hst'
        (Nat.lt_of_succ_lt_succ hn) (l := l')
      refine ⟨rest, ?_, hrest⟩
      rw [Nat.succ_eq_add_one, Reading.readLoop, hround]
      simp only [hloop]
      rfl

/-- Each round reads one encoding, whatever the locals hold and however the stream arrives. -/
structure Reads (round : σ → Stream β → Round σ φ β) (enc : α → List β) (ok : α → Prop) (out : α → φ) :
    Prop where
  whole : ∀ l st a more, ok a → st.flatten = enc a ++ more →
    ∃ l' rest, round l st = .next (out a) l' rest ∧ rest.flatten = more
  cut : ∀ l st a, ok a → st.flatten <+: enc a → st.flatten ≠ enc a → round l st = .ended
  finished : ∀ l st, st.flatten = [] → round l st = .ended

/-- A stream ends between two encodings, or in one. -/
def Cut (enc : α → List β) (ok : α → Prop) (part : List β) : Prop :=
  part = [] ∨ ∃ a, ok a ∧ part <+: enc a ∧ part ≠ enc a

/-- **The loop reads what was written.** It gets all encodings that are whole, consumes exactly these, and
stops at the one that is cut. -/
theorem Reads.readLoop {round : σ → Stream β → Round σ φ β} {enc : α → List β} {ok : α → Prop} {out : α → φ}
    (h : Reads round enc ok out) {as : List α} {part : List β} {n : Nat} {l : σ} (hok : ∀ a ∈ as, ok a)
    (hcut : Cut enc ok part) (hst : st.flatten = as.flatMap enc ++ part) (hn : as.length < n) :
    ∃ rest, readLoop round n l st = some (as.map out, rest) ∧ rest.flatten = part := by
  apply readLoop_of_rounds h.whole _ hok hst hn
  intro l' st' hst'
  rcases hcut with rfl | ⟨a, ha, hpre, hne⟩
  · exact h.finished l' st' hst'
  · rw [← hst'] at hpre hne
    exact h.cut l' st' a ha hpre hne

/-- Each round reads one encoding if the stream begins with one, and otherwise it ends. -/
structure Parses (round : σ → Stream β → Round σ φ β) (enc : α → List β) (out : α → φ) : Prop where
  whole : ∀ l st a more, st.flatten = enc a ++ more →
    ∃ l' rest, round l st = .next (out a) l' rest ∧ rest.flatten = more
  cut : ∀ l st, (∀ a, ¬ enc a <+: st.flatten) → round l st = .ended

/-- **The loop parses any stream.** It gets the encodings that the stream begins with, up to where none
begins. -/
theorem Parses.readLoop {round : σ → Stream β → Round σ φ β} {enc : α → List β} {out : α → φ}
    (h : Parses round enc out) {as : List α} {part : List β} {n : Nat} {l : σ} (hpart : ∀ a, ¬ enc a <+: part)
    (hst : st.flatten = as.flatMap enc ++ part) (hn : as.length < n) :
    ∃ rest, readLoop round n l st = some (as.map out, rest) ∧ rest.flatten = part := by
  refine readLoop_of_rounds (fun l' st' a more (_ : True) => h.whole l' st' a more) ?_ (fun _ _ => trivial) hst hn
  intro l' st' hst'
  rw [← hst'] at hpart
  exact h.cut l' st' hpart

end Reading
