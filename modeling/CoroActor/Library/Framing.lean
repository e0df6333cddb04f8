import Mathlib.Data.List.Basic

/-! Frames on a byte stream. A sender puts the encodings of frames on a stream, in pieces of any length;
what a reader relies on is that the stream is a concatenation of whole encodings and a beginning of one
more. -/

namespace Framing

variable {φ β : Type} {enc : φ → List β} {fs : List φ} {out left : List β} {f : φ}

/-- Of the encodings of the frames `fs`, in order, `out` has been sent and `left` has not; `left` belongs to
the last frame. -/
structure Sending (enc : φ → List β) (fs : List φ) (out left : List β) : Prop where
  whole : out ++ left = fs.flatMap enc
  last : left ≠ [] → ∃ f ∈ fs.getLast?, left <:+ enc f

/-- The stream consists of the encodings of frames, and of a beginning of one encoding. -/
def Framed (enc : φ → List β) (fs : List φ) (out : List β) : Prop :=
  ∃ whole part, out = whole.flatMap enc ++ part ∧
    (fs = whole ∧ part = [] ∨ ∃ f, fs = whole ++ [f] ∧ part <+: enc f)

theorem Framed.isPrefix (h : Framed enc fs out) : out <+: fs.flatMap enc := by
  obtain ⟨whole, part, rfl, ⟨rfl, rfl⟩ | ⟨f, rfl, hpart⟩⟩ := h
  · simp
  · rw [List.flatMap_append, List.flatMap_singleton, List.prefix_append_right_inj]
    exact hpart

theorem framed_nil (h : Framed enc [] out) : out = [] := by
  obtain ⟨whole, part, rfl, ⟨rfl, rfl⟩ | ⟨f, hf, -⟩⟩ := h
  · rfl
  · exact absurd hf.symm (List.append_ne_nil_of_right_ne_nil _ (List.cons_ne_nil _ _))

/-- The first frame is whole, or it is cut and nothing comes after it. -/
theorem Framed.cons (h : Framed enc (f :: fs) out) :
    (∃ more, out = enc f ++ more ∧ Framed enc fs more) ∨ (out <+: enc f ∧ out ≠ enc f) := by
  obtain ⟨whole, part, rfl, ⟨rfl, rfl⟩ | ⟨g, hg, hpart⟩⟩ := h
  · left
    refine ⟨fs.flatMap enc ++ [], ?_, fs, [], rfl, Or.inl ⟨rfl, rfl⟩⟩
    rw [List.flatMap_cons, List.append_assoc]
  · cases whole with
    | nil =>
        obtain ⟨rfl, rfl⟩ := List.cons.inj hg
        by_cases hwhole : part = enc f
        · left
          refine ⟨[], ?_, [], [], rfl, Or.inl ⟨rfl, rfl⟩⟩
          rw [hwhole, List.append_nil]
          rfl
        · exact Or.inr ⟨hpart, hwhole⟩
    | cons w whole =>
        obtain ⟨rfl, rfl⟩ := List.cons.inj hg
        left
        refine ⟨whole.flatMap enc ++ part, ?_, whole, part, rfl, Or.inr ⟨g, rfl, hpart⟩⟩
        rw [List.flatMap_cons, List.append_assoc]

/-- An encoding says where it ends. -/
def PrefixFree (enc : φ → List β) (ok : φ → Prop) : Prop :=
  ∀ a b s t, ok a → ok b → enc a ++ s = enc b ++ t → a = b ∧ s = t

theorem Framed.rest {ok : φ → Prop} {as : List φ} {more : List β} (hfree : PrefixFree enc ok)
    (hne : ∀ f, enc f ≠ []) (has : ∀ a ∈ as, ok a) (hok : ∀ f ∈ fs, ok f)
    (h : Framed enc fs (as.flatMap enc ++ more)) : ∃ gs, fs = as ++ gs ∧ Framed enc gs more := by
  induction as generalizing fs with
  | nil => exact ⟨fs, rfl, h⟩
  | cons a as ih =>
      rw [List.flatMap_cons, List.append_assoc] at h
      have ha : ok a := has a List.mem_cons_self
      cases fs with
      | nil => exact absurd (List.append_eq_nil_iff.mp (framed_nil h)).1 (hne a)
      | cons f fs =>
          have hf : ok f := hok f List.mem_cons_self
          rcases h.cons with ⟨more', heq, hmore⟩ | ⟨⟨tail, htail⟩, hcut⟩
          · obtain ⟨rfl, rfl⟩ := hfree a f _ _ ha hf heq
            obtain ⟨gs, rfl, hgs⟩ := ih (fun b hb => has b (List.mem_cons_of_mem a hb))
              (fun b hb => hok b (List.mem_cons_of_mem a hb)) hmore
            exact ⟨gs, rfl, hgs⟩
          · -- the encoding of `a` would end inside that of `f`
            rw [List.append_assoc, ← List.append_nil (enc f)] at htail
            obtain ⟨rfl, hnil⟩ := hfree a f _ _ ha hf htail
            rw [(List.append_eq_nil_iff.mp hnil).1, List.append_nil] at hcut
            exact absurd rfl hcut

/-- Any bytes are whole encodings, and then something that no encoding is the beginning of. -/
theorem exists_frames (hne : ∀ f, enc f ≠ []) (bs : List β) :
    ∃ (fs : List φ) (part : List β), bs = fs.flatMap enc ++ part ∧ ∀ f, ¬ enc f <+: part := by
  induction hn : bs.length using Nat.strongRecOn generalizing bs with
  | _ n ih =>
      by_cases hf : ∃ f, enc f <+: bs
      · obtain ⟨f, more, rfl⟩ := hf
        have hshort : more.length < n := by
          have hpos : 0 < (enc f).length := List.length_pos_iff.mpr (hne f)
          rw [List.length_append] at hn
          omega
        obtain ⟨fs, part, hmore, hpart⟩ := ih more.length hshort more rfl
        refine ⟨f :: fs, part, ?_, hpart⟩
        rw [List.flatMap_cons, List.append_assoc, hmore]
      · exact ⟨[], bs, rfl, not_exists.mp hf⟩

/-- There is no longer list of encodings than one after which no encoding begins. -/
theorem PrefixFree.isPrefix {as gs : List φ} {part : List β} (hfree : PrefixFree enc fun _ => True)
    (hpart : ∀ f, ¬ enc f <+: part) (h : gs.flatMap enc <+: as.flatMap enc ++ part) : gs <+: as := by
  induction gs generalizing as with
  | nil => exact List.nil_prefix
  | cons g gs ih =>
      obtain ⟨more, hmore⟩ := h
      rw [List.flatMap_cons, List.append_assoc] at hmore
      cases as with
      | nil => exact absurd ⟨_, hmore⟩ (hpart g)
      | cons a as =>
          rw [List.flatMap_cons, List.append_assoc] at hmore
          obtain ⟨rfl, hrest⟩ := hfree g a _ _ trivial trivial hmore
          rw [List.cons_prefix_cons]
          exact ⟨rfl, ih ⟨more, hrest⟩⟩

namespace Sending

theorem nil (enc : φ → List β) : Sending enc [] [] [] := ⟨rfl, fun h => absurd rfl h⟩

theorem start (h : Sending enc fs out []) (f : φ) : Sending enc (fs ++ [f]) out (enc f) where
  whole := by
    rw [List.flatMap_append, ← h.whole, List.append_nil, List.flatMap_singleton]
  last _ := ⟨f, by rw [List.getLast?_concat]; rfl, List.suffix_rfl⟩

theorem advance (h : Sending enc fs out left) (n : Nat) :
    Sending enc fs (out ++ left.take n) (left.drop n) where
  whole := by rw [List.append_assoc, List.take_append_drop, h.whole]
  last hne := by
    have hleft : left ≠ [] := fun hnil => hne (by rw [hnil, List.drop_nil])
    obtain ⟨f, hf, hsuffix⟩ := h.last hleft
    exact ⟨f, hf, (List.drop_suffix n left).trans hsuffix⟩

/-- A frame of which nothing was sent is given up. -/
theorem giveUp (h : Sending enc fs out left) (hf : fs.getLast? = some f) (hleft : left = enc f) :
    Sending enc fs.dropLast out [] where
  whole := by
    have hfs : fs.dropLast ++ [f] = fs := by
      obtain ⟨fs', rfl⟩ := List.getLast?_eq_some_iff.mp hf
      rw [List.dropLast_concat]
    have hwhole := h.whole
    rw [hleft, ← hfs, List.flatMap_append, List.flatMap_singleton] at hwhole
    rw [List.append_nil]
    exact List.append_cancel_right hwhole
  last hne := absurd rfl hne

theorem framed (h : Sending enc fs out left) : Framed enc fs out := by
  by_cases hleft : left = []
  · refine ⟨fs, [], ?_, Or.inl ⟨rfl, rfl⟩⟩
    rw [List.append_nil, ← h.whole, hleft, List.append_nil]
  · obtain ⟨f, hf, part, hpart⟩ := h.last hleft
    obtain ⟨whole, rfl⟩ := List.getLast?_eq_some_iff.mp hf
    refine ⟨whole, part, ?_, Or.inr ⟨f, rfl, left, hpart⟩⟩
    have hwhole := h.whole
    rw [List.flatMap_append, List.flatMap_singleton, ← hpart, ← List.append_assoc] at hwhole
    exact List.append_cancel_right hwhole

end Sending

end Framing
