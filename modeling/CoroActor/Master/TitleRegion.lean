import CoroActor.Master.Proctitle

/-! Where the title is written. `init_setproctitle` makes a region out of the arguments, and of the strings of the
environment that follow them, which it copies to a buffer first. A title is written to the region only, and so
the environment stays readable. -/

namespace CoroActor.Proctitle

open CMemory

/-! ### Copying -/

namespace Source

/-- The source is this string. -/
def Reads (m : Mem) (s : StdString) : Source → Prop
  | mem a => m.read a (s.length + 1) = s ++ [0]
  | text t => t = s

/-- The addresses that are read. -/
def span (s : StdString) : Source → Set Nat
  | mem a => Set.Ico a (a + (s.length + 1))
  | text _ => ∅

variable {src : Source} {m m' : Mem} {s : StdString} {b : UInt8}

theorem Reads.kept {S : Set Nat} (h : src.Reads m s) (hw : WritesIn S m m') (hdisj : Disjoint (src.span s) S) :
    src.Reads m' s := by
  cases src with
  | mem a => exact (hw.read hdisj).trans h
  | text t => exact h

theorem Reads.head_nil (h : src.Reads m []) : src.head m = 0 := by
  cases src with
  | mem a => exact (List.cons.inj h).1
  | text t =>
      obtain rfl : t = [] := h
      rfl

theorem Reads.head_cons (h : src.Reads m (b :: s)) : src.head m = b := by
  cases src with
  | mem a => exact (List.cons.inj h).1
  | text t =>
      obtain rfl : t = b :: s := h
      rfl

theorem Reads.next (h : src.Reads m (b :: s)) : src.next.Reads m s := by
  cases src with
  | mem a => exact (List.cons.inj h).2
  | text t =>
      obtain rfl : t = b :: s := h
      rfl

theorem span_next : src.next.span s ⊆ src.span (b :: s) := by
  cases src with
  | mem a =>
      apply Set.Ico_subset_Ico
      · omega
      · rw [List.length_cons]
        omega
  | text t => exact subset_rfl

end Source

variable {m : Mem} {src : Source} {s : StdString} {dst n : Nat}

/-- As much is copied as leaves room for a zero, which is written after it. The induction is on the room. -/
theorem cpystrn_copies (hsrc : src.Reads m s) (hnul : 0 ∉ s)
    (hdisj : Disjoint (src.span s) (Set.Ico dst (dst + (n + 1)))) :
    (cpystrn m dst src (n + 1)).1 = dst + min s.length n ∧
    WritesIn (Set.Ico dst (dst + (n + 1))) m (cpystrn m dst src (n + 1)).2 ∧
    (cpystrn m dst src (n + 1)).2.read dst (min s.length n + 1) = s.take n ++ [0] := by
  have hfirst : dst ∈ Set.Ico dst (dst + (n + 1)) := ⟨Nat.le_refl dst, by omega⟩
  induction n generalizing m dst src s with
  | zero =>
      refine ⟨by rw [Nat.min_zero]; rfl, .write hfirst 0, ?_⟩
      rw [Nat.min_zero, List.take_zero, cpystrn, Mem.read, Mem.write_self]
      rfl
  | succ n ih =>
      rw [cpystrn]
      simp only [Mem.write_self]
      cases s with
      | nil =>
          rw [hsrc.head_nil, if_pos rfl]
          refine ⟨by rw [List.length_nil, Nat.zero_min]; rfl, .write hfirst 0, ?_⟩
          rw [List.length_nil, Nat.zero_min, List.take_nil, Mem.read, Mem.write_self]
          rfl
      | cons b s =>
          have hb : b ≠ 0 := fun hzero => hnul (hzero ▸ List.mem_cons_self)
          have hw : WritesIn (Set.Ico dst (dst + (n + 1 + 1))) m (m.write dst b) := .write hfirst b
          have hrest : Set.Ico (dst + 1) (dst + 1 + (n + 1)) ⊆ Set.Ico dst (dst + (n + 1 + 1)) :=
            Set.Ico_subset_Ico (by omega) (by omega)
          rw [hsrc.head_cons, if_neg hb]
          obtain ⟨hp, hw', hread⟩ := ih (hsrc.kept hw hdisj).next (fun hmem => hnul (List.mem_cons_of_mem b hmem))
            (hdisj.mono Source.span_next hrest) ⟨Nat.le_refl _, by omega⟩
          refine ⟨?_, hw.trans (hw'.mono hrest), ?_⟩
          · rw [hp, List.length_cons]
            omega
          · have hkept : dst ∉ Set.Ico (dst + 1) (dst + 1 + (n + 1)) := fun hmem => absurd hmem.1 (by omega)
            rw [List.length_cons, Nat.add_min_add_right, Mem.read, hread, hw'.kept dst hkept, Mem.write_self,
              List.take_succ_cons, List.cons_append]

/-! ### One title -/

/-- In a region of `n + 1` bytes stands a text, as much of it as leaves room for a zero, up to `p`. -/
structure Filled (lo n : Nat) (m m' : Mem) (p : Nat) (text : StdString) : Prop where
  place : p = lo + min text.length n
  writes : WritesIn (Set.Ico lo (lo + (n + 1))) m m'
  shown : m'.read lo (min text.length n) = text.take n

namespace Filled

variable {lo p : Nat} {m' : Mem} {text : StdString}

theorem start (lo n : Nat) (m : Mem) : Filled lo n m m lo [] :=
  ⟨by rw [List.length_nil, Nat.zero_min]; rfl, .refl _ m, by rw [List.length_nil, Nat.zero_min, List.take_nil]; rfl⟩

/-- A copy goes on where the last one ended. -/
theorem copy (h : Filled lo n m m' p text) (hnul : 0 ∉ s) :
    Filled lo n m (cpystrn m' p (.text s) (lo + (n + 1) - p)).2 (cpystrn m' p (.text s) (lo + (n + 1) - p)).1
      (text ++ s) := by
  have hplace := h.place
  have hroom : lo + (n + 1) - p = n - text.length + 1 := by omega
  have hsub : Set.Ico p (p + (n - text.length + 1)) ⊆ Set.Ico lo (lo + (n + 1)) :=
    Set.Ico_subset_Ico (by omega) (by omega)
  obtain ⟨hp, hw, hread⟩ := @cpystrn_copies m' (.text s) s p (n - text.length) rfl hnul
    (Set.empty_disjoint _)
  rw [hroom]
  refine ⟨?_, h.writes.trans (hw.mono hsub), ?_⟩
  · rw [hp, hplace, List.length_append]
    omega
  · have hlen : min (text ++ s).length n = min text.length n + min s.length (n - text.length) := by
      rw [List.length_append]
      omega
    have hbefore : Disjoint (Set.Ico lo (lo + min text.length n)) (Set.Ico p (p + (n - text.length + 1))) := by
      rw [← hplace]
      exact Set.Ico_disjoint_Ico_same
    have hcopied : (cpystrn m' p (.text s) (n - text.length + 1)).2.read p (min s.length (n - text.length)) =
        s.take (n - text.length) := by
      rw [Mem.read_add] at hread
      apply List.append_inj_left hread
      rw [Mem.read_length, List.length_take, Nat.min_comm]
    rw [hlen, Mem.read_add, hw.read hbefore, h.shown, ← hplace, hcopied, List.take_append]

theorem fill (h : Filled lo n m m' p text) :
    WritesIn (Set.Ico lo (lo + (n + 1))) m (m'.memset p 0 (lo + (n + 1) - p)) ∧
    (m'.memset p 0 (lo + (n + 1) - p)).read lo (n + 1) =
      text.take n ++ List.replicate (n + 1 - (text.take n).length) 0 := by
  have hplace := h.place
  have hw := Mem.memset_writes m' p 0 (lo + (n + 1) - p)
  constructor
  · apply h.writes.trans
    exact hw.mono (Set.Ico_subset_Ico (by omega) (by omega))
  · have hbefore : Disjoint (Set.Ico lo (lo + min text.length n)) (Set.Ico p (p + (lo + (n + 1) - p))) := by
      rw [← hplace]
      exact Set.Ico_disjoint_Ico_same
    have hroom : n + 1 - (text.take n).length = lo + (n + 1) - p := by
      rw [List.length_take]
      omega
    calc (m'.memset p 0 (lo + (n + 1) - p)).read lo (n + 1)
        = (m'.memset p 0 (lo + (n + 1) - p)).read lo (min text.length n) ++
            (m'.memset p 0 (lo + (n + 1) - p)).read p (lo + (n + 1) - p) := by
          conv_rhs => rw [hplace]
          rw [← Mem.read_add, ← hplace]
          congr 1
          omega
      _ = text.take n ++ List.replicate (lo + (n + 1) - p) 0 := by
          rw [hw.read hbefore, h.shown, Mem.memset_read]
      _ = text.take n ++ List.replicate (n + 1 - (text.take n).length) 0 := by rw [hroom]

end Filled

/-- The text that a title stands in. -/
def titleText (title : StdString) : StdString := ascii "coro_actor" ++ ascii ": " ++ title

namespace Process

variable {q : Process} {title : StdString}

/-- A title is written to the region and fills it. -/
theorem setProctitle_fills (hnul : 0 ∉ title) (hle : q.osArgv.headD 0 ≤ q.osArgvLast) :
    WritesIn (Set.Ico (q.osArgv.headD 0) q.osArgvLast) q.mem (q.setProctitle title).mem ∧
    (q.osArgv.headD 0 < q.osArgvLast →
      (q.setProctitle title).mem.read (q.osArgv.headD 0) (q.osArgvLast - q.osArgv.headD 0) =
        (titleText title).take (q.osArgvLast - q.osArgv.headD 0 - 1) ++
          List.replicate (q.osArgvLast - q.osArgv.headD 0 -
            ((titleText title).take (q.osArgvLast - q.osArgv.headD 0 - 1)).length) 0) := by
  obtain ⟨r, hr⟩ := Nat.exists_eq_add_of_le hle
  generalize hlo : q.osArgv.headD 0 = lo at hr
  cases r with
  | zero =>
      have hsame : (q.setProctitle title).mem = q.mem := by
        simp only [setProctitle, hlo, hr, Nat.add_zero, Nat.sub_self, cpystrn, ne_eq, not_true_eq_false, if_false]
      rw [hsame, hr]
      exact ⟨.refl _ _, fun hlt => absurd hlt (Nat.lt_irrefl lo)⟩
  | succ n =>
      have hname : (0 : UInt8) ∉ ascii "coro_actor" := by decide
      have hsep : (0 : UInt8) ∉ ascii ": " := by decide
      obtain ⟨p, m', hfilled, hmem⟩ : ∃ p m', Filled lo n q.mem m' p (titleText title) ∧
          (q.setProctitle title).mem = m'.memset p 0 (lo + (n + 1) - p) := by
        have hcopied := (((Filled.start lo n q.mem).copy hname).copy hsep).copy hnul
        have hplace := hcopied.place
        rw [List.nil_append] at hcopied hplace
        refine ⟨_, _, hcopied, ?_⟩
        simp only [setProctitle, hlo, hr]
        exact if_pos (by omega)
      obtain ⟨hw, hread⟩ := hfilled.fill
      rw [hmem, hr, Nat.add_sub_cancel_left, Nat.add_sub_cancel]
      exact ⟨hw, fun _ => hread⟩

end Process

/-! ### The region -/

/-- What the second loop over `environ` needs: the strings are there, apart from each other, from the region
`[lo, last)` that it has so far, and from the buffer `[b, e)`, in which there is room for all of them. -/
structure Movable (m : Mem) (lo last b p e : Nat) (cs : List Str) : Prop where
  stored : ∀ c ∈ cs, c.Stored m ∧ c.addr + c.size ≤ m.limit
  apart : cs.Pairwise fun c d => Disjoint c.footprint d.footprint
  region : ∀ c ∈ cs, Disjoint c.footprint (Set.Ico lo last)
  buffer : ∀ c ∈ cs, Disjoint c.footprint (Set.Ico b e)
  regionBuffer : Disjoint (Set.Ico lo last) (Set.Ico b e)
  lower : lo ≤ last
  place : b ≤ p
  room : p + (cs.map Str.size).sum ≤ e

/-- The string is at the address, and the region does not touch it. -/
def Readable (m : Mem) (lo last : Nat) (c : Str) (a : Nat) : Prop :=
  (c.movedTo a).Stored m ∧ Disjoint (c.movedTo a).footprint (Set.Ico lo last)

/-- The region goes on to `last'`, over some of the strings. -/
def Covered (last last' : Nat) (cs : List Str) : Prop :=
  last ≤ last' ∧ ∀ x ∈ Set.Ico last last', ∃ c ∈ cs, x ∈ c.footprint

namespace Covered

variable {last last' : Nat} {c : Str} {cs : List Str}

theorem cons (h : Covered (c.addr + c.size) last' cs) (hlast : last = c.addr) : Covered last last' (c :: cs) := by
  obtain ⟨hle, hcov⟩ := h
  refine ⟨by omega, fun x hx => ?_⟩
  by_cases hlt : x < c.addr + c.size
  · exact ⟨c, List.mem_cons_self, hlast ▸ hx.1, hlt⟩
  · obtain ⟨d, hd, hxd⟩ := hcov x ⟨Nat.not_lt.mp hlt, hx.2⟩
    exact ⟨d, List.mem_cons_of_mem c hd, hxd⟩

theorem skip (h : Covered last last' cs) : Covered last last' (c :: cs) := by
  refine ⟨h.1, fun x hx => ?_⟩
  obtain ⟨d, hd, hxd⟩ := h.2 x hx
  exact ⟨d, List.mem_cons_of_mem c hd, hxd⟩

/-- However far the region goes on, what is apart from it and from the strings stays so. -/
theorem disjoint {lo : Nat} {S : Set Nat} (hcov : Covered last last' cs) (hold : Disjoint S (Set.Ico lo last))
    (hnew : ∀ c ∈ cs, Disjoint c.footprint S) : Disjoint S (Set.Ico lo last') := by
  apply Set.disjoint_left.mpr
  intro x hx hmem
  by_cases hlt : x < last
  · exact Set.disjoint_left.mp hold hx ⟨hmem.1, hlt⟩
  · obtain ⟨c, hc, hxc⟩ := hcov.2 x ⟨Nat.not_lt.mp hlt, hmem.2⟩
    exact Set.disjoint_left.mp (hnew c hc) hxc hx

end Covered

namespace Movable

variable {lo last last' b p e : Nat} {c : Str} {cs : List Str}

theorem room_cons (h : Movable m lo last b p e (c :: cs)) : p + c.size + (cs.map Str.size).sum ≤ e := by
  have hroom := h.room
  rw [List.map_cons, List.sum_cons] at hroom
  omega

theorem write {m' : Mem} (h : Movable m lo last b p e cs) (hw : WritesIn (Set.Ico b e) m m') :
    Movable m' lo last b p e cs :=
  { h with
    stored := fun c hc => by
      obtain ⟨hstored, hmapped⟩ := h.stored c hc
      refine ⟨hstored.kept hw (h.buffer c hc), ?_⟩
      rw [hw.limit]
      exact hmapped }

theorem grow (h : Movable m lo last b p e (c :: cs)) (hlast : last = c.addr) :
    Movable m lo (c.addr + c.size) b (p + c.size) e cs := by
  obtain ⟨hc, hcs⟩ := List.pairwise_cons.mp h.apart
  have hplace := h.place
  have hlower := h.lower
  have hgrown : ∀ S : Set Nat, Disjoint S (Set.Ico lo last) → Disjoint c.footprint S →
      Disjoint S (Set.Ico lo (c.addr + c.size)) := by
    intro S hregion hstring
    apply Set.disjoint_left.mpr
    intro x hx hmem
    by_cases hlt : x < last
    · exact Set.disjoint_left.mp hregion hx ⟨hmem.1, hlt⟩
    · exact Set.disjoint_left.mp hstring ⟨by omega, hmem.2⟩ hx
  exact
    { stored := fun d hd => h.stored d (List.mem_cons_of_mem c hd)
      apart := hcs
      region := fun d hd => hgrown _ (h.region d (List.mem_cons_of_mem c hd)) (hc d hd)
      buffer := fun d hd => h.buffer d (List.mem_cons_of_mem c hd)
      regionBuffer := (hgrown _ h.regionBuffer.symm (h.buffer c List.mem_cons_self)).symm
      lower := by omega
      place := by omega
      room := h.room_cons }

theorem moved (h : Movable m lo last b p e (c :: cs)) (hlast : last = c.addr) :
    WritesIn (Set.Ico p (p + c.size)) m (cpystrn m p (.mem c.addr) c.size).2 ∧
    (c.movedTo p).Stored (cpystrn m p (.mem c.addr) c.size).2 ∧
    Movable (cpystrn m p (.mem c.addr) c.size).2 lo (c.addr + c.size) b (p + c.size) e cs := by
  have hroom := h.room_cons
  have hcopy : Set.Ico p (p + c.size) ⊆ Set.Ico b e := Set.Ico_subset_Ico h.place (by omega)
  have hsrc : (Source.mem c.addr).Reads m c.text := (h.stored c List.mem_cons_self).1
  obtain ⟨-, hw, hread⟩ := @cpystrn_copies m (.mem c.addr) c.text p c.text.length hsrc c.noNul
    ((h.buffer c List.mem_cons_self).mono_right hcopy)
  rw [Nat.min_self, List.take_length] at hread
  exact ⟨hw, hread, (h.grow hlast).write (hw.mono hcopy)⟩

theorem skipped (h : Movable m lo last b p e (c :: cs)) : Movable m lo last b p e cs where
  stored d hd := h.stored d (List.mem_cons_of_mem c hd)
  apart := h.apart.of_cons
  region d hd := h.region d (List.mem_cons_of_mem c hd)
  buffer d hd := h.buffer d (List.mem_cons_of_mem c hd)
  regionBuffer := h.regionBuffer
  lower := h.lower
  place := h.place
  room := by
    have hroom := h.room_cons
    omega

/-- **The loop over the environment.** It writes to the buffer only, the region grows over strings that it has
copied, and all strings can be read afterwards. -/
theorem moveEnviron_keeps (h : Movable m lo last b p e cs) :
    WritesIn (Set.Ico p e) m (moveEnviron m last p (cs.map Str.addr)).1 ∧
    Covered last (moveEnviron m last p (cs.map Str.addr)).2.1 cs ∧
    List.Forall₂ (Readable (moveEnviron m last p (cs.map Str.addr)).1 lo
      (moveEnviron m last p (cs.map Str.addr)).2.1) cs (moveEnviron m last p (cs.map Str.addr)).2.2 := by
  induction cs generalizing m last p with
  | nil => exact ⟨.refl _ m, ⟨Nat.le_refl last, fun x hx => absurd hx.2 (Nat.not_lt.mpr hx.1)⟩, .nil⟩
  | cons c cs ih =>
      have hroom := h.room_cons
      have hplace := h.place
      obtain ⟨hstored, hmapped⟩ := h.stored c List.mem_cons_self
      rw [List.map_cons, moveEnviron]
      by_cases hlast : last = c.addr
      · simp only [if_pos hlast, hstored.strlen hmapped]
        obtain ⟨hw, hcopied, hrest⟩ := h.moved hlast
        obtain ⟨hw', hcov, hall⟩ := ih hrest
        refine ⟨?_, hcov.cons hlast, .cons ⟨?_, ?_⟩ hall⟩
        · apply (hw.mono (Set.Ico_subset_Ico (Nat.le_refl p) (by omega))).trans
          exact hw'.mono (Set.Ico_subset_Ico (by omega) (Nat.le_refl e))
        · exact hcopied.kept hw' Set.Ico_disjoint_Ico_same
        · rw [Str.footprint_movedTo]
          apply (hcov.disjoint hrest.regionBuffer.symm hrest.buffer).mono_left
          exact Set.Ico_subset_Ico h.place (by omega)
      · simp only [if_neg hlast]
        obtain ⟨hw, hcov, hall⟩ := ih h.skipped
        refine ⟨hw, hcov.skip, .cons ⟨?_, ?_⟩ hall⟩
        · apply hstored.kept hw
          exact (h.buffer c List.mem_cons_self).mono_right (Set.Ico_subset_Ico h.place (Nat.le_refl e))
        · apply hcov.disjoint (h.region c List.mem_cons_self)
          exact fun d hd => ((List.pairwise_cons.mp h.apart).1 d hd).symm

end Movable

/-- The memory in which the process starts: the strings of the arguments, of which there is one, and of the
environment, anywhere and in any order, but apart; and an allocator that does not hand them out. -/
structure Layout where
  mem : Mem
  argv : List Str
  environ : List Str
  argc : argv ≠ []
  stored : ∀ c ∈ argv ++ environ, c.Stored mem ∧ c.addr + c.size ≤ mem.limit
  apart : (argv ++ environ).Pairwise fun c d => Disjoint c.footprint d.footprint
  new : Nat → Nat
  fresh : ∀ n, ∀ c ∈ argv ++ environ, Disjoint c.footprint (Set.Ico (new n) (new n + n))

namespace Layout

variable (L : Layout)

/-- The pointer `argv[0]`. -/
def argv0 : Nat := (L.argv.map Str.addr).headD 0

/-- The process after the constructor of `coro_actor`. -/
def start : Process :=
  { mem := L.mem, environ := L.environ.map Str.addr, osArgv := L.argv.map Str.addr, osArgvLast := L.argv0,
    osEnviron := 0 }

/-- The size of all strings of the environment. -/
def environSize : Nat := (L.environ.map Str.size).sum

/-- The buffer for the environment. -/
def buffer : Set Nat := Set.Ico (L.new L.environSize) (L.new L.environSize + L.environSize)

end Layout

variable {L : Layout}

theorem sum_strlen {cs : List Str} (hcs : ∀ c ∈ cs, c.Stored m ∧ c.addr + c.size ≤ m.limit) (k : Nat) :
    (cs.map Str.addr).foldl (fun size e => size + (m.strlen e + 1)) k = k + (cs.map Str.size).sum := by
  induction cs generalizing k with
  | nil => rfl
  | cons c cs ih =>
      obtain ⟨hc, hmapped⟩ := hcs c List.mem_cons_self
      rw [List.map_cons, List.foldl_cons, ih fun d hd => hcs d (List.mem_cons_of_mem c hd), List.map_cons,
        List.sum_cons, hc.strlen hmapped, Str.size, Nat.add_assoc]

/-- The loop over the arguments: the region goes on over those that follow it. -/
theorem argv_covered {cs : List Str} (hcs : ∀ c ∈ cs, c.Stored m ∧ c.addr + c.size ≤ m.limit) (last : Nat) :
    Covered last ((cs.map Str.addr).foldl (fun last a => if last = a then a + m.strlen a + 1 else last) last) cs := by
  induction cs generalizing last with
  | nil => exact ⟨Nat.le_refl last, fun x hx => absurd hx.2 (Nat.not_lt.mpr hx.1)⟩
  | cons c cs ih =>
      obtain ⟨hc, hmapped⟩ := hcs c List.mem_cons_self
      have htail := ih fun d hd => hcs d (List.mem_cons_of_mem c hd)
      rw [List.map_cons, List.foldl_cons]
      by_cases hlast : last = c.addr
      · rw [if_pos hlast, hc.strlen hmapped, Nat.add_assoc]
        exact (htail _).cons hlast
      · rw [if_neg hlast]
        exact (htail last).skip

/-- The program name itself belongs to the region. -/
theorem argv0_lt (hargv : ∀ c ∈ L.argv, c.Stored m ∧ c.addr + c.size ≤ m.limit) :
    L.argv0 <
      (L.argv.map Str.addr).foldl (fun last a => if last = a then a + m.strlen a + 1 else last) L.argv0 := by
  obtain ⟨c, cs, hcons⟩ := List.exists_cons_of_ne_nil L.argc
  rw [hcons] at hargv
  obtain ⟨hc, hmapped⟩ := hargv c List.mem_cons_self
  have hrest := (argv_covered (fun d hd => hargv d (List.mem_cons_of_mem c hd)) (c.addr + c.text.length + 1)).1
  rw [Layout.argv0, hcons, List.map_cons, List.headD_cons, List.foldl_cons, if_pos rfl, hc.strlen hmapped]
  omega

/-- After `init_setproctitle` and any titles: the region begins at `argv[0]`, and the environment can be read
outside of it. -/
structure Kept (L : Layout) (q : Process) : Prop where
  argv : q.osArgv.headD 0 = L.argv0
  lower : L.argv0 ≤ q.osArgvLast
  environ : List.Forall₂ (Readable q.mem L.argv0 q.osArgvLast) L.environ q.environ

/-- After the loop over the arguments the strings of the environment can be moved. -/
theorem Layout.movable {last : Nat} (hstored : ∀ c ∈ L.argv ++ L.environ, c.Stored m ∧ c.addr + c.size ≤ m.limit)
    (hcov : Covered L.argv0 last L.argv) :
    Movable m L.argv0 last (L.new L.environSize) (L.new L.environSize) (L.new L.environSize + L.environSize)
      L.environ := by
  obtain ⟨-, henviron, hbetween⟩ := List.pairwise_append.mp L.apart
  have hregion : ∀ S : Set Nat, (∀ c ∈ L.argv, Disjoint c.footprint S) → Disjoint S (Set.Ico L.argv0 last) := by
    intro S hS
    apply hcov.disjoint _ hS
    rw [Set.Ico_self]
    exact Set.disjoint_empty S
  exact
    { stored := fun c hc => hstored c (List.mem_append_right _ hc)
      apart := henviron
      region := fun d hd => hregion _ fun c hc => hbetween c hc d hd
      buffer := fun d hd => L.fresh _ d (List.mem_append_right _ hd)
      regionBuffer := (hregion _ fun c hc => L.fresh _ c (List.mem_append_left _ hc)).symm
      lower := hcov.1
      place := Nat.le_refl _
      room := Nat.le_refl _ }

/-- The loops of `init_setproctitle`, in the memory `m` in which the buffer has been set to zero. -/
theorem Layout.init_eq (L : Layout) (hm : L.mem.memset (L.new L.environSize) 0 L.environSize = m) {last : Nat}
    (hlast : (L.argv.map Str.addr).foldl (fun last a => if last = a then a + m.strlen a + 1 else last) L.argv0 =
      last) :
    L.start.initSetproctitle L.new =
      { mem := (moveEnviron m last (L.new L.environSize) (L.environ.map Str.addr)).1
        environ := (moveEnviron m last (L.new L.environSize) (L.environ.map Str.addr)).2.2
        osArgv := L.argv.map Str.addr
        osArgvLast := (moveEnviron m last (L.new L.environSize) (L.environ.map Str.addr)).2.1 - 1
        osEnviron := L.new L.environSize } := by
  have hsize : L.start.environSize = L.environSize := by
    apply (sum_strlen (fun c hc => L.stored c (List.mem_append_right _ hc)) 0).trans
    exact Nat.zero_add _
  simp only [Process.initSetproctitle, hsize]
  simp only [Layout.start, hm, hlast]

/-- **`init_setproctitle`.** It writes to the buffer only. -/
theorem init_kept (L : Layout) :
    Kept L (L.start.initSetproctitle L.new) ∧
      WritesIn L.buffer L.mem (L.start.initSetproctitle L.new).mem := by
  generalize hm : L.mem.memset (L.new L.environSize) 0 L.environSize = m
  generalize hlast : (L.argv.map Str.addr).foldl (fun last a => if last = a then a + m.strlen a + 1 else last)
    L.argv0 = last
  have hzero : WritesIn L.buffer L.mem m := hm ▸ Mem.memset_writes ..
  have hstored : ∀ c ∈ L.argv ++ L.environ, c.Stored m ∧ c.addr + c.size ≤ m.limit := by
    intro c hc
    rw [hzero.limit]
    exact ⟨(L.stored c hc).1.kept hzero (L.fresh _ c hc), (L.stored c hc).2⟩
  have hargv : ∀ c ∈ L.argv, c.Stored m ∧ c.addr + c.size ≤ m.limit := fun c hc =>
    hstored c (List.mem_append_left _ hc)
  have hfirst : L.argv0 < last := hlast ▸ argv0_lt hargv
  have hcov : Covered L.argv0 last L.argv := hlast ▸ argv_covered hargv L.argv0
  obtain ⟨hw, ⟨hle, -⟩, hall⟩ := (Layout.movable hstored hcov).moveEnviron_keeps
  rw [L.init_eq hm hlast]
  refine ⟨⟨rfl, ?_, ?_⟩, hzero.trans hw⟩
  · show L.argv0 ≤ _ - 1
    omega
  · apply hall.imp
    intro c a hread
    exact ⟨hread.1, hread.2.mono_right (Set.Ico_subset_Ico_right (Nat.sub_le _ 1))⟩

theorem Kept.setProctitle {q : Process} {title : StdString} (h : Kept L q) (hnul : 0 ∉ title) :
    Kept L (q.setProctitle title) := by
  have hw := (Process.setProctitle_fills (q := q) hnul (h.argv ▸ h.lower)).1
  rw [h.argv] at hw
  refine ⟨?_, h.lower, h.environ.imp fun c a hread => ⟨hread.1.kept hw hread.2, hread.2⟩⟩
  rw [← h.argv]
  show (q.osArgv.take 1).headD 0 = q.osArgv.headD 0
  cases q.osArgv <;> rfl

/-- What a title does: it is written between `argv[0]` and `os_argv_last`, and unless there is nothing between
them it then stands there, the longest part of it that leaves room for a zero, and zeros after it. -/
structure Confined (L : Layout) (q : Process) (title : StdString) : Prop where
  writes : WritesIn (Set.Ico L.argv0 q.osArgvLast) q.mem (q.setProctitle title).mem
  shown : L.argv0 < q.osArgvLast →
    ∃ shown, shown <+: titleText title ∧ shown.length < q.osArgvLast - L.argv0 ∧
      (∀ s, s <+: titleText title → s.length < q.osArgvLast - L.argv0 → s <+: shown) ∧
      (q.setProctitle title).mem.read L.argv0 (q.osArgvLast - L.argv0) =
        shown ++ List.replicate (q.osArgvLast - L.argv0 - shown.length) 0

theorem Kept.confined {q : Process} {title : StdString} (h : Kept L q) (hnul : 0 ∉ title) : Confined L q title := by
  obtain ⟨hw, hshown⟩ := Process.setProctitle_fills hnul (h.argv ▸ h.lower)
  rw [h.argv] at hw hshown
  refine ⟨hw, fun hlt => ⟨_, List.take_prefix _ _, ?_, fun s hs hlen => ?_, hshown hlt⟩⟩
  · rw [List.length_take]
    omega
  · rw [List.prefix_take_iff]
    exact ⟨hs, by omega⟩

/-- The process after `init_setproctitle` and any titles, one after the other. -/
def Layout.titled (L : Layout) (titles : List StdString) : Process :=
  titles.foldl Process.setProctitle (L.start.initSetproctitle L.new)

theorem Kept.setProctitles {q : Process} {titles : List StdString} (h : Kept L q)
    (hnul : ∀ title ∈ titles, 0 ∉ title) : Kept L (titles.foldl Process.setProctitle q) := by
  induction titles generalizing q with
  | nil => exact h
  | cons title titles ih =>
      apply ih (h.setProctitle (hnul title List.mem_cons_self))
      exact fun t ht => hnul t (List.mem_cons_of_mem title ht)

/-- **The title is confined.** After `init_setproctitle` and any titles, every string of the environment reads as
before, and the next title is written to the region only and fills it. `init_setproctitle` writes to the buffer
that it has allocated. -/
theorem title_confined (L : Layout) (titles : List StdString) (hnul : ∀ title ∈ titles, 0 ∉ title) :
    List.Forall₂ (fun c a => (c.movedTo a).Stored (L.titled titles).mem) L.environ (L.titled titles).environ ∧
    (∀ title, 0 ∉ title → Confined L (L.titled titles) title) ∧
    WritesIn L.buffer L.mem (L.titled []).mem := by
  obtain ⟨hinit, hbuffer⟩ := init_kept L
  have hkept : Kept L (L.titled titles) := hinit.setProctitles hnul
  exact ⟨hkept.environ.imp fun _ _ hread => hread.1, fun _ hnew => hkept.confined hnew, hbuffer⟩

namespace Sample

def argv : List Str := [⟨1, [97, 98], by decide⟩]

/-- The first string is elsewhere, the second one follows the argument. -/
def environ : List Str := [⟨10, [89], by decide⟩, ⟨4, [88, 61, 49], by decide⟩]

def layout : Layout where
  mem := ⟨fun a => ([0, 97, 98, 0, 88, 61, 49, 0, 0, 0, 89, 0] : List UInt8).getD a 0, 20, []⟩
  argv := argv
  environ := environ
  argc := List.cons_ne_nil _ _
  stored := by
    unfold Str.Stored
    decide
  apart := by
    have hapart : (argv ++ environ).Pairwise fun c d => c.addr + c.size ≤ d.addr ∨ d.addr + d.size ≤ c.addr := by
      decide
    exact hapart.imp Str.disjoint_footprint
  new _ := 100
  fresh n c hc := by
    have hbelow : ∀ c ∈ argv ++ environ, c.addr + c.size ≤ 100 := by decide
    apply Set.disjoint_left.mpr
    intro x hx hmem
    exact absurd (Nat.lt_of_lt_of_le hx.2 (hbelow c hc)) (Nat.not_lt.mpr hmem.1)

end Sample

/-- The region has six bytes, too few for the name of the program. The strings of the environment are where the
first one was and in the buffer. -/
theorem title_confined_sample : (Sample.layout.titled [ascii "master"]).environ = [10, 100] ∧
    List.Forall₂ (fun c a => (c.movedTo a).Stored (Sample.layout.titled [ascii "master"]).mem) Sample.environ
      (Sample.layout.titled [ascii "master"]).environ ∧
    (Sample.layout.titled [ascii "master", ascii "proxy"]).mem.read 1 6 = ascii "coro_" ++ [0] :=
  ⟨by decide, (title_confined Sample.layout [ascii "master"] (by decide)).1, by decide⟩

end CoroActor.Proctitle
