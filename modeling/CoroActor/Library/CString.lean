import Mathlib.Algebra.GroupWithZero.Nat
import Mathlib.Data.List.Basic
import Mathlib.Order.CompletePartialOrder
import Mathlib.Order.Interval.Set.Disjoint

/-! Bytes at addresses, and the strings among them that end with a zero byte. What a function writes is a set
of addresses, and what is stored at other addresses stays. -/

namespace CMemory

/-- The memory. Addresses end at `limit`; `written` are the addresses that have been written so far, which no
function looks at. -/
structure Mem where
  byte : Nat → UInt8
  limit : Nat
  written : List Nat

namespace Mem

variable (m : Mem)

/-- So many bytes from an address on. -/
def read : Nat → Nat → List UInt8
  | _, 0 => []
  | a, n + 1 => m.byte a :: read (a + 1) n

def write (a : Nat) (b : UInt8) : Mem :=
  { m with byte := Function.update m.byte a b, written := m.written ++ [a] }

/-- `memset`. -/
def memset (m : Mem) (a : Nat) (b : UInt8) : Nat → Mem
  | 0 => m
  | n + 1 => (m.write a b).memset (a + 1) b n

/-- The bytes from an address on up to the first zero, of at most so many. -/
def scan : Nat → Nat → Nat
  | _, 0 => 0
  | a, n + 1 => if m.byte a = 0 then 0 else scan (a + 1) n + 1

def strlen (a : Nat) : Nat := m.scan a (m.limit - a)

variable {m} {m' : Mem}

@[simp] theorem write_self (a : Nat) (b : UInt8) : (m.write a b).byte a = b := by
  simp [write]

theorem write_of_ne {a x : Nat} (h : x ≠ a) (b : UInt8) : (m.write a b).byte x = m.byte x := by
  simp [write, h]

@[simp] theorem read_length (a n : Nat) : (m.read a n).length = n := by
  induction n generalizing a with
  | zero => rfl
  | succ n ih => rw [read, List.length_cons, ih]

theorem read_add (a i j : Nat) : m.read a (i + j) = m.read a i ++ m.read (a + i) j := by
  induction i generalizing a with
  | zero => rw [Nat.zero_add, Nat.add_zero, read, List.nil_append]
  | succ i ih =>
      rw [Nat.succ_add, read, ih, read, List.cons_append]
      congr 3
      omega

theorem read_congr {a n : Nat} (h : ∀ x ∈ Set.Ico a (a + n), m'.byte x = m.byte x) : m'.read a n = m.read a n := by
  induction n generalizing a with
  | zero => rfl
  | succ n ih =>
      have hrest : ∀ x ∈ Set.Ico (a + 1) (a + 1 + n), m'.byte x = m.byte x := fun x hx =>
        h x (Set.Ico_subset_Ico (by omega) (by omega) hx)
      rw [read, read, h a ⟨Nat.le_refl a, by omega⟩, ih hrest]

end Mem

/-- All that has happened is that some of these addresses were written. -/
structure WritesIn (S : Set Nat) (m m' : Mem) : Prop where
  limit : m'.limit = m.limit
  only : ∃ ws, m'.written = m.written ++ ws ∧ ∀ x ∈ ws, x ∈ S
  kept : ∀ x ∉ S, m'.byte x = m.byte x

namespace WritesIn

variable {S T : Set Nat} {m m' m'' : Mem}

theorem refl (S : Set Nat) (m : Mem) : WritesIn S m m :=
  ⟨rfl, ⟨[], (List.append_nil _).symm, fun _ hx => absurd hx List.not_mem_nil⟩, fun _ _ => rfl⟩

theorem trans (h : WritesIn S m m') (h' : WritesIn S m' m'') : WritesIn S m m'' where
  limit := h'.limit.trans h.limit
  only := by
    obtain ⟨ws, hws, hin⟩ := h.only
    obtain ⟨ws', hws', hin'⟩ := h'.only
    refine ⟨ws ++ ws', ?_, fun x hx => (List.mem_append.mp hx).elim (hin x) (hin' x)⟩
    rw [hws', hws, List.append_assoc]
  kept x hx := (h'.kept x hx).trans (h.kept x hx)

theorem mono (h : WritesIn S m m') (hST : S ⊆ T) : WritesIn T m m' where
  limit := h.limit
  only := by
    obtain ⟨ws, hws, hin⟩ := h.only
    exact ⟨ws, hws, fun x hx => hST (hin x hx)⟩
  kept x hx := h.kept x fun hS => hx (hST hS)

theorem write {a : Nat} (ha : a ∈ S) (b : UInt8) : WritesIn S m (m.write a b) where
  limit := rfl
  only := ⟨[a], rfl, fun x hx => by rwa [List.mem_singleton.mp hx]⟩
  kept x hx := by
    apply Mem.write_of_ne
    intro hxa
    rw [hxa] at hx
    exact hx ha

/-- What is elsewhere is read as before. -/
theorem read (h : WritesIn S m m') {a n : Nat} (hdisj : Disjoint (Set.Ico a (a + n)) S) :
    m'.read a n = m.read a n :=
  Mem.read_congr fun x hx => h.kept x (Set.disjoint_left.mp hdisj hx)

end WritesIn

namespace Mem

theorem memset_writes (m : Mem) (a : Nat) (b : UInt8) (n : Nat) :
    WritesIn (Set.Ico a (a + n)) m (m.memset a b n) := by
  induction n generalizing m a with
  | zero => exact .refl _ m
  | succ n ih =>
      have hfirst : a ∈ Set.Ico a (a + (n + 1)) := ⟨Nat.le_refl a, by omega⟩
      apply (WritesIn.write hfirst b).trans
      exact (ih (m.write a b) (a + 1)).mono (Set.Ico_subset_Ico (by omega) (by omega))

theorem memset_read (m : Mem) (a : Nat) (b : UInt8) (n : Nat) : (m.memset a b n).read a n = List.replicate n b := by
  induction n generalizing m a with
  | zero => rfl
  | succ n ih =>
      have hfirst : ((m.write a b).memset (a + 1) b n).byte a = b := by
        have hbefore : a ∉ Set.Ico (a + 1) (a + 1 + n) := fun ha => absurd ha.1 (by omega)
        rw [(memset_writes (m.write a b) (a + 1) b n).kept a hbefore, write_self]
      rw [memset, read, hfirst, ih, List.replicate_succ]

theorem scan_eq {m : Mem} {text : List UInt8} {a n : Nat} (hnul : 0 ∉ text) (hn : text.length < n)
    (hread : m.read a (text.length + 1) = text ++ [0]) : m.scan a n = text.length := by
  induction text generalizing a n with
  | nil =>
      obtain ⟨n, rfl⟩ := Nat.exists_eq_succ_of_ne_zero (Nat.ne_zero_of_lt hn)
      have hzero : m.byte a = 0 := (List.cons.inj hread).1
      rw [Nat.succ_eq_add_one, scan, if_pos hzero]
      rfl
  | cons b text ih =>
      obtain ⟨n, rfl⟩ := Nat.exists_eq_succ_of_ne_zero (Nat.ne_zero_of_lt hn)
      obtain ⟨hb, hrest⟩ := List.cons.inj hread
      have hne : m.byte a ≠ 0 := by
        rw [hb]
        exact fun hzero => hnul (hzero ▸ List.mem_cons_self)
      have hnul' : 0 ∉ text := fun hmem => hnul (List.mem_cons_of_mem b hmem)
      rw [Nat.succ_eq_add_one, scan, if_neg hne, ih hnul' (Nat.lt_of_succ_lt_succ hn) hrest]
      rfl

end Mem

/-- A string in memory: where it begins and what it reads, which is followed by a zero. -/
structure Str where
  addr : Nat
  text : List UInt8
  noNul : 0 ∉ text

namespace Str

variable (c : Str)

/-- The bytes that it takes. -/
def size : Nat := c.text.length + 1

def footprint : Set Nat := Set.Ico c.addr (c.addr + c.size)

/-- The same text elsewhere. -/
def movedTo (a : Nat) : Str := { c with addr := a }

/-- It is there. -/
def Stored (m : Mem) : Prop := m.read c.addr c.size = c.text ++ [0]

variable {c} {m m' : Mem} {S : Set Nat}

theorem footprint_movedTo (a : Nat) : (c.movedTo a).footprint = Set.Ico a (a + c.size) := rfl

theorem disjoint_footprint {c d : Str} (h : c.addr + c.size ≤ d.addr ∨ d.addr + d.size ≤ c.addr) :
    Disjoint c.footprint d.footprint := by
  apply Set.disjoint_left.mpr
  intro x hc hd
  obtain ⟨hc1, hc2⟩ := hc
  obtain ⟨hd1, hd2⟩ := hd
  omega

/-- A string stays where nothing is written. -/
theorem Stored.kept (h : c.Stored m) (hw : WritesIn S m m') (hdisj : Disjoint c.footprint S) : c.Stored m' :=
  (hw.read hdisj).trans h

theorem Stored.strlen (h : c.Stored m) (hmapped : c.addr + c.size ≤ m.limit) : m.strlen c.addr = c.text.length := by
  apply Mem.scan_eq c.noNul _ h
  unfold size at hmapped
  omega

end Str

end CMemory
