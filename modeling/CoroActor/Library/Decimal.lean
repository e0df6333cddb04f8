import Mathlib.Data.List.Basic

/-! Decimal numerals as bytes, and texts that are joined by a separator. A numeral names one number, contains
digits only, and so can be told apart from what stands before it by the last separator. -/

namespace Decimal

/-- The numeral of a number. -/
def numeral (n : Nat) : List UInt8 := (Nat.toDigits 10 n).map fun c => c.toNat.toUInt8

/-- The numeral of an integer, with a minus sign before a negative one. -/
def signed (minus : UInt8) (n : Int) : List UInt8 := (if n < 0 then [minus] else []) ++ numeral n.natAbs

theorem signed_natCast (minus : UInt8) (n : Nat) : signed minus n = numeral n := by
  rw [signed, if_neg (by omega), List.nil_append, Int.natAbs_natCast]

theorem digit_bounds {n : Nat} {c : Char} (hc : c ∈ Nat.toDigits 10 n) : 48 ≤ c.toNat ∧ c.toNat ≤ 57 := by
  have hdigit : c.isDigit = true := Nat.isDigit_of_mem_toDigits (by decide) (by decide) hc
  rw [Char.isDigit, Bool.and_eq_true, decide_eq_true_eq, decide_eq_true_eq] at hdigit
  exact hdigit

theorem mem_numeral {n : Nat} {b : UInt8} (hb : b ∈ numeral n) : 48 ≤ b.toNat ∧ b.toNat ≤ 57 := by
  obtain ⟨c, hc, rfl⟩ := List.mem_map.mp hb
  obtain ⟨hlow, hhigh⟩ := digit_bounds hc
  have hbyte : c.toNat.toUInt8.toNat = c.toNat % 256 := UInt8.toNat_ofNat'
  omega

theorem numeral_ne_nil (n : Nat) : numeral n ≠ [] := by
  rw [numeral, Ne, List.map_eq_nil_iff]
  exact Nat.toDigits_ne_nil

/-- The bytes of a numeral give back its digits. -/
theorem map_numeral (n : Nat) : (numeral n).map (fun b => Char.ofNat b.toNat) = Nat.toDigits 10 n := by
  rw [numeral, List.map_map]
  refine (List.map_congr_left fun c hc => ?_).trans (List.map_id _)
  obtain ⟨-, hhigh⟩ := digit_bounds hc
  have hbyte : c.toNat.toUInt8.toNat = c.toNat := UInt8.toNat_ofNat'.trans (Nat.mod_eq_of_lt (by omega))
  show Char.ofNat c.toNat.toUInt8.toNat = c
  rw [hbyte, Char.ofNat_toNat]

/-- The number that digits stand for. -/
def value (digits : List UInt8) : Nat := Nat.ofDigitChars 10 (digits.map fun b => Char.ofNat b.toNat) 0

theorem value_numeral (n : Nat) : value (numeral n) = n := by
  rw [value, map_numeral, Nat.ofDigitChars_ten_toDigits]

theorem numeral_injective : Function.Injective numeral := Function.LeftInverse.injective value_numeral

theorem not_mem_numeral {minus : UInt8} (hminus : minus.toNat < 48) (n : Nat) : minus ∉ numeral n := by
  intro hmem
  have hlow := (mem_numeral hmem).1
  omega

theorem signed_injective {minus : UInt8} (hminus : minus.toNat < 48) : Function.Injective (signed minus) := by
  have hsign : ∀ n m : Nat, numeral n ≠ minus :: numeral m := by
    intro n m heq
    exact not_mem_numeral hminus n (heq ▸ List.mem_cons_self)
  intro n m h
  unfold signed at h
  split at h
  · split at h
    · have habs := numeral_injective (List.cons.inj h).2
      omega
    · exact absurd h.symm (hsign _ _)
  · split at h
    · exact absurd h (hsign _ _)
    · have habs := numeral_injective h
      omega

/-- What follows the last separator does not contain it, so a joined text has one reading. -/
theorem append_separator_inj {α : Type} {a a' b b' : List α} {x : α} (hb : x ∉ b) (hb' : x ∉ b')
    (h : a ++ x :: b = a' ++ x :: b') : a = a' ∧ b = b' := by
  rcases List.append_eq_append_iff.mp h with ⟨c, rfl, hc⟩ | ⟨c, rfl, hc⟩
  · cases c with
    | nil => exact ⟨(List.append_nil a).symm, (List.cons.inj hc).2⟩
    | cons y c =>
        rw [(List.cons.inj hc).2] at hb
        exact absurd (List.mem_append_right _ List.mem_cons_self) hb
  · cases c with
    | nil => exact ⟨List.append_nil a', (List.cons.inj hc).2.symm⟩
    | cons y c =>
        rw [(List.cons.inj hc).2] at hb'
        exact absurd (List.mem_append_right _ List.mem_cons_self) hb'

end Decimal
