import Mathlib.Data.Int.GCD
import Mathlib.Tactic.Ring

/-!
# Residues of multiples

The multiples of a number leave, modulo another one, the multiples of their greatest common
divisor: all residues stay below the modulus by it, and one of them by no more.
-/

namespace Residue

/-- Every residue of a multiple is below the modulus by the greatest common divisor. -/
theorem mul_mod_add_gcd_le (factor base : Nat) {modulus : Nat} (positive : 0 < modulus) :
    factor * base % modulus + Nat.gcd base modulus ≤ modulus := by
  have divides_modulus := Nat.gcd_dvd_right base modulus
  have divides_residue : Nat.gcd base modulus ∣ factor * base % modulus :=
    (Nat.dvd_mod_iff divides_modulus).mpr
      (Dvd.dvd.mul_left (Nat.gcd_dvd_left base modulus) factor)
  have below := Nat.mod_lt (factor * base) positive
  have gap := Nat.le_of_dvd (by omega) (Nat.dvd_sub divides_modulus divides_residue)
  omega

/-- Some residue of a multiple is below the modulus by no more. -/
theorem exists_mul_mod_add_gcd (base : Nat) {modulus : Nat} (positive : 0 < modulus) :
    ∃ factor, factor * base % modulus + Nat.gcd base modulus = modulus := by
  have small := Nat.gcd_le_right base positive
  by_cases whole : Nat.gcd base modulus = modulus
  · exact ⟨0, by rw [whole, Nat.zero_mul, Nat.zero_mod, Nat.zero_add]⟩
  have ⟨inverse, _, leaves⟩ :=
    Nat.exists_mul_mod_eq_gcd (n := base) (Nat.lt_of_le_of_ne small whole)
  have common := Nat.gcd_pos_of_pos_right base positive
  obtain ⟨gcd, hgcd⟩ : ∃ gcd, gcd = Nat.gcd base modulus := ⟨_, rfl⟩
  rw [← hgcd] at small whole leaves common ⊢
  obtain ⟨quotient, split⟩ : ∃ quotient, base * inverse = modulus * quotient + gcd :=
    ⟨base * inverse / modulus, by rw [← leaves, Nat.div_add_mod]⟩
  -- One less than the modulus, as a factor, turns the divisor into its complement.
  have multiple : (modulus - 1) * inverse * base =
      modulus * ((modulus - 1) * quotient + (gcd - 1)) + (modulus - gcd) := by
    obtain ⟨rest, rfl⟩ : ∃ rest, gcd = rest + 1 := ⟨gcd - 1, by omega⟩
    obtain ⟨gap, rfl⟩ : ∃ gap, modulus = rest + gap + 1 := ⟨modulus - rest - 1, by omega⟩
    have complement : rest + gap + 1 - (rest + 1) = gap := by omega
    rw [Nat.mul_assoc, Nat.mul_comm inverse base, split, complement, Nat.add_sub_cancel,
      Nat.add_sub_cancel]
    ring
  refine ⟨(modulus - 1) * inverse, ?_⟩
  rw [multiple, Nat.mul_add_mod, Nat.mod_eq_of_lt (by omega)]
  omega

end Residue
