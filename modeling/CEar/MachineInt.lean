import Mathlib.Algebra.Ring.Int.Defs
import Mathlib.Algebra.Ring.Nat

namespace CEar.MachineInt

/-- Wrapping to 32 bits adds a multiple of 2^32 and lands in range. -/
theorem wrap_spec (x : Int) : ∃ k : Int, x.bmod (2 ^ 32) = x + 4294967296 * k ∧
    -2147483648 ≤ x.bmod (2 ^ 32) ∧ x.bmod (2 ^ 32) < 2147483648 := by
  rw [Int.bmod_def]
  split
  · exact ⟨-(x / 4294967296), by omega, by omega, by omega⟩
  · exact ⟨-(x / 4294967296) - 1, by omega, by omega, by omega⟩

theorem wrap_eq {x : Int} (hlo : -2147483648 ≤ x) (hhi : x < 2147483648) :
    x.bmod (2 ^ 32) = x := by
  obtain ⟨k, hk, hk'⟩ := wrap_spec x
  omega

theorem toInt_ofNat_spec (n : Nat) : ∃ k : Int, (Int32.ofNat n).toInt = n + 4294967296 * k ∧
    -2147483648 ≤ (Int32.ofNat n).toInt ∧ (Int32.ofNat n).toInt < 2147483648 := by
  rw [Int32.toInt_ofNat', show Int32.size = 2 ^ 32 from rfl]
  exact wrap_spec n

theorem tdiv_four (x : Int) : 0 ≤ x ∧ x.tdiv 4 = x / 4 ∨ x < 0 ∧ x.tdiv 4 = -(-x / 4) := by
  rcases Int.lt_or_le x 0 |>.symm with h | h
  · exact Or.inl ⟨h, Int.tdiv_eq_ediv_of_nonneg h⟩
  · refine Or.inr ⟨h, ?_⟩
    rw [← Int.tdiv_eq_ediv_of_nonneg (by omega), Int.neg_tdiv, Int.neg_neg]

theorem toInt_and_three (x : Int32) : (x &&& 3).toInt = x.toInt % 4 := by
  rw [← Int32.toInt_toBitVec, ← Int32.toInt_toBitVec, Int32.toBitVec_and, BitVec.toInt_and,
    BitVec.toInt_eq_toNat_bmod x.toBitVec]
  have hthree : (Int32.toBitVec 3).toNat = 2 ^ 2 - 1 := rfl
  rw [hthree, Nat.and_two_pow_sub_one_eq_mod]
  obtain ⟨k, hk, -⟩ := wrap_spec x.toBitVec.toNat
  rw [hk, wrap_eq (by omega) (by omega)]
  omega

theorem toInt_narrow (x : UInt64) : x.toUInt32.toInt32.toInt = (x.toNat : Int).bmod (2 ^ 32) := by
  rw [← Int32.toInt_toBitVec, UInt32.toBitVec_toInt32, BitVec.toInt_eq_toNat_bmod]
  change ((x.toUInt32.toNat : Int)).bmod (2 ^ 32) = _
  rw [UInt64.toNat_toUInt32]
  obtain ⟨k, hk, hk'⟩ := wrap_spec ((x.toNat % 2 ^ 32 : Nat) : Int)
  obtain ⟨l, hl, hl'⟩ := wrap_spec (x.toNat : Int)
  omega

end CEar.MachineInt
