import CEar.Base64Decode

namespace CEar.Base64Size

open Base64 Base64Url Base64Decode CString MachineInt

theorem storesAt_length (w : List UInt8) : (storesAt w).length = w.length := by
  simp [storesAt]

theorem storesAt_indices (w : List UInt8) : (storesAt w).map Prod.fst = List.range w.length := by
  apply List.ext_getElem
  · simp [storesAt]
  · intro i hi hi'
    simp [storesAt]

theorem storesAt_last (w : List UInt8) (v : UInt8) :
    (storesAt (w ++ [v]))[w.length]? = some (w.length, v) := by
  simp [storesAt]

theorem size_toNat (n : Nat) : (((UInt64.ofNat n + 3) / 4) * 3 + 1).toNat =
    ((n % 2 ^ 64 + 3) % 2 ^ 64 / 4 * 3 % 2 ^ 64 + 1) % 2 ^ 64 := by
  simp

theorem allocation_spec (n : Nat) : ∃ k : Int,
    (allocation n).toInt = ((n + 3) / 4 * 3 + 1 : Nat) + 4294967296 * k ∧
    -2147483648 ≤ (allocation n).toInt ∧ (allocation n).toInt < 2147483648 := by
  rw [allocation, toInt_narrow]
  obtain ⟨k, hk, hlo, hhi⟩ := wrap_spec ((((UInt64.ofNat n + 3) / 4) * 3 + 1).toNat : Int)
  have hnat := size_toNat n
  obtain ⟨q, hq⟩ : ∃ q : Int, (((n % 2 ^ 64 + 3) % 2 ^ 64 / 4 * 3 % 2 ^ 64 + 1) % 2 ^ 64 : Nat) =
      (((n + 3) / 4 * 3 + 1 : Nat) : Int) + 4294967296 * q := by
    refine ⟨((((n % 2 ^ 64 + 3) % 2 ^ 64 / 4 * 3 % 2 ^ 64 + 1) % 2 ^ 64 : Nat) -
      (((n + 3) / 4 * 3 + 1 : Nat) : Int)) / 4294967296, ?_⟩
    omega
  exact ⟨q + k, by rw [hk, hnat, hq]; ring, hlo, hhi⟩

theorem allocation_pos {n : Nat} (hn : n ≤ 2 ^ 31 - 4) :
    (allocation n).toInt = (n + 3) / 4 * 3 + 1 := by
  obtain ⟨k, hk, hlo, hhi⟩ := allocation_spec n
  omega

theorem four_sub_and_three (left : Int32) :
    ((4 - left) &&& 3).toInt = (4 - left.toInt) % 4 := by
  rw [toInt_and_three, Int32.toInt_sub]
  obtain ⟨k, hk, -⟩ := wrap_spec ((4 : Int32).toInt - left.toInt)
  rw [hk]
  change (4 - left.toInt + 4294967296 * k) % 4 = _
  omega

theorem roundUp_wrap (m : Int32) : (((m + 3) / 4) * 3).toInt =
    ((((m.toInt + 3).bmod (2 ^ 32)).tdiv 4).bmod (2 ^ 32) * 3).bmod (2 ^ 32) := by
  rw [Int32.toInt_mul, Int32.toInt_div, Int32.toInt_add]
  rfl

theorem roundUp_toInt (m : Int32) (h : m.toInt + 3 < 2147483648) :
    (((m + 3) / 4) * 3).toInt = (m.toInt + 3).tdiv 4 * 3 := by
  have hlo := m.le_toInt
  rw [roundUp_wrap, wrap_eq (x := m.toInt + 3) (by omega) h]
  rcases tdiv_four (m.toInt + 3) with ⟨hs, hdiv⟩ | ⟨hs, hdiv⟩
  · rw [hdiv, wrap_eq (x := (m.toInt + 3) / 4) (by omega) (by omega), wrap_eq (by omega) (by omega)]
  · rw [hdiv, wrap_eq (x := -(-(m.toInt + 3) / 4)) (by omega) (by omega),
      wrap_eq (by omega) (by omega)]

/-- Within three of the largest `int` the rounding up overflows. -/
theorem roundUp_overflow (m : Int32) (h : 2147483648 ≤ m.toInt + 3) :
    (((m + 3) / 4) * 3).toInt ≤ -1073741824 ∧ -2147483640 ≤ (((m + 3) / 4) * 3).toInt := by
  have hhi := m.toInt_lt
  have hwrap : (m.toInt + 3).bmod (2 ^ 32) = m.toInt + 3 - 4294967296 := by
    obtain ⟨k, hk, hk'⟩ := wrap_spec (m.toInt + 3)
    omega
  rw [roundUp_wrap, hwrap]
  rcases tdiv_four (m.toInt + 3 - 4294967296) with ⟨hs, hdiv⟩ | ⟨hs, hdiv⟩
  · omega
  · rw [hdiv, wrap_eq (x := -(-(m.toInt + 3 - 4294967296) / 4)) (by omega) (by omega),
      wrap_eq (by omega) (by omega)]
    omega

theorem returned_toInt {m left : Int32} (hm : m.toInt + 3 < 2147483648) :
    (returned m left).toInt = (m.toInt + 3).tdiv 4 * 3 - (4 - left.toInt) % 4 := by
  have hlo := m.le_toInt
  rw [returned, Int32.toInt_sub, roundUp_toInt m hm, four_sub_and_three]
  rcases tdiv_four (m.toInt + 3) with ⟨hs, hdiv⟩ | ⟨hs, hdiv⟩
  · rw [hdiv, wrap_eq (by omega) (by omega)]
  · rw [hdiv, wrap_eq (by omega) (by omega)]

theorem returned_overflow {m left : Int32} (hm : 2147483648 ≤ m.toInt + 3) :
    (returned m left).toInt ≤ 0 := by
  obtain ⟨hhi, hlo⟩ := roundUp_overflow m hm
  rw [returned, Int32.toInt_sub, four_sub_and_three, wrap_eq (by omega) (by omega)]
  omega

/-- On texts that `int` can count, `Base64decode` stores the decoding and
returns its length. -/
theorem base64decode_small {bufcoded p : List UInt8} (h : Stops bufcoded p)
    (hn : p.length ≤ 2 ^ 31 - 4) :
    ∃ count, base64decode bufcoded = some (count, storesAt (decode p ++ [0])) ∧
      count.toInt = (decode p).length := by
  have hm : (Int32.ofNat p.length).toInt = p.length := Int32.toInt_ofNat_of_lt (by omega)
  rcases Nat.eq_zero_or_pos p.length with hzero | hpos
  · have hrun := base64decode_nonpos h (by omega)
    obtain rfl : p = [] := List.length_eq_zero_iff.mp hzero
    refine ⟨_, hrun, ?_⟩
    rfl
  · obtain ⟨left, hlo, hhi, hmod, hrun⟩ := base64decode_pos h (by omega)
    rw [hm, Int.toNat_natCast, List.take_length] at hrun
    refine ⟨_, hrun, ?_⟩
    rw [returned_toInt (by omega), hm, decode_length, Int.tdiv_eq_ediv_of_nonneg (by omega)]
    have hcases : left.toInt = 1 ∨ left.toInt = 2 ∨ left.toInt = 3 ∨ left.toInt = 4 := by omega
    rcases hcases with hl | hl | hl | hl <;> omega

theorem base64decode_count {bufcoded p : List UInt8} (h : Stops bufcoded p)
    (hn : p.length ≤ 2 ^ 31 - 4) :
    base64decode bufcoded = some (Int32.ofNat (decode p).length, storesAt (decode p ++ [0])) := by
  obtain ⟨count, hrun, hcount⟩ := base64decode_small h hn
  have hlen := decode_length p
  have hint : (Int32.ofNat (decode p).length).toInt = (decode p).length :=
    Int32.toInt_ofNat_of_lt (by omega)
  rw [hrun, Int32.toInt_inj.mp (hcount.trans hint.symm)]

theorem base64decode_rejects {bufcoded p : List UInt8} (h : Stops bufcoded p)
    (hlo : 2 ^ 31 - 4 < p.length) (hhi : p.length < 2 ^ 32) :
    ∃ count w, base64decode bufcoded = some (count, storesAt w) ∧ count.toInt ≤ 0 := by
  obtain ⟨k, hk, hmlo, hmhi⟩ := toInt_ofNat_spec p.length
  rcases Int.lt_or_le 0 (Int32.ofNat p.length).toInt with hm | hm
  · obtain ⟨left, -, -, -, hrun⟩ := base64decode_pos h hm
    exact ⟨_, _, hrun, returned_overflow (by omega)⟩
  · refine ⟨_, _, base64decode_nonpos h hm, ?_⟩
    rw [returned_toInt (by omega)]
    rcases tdiv_four ((Int32.ofNat p.length).toInt + 3) with ⟨hs, hdiv⟩ | ⟨hs, hdiv⟩ <;>
      rw [hdiv] <;> omega

theorem base64decode_stores {bufcoded p : List UInt8} (h : Stops bufcoded p) :
    ∃ count w, base64decode bufcoded = some (count, storesAt w) ∧
      w.length = 6 * (Int32.ofNat p.length).toInt.toNat / 8 + 1 := by
  rcases Int.lt_or_le 0 (Int32.ofNat p.length).toInt with hm | hm
  · obtain ⟨left, -, -, -, hrun⟩ := base64decode_pos h hm
    refine ⟨_, _, hrun, ?_⟩
    obtain ⟨k, hk, -, hmhi⟩ := toInt_ofNat_spec p.length
    have hmin : min (Int32.ofNat p.length).toInt.toNat p.length =
        (Int32.ofNat p.length).toInt.toNat := by omega
    rw [List.length_append, decode_length, List.length_take, hmin, List.length_singleton]
  · refine ⟨_, _, base64decode_nonpos h hm, ?_⟩
    rw [Int.toNat_of_nonpos hm]
    rfl

end CEar.Base64Size
