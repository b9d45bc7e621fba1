import CEar.Base64Size
import CEar.CheckedInt

namespace CEar.Base64Exact

open Base64 Base64Url Base64Decode Base64Size CString CheckedInt Loop MachineInt

/-- `Base64decode_len` with its `int` of the exact value. -/
def base64decodeLenExact (bufcoded : List UInt8) : Option Int32 := do
  let bufin ← scan bufcoded
  let nprbytes : UInt64 := UInt64.ofNat (bufin - 1)
  ofExact (((nprbytes + 3) / 4) * 3 + 1).toNat

/-- `*(bufout++) = (unsigned char)(high | low)`, the operands being `int`s. -/
def putExact (d : Decoder) (high low : Nat) : Option Decoder := do
  let _ ← ofExact high
  let _ ← ofExact low
  let _ ← ofExact (high ||| low : Nat)
  return d.put (UInt8.ofNat (high ||| low))

def putFirstExact (bufcoded : List UInt8) (d : Decoder) : Option Decoder := do
  let a ← d.six bufcoded 0
  let b ← d.six bufcoded 1
  putExact d (a <<< 2) (b >>> 4)

def putSecondExact (bufcoded : List UInt8) (d : Decoder) : Option Decoder := do
  let a ← d.six bufcoded 1
  let b ← d.six bufcoded 2
  putExact d (a <<< 4) (b >>> 2)

def putThirdExact (bufcoded : List UInt8) (d : Decoder) : Option Decoder := do
  let a ← d.six bufcoded 2
  let b ← d.six bufcoded 3
  putExact d (a <<< 6) b

def bodyExact (bufcoded : List UInt8) (d : Decoder) : Option (Control Decoder Decoder) :=
  if d.nprbytes > 4 then do
    let d ← putFirstExact bufcoded d
    let d ← putSecondExact bufcoded d
    let d ← putThirdExact bufcoded d
    let nprbytes ← sub d.nprbytes 4
    return .next { d with bufin := d.bufin + 4, nprbytes := nprbytes }
  else
    return .done d

def tailExact (bufcoded : List UInt8) (d : Decoder) : Option Decoder := do
  let d ← if d.nprbytes > 1 then putFirstExact bufcoded d else some d
  let d ← if d.nprbytes > 2 then putSecondExact bufcoded d else some d
  let d ← if d.nprbytes > 3 then putThirdExact bufcoded d else some d
  return d.put 0

/-- `Base64decode` with every `int` of the exact value. -/
def base64decodeExact (bufcoded : List UInt8) : Option (Int32 × List (Nat × UInt8)) := do
  let bufin ← scan bufcoded
  let nprbytes ← ofExact (bufin - 1 : Nat)
  let sum ← add nprbytes 3
  let quarter ← div sum 4
  let nbytesdecoded ← mul quarter 3
  let d ← run (bodyExact bufcoded) (bufcoded.length + 1) ⟨0, 0, nprbytes, []⟩
  let d ← tailExact bufcoded d
  let left ← sub 4 d.nprbytes
  let count ← sub nbytesdecoded (left &&& 3)
  return (count, d.stores)

theorem six_le {bufcoded : List UInt8} {d : Decoder} {k a : Nat} (h : d.six bufcoded k = some a) :
    a ≤ 64 := by
  obtain ⟨c, -, rfl⟩ := Option.map_eq_some_iff.mp h
  rw [pr2six_eq]
  cases hv : value c with
  | none => exact le_rfl
  | some v => exact (value_lt_of_byte c v hv).le

theorem ofExact_natCast {n : Nat} (h : n < 2147483648) : ofExact n = some (Int32.ofNat n) :=
  ofExact_toInt (Int32.toInt_ofNat_of_lt h)

/-- Shifted values of symbols are far from the bounds of `int`. -/
theorem putExact_eq (d : Decoder) {high low : Nat} (hhigh : high < 2 ^ 13) (hlow : low < 2 ^ 13) :
    putExact d high low = some (d.put (UInt8.ofNat (high ||| low))) := by
  have hor : high ||| low < 2 ^ 13 := Nat.or_lt_two_pow hhigh hlow
  have hhigh' : high < 2147483648 := by omega
  have hlow' : low < 2147483648 := by omega
  have hor' : high ||| low < 2147483648 := by omega
  rw [putExact, ofExact_natCast hhigh', ofExact_natCast hlow', ofExact_natCast hor']
  rfl

theorem reads_putExact (bufcoded : List UInt8) (d : Decoder) (i j : Nat) {f g : Nat → Nat}
    (hf : ∀ a ≤ 64, f a < 2 ^ 13) (hg : ∀ b ≤ 64, g b < 2 ^ 13) :
    (do
      let a ← d.six bufcoded i
      let b ← d.six bufcoded j
      putExact d (f a) (g b)) =
    (do
      let a ← d.six bufcoded i
      let b ← d.six bufcoded j
      return d.put (UInt8.ofNat (f a ||| g b))) := by
  refine Option.bind_congr fun a ha => Option.bind_congr fun b hb => ?_
  exact putExact_eq d (hf a (six_le ha)) (hg b (six_le hb))

theorem shiftLeft_small {k : Nat} (hk : k ≤ 6) : ∀ a ≤ 64, a <<< k < 2 ^ 13 := by
  intro a ha
  have hpow : 2 ^ k ≤ 2 ^ 6 := Nat.pow_le_pow_right (by norm_num) hk
  have hmul : a * 2 ^ k ≤ 64 * 2 ^ 6 := Nat.mul_le_mul ha hpow
  rw [Nat.shiftLeft_eq]
  omega

theorem shiftRight_small (k : Nat) : ∀ b ≤ 64, b >>> k < 2 ^ 13 := by
  intro b hb
  have hdiv : b / 2 ^ k ≤ b := Nat.div_le_self _ _
  rw [Nat.shiftRight_eq_div_pow]
  omega

theorem putFirstExact_eq (bufcoded : List UInt8) (d : Decoder) :
    putFirstExact bufcoded d = d.putFirst bufcoded :=
  reads_putExact bufcoded d 0 1 (shiftLeft_small (by omega)) (shiftRight_small 4)

theorem putSecondExact_eq (bufcoded : List UInt8) (d : Decoder) :
    putSecondExact bufcoded d = d.putSecond bufcoded :=
  reads_putExact bufcoded d 1 2 (shiftLeft_small (by omega)) (shiftRight_small 2)

theorem putThirdExact_eq (bufcoded : List UInt8) (d : Decoder) :
    putThirdExact bufcoded d = d.putThird bufcoded :=
  reads_putExact bufcoded d 2 3 (shiftLeft_small le_rfl) (shiftRight_small 0)

theorem reads_put_nprbytes {bufcoded : List UInt8} {d d' : Decoder} {i j : Nat} {f : Nat → Nat → UInt8}
    (h : (do
      let a ← d.six bufcoded i
      let b ← d.six bufcoded j
      return d.put (f a b)) = some d') : d'.nprbytes = d.nprbytes := by
  obtain ⟨a, -, h⟩ := Option.bind_eq_some_iff.mp h
  obtain ⟨b, -, h⟩ := Option.bind_eq_some_iff.mp h
  rw [← Option.some.inj h, put_nprbytes]

/-- The count is lowered while it is more than four, so it stays positive. -/
theorem bodyExact_eq (bufcoded : List UInt8) : bodyExact bufcoded = Decoder.body bufcoded := by
  funext d
  rw [bodyExact, Decoder.body]
  by_cases hgt : d.nprbytes > 4
  · simp only [if_pos hgt, putFirstExact_eq, putSecondExact_eq, putThirdExact_eq]
    refine Option.bind_congr fun d₁ h₁ => Option.bind_congr fun d₂ h₂ => Option.bind_congr fun d₃ h₃ => ?_
    have hcount : d₃.nprbytes = d.nprbytes := by
      rw [reads_put_nprbytes h₃, reads_put_nprbytes h₂, reads_put_nprbytes h₁]
    have hlo : (4 : Int) < d.nprbytes.toInt := Int32.lt_iff_toInt_lt.mp hgt
    have hhi := d.nprbytes.toInt_lt
    have hrange : InRange (d₃.nprbytes.toInt - (4 : Int32).toInt) := by
      rw [hcount]
      change -2147483648 ≤ d.nprbytes.toInt - 4 ∧ d.nprbytes.toInt - 4 < 2147483648
      omega
    rw [(sub_spec hrange).1]
    rfl
  · rw [if_neg hgt, if_neg hgt]

theorem tailExact_eq (bufcoded : List UInt8) : tailExact bufcoded = Decoder.tail bufcoded := by
  funext d
  simp only [tailExact, Decoder.tail, putFirstExact_eq, putSecondExact_eq, putThirdExact_eq]

theorem base64decodeLenExact_eq {bufcoded p : List UInt8} (h : Stops bufcoded p)
    (hn : p.length ≤ 2 ^ 31 - 4) : base64decodeLenExact bufcoded = base64decodeLen bufcoded := by
  have hnat : (((UInt64.ofNat p.length + 3) / 4) * 3 + 1).toNat = (p.length + 3) / 4 * 3 + 1 := by
    rw [size_toNat]
    omega
  have hsize : (allocation p.length).toInt = ((p.length + 3) / 4 * 3 + 1 : Nat) := by
    rw [allocation_pos hn]
    push_cast
    rfl
  have hexact := ofExact_toInt hsize
  rw [← hnat] at hexact
  rw [base64decodeLen_eq h, base64decodeLenExact, bind_defined (scan_eq h), Nat.add_sub_cancel]
  exact hexact

theorem decoder_small {bufcoded p : List UInt8} (h : Stops bufcoded p) (hn : p.length < 2 ^ 31) :
    ∃ d d', run (Decoder.body bufcoded) (bufcoded.length + 1) ⟨0, 0, Int32.ofNat p.length, []⟩ = some d ∧
      d.tail bufcoded = some d' ∧ 0 ≤ d'.nprbytes.toInt ∧ d'.nprbytes.toInt ≤ 4 := by
  have hm : (Int32.ofNat p.length).toInt = p.length := Int32.toInt_ofNat_of_lt hn
  rcases Nat.eq_zero_or_pos p.length with hzero | hpos
  · have hnonpos : (Int32.ofNat p.length).toInt ≤ 0 := by omega
    obtain ⟨hrun, htail⟩ := decoder_nonpos (d := ⟨0, 0, Int32.ofNat p.length, []⟩) hnonpos bufcoded
      bufcoded.length
    refine ⟨_, _, hrun, htail, ?_, ?_⟩
    · rw [put_nprbytes, hm]
      omega
    · rw [put_nprbytes, hm]
      omega
  · obtain ⟨d, d', hrun, htail, hleft, hlo, hhi, -⟩ := decoder_pos h (by omega)
    exact ⟨d, d', hrun, htail, by rw [hleft]; exact hlo.le, by rw [hleft]; exact hhi⟩

/-- The rounding up to whole groups, step by step. -/
theorem roundUp_exact {m : Int32} (hlo : 0 ≤ m.toInt) (hhi : m.toInt ≤ 2147483644) :
    add m 3 = some (m + 3) ∧ div (m + 3) 4 = some ((m + 3) / 4) ∧
      mul ((m + 3) / 4) 3 = some ((m + 3) / 4 * 3) ∧ ((m + 3) / 4 * 3).toInt = (m.toInt + 3) / 4 * 3 := by
  have hthree : (3 : Int32).toInt = 3 := rfl
  have hfour : (4 : Int32).toInt = 4 := rfl
  have hadd : InRange (m.toInt + (3 : Int32).toInt) := by
    rw [hthree, InRange]
    omega
  obtain ⟨hsum, hsum'⟩ := add_spec hadd
  have hquot : (m + 3).toInt.tdiv (4 : Int32).toInt = (m.toInt + 3) / 4 := by
    rw [hsum', hthree, hfour, Int.tdiv_eq_ediv_of_nonneg (by omega)]
  have hdiv : InRange ((m + 3).toInt.tdiv (4 : Int32).toInt) := by
    rw [hquot, InRange]
    omega
  obtain ⟨hquarter, hquarter'⟩ := div_spec (by decide) hdiv
  have hmul : InRange (((m + 3) / 4).toInt * (3 : Int32).toInt) := by
    rw [hquarter', hquot, hthree, InRange]
    omega
  obtain ⟨hprod, hprod'⟩ := mul_spec hmul
  rw [hquarter', hquot, hthree] at hprod'
  exact ⟨hsum, hquarter, hprod, hprod'⟩

/-- The correction of the count by what the loop has left. -/
theorem correction_exact {total left : Int32} (hlo : 0 ≤ left.toInt) (hhi : left.toInt ≤ 4)
    (htotal : 0 ≤ total.toInt) :
    sub 4 left = some (4 - left) ∧ sub total ((4 - left) &&& 3) = some (total - ((4 - left) &&& 3)) := by
  have hmask := four_sub_and_three left
  have hmax := total.toInt_lt
  have hleft : InRange ((4 : Int32).toInt - left.toInt) := by
    change InRange (4 - left.toInt)
    rw [InRange]
    omega
  have hcount : InRange (total.toInt - ((4 - left) &&& 3).toInt) := by
    rw [hmask, InRange]
    omega
  exact ⟨(sub_spec hleft).1, (sub_spec hcount).1⟩

theorem base64decodeExact_eq {bufcoded p : List UInt8} (h : Stops bufcoded p)
    (hn : p.length ≤ 2 ^ 31 - 4) : base64decodeExact bufcoded = base64decode bufcoded := by
  have hm : (Int32.ofNat p.length).toInt = p.length := Int32.toInt_ofNat_of_lt (by omega)
  obtain ⟨hadd, hdiv, hmul, htotal⟩ := roundUp_exact (m := Int32.ofNat p.length) (by omega) (by omega)
  obtain ⟨d, d', hrun, htail, hlo, hhi⟩ := decoder_small h (by omega)
  have hnonneg : 0 ≤ ((Int32.ofNat p.length + 3) / 4 * 3).toInt := by
    rw [htotal]
    omega
  obtain ⟨hleft, hcount⟩ := correction_exact hlo hhi hnonneg
  have hexact : base64decodeExact bufcoded =
      some (returned (Int32.ofNat p.length) d'.nprbytes, d'.stores) := by
    rw [base64decodeExact, bind_defined (scan_eq h), Nat.add_sub_cancel, bind_defined (ofExact_toInt hm),
      bind_defined hadd, bind_defined hdiv, bind_defined hmul, bodyExact_eq, bind_defined hrun, tailExact_eq,
      bind_defined htail, bind_defined hleft, bind_defined hcount]
    rfl
  rw [hexact]
  simp [base64decode, scan_eq h, hrun, htail, returned]

/-- From 2^31 - 3 characters on the count, or its rounding up, is no `int`. -/
theorem base64decodeExact_undefined {bufcoded p : List UInt8} (h : Stops bufcoded p)
    (hn : 2 ^ 31 - 4 < p.length) : base64decodeExact bufcoded = none := by
  rw [base64decodeExact, bind_defined (scan_eq h), Nat.add_sub_cancel]
  rcases Nat.lt_or_ge p.length 2147483648 with hlt | hge
  · have hm : (Int32.ofNat p.length).toInt = p.length := Int32.toInt_ofNat_of_lt hlt
    have hthree : (3 : Int32).toInt = 3 := rfl
    have hadd : add (Int32.ofNat p.length) 3 = none := by
      apply ofExact_none
      rw [hm, hthree, InRange]
      omega
    rw [bind_defined (ofExact_toInt hm), hadd]
    rfl
  · have hcount : ofExact (p.length : Int) = none := by
      apply ofExact_none
      rw [InRange]
      omega
    rw [hcount]
    rfl

/-- The bytes of `s` up to the one that ends the scan. -/
def readable (s : CStr) : List UInt8 := s.cells.take ((alphabetPrefix s).length + 1)

theorem stops_readable (s : CStr) (rest : List UInt8) :
    Stops (readable s ++ rest) (alphabetPrefix s) where
  symbols := (stops_cells s).symbols
  stop := by
    obtain ⟨c, after, hsplit, hc⟩ := (stops_cells s).stop
    refine ⟨c, rest, ?_, hc⟩
    rw [readable, hsplit, List.take_length_add_append]
    simp

/-- The run of the decoder on `s`. It is the exact one, it reads no further than
the end of the scan, and what it stores is what it counts, with a NUL behind. -/
theorem base64decode_defined (s : CStr) (hn : (alphabetPrefix s).length ≤ 2 ^ 31 - 4) :
    ∃ outSz m stores,
      base64decodeLen s.cells = some outSz ∧ base64decode s.cells = some (m, stores) ∧
      base64decodeLenExact s.cells = some outSz ∧ base64decodeExact s.cells = some (m, stores) ∧
      (∀ rest, base64decodeLen (readable s ++ rest) = some outSz ∧
        base64decode (readable s ++ rest) = some (m, stores) ∧
        base64decodeLenExact (readable s ++ rest) = some outSz ∧
        base64decodeExact (readable s ++ rest) = some (m, stores)) ∧
      0 ≤ m.toInt ∧ stores.map Prod.fst = List.range (m.toInt.toNat + 1) ∧
      stores[m.toInt.toNat]? = some (m.toInt.toNat, 0) ∧ m.toInt < outSz.toInt := by
  have hlen := decode_length (alphabetPrefix s)
  have hm : (Int32.ofNat (decode (alphabetPrefix s)).length).toInt = (decode (alphabetPrefix s)).length :=
    Int32.toInt_ofNat_of_lt (by omega)
  have hruns {bufcoded : List UInt8} (h : Stops bufcoded (alphabetPrefix s)) :
      base64decodeLen bufcoded = some (allocation (alphabetPrefix s).length) ∧
      base64decode bufcoded = some (Int32.ofNat (decode (alphabetPrefix s)).length,
        storesAt (decode (alphabetPrefix s) ++ [0])) ∧
      base64decodeLenExact bufcoded = some (allocation (alphabetPrefix s).length) ∧
      base64decodeExact bufcoded = some (Int32.ofNat (decode (alphabetPrefix s)).length,
        storesAt (decode (alphabetPrefix s) ++ [0])) := by
    rw [base64decodeLenExact_eq h hn, base64decodeExact_eq h hn]
    exact ⟨base64decodeLen_eq h, base64decode_count h hn, base64decodeLen_eq h, base64decode_count h hn⟩
  obtain ⟨hsize, hrun, hsize', hrun'⟩ := hruns (stops_cells s)
  refine ⟨_, _, _, hsize, hrun, hsize', hrun', fun rest => hruns (stops_readable s rest), ?_, ?_, ?_, ?_⟩
  · rw [hm]
    exact Int.natCast_nonneg _
  · rw [hm, Int.toNat_natCast, storesAt_indices, List.length_append, List.length_singleton]
  · rw [hm, Int.toNat_natCast]
    exact storesAt_last _ 0
  · rw [hm, allocation_pos hn]
    omega

theorem base64decode_defined_five :
    ∃ m stores, base64decodeExact (lit "AAAAA*").cells = some (m, stores) ∧
      stores.map Prod.fst = List.range (m.toInt.toNat + 1) := by
  have hn : (alphabetPrefix (lit "AAAAA*")).length = 5 := by decide +kernel
  obtain ⟨outSz, m, stores, -, -, -, hrun, -, -, hindices, -⟩ :=
    base64decode_defined (lit "AAAAA*") (by omega)
  exact ⟨m, stores, hrun, hindices⟩

end CEar.Base64Exact
