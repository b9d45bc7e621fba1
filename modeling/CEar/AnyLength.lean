import CEar.Malleability

namespace CEar.AnyLength

open B64urlDecode Base64 Base64Decode Base64Size CString MachineInt Malleability Ownership Utils
open Base64Url (decode decode_length)

/-- The characters that are left of a count once it has been converted to `int`. -/
def counted (n : Nat) : Nat := n % 2 ^ 32

/-- The counts of characters that both sizes of `u_b64url_decode` come out
positive for, and agree on, where the allocation wraps around three quarters of
2^32 at a time. -/
def Accepts (n : Nat) : Prop :=
  2 ≤ counted n ∧ counted n ≤ 2 ^ 31 - 4 ∧
    (n / 2 ^ 32 % 4 = 0 ∨ n / 2 ^ 32 % 4 = 3 ∧ counted n ≤ 1431655760)

instance (n : Nat) : Decidable (Accepts n) := inferInstanceAs (Decidable (_ ∧ _ ∧ _))

theorem split (n : Nat) : ∃ j q r, q < 4 ∧ r < 4294967296 ∧ n / 2 ^ 32 % 4 = q ∧ counted n = r ∧
    n = 17179869184 * j + 4294967296 * q + r := by
  refine ⟨n / 17179869184, n / 2 ^ 32 % 4, counted n, ?_, ?_, rfl, rfl, ?_⟩
  · omega
  · rw [counted]
    omega
  · rw [counted]
    omega

theorem toInt_counted (n : Nat) : (Int32.ofNat n).toInt =
    if counted n < 2147483648 then (counted n : Int) else counted n - 4294967296 := by
  obtain ⟨j, q, r, -, hr, -, hcounted, rfl⟩ := split n
  rw [hcounted]
  exact count_split j q r hr

/-- Among the counts that `Base64decode` accepts, the size that is allocated is
positive in these quarters of its cycle. -/
theorem allocation_pos_iff {n : Nat} (hlo : 2 ≤ counted n) (hhi : counted n ≤ 2 ^ 31 - 4) :
    0 < (allocation n).toInt ↔ Accepts n ∨ Wraps n := by
  have hmod : n % 2 ^ 32 = counted n := rfl
  obtain ⟨j, q, r, hq, hr, hquot, hcounted, hn⟩ := split n
  obtain ⟨k, hk, hlo', hhi'⟩ := allocation_split j q r
  rw [← hn] at hk hlo' hhi'
  rw [Accepts, Wraps, hquot, hmod]
  rw [hcounted] at hlo hhi ⊢
  have hcases : q = 0 ∨ q = 1 ∨ q = 2 ∨ q = 3 := by omega
  rcases hcases with rfl | rfl | rfl | rfl
  · have hwrap : k = 0 := by omega
    omega
  · have hwrap : k = -1 := by omega
    omega
  · have hwrap : k = -2 := by omega
    omega
  · have hwrap : k = -2 ∨ k = -3 := by omega
    omega

theorem returned_counted {m left : Int32} {r : Nat} (hm : m.toInt = r) (hr : r ≤ 2 ^ 31 - 4)
    (hlo : 0 < left.toInt) (hhi : left.toInt ≤ 4) (hmod : left.toInt % 4 = m.toInt % 4) :
    (returned m left).toInt = (6 * r / 8 : Nat) := by
  rw [returned_toInt (by omega), hm, Int.tdiv_eq_ediv_of_nonneg (by omega)]
  have hcases : left.toInt = 1 ∨ left.toInt = 2 ∨ left.toInt = 3 ∨ left.toInt = 4 := by omega
  rcases hcases with hl | hl | hl | hl <;> omega

theorem returned_negative {m : Int32} (hm : m.toInt ≤ 0) : (returned m m).toInt ≤ 0 := by
  rw [returned_toInt (by omega)]
  rcases tdiv_four (m.toInt + 3) with ⟨hs, hdiv⟩ | ⟨hs, hdiv⟩
  · rw [hdiv]
    omega
  · rw [hdiv]
    omega

/-- A count that `int` cannot hold rounded up is returned as a negative one, and
so is one that has wrapped around to a negative one. -/
theorem base64decode_counted {bufcoded p : List UInt8} (h : Stops bufcoded p) :
    ∃ count w, base64decode bufcoded = some (count, storesAt w) ∧
      (0 < count.toInt ↔ 2 ≤ counted p.length ∧ counted p.length ≤ 2 ^ 31 - 4) ∧
      (0 < count.toInt → w = decode (p.take (counted p.length)) ++ [0] ∧
        count.toInt = (6 * counted p.length / 8 : Nat)) := by
  have hm := toInt_counted p.length
  have hcounted : counted p.length < 2 ^ 32 := Nat.mod_lt _ (by decide)
  rcases Int.lt_or_le 0 (Int32.ofNat p.length).toInt with hpos | hneg
  · obtain ⟨left, hlo, hhi, hmod, hrun⟩ := base64decode_pos h hpos
    have hlt : counted p.length < 2147483648 := by
      by_contra hge
      rw [if_neg hge] at hm
      omega
    rw [if_pos hlt] at hm
    rw [hm, Int.toNat_natCast] at hrun
    refine ⟨_, _, hrun, ?_⟩
    by_cases hfits : counted p.length ≤ 2 ^ 31 - 4
    · rw [returned_counted hm hfits hlo hhi hmod]
      exact ⟨by omega, fun _ => ⟨rfl, rfl⟩⟩
    · have hreturned : (returned (Int32.ofNat p.length) left).toInt ≤ 0 :=
        returned_overflow (by omega)
      exact ⟨by omega, fun hcount => absurd hreturned (by omega)⟩
  · have hreturned := returned_negative hneg
    refine ⟨_, _, base64decode_nonpos h hneg, ?_, fun hcount => absurd hreturned (by omega)⟩
    by_cases hlt : counted p.length < 2147483648
    · rw [if_pos hlt] at hm
      omega
    · omega

theorem toNatClampNeg_eq {x : Int32} {n : Nat} (h : x.toInt = n) : x.toNatClampNeg = n := by
  change x.toInt.toNat = n
  rw [h, Int.toNat_natCast]

theorem uB64urlDecode_counted {s : CStr} {calloc : Bool} (hfits : ¬ Overflows calloc s)
    (pout : Option (Ref Block)) (poutSz : Nat) :
    Runs 0 (uB64urlDecode calloc (some s) pout poutSz) (fun r own =>
      ¬ (calloc = true ∧ Accepts (alphabetPrefix s).length) ∧ r = ⟨-1, pout, poutSz⟩ ∧ own = 0 ∨
        (calloc = true ∧ Accepts (alphabetPrefix s).length) ∧ ∃ out, own = {(Kind.keyBuffer, out.id)} ∧
          r = ⟨0, some out, 6 * counted (alphabetPrefix s).length / 8⟩ ∧
          out.val.read (6 * counted (alphabetPrefix s).length / 8) =
            some (decode ((alphabetPrefix s).take (counted (alphabetPrefix s).length)))) := by
  obtain ⟨count, w, hdecode, hcount, hstores⟩ := base64decode_counted (stops_cells s)
  have hle : counted (alphabetPrefix s).length ≤ (alphabetPrefix s).length := Nat.mod_le _ _
  apply (uB64urlDecode_spec hdecode hfits pout poutSz).mono
  rintro r own (⟨hfails, hr⟩ | ⟨hpasses, hsize, id, rfl, rfl⟩)
  · refine Or.inl ⟨?_, hr⟩
    rintro ⟨hcalloc, haccepts⟩
    apply hfails
    refine ⟨fun hempty => ?_, ?_, hcalloc, ?_⟩
    · have htwo := haccepts.1
      rw [alphabetPrefix_empty hempty] at htwo
      exact absurd htwo (by decide)
    · exact Int32.lt_iff_toInt_lt.mpr ((allocation_pos_iff haccepts.1 haccepts.2.1).mpr (Or.inl haccepts))
    · exact Int32.lt_iff_toInt_lt.mpr (hcount.mpr ⟨haccepts.1, haccepts.2.1⟩)
  · have hpos : 0 < count.toInt := Int32.lt_iff_toInt_lt.mp hpasses.decoded
    have hsized : 0 < (allocation (alphabetPrefix s).length).toInt :=
      Int32.lt_iff_toInt_lt.mp hpasses.sized
    obtain ⟨hlo, hhi⟩ := hcount.mp hpos
    obtain ⟨rfl, hvalue⟩ := hstores hpos
    have hdecoded := decode_length ((alphabetPrefix s).take (counted (alphabetPrefix s).length))
    rw [List.length_take, Nat.min_eq_left hle] at hdecoded
    have haccepts : Accepts (alphabetPrefix s).length := by
      apply ((allocation_pos_iff hlo hhi).mp hsized).resolve_right
      intro hwraps
      exact hfits ⟨hpasses.allocated, fun hfit => (fits_iff_not_wraps s).mp hfit hwraps⟩
    rw [toNatClampNeg_eq hvalue]
    refine Or.inr ⟨⟨hpasses.allocated, haccepts⟩, ⟨id, _⟩, rfl, rfl, ?_⟩
    rw [List.length_append, List.length_singleton] at hsize
    rw [← hdecoded, Block.read, if_pos (Nat.le_of_succ_le hsize), Buffer.window_write]

/-- `u_b64url_decode` on a text of any length: it overflows its block, accepts or
refuses by the count of the characters alone, and decodes as many of them as
`int` has counted. -/
theorem uB64urlDecode_anyLength (s : CStr) (calloc : Bool) (pout : Option (Ref Block)) (poutSz : Nat)
    (L : Ledger Kind) :
    (uB64urlDecode calloc (some s) pout poutSz L = none ↔
      calloc = true ∧ Wraps (alphabetPrefix s).length) ∧
    ∀ r L', uB64urlDecode calloc (some s) pout poutSz L = some (r, L') →
      (r.ret = 0 ↔ calloc = true ∧ Accepts (alphabetPrefix s).length) ∧
      (r.ret = 0 → r.poutSz = 6 * counted (alphabetPrefix s).length / 8 ∧
        decoded r = some (decode ((alphabetPrefix s).take (counted (alphabetPrefix s).length)))) ∧
      (r.ret ≠ 0 → r = ⟨-1, pout, poutSz⟩ ∧ L'.live = L.live) := by
  constructor
  · rw [uB64urlDecode_eq_none, Overflows, fits_iff_not_wraps, not_not]
  · intro r L' hrun
    obtain ⟨own, hlive, hr⟩ :=
      (uB64urlDecode_counted (not_overflows_of_run hrun) pout poutSz).result hrun
    rcases hr with ⟨hrefused, rfl, rfl⟩ | ⟨haccepted, out, -, rfl, hread⟩
    · refine ⟨iff_of_false (by simp) hrefused, fun hret => absurd hret (by simp), fun _ => ⟨rfl, ?_⟩⟩
      rw [hlive, zero_add]
    · exact ⟨iff_of_true rfl haccepted, fun _ => ⟨rfl, hread⟩, fun hret => absurd rfl hret⟩

theorem uB64urlDecode_anyLength_longText :
    uB64urlDecode true (some longText) none 0 Ledger.empty = none := by
  obtain ⟨hoverflow, -⟩ := uB64urlDecode_anyLength longText true none 0 Ledger.empty
  refine hoverflow.mpr ⟨rfl, ?_⟩
  rw [alphabetPrefix_longText]
  decide

end CEar.AnyLength
