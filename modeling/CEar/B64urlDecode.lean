import CEar.Base64Size
import CEar.Utils

namespace CEar.B64urlDecode

open Base64 Base64Decode Base64Size CString MachineInt Ownership Utils
open Base64Url (decode decode_byte decode_length isSymbol bits)

theorem foldlM_put (size : Nat) (b : Buffer) (w : List UInt8) {written : List UInt8}
    (h : written.length ≤ size) :
    (w.zipIdx written.length).foldlM (fun b p => Block.put b (p.2, p.1)) ⟨size, b.write written⟩ =
      if written.length + w.length ≤ size then some ⟨size, b.write (written ++ w)⟩ else none := by
  induction w generalizing written with
  | nil => simp [h]
  | cons v w ih =>
      rw [List.zipIdx_cons, List.foldlM_cons, Block.put]
      by_cases hlt : written.length < size
      · have hwritten : (written ++ [v]).length ≤ size := by
          rw [List.length_append, List.length_singleton]
          exact hlt
        have hnext := ih hwritten
        rw [List.length_append, List.length_singleton, List.append_assoc, List.singleton_append] at hnext
        rw [if_pos hlt, Option.bind_eq_bind, Option.bind_some, Buffer.write_store, hnext, List.length_cons,
          Nat.add_assoc, Nat.add_comm 1]
      · rw [if_neg hlt, if_neg (by rw [List.length_cons]; omega)]
        rfl

/-- Stores from the start of a block on go through when they fit. -/
theorem fill_storesAt (size : Nat) (w : List UInt8) : fill size (storesAt w) =
    if w.length ≤ size then some ⟨size, Buffer.write (fun _ => 0) w⟩ else none := by
  have hlog : storesAt w = (w.zipIdx 0).map (fun p => (p.2, p.1)) := by
    rw [storesAt, List.mapIdx_eq_zipIdx_map]
  have hnil : ([] : List UInt8).length ≤ size := Nat.zero_le size
  have h := foldlM_put size (fun _ => 0) w hnil
  rw [List.length_nil, Nat.zero_add, List.nil_append, Buffer.write_nil] at h
  rw [fill, hlog, List.foldlM_map]
  exact h

theorem base64decodeLen_cells (s : CStr) :
    base64decodeLen s.cells = some (allocation (alphabetPrefix s).length) :=
  base64decodeLen_eq (stops_cells s)

theorem alphabetPrefix_empty {s : CStr} (h : s.length = 0) : alphabetPrefix s = [] := by
  rw [alphabetPrefix, List.length_eq_zero_iff.mp h, List.takeWhile_nil]

/-- Whenever the size check passes, what `Base64decode` stores fits in what was
allocated. -/
def Fits (s : CStr) : Prop :=
  ∀ outSz count stores, s.length ≠ 0 → base64decodeLen s.cells = some outSz → 0 < outSz →
    base64decode s.cells = some (count, stores) → stores.length ≤ outSz.toNatClampNeg

/-- The allocation of a text of `2^34 j + 2^32 q + r` characters, where `3 q`
quarters of 2^32 wrap around. -/
theorem allocation_split (j q r : Nat) : ∃ k : Int,
    (allocation (17179869184 * j + 4294967296 * q + r)).toInt =
      3221225472 * q + ((r + 3) / 4 * 3 + 1 : Nat) + 4294967296 * k ∧
    -2147483648 ≤ (allocation (17179869184 * j + 4294967296 * q + r)).toInt ∧
    (allocation (17179869184 * j + 4294967296 * q + r)).toInt < 2147483648 := by
  obtain ⟨k, hk, hlo, hhi⟩ := allocation_spec (17179869184 * j + 4294967296 * q + r)
  have hdiv : (17179869184 * j + 4294967296 * q + r + 3) / 4 =
      4294967296 * j + 1073741824 * q + (r + 3) / 4 := by omega
  rw [hdiv] at hk
  exact ⟨3 * j + k, by push_cast at hk ⊢; rw [hk]; ring, hlo, hhi⟩

theorem count_split (j q r : Nat) (hr : r < 4294967296) :
    (Int32.ofNat (17179869184 * j + 4294967296 * q + r)).toInt =
      if r < 2147483648 then (r : Int) else r - 4294967296 := by
  obtain ⟨l, hl, hlo, hhi⟩ := toInt_ofNat_spec (17179869184 * j + 4294967296 * q + r)
  split <;> omega

/-- The count of characters wraps in `int` to one that is stored in full, while
its allocation wraps to 2^30 less. -/
def Wraps (n : Nat) : Prop :=
  n / 2 ^ 32 % 4 = 1 ∧ 1431655765 ≤ n % 2 ^ 32 ∧ n % 2 ^ 32 < 2 ^ 31

instance (n : Nat) : Decidable (Wraps n) := inferInstanceAs (Decidable (_ ∧ _ ∧ _))

theorem sizes_iff (n : Nat) :
    (0 < (allocation n).toInt →
      6 * (Int32.ofNat n).toInt.toNat / 8 + 1 ≤ (allocation n).toInt.toNat) ↔ ¬ Wraps n := by
  obtain ⟨j, q, r, hq, hr, rfl⟩ : ∃ j q r, q < 4 ∧ r < 4294967296 ∧
      n = 17179869184 * j + 4294967296 * q + r :=
    ⟨n / 17179869184, n / 4294967296 % 4, n % 4294967296, by omega, by omega, by omega⟩
  have hquot : (17179869184 * j + 4294967296 * q + r) / 2 ^ 32 % 4 = q := by omega
  have hrem : (17179869184 * j + 4294967296 * q + r) % 2 ^ 32 = r := by omega
  obtain ⟨k, hk, hlo, hhi⟩ := allocation_split j q r
  rw [Wraps, hquot, hrem, count_split j q r hr]
  generalize (allocation (17179869184 * j + 4294967296 * q + r)).toInt = size at hk hlo hhi
  by_cases hneg : 2147483648 ≤ r
  · rw [if_neg (by omega), Int.toNat_of_nonpos (by omega)]
    omega
  · rw [if_pos (by omega), Int.toNat_natCast]
    have hup : (r + 3) / 4 ≤ 536870912 := by omega
    match q, hq with
    | 0, _ =>
        have hwrap : k = 0 := by omega
        omega
    | 1, _ =>
        have hwrap : k = -1 := by omega
        omega
    | 2, _ =>
        have hwrap : k = -2 := by omega
        omega
    | 3, _ =>
        have hwrap : k = -2 ∨ k = -3 := by omega
        omega

theorem fits_iff_sizes {s : CStr} (hs : s.length ≠ 0) : Fits s ↔
    (0 < (allocation (alphabetPrefix s).length).toInt →
      6 * (Int32.ofNat (alphabetPrefix s).length).toInt.toNat / 8 + 1 ≤
        (allocation (alphabetPrefix s).length).toInt.toNat) := by
  obtain ⟨count, w, hrun, hlen⟩ := base64decode_stores (stops_cells s)
  constructor
  · intro hfits hpos
    have hle := hfits _ _ _ hs (base64decodeLen_cells s) (Int32.lt_iff_toInt_lt.mpr hpos) hrun
    rwa [storesAt_length, hlen] at hle
  · intro h outSz count' stores' _ hsize hpos hrun'
    rw [base64decodeLen_cells, Option.some.injEq] at hsize
    rw [hrun, Option.some.injEq, Prod.mk.injEq] at hrun'
    obtain ⟨-, rfl⟩ := hrun'
    rw [← hsize] at hpos ⊢
    rw [storesAt_length, hlen]
    exact h (Int32.lt_iff_toInt_lt.mp hpos)

theorem fits_iff_not_wraps (s : CStr) : Fits s ↔ ¬ Wraps (alphabetPrefix s).length := by
  by_cases hs : s.length = 0
  · rw [alphabetPrefix_empty hs]
    exact ⟨fun _ => by decide, fun _ _ _ _ hne => absurd hs hne⟩
  · rw [fits_iff_sizes hs, sizes_iff]

theorem base64decode_fits_iff (s : CStr) : Fits s ↔
    ¬ ((alphabetPrefix s).length / 2 ^ 32 % 4 = 1 ∧
      1431655765 ≤ (alphabetPrefix s).length % 2 ^ 32 ∧
      (alphabetPrefix s).length % 2 ^ 32 < 2 ^ 31) :=
  fits_iff_not_wraps s

def longText : CStr where
  bytes := List.replicate 5726623061 65
  nulFree := fun h => absurd (List.eq_of_mem_replicate h) (by decide)

theorem alphabetPrefix_longText : (alphabetPrefix longText).length = 5726623061 := by
  have hall : alphabetPrefix longText = List.replicate 5726623061 65 := by
    rw [alphabetPrefix, longText, List.takeWhile_replicate, if_pos (by decide)]
  rw [hall, List.length_replicate]

/-- Three bytes are allocated for them, and 2^30 stored. -/
theorem longText_overflows : ¬ Fits longText ∧
    ∃ outSz count stores, base64decodeLen longText.cells = some outSz ∧ outSz.toInt = 3 ∧
      base64decode longText.cells = some (count, stores) ∧ stores.length = 2 ^ 30 := by
  obtain ⟨k, hk, hklo, hkhi⟩ := allocation_spec 5726623061
  obtain ⟨l, hl, hllo, hlhi⟩ := toInt_ofNat_spec 5726623061
  obtain ⟨count, w, hrun, hlen⟩ := base64decode_stores (stops_cells longText)
  rw [alphabetPrefix_longText] at hlen
  have hsize := base64decodeLen_cells longText
  rw [alphabetPrefix_longText] at hsize
  constructor
  · rw [fits_iff_not_wraps, alphabetPrefix_longText]
    decide
  · refine ⟨_, _, _, hsize, by omega, hrun, ?_⟩
    rw [storesAt_length]
    omega

theorem fits_of_lt {s : CStr} (hn : (alphabetPrefix s).length < 2 ^ 32) : Fits s := by
  rw [fits_iff_not_wraps, Wraps]
  omega

/-- A block is allocated, and what is stored does not fit in it. -/
def Overflows (calloc : Bool) (s : CStr) : Prop := calloc = true ∧ ¬ Fits s

theorem not_overflows_of_lt {s : CStr} (hn : (alphabetPrefix s).length < 2 ^ 32) (calloc : Bool) :
    ¬ Overflows calloc s :=
  fun h => h.2 (fits_of_lt hn)

/-- Every test of `u_b64url_decode` is passed, `count` being what the decoder
returns. -/
structure Passes (calloc : Bool) (s : CStr) (count : Int32) : Prop where
  nonempty : s.length ≠ 0
  sized : 0 < allocation (alphabetPrefix s).length
  allocated : calloc = true
  decoded : 0 < count

theorem uB64urlDecode_spec {s : CStr} {count : Int32} {w : List UInt8}
    (hrun : base64decode s.cells = some (count, storesAt w)) {calloc : Bool}
    (hfits : ¬ Overflows calloc s) (pout : Option (Ref Block)) (poutSz : Nat) :
    Runs 0 (uB64urlDecode calloc (some s) pout poutSz) (fun r own =>
      ¬ Passes calloc s count ∧ r = ⟨-1, pout, poutSz⟩ ∧ own = 0 ∨
        Passes calloc s count ∧ w.length ≤ (allocation (alphabetPrefix s).length).toNatClampNeg ∧
          ∃ id, own = {(Kind.keyBuffer, id)} ∧
            r = ⟨0, some ⟨id, (allocation (alphabetPrefix s).length).toNatClampNeg,
              Buffer.write (fun _ => 0) w⟩, count.toNatClampNeg⟩) := by
  simp only [uB64urlDecode]
  by_cases hs : s.length = 0
  · rw [if_pos hs]
    exact Runs.pure _ (Or.inl ⟨fun h => h.nonempty hs, rfl, rfl⟩)
  rw [if_neg hs]
  apply Runs.bindLift (base64decodeLen_cells s)
  by_cases hsize : allocation (alphabetPrefix s).length ≤ 0
  · rw [if_pos hsize]
    exact Runs.pure _ (Or.inl ⟨fun h => Int32.not_lt.mpr hsize h.sized, rfl, rfl⟩)
  rw [if_neg hsize]
  by_cases hcalloc : calloc = false
  · rw [if_pos hcalloc]
    exact Runs.pure _ (Or.inl ⟨fun h => absurd h.allocated (by simp [hcalloc]), rfl, rfl⟩)
  rw [if_neg hcalloc]
  rw [Bool.not_eq_false] at hcalloc
  have hfit : Fits s := not_not.mp fun h => hfits ⟨hcalloc, h⟩
  have hlen := hfit _ _ _ hs (base64decodeLen_cells s) (Int32.not_le.mp hsize) hrun
  rw [storesAt_length] at hlen
  have hfill := fill_storesAt (allocation (alphabetPrefix s).length).toNatClampNeg w
  rw [if_pos hlen] at hfill
  refine Runs.bindAcquire _ fun id => Runs.bindLift hrun (Runs.bindLift hfill ?_)
  by_cases hcount : count ≤ 0
  · simp only [if_pos hcount]
    exact Runs.bindRelease rfl (Runs.pure _ (Or.inl ⟨fun h => Int32.not_lt.mpr hcount h.decoded, rfl, rfl⟩))
  · simp only [if_neg hcount]
    have hpasses : Passes calloc s count := ⟨hs, Int32.not_le.mp hsize, hcalloc, Int32.not_le.mp hcount⟩
    exact Runs.pure _ (Or.inr ⟨hpasses, hlen, id, rfl, rfl⟩)

/-- A text that does not fit is stored past the end of its block. -/
theorem uB64urlDecode_overflow {s : CStr} {calloc : Bool} (h : Overflows calloc s)
    (pout : Option (Ref Block)) (poutSz : Nat) (L : Ledger Kind) :
    uB64urlDecode calloc (some s) pout poutSz L = none := by
  obtain ⟨rfl, hnot⟩ := h
  have hs : s.length ≠ 0 := by
    intro hs
    exact hnot fun _ _ _ hne => absurd hs hne
  obtain ⟨count, w, hrun, hlen⟩ := base64decode_stores (stops_cells s)
  rw [fits_iff_sizes hs, Classical.not_imp, ← hlen] at hnot
  obtain ⟨hpos, hlong⟩ := hnot
  change ¬ w.length ≤ (allocation (alphabetPrefix s).length).toNatClampNeg at hlong
  have hsize : ¬ allocation (alphabetPrefix s).length ≤ 0 :=
    Int32.not_le.mpr (Int32.lt_iff_toInt_lt.mpr hpos)
  have hfill := fill_storesAt (allocation (alphabetPrefix s).length).toNatClampNeg w
  rw [if_neg hlong] at hfill
  simp only [uB64urlDecode, if_neg hs, base64decodeLen_cells, Exec.lift_some, pure_bind, if_neg hsize, hrun,
    hfill]
  rfl

theorem uB64urlDecode_runs {s : CStr} {calloc : Bool} (hfits : ¬ Overflows calloc s)
    (pout : Option (Ref Block)) (poutSz : Nat) :
    Runs 0 (uB64urlDecode calloc (some s) pout poutSz) (fun r own =>
      r = ⟨-1, pout, poutSz⟩ ∧ own = 0 ∨
        calloc = true ∧ ∃ out, r.ret = 0 ∧ r.pout = some out ∧ own = {(Kind.keyBuffer, out.id)}) := by
  obtain ⟨count, w, hrun, -⟩ := base64decode_stores (stops_cells s)
  apply (uB64urlDecode_spec hrun hfits pout poutSz).mono
  rintro r own (⟨-, hr⟩ | ⟨hpasses, -, id, rfl, rfl⟩)
  · exact Or.inl hr
  · exact Or.inr ⟨hpasses.allocated, _, rfl, rfl, rfl⟩

theorem uB64urlDecode_eq_none {s : CStr} {calloc : Bool} {pout : Option (Ref Block)} {poutSz : Nat}
    {L : Ledger Kind} : uB64urlDecode calloc (some s) pout poutSz L = none ↔ Overflows calloc s := by
  constructor
  · intro hnone
    by_contra hfits
    obtain ⟨r, L', own, hrun, -⟩ := (uB64urlDecode_runs hfits pout poutSz).run L
    rw [hnone] at hrun
    cases hrun
  · intro h
    exact uB64urlDecode_overflow h pout poutSz L

theorem not_overflows_of_run {s : CStr} {calloc : Bool} {pout : Option (Ref Block)} {poutSz : Nat}
    {L L' : Ledger Kind} {r : DecodeResult}
    (hrun : uB64urlDecode calloc (some s) pout poutSz L = some (r, L')) : ¬ Overflows calloc s := by
  intro h
  rw [uB64urlDecode_overflow h] at hrun
  cases hrun

def decodedBlock (p : List UInt8) : Block :=
  ⟨(p.length + 3) / 4 * 3 + 1, Buffer.write (fun _ => 0) (decode p ++ [0])⟩

theorem decode_length_le_size (p : List UInt8) : (decode p).length ≤ (decodedBlock p).size := by
  rw [decode_length]
  change 6 * p.length / 8 ≤ (p.length + 3) / 4 * 3 + 1
  omega

theorem decodedBlock_mem {p : List UInt8} {j : Nat} (hj : j < (decode p).length) :
    (decodedBlock p).mem j = (decode p)[j] := by
  have hlt : j < (decode p ++ [0]).length := by
    rw [List.length_append]
    omega
  exact (Buffer.write_lt (fun _ => 0) _ hlt).trans (List.getElem_append_left hj)

theorem decodedBlock_window (p : List UInt8) :
    (decodedBlock p).mem.window (decode p).length = decode p :=
  Buffer.window_write _ _ _

theorem uB64urlDecode_small {s : CStr} (hn : (alphabetPrefix s).length ≤ 2 ^ 31 - 4)
    (pout : Option (Ref Block)) (poutSz : Nat) :
    Runs 0 (uB64urlDecode true (some s) pout poutSz) (fun r own =>
      (alphabetPrefix s).length ≤ 1 ∧ r = ⟨-1, pout, poutSz⟩ ∧ own = 0 ∨
        2 ≤ (alphabetPrefix s).length ∧ ∃ id, own = {(Kind.keyBuffer, id)} ∧
          r = ⟨0, some ⟨id, decodedBlock (alphabetPrefix s)⟩, (decode (alphabetPrefix s)).length⟩) := by
  have halloc := allocation_pos hn
  obtain ⟨count, hrun, hcount⟩ := base64decode_small (stops_cells s) hn
  have hlen := decode_length (alphabetPrefix s)
  have hpos : 0 < count ↔ 2 ≤ (alphabetPrefix s).length := by
    rw [Int32.lt_iff_toInt_lt, hcount]
    change (0 : Int) < _ ↔ _
    omega
  apply (uB64urlDecode_spec hrun (not_overflows_of_lt (by omega) true) pout poutSz).mono
  rintro r own (⟨hfails, hr⟩ | ⟨hpasses, -, id, rfl, rfl⟩)
  · refine Or.inl ⟨?_, hr⟩
    by_contra hlong
    have hne : s.length ≠ 0 := fun h => hlong (by simp [alphabetPrefix_empty h])
    have hsized : 0 < allocation (alphabetPrefix s).length := by
      rw [Int32.lt_iff_toInt_lt, halloc]
      change (0 : Int) < _
      omega
    exact hfails ⟨hne, hsized, rfl, hpos.mpr (by omega)⟩
  · refine Or.inr ⟨hpos.mp hpasses.decoded, id, rfl, ?_⟩
    have hsize : (allocation (alphabetPrefix s).length).toNatClampNeg =
        ((alphabetPrefix s).length + 3) / 4 * 3 + 1 := by
      change Int.toNat (Int32.toInt _) = _
      omega
    have hcount' : count.toNatClampNeg = (decode (alphabetPrefix s)).length := by
      change Int.toNat (Int32.toInt _) = _
      omega
    rw [hsize, hcount', decodedBlock]

theorem uB64urlDecode_accepts {s : CStr} (htwo : 2 ≤ (alphabetPrefix s).length)
    (hn : (alphabetPrefix s).length ≤ 2 ^ 31 - 4) (pout : Option (Ref Block)) (poutSz : Nat)
    (L : Ledger Kind) :
    ∃ r L', uB64urlDecode true (some s) pout poutSz L = some (r, L') ∧ r.ret = 0 := by
  obtain ⟨r, L', own, hrun, -, ⟨hle, -⟩ | ⟨-, id, -, rfl⟩⟩ := (uB64urlDecode_small hn pout poutSz).run L
  · omega
  · exact ⟨_, L', hrun, rfl⟩

theorem uB64urlDecode_accepted {s : CStr} (hn : (alphabetPrefix s).length ≤ 2 ^ 31 - 4)
    {calloc : Bool} {pout : Option (Ref Block)} {poutSz : Nat} {L L' : Ledger Kind} {r : DecodeResult}
    (hrun : uB64urlDecode calloc (some s) pout poutSz L = some (r, L')) (hret : r.ret = 0) :
    2 ≤ (alphabetPrefix s).length ∧ ∃ id,
      r = ⟨0, some ⟨id, decodedBlock (alphabetPrefix s)⟩, (decode (alphabetPrefix s)).length⟩ := by
  cases calloc with
  | false =>
      have hfits : ¬ Overflows false s := not_overflows_of_lt (by omega) false
      obtain ⟨own, -, ⟨rfl, -⟩ | ⟨hcalloc, -⟩⟩ := (uB64urlDecode_runs hfits pout poutSz).result hrun
      · exact absurd hret (by simp)
      · cases hcalloc
  | true =>
      obtain ⟨own, -, ⟨-, rfl, -⟩ | ⟨htwo, id, -, hr⟩⟩ :=
        (uB64urlDecode_small hn pout poutSz).result hrun
      · exact absurd hret (by simp)
      · exact ⟨htwo, id, hr⟩

theorem uB64urlDecode_rejects {s : CStr} (hlo : 2 ^ 31 - 4 < (alphabetPrefix s).length)
    (hhi : (alphabetPrefix s).length < 2 ^ 32) (calloc : Bool) (pout : Option (Ref Block))
    (poutSz : Nat) : Runs 0 (uB64urlDecode calloc (some s) pout poutSz) (fun r own =>
      r = ⟨-1, pout, poutSz⟩ ∧ own = 0) := by
  obtain ⟨count, w, hrun, hcount⟩ := base64decode_rejects (stops_cells s) hlo hhi
  apply (uB64urlDecode_spec hrun (not_overflows_of_lt hhi calloc) pout poutSz).mono
  rintro r own (⟨-, hr⟩ | ⟨hpasses, -⟩)
  · exact hr
  · exact absurd hpasses.decoded (Int32.not_lt.mpr (Int32.le_iff_toInt_le.mpr hcount))

def observed (r : DecodeResult) : Int × Option Block × Nat :=
  (r.ret, r.pout.map Ref.val, r.poutSz)

/-- The decoding of `s` is that of its alphabet prefix: refused below two
characters, floor(6n/8) bytes cut from the concatenated values otherwise, and
nothing after the prefix matters. -/
theorem uB64urlDecode_bits (s : CStr) (hn : (alphabetPrefix s).length ≤ 2 ^ 31 - 4)
    (pout : Option (Ref Block)) (poutSz : Nat) (L : Ledger Kind) :
    ∃ r L', uB64urlDecode true (some s) pout poutSz L = some (r, L') ∧
      (r.ret = 0 ∨ r.ret = -1) ∧
      ((alphabetPrefix s).length ≤ 1 → r.ret = -1) ∧
      (2 ≤ (alphabetPrefix s).length → (alphabetPrefix s).length % 4 ≠ 1 →
        (s.bytes.drop (alphabetPrefix s).length = [] ∨
          (s.bytes.drop (alphabetPrefix s).length).head? = some 61) → r.ret = 0) ∧
      (r.ret = 0 → r.poutSz = 6 * (alphabetPrefix s).length / 8 ∧
        ∃ out, r.pout = some out ∧ r.poutSz ≤ out.val.size ∧
          ∀ j < 6 * (alphabetPrefix s).length / 8, (out.val.mem j).toNat =
            BitString.ofBits (((bits (alphabetPrefix s)).drop (8 * j)).take 8)) ∧
      ∀ t M r' M', alphabetPrefix t = alphabetPrefix s →
        uB64urlDecode true (some t) pout poutSz M = some (r', M') →
        observed r' = observed r := by
  obtain ⟨r, L', own, hrun, -, hr⟩ := (uB64urlDecode_small hn pout poutSz).run L
  have hother : ∀ t M r' M', alphabetPrefix t = alphabetPrefix s →
      uB64urlDecode true (some t) pout poutSz M = some (r', M') →
      observed r' = observed r := by
    intro t M r' M' ht hrun'
    obtain ⟨own', -, hr'⟩ := (uB64urlDecode_small (by rw [ht]; exact hn) pout poutSz).result hrun'
    rw [ht] at hr'
    rcases hr with ⟨hle, rfl, -⟩ | ⟨hge, id, -, rfl⟩ <;>
      rcases hr' with ⟨hle', rfl, -⟩ | ⟨hge', id', -, rfl⟩
    · rfl
    · omega
    · omega
    · rfl
  refine ⟨r, L', hrun, ?_, ?_, ?_, ?_, hother⟩
  · rcases hr with ⟨-, rfl, -⟩ | ⟨-, id, -, rfl⟩
    · exact Or.inr rfl
    · exact Or.inl rfl
  · intro hle
    rcases hr with ⟨-, rfl, -⟩ | ⟨hge, id, -, rfl⟩
    · rfl
    · omega
  · intro hge _ _
    rcases hr with ⟨hle, rfl, -⟩ | ⟨-, id, -, rfl⟩
    · omega
    · rfl
  · intro hret
    rcases hr with ⟨-, rfl, -⟩ | ⟨-, id, -, rfl⟩
    · exact absurd hret (by simp)
    · refine ⟨decode_length _, _, rfl, decode_length_le_size _, fun j hj => ?_⟩
      rw [← decode_length] at hj
      rw [decodedBlock_mem hj]
      exact decode_byte hj

theorem uB64urlDecode_bits_three :
    ∃ r L', uB64urlDecode true (some (lit "Y2k=")) none 0 Ledger.empty = some (r, L') ∧
      r.ret = 0 ∧ r.poutSz = 2 := by
  have hn : (alphabetPrefix (lit "Y2k=")).length = 3 := by decide +kernel
  have hend : ((lit "Y2k=").bytes.drop 3).head? = some 61 := by decide +kernel
  obtain ⟨r, L', hrun, -, -, hret, hvalue, -⟩ :=
    uB64urlDecode_bits (lit "Y2k=") (by omega) none 0 Ledger.empty
  rw [hn] at hret hvalue
  have hzero : r.ret = 0 := hret (by omega) (by omega) (Or.inr hend)
  exact ⟨r, L', hrun, hzero, (hvalue hzero).1⟩

example : (uB64urlDecode true (some (lit "_w==(())")) none 0 Ledger.empty).map
    (fun p => (p.1.ret, p.1.poutSz, p.1.pout.map (fun b => b.val.mem.window 1))) =
      some (0, 1, some [255]) := by
  decide +kernel

end CEar.B64urlDecode
