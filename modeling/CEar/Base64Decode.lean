import CEar.Base64
import CEar.Base64Url
import CEar.MachineInt

namespace CEar.Base64Decode

open Base64 Base64Url CString Loop MachineInt

theorem pr2six_eq : ∀ c : UInt8, pr2six c = (value c).getD 64 :=
  forall_byte (by decide +kernel)

theorem pr2six_of_isSymbol {c : UInt8} (h : isSymbol c = true) :
    pr2six c = (value c).getD 0 ∧ pr2six c ≤ 63 := by
  obtain ⟨v, hv⟩ := Option.isSome_iff_exists.mp h
  have hlt : v < 64 := value_lt_of_byte c v hv
  rw [pr2six_eq, hv, Option.getD_some, Option.getD_some]
  exact ⟨rfl, by omega⟩

theorem pr2six_of_not_isSymbol {c : UInt8} (h : isSymbol c = false) : ¬ pr2six c ≤ 63 := by
  have hnone : value c = none := by simpa [isSymbol] using h
  rw [pr2six_eq, hnone]
  decide

/-- What the scan of `bufcoded` passes over: `p` is followed by a byte outside
the alphabet. -/
structure Stops (bufcoded p : List UInt8) : Prop where
  symbols : ∀ c ∈ p, isSymbol c = true
  stop : ∃ c rest, bufcoded = p ++ c :: rest ∧ isSymbol c = false

def alphabetPrefix (s : CStr) : List UInt8 := s.bytes.takeWhile isSymbol

theorem stops_cells (s : CStr) : Stops s.cells (alphabetPrefix s) where
  symbols := fun c hc => List.mem_takeWhile_imp hc
  stop := by
    have hsplit : s.cells = alphabetPrefix s ++ (s.bytes.dropWhile isSymbol ++ [0]) := by
      rw [← List.append_assoc, alphabetPrefix, List.takeWhile_append_dropWhile, CStr.cells]
    cases hrest : s.bytes.dropWhile isSymbol with
    | nil => exact ⟨0, [], by rw [hsplit, hrest]; rfl, rfl⟩
    | cons c cs =>
        have hc := List.head_dropWhile_not isSymbol (l := s.bytes) (by simp [hrest])
        simp only [hrest, List.head_cons] at hc
        exact ⟨c, cs ++ [0], by rw [hsplit, hrest]; rfl, hc⟩

theorem scan_eq {bufcoded p : List UInt8} (h : Stops bufcoded p) :
    scan bufcoded = some (p.length + 1) := by
  obtain ⟨c, rest, rfl, hc⟩ := h.stop
  refine run_eq (fun i => i ≤ p.length) (fun _ => p.length + 1) (fun i => p.length - i) ?_ _ 0
    (Nat.zero_le _) (by simp only [List.length_append]; omega)
  intro i hi
  rcases Nat.lt_or_eq_of_le hi with hlt | rfl
  · have hread : (p ++ c :: rest)[i]? = some p[i] := by
      rw [List.getElem?_append_left hlt, List.getElem?_eq_getElem hlt]
    have hle := (pr2six_of_isSymbol (h.symbols _ (List.getElem_mem hlt))).2
    exact Or.inl ⟨i + 1, by simp [scanBody, hread, hle], hlt, rfl, by omega⟩
  · exact Or.inr (by simp [scanBody, pr2six_of_not_isSymbol hc])

def allocation (n : Nat) : Int32 := (((UInt64.ofNat n + 3) / 4) * 3 + 1).toUInt32.toInt32

theorem base64decodeLen_eq {bufcoded p : List UInt8} (h : Stops bufcoded p) :
    base64decodeLen bufcoded = some (allocation p.length) := by
  simp [base64decodeLen, scan_eq h, allocation]

def storesAt (w : List UInt8) : List (Nat × UInt8) := w.mapIdx (fun i v => (i, v))

structure Wrote (d : Decoder) (w : List UInt8) : Prop where
  stores : d.stores = storesAt w
  bufout : d.bufout = w.length

/-- The characters `q` are still to be decoded, and `bufin` points at them. -/
structure Reads (bufcoded : List UInt8) (d : Decoder) (q : List UInt8) : Prop where
  ahead : ∃ rest, bufcoded.drop d.bufin = q ++ rest
  symbols : ∀ c ∈ q, isSymbol c = true
  count : d.nprbytes.toInt = q.length

@[simp] theorem put_bufin (d : Decoder) (v : UInt8) : (d.put v).bufin = d.bufin := rfl

@[simp] theorem put_nprbytes (d : Decoder) (v : UInt8) : (d.put v).nprbytes = d.nprbytes := rfl

theorem Wrote.put {d : Decoder} {w : List UInt8} (h : Wrote d w) (v : UInt8) :
    Wrote (d.put v) (w ++ [v]) where
  stores := by rw [Decoder.put, h.stores, h.bufout, storesAt, storesAt, List.mapIdx_concat]
  bufout := by rw [Decoder.put, h.bufout, List.length_append, List.length_singleton]

theorem Reads.put {bufcoded q : List UInt8} {d : Decoder} (h : Reads bufcoded d q) (v : UInt8) :
    Reads bufcoded (d.put v) q :=
  ⟨h.ahead, h.symbols, h.count⟩

theorem Reads.six {bufcoded q : List UInt8} {d : Decoder} (h : Reads bufcoded d q) {k : Nat}
    {c : UInt8} (hk : q[k]? = some c) : d.six bufcoded k = some ((value c).getD 0) := by
  obtain ⟨rest, hdrop⟩ := h.ahead
  have hread : bufcoded[d.bufin + k]? = some c := by
    rw [← List.getElem?_drop, hdrop, List.getElem?_append_left (List.getElem?_eq_some_iff.mp hk).1, hk]
  rw [Decoder.six, hread, Option.map_some,
    (pr2six_of_isSymbol (h.symbols c (List.mem_of_getElem? hk))).1]

/-- The shifts of the source put together bits that do not overlap. -/
theorem shift_or (a : Nat) {b i : Nat} (hb : b < 2 ^ i) : a <<< i ||| b = a * 2 ^ i + b := by
  rw [← Nat.shiftLeft_add_eq_or_of_lt hb, Nat.shiftLeft_eq]

theorem Reads.putFirst {bufcoded q : List UInt8} {d : Decoder} {a b : UInt8}
    (h : Reads bufcoded d (a :: b :: q)) :
    d.putFirst bufcoded = some (d.put (firstByte ((value a).getD 0) ((value b).getD 0))) := by
  have hb := getD_value_lt b
  rw [Decoder.putFirst, h.six (k := 0) rfl, h.six (k := 1) rfl]
  simp only [Option.bind_eq_bind, Option.bind_some, pure, Nat.shiftRight_eq_div_pow]
  rw [shift_or _ (by omega)]
  rfl

theorem Reads.putSecond {bufcoded q : List UInt8} {d : Decoder} {a b c : UInt8}
    (h : Reads bufcoded d (a :: b :: c :: q)) :
    d.putSecond bufcoded = some (d.put (secondByte ((value b).getD 0) ((value c).getD 0))) := by
  have hc := getD_value_lt c
  rw [Decoder.putSecond, h.six (k := 1) rfl, h.six (k := 2) rfl]
  simp only [Option.bind_eq_bind, Option.bind_some, pure, Nat.shiftRight_eq_div_pow]
  rw [shift_or _ (by omega)]
  rfl

theorem Reads.putThird {bufcoded q : List UInt8} {d : Decoder} {a b c e : UInt8}
    (h : Reads bufcoded d (a :: b :: c :: e :: q)) :
    d.putThird bufcoded = some (d.put (thirdByte ((value c).getD 0) ((value e).getD 0))) := by
  have he := getD_value_lt e
  rw [Decoder.putThird, h.six (k := 2) rfl, h.six (k := 3) rfl]
  simp only [Option.bind_eq_bind, Option.bind_some, pure]
  rw [shift_or _ (by omega)]
  rfl

theorem Reads.gt_iff {bufcoded q : List UInt8} {d : Decoder} (h : Reads bufcoded d q) {k : Int32}
    {n : Nat} (hk : k.toInt = n) : d.nprbytes > k ↔ n < q.length := by
  rw [gt_iff_lt, Int32.lt_iff_toInt_lt, h.count, hk]
  exact Int.ofNat_lt

theorem body_done {bufcoded q : List UInt8} {d : Decoder} (h : Reads bufcoded d q)
    (hq : q.length ≤ 4) : d.body bufcoded = some (.done d) := by
  have hle : ¬ d.nprbytes > 4 := by
    rw [h.gt_iff (n := 4) rfl]
    exact Nat.not_lt.mpr hq
  rw [Decoder.body, if_neg hle]
  rfl

def advance (d : Decoder) : Decoder :=
  { d with bufin := d.bufin + 4, nprbytes := d.nprbytes - 4 }

theorem Wrote.advance {d : Decoder} {w : List UInt8} (h : Wrote d w) : Wrote (advance d) w :=
  ⟨h.stores, h.bufout⟩

theorem Reads.advance {bufcoded q : List UInt8} {d : Decoder} {a b c e : UInt8}
    (h : Reads bufcoded d (a :: b :: c :: e :: q)) : Reads bufcoded (advance d) q where
  ahead := by
    obtain ⟨rest, hdrop⟩ := h.ahead
    refine ⟨rest, ?_⟩
    rw [Base64Decode.advance, ← List.drop_drop, hdrop]
    rfl
  symbols := fun x hx => h.symbols x (by simp [hx])
  count := by
    have hcount : d.nprbytes.toInt = q.length + 4 := h.count
    have hmax := d.nprbytes.toInt_lt
    rw [Base64Decode.advance, Int32.toInt_sub, hcount]
    change ((q.length : Int) + 4 - 4).bmod (2 ^ 32) = q.length
    rw [wrap_eq] <;> omega

theorem body_next {bufcoded q w : List UInt8} {d : Decoder} {a b c e : UInt8}
    (h : Reads bufcoded d (a :: b :: c :: e :: q)) (hq : q ≠ []) (hw : Wrote d w) :
    ∃ d' w', d.body bufcoded = some (.next d') ∧ Reads bufcoded d' q ∧ Wrote d' w' ∧
      w' ++ decode q = w ++ decode (a :: b :: c :: e :: q) := by
  have hgt : d.nprbytes > 4 := by
    rw [h.gt_iff (n := 4) rfl]
    have hlen : 0 < q.length := List.length_pos_iff.mpr hq
    simp only [List.length_cons]
    omega
  have hbody : d.body bufcoded = some (.next (advance
      (((d.put (firstByte ((value a).getD 0) ((value b).getD 0))).put
        (secondByte ((value b).getD 0) ((value c).getD 0))).put
        (thirdByte ((value c).getD 0) ((value e).getD 0))))) := by
    rw [Decoder.body, if_pos hgt, h.putFirst, Option.bind_eq_bind, Option.bind_some,
      (h.put _).putSecond, Option.bind_some, ((h.put _).put _).putThird]
    rfl
  refine ⟨_, _, hbody, (((h.put _).put _).put _).advance, (((hw.put _).put _).put _).advance, ?_⟩
  rw [decode_four]
  simp

theorem loop_spec {bufcoded q w : List UInt8} {d : Decoder} (h : Reads bufcoded d q) (hq : q ≠ [])
    (hw : Wrote d w) {fuel : Nat} (hfuel : q.length < fuel) :
    ∃ d', run (Decoder.body bufcoded) fuel d = some d' ∧ ∃ q' w', Reads bufcoded d' q' ∧
      q' ≠ [] ∧ q'.length ≤ 4 ∧ q'.length % 4 = q.length % 4 ∧ Wrote d' w' ∧
      w' ++ decode q' = w ++ decode q := by
  refine run_total (fun d' => ∃ q' w', Reads bufcoded d' q' ∧ q' ≠ [] ∧
    q'.length % 4 = q.length % 4 ∧ Wrote d' w' ∧ w' ++ decode q' = w ++ decode q) _
    (fun d' => d'.nprbytes.toInt.toNat) ?_ fuel d ⟨q, w, h, hq, rfl, hw, rfl⟩
    (by rw [h.count]; exact_mod_cast hfuel)
  rintro d' ⟨q', w', hr, hne, hmod, hwrote, htotal⟩
  rcases Nat.lt_or_ge 4 q'.length with hlong | hshort
  · obtain ⟨a, b, c, e, q'', rfl⟩ : ∃ a b c e q'', q' = a :: b :: c :: e :: q'' := by
      match q', hlong with
      | a :: b :: c :: e :: q'', _ => exact ⟨a, b, c, e, q'', rfl⟩
    have hne' : q'' ≠ [] := by
      rintro rfl
      simp at hlong
    obtain ⟨d'', w'', hstep, hr', hwrote', htotal'⟩ := body_next hr hne' hwrote
    refine Or.inl ⟨d'', hstep, ⟨q'', w'', hr', hne', ?_, hwrote', htotal'.trans htotal⟩, ?_⟩
    · simp only [List.length_cons] at hmod
      omega
    · rw [hr.count, hr'.count]
      simp
      omega
  · exact Or.inr ⟨d', body_done hr hshort, q', w', hr, hne, hshort, hmod, hwrote, htotal⟩

theorem tail_spec {bufcoded q w : List UInt8} {d : Decoder} (h : Reads bufcoded d q) (hq : q ≠ [])
    (hshort : q.length ≤ 4) (hw : Wrote d w) :
    ∃ d', d.tail bufcoded = some d' ∧ d'.nprbytes = d.nprbytes ∧ Wrote d' (w ++ decode q ++ [0]) := by
  have h1 := h.gt_iff (k := 1) (n := 1) rfl
  have h2 := h.gt_iff (k := 2) (n := 2) rfl
  have h3 := h.gt_iff (k := 3) (n := 3) rfl
  match q, hq, hshort with
  | [a], _, _ =>
      have htail : d.tail bufcoded = some (d.put 0) := by simp [Decoder.tail, h1, h2, h3]
      refine ⟨_, htail, rfl, ?_⟩
      rw [decode_one, List.append_nil]
      exact hw.put 0
  | [a, b], _, _ =>
      have htail : d.tail bufcoded =
          some ((d.put (firstByte ((value a).getD 0) ((value b).getD 0))).put 0) := by
        simp [Decoder.tail, h1, h2, h3, h.putFirst]
      refine ⟨_, htail, rfl, ?_⟩
      rw [decode_two]
      exact (hw.put _).put 0
  | [a, b, c], _, _ =>
      have htail : d.tail bufcoded =
          some (((d.put (firstByte ((value a).getD 0) ((value b).getD 0))).put
            (secondByte ((value b).getD 0) ((value c).getD 0))).put 0) := by
        simp [Decoder.tail, h1, h2, h3, h.putFirst, (h.put _).putSecond]
      refine ⟨_, htail, rfl, ?_⟩
      rw [decode_three]
      simpa using ((hw.put _).put _).put 0
  | [a, b, c, e], _, _ =>
      have htail : d.tail bufcoded =
          some ((((d.put (firstByte ((value a).getD 0) ((value b).getD 0))).put
            (secondByte ((value b).getD 0) ((value c).getD 0))).put
            (thirdByte ((value c).getD 0) ((value e).getD 0))).put 0) := by
        simp [Decoder.tail, h1, h2, h3, h.putFirst, (h.put _).putSecond, ((h.put _).put _).putThird]
      refine ⟨_, htail, rfl, ?_⟩
      rw [decode_four, decode_nil]
      simpa using (((hw.put _).put _).put _).put 0

theorem tail_nonpos {bufcoded : List UInt8} {d : Decoder} (h : d.nprbytes.toInt ≤ 0) :
    d.tail bufcoded = some (d.put 0) := by
  have hle (k : Int32) (hk : 0 ≤ k.toInt) : ¬ d.nprbytes > k := by
    rw [gt_iff_lt, Int32.lt_iff_toInt_lt]
    omega
  simp [Decoder.tail, hle 1 (by decide), hle 2 (by decide), hle 3 (by decide)]

/-- The count `Base64decode` returns, from the number of characters and what
the loop left of it. -/
def returned (nprbytes left : Int32) : Int32 := ((nprbytes + 3) / 4) * 3 - ((4 - left) &&& 3)

/-- The loop, entered with a positive count, and what follows it. -/
theorem decoder_pos {bufcoded p : List UInt8} (h : Stops bufcoded p)
    (hm : 0 < (Int32.ofNat p.length).toInt) :
    ∃ d d', run (Decoder.body bufcoded) (bufcoded.length + 1) ⟨0, 0, Int32.ofNat p.length, []⟩ = some d ∧
      d.tail bufcoded = some d' ∧ d'.nprbytes = d.nprbytes ∧
      0 < d.nprbytes.toInt ∧ d.nprbytes.toInt ≤ 4 ∧
      d.nprbytes.toInt % 4 = (Int32.ofNat p.length).toInt % 4 ∧
      d'.stores = storesAt (decode (p.take (Int32.ofNat p.length).toInt.toNat) ++ [0]) := by
  set m := (Int32.ofNat p.length).toInt with hmdef
  obtain ⟨c, rest, hsplit, -⟩ := h.stop
  have hmle : m.toNat ≤ p.length := by
    obtain ⟨k, hk, hlo, hhi⟩ := toInt_ofNat_spec p.length
    omega
  have hlen : (p.take m.toNat).length = m.toNat := by rw [List.length_take, Nat.min_eq_left hmle]
  have hreads : Reads bufcoded ⟨0, 0, Int32.ofNat p.length, []⟩ (p.take m.toNat) := by
    refine ⟨⟨p.drop m.toNat ++ c :: rest, ?_⟩, fun x hx => h.symbols x (List.mem_of_mem_take hx), ?_⟩
    · rw [List.drop_zero, hsplit, ← List.append_assoc, List.take_append_drop]
    · rw [hlen, ← hmdef]
      omega
  have hne : p.take m.toNat ≠ [] := by
    rw [← List.length_pos_iff, hlen]
    omega
  have hwrote₀ : Wrote ⟨0, 0, Int32.ofNat p.length, []⟩ [] := ⟨rfl, rfl⟩
  have hfuel : (p.take m.toNat).length < bufcoded.length + 1 := by
    rw [hlen, hsplit, List.length_append]
    omega
  obtain ⟨d, hrun, q, w, hr, hq, hshort, hmod, hwrote, htotal⟩ :=
    loop_spec hreads hne hwrote₀ hfuel
  obtain ⟨d', htail, hleft, hwrote'⟩ := tail_spec hr hq hshort hwrote
  rw [htotal, List.nil_append] at hwrote'
  have hpos : 0 < q.length := List.length_pos_iff.mpr hq
  refine ⟨d, d', hrun, htail, hleft, ?_, ?_, ?_, hwrote'.stores⟩
  · rw [hr.count]
    omega
  · rw [hr.count]
    omega
  · rw [hr.count]
    omega

theorem decoder_nonpos {d : Decoder} (hm : d.nprbytes.toInt ≤ 0) (bufcoded : List UInt8) (fuel : Nat) :
    run (Decoder.body bufcoded) (fuel + 1) d = some d ∧ d.tail bufcoded = some (d.put 0) := by
  have hgt : ¬ d.nprbytes > 4 := by
    rw [gt_iff_lt, Int32.lt_iff_toInt_lt]
    change ¬ (4 : Int) < _
    omega
  have hbody : d.body bufcoded = some (.done d) := by
    rw [Decoder.body, if_neg hgt]
    rfl
  exact ⟨run_done hbody fuel, tail_nonpos hm⟩

theorem base64decode_pos {bufcoded p : List UInt8} (h : Stops bufcoded p)
    (hm : 0 < (Int32.ofNat p.length).toInt) :
    ∃ left : Int32, 0 < left.toInt ∧ left.toInt ≤ 4 ∧
      left.toInt % 4 = (Int32.ofNat p.length).toInt % 4 ∧
      base64decode bufcoded = some (returned (Int32.ofNat p.length) left,
        storesAt (decode (p.take (Int32.ofNat p.length).toInt.toNat) ++ [0])) := by
  obtain ⟨d, d', hrun, htail, hleft, hlo, hhi, hmod, hstores⟩ := decoder_pos h hm
  refine ⟨d.nprbytes, hlo, hhi, hmod, ?_⟩
  simp [base64decode, scan_eq h, hrun, htail, hstores, returned, hleft]

theorem base64decode_nonpos {bufcoded p : List UInt8} (h : Stops bufcoded p)
    (hm : (Int32.ofNat p.length).toInt ≤ 0) :
    base64decode bufcoded = some (returned (Int32.ofNat p.length) (Int32.ofNat p.length),
      storesAt [0]) := by
  obtain ⟨hrun, htail⟩ := decoder_nonpos (d := ⟨0, 0, Int32.ofNat p.length, []⟩) hm bufcoded bufcoded.length
  simp [base64decode, scan_eq h, hrun, htail, returned, storesAt]
  rfl

end CEar.Base64Decode
