import CEar.Utils

namespace CEar.Strlcpy

open CString Loop Utils

variable {src : List UInt8} {s : CStr}

theorem read_lt (hsrc : s.cells <+: src) {i : Nat} (hi : i < s.length) :
    ∃ c, src[i]? = some c ∧ s.bytes[i]? = some c ∧ c ≠ 0 := by
  obtain ⟨rest, rfl⟩ := hsrc
  obtain ⟨c, hc⟩ : ∃ c, s.bytes[i]? = some c := ⟨_, List.getElem?_eq_getElem hi⟩
  refine ⟨c, ?_, hc, s.byte_ne_zero hc⟩
  rw [List.getElem?_append_left (by simp; omega), s.cells_getElem?_lt hi, hc]

theorem read_length (hsrc : s.cells <+: src) : src[s.length]? = some 0 := by
  obtain ⟨rest, rfl⟩ := hsrc
  rw [List.getElem?_append_left (by simp), s.cells_getElem?_length]

theorem length_lt (hsrc : s.cells <+: src) : s.length < src.length := by
  have hle : s.cells.length ≤ src.length := hsrc.length_le
  rwa [CStr.cells_length] at hle

theorem skip_eq (hsrc : s.cells <+: src) {i : Nat} (hi : i ≤ s.length) :
    run (skipBody src) (src.length + 1) i = some (s.length + 1) := by
  have hlen := length_lt hsrc
  refine run_eq (fun j => j ≤ s.length) (fun _ => s.length + 1) (fun j => s.length - j) ?_ _ i hi
    (by omega)
  intro j hj
  rcases Nat.lt_or_eq_of_le hj with hlt | rfl
  · obtain ⟨c, hread, -, hc⟩ := read_lt hsrc hlt
    exact Or.inl ⟨j + 1, by simp [skipBody, hread, hc], hlt, rfl, by omega⟩
  · exact Or.inr (by simp [skipBody, read_length hsrc])

/-- The copy loop before its turn `i`, with room for `room` characters. -/
structure Copying (s : CStr) (dst : Buffer) (room i : Nat) (c : Copy) : Prop where
  offsetD : c.d = i
  offsetS : c.s = i
  left : c.n = room - i
  copied : c.dst = dst.write (s.bytes.take i)

theorem Copying.store {dst : Buffer} {room i : Nat} {c : Copy} (h : Copying s dst room i c)
    {ch : UInt8} (hi : i < s.length) (hch : s.bytes[i]? = some ch) :
    c.dst.store c.d ch = dst.write (s.bytes.take (i + 1)) := by
  have hlen : (s.bytes.take i).length = i := by
    rw [List.length_take]
    exact Nat.min_eq_left hi.le
  have hstore := Buffer.write_store dst (s.bytes.take i) ch
  rw [hlen] at hstore
  rw [h.offsetD, h.copied, hstore, List.take_add_one, hch]
  rfl

theorem copy_spec (hsrc : s.cells <+: src) (dst : Buffer) {room : Nat} (hroom : 0 < room) :
    ∃ c, run (copyBody src) (src.length + 1) ⟨0, 0, room, dst⟩ = some c ∧
      (room ≤ s.length ∧ Copying s dst room room c ∨
        s.length < room ∧ c.n ≠ 0 ∧ c.s = s.length + 1 ∧ c.dst = dst.write s.cells) := by
  have hlen := length_lt hsrc
  refine run_total (fun c => ∃ i, i < room ∧ i ≤ s.length ∧ Copying s dst room i c) _
    (fun c => s.length - c.s) ?_ _ _ ⟨0, hroom, Nat.zero_le _, rfl, rfl, rfl, by simp⟩
    (by change s.length - 0 < _; omega)
  rintro c ⟨i, hi, hle, hc⟩
  rcases Nat.lt_or_eq_of_le hle with hlt | rfl
  · obtain ⟨ch, hread, hbyte, hne⟩ := read_lt hsrc hlt
    have hdst := hc.store hlt hbyte
    let c' : Copy := ⟨c.d + 1, c.s + 1, c.n - 1, c.dst.store c.d ch⟩
    have hc' : Copying s dst room (i + 1) c' :=
      ⟨congrArg (· + 1) hc.offsetD, congrArg (· + 1) hc.offsetS, by change c.n - 1 = _; rw [hc.left]; omega, hdst⟩
    by_cases hlast : i + 1 = room
    · refine Or.inr ⟨c', ?_, Or.inl ⟨by omega, hlast ▸ hc'⟩⟩
      have hzero : c.n - 1 = 0 := by rw [hc.left]; omega
      simp [copyBody, hc.offsetS, hread, hne, hzero, c']
    · refine Or.inl ⟨c', ?_, ⟨i + 1, by omega, hlt, hc'⟩, ?_⟩
      · have hpos : c.n - 1 ≠ 0 := by rw [hc.left]; omega
        simp [copyBody, hc.offsetS, hread, hne, hpos, c']
      · change s.length - (c.s + 1) < s.length - c.s
        rw [hc.offsetS]
        omega
  · have hread := read_length hsrc
    refine Or.inr ⟨⟨c.d + 1, c.s + 1, c.n, c.dst.store c.d 0⟩, ?_, Or.inr ⟨hi, ?_, ?_, ?_⟩⟩
    · simp [copyBody, hc.offsetS, hread]
    · change c.n ≠ 0
      rw [hc.left]
      omega
    · exact congrArg (· + 1) hc.offsetS
    · have hbytes : s.bytes.take s.length = s.bytes := List.take_length
      have hstore := Buffer.write_store dst s.bytes 0
      change c.dst.store c.d 0 = _
      rw [hc.copied, hc.offsetD, hbytes]
      exact hstore

/-- `u_strlcpy` writes what fits of the string, ends it with a NUL, and returns
the length of the whole string. -/
theorem uStrlcpy_eq (hsrc : s.cells <+: src) (dst : Buffer) (sz : Nat) :
    uStrlcpy dst src sz = some (s.length,
      if sz = 0 then dst else dst.write (s.truncate (sz - 1)).cells) := by
  have hskip (i : Nat) (hi : i ≤ s.length) := skip_eq hsrc hi
  match sz with
  | 0 => simp [uStrlcpy, copyLoop, hskip 0]
  | 1 =>
      have hstore : dst.store 0 0 = dst.write [0] := Buffer.write_store dst [] 0
      simp [uStrlcpy, copyLoop, hskip 0, CStr.cells, hstore]
  | room + 2 =>
      obtain ⟨c, hrun, ⟨hle, hc⟩ | ⟨hlt, hn, hs, hdst⟩⟩ := copy_spec hsrc dst (Nat.succ_pos room)
      · have hn : c.n = 0 := by rw [hc.left, Nat.sub_self]
        have hlen : (s.bytes.take (room + 1)).length = room + 1 := by
          rw [List.length_take]
          exact Nat.min_eq_left hle
        have hstore := Buffer.write_store dst (s.bytes.take (room + 1)) 0
        rw [hlen] at hstore
        simp [uStrlcpy, copyLoop, hrun, hn, hc.offsetS, hc.offsetD, hc.copied, hskip (room + 1) hle, CStr.cells,
          hstore]
      · have htake : s.truncate (room + 1) = s := CStr.truncate_of_length_le hlt.le
        simp [uStrlcpy, copyLoop, hrun, hn, hs, hdst, htake]

/-- Some destination does not end up with the whole of `s`. -/
def Truncates (s : CStr) (sz : Nat) : Prop :=
  ∃ dst r dst', uStrlcpy dst s.cells sz = some (r, dst') ∧ ¬ dst'.Holds s

theorem uStrlcpy_cells (s : CStr) (rest : List UInt8) (dst : Buffer) (sz : Nat) :
    uStrlcpy dst (s.cells ++ rest) sz = some (s.length,
      if sz = 0 then dst else dst.write (s.truncate (sz - 1)).cells) :=
  uStrlcpy_eq (List.prefix_append _ _) dst sz

theorem truncates_iff (s : CStr) (sz : Nat) : Truncates s sz ↔ sz ≤ s.length := by
  have hrun (dst : Buffer) := uStrlcpy_eq (List.prefix_refl s.cells) dst sz
  constructor
  · rintro ⟨dst, r, dst', hcopy, hnot⟩
    rw [hrun, Option.some.injEq, Prod.mk.injEq] at hcopy
    obtain ⟨-, rfl⟩ := hcopy
    by_cases hsz : sz = 0
    · omega
    · rw [if_neg hsz, Buffer.holds_write_truncate] at hnot
      omega
  · intro hle
    refine ⟨fun _ => 1, _, _, hrun _, fun hholds => ?_⟩
    by_cases hsz : sz = 0
    · rw [if_pos hsz] at hholds
      have hnul := hholds.apply le_rfl
      rw [s.cells_getElem?_length] at hnul
      exact absurd (Option.some.inj hnul) (by decide)
    · rw [if_neg hsz, Buffer.holds_write_truncate] at hholds
      omega

/-- What `u_strlcpy` leaves at `dst`, what it returns, and that it does so
without reading behind the NUL of `s`. -/
theorem uStrlcpy_copies (s : CStr) (rest : List UInt8) (dst : Buffer) (sz : Nat) :
    ∃ r dst', uStrlcpy dst s.cells sz = some (r, dst') ∧
      uStrlcpy dst (s.cells ++ rest) sz = some (r, dst') ∧ r = s.length ∧ (sz = 0 → dst' = dst) ∧
      (0 < sz → (∀ i < min s.length (sz - 1), s.bytes[i]? = some (dst' i)) ∧
        dst' (min s.length (sz - 1)) = 0 ∧ (∀ i, min s.length (sz - 1) < i → dst' i = dst i) ∧
        (¬ dst'.Holds s ↔ sz ≤ r)) ∧
      (Truncates s sz ↔ sz ≤ r) := by
  have hcells := uStrlcpy_cells s [] dst sz
  rw [List.append_nil] at hcells
  refine ⟨_, _, hcells, uStrlcpy_cells s rest dst sz, rfl, fun hsz => if_pos hsz, ?_,
    truncates_iff s sz⟩
  intro hsz
  have hlen : (s.truncate (sz - 1)).length = min s.length (sz - 1) := by
    rw [CStr.truncate_length, Nat.min_comm]
  rw [if_neg (Nat.pos_iff_ne_zero.mp hsz), ← hlen]
  refine ⟨fun i hi => ?_, Buffer.write_cells_length _ _, fun i hi => Buffer.write_cells_gt _ _ hi, ?_⟩
  · have hbyte := Buffer.write_cells_lt dst (s.truncate (sz - 1)) hi
    rw [CStr.truncate_bytes, List.getElem?_take_of_lt (by omega)] at hbyte
    exact hbyte
  · rw [Buffer.holds_write_truncate]
    omega

theorem uStrlcpy_copies_short :
    ∃ r dst', uStrlcpy (fun _ => 7) (lit "abc").cells 3 = some (r, dst') ∧ r = 3 ∧
      dst' 1 = 98 ∧ dst' 2 = 0 ∧ dst' 3 = 7 ∧ ¬ dst'.Holds (lit "abc") := by
  have hlen : (lit "abc").length = 3 := by decide
  obtain ⟨r, dst', hrun, -, hr, -, hpos, -⟩ := uStrlcpy_copies (lit "abc") [] (fun _ => 7) 3
  rw [hlen] at hr hpos
  obtain ⟨hcopied, hnul, hkept, htruncated⟩ := hpos (by decide)
  refine ⟨r, dst', hrun, hr, ?_, hnul, hkept 3 (by decide), htruncated.mpr hr.ge⟩
  exact (Option.some.inj (hcopied 1 (by decide))).symm

end CEar.Strlcpy
