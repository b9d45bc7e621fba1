import CEar.Base64Url

namespace CEar.Canonical

open BitString Base64Url

/-- The symbol whose value has its `k` low bits cleared. -/
def clearLow (k : Nat) (c : UInt8) : UInt8 := symbol ((value c).getD 0 / 2 ^ k * 2 ^ k)

def mapLast (f : UInt8 → UInt8) (p : List UInt8) : List UInt8 :=
  p.dropLast ++ (p.getLast?.map f).toList

/-- The text that stands for the same bytes and has no bit left over. -/
def canonical (p : List UInt8) : List UInt8 :=
  if p.length % 4 = 1 then p.dropLast
  else if p.length % 4 = 2 then mapLast (clearLow 4) p
  else if p.length % 4 = 3 then mapLast (clearLow 2) p
  else p

def Symbols (p : List UInt8) : Prop := ∀ c ∈ p, isSymbol c = true

theorem symbol_value : ∀ c : UInt8, ∀ v ∈ value c, symbol v = c :=
  forall_byte (by decide +kernel)

theorem value_clearLow (k : Nat) (c : UInt8) :
    (value (clearLow k c)).getD 0 = (value c).getD 0 / 2 ^ k * 2 ^ k := by
  have hlt : (value c).getD 0 / 2 ^ k * 2 ^ k < 64 :=
    (Nat.div_mul_le_self _ _).trans_lt (getD_value_lt c)
  rw [clearLow, value_symbol _ hlt, Option.getD_some]

theorem isSymbol_clearLow (k : Nat) (c : UInt8) : isSymbol (clearLow k c) = true :=
  isSymbol_symbol ((Nat.div_mul_le_self _ _).trans_lt (getD_value_lt c))

theorem bits_append (p q : List UInt8) : bits (p ++ q) = bits p ++ bits q := by
  rw [bits, List.map_append, List.flatMap_append]
  rfl

theorem bits_singleton (c : UInt8) : bits [c] = toBits 6 ((value c).getD 0) := by
  rw [bits, List.map_singleton, List.flatMap_singleton]

/-- Texts over the alphabet are told apart by the bits they stand for. -/
theorem eq_of_bits {p q : List UInt8} (hp : Symbols p) (hq : Symbols q) (h : bits p = bits q) :
    p = q := by
  have hread (r : List UInt8) (hr : Symbols r) : (groups 6 (bits r)).map symbol = r := by
    have hlt : ∀ v ∈ r.map (fun c => (value c).getD 0), v < 2 ^ 6 := by
      intro v hv
      obtain ⟨c, -, rfl⟩ := List.mem_map.mp hv
      exact getD_value_lt c
    have hgroups := groups_flatMap_toBits (by omega) _ hlt [] (by decide)
    rw [List.append_nil] at hgroups
    rw [bits, hgroups, List.map_map]
    refine (List.map_congr_left fun c hc => ?_).trans (List.map_id _)
    obtain ⟨v, hv⟩ := Option.isSome_iff_exists.mp (hr c hc)
    rw [Function.comp_apply, hv, Option.getD_some, id_eq]
    exact symbol_value c v hv
  rw [← hread p hp, h, hread q hq]

theorem toBits_clearLow (m k v : Nat) :
    toBits (m + k) (v / 2 ^ k * 2 ^ k) = (toBits (m + k) v).take m ++ List.replicate k false := by
  have hzero : toBits k (v / 2 ^ k * 2 ^ k) = List.replicate k false := by
    rw [← toBits_mod k _ k le_rfl, Nat.mul_mod_left]
    exact toBits_zero k
  have htake : (toBits m (v / 2 ^ k) ++ toBits k v).take (toBits m (v / 2 ^ k)).length =
      toBits m (v / 2 ^ k) := List.take_left
  rw [toBits_length] at htake
  rw [toBits_add, toBits_add m k v, htake, hzero, Nat.mul_div_cancel _ (Nat.two_pow_pos k)]

theorem mapLast_concat (f : UInt8 → UInt8) (q : List UInt8) (c : UInt8) :
    mapLast f (q ++ [c]) = q ++ [f c] := by
  simp [mapLast]

theorem canonical_symbols {p : List UInt8} (hp : Symbols p) : Symbols (canonical p) := by
  have hlast (k : Nat) : Symbols (mapLast (clearLow k) p) := by
    intro x hx
    rcases List.mem_append.mp hx with hx | hx
    · exact hp x (List.dropLast_subset p hx)
    · obtain ⟨c, -, rfl⟩ := Option.map_eq_some_iff.mp (Option.mem_toList.mp hx)
      exact isSymbol_clearLow k c
  rw [canonical]
  split_ifs
  · exact fun x hx => hp x (List.dropLast_subset p hx)
  · exact hlast 4
  · exact hlast 2
  · exact hp

theorem take_bits_append (q : List UInt8) (bs : List Bool) (j : Nat) :
    (bits q ++ bs).take (6 * q.length + j) = bits q ++ bs.take j := by
  rw [← bits_length, List.take_length_add_append]

theorem bits_mapLast (q : List UInt8) (c : UInt8) {j k : Nat} (hjk : j + k = 6) :
    bits (mapLast (clearLow k) (q ++ [c])) =
      (bits (q ++ [c])).take (6 * q.length + j) ++ List.replicate k false := by
  rw [mapLast_concat, bits_append, bits_append, bits_singleton, bits_singleton, value_clearLow,
    take_bits_append, List.append_assoc, ← hjk, toBits_clearLow]

/-- What is left over of the bits, in each class of lengths. -/
theorem bits_canonical (p : List UInt8) : bits (canonical p) =
    (bits p).take (8 * (6 * p.length / 8)) ++ zeros (8 * (6 * p.length / 8)) := by
  rcases List.eq_nil_or_concat' p with rfl | ⟨q, c, rfl⟩
  · rfl
  have hlen : (q ++ [c]).length = q.length + 1 := by rw [List.length_append, List.length_singleton]
  rw [canonical, hlen]
  split_ifs with hone htwo hthree
  · have htake := take_bits_append q (bits [c]) 0
    have hcut : 8 * (6 * (q.length + 1) / 8) = 6 * q.length + 0 := by omega
    have hzeros : zeros (6 * q.length + 0) = [] := by
      rw [zeros, show (6 - (6 * q.length + 0) % 6) % 6 = 0 by omega, List.replicate_zero]
    rw [List.take_zero, List.append_nil] at htake
    rw [hcut, bits_append, htake, hzeros, List.append_nil, List.dropLast_concat]
  · have hcut : 8 * (6 * (q.length + 1) / 8) = 6 * q.length + 2 := by omega
    have hzeros : (6 - (6 * q.length + 2) % 6) % 6 = 4 := by omega
    rw [hcut, zeros, hzeros, bits_mapLast q c (j := 2) rfl]
  · have hcut : 8 * (6 * (q.length + 1) / 8) = 6 * q.length + 4 := by omega
    have hzeros : (6 - (6 * q.length + 4) % 6) % 6 = 2 := by omega
    rw [hcut, zeros, hzeros, bits_mapLast q c (j := 4) rfl]
  · have hcut : 8 * (6 * (q.length + 1) / 8) = (bits (q ++ [c])).length := by
      rw [bits_length, hlen]
      omega
    have hzeros : (6 - (bits (q ++ [c])).length % 6) % 6 = 0 := by
      rw [bits_length]
      omega
    rw [hcut, zeros, hzeros, List.take_length, List.replicate_zero, List.append_nil]

theorem encode_decode {p : List UInt8} (hp : Symbols p) : encode (decode p) = canonical p := by
  apply eq_of_bits (encode_isSymbol _) (canonical_symbols hp)
  rw [bits_encode, byteBits_length, byteBits_decode, bits_canonical, decode_length]

/-- Texts over the alphabet stand for the same bytes when their canonical forms
are equal, and only then. -/
theorem decode_eq_iff {p q : List UInt8} (hp : Symbols p) (hq : Symbols q) :
    decode p = decode q ↔ canonical p = canonical q := by
  rw [← encode_decode hp, ← encode_decode hq]
  constructor
  · intro h
    rw [h]
  · intro h
    rw [← decode_encode (decode p), h, decode_encode]

end CEar.Canonical
