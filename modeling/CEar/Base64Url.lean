import CEar.BitString
import CEar.CString

namespace CEar.Base64Url

open BitString CString

/-- RFC 4648, section 5: the URL-safe alphabet, in the order of its values. -/
def symbols : List UInt8 :=
  ascii "ABCDEFGHIJKLMNOPQRSTUVWXYZabcdefghijklmnopqrstuvwxyz0123456789-_"

def symbol (v : Nat) : UInt8 := symbols.getD v 0

def value (c : UInt8) : Option Nat :=
  let n := c.toNat
  if 65 ≤ n ∧ n ≤ 90 then some (n - 65)
  else if 97 ≤ n ∧ n ≤ 122 then some (n - 97 + 26)
  else if 48 ≤ n ∧ n ≤ 57 then some (n - 48 + 52)
  else if n = 45 then some 62
  else if n = 95 then some 63
  else none

def isSymbol (c : UInt8) : Bool := (value c).isSome

def bits (p : List UInt8) : List Bool := (p.map (fun c => (value c).getD 0)).flatMap (toBits 6)

def decode (p : List UInt8) : List UInt8 := (groups 8 (bits p)).map UInt8.ofNat

def byteBits (k : List UInt8) : List Bool := (k.map UInt8.toNat).flatMap (toBits 8)

def zeros (n : Nat) : List Bool := List.replicate ((6 - n % 6) % 6) false

/-- The unpadded encoding: zero bits complete the last group of six. -/
def encode (k : List UInt8) : List UInt8 :=
  (groups 6 (byteBits k ++ zeros (byteBits k).length)).map symbol

/-- The `=` characters that complete a text of `n` characters to a multiple of four. -/
def padding (n : Nat) : List UInt8 := List.replicate ((4 - n % 4) % 4) 61

theorem forall_byte {P : UInt8 → Prop} (h : ∀ n < 256, P (UInt8.ofNat n)) (c : UInt8) : P c := by
  have hc := h c.toNat c.toNat_lt
  rwa [UInt8.ofNat_toNat] at hc

theorem value_symbol : ∀ v < 64, value (symbol v) = some v := by
  decide +kernel

theorem value_lt_of_byte : ∀ c : UInt8, ∀ v ∈ value c, v < 64 :=
  forall_byte (by decide +kernel)

theorem getD_value_lt (c : UInt8) : (value c).getD 0 < 64 := by
  cases h : value c with
  | none => simp
  | some v => exact value_lt_of_byte c v h

theorem isSymbol_symbol {v : Nat} (h : v < 64) : isSymbol (symbol v) = true := by
  rw [isSymbol, value_symbol v h, Option.isSome_some]

@[simp] theorem bits_length (p : List UInt8) : (bits p).length = 6 * p.length := by
  rw [bits, flatMap_toBits_length, List.length_map]

@[simp] theorem byteBits_length (k : List UInt8) : (byteBits k).length = 8 * k.length := by
  rw [byteBits, flatMap_toBits_length, List.length_map]

theorem decode_length (p : List UInt8) : (decode p).length = 6 * p.length / 8 := by
  rw [decode, List.length_map, groups_length, bits_length]

theorem decode_byte {p : List UInt8} {j : Nat} (hj : j < (decode p).length) :
    (decode p)[j].toNat = ofBits (((bits p).drop (8 * j)).take 8) := by
  have hlt : ofBits (((bits p).drop (8 * j)).take 8) < 2 ^ 8 :=
    (ofBits_lt _).trans_le (Nat.pow_le_pow_right (by norm_num) (List.length_take_le _ _))
  simp only [decode, groups, List.getElem_map, List.getElem_range, UInt8.toNat_ofNat']
  exact Nat.mod_eq_of_lt hlt

theorem encode_isSymbol (k : List UInt8) : ∀ c ∈ encode k, isSymbol c = true := by
  intro c hc
  obtain ⟨v, hv, rfl⟩ := List.mem_map.mp hc
  exact isSymbol_symbol (groups_lt v hv)

/-- The characters of an encoding stand for the bits of the bytes, and for the
zero bits that complete the last group. -/
theorem bits_encode (k : List UInt8) : bits (encode k) = byteBits k ++ zeros (byteBits k).length := by
  set bs := byteBits k ++ zeros (byteBits k).length with hbs
  have hvalues : (encode k).map (fun c => (value c).getD 0) = groups 6 bs := by
    rw [encode, ← hbs, List.map_map]
    refine (List.map_congr_left fun v hv => ?_).trans (List.map_id _)
    rw [Function.comp_apply, value_symbol v (groups_lt v hv), Option.getD_some, id_eq]
  have hlen : 6 * (bs.length / 6) = bs.length := by
    simp only [hbs, zeros, List.length_append, List.length_replicate]
    omega
  rw [bits, hvalues, flatMap_toBits_groups (by omega), hlen, List.take_length]

theorem encode_length (k : List UInt8) : (encode k).length = (8 * k.length + 5) / 6 := by
  have h := congrArg List.length (bits_encode k)
  simp only [bits_length, List.length_append, byteBits_length, zeros, List.length_replicate] at h
  omega

theorem decode_encode (k : List UInt8) : decode (encode k) = k := by
  have hzeros : (zeros (byteBits k).length).length < 8 := by
    simp only [zeros, List.length_replicate]
    omega
  have hlt : ∀ v ∈ k.map UInt8.toNat, v < 2 ^ 8 := by
    intro v hv
    obtain ⟨c, -, rfl⟩ := List.mem_map.mp hv
    exact c.toNat_lt
  rw [decode, bits_encode]
  nth_rewrite 1 [byteBits]
  rw [groups_flatMap_toBits (by omega) _ hlt _ hzeros, List.map_map]
  refine (List.map_congr_left fun c _ => ?_).trans (List.map_id _)
  rw [Function.comp_apply, UInt8.ofNat_toNat, id_eq]

theorem byteBits_decode (p : List UInt8) : byteBits (decode p) = (bits p).take (8 * (decode p).length) := by
  have hgroups : (decode p).map UInt8.toNat = groups 8 (bits p) := by
    rw [decode, List.map_map]
    refine (List.map_congr_left fun v hv => ?_).trans (List.map_id _)
    exact UInt8.toNat_ofNat_of_lt (groups_lt v hv)
  rw [byteBits, hgroups, flatMap_toBits_groups (by omega), decode_length, bits_length]

def firstByte (a b : Nat) : UInt8 := UInt8.ofNat (a * 4 + b / 16)

def secondByte (b c : Nat) : UInt8 := UInt8.ofNat (b * 16 + c / 4)

def thirdByte (c d : Nat) : UInt8 := UInt8.ofNat (c * 64 + d)

theorem toBits_firstByte (a : Nat) {b : Nat} (hb : b < 64) :
    toBits 6 a ++ toBits 6 b = toBits 8 (a * 4 + b / 16) ++ toBits 4 b := by
  rw [show toBits 6 b = toBits (2 + 4) b from rfl, toBits_add, ← List.append_assoc,
    toBits_append 6 2 a (by omega)]
  rfl

theorem toBits_secondByte (b : Nat) {c : Nat} (hc : c < 64) :
    toBits 4 b ++ toBits 6 c = toBits 8 (b * 16 + c / 4) ++ toBits 2 c := by
  rw [show toBits 6 c = toBits (4 + 2) c from rfl, toBits_add, ← List.append_assoc,
    toBits_append 4 4 b (by omega)]
  rfl

theorem ofNat_mod_byte (v : Nat) : UInt8.ofNat (v % 2 ^ 8) = UInt8.ofNat v := by
  apply UInt8.toNat_inj.mp
  simp

theorem decode_nil : decode [] = [] := rfl

theorem decode_one (a : UInt8) : decode [a] = [] := by
  rw [decode, groups_nil_of_lt (by simp), List.map_nil]

theorem bits_cons_cons (a b : UInt8) (p : List UInt8) :
    bits (a :: b :: p) = toBits 8 ((value a).getD 0 * 4 + (value b).getD 0 / 16) ++
      (toBits 4 ((value b).getD 0) ++ bits p) := by
  simp only [bits, List.map_cons, List.flatMap_cons]
  rw [← List.append_assoc, toBits_firstByte _ (getD_value_lt b), List.append_assoc]

theorem decode_two (a b : UInt8) :
    decode [a, b] = [firstByte ((value a).getD 0) ((value b).getD 0)] := by
  rw [decode, bits_cons_cons, groups_toBits_append (by omega), groups_nil_of_lt (by simp [bits]),
    List.map_cons, List.map_nil, ofNat_mod_byte]
  rfl

theorem bits_cons_cons_cons (a b c : UInt8) (p : List UInt8) :
    bits (a :: b :: c :: p) = toBits 8 ((value a).getD 0 * 4 + (value b).getD 0 / 16) ++
      (toBits 8 ((value b).getD 0 * 16 + (value c).getD 0 / 4) ++
        (toBits 2 ((value c).getD 0) ++ bits p)) := by
  rw [bits_cons_cons]
  congr 1
  simp only [bits, List.map_cons, List.flatMap_cons]
  rw [← List.append_assoc, toBits_secondByte _ (getD_value_lt c), List.append_assoc]

theorem decode_three (a b c : UInt8) :
    decode [a, b, c] = [firstByte ((value a).getD 0) ((value b).getD 0),
      secondByte ((value b).getD 0) ((value c).getD 0)] := by
  rw [decode, bits_cons_cons_cons, groups_toBits_append (by omega), groups_toBits_append (by omega),
    groups_nil_of_lt (by simp [bits]), List.map_cons, List.map_cons, List.map_nil, ofNat_mod_byte,
    ofNat_mod_byte]
  rfl

theorem decode_four (a b c d : UInt8) (p : List UInt8) :
    decode (a :: b :: c :: d :: p) = firstByte ((value a).getD 0) ((value b).getD 0) ::
      secondByte ((value b).getD 0) ((value c).getD 0) ::
      thirdByte ((value c).getD 0) ((value d).getD 0) :: decode p := by
  have hthird : toBits 2 ((value c).getD 0) ++ bits (d :: p) =
      toBits 8 ((value c).getD 0 * 64 + (value d).getD 0) ++ bits p := by
    rw [show bits (d :: p) = toBits 6 ((value d).getD 0) ++ bits p by simp [bits],
      ← List.append_assoc, toBits_append 2 6 _ (getD_value_lt d)]
    rfl
  rw [decode, bits_cons_cons_cons, groups_toBits_append (by omega), groups_toBits_append (by omega),
    hthird, groups_toBits_append (by omega), List.map_cons, List.map_cons, List.map_cons,
    ofNat_mod_byte, ofNat_mod_byte, ofNat_mod_byte]
  rfl

end CEar.Base64Url
