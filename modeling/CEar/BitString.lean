import Mathlib.Data.List.Basic
import Mathlib.Data.Nat.Bitwise
import Mathlib.Tactic.Ring

namespace CEar.BitString

/-- The `w` low bits of a number, most significant first. -/
def toBits : Nat → Nat → List Bool
  | 0, _ => []
  | w + 1, v => v.testBit w :: toBits w v

def ofBits : List Bool → Nat
  | [] => 0
  | b :: bs => b.toNat * 2 ^ bs.length + ofBits bs

/-- The values of the complete groups of `w` bits; an incomplete last group is
dropped. -/
def groups (w : Nat) (bs : List Bool) : List Nat :=
  (List.range (bs.length / w)).map (fun j => ofBits ((bs.drop (w * j)).take w))

@[simp] theorem toBits_length (w v : Nat) : (toBits w v).length = w := by
  induction w with
  | zero => rfl
  | succ w ih => simp [toBits, ih]

theorem ofBits_lt (bs : List Bool) : ofBits bs < 2 ^ bs.length := by
  induction bs with
  | nil => simp [ofBits]
  | cons b bs ih =>
      have hb : b.toNat * 2 ^ bs.length ≤ 1 * 2 ^ bs.length :=
        Nat.mul_le_mul_right _ (Bool.toNat_le b)
      simp only [ofBits, List.length_cons, Nat.pow_succ]
      omega

theorem ofBits_toBits (w v : Nat) : ofBits (toBits w v) = v % 2 ^ w := by
  induction w with
  | zero => simp [toBits, ofBits, Nat.mod_one]
  | succ w ih =>
      rw [toBits, ofBits, ih, toBits_length, Nat.mod_pow_succ, Nat.toNat_testBit, Nat.mul_comm]
      exact Nat.add_comm _ _

theorem toBits_mod (w v n : Nat) (h : w ≤ n) : toBits w (v % 2 ^ n) = toBits w v := by
  induction w with
  | zero => rfl
  | succ w ih =>
      have hw : w < n := by omega
      simp only [toBits, Nat.testBit_mod_two_pow, hw, decide_true, Bool.true_and, ih (by omega)]

theorem toBits_zero (w : Nat) : toBits w 0 = List.replicate w false := by
  induction w with
  | zero => rfl
  | succ w ih => rw [toBits, ih, Nat.zero_testBit, List.replicate_succ]

theorem toBits_add (m n v : Nat) : toBits (m + n) v = toBits m (v / 2 ^ n) ++ toBits n v := by
  induction m with
  | zero => simp [toBits]
  | succ m ih =>
      rw [Nat.succ_add, toBits, toBits, ih, Nat.testBit_div_two_pow, List.cons_append]

theorem toBits_append (m n a : Nat) {b : Nat} (hb : b < 2 ^ n) :
    toBits m a ++ toBits n b = toBits (m + n) (a * 2 ^ n + b) := by
  have hdiv : (a * 2 ^ n + b) / 2 ^ n = a := by
    rw [Nat.mul_comm, Nat.mul_add_div (Nat.two_pow_pos n), Nat.div_eq_of_lt hb, Nat.add_zero]
  have hmod : (a * 2 ^ n + b) % 2 ^ n = b := by
    rw [Nat.mul_comm, Nat.mul_add_mod, Nat.mod_eq_of_lt hb]
  rw [toBits_add, hdiv, ← toBits_mod n (a * 2 ^ n + b) n le_rfl, hmod]

theorem toBits_ofBits (bs : List Bool) : toBits bs.length (ofBits bs) = bs := by
  induction bs with
  | nil => rfl
  | cons b bs ih =>
      have hlt : ofBits bs < 2 ^ bs.length := ofBits_lt bs
      have hmod : ofBits (b :: bs) % 2 ^ bs.length = ofBits bs := by
        rw [ofBits, Nat.mul_comm, Nat.mul_add_mod, Nat.mod_eq_of_lt hlt]
      have htop : (ofBits (b :: bs)).testBit bs.length = b := by
        rw [ofBits, Nat.mul_comm, Nat.testBit_two_pow_mul_add _ hlt, if_neg (lt_irrefl _)]
        cases b <;> simp
      rw [List.length_cons, toBits, htop, ← toBits_mod bs.length _ bs.length le_rfl, hmod, ih]

theorem toBits_eq_ofBits {w : Nat} {bs : List Bool} (h : bs.length = w) :
    toBits w (ofBits bs) = bs := by
  subst h
  exact toBits_ofBits bs

theorem groups_nil_of_lt {w : Nat} {bs : List Bool} (h : bs.length < w) : groups w bs = [] := by
  simp [groups, Nat.div_eq_of_lt h]

theorem groups_length (w : Nat) (bs : List Bool) : (groups w bs).length = bs.length / w := by
  simp [groups]

theorem groups_lt {w : Nat} {bs : List Bool} (v : Nat) (hv : v ∈ groups w bs) : v < 2 ^ w := by
  obtain ⟨j, -, rfl⟩ := List.mem_map.mp hv
  refine (ofBits_lt _).trans_le (Nat.pow_le_pow_right (by norm_num) ?_)
  exact List.length_take_le _ _

theorem groups_append {w : Nat} (hw : 0 < w) {bs : List Bool} (h : bs.length = w) (cs : List Bool) :
    groups w (bs ++ cs) = ofBits bs :: groups w cs := by
  have hlen : (bs ++ cs).length / w = cs.length / w + 1 := by
    rw [List.length_append, h, Nat.add_comm, Nat.add_div_right _ hw]
  simp only [groups, hlen, List.range_succ_eq_map, List.map_cons, List.map_map]
  congr 1
  · rw [Nat.mul_zero, List.drop_zero, ← h, List.take_left]
  · apply List.map_congr_left
    intro j _
    rw [Function.comp_apply, Nat.mul_succ, Nat.add_comm, ← List.drop_drop, ← h, List.drop_left]

theorem groups_toBits_append {w : Nat} (hw : 0 < w) (v : Nat) (cs : List Bool) :
    groups w (toBits w v ++ cs) = v % 2 ^ w :: groups w cs := by
  rw [groups_append hw (toBits_length w v), ofBits_toBits]

theorem flatMap_toBits_length (w : Nat) (vs : List Nat) :
    (vs.flatMap (toBits w)).length = w * vs.length := by
  induction vs with
  | nil => simp
  | cons v vs ih => simp [ih, Nat.mul_succ, Nat.add_comm]

/-- Regrouping at the original width reads the words back, whatever
incomplete group follows them. -/
theorem groups_flatMap_toBits {w : Nat} (hw : 0 < w) (vs : List Nat) (hvs : ∀ v ∈ vs, v < 2 ^ w)
    (rest : List Bool) (hrest : rest.length < w) :
    groups w (vs.flatMap (toBits w) ++ rest) = vs := by
  induction vs with
  | nil => exact groups_nil_of_lt hrest
  | cons v vs ih =>
      rw [List.flatMap_cons, List.append_assoc, groups_append hw (toBits_length w v), ofBits_toBits,
        Nat.mod_eq_of_lt (hvs v (by simp)), ih (fun u hu => hvs u (by simp [hu]))]

/-- Splitting into complete groups loses only the incomplete last one. -/
theorem flatMap_toBits_groups {w : Nat} (hw : 0 < w) (bs : List Bool) :
    (groups w bs).flatMap (toBits w) = bs.take (w * (bs.length / w)) := by
  induction hn : bs.length / w generalizing bs with
  | zero =>
      have hlt : bs.length < w := (Nat.div_eq_zero_iff_lt hw).mp hn
      simp [groups_nil_of_lt hlt]
  | succ n ih =>
      have hle : w ≤ bs.length := by
        by_contra hlt
        rw [Nat.div_eq_of_lt (by omega)] at hn
        omega
      have htake : (bs.take w).length = w := by rw [List.length_take, Nat.min_eq_left hle]
      have hdrop : (bs.drop w).length / w = n := by
        rw [Nat.div_eq_sub_div hw hle] at hn
        rw [List.length_drop]
        omega
      have hsplit := groups_append hw htake (bs.drop w)
      rw [List.take_append_drop] at hsplit
      rw [hsplit, List.flatMap_cons, toBits_eq_ofBits htake, ih _ hdrop, Nat.mul_succ, Nat.add_comm,
        List.take_add]

end CEar.BitString
