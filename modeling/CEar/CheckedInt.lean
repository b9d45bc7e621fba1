import CEar.MachineInt

namespace CEar.CheckedInt

open MachineInt

def InRange (x : Int) : Prop := -2147483648 ≤ x ∧ x < 2147483648

instance (x : Int) : Decidable (InRange x) := inferInstanceAs (Decidable (_ ∧ _))

/-- The `int` of value `x`. Where there is none, the computation of `x` is
undefined. -/
def ofExact (x : Int) : Option Int32 := if InRange x then some (Int32.ofInt x) else none

def add (a b : Int32) : Option Int32 := ofExact (a.toInt + b.toInt)

def sub (a b : Int32) : Option Int32 := ofExact (a.toInt - b.toInt)

def mul (a b : Int32) : Option Int32 := ofExact (a.toInt * b.toInt)

def div (a b : Int32) : Option Int32 := if b = 0 then none else ofExact (a.toInt.tdiv b.toInt)

variable {a b : Int32} {x : Int}

theorem toInt_inRange (a : Int32) : InRange a.toInt :=
  ⟨a.le_toInt, a.toInt_lt⟩

theorem ofExact_toInt (h : a.toInt = x) : ofExact x = some a := by
  subst h
  rw [ofExact, if_pos (toInt_inRange a), Int32.ofInt_toInt]

theorem ofExact_none (h : ¬ InRange x) : ofExact x = none := if_neg h

/-- In range, the exact operations are the wrapping ones. -/
theorem add_spec (h : InRange (a.toInt + b.toInt)) :
    add a b = some (a + b) ∧ (a + b).toInt = a.toInt + b.toInt := by
  have hsum : (a + b).toInt = a.toInt + b.toInt := by rw [Int32.toInt_add, wrap_eq h.1 h.2]
  exact ⟨ofExact_toInt hsum, hsum⟩

theorem sub_spec (h : InRange (a.toInt - b.toInt)) :
    sub a b = some (a - b) ∧ (a - b).toInt = a.toInt - b.toInt := by
  have hdiff : (a - b).toInt = a.toInt - b.toInt := by rw [Int32.toInt_sub, wrap_eq h.1 h.2]
  exact ⟨ofExact_toInt hdiff, hdiff⟩

theorem mul_spec (h : InRange (a.toInt * b.toInt)) :
    mul a b = some (a * b) ∧ (a * b).toInt = a.toInt * b.toInt := by
  have hprod : (a * b).toInt = a.toInt * b.toInt := by rw [Int32.toInt_mul, wrap_eq h.1 h.2]
  exact ⟨ofExact_toInt hprod, hprod⟩

theorem div_spec (hb : b ≠ 0) (h : InRange (a.toInt.tdiv b.toInt)) :
    div a b = some (a / b) ∧ (a / b).toInt = a.toInt.tdiv b.toInt := by
  have hquot : (a / b).toInt = a.toInt.tdiv b.toInt := by rw [Int32.toInt_div, wrap_eq h.1 h.2]
  refine ⟨?_, hquot⟩
  rw [div, if_neg hb]
  exact ofExact_toInt hquot

/-- A defined step hands its value on. -/
theorem bind_defined {α β : Type} {o : Option α} {v : α} (h : o = some v) (f : α → Option β) :
    (o >>= f) = f v := by
  rw [h]
  rfl

end CEar.CheckedInt
