import Mathlib.Logic.Function.Basic
import Mathlib.Data.List.TakeWhile

namespace CEar.CString

/-- A string as C passes it: bytes with no NUL among them. The terminator is
added by `cells`, which is what a pointer to the string reads. -/
structure CStr where
  bytes : List UInt8
  nulFree : 0 ∉ bytes
  deriving DecidableEq

namespace CStr

def length (s : CStr) : Nat := s.bytes.length

def cells (s : CStr) : List UInt8 := s.bytes ++ [0]

@[ext] theorem ext {s t : CStr} (h : s.bytes = t.bytes) : s = t := by
  cases s
  cases t
  cases h
  rfl

instance : Append CStr where
  append s t := ⟨s.bytes ++ t.bytes, by simp [s.nulFree, t.nulFree]⟩

def truncate (s : CStr) (n : Nat) : CStr :=
  ⟨s.bytes.take n, fun h => s.nulFree (List.mem_of_mem_take h)⟩

@[simp] theorem append_bytes (s t : CStr) : (s ++ t).bytes = s.bytes ++ t.bytes := rfl

@[simp] theorem truncate_bytes (s : CStr) (n : Nat) : (s.truncate n).bytes = s.bytes.take n := rfl

@[simp] theorem cells_length (s : CStr) : s.cells.length = s.length + 1 := by
  simp [cells, length]

theorem append_length (s t : CStr) : (s ++ t).length = s.length + t.length :=
  List.length_append

theorem append_pos {s : CStr} (t : CStr) (h : 0 < s.length) : 0 < (s ++ t).length := by
  rw [length, append_bytes, List.length_append]
  exact Nat.add_pos_left h _

theorem truncate_length_le (s : CStr) (n : Nat) : (s.truncate n).length ≤ n :=
  List.length_take_le n s.bytes

theorem truncate_length (s : CStr) (n : Nat) : (s.truncate n).length = min n s.length :=
  List.length_take

theorem truncate_of_length_le {s : CStr} {n : Nat} (h : s.length ≤ n) : s.truncate n = s := by
  ext1
  exact List.take_of_length_le h

theorem byte_ne_zero (s : CStr) {i : Nat} {c : UInt8} (h : s.bytes[i]? = some c) : c ≠ 0 :=
  fun h0 => s.nulFree (h0 ▸ List.mem_of_getElem? h)

theorem cells_getElem?_lt (s : CStr) {i : Nat} (h : i < s.length) :
    s.cells[i]? = s.bytes[i]? := by
  rw [cells, List.getElem?_append_left h]

theorem cells_getElem?_length (s : CStr) : s.cells[s.length]? = some 0 := by
  simp [cells, length]

end CStr

def ascii (text : String) : List UInt8 := text.toList.map (fun c => UInt8.ofNat c.toNat)

/-- A literal, which ends for its readers at the first NUL. -/
def lit (text : String) : CStr where
  bytes := (ascii text).takeWhile (fun c => decide (c ≠ 0))
  nulFree h := by simpa using List.mem_takeWhile_imp h

/-- What `%d` prints. -/
def decimal (n : Int) : CStr where
  bytes := (if n < 0 then ascii "-" else []) ++
    (Nat.toDigits 10 n.natAbs).map (fun c => UInt8.ofNat c.toNat)
  nulFree := by
    have hdigit (c : Char) (hc : c.isDigit = true) : UInt8.ofNat c.toNat ≠ 0 := by
      simp only [Char.isDigit, Bool.and_eq_true, decide_eq_true_eq, UInt32.le_iff_toNat_le] at hc
      change 48 ≤ c.toNat ∧ c.toNat ≤ 57 at hc
      intro h0
      have h0' := congrArg UInt8.toNat h0
      simp only [UInt8.toNat_ofNat', UInt8.toNat_zero] at h0'
      omega
    simp only [List.mem_append, List.mem_map, not_or, not_exists, not_and]
    constructor
    · split <;> decide
    · intro c hc
      exact hdigit c (Nat.isDigit_of_mem_toDigits (by omega) (by omega) hc)

/-- The length of the text is an `int`, which `snprintf` can return. -/
def CStr.Countable (s : CStr) : Prop := s.length ≤ 2147483647

instance (s : CStr) : Decidable s.Countable := inferInstanceAs (Decidable (_ ≤ _))

/-- What `snprintf` prints for a text, where `left` is what it leaves when it
fails: `int` cannot count the text. -/
def printed (text left : CStr) : CStr := if text.Countable then text else left

theorem printed_countable {text : CStr} (h : text.Countable) (left : CStr) :
    printed text left = text :=
  if_pos h

/-- The memory a `char *` points at, by offset. -/
abbrev Buffer := Nat → UInt8

namespace Buffer

def store (b : Buffer) (i : Nat) (v : UInt8) : Buffer := Function.update b i v

/-- The first `n` bytes, as a reader of an array of that size sees them. -/
def window (b : Buffer) (n : Nat) : List UInt8 := (List.range n).map b

def write (b : Buffer) (cells : List UInt8) : Buffer := fun i => cells[i]?.getD (b i)

def Holds (b : Buffer) (s : CStr) : Prop := b.window (s.length + 1) = s.cells

instance (b : Buffer) (s : CStr) : Decidable (b.Holds s) := inferInstanceAs (Decidable (_ = _))

@[simp] theorem window_length (b : Buffer) (n : Nat) : (b.window n).length = n := by
  simp [window]

theorem window_getElem? (b : Buffer) {n i : Nat} (h : i < n) : (b.window n)[i]? = some (b i) := by
  simp [window, List.getElem?_range h]

theorem write_lt (b : Buffer) (cells : List UInt8) {i : Nat} (h : i < cells.length) :
    b.write cells i = cells[i] := by
  simp [write, h]

theorem write_ge (b : Buffer) (cells : List UInt8) {i : Nat} (h : cells.length ≤ i) :
    b.write cells i = b i := by
  simp [write, List.getElem?_eq_none h]

@[simp] theorem write_nil (b : Buffer) : b.write [] = b := by
  funext i
  rfl

theorem write_store (b : Buffer) (cells : List UInt8) (v : UInt8) :
    (b.write cells).store cells.length v = b.write (cells ++ [v]) := by
  funext i
  rcases Nat.lt_trichotomy i cells.length with h | rfl | h
  · rw [store, Function.update_of_ne (Nat.ne_of_lt h), write_lt b _ h,
      write_lt b _ (by rw [List.length_append]; omega), List.getElem_append_left h]
  · rw [store, Function.update_self, write_lt b _ (by simp)]
    simp
  · rw [store, Function.update_of_ne (Nat.ne_of_gt h), write_ge b _ h.le,
      write_ge b _ (by simpa using Nat.succ_le_of_lt h)]

theorem window_write (b : Buffer) (cells rest : List UInt8) :
    (b.write (cells ++ rest)).window cells.length = cells := by
  apply List.ext_getElem
  · simp
  · intro i hi hi'
    simp only [window, List.getElem_map, List.getElem_range]
    rw [write_lt b _ (by simp; omega), List.getElem_append_left hi']

theorem holds_write (b : Buffer) (s : CStr) : (b.write s.cells).Holds s := by
  have h := window_write b s.cells []
  rwa [List.append_nil, CStr.cells_length] at h

theorem write_cells_lt (b : Buffer) (s : CStr) {i : Nat} (h : i < s.length) :
    s.bytes[i]? = some (b.write s.cells i) := by
  rw [write, s.cells_getElem?_lt h, List.getElem?_eq_getElem h, Option.getD_some]

theorem write_cells_length (b : Buffer) (s : CStr) : b.write s.cells s.length = 0 := by
  rw [write, s.cells_getElem?_length, Option.getD_some]

theorem write_cells_gt (b : Buffer) (s : CStr) {i : Nat} (h : s.length < i) :
    b.write s.cells i = b i := by
  apply write_ge
  rw [CStr.cells_length]
  exact h

theorem Holds.window_starts {b : Buffer} {s : CStr} (h : b.Holds s) {n : Nat}
    (hn : s.length < n) : s.cells <+: b.window n := by
  have hrange : List.range (s.length + 1) <+: List.range n := by
    rw [List.prefix_iff_eq_take, List.length_range, List.take_range, Nat.min_eq_left hn]
  rw [← h]
  exact hrange.map b

theorem Holds.apply {b : Buffer} {s : CStr} (h : b.Holds s) {i : Nat} (hi : i ≤ s.length) :
    s.cells[i]? = some (b i) := by
  rw [← h, window_getElem? b (by omega)]

/-- Two strings held by one buffer are the same string: the NUL ends both. -/
theorem Holds.unique {b : Buffer} {s t : CStr} (hs : b.Holds s) (ht : b.Holds t) : s = t := by
  have hle : ∀ {s t : CStr}, b.Holds s → b.Holds t → s.length ≤ t.length := by
    intro s t hs ht
    by_contra hlt
    have hnul : s.cells[t.length]? = some (b t.length) := hs.apply (by omega)
    rw [s.cells_getElem?_lt (by omega)] at hnul
    have hend : t.cells[t.length]? = some (b t.length) := ht.apply le_rfl
    rw [t.cells_getElem?_length] at hend
    exact s.byte_ne_zero hnul (Option.some.inj hend).symm
  have hlen : s.length = t.length := le_antisymm (hle hs ht) (hle ht hs)
  have hcells : s.cells = t.cells := by rw [← hs, ← ht, hlen]
  exact CStr.ext (List.append_cancel_right hcells)

theorem holds_write_truncate (b : Buffer) (s : CStr) (n : Nat) :
    (b.write (s.truncate n).cells).Holds s ↔ s.length ≤ n := by
  have hholds := holds_write b (s.truncate n)
  constructor
  · intro h
    rw [h.unique hholds]
    exact s.truncate_length_le n
  · intro h
    rwa [CStr.truncate_of_length_le h] at hholds ⊢

/-- `snprintf(b, size, ..)`: as much as fits before the NUL. -/
def snprintf (b : Buffer) (size : Nat) (text left : CStr) : Buffer :=
  if size = 0 then b else b.write ((printed text left).truncate (size - 1)).cells

end Buffer

/-- The string that bytes followed by a NUL make: it ends at their first NUL. -/
def upToNul (bytes : List UInt8) : CStr where
  bytes := bytes.takeWhile (fun c => decide (c ≠ 0))
  nulFree h := by simpa using List.mem_takeWhile_imp h

/-- The string that is read where these bytes are readable. Without a NUL among
them the reader runs past their end. -/
def readStr (cells : List UInt8) : Option CStr :=
  if 0 ∈ cells then some (upToNul cells) else none

theorem upToNul_append (bytes rest : List UInt8) : upToNul (bytes ++ 0 :: rest) = upToNul bytes := by
  ext1
  induction bytes with
  | nil => simp [upToNul]
  | cons c bytes ih =>
      simp only [upToNul] at ih ⊢
      rw [List.cons_append, List.takeWhile_cons, List.takeWhile_cons, ih]

theorem upToNul_bytes (s : CStr) : upToNul s.bytes = s := by
  ext1
  apply List.takeWhile_eq_self_iff.mpr
  intro c hc
  exact decide_eq_true (fun h => s.nulFree (h ▸ hc))

theorem readStr_terminated (bytes rest : List UInt8) :
    readStr (bytes ++ 0 :: rest) = some (upToNul bytes) := by
  rw [readStr, if_pos (by simp), upToNul_append]

theorem readStr_eq {s : CStr} {cells : List UInt8} (h : s.cells <+: cells) :
    readStr cells = some s := by
  obtain ⟨rest, rfl⟩ := h
  have hread := readStr_terminated s.bytes rest
  rw [upToNul_bytes] at hread
  rwa [CStr.cells, List.append_assoc]

theorem Buffer.Holds.readStr_window {b : Buffer} {s : CStr} (h : b.Holds s) {n : Nat}
    (hn : s.length < n) : readStr (b.window n) = some s :=
  readStr_eq (h.window_starts hn)

end CEar.CString
