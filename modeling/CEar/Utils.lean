import CEar.Base64
import CEar.Ownership

namespace CEar.Utils

open Base64 CString Loop Ownership

/-- The variables of `u_strlcpy`: offsets from `dst` and `src`, the room left,
and the memory at `dst`. -/
structure Copy where
  d : Nat
  s : Nat
  n : Nat
  dst : Buffer

/-- `do { if ((*d++ = *s++) == 0) break; } while (--n != 0);` -/
def copyBody (src : List UInt8) (c : Copy) : Option (Control Copy Copy) := do
  let ch ← src[c.s]?
  let c : Copy := { c with d := c.d + 1, s := c.s + 1, dst := c.dst.store c.d ch }
  if ch = 0 then
    return .done c
  else
    let c : Copy := { c with n := c.n - 1 }
    if c.n ≠ 0 then return .next c else return .done c

/-- `while (*s++);` -/
def skipBody (src : List UInt8) (s : Nat) : Option (Control Nat Nat) := do
  let ch ← src[s]?
  if ch ≠ 0 then return .next (s + 1) else return .done (s + 1)

def copyLoop (src : List UInt8) (c : Copy) : Option Copy :=
  if c.n ≠ 0 then
    let c : Copy := { c with n := c.n - 1 }
    if c.n ≠ 0 then run (copyBody src) (src.length + 1) c else some c
  else
    some c

/-- `u_strlcpy`: the length it returns and the memory at `dst` afterwards. The
bytes readable at `src` are listed; a read past them faults. -/
def uStrlcpy (dst : Buffer) (src : List UInt8) (sz : Nat) : Option (Nat × Buffer) := do
  let c ← copyLoop src ⟨0, 0, sz, dst⟩
  if c.n = 0 then
    let dst := if sz ≠ 0 then c.dst.store c.d 0 else c.dst
    let s ← run (skipBody src) (src.length + 1) c.s
    return (s - 1, dst)
  else
    return (c.s - 1, c.dst)

/-- What the library acquires, by what releases it: `jwt_valid_free`, `free` of
an `ear_t`, `jwt_free`, `free` of a JSON text, `json_decref`, `free` of a key
buffer, `free` of a list of names. -/
inductive Kind
  | jwtValid
  | ear
  | jwt
  | text
  | json
  | keyBuffer
  | nameList
  deriving DecidableEq

/-- A pointer that is not NULL: the object's identity and its contents. -/
structure Ref (α : Type) where
  id : Nat
  val : α

/-- A heap buffer: how many bytes were allocated, and what is stored from its
start on. -/
structure Block where
  size : Nat
  mem : Buffer

/-- A store at an offset from the start of a block. Past its end it faults. -/
def Block.put (b : Block) (p : Nat × UInt8) : Option Block :=
  if p.1 < b.size then some { b with mem := b.mem.store p.1 p.2 } else none

/-- A read of the first bytes of a block. Past its end it faults. -/
def Block.read (b : Block) (n : Nat) : Option (List UInt8) :=
  if n ≤ b.size then some (b.mem.window n) else none

/-- A block of zeros, as `calloc` hands it over, after the stores. -/
def fill (size : Nat) (stores : List (Nat × UInt8)) : Option Block :=
  stores.foldlM Block.put ⟨size, fun _ => 0⟩

structure DecodeResult where
  ret : Int
  pout : Option (Ref Block)
  poutSz : Nat

/-- `u_b64url_decode`. `calloc` says whether its allocation succeeds. -/
def uB64urlDecode (calloc : Bool) (input : Option CStr) (pout : Option (Ref Block))
    (poutSz : Nat) : Exec Kind DecodeResult := do
  match input with
  | none => return ⟨-1, pout, poutSz⟩
  | some s =>
      if s.length = 0 then
        return ⟨-1, pout, poutSz⟩
      let outSz ← Exec.lift (base64decodeLen s.cells)
      if outSz ≤ 0 then
        return ⟨-1, pout, poutSz⟩
      if calloc = false then
        return ⟨-1, pout, poutSz⟩
      let out ← Exec.acquire Kind.keyBuffer
      let (count, stores) ← Exec.lift (base64decode s.cells)
      let block ← Exec.lift (fill outSz.toNatClampNeg stores)
      if count ≤ 0 then
        Exec.release Kind.keyBuffer out
        return ⟨-1, pout, poutSz⟩
      return ⟨0, some ⟨out, block⟩, count.toNatClampNeg⟩

end CEar.Utils
