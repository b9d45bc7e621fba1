import CEar.CString
import CEar.Loop

namespace CEar.Base64

open Loop

/-- The value of each byte in the URL-safe alphabet, 64 for every other byte. -/
def pr2sixTable : List Nat :=
  [
    64, 64, 64, 64, 64, 64, 64, 64, 64, 64, 64, 64, 64, 64, 64, 64, 64, 64, 64, 64, 64, 64, 64, 64, 64, 64, 64, 64, 64, 64, 64, 64,
    64, 64, 64, 64, 64, 64, 64, 64, 64, 64, 64, 64, 64, 62, 64, 64, 52, 53, 54, 55, 56, 57, 58, 59, 60, 61, 64, 64, 64, 64, 64, 64,
    64, 0, 1, 2, 3, 4, 5, 6, 7, 8, 9, 10, 11, 12, 13, 14, 15, 16, 17, 18, 19, 20, 21, 22, 23, 24, 25, 64, 64, 64, 64, 63,
    64, 26, 27, 28, 29, 30, 31, 32, 33, 34, 35, 36, 37, 38, 39, 40, 41, 42, 43, 44, 45, 46, 47, 48, 49, 50, 51, 64, 64, 64, 64, 64,
    64, 64, 64, 64, 64, 64, 64, 64, 64, 64, 64, 64, 64, 64, 64, 64, 64, 64, 64, 64, 64, 64, 64, 64, 64, 64, 64, 64, 64, 64, 64, 64,
    64, 64, 64, 64, 64, 64, 64, 64, 64, 64, 64, 64, 64, 64, 64, 64, 64, 64, 64, 64, 64, 64, 64, 64, 64, 64, 64, 64, 64, 64, 64, 64,
    64, 64, 64, 64, 64, 64, 64, 64, 64, 64, 64, 64, 64, 64, 64, 64, 64, 64, 64, 64, 64, 64, 64, 64, 64, 64, 64, 64, 64, 64, 64, 64,
    64, 64, 64, 64, 64, 64, 64, 64, 64, 64, 64, 64, 64, 64, 64, 64, 64, 64, 64, 64, 64, 64, 64, 64, 64, 64, 64, 64, 64, 64, 64, 64]

def pr2six (c : UInt8) : Nat := pr2sixTable.getD c.toNat 64

/-- `while (pr2six[*(bufin++)] <= 63);` A read past the end of `bufcoded`
faults. -/
def scanBody (bufcoded : List UInt8) (bufin : Nat) : Option (Control Nat Nat) := do
  let c ← bufcoded[bufin]?
  if pr2six c ≤ 63 then
    return .next (bufin + 1)
  else
    return .done (bufin + 1)

def scan (bufcoded : List UInt8) : Option Nat :=
  run (scanBody bufcoded) (bufcoded.length + 1) 0

/-- `Base64decode_len`: computed in `size_t`, then converted to `int`. -/
def base64decodeLen (bufcoded : List UInt8) : Option Int32 := do
  let bufin ← scan bufcoded
  let nprbytes : UInt64 := UInt64.ofNat (bufin - 1)
  return (((nprbytes + 3) / 4) * 3 + 1).toUInt32.toInt32

/-- The variables of `Base64decode` and the log of its stores, each an offset
from `bufplain` and the byte stored there. -/
structure Decoder where
  bufin : Nat
  bufout : Nat
  nprbytes : Int32
  stores : List (Nat × UInt8)

namespace Decoder

def put (d : Decoder) (v : UInt8) : Decoder :=
  { d with bufout := d.bufout + 1, stores := d.stores ++ [(d.bufout, v)] }

def six (bufcoded : List UInt8) (d : Decoder) (k : Nat) : Option Nat :=
  (bufcoded[d.bufin + k]?).map pr2six

def putFirst (bufcoded : List UInt8) (d : Decoder) : Option Decoder := do
  let a ← d.six bufcoded 0
  let b ← d.six bufcoded 1
  return d.put (UInt8.ofNat (a <<< 2 ||| b >>> 4))

def putSecond (bufcoded : List UInt8) (d : Decoder) : Option Decoder := do
  let a ← d.six bufcoded 1
  let b ← d.six bufcoded 2
  return d.put (UInt8.ofNat (a <<< 4 ||| b >>> 2))

def putThird (bufcoded : List UInt8) (d : Decoder) : Option Decoder := do
  let a ← d.six bufcoded 2
  let b ← d.six bufcoded 3
  return d.put (UInt8.ofNat (a <<< 6 ||| b))

def body (bufcoded : List UInt8) (d : Decoder) : Option (Control Decoder Decoder) :=
  if d.nprbytes > 4 then do
    let d ← d.putFirst bufcoded
    let d ← d.putSecond bufcoded
    let d ← d.putThird bufcoded
    return .next { d with bufin := d.bufin + 4, nprbytes := d.nprbytes - 4 }
  else
    return .done d

def tail (bufcoded : List UInt8) (d : Decoder) : Option Decoder := do
  let d ← if d.nprbytes > 1 then d.putFirst bufcoded else some d
  let d ← if d.nprbytes > 2 then d.putSecond bufcoded else some d
  let d ← if d.nprbytes > 3 then d.putThird bufcoded else some d
  return d.put 0

end Decoder

/-- `Base64decode`: the count it returns and the stores it makes. The number
of characters is converted to `int` before anything is computed from it. -/
def base64decode (bufcoded : List UInt8) : Option (Int32 × List (Nat × UInt8)) := do
  let bufin ← scan bufcoded
  let nprbytes : Int32 := Int32.ofNat (bufin - 1)
  let nbytesdecoded : Int32 := ((nprbytes + 3) / 4) * 3
  let d ← run (Decoder.body bufcoded) (bufcoded.length + 1) ⟨0, 0, nprbytes, []⟩
  let d ← d.tail bufcoded
  return (nbytesdecoded - ((4 - d.nprbytes) &&& 3), d.stores)

end CEar.Base64
