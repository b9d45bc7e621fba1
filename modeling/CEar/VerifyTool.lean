import CEar.Ear
import CEar.Process

namespace CEar.VerifyTool

open CString Ear Ownership Process Utils

/-- What the tool acquires itself: streams, released by `fclose`, and blocks,
released by `free`. -/
inductive Held
  | stream
  | block
  deriving DecidableEq

/-- A stream that `fopen` has returned: what `fseek` to its end and `ftell`
there answer, and the bytes it delivers after `rewind`. -/
structure Stream where
  fseek : Int
  ftell : Int64
  data : List UInt8

/-- The file system and the allocator during one call of `read_from_file`. -/
structure Files where
  fopen : CStr → Option Stream
  malloc : UInt64 → Bool

/-- The letters of the option string `a:k:s:`. -/
inductive Letter
  | a
  | k
  | s
  deriving DecidableEq

/-- What a call of `getopt` answers: a letter with its argument, or `'?'` for a
letter it does not know or one without its argument. It has printed a line about
that then. -/
inductive Opt
  | letter (c : Letter) (optarg : CStr)
  | unrecognised (diagnostic : CStr)

/-- What a run of the tool is started with: its name, the answers of `getopt`
one after the other and the operand behind them, and those of the C library. -/
structure Host where
  name : CStr
  getopt : List Opt
  operand : Option CStr
  keyFile : Files
  earFile : Files
  calloc : UInt64 → Bool

/-- What the tool prints, by the call that prints it. -/
inductive Line
  | getopt (text : CStr)
  | usage (text : CStr)
  | warn (text : CStr)
  | warnx (text : CStr)
  | stdout (text : CStr)
  deriving DecidableEq

abbrev Tool := Proc Kind Held Line

abbrev Bytes := Ref (List UInt8)

def keyFnSz : Nat := 1024

def algSz : Nat := 16

def earFnSz : Nat := 1024

def appRecSz : Nat := 128

structure Args where
  keyFn : Buffer
  alg : Buffer
  earFn : Buffer
  appRec : Buffer

/-- `args_t args = {{'\0'}, {'\0'}, {'\0'}, {'\0'}};` -/
def noArgs : Args := ⟨fun _ => 0, fun _ => 0, fun _ => 0, fun _ => 0⟩

def usage (name : CStr) : CStr :=
  lit "\nUsage: " ++ name ++ lit " [opts] <ear_jwt>\n\n" ++
    lit "    where 'ear_jwt' is a EAR in JWT format, and 'opts' is:\n\n" ++
    lit "  -k KEY  The key to use for verification\n" ++
    lit "  -a ALG  The algorithm to use for verification\n" ++
    lit "  -s APP  The appraisal record to check\n"

/-- How `parse_opts` ends: it returns, or `usage` exits, perhaps after a line of
`getopt`. -/
inductive Parsed
  | usage (args : Args) (diagnostic : Option CStr)
  | returns (args : Args)

def Parsed.args : Parsed → Args
  | .usage args _ | .returns args => args

def parseOpts : List Opt → Option CStr → Args → Option Parsed
  | .letter .a optarg :: getopt, operand, pargs => do
      let (_, alg) ← uStrlcpy pargs.alg optarg.cells algSz
      parseOpts getopt operand { pargs with alg := alg }
  | .letter .k optarg :: getopt, operand, pargs => do
      let (_, keyFn) ← uStrlcpy pargs.keyFn optarg.cells keyFnSz
      parseOpts getopt operand { pargs with keyFn := keyFn }
  | .letter .s optarg :: getopt, operand, pargs => do
      let (_, appRec) ← uStrlcpy pargs.appRec optarg.cells appRecSz
      parseOpts getopt operand { pargs with appRec := appRec }
  | .unrecognised diagnostic :: _, _, pargs => some (.usage pargs (some diagnostic))
  | [], none, pargs => some (.usage pargs none)
  | [], some operand, pargs => do
      let (_, earFn) ← uStrlcpy pargs.earFn operand.cells earFnSz
      return .returns { pargs with earFn := earFn }

def fclose (fp : Option (Ref Stream)) : Exec Held Unit := do
  match fp with
  | none => return ()
  | some fp => Exec.release Held.stream fp.id

def free (b : Option Bytes) : Exec Held Unit := do
  match b with
  | none => return ()
  | some b => Exec.release Held.block b.id

/-- `fread(b, sz, 1, fp)`, with the item if it is there in full. No item is
read when its size is zero. -/
def fread (fp : Stream) (sz : UInt64) : Option (List UInt8) :=
  if sz ≠ 0 ∧ sz.toNat ≤ fp.data.length then some (fp.data.take sz.toNat) else none

structure ReadResult where
  ret : Int
  pb : Option Bytes
  pbSz : Option UInt64

/-- The exit `err:` of `read_from_file`. -/
def readErr (fp : Option (Ref Stream)) (b : Option Bytes) (pb : Option Bytes)
    (pbSz : Option UInt64) : Exec Held ReadResult := do
  fclose fp
  free b
  return ⟨-1, pb, pbSz⟩

/-- `read_from_file`. What has not been assigned is empty. -/
def readFromFile (files : Files) (fn : CStr) (pb : Option Bytes) (pbSz : Option UInt64) :
    Exec Held ReadResult := do
  let some stream := files.fopen fn
    | return ← readErr none none pb pbSz
  let fp : Ref Stream := ⟨← Exec.acquire Held.stream, stream⟩
  if fp.val.fseek = -1 then
    return ← readErr (some fp) none pb pbSz
  let sz := fp.val.ftell.toUInt64
  if files.malloc sz = false then
    return ← readErr (some fp) none pb pbSz
  let b ← Exec.acquire Held.block
  let some item := fread fp.val sz
    | return ← readErr (some fp) (some ⟨b, []⟩) pb pbSz
  fclose (some fp)
  return ⟨0, some ⟨b, item⟩, some sz⟩

/-- `memcpy(s, b, b_sz)`. A copy through NULL or past either block faults. -/
def memcpy (s : Option Bytes) (b : List UInt8) (bSz : UInt64) : Option Bytes := do
  let s ← s
  if bSz.toNat ≤ b.length ∧ bSz.toNat ≤ s.val.length then
    return { s with val := b.take bSz.toNat ++ s.val.drop bSz.toNat }
  else
    none

/-- `s[b_sz] = '\0'` -/
def terminate (s : Bytes) (bSz : UInt64) : Option Bytes :=
  if bSz.toNat < s.val.length then some { s with val := s.val.set bSz.toNat 0 } else none

def toCstr (calloc : UInt64 → Bool) (b : List UInt8) (bSz : UInt64) :
    Exec Held (Option Bytes) := do
  if calloc (bSz + 1) = false then
    let s ← Exec.lift (memcpy none b bSz)
    return some (← Exec.lift (terminate s bSz))
  let s ← Exec.acquire Held.block
  let s ← Exec.lift (memcpy (some ⟨s, List.replicate (bSz + 1).toNat 0⟩) b bSz)
  return some (← Exec.lift (terminate s bSz))

/-- What `ear_jwt_verify` asserts of its key, and reads of it. -/
def asKey (pkey : Option Bytes) (pkeySz : Option UInt64) : Option Key := do
  let pkey ← pkey
  let pkeySz ← pkeySz
  if h : 0 < pkeySz.toNat ∧ pkeySz.toNat ≤ pkey.val.length then
    return ⟨pkey.val.take pkeySz.toNat, by rw [List.length_take]; omega⟩
  else
    none

/-- The code point of a tier in `ear_tier_t`. -/
def tierCode : EarTier → Int
  | .none => 0
  | .affirming => 1
  | .warning => 2
  | .contraindicated => 3

def statusLine (appRec : CStr) (tier : EarTier) : CStr :=
  appRec ++ lit " status: tier(" ++ decimal (tierCode tier) ++ lit ")"

def exitFailure : Int := 1

variable {Alg Jwt : Type}

/-- The exit `err:` of `main`. -/
def mainErr (key earJwt earJwtCstr : Option Bytes) (ear : Option (Ref (EarT Jwt))) : Tool Int := do
  Proc.perform (free key)
  Proc.perform (free earJwt)
  Proc.perform (free earJwtCstr)
  Proc.call (earFree ear)
  return -1

/-- `main` from the query of the status on. The variable `tier` has not been
assigned. -/
def mainStatus (libc : Libc) (ear : Ref (EarT Jwt)) (appRec : CStr) (errMsg : Buffer) : Tool Int := do
  let status ← Proc.call (earGetStatus libc ear.val appRec none (some errMsg))
  let errMsg ← Proc.lift status.errMsg
  if status.ret = -1 then
    let text ← Proc.lift (readStr (errMsg.window earErrSz))
    Proc.print (.warnx (lit "failed to retrieve EAR status for " ++ appRec ++ lit " appraisal: " ++ text))
    return ← mainErr none none none (some ear)
  let tier ← Proc.lift status.ptier
  Proc.print (.stdout (statusLine appRec tier))
  Proc.call (earFree (some ear))
  return 0

/-- The exit of `usage`, after the line of `getopt` if there is one. -/
def mainUsage (name : CStr) (diagnostic : Option CStr) : Tool Int := do
  if let some text := diagnostic then
    Proc.print (.getopt text)
  Proc.print (.usage (usage name))
  return exitFailure

/-- `main` from the reading of the key on. The buffer `errMsg` is not initialised. -/
def mainVerify [DecidableEq Alg] (host : Host) (env : Env Alg Jwt) (args : Args) (errMsg : Buffer) :
    Tool Int := do
  let keyFn ← Proc.lift (readStr (args.keyFn.window keyFnSz))
  let earFn ← Proc.lift (readStr (args.earFn.window earFnSz))
  let alg ← Proc.lift (readStr (args.alg.window algSz))
  let appRec ← Proc.lift (readStr (args.appRec.window appRecSz))
  let key ← Proc.perform (readFromFile host.keyFile keyFn none none)
  if key.ret = -1 then
    Proc.print (.warn (lit "error reading key from " ++ keyFn))
    return ← mainErr key.pb none none (none : Option (Ref (EarT Jwt)))
  let earJwt ← Proc.perform (readFromFile host.earFile earFn none none)
  if earJwt.ret = -1 then
    Proc.print (.warn (lit "error reading EAR JWT from " ++ earFn))
    return ← mainErr key.pb earJwt.pb none (none : Option (Ref (EarT Jwt)))
  let b ← Proc.lift earJwt.pb
  let bSz ← Proc.lift earJwt.pbSz
  let earJwtCstr ← Proc.perform (toCstr host.calloc b.val bSz)
  let some s := earJwtCstr
    | do
        Proc.print (.warn (lit "allocating EAR JWT string"))
        return ← mainErr key.pb earJwt.pb none (none : Option (Ref (EarT Jwt)))
  let token ← Proc.lift (readStr s.val)
  let pkey ← Proc.lift (asKey key.pb key.pbSz)
  let v ← Proc.call (earJwtVerify env token pkey alg none (some errMsg))
  let errMsg ← Proc.lift v.errMsg
  if v.ret ≠ 0 then
    let text ← Proc.lift (readStr (errMsg.window earErrSz))
    Proc.print (.warnx (lit "failed to verify EAR: " ++ text))
    return ← mainErr key.pb earJwt.pb earJwtCstr v.pear
  Proc.perform (free earJwt.pb)
  Proc.perform (free key.pb)
  Proc.perform (free earJwtCstr)
  Proc.print (.stdout (lit "EAR verified"))
  let ear ← Proc.lift v.pear
  return ← mainStatus env.libc ear appRec errMsg

def main [DecidableEq Alg] (host : Host) (env : Env Alg Jwt) (errMsg : Buffer) : Tool Int := do
  match ← Proc.lift (parseOpts host.getopt host.operand noArgs) with
  | .usage _ diagnostic => mainUsage host.name diagnostic
  | .returns args => mainVerify host env args errMsg

end CEar.VerifyTool
