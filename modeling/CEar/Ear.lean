import CEar.JsonValue
import CEar.Utils

namespace CEar.Ear

open CString JsonValue Ownership Utils

def earErrSz : Nat := 128

def earProfile : CStr := lit "tag:github.com,2023:veraison/ear"

inductive EarTier
  | none
  | affirming
  | warning
  | contraindicated
  deriving DecidableEq

/-- The messages that the functions of `ear.c` compose, one per call of
`snprintf`. -/
inductive Failure
  | unknownAlg (alg : CStr)
  | validNew (ret : Int)
  | earNew
  | jwtDecode (ret : Int)
  | jwtValidate (ret : Int)
  | missingProfile
  | unknownProfile (eatProfile : CStr)
  | missingSubmods
  | badSubmods
  | noRecord (appRec : CStr)
  | noStatus
  | unknownStatus (status : CStr)
  | noKeyAttestation
  | noAkpub
  | badAkpub

def Failure.message : Failure → CStr
  | .unknownAlg alg => lit "unknown JWT algorithm \"" ++ alg ++ lit "\""
  | .validNew ret =>
      lit "cannot initialise JWT validation object (jwt_valid_new=" ++ decimal ret ++ lit ")"
  | .earNew => lit "cannot initialise the EAR object"
  | .jwtDecode ret => lit "cannot verify EAR JWT (jwt_decode=" ++ decimal ret ++ lit ")"
  | .jwtValidate ret => lit "cannot validate EAR JWT (jwt_validate=" ++ decimal ret ++ lit ")"
  | .missingProfile => lit "missing mandatory eat_profile"
  | .unknownProfile eatProfile => lit "unknown eat_profile \"" ++ eatProfile ++ lit "\""
  | .missingSubmods => lit "\"submods\" not found"
  | .badSubmods => lit "\"submods\" does not contain valid JSON"
  | .noRecord appRec => lit "no appraisal record found for \"" ++ appRec ++ lit "\""
  | .noStatus => lit "\"ear.status\" not found"
  | .unknownStatus status => lit "unknown status \"" ++ status ++ lit "\""
  | .noKeyAttestation => lit "\"ear.veraison.key-attestation\" not found"
  | .noAkpub => lit "\"akpub\" not found"
  | .badAkpub => lit "base64 decoding of \"akpub\" failed"

/-- `char e[EAR_ERR_SZ] = {'\0'}` -/
def emptyErr : Buffer := fun _ => 0

/-- What the calls of `snprintf` leave in `e` when they fail: the C library
does not say. -/
structure Libc where
  leaves : Failure → CStr

def composeErr (libc : Libc) (f : Failure) : Buffer :=
  emptyErr.snprintf earErrSz f.message (libc.leaves f)

/-- `if (err_msg != NULL) (void)u_strlcpy(err_msg, e, EAR_ERR_SZ);` -/
def reportErr (errMsg : Option Buffer) (e : Buffer) : Exec Kind (Option Buffer) := do
  match errMsg with
  | none => return none
  | some b =>
      let (_, b) ← Exec.lift (uStrlcpy b (e.window earErrSz) earErrSz)
      return some b

/-- A public key and its size, which the library asserts to be positive. -/
structure Key where
  bytes : List UInt8
  nonempty : 0 < bytes.length

/-- What `jwt_valid_new` and the setters put in a validator. -/
structure JwtValid (Alg : Type) where
  alg : Alg
  headers : Int
  now : Int

/-- The functions outside the repository, with their outcomes during one call
of `ear_jwt_verify`: libjwt, jansson's parser, the clock, the allocator and
`snprintf`. -/
structure Env (Alg Jwt : Type) where
  libc : Libc
  jwtAlgInval : Alg
  jwtStrAlg : CStr → Alg
  jwtValidNew : Alg → Int × Option (JwtValid Alg)
  time : Int
  callocEar : Bool
  jwtDecode : CStr → Key → Int × Option Jwt
  jwtValidate : Jwt → JwtValid Alg → Int
  jwtGetGrant : Jwt → CStr → Option CStr
  jwtGetGrantsJson : Jwt → CStr → Option CStr
  jsonLoads : CStr → Nat → Option Json

structure EarT (Jwt : Type) where
  jwt : Option (Ref Jwt)
  submods : Option (Ref Json)

variable {Alg Jwt : Type}

/-- The object an external call hands over, if it hands one over. -/
def hold {α : Type} (k : Kind) (o : Option α) : Exec Kind (Option (Ref α)) := do
  match o with
  | none => return none
  | some a =>
      let id ← Exec.acquire k
      return some ⟨id, a⟩

def releaseOpt {α : Type} (k : Kind) (o : Option (Ref α)) : Exec Kind Unit := do
  match o with
  | none => return ()
  | some r => Exec.release k r.id

def earFree (ear : Option (Ref (EarT Jwt))) : Exec Kind Unit := do
  match ear with
  | none => return ()
  | some ear =>
      releaseOpt Kind.jwt ear.val.jwt
      releaseOpt Kind.json ear.val.submods
      Exec.release Kind.ear ear.id

def earNew (calloc : Bool) : Exec Kind (Option (Ref (EarT Jwt))) :=
  hold Kind.ear (if calloc then some ⟨none, none⟩ else none)

def validateProfile (env : Env Alg Jwt) (ear : EarT Jwt) (errMsg : Option Buffer) :
    Exec Kind (Int × Option Buffer) := do
  let some eatProfile := ear.jwt.bind (fun j => env.jwtGetGrant j.val (lit "eat_profile"))
    | return (-1, ← reportErr errMsg (composeErr env.libc .missingProfile))
  if eatProfile ≠ earProfile then
    return (-1, ← reportErr errMsg (composeErr env.libc (.unknownProfile eatProfile)))
  return (0, errMsg)

def cacheSubmods (env : Env Alg Jwt) (ear : EarT Jwt) (errMsg : Option Buffer) :
    Exec Kind (Option (Ref Json) × Option Buffer) := do
  Exec.assert (ear.jwt.isSome = true)
  let submodsJs ← hold Kind.text
    (ear.jwt.bind (fun j => env.jwtGetGrantsJson j.val (lit "submods")))
  let some text := submodsJs
    | return (none, ← reportErr errMsg (composeErr env.libc .missingSubmods))
  let submods ← hold Kind.json (env.jsonLoads text.val 0)
  if submods.isNone = true then
    Exec.release Kind.text text.id
    return (none, ← reportErr errMsg (composeErr env.libc .badSubmods))
  Exec.release Kind.text text.id
  return (submods, errMsg)

structure VerifyResult (Jwt : Type) where
  ret : Int
  pear : Option (Ref (EarT Jwt))
  errMsg : Option Buffer

/-- The exit `err:` of `ear_jwt_verify`. -/
def verifyErr (ear : Option (Ref (EarT Jwt))) (jwtValid : Option (Ref (JwtValid Alg)))
    (e : Buffer) (pear : Option (Ref (EarT Jwt))) (errMsg : Option Buffer) :
    Exec Kind (VerifyResult Jwt) := do
  earFree ear
  releaseOpt Kind.jwtValid jwtValid
  return ⟨-1, pear, ← reportErr errMsg e⟩

def earJwtVerify [DecidableEq Alg] (env : Env Alg Jwt) (earJwt : CStr) (pkey : Key) (alg : CStr)
    (pear : Option (Ref (EarT Jwt))) (errMsg : Option Buffer) : Exec Kind (VerifyResult Jwt) := do
  let optAlg := env.jwtStrAlg alg
  if optAlg = env.jwtAlgInval then
    return ← verifyErr none (none : Option (Ref (JwtValid Alg))) (composeErr env.libc (.unknownAlg alg)) pear
      errMsg
  let (ret, valid) := env.jwtValidNew optAlg
  let jwtValid ← hold Kind.jwtValid valid
  let some v := jwtValid
    | return ← verifyErr none jwtValid (composeErr env.libc (.validNew ret)) pear errMsg
  if ret ≠ 0 then
    return ← verifyErr none jwtValid (composeErr env.libc (.validNew ret)) pear errMsg
  let v := { v with val := { v.val with headers := 1, now := env.time } }
  let some ear ← (earNew env.callocEar : Exec Kind (Option (Ref (EarT Jwt))))
    | return ← verifyErr none (some v) (composeErr env.libc .earNew) pear errMsg
  let (ret, jwt) := env.jwtDecode earJwt pkey
  let ear := { ear with val := { ear.val with jwt := ← hold Kind.jwt jwt } }
  let some j := ear.val.jwt
    | return ← verifyErr (some ear) (some v) (composeErr env.libc (.jwtDecode ret)) pear errMsg
  if ret ≠ 0 then
    return ← verifyErr (some ear) (some v) (composeErr env.libc (.jwtDecode ret)) pear errMsg
  let ret := env.jwtValidate j.val v.val
  if ret ≠ 0 then
    return ← verifyErr (some ear) (some v) (composeErr env.libc (.jwtValidate ret)) pear errMsg
  Exec.release Kind.jwtValid v.id
  let (ret, errMsg) ← validateProfile env ear.val errMsg
  if ret = -1 then
    -- the callee has filled `errMsg`, and `e` is still empty
    return ← verifyErr (some ear) (none : Option (Ref (JwtValid Alg))) emptyErr pear errMsg
  let (submods, errMsg) ← cacheSubmods env ear.val errMsg
  let ear := { ear with val := { ear.val with submods := submods } }
  if ear.val.submods.isNone = true then
    return ← verifyErr (some ear) (none : Option (Ref (JwtValid Alg))) emptyErr pear errMsg
  return ⟨0, some ear, errMsg⟩

structure AppRecsResult where
  ret : Int
  pappRec : Option (Ref (List (Option CStr)))
  pappRecSz : Nat

/-- `keylist[i] = key`. A store through NULL or past the list faults. -/
def storeKey (keylist : Option (Ref (List (Option CStr)))) (i : Nat) (key : CStr) :
    Option (Option (Ref (List (Option CStr)))) := do
  let list ← keylist
  if i < list.val.length then
    return some { list with val := list.val.set i (some key) }
  else
    none

/-- `ear_get_app_recs`. `calloc` says whether its allocation succeeds. -/
def earGetAppRecs (calloc : Bool) (ear : EarT Jwt) (pappRec : Option (Ref (List (Option CStr))))
    (pappRecSz : Nat) : Exec Kind AppRecsResult := do
  let out : AppRecsResult := ⟨0, pappRec, pappRecSz⟩
  Exec.assert (ear.jwt.isSome = true)
  Exec.assert (ear.submods.isSome = true)
  let keys := jsonObjectKeys (ear.submods.map Ref.val)
  let appRecCount := keys.foldl (fun count _ => count + 1) 0
  let keylist ← hold Kind.nameList
    (if calloc then some (List.replicate appRecCount none) else none)
  let (keylist, _) ← Exec.lift (keys.foldlM (fun p key => do
    return (← storeKey p.1 p.2 key, p.2 + 1)) (keylist, 0))
  return { out with pappRecSz := appRecCount, pappRec := keylist }

def tiers : List (CStr × EarTier) :=
  [(lit "affirming", .affirming), (lit "contraindicated", .contraindicated),
    (lit "warning", .warning), (lit "none", .none)]

/-- `tier_from_string`: the return value and `*ptier`, which is empty when
nothing has been assigned to it. -/
def tierFromString (tier : CStr) (ptier : Option EarTier) : Int × Option EarTier :=
  match tiers.find? (fun t => t.1 = tier) with
  | some t => (0, some t.2)
  | none => (-1, ptier)

structure StatusResult where
  ret : Int
  ptier : Option EarTier
  errMsg : Option Buffer

def earGetStatus (libc : Libc) (ear : EarT Jwt) (appRec : CStr) (ptier : Option EarTier)
    (errMsg : Option Buffer) : Exec Kind StatusResult := do
  Exec.assert (ear.jwt.isSome = true)
  Exec.assert (ear.submods.isSome = true)
  let some submod := jsonObjectGet (ear.submods.map Ref.val) appRec
    | return ⟨-1, ptier, ← reportErr errMsg (composeErr libc (.noRecord appRec))⟩
  let some status := jsonStringValue (jsonObjectGet (some submod) (lit "ear.status"))
    | return ⟨-1, ptier, ← reportErr errMsg (composeErr libc .noStatus)⟩
  let (ret, ptier) := tierFromString status ptier
  if ret = -1 then
    return ⟨-1, ptier, ← reportErr errMsg (composeErr libc (.unknownStatus status))⟩
  return ⟨0, ptier, errMsg⟩

structure AkpubResult where
  ret : Int
  pakpub : Option (Ref Block)
  pakpubSz : Nat
  errMsg : Option Buffer

/-- `ear_veraison_get_akpub`. `calloc` is the outcome of the decoder's allocation. -/
def earVeraisonGetAkpub (libc : Libc) (calloc : Bool) (ear : EarT Jwt) (appRec : CStr)
    (pakpub : Option (Ref Block)) (pakpubSz : Nat) (errMsg : Option Buffer) :
    Exec Kind AkpubResult := do
  Exec.assert (ear.jwt.isSome = true)
  let some submod := jsonObjectGet (ear.submods.map Ref.val) appRec
    | return ⟨-1, pakpub, pakpubSz, ← reportErr errMsg (composeErr libc (.noRecord appRec))⟩
  let some keyAttestation := jsonObjectGet (some submod) (lit "ear.veraison.key-attestation")
    | return ⟨-1, pakpub, pakpubSz, ← reportErr errMsg (composeErr libc .noKeyAttestation)⟩
  let some akpub := jsonStringValue (jsonObjectGet (some keyAttestation) (lit "akpub"))
    | return ⟨-1, pakpub, pakpubSz, ← reportErr errMsg (composeErr libc .noAkpub)⟩
  let r ← uB64urlDecode calloc (some akpub) pakpub pakpubSz
  if r.ret = -1 then
    return ⟨-1, r.pout, r.poutSz, ← reportErr errMsg (composeErr libc .badAkpub)⟩
  return ⟨0, r.pout, r.poutSz, errMsg⟩

end CEar.Ear
