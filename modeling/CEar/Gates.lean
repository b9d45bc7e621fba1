import CEar.Report

namespace CEar.Gates

open CString Ear JsonValue Ownership Report Utils

variable {Alg Jwt : Type}

def require (p : Prop) [Decidable p] (f : Failure) : Except Failure Unit :=
  if p then .ok () else .error f

/-- A call that answers with a code and an object, and succeeds only with the
code 0 and an object. -/
def accept {α : Type} (f : Int → Failure) : Int × Option α → Except Failure α
  | (ret, some a) => if ret = 0 then .ok a else .error (f ret)
  | (ret, none) => .error (f ret)

/-- A call that answers NULL on failure. -/
def found {α : Type} (f : Failure) : Option α → Except Failure α
  | some a => .ok a
  | none => .error f

def authenticate [DecidableEq Alg] (env : Env Alg Jwt) (earJwt : CStr) (pkey : Key) (alg : CStr) :
    Except Failure Jwt := do
  require (env.jwtStrAlg alg ≠ env.jwtAlgInval) (.unknownAlg alg)
  let v ← accept .validNew (env.jwtValidNew (env.jwtStrAlg alg))
  let v := { v with headers := 1, now := env.time }
  require (env.callocEar = true) .earNew
  let jwt ← accept .jwtDecode (env.jwtDecode earJwt pkey)
  require (env.jwtValidate jwt v = 0) (.jwtValidate (env.jwtValidate jwt v))
  return jwt

def checkProfile (env : Env Alg Jwt) (jwt : Jwt) : Except Failure Unit := do
  let eatProfile ← found .missingProfile (env.jwtGetGrant jwt (lit "eat_profile"))
  require (eatProfile = earProfile) (.unknownProfile eatProfile)

def readSubmods (env : Env Alg Jwt) (jwt : Jwt) : Except Failure Json := do
  let text ← found .missingSubmods (env.jwtGetGrantsJson jwt (lit "submods"))
  found .badSubmods (env.jsonLoads text 0)

def inspect (env : Env Alg Jwt) (jwt : Jwt) : Except Failure Json := do
  checkProfile env jwt
  readSubmods env jwt

section Except

variable {α β : Type} {x : Except Failure α} {g : α → Except Failure β}

@[simp] theorem ok_bind (a : α) : (Except.ok a >>= g) = g a := rfl

@[simp] theorem error_bind (f : Failure) : ((Except.error f : Except Failure α) >>= g) = .error f := rfl

theorem bind_eq_ok {b : β} (h : (x >>= g) = .ok b) : ∃ a, x = .ok a ∧ g a = .ok b := by
  cases x with
  | error f => cases h
  | ok a => exact ⟨a, rfl, h⟩

theorem bind_eq_error {f : Failure} (h : (x >>= g) = .error f) :
    x = .error f ∨ ∃ a, x = .ok a ∧ g a = .error f := by
  cases x with
  | error f' => exact Or.inl (congrArg Except.error (Except.error.inj h))
  | ok a => exact Or.inr ⟨a, rfl, h⟩

end Except

theorem require_eq_ok {p : Prop} [Decidable p] {f : Failure} {u : Unit} :
    require p f = .ok u ↔ p := by
  by_cases hp : p <;> simp [require, hp]

theorem require_eq_error {p : Prop} [Decidable p] {f f' : Failure} :
    require p f = .error f' ↔ ¬ p ∧ f = f' := by
  by_cases hp : p <;> simp [require, hp]

theorem accept_eq_ok {α : Type} {f : Int → Failure} {r : Int × Option α} {a : α} :
    accept f r = .ok a ↔ r = (0, some a) := by
  obtain ⟨ret, o⟩ := r
  cases o with
  | none => simp [accept]
  | some b => by_cases h : ret = 0 <;> simp [accept, h]

theorem accept_eq_error {α : Type} {f : Int → Failure} {r : Int × Option α} {f' : Failure} :
    accept f r = .error f' ↔ (r.1 ≠ 0 ∨ r.2 = none) ∧ f r.1 = f' := by
  obtain ⟨ret, o⟩ := r
  cases o with
  | none => simp [accept]
  | some b => by_cases h : ret = 0 <;> simp [accept, h]

theorem found_eq_ok {α : Type} {f : Failure} {o : Option α} {a : α} :
    found f o = .ok a ↔ o = some a := by
  cases o <;> simp [found]

theorem found_eq_error {α : Type} {f f' : Failure} {o : Option α} :
    found f o = .error f' ↔ o = none ∧ f = f' := by
  cases o <;> simp [found]

theorem readSubmods_eq_ok {env : Env Alg Jwt} {jwt : Jwt} {v : Json} :
    readSubmods env jwt = .ok v ↔
      ∃ text, env.jwtGetGrantsJson jwt (lit "submods") = some text ∧ env.jsonLoads text 0 = some v := by
  constructor
  · intro h
    obtain ⟨text, htext, hv⟩ := bind_eq_ok h
    exact ⟨text, found_eq_ok.mp htext, found_eq_ok.mp hv⟩
  · rintro ⟨text, htext, hv⟩
    simp only [readSubmods, htext, found, ok_bind, hv]

theorem checkProfile_eq_ok {env : Env Alg Jwt} {jwt : Jwt} {u : Unit} :
    checkProfile env jwt = .ok u ↔ env.jwtGetGrant jwt (lit "eat_profile") = some earProfile := by
  constructor
  · intro h
    obtain ⟨eatProfile, hgrant, hsame⟩ := bind_eq_ok h
    rw [found_eq_ok.mp hgrant, require_eq_ok.mp hsame]
  · intro h
    simp only [checkProfile, h, found, ok_bind, require, if_true]

theorem inspect_eq_ok {env : Env Alg Jwt} {jwt : Jwt} {v : Json} :
    inspect env jwt = .ok v ↔
      env.jwtGetGrant jwt (lit "eat_profile") = some earProfile ∧ readSubmods env jwt = .ok v := by
  constructor
  · intro h
    obtain ⟨u, hprofile, hv⟩ := bind_eq_ok h
    exact ⟨checkProfile_eq_ok.mp hprofile, hv⟩
  · rintro ⟨hprofile, hv⟩
    have hchecked : checkProfile env jwt = .ok () := checkProfile_eq_ok.mpr hprofile
    rw [inspect, hchecked, ok_bind, hv]

structure Authentic (env : Env Alg Jwt) (earJwt : CStr) (pkey : Key) (alg : CStr) (jwt : Jwt)
    (v : JwtValid Alg) : Prop where
  known : env.jwtStrAlg alg ≠ env.jwtAlgInval
  validator : env.jwtValidNew (env.jwtStrAlg alg) = (0, some v)
  allocated : env.callocEar = true
  decoded : env.jwtDecode earJwt pkey = (0, some jwt)
  valid : env.jwtValidate jwt { v with headers := 1, now := env.time } = 0

theorem authenticate_eq_ok [DecidableEq Alg] {env : Env Alg Jwt} {earJwt : CStr} {pkey : Key}
    {alg : CStr} {jwt : Jwt} :
    authenticate env earJwt pkey alg = .ok jwt ↔ ∃ v, Authentic env earJwt pkey alg jwt v := by
  constructor
  · intro h
    obtain ⟨_, hknown, h⟩ := bind_eq_ok h
    obtain ⟨v, hv, h⟩ := bind_eq_ok h
    obtain ⟨_, halloc, h⟩ := bind_eq_ok h
    obtain ⟨jwt', hdec, h⟩ := bind_eq_ok h
    obtain ⟨_, hval, h⟩ := bind_eq_ok h
    obtain rfl : jwt' = jwt := Except.ok.inj h
    exact ⟨v, require_eq_ok.mp hknown, accept_eq_ok.mp hv, require_eq_ok.mp halloc,
      accept_eq_ok.mp hdec, require_eq_ok.mp hval⟩
  · rintro ⟨v, h⟩
    simp [authenticate, require, accept, h.known, h.validator, h.allocated, h.decoded, h.valid]

end CEar.Gates
