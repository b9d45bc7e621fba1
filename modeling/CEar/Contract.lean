import CEar.Verify

namespace CEar.Contract

open CString Ear Gates JsonValue Ownership Report Utils Verify

/-- What is true of a token, a key and a text, seen by the library through its
callees only. -/
structure Observations (Alg Jwt : Type) where
  headerAlg : Jwt → Alg
  claim : Jwt → CStr → Option Json
  verifies : CStr → Key → Alg → Prop
  serialises : CStr → Json → Prop

variable {Alg Jwt : Type}

structure Documented (obs : Observations Alg Jwt) (env : Env Alg Jwt) : Prop where
  validNew : ∀ alg ret v, env.jwtValidNew alg = (ret, some v) → v.alg = alg
  decode : ∀ token key jwt, env.jwtDecode token key = (0, some jwt) →
    obs.verifies token key (obs.headerAlg jwt)
  validate : ∀ jwt v, env.jwtValidate jwt v = 0 → obs.headerAlg jwt = v.alg
  grant : ∀ jwt name s, env.jwtGetGrant jwt name = some s ↔ obs.claim jwt name = some (.string s)
  grantsJson : ∀ jwt name text, env.jwtGetGrantsJson jwt name = some text →
    ∃ v, obs.claim jwt name = some v ∧ obs.serialises text v
  loads : ∀ text v w, env.jsonLoads text 0 = some v → obs.serialises text w → JsonEqual v w
  loadsTop : ∀ text v, env.jsonLoads text 0 = some v → v.isContainer = true

structure AllocationsSucceed (obs : Observations Alg Jwt) (env : Env Alg Jwt) : Prop where
  validNew : ∀ alg, alg ≠ env.jwtAlgInval → ∃ v, env.jwtValidNew alg = (0, some v)
  calloc : env.callocEar = true
  grantsJson : ∀ jwt name v, obs.claim jwt name = some v →
    ∃ text, env.jwtGetGrantsJson jwt name = some text
  loads : ∀ text v, obs.serialises text v → v.isContainer = true → ∃ w, env.jsonLoads text 0 = some w

/-- A token that may be accepted when the caller names `alg`. -/
structure Acceptable (obs : Observations Alg Jwt) (env : Env Alg Jwt) (earJwt : CStr) (pkey : Key)
    (alg : CStr) (jwt : Jwt) (submods : Json) : Prop where
  known : env.jwtStrAlg alg ≠ env.jwtAlgInval
  decoded : env.jwtDecode earJwt pkey = (0, some jwt)
  valid : env.jwtValidate jwt ⟨env.jwtStrAlg alg, 1, env.time⟩ = 0
  profile : obs.claim jwt (lit "eat_profile") =
    some (.string (lit "tag:github.com,2023:veraison/ear"))
  claimed : obs.claim jwt (lit "submods") = some submods

section Contract

variable {obs : Observations Alg Jwt} {env : Env Alg Jwt} {earJwt : CStr} {pkey : Key}
  {alg : CStr} {jwt : Jwt}

theorem validator_eq (hdoc : Documented obs env) {v : JwtValid Alg}
    (h : Authentic env earJwt pkey alg jwt v) :
    ({ v with headers := 1, now := env.time } : JwtValid Alg) = ⟨env.jwtStrAlg alg, 1, env.time⟩ := by
  rw [hdoc.validNew _ _ _ h.validator]

theorem authentic_verifies (hdoc : Documented obs env) {v : JwtValid Alg}
    (h : Authentic env earJwt pkey alg jwt v) :
    obs.verifies earJwt pkey (env.jwtStrAlg alg) := by
  have hheader : obs.headerAlg jwt = v.alg := hdoc.validate jwt { v with headers := 1, now := env.time } h.valid
  rw [← hdoc.validNew _ _ _ h.validator, ← hheader]
  exact hdoc.decode _ _ _ h.decoded

variable [DecidableEq Alg]

theorem accepted_of_ok (hdoc : Documented obs env) {v : Json}
    (h : authenticate env earJwt pkey alg = .ok jwt) (hv : inspect env jwt = .ok v) :
    ∃ submods text, Acceptable obs env earJwt pkey alg jwt submods ∧ obs.serialises text submods ∧
      env.jwtGetGrantsJson jwt (lit "submods") = some text ∧ env.jsonLoads text 0 = some v ∧
      JsonEqual v submods ∧ obs.verifies earJwt pkey (env.jwtStrAlg alg) := by
  obtain ⟨valid, hauth⟩ := authenticate_eq_ok.mp h
  obtain ⟨hprofile, hread⟩ := inspect_eq_ok.mp hv
  obtain ⟨text, htext, hloads⟩ := readSubmods_eq_ok.mp hread
  obtain ⟨submods, hclaim, hser⟩ := hdoc.grantsJson _ _ _ htext
  have hvalid := hauth.valid
  rw [validator_eq hdoc hauth] at hvalid
  exact ⟨submods, text, ⟨hauth.known, hauth.decoded, hvalid, (hdoc.grant _ _ _).mp hprofile, hclaim⟩,
    hser, htext, hloads, hdoc.loads _ _ _ hloads hser, authentic_verifies hdoc hauth⟩

theorem ok_of_accepted (hdoc : Documented obs env) (hall : AllocationsSucceed obs env) {submods : Json}
    (h : Acceptable obs env earJwt pkey alg jwt submods) (hsub : submods.isContainer = true) :
    authenticate env earJwt pkey alg = .ok jwt ∧ ∃ v, inspect env jwt = .ok v ∧ JsonEqual v submods := by
  obtain ⟨valid, hnew⟩ := hall.validNew _ h.known
  have hvalid := h.valid
  rw [← hdoc.validNew _ _ _ hnew] at hvalid
  obtain ⟨text, htext⟩ := hall.grantsJson _ _ _ h.claimed
  obtain ⟨w, hw, hser⟩ := hdoc.grantsJson _ _ _ htext
  obtain rfl : submods = w := Option.some.inj (h.claimed.symm.trans hw)
  obtain ⟨v, hloads⟩ := hall.loads _ _ hser hsub
  exact ⟨authenticate_eq_ok.mpr ⟨valid, h.known, hnew, hall.calloc, h.decoded, hvalid⟩, v,
    inspect_eq_ok.mpr ⟨(hdoc.grant _ _ _).mpr h.profile, readSubmods_eq_ok.mpr ⟨text, htext, hloads⟩⟩,
    hdoc.loads _ _ _ hloads hser⟩

end Contract

end CEar.Contract
