import CEar.Gates

namespace CEar.Verify

open CString Ear Gates JsonValue Ownership Report Utils

variable {Alg Jwt : Type}

def held {α : Type} (k : Kind) : Option (Ref α) → Multiset (Obj Kind)
  | none => 0
  | some r => {(k, r.id)}

/-- What an EAR owns: itself, its token and its cached submods. -/
def owned (ear : Ref (EarT Jwt)) : Multiset (Obj Kind) :=
  held Kind.jwt ear.val.jwt + (held Kind.json ear.val.submods + {(Kind.ear, ear.id)})

theorem releaseOpt_runs {α : Type} (k : Kind) (o : Option (Ref α)) (rest : Multiset (Obj Kind)) :
    Runs (held k o + rest) (releaseOpt k o) (fun _ own => own = rest) := by
  cases o with
  | none => exact Runs.pure _ (zero_add rest)
  | some r => exact Runs.release (Multiset.singleton_add _ _) rfl

theorem earFree_runs (ear : Ref (EarT Jwt)) (rest : Multiset (Obj Kind)) :
    Runs (owned ear + rest) (earFree (some ear)) (fun _ own => own = rest) := by
  simp only [earFree, owned, add_assoc]
  apply Runs.bind (releaseOpt_runs _ _ _)
  rintro - _ rfl
  apply Runs.bind (releaseOpt_runs _ _ _)
  rintro - _ rfl
  exact Runs.release (Multiset.singleton_add _ _) rfl

theorem bindHold {α β : Type} (k : Kind) (a : α) {f : Option (Ref α) → Exec Kind β}
    {pre : Multiset (Obj Kind)} {post : β → Multiset (Obj Kind) → Prop}
    (h : ∀ id, Runs ((k, id) ::ₘ pre) (f (some ⟨id, a⟩)) post) :
    Runs pre (hold k (some a) >>= f) post := by
  simp only [hold, bind_assoc, pure_bind]
  exact Runs.bindAcquire k h

/-- An object handed over together with an error code is held all the same. -/
theorem bindHold_rejected {α β : Type} {k : Kind} {o : Option α} {ret : Int}
    {f : Option (Ref α) → Exec Kind β} {pre : Multiset (Obj Kind)}
    {post : β → Multiset (Obj Kind) → Prop} (hbad : ret ≠ 0 ∨ o = none) (hnone : Runs pre (f none) post)
    (hsome : ret ≠ 0 → ∀ a id, Runs ((k, id) ::ₘ pre) (f (some ⟨id, a⟩)) post) :
    Runs pre (hold k o >>= f) post := by
  cases o with
  | none => exact hnone
  | some a =>
      have hret : ret ≠ 0 := by simpa using hbad
      exact bindHold k a (hsome hret a)

@[simp] theorem hold_none {α : Type} (k : Kind) : hold k (none : Option α) = pure none := rfl

def heldEar (ear : Option (Ref (EarT Jwt))) : Multiset (Obj Kind) :=
  ear.elim 0 owned

/-- Everything `ear_jwt_verify` holds at its error exit is released there. -/
theorem verifyErr_runs {ear : Option (Ref (EarT Jwt))} {valid : Option (Ref (JwtValid Alg))}
    {e : Buffer} {pear : Option (Ref (EarT Jwt))} {errMsg errMsg' : Option Buffer}
    (he : reportErr errMsg e = pure errMsg') {pre : Multiset (Obj Kind)}
    (hpre : pre = heldEar ear + held Kind.jwtValid valid) :
    Runs pre (verifyErr ear valid e pear errMsg)
      (fun r own => r = ⟨-1, pear, errMsg'⟩ ∧ own = 0) := by
  subst hpre
  have hrest : Runs (held Kind.jwtValid valid)
      (do releaseOpt Kind.jwtValid valid; return ⟨-1, pear, ← reportErr errMsg e⟩)
      (fun r own => r = (⟨-1, pear, errMsg'⟩ : VerifyResult Jwt) ∧ own = 0) := by
    have hvalid := releaseOpt_runs Kind.jwtValid valid 0
    rw [add_zero] at hvalid
    apply Runs.bind hvalid
    rintro - _ rfl
    rw [he, pure_bind]
    exact Runs.pure _ ⟨rfl, rfl⟩
  cases ear with
  | none =>
      rw [heldEar, Option.elim_none, zero_add]
      exact hrest
  | some ear =>
      apply Runs.bind (earFree_runs ear _)
      rintro - _ rfl
      exact hrest

theorem validateProfile_eq (env : Env Alg Jwt) (j : Ref Jwt) (submods : Option (Ref Json))
    (errMsg : Option Buffer) : validateProfile env ⟨some j, submods⟩ errMsg =
      pure (match checkProfile env j.val with
        | .ok _ => (0, errMsg)
        | .error f => (-1, reported env.libc f errMsg)) := by
  simp only [validateProfile, checkProfile, Option.bind_some, reportErr_composeErr]
  cases env.jwtGetGrant j.val (lit "eat_profile") with
  | none => rfl
  | some eatProfile =>
      by_cases h : eatProfile = earProfile
      · simp [h, found, require]
      · simp [h, found, require]

theorem cacheSubmods_runs (env : Env Alg Jwt) (j : Ref Jwt) (submods : Option (Ref Json))
    (errMsg : Option Buffer) : Runs 0 (cacheSubmods env ⟨some j, submods⟩ errMsg) (fun r own =>
      match readSubmods env j.val with
      | .ok v => ∃ id, r = (some ⟨id, v⟩, errMsg) ∧ own = {(Kind.json, id)}
      | .error f => r = (none, reported env.libc f errMsg) ∧ own = 0) := by
  simp only [cacheSubmods, readSubmods, Option.bind_some, reportErr_composeErr]
  apply Runs.bindLift (if_pos rfl)
  cases env.jwtGetGrantsJson j.val (lit "submods") with
  | none =>
      simp only [found, error_bind, hold_none, pure_bind]
      exact Runs.pure _ ⟨rfl, rfl⟩
  | some text =>
      refine bindHold _ _ fun id => ?_
      cases hloads : env.jsonLoads text 0 with
      | none =>
          simp only [hloads, found, ok_bind, hold_none, pure_bind, Option.isNone_none, if_true]
          exact Runs.bindRelease rfl (Runs.pure _ ⟨rfl, rfl⟩)
      | some v =>
          simp only [hloads, found, ok_bind]
          refine bindHold _ _ fun id' => ?_
          refine Runs.bindRelease (Multiset.cons_swap _ _ _) (Runs.pure _ ⟨id', rfl, rfl⟩)

variable [DecidableEq Alg] {env : Env Alg Jwt} {earJwt : CStr} {pkey : Key} {alg : CStr} {f : Failure}

theorem earJwtVerify_unauthentic (h : authenticate env earJwt pkey alg = .error f)
    (pear : Option (Ref (EarT Jwt))) (errMsg : Option Buffer) :
    Runs 0 (earJwtVerify env earJwt pkey alg pear errMsg)
      (fun r own => r = ⟨-1, pear, reported env.libc f errMsg⟩ ∧ own = 0) := by
  have hreport (f : Failure) := reportErr_composeErr env.libc f errMsg
  rcases hnew : env.jwtValidNew (env.jwtStrAlg alg) with ⟨ret, valid⟩
  rcases hdec : env.jwtDecode earJwt pkey with ⟨ret', jwt⟩
  simp only [authenticate, hnew, hdec] at h
  simp only [earJwtVerify, hnew, hdec]
  rcases bind_eq_error h with hf | ⟨_, hknown, h₁⟩
  · obtain ⟨hunknown, rfl⟩ := require_eq_error.mp hf
    rw [if_pos (not_not.mp hunknown)]
    exact verifyErr_runs (hreport _) rfl
  rw [if_neg (require_eq_ok.mp hknown)]
  rcases bind_eq_error h₁ with hf | ⟨v, hv, h₂⟩
  · obtain ⟨hbad, rfl⟩ := accept_eq_error.mp hf
    refine bindHold_rejected hbad (verifyErr_runs (hreport _) rfl) fun hret v id => ?_
    simp only [if_pos hret]
    exact verifyErr_runs (hreport _) rfl
  obtain ⟨rfl, rfl⟩ := Prod.mk.inj (accept_eq_ok.mp hv)
  refine bindHold _ _ fun id => ?_
  simp only [ne_eq, not_true_eq_false, if_false]
  rcases bind_eq_error h₂ with hf | ⟨_, halloc, h₃⟩
  · obtain ⟨hfull, rfl⟩ := require_eq_error.mp hf
    rw [earNew, if_neg hfull, hold_none, pure_bind]
    exact verifyErr_runs (hreport _) rfl
  rw [earNew, if_pos (require_eq_ok.mp halloc)]
  refine bindHold _ _ fun ear => ?_
  rcases bind_eq_error h₃ with hf | ⟨j, hj, h₄⟩
  · obtain ⟨hbad, rfl⟩ := accept_eq_error.mp hf
    refine bindHold_rejected hbad (verifyErr_runs (hreport _) rfl) fun hret j jwt => ?_
    simp only [if_pos hret]
    exact verifyErr_runs (hreport _) rfl
  obtain ⟨rfl, rfl⟩ := Prod.mk.inj (accept_eq_ok.mp hj)
  refine bindHold _ _ fun jwt => ?_
  rcases bind_eq_error h₄ with hf | ⟨_, hval, h₅⟩
  · obtain ⟨hinvalid, rfl⟩ := require_eq_error.mp hf
    simp only [not_true_eq_false, if_false, if_pos hinvalid]
    exact verifyErr_runs (hreport _) rfl
  · cases h₅

theorem earJwtVerify_authentic {jwt : Jwt} {v : JwtValid Alg}
    (h : Authentic env earJwt pkey alg jwt v) (pear : Option (Ref (EarT Jwt)))
    (errMsg : Option Buffer) : Runs 0 (earJwtVerify env earJwt pkey alg pear errMsg) (fun r own =>
      match inspect env jwt with
      | .ok submods => ∃ ear j s, r = ⟨0, some ⟨ear, ⟨some ⟨j, jwt⟩, some ⟨s, submods⟩⟩⟩, errMsg⟩ ∧
          own = owned ⟨ear, ⟨some ⟨j, jwt⟩, some ⟨s, submods⟩⟩⟩
      | .error f => r = ⟨-1, pear, erased (reported env.libc f errMsg)⟩ ∧ own = 0) := by
  simp only [earJwtVerify, h.validator, h.decoded, if_neg h.known]
  refine bindHold _ _ fun valid => ?_
  simp only [ne_eq, not_true_eq_false, if_false, earNew, if_pos h.allocated]
  refine bindHold _ _ fun ear => ?_
  refine bindHold _ _ fun j => ?_
  simp only [not_true_eq_false, if_false, h.valid]
  have hvalid : (Kind.jwt, j) ::ₘ (Kind.ear, ear) ::ₘ (Kind.jwtValid, valid) ::ₘ 0 =
      (Kind.jwtValid, valid) ::ₘ owned (⟨ear, ⟨some ⟨j, jwt⟩, none⟩⟩ : Ref (EarT Jwt)) := by
    rw [Multiset.cons_swap (Kind.ear, ear), Multiset.cons_swap (Kind.jwt, j)]
    rfl
  apply Runs.bindRelease hvalid
  simp only [validateProfile_eq, pure_bind, inspect]
  cases checkProfile env jwt with
  | error f =>
      simp only [error_bind, if_true]
      exact verifyErr_runs (reportErr_emptyErr _) rfl
  | ok u =>
      simp only [ok_bind]
      rw [if_neg (by decide)]
      refine Runs.bindFrame (cacheSubmods_runs env _ _ _) fun r own hr => ?_
      cases hread : readSubmods env jwt with
      | error f =>
          simp only [hread] at hr
          obtain ⟨rfl, rfl⟩ := hr
          exact verifyErr_runs (reportErr_emptyErr _) (add_comm 0 _)
      | ok submods =>
          simp only [hread] at hr
          obtain ⟨s, rfl, rfl⟩ := hr
          refine Runs.pure _ ⟨ear, j, s, rfl, ?_⟩
          simp only [owned, held, zero_add]
          exact add_left_comm _ _ _

/-- How a call of `ear_jwt_verify` can end: with a token that is not authentic,
with claims it refuses, or with an EAR that caches the submods. -/
inductive Outcome (env : Env Alg Jwt) (earJwt : CStr) (pkey : Key) (alg : CStr)
    (pear : Option (Ref (EarT Jwt))) (errMsg : Option Buffer) :
    VerifyResult Jwt → Multiset (Obj Kind) → Prop
  | unauthentic (f : Failure) (h : authenticate env earJwt pkey alg = .error f) :
      Outcome env earJwt pkey alg pear errMsg ⟨-1, pear, reported env.libc f errMsg⟩ 0
  | refused (jwt : Jwt) (f : Failure) (h : authenticate env earJwt pkey alg = .ok jwt)
      (hf : inspect env jwt = .error f) :
      Outcome env earJwt pkey alg pear errMsg ⟨-1, pear, erased (reported env.libc f errMsg)⟩ 0
  | verified (ear j s : Nat) (jwt : Jwt) (submods : Json)
      (h : authenticate env earJwt pkey alg = .ok jwt) (hs : inspect env jwt = .ok submods) :
      Outcome env earJwt pkey alg pear errMsg
        ⟨0, some ⟨ear, ⟨some ⟨j, jwt⟩, some ⟨s, submods⟩⟩⟩, errMsg⟩
        (owned ⟨ear, ⟨some ⟨j, jwt⟩, some ⟨s, submods⟩⟩⟩)

theorem Outcome.success {pear : Option (Ref (EarT Jwt))} {errMsg : Option Buffer}
    {r : VerifyResult Jwt} {own : Multiset (Obj Kind)}
    (h : Outcome env earJwt pkey alg pear errMsg r own) (hret : r.ret = 0) :
    ∃ ear j s jwt v, authenticate env earJwt pkey alg = .ok jwt ∧ inspect env jwt = .ok v ∧
      r.pear = some ⟨ear, ⟨some ⟨j, jwt⟩, some ⟨s, v⟩⟩⟩ := by
  cases h with
  | unauthentic f h => exact absurd hret (by simp)
  | refused jwt f h hf => exact absurd hret (by simp)
  | verified ear j s jwt v h hv => exact ⟨ear, j, s, jwt, v, h, hv, rfl⟩

theorem Outcome.of_ok {pear : Option (Ref (EarT Jwt))} {errMsg : Option Buffer}
    {r : VerifyResult Jwt} {own : Multiset (Obj Kind)} {jwt : Jwt} {v : Json}
    (h : Outcome env earJwt pkey alg pear errMsg r own)
    (hauth : authenticate env earJwt pkey alg = .ok jwt) (hv : inspect env jwt = .ok v) :
    r.ret = 0 ∧ ∃ ear j s, r.pear = some ⟨ear, ⟨some ⟨j, jwt⟩, some ⟨s, v⟩⟩⟩ := by
  cases h with
  | unauthentic f h => cases hauth.symm.trans h
  | refused jwt' f h hf =>
      cases hauth.symm.trans h
      cases hv.symm.trans hf
  | verified ear j s jwt' v' h hv' =>
      cases hauth.symm.trans h
      cases hv.symm.trans hv'
      exact ⟨rfl, ear, j, s, rfl⟩

theorem earJwtVerify_runs (env : Env Alg Jwt) (earJwt : CStr) (pkey : Key) (alg : CStr)
    (pear : Option (Ref (EarT Jwt))) (errMsg : Option Buffer) :
    Runs 0 (earJwtVerify env earJwt pkey alg pear errMsg)
      (Outcome env earJwt pkey alg pear errMsg) := by
  cases h : authenticate env earJwt pkey alg with
  | error f =>
      refine (earJwtVerify_unauthentic h pear errMsg).mono ?_
      rintro _ _ ⟨rfl, rfl⟩
      exact .unauthentic f h
  | ok jwt =>
      obtain ⟨v, hv⟩ := authenticate_eq_ok.mp h
      refine (earJwtVerify_authentic hv pear errMsg).mono ?_
      intro r own hr
      cases hinspect : inspect env jwt with
      | error f =>
          simp only [hinspect] at hr
          obtain ⟨rfl, rfl⟩ := hr
          exact .refused jwt f h hinspect
      | ok submods =>
          simp only [hinspect] at hr
          obtain ⟨ear, j, s, rfl, rfl⟩ := hr
          exact .verified ear j s jwt submods h hinspect

structure Complete (ear : EarT Jwt) : Prop where
  jwt : ear.jwt.isSome = true
  submods : ear.submods.isSome = true

/-- An EAR that a successful call of `ear_jwt_verify` has returned. -/
def Verified (ear : Ref (EarT Jwt)) : Prop :=
  ∃ (Alg : Type) (_ : DecidableEq Alg) (env : Env Alg Jwt) (earJwt : CStr) (pkey : Key) (alg : CStr)
    (pear : Option (Ref (EarT Jwt))) (errMsg : Option Buffer) (L : Ledger Kind)
    (r : VerifyResult Jwt) (L' : Ledger Kind),
    earJwtVerify env earJwt pkey alg pear errMsg L = some (r, L') ∧ r.ret = 0 ∧ r.pear = some ear

theorem Verified.complete {ear : Ref (EarT Jwt)} (h : Verified ear) : Complete ear.val := by
  obtain ⟨_, _, env, earJwt, pkey, alg, pear, errMsg, L, r, L', hrun, hret, hear⟩ := h
  obtain ⟨own, -, hr⟩ := (earJwtVerify_runs env earJwt pkey alg pear errMsg).result hrun
  obtain ⟨id, j, s, jwt, v, -, -, hpear⟩ := hr.success hret
  obtain rfl := Option.some.inj (hear.symm.trans hpear)
  exact ⟨rfl, rfl⟩

end CEar.Verify
