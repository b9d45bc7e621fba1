import CEar.Tokens

namespace CEar.Acceptance

open Contract CString Ear Gates JsonValue Ownership Report Tokens Utils Verify

variable {Alg Jwt : Type}

/-- `ear_jwt_verify` returns 0 only for a token that is acceptable and signed
under the algorithm of the caller, and for every such token with an object for
submods unless memory runs out. -/
theorem earJwtVerify_accepts [DecidableEq Alg] {obs : Observations Alg Jwt} {env : Env Alg Jwt}
    (hdoc : Documented obs env) (earJwt : CStr) (pkey : Key) (alg : CStr)
    (pear : Option (Ref (EarT Jwt))) (errMsg : Option Buffer) (L : Ledger Kind) :
    ∃ r L', earJwtVerify env earJwt pkey alg pear errMsg L = some (r, L') ∧
      (r.ret = 0 → ∃ ear jwt submods text v, r.pear = some ear ∧
        ear.val.jwt.map Ref.val = some jwt ∧ ear.val.submods.map Ref.val = some v ∧
        Acceptable obs env earJwt pkey alg jwt submods ∧
        obs.verifies earJwt pkey (env.jwtStrAlg alg) ∧
        env.jwtGetGrantsJson jwt (lit "submods") = some text ∧ obs.serialises text submods ∧
        env.jsonLoads text 0 = some v) ∧
      (AllocationsSucceed obs env → ∀ jwt submods, submods.isObject = true →
        Acceptable obs env earJwt pkey alg jwt submods →
          r.ret = 0 ∧ ∃ ear v, r.pear = some ear ∧ ear.val.jwt.map Ref.val = some jwt ∧
            ear.val.submods.map Ref.val = some v ∧ JsonEqual v submods) := by
  obtain ⟨r, L', own, hrun, -, hr⟩ := (earJwtVerify_runs env earJwt pkey alg pear errMsg).run L
  refine ⟨r, L', hrun, ?_, ?_⟩
  · intro hret
    obtain ⟨ear, j, s, jwt, v, h, hv, hpear⟩ := hr.success hret
    obtain ⟨submods, text, hacc, hser, htext, hloads, -, hsig⟩ := accepted_of_ok hdoc h hv
    exact ⟨_, jwt, submods, text, v, hpear, rfl, rfl, hacc, hsig, htext, hser, hloads⟩
  · intro hall jwt submods hobj hacc
    have hcontainer : submods.isContainer = true := by
      cases submods <;> first | rfl | cases hobj
    obtain ⟨hauth, v, hv, hequal⟩ := ok_of_accepted hdoc hall hacc hcontainer
    obtain ⟨hret, ear, j, s, hpear⟩ := hr.of_ok hauth hv
    exact ⟨hret, _, v, hpear, rfl, rfl, hequal⟩

theorem earJwtVerify_accepts_sample :
    ∃ r L', earJwtVerify validEar.env validEar.text validEar.key (lit "ES256") none none Ledger.empty =
        some (r, L') ∧ r.ret = 0 := by
  obtain ⟨r, L', hrun, -, haccept⟩ := earJwtVerify_accepts validEar.documented validEar.text validEar.key
    (lit "ES256") none none Ledger.empty
  exact ⟨r, L', hrun, (haccept validEar.allocationsSucceed () _ rfl validEar.acceptable).1⟩

/-- The algorithm, the validator, the allocation, the signature or the validity
of the token is at fault. -/
def FailsEarly (env : Env Alg Jwt) (earJwt : CStr) (pkey : Key) (alg : CStr) : Prop :=
  env.jwtStrAlg alg = env.jwtAlgInval ∨
    (env.jwtValidNew (env.jwtStrAlg alg)).1 ≠ 0 ∨ (env.jwtValidNew (env.jwtStrAlg alg)).2 = none ∨
    env.callocEar = false ∨
    (env.jwtDecode earJwt pkey).1 ≠ 0 ∨ (env.jwtDecode earJwt pkey).2 = none ∨
    ∃ v jwt, (env.jwtValidNew (env.jwtStrAlg alg)).2 = some v ∧
      (env.jwtDecode earJwt pkey).2 = some jwt ∧
      env.jwtValidate jwt { v with headers := 1, now := env.time } ≠ 0

theorem failsEarly_iff {env : Env Alg Jwt} {earJwt : CStr} {pkey : Key} {alg : CStr} :
    FailsEarly env earJwt pkey alg ↔ ¬ ∃ jwt v, Authentic env earJwt pkey alg jwt v := by
  constructor
  · rintro hfail ⟨jwt, v, h⟩
    simp [FailsEarly, h.known, h.validator, h.allocated, h.decoded, h.valid] at hfail
  · intro hnot
    by_contra hfail
    simp only [FailsEarly, not_or, not_not] at hfail
    obtain ⟨hknown, hret, hsome, halloc, hret', hsome', hval⟩ := hfail
    obtain ⟨v, hv⟩ := Option.ne_none_iff_exists'.mp hsome
    obtain ⟨jwt, hjwt⟩ := Option.ne_none_iff_exists'.mp hsome'
    refine hnot ⟨jwt, v, hknown, Prod.ext hret hv, by simpa using halloc, Prod.ext hret' hjwt, ?_⟩
    by_contra hbad
    exact hval ⟨v, jwt, hv, hjwt, hbad⟩

/-- The caller reads the message of the step that failed just when that step
comes before the claims set is inspected, and `snprintf` has composed it: a later
message is overwritten. -/
theorem earJwtVerify_reports_iff [DecidableEq Alg] {env : Env Alg Jwt} {earJwt : CStr} {pkey : Key}
    {alg : CStr} {pear : Option (Ref (EarT Jwt))} {b : Buffer} {L L' : Ledger Kind}
    {r : VerifyResult Jwt}
    (hrun : earJwtVerify env earJwt pkey alg pear (some b) L = some (r, L')) (hret : r.ret = -1) :
    ∃ f b', (authenticate env earJwt pkey alg >>= inspect env) = .error f ∧ r.errMsg = some b' ∧
      (Reports b' f ↔ FailsEarly env earJwt pkey alg ∧
        (f.message.Countable ∨ (env.libc.leaves f).truncate (earErrSz - 1) = shown f)) := by
  obtain ⟨own, -, hr⟩ := (earJwtVerify_runs env earJwt pkey alg pear (some b)).result hrun
  rw [failsEarly_iff]
  cases hr with
  | unauthentic f h =>
      refine ⟨f, _, by rw [h, error_bind], rfl, ?_⟩
      have hnot : ¬ ∃ jwt v, Authentic env earJwt pkey alg jwt v := by
        rintro ⟨jwt, v, hauth⟩
        rw [authenticate_eq_ok.mpr ⟨v, hauth⟩] at h
        cases h
      rw [reports_write_iff, composed_eq_shown_iff]
      exact (and_iff_right hnot).symm
  | refused jwt f h hf =>
      refine ⟨f, _, by rw [h, ok_bind, hf], rfl, iff_of_false (not_reports_erased _ f) ?_⟩
      obtain ⟨v, hauth⟩ := authenticate_eq_ok.mp h
      exact fun hearly => hearly.1 ⟨jwt, v, hauth⟩
  | verified ear j s jwt submods h hs => exact absurd hret (by simp)

theorem earJwtVerify_reports_iff_unknown :
    ∃ r L' f b', earJwtVerify validEar.env validEar.text validEar.key (lit "ES257") none (some emptyErr)
        Ledger.empty = some (r, L') ∧
      r.ret = -1 ∧ r.errMsg = some b' ∧ Reports b' f := by
  have hunknown : lit "ES257" ∉ algorithms := by decide +kernel
  have halg : validEar.env.jwtStrAlg (lit "ES257") = validEar.env.jwtAlgInval := by
    simp only [Token.env, if_neg hunknown]
  have hauth : authenticate validEar.env validEar.text validEar.key (lit "ES257") =
      .error (.unknownAlg (lit "ES257")) := by
    rw [authenticate, require, if_neg (not_not.mpr halg), error_bind]
  obtain ⟨_, L', _, hrun, -, rfl, -⟩ :=
    (earJwtVerify_unauthentic hauth none (some emptyErr)).run Ledger.empty
  obtain ⟨f, b', hf, hb', hreports⟩ := earJwtVerify_reports_iff hrun rfl
  rw [hauth, error_bind, Except.error.injEq] at hf
  subst hf
  have hcountable : (Failure.unknownAlg (lit "ES257")).message.Countable := by decide +kernel
  exact ⟨_, L', _, b', hrun, rfl, hb', hreports.mpr ⟨Or.inl halg, Or.inl hcountable⟩⟩

/-- A token with a good signature and no profile is refused without a word. -/
theorem earJwtVerify_silent :
    let env := bareToken.env
    ∃ r L' b', earJwtVerify env bareToken.text bareToken.key (lit "HS256") none (some emptyErr)
        Ledger.empty = some (r, L') ∧
      r.ret = -1 ∧ r.errMsg = some b' ∧ b'.Holds (lit "") ∧
      (authenticate env bareToken.text bareToken.key (lit "HS256") >>= inspect env) =
        .error .missingProfile ∧ ¬ Reports b' .missingProfile := by
  intro env
  have hauth : Authentic env bareToken.text bareToken.key (lit "HS256") () ⟨some (lit "HS256"), 0, 0⟩ :=
    bareToken.authentic
  have hnone : env.jwtGetGrant () (lit "eat_profile") = none := by
    have hgrant : bareToken.grant (lit "eat_profile") = none := by
      rw [Token.grant, List.find?_eq_none]
      simp only [bareToken, List.mem_cons, forall_eq_or_imp]
      decide +kernel
    simp only [env, Token.env, hgrant]
    rfl
  have hinspect : inspect env () = .error .missingProfile := by
    simp only [inspect, checkProfile, hnone, found, error_bind]
  have hrun := earJwtVerify_authentic hauth none (some emptyErr)
  simp only [hinspect] at hrun
  obtain ⟨_, L', _, hrun, -, rfl, -⟩ := hrun.run Ledger.empty
  refine ⟨_, L', _, hrun, rfl, rfl, Buffer.holds_write _ (lit ""), ?_, not_reports_erased _ _⟩
  rw [authenticate_eq_ok.mpr ⟨_, hauth⟩, ok_bind, hinspect]

end CEar.Acceptance
