import CEar.Acceptance
import CEar.Accessors

namespace CEar.Diagnosis

open Acceptance Accessors B64urlDecode CString Ear Gates Ownership Report Tokens Utils Verify

variable {f f' : Failure}

/-- The checks of `ear.c` that fail with a message. -/
inductive Check
  | unknownAlg
  | validNew
  | earNew
  | jwtDecode
  | jwtValidate
  | missingProfile
  | unknownProfile
  | missingSubmods
  | badSubmods
  | noRecord
  | noStatus
  | unknownStatus
  | noKeyAttestation
  | noAkpub
  | badAkpub
  deriving DecidableEq

def check : Failure → Check
  | .unknownAlg _ => .unknownAlg
  | .validNew _ => .validNew
  | .earNew => .earNew
  | .jwtDecode _ => .jwtDecode
  | .jwtValidate _ => .jwtValidate
  | .missingProfile => .missingProfile
  | .unknownProfile _ => .unknownProfile
  | .missingSubmods => .missingSubmods
  | .badSubmods => .badSubmods
  | .noRecord _ => .noRecord
  | .noStatus => .noStatus
  | .unknownStatus _ => .unknownStatus
  | .noKeyAttestation => .noKeyAttestation
  | .noAkpub => .noAkpub
  | .badAkpub => .badAkpub

def checks : List Check :=
  [.unknownAlg, .validNew, .earNew, .jwtDecode, .jwtValidate, .missingProfile, .unknownProfile,
    .missingSubmods, .badSubmods, .noRecord, .noStatus, .unknownStatus, .noKeyAttestation, .noAkpub,
    .badAkpub]

/-- The fixed text that a message starts with. -/
def stem : Check → CStr
  | .unknownAlg => lit "unknown JWT algorithm \""
  | .validNew => lit "cannot initialise JWT validation object (jwt_valid_new="
  | .earNew => lit "cannot initialise the EAR object"
  | .jwtDecode => lit "cannot verify EAR JWT (jwt_decode="
  | .jwtValidate => lit "cannot validate EAR JWT (jwt_validate="
  | .missingProfile => lit "missing mandatory eat_profile"
  | .unknownProfile => lit "unknown eat_profile \""
  | .missingSubmods => lit "\"submods\" not found"
  | .badSubmods => lit "\"submods\" does not contain valid JSON"
  | .noRecord => lit "no appraisal record found for \""
  | .noStatus => lit "\"ear.status\" not found"
  | .unknownStatus => lit "unknown status \""
  | .noKeyAttestation => lit "\"ear.veraison.key-attestation\" not found"
  | .noAkpub => lit "\"akpub\" not found"
  | .badAkpub => lit "base64 decoding of \"akpub\" failed"

theorem mem_checks (c : Check) : c ∈ checks := by
  cases c <;> decide

theorem stem_message (f : Failure) : (stem (check f)).bytes <+: f.message.bytes := by
  cases f with
  | unknownAlg text | unknownProfile text | noRecord text | unknownStatus text =>
      exact (List.prefix_append _ text.bytes).trans (List.prefix_append _ (lit "\"").bytes)
  | validNew ret | jwtDecode ret | jwtValidate ret =>
      exact (List.prefix_append _ (decimal ret).bytes).trans (List.prefix_append _ (lit ")").bytes)
  | earNew | missingProfile | missingSubmods | badSubmods | noStatus | noKeyAttestation | noAkpub
  | badAkpub => exact List.prefix_rfl

theorem stems_prefixFree :
    ∀ c ∈ checks, ∀ c' ∈ checks, (stem c).bytes <+: (stem c').bytes → c = c' := by
  decide +kernel

theorem stem_fits : ∀ c ∈ checks, (stem c).length ≤ earErrSz - 1 := by
  decide +kernel

theorem stem_shown (f : Failure) : (stem (check f)).bytes <+: (shown f).bytes := by
  have hfits := stem_fits _ (mem_checks (check f))
  rw [shown, CStr.truncate_bytes]
  exact List.prefix_take_iff.mpr ⟨stem_message f, hfits⟩

/-- Cut to the size of a buffer, messages of two checks still differ, whatever
text of the token or of the caller they quote. -/
theorem check_eq_of_shown (h : shown f = shown f') : check f = check f' := by
  have hf := stem_shown f
  have hf' := stem_shown f'
  rw [h] at hf
  rcases List.prefix_or_prefix_of_prefix hf hf' with hcut | hcut
  · exact stems_prefixFree _ (mem_checks _) _ (mem_checks _) hcut
  · exact (stems_prefixFree _ (mem_checks _) _ (mem_checks _) hcut).symm

def digitByte (c : Char) : UInt8 := UInt8.ofNat c.toNat

theorem digitByte_toNat {c : Char} (h : c.isDigit = true) :
    (digitByte c).toNat = c.toNat ∧ 48 ≤ (digitByte c).toNat := by
  simp only [Char.isDigit, Bool.and_eq_true, decide_eq_true_eq, UInt32.le_iff_toNat_le] at h
  change 48 ≤ c.toNat ∧ c.toNat ≤ 57 at h
  rw [digitByte, UInt8.toNat_ofNat_of_lt' (by omega : c.toNat < 2 ^ 8)]
  exact ⟨rfl, h.1⟩

theorem toDigits_isDigit {n : Nat} {c : Char} (hc : c ∈ Nat.toDigits 10 n) : c.isDigit = true :=
  Nat.isDigit_of_mem_toDigits (by omega) (by omega) hc

theorem digits_inj {m n : Nat} (h : (Nat.toDigits 10 m).map digitByte = (Nat.toDigits 10 n).map digitByte) :
    m = n := by
  have hread (k : Nat) : ((Nat.toDigits 10 k).map digitByte).map (fun b => Char.ofNat b.toNat) =
      Nat.toDigits 10 k := by
    rw [List.map_map]
    conv_rhs => rw [← List.map_id (Nat.toDigits 10 k)]
    apply List.map_congr_left
    intro c hc
    rw [Function.comp_apply, (digitByte_toNat (toDigits_isDigit hc)).1, Char.ofNat_toNat, id]
  have hdigits : Nat.toDigits 10 m = Nat.toDigits 10 n := by rw [← hread m, h, hread n]
  have hvalue := congrArg (fun cs => Nat.ofDigitChars 10 cs 0) hdigits
  rwa [Nat.ofDigitChars_ten_toDigits, Nat.ofDigitChars_ten_toDigits] at hvalue

theorem decimal_bytes (n : Int) : (decimal n).bytes =
    (if n < 0 then [45] else []) ++ (Nat.toDigits 10 n.natAbs).map digitByte := by
  rfl

theorem minus_notMem_digits (n : Nat) : 45 ∉ (Nat.toDigits 10 n).map digitByte := by
  intro h
  obtain ⟨c, hc, h45⟩ := List.mem_map.mp h
  have hge := (digitByte_toNat (toDigits_isDigit hc)).2
  rw [h45] at hge
  exact absurd hge (by decide)

theorem decimal_inj {m n : Int} (h : (decimal m).bytes = (decimal n).bytes) : m = n := by
  rw [decimal_bytes, decimal_bytes] at h
  by_cases hm : m < 0
  · by_cases hn : n < 0
    · rw [if_pos hm, if_pos hn] at h
      have habs := digits_inj (List.append_cancel_left h)
      omega
    · rw [if_pos hm, if_neg hn, List.nil_append] at h
      exact absurd (h ▸ List.mem_append_left _ (List.mem_singleton_self 45)) (minus_notMem_digits _)
  · by_cases hn : n < 0
    · rw [if_neg hm, if_pos hn, List.nil_append] at h
      exact absurd (h ▸ List.mem_append_left _ (List.mem_singleton_self 45)) (minus_notMem_digits _)
    · rw [if_neg hm, if_neg hn, List.nil_append, List.nil_append] at h
      have habs := digits_inj h
      omega

theorem quoted_inj {a b s t : CStr} (h : (a ++ s ++ b).bytes = (a ++ t ++ b).bytes) : s.bytes = t.bytes := by
  simp only [CStr.append_bytes, List.append_assoc] at h
  exact List.append_cancel_right (List.append_cancel_left h)

/-- A message that is not cut tells all there is to tell. -/
theorem message_inj (h : f.message = f'.message) : f = f' := by
  have hbytes := congrArg CStr.bytes h
  have hcheck : check f = check f' := by
    apply check_eq_of_shown
    rw [shown, h, shown]
  cases f with
  | unknownAlg text | unknownProfile text | noRecord text | unknownStatus text =>
      cases f' <;> first | (cases hcheck; done) | exact congrArg _ (CStr.ext (quoted_inj hbytes))
  | validNew ret | jwtDecode ret | jwtValidate ret =>
      cases f' <;> first | (cases hcheck; done) | exact congrArg _ (decimal_inj (quoted_inj hbytes))
  | earNew | missingProfile | missingSubmods | badSubmods | noStatus | noKeyAttestation | noAkpub
  | badAkpub => cases f' <;> first | rfl | cases hcheck

/-- The buffer tells which check has failed; and everything about it, among the
messages that fit. -/
structure Diagnosed (b : Buffer) (f : Failure) : Prop where
  reports : Reports b f
  check : ∀ f', Reports b f' → check f' = check f
  whole : f.message.length < earErrSz → ∀ f', f'.message.length < earErrSz → Reports b f' → f' = f

theorem shown_of_fits (h : f.message.length < earErrSz) : shown f = f.message :=
  CStr.truncate_of_length_le (Nat.le_pred_of_lt h)

theorem Diagnosed.of_reports {b : Buffer} (h : Reports b f) : Diagnosed b f := by
  refine ⟨h, fun f' h' => check_eq_of_shown (h'.holds.unique h.holds), fun hfits f' hfits' h' => ?_⟩
  have hshown := h'.holds.unique h.holds
  rw [shown_of_fits hfits, shown_of_fits hfits'] at hshown
  exact message_inj hshown

theorem diagnosed_write (libc : Libc) (b : Buffer) (h : f.message.Countable) :
    Diagnosed (b.write (composed libc f).cells) f :=
  .of_reports (reports_write h b)

variable {Alg Jwt : Type}

/-- After every failure of an accessor, and of the first steps of a verification,
the caller's buffer identifies the check that failed, whatever names and texts
the caller or the token have chosen, unless `snprintf` cannot count its message. -/
theorem failures_diagnosed [DecidableEq Alg] {ear : Ref (EarT Jwt)} (hear : Verified ear) (appRec : CStr)
    (b : Buffer) (L : Ledger Kind) :
    (∀ libc ptier r L', earGetStatus libc ear.val appRec ptier (some b) L = some (r, L') → r.ret = -1 →
      ∃ f b', statusOf (ear.val.submods.map Ref.val) appRec = .error f ∧ r.errMsg = some b' ∧
        (f.message.Countable → Diagnosed b' f)) ∧
    (∀ libc calloc pakpub pakpubSz r L',
      earVeraisonGetAkpub libc calloc ear.val appRec pakpub pakpubSz (some b) L = some (r, L') →
        r.ret = -1 → ∃ f b', (akpubOf (ear.val.submods.map Ref.val) appRec = .error f ∨
            (∃ text, akpubOf (ear.val.submods.map Ref.val) appRec = .ok text) ∧ f = .badAkpub) ∧
          r.errMsg = some b' ∧ (f.message.Countable → Diagnosed b' f)) ∧
    ∀ (env : Env Alg Jwt) earJwt pkey alg pear r L',
      earJwtVerify env earJwt pkey alg pear (some b) L = some (r, L') → r.ret = -1 →
        FailsEarly env earJwt pkey alg →
          ∃ f b', authenticate env earJwt pkey alg = .error f ∧ r.errMsg = some b' ∧
            (f.message.Countable → Diagnosed b' f) := by
  refine ⟨?_, ?_, ?_⟩
  · intro libc ptier r L' hrun hret
    rw [earGetStatus_eq hear.complete] at hrun
    cases hstatus : statusOf (ear.val.submods.map Ref.val) appRec with
    | error f =>
        rw [hstatus] at hrun
        cases hrun
        exact ⟨f, _, rfl, rfl, diagnosed_write libc b⟩
    | ok t =>
        rw [hstatus] at hrun
        cases hrun
        exact absurd hret (by simp)
  · intro libc calloc pakpub pakpubSz r L' hrun hret
    have hfits := not_overruns_of_run hear.complete hrun
    obtain ⟨own, -, ⟨f, rfl, -, hcause⟩ | ⟨text, out, -, hzero, -⟩⟩ :=
      (earVeraisonGetAkpub_runs hear.complete libc hfits pakpub pakpubSz (some b)).result hrun
    · refine ⟨f, _, ?_, rfl, diagnosed_write libc b⟩
      rcases hcause with hcause | ⟨text, htext, hf⟩
      · exact Or.inl hcause
      · exact Or.inr ⟨⟨text, htext⟩, hf⟩
    · exact absurd (hret.symm.trans hzero) (by decide)
  · intro env earJwt pkey alg pear r L' hrun hret hearly
    obtain ⟨own, -, hr⟩ := (earJwtVerify_runs env earJwt pkey alg pear (some b)).result hrun
    rw [failsEarly_iff] at hearly
    cases hr with
    | unauthentic f h => exact ⟨f, _, h, rfl, diagnosed_write env.libc b⟩
    | refused jwt f h hf =>
        obtain ⟨v, hauth⟩ := authenticate_eq_ok.mp h
        exact absurd ⟨jwt, v, hauth⟩ hearly
    | verified ear j s jwt submods h hs => exact absurd hret (by simp)

theorem failures_diagnosed_record :
    ∃ (ear : Ref (EarT Unit)) (r : StatusResult) (L' : Ledger Kind) (b' : Buffer) (f : Failure),
      earGetStatus validEar.env.libc ear.val (lit "unknown status") none (some emptyErr) Ledger.empty =
        some (r, L') ∧
      r.errMsg = some b' ∧ Diagnosed b' f ∧ check f = .noRecord := by
  obtain ⟨ear, hear, hsub⟩ := validEar.verified
  have hstatus : statusOf (ear.val.submods.map Ref.val) (lit "unknown status") =
      .error (.noRecord (lit "unknown status")) := by
    rw [hsub]
    rfl
  have heq := earGetStatus_eq hear.complete validEar.env.libc (lit "unknown status") none (some emptyErr)
  have hrun := congrFun heq Ledger.empty
  rw [hstatus] at hrun
  obtain ⟨hdiagnosed, -⟩ :=
    @failures_diagnosed (Option CStr) Unit _ ear hear (lit "unknown status") emptyErr Ledger.empty
  obtain ⟨f, b', hf, hb', hd⟩ := hdiagnosed _ _ _ _ hrun rfl
  obtain rfl := Except.error.inj (hstatus.symm.trans hf)
  exact ⟨ear, _, _, b', _, hrun, hb', hd (by decide +kernel), rfl⟩

end CEar.Diagnosis
