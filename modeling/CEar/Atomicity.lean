import CEar.Accessors
import CEar.Tokens

namespace CEar.Atomicity

open Accessors CString Ear Gates JsonValue Ownership Report Tokens Utils Verify

variable {Jwt : Type}

/-- A string in the buffer, which is the whole of what has been written there. -/
structure Leaves (b b' : Buffer) (text : CStr) : Prop where
  holds : b'.Holds text
  fits : text.length ≤ earErrSz - 1
  kept : ∀ i, earErrSz ≤ i → b' i = b i

/-- How a call answers that fails with a message satisfying `failing`: the buffer
is left with a string, which is the message cut to fit where `int` can count it.
A success writes nothing. -/
structure Answers (ret : Int) (errMsg errMsg' : Option Buffer) (failing : CStr → Prop) : Prop where
  outcome : ret = 0 ∨ ret = -1
  success : ret = 0 → errMsg' = errMsg
  failure : ret = -1 → ∃ message, failing message ∧ ∀ b, errMsg = some b → ∃ b' text,
    errMsg' = some b' ∧ Leaves b b' text ∧
      (message.Countable → text = message.truncate (earErrSz - 1) ∧ 0 < text.length)

/-- The stages at which `ear_get_status` fails, by their messages. -/
inductive StatusFails (submods : Option Json) (appRec : CStr) : CStr → Prop
  | noRecord (h : jsonObjectGet submods appRec = none) :
      StatusFails submods appRec (lit "no appraisal record found for \"" ++ appRec ++ lit "\"")
  | noStatus {submod} (h : jsonObjectGet submods appRec = some submod)
      (hstatus : jsonStringValue (jsonObjectGet (some submod) (lit "ear.status")) = none) :
      StatusFails submods appRec (lit "\"ear.status\" not found")
  | unknownStatus {submod status} (h : jsonObjectGet submods appRec = some submod)
      (hstatus : jsonStringValue (jsonObjectGet (some submod) (lit "ear.status")) = some status)
      (hunknown : status ∉ [lit "none", lit "affirming", lit "warning", lit "contraindicated"]) :
      StatusFails submods appRec (lit "unknown status \"" ++ status ++ lit "\"")

/-- The stages at which `ear_veraison_get_akpub` fails, by their messages. -/
inductive AkpubFails (submods : Option Json) (appRec : CStr) : CStr → Prop
  | noRecord (h : jsonObjectGet submods appRec = none) :
      AkpubFails submods appRec (lit "no appraisal record found for \"" ++ appRec ++ lit "\"")
  | noKeyAttestation {submod} (h : jsonObjectGet submods appRec = some submod)
      (hatt : jsonObjectGet (some submod) (lit "ear.veraison.key-attestation") = none) :
      AkpubFails submods appRec (lit "\"ear.veraison.key-attestation\" not found")
  | noAkpub {submod keyAttestation} (h : jsonObjectGet submods appRec = some submod)
      (hatt : jsonObjectGet (some submod) (lit "ear.veraison.key-attestation") = some keyAttestation)
      (hakpub : jsonStringValue (jsonObjectGet (some keyAttestation) (lit "akpub")) = none) :
      AkpubFails submods appRec (lit "\"akpub\" not found")
  | badAkpub {submod keyAttestation akpub} (h : jsonObjectGet submods appRec = some submod)
      (hatt : jsonObjectGet (some submod) (lit "ear.veraison.key-attestation") = some keyAttestation)
      (hakpub : jsonStringValue (jsonObjectGet (some keyAttestation) (lit "akpub")) = some akpub) :
      AkpubFails submods appRec (lit "base64 decoding of \"akpub\" failed")

theorem tierOf_eq_none {status : CStr} (h : tierOf status = none) :
    status ∉ [lit "none", lit "affirming", lit "warning", lit "contraindicated"] := by
  have hknown : ∀ s ∈ [lit "none", lit "affirming", lit "warning", lit "contraindicated"],
      tierOf s ≠ none := by decide +kernel
  exact fun hmem => hknown status hmem h

variable {submods : Option Json} {appRec text : CStr} {f : Failure}

theorem statusFails_of_error (h : statusOf submods appRec = .error f) :
    StatusFails submods appRec f.message := by
  rcases bind_eq_error h with hrecord | ⟨submod, hrecord, hrest⟩
  · obtain ⟨hnone, rfl⟩ := found_eq_error.mp hrecord
    exact .noRecord hnone
  have hsubmod := found_eq_ok.mp hrecord
  rcases bind_eq_error hrest with hstatus | ⟨status, hstatus, htier⟩
  · obtain ⟨hnone, rfl⟩ := found_eq_error.mp hstatus
    exact .noStatus hsubmod hnone
  · obtain ⟨hnone, rfl⟩ := found_eq_error.mp htier
    exact .unknownStatus hsubmod (found_eq_ok.mp hstatus) (tierOf_eq_none hnone)

theorem akpubFails_of_error (h : akpubOf submods appRec = .error f) :
    AkpubFails submods appRec f.message := by
  rcases bind_eq_error h with hrecord | ⟨submod, hrecord, hrest⟩
  · obtain ⟨hnone, rfl⟩ := found_eq_error.mp hrecord
    exact .noRecord hnone
  have hsubmod := found_eq_ok.mp hrecord
  rcases bind_eq_error hrest with hatt | ⟨keyAttestation, hatt, hakpub⟩
  · obtain ⟨hnone, rfl⟩ := found_eq_error.mp hatt
    exact .noKeyAttestation hsubmod hnone
  · obtain ⟨hnone, rfl⟩ := found_eq_error.mp hakpub
    exact .noAkpub hsubmod (found_eq_ok.mp hatt) hnone

theorem akpubFails_of_ok (h : akpubOf submods appRec = .ok text) :
    AkpubFails submods appRec (Failure.message .badAkpub) := by
  obtain ⟨submod, hrecord, hrest⟩ := bind_eq_ok h
  obtain ⟨keyAttestation, hatt, hakpub⟩ := bind_eq_ok hrest
  exact .badAkpub (found_eq_ok.mp hrecord) (found_eq_ok.mp hatt) (found_eq_ok.mp hakpub)

theorem answers_success (errMsg : Option Buffer) (failing : CStr → Prop) :
    Answers 0 errMsg errMsg failing :=
  ⟨Or.inl rfl, fun _ => rfl, fun h => absurd h (by decide)⟩

theorem answers_failure (libc : Libc) (errMsg : Option Buffer) {failing : CStr → Prop}
    (hf : failing f.message) : Answers (-1) errMsg (reported libc f errMsg) failing := by
  refine ⟨Or.inr rfl, fun h => absurd h (by decide), fun _ => ⟨f.message, hf, ?_⟩⟩
  rintro b rfl
  refine ⟨_, composed libc f, rfl, ⟨Buffer.holds_write _ _, composed_le libc f, fun i hi => ?_⟩, fun h => ?_⟩
  · exact write_composed_ge libc b f hi
  · rw [composed_countable libc h]
    exact ⟨rfl, shown_pos f⟩

theorem earGetStatus_answers {ear : EarT Jwt} (h : Complete ear) (libc : Libc) (appRec : CStr)
    (ptier : Option EarTier) (errMsg : Option Buffer) (L : Ledger Kind) :
    ∃ r L', earGetStatus libc ear appRec ptier errMsg L = some (r, L') ∧
      Answers r.ret errMsg r.errMsg (StatusFails (ear.submods.map Ref.val) appRec) ∧
      (r.ret = -1 → r.ptier = ptier) := by
  rw [earGetStatus_eq h]
  refine ⟨_, L, rfl, ?_⟩
  cases hstatus : statusOf (ear.submods.map Ref.val) appRec with
  | error f => exact ⟨answers_failure libc errMsg (statusFails_of_error hstatus), fun _ => rfl⟩
  | ok t => exact ⟨answers_success errMsg _, fun hret => absurd hret (by simp)⟩

theorem earVeraisonGetAkpub_answers {ear : EarT Jwt} (h : Complete ear) {libc : Libc} {calloc : Bool}
    {pakpub : Option (Ref Block)} {pakpubSz : Nat} {errMsg : Option Buffer} {L L' : Ledger Kind}
    {r : AkpubResult}
    (hrun : earVeraisonGetAkpub libc calloc ear appRec pakpub pakpubSz errMsg L = some (r, L')) :
    Answers r.ret errMsg r.errMsg (AkpubFails (ear.submods.map Ref.val) appRec) ∧
      (r.ret = -1 → r.pakpub = pakpub ∧ r.pakpubSz = pakpubSz) := by
  have hfits := not_overruns_of_run h hrun
  obtain ⟨own, -, hr⟩ := (earVeraisonGetAkpub_runs h libc hfits pakpub pakpubSz errMsg).result hrun
  rcases hr with ⟨f, rfl, -, hf | ⟨text, htext, rfl⟩⟩ | ⟨text, out, -, hret, -, herr, -⟩
  · exact ⟨answers_failure libc errMsg (akpubFails_of_error hf), fun _ => ⟨rfl, rfl⟩⟩
  · exact ⟨answers_failure libc errMsg (akpubFails_of_ok htext), fun _ => ⟨rfl, rfl⟩⟩
  · rw [hret, herr]
    exact ⟨answers_success errMsg _, fun hfail => absurd hfail (by decide)⟩

theorem earGetStatus_errMsg {ear : EarT Jwt} (h : Complete ear) (libc : Libc) (appRec : CStr)
    (ptier : Option EarTier) (errMsg errMsg' : Option Buffer) (L : Ledger Kind) :
    (earGetStatus libc ear appRec ptier errMsg L).map (fun p => (p.1.ret, p.1.ptier)) =
      (earGetStatus libc ear appRec ptier errMsg' L).map (fun p => (p.1.ret, p.1.ptier)) := by
  rw [earGetStatus_eq h, earGetStatus_eq h]
  cases statusOf (ear.submods.map Ref.val) appRec with
  | error f => rfl
  | ok t => rfl

theorem earVeraisonGetAkpub_errMsg {ear : EarT Jwt} (h : Complete ear) (libc : Libc) (calloc : Bool)
    (appRec : CStr) (pakpub : Option (Ref Block)) (pakpubSz : Nat) (errMsg errMsg' : Option Buffer)
    (L : Ledger Kind) :
    (earVeraisonGetAkpub libc calloc ear appRec pakpub pakpubSz errMsg L).map
        (fun p => (p.1.ret, p.1.pakpub, p.1.pakpubSz)) =
      (earVeraisonGetAkpub libc calloc ear appRec pakpub pakpubSz errMsg' L).map
        (fun p => (p.1.ret, p.1.pakpub, p.1.pakpubSz)) := by
  rw [earVeraisonGetAkpub_eq h, earVeraisonGetAkpub_eq h]
  cases akpubOf (ear.submods.map Ref.val) appRec with
  | error f => rfl
  | ok text =>
      simp only [Exec.bind_apply]
      cases uB64urlDecode calloc (some text) pakpub pakpubSz L with
      | none => rfl
      | some p => rfl

/-- A failing accessor changes nothing but the buffer for messages, where it
leaves the message of the stage that failed. One that overruns the block of a
key does not return. -/
theorem accessors_atomic {ear : Ref (EarT Jwt)} (hear : Verified ear) (libc : Libc) (appRec : CStr) :
    (∀ ptier errMsg L, ∃ r L', earGetStatus libc ear.val appRec ptier errMsg L = some (r, L') ∧
      Answers r.ret errMsg r.errMsg (StatusFails (ear.val.submods.map Ref.val) appRec) ∧
      (r.ret = -1 → r.ptier = ptier)) ∧
    (∀ calloc pakpub pakpubSz errMsg L,
      (earVeraisonGetAkpub libc calloc ear.val appRec pakpub pakpubSz errMsg L = none ↔
        Overruns calloc (ear.val.submods.map Ref.val) appRec) ∧
      ∀ r L', earVeraisonGetAkpub libc calloc ear.val appRec pakpub pakpubSz errMsg L = some (r, L') →
        Answers r.ret errMsg r.errMsg (AkpubFails (ear.val.submods.map Ref.val) appRec) ∧
        (r.ret = -1 → r.pakpub = pakpub ∧ r.pakpubSz = pakpubSz)) ∧
    (∀ ptier errMsg errMsg' L,
      (earGetStatus libc ear.val appRec ptier errMsg L).map (fun p => (p.1.ret, p.1.ptier)) =
        (earGetStatus libc ear.val appRec ptier errMsg' L).map (fun p => (p.1.ret, p.1.ptier))) ∧
    ∀ calloc pakpub pakpubSz errMsg errMsg' L,
      (earVeraisonGetAkpub libc calloc ear.val appRec pakpub pakpubSz errMsg L).map
          (fun p => (p.1.ret, p.1.pakpub, p.1.pakpubSz)) =
        (earVeraisonGetAkpub libc calloc ear.val appRec pakpub pakpubSz errMsg' L).map
          (fun p => (p.1.ret, p.1.pakpub, p.1.pakpubSz)) := by
  refine ⟨earGetStatus_answers hear.complete libc appRec, ?_, earGetStatus_errMsg hear.complete libc appRec,
    fun calloc => earVeraisonGetAkpub_errMsg hear.complete libc calloc appRec⟩
  intro calloc pakpub pakpubSz errMsg L
  exact ⟨earVeraisonGetAkpub_eq_none hear.complete,
    fun r L' hrun => earVeraisonGetAkpub_answers hear.complete hrun⟩

theorem accessors_atomic_sample :
    ∃ (ear : Ref (EarT Unit)) (r : StatusResult) (L' : Ledger Kind) (b' : Buffer), Verified ear ∧
      earGetStatus validEar.env.libc ear.val (lit "CCA_REALM") (some .none) (some emptyErr) Ledger.empty =
        some (r, L') ∧
      r.ret = -1 ∧ r.ptier = some .none ∧ r.errMsg = some b' ∧
      b'.Holds (lit "no appraisal record found for \"CCA_REALM\"") := by
  obtain ⟨ear, hear, hsub⟩ := validEar.verified
  obtain ⟨hstatus, -⟩ := accessors_atomic hear validEar.env.libc (lit "CCA_REALM")
  obtain ⟨r, L', hrun, hanswers, hptier⟩ := hstatus (some .none) (some emptyErr) Ledger.empty
  have hnone : jsonObjectGet (ear.val.submods.map Ref.val) (lit "CCA_REALM") = none := by
    rw [hsub]
    rfl
  have hret : r.ret = -1 := by
    rw [earGetStatus_eq hear.complete, statusOf, recordOf, hnone] at hrun
    cases hrun
    rfl
  obtain ⟨message, hmessage, hleaves⟩ := hanswers.failure hret
  obtain ⟨b', text, hb', hb, htext⟩ := hleaves emptyErr rfl
  have hfirst : message = lit "no appraisal record found for \"CCA_REALM\"" := by
    cases hmessage with
    | noRecord => decide +kernel
    | noStatus h => exact absurd (hnone.symm.trans h) (by simp)
    | unknownStatus h => exact absurd (hnone.symm.trans h) (by simp)
  obtain ⟨rfl, -⟩ := htext (by rw [hfirst]; decide +kernel)
  have hcut : message.truncate (earErrSz - 1) = lit "no appraisal record found for \"CCA_REALM\"" := by
    rw [hfirst]
    decide +kernel
  exact ⟨ear, r, L', b', hear, hrun, hret, hptier hret, hb', hcut ▸ hb.holds⟩

/-- A name that no message can quote in full. -/
def longName : CStr where
  bytes := List.replicate 2147483649 120
  nulFree := fun h => absurd (List.eq_of_mem_replicate h) (by decide)

/-- A library that leaves blanks where the text that it cannot count would go. -/
def blanks : Libc where
  leaves _ := lit "no appraisal record found for \"" ++
    lit "                                                                                                "

theorem longName_length : longName.length = 2147483649 := by
  rw [CStr.length, longName, List.length_replicate]

theorem noRecord_countable {name : CStr} (h : (Failure.noRecord name).message.Countable) :
    name.length ≤ 2147483647 := by
  change (lit "no appraisal record found for \"" ++ name ++ lit "\"").length ≤ 2147483647 at h
  rw [CStr.append_length, CStr.append_length] at h
  omega

/-- Where the quoted name starts. -/
theorem noRecord_shown {name : CStr} (h : 0 < name.length) :
    (shown (.noRecord name)).bytes[31]? = name.bytes[0]? := by
  have hlen : (lit "no appraisal record found for \"").bytes.length = 31 := by decide +kernel
  have hshort : 31 < ((lit "no appraisal record found for \"").bytes ++ name.bytes).length := by
    rw [List.length_append, hlen]
    exact Nat.lt_add_of_pos_right h
  change (((lit "no appraisal record found for \"").bytes ++ name.bytes ++
    (lit "\"").bytes).take 127)[31]? = _
  rw [List.getElem?_take_of_lt (by decide), List.getElem?_append_left hshort,
    List.getElem?_append_right hlen.le, hlen]

theorem longName_shown : (shown (.noRecord longName)).bytes[31]? = some 120 := by
  have hpos : 0 < longName.length := by
    rw [longName_length]
    decide
  rw [noRecord_shown hpos]
  exact List.getElem?_replicate_of_lt (by decide)

/-- The message is not the one of the stage, cut to fit. -/
theorem earGetStatus_longName :
    ∃ (ear : Ref (EarT Unit)) (r : StatusResult) (L' : Ledger Kind) (b' : Buffer), Verified ear ∧
      earGetStatus blanks ear.val longName (some .none) (some emptyErr) Ledger.empty = some (r, L') ∧
      r.ret = -1 ∧ r.errMsg = some b' ∧
      jsonObjectGet (ear.val.submods.map Ref.val) longName = none ∧
      ¬ b'.Holds
        ((lit "no appraisal record found for \"" ++ longName ++ lit "\"").truncate (earErrSz - 1)) := by
  obtain ⟨ear, hear, hsub⟩ := validEar.verified
  have hkeys : longName ∉ jsonObjectKeys (ear.val.submods.map Ref.val) := by
    rw [hsub]
    change longName ∉ [lit "PARSEC_TPM"]
    rw [List.mem_singleton]
    intro h
    have hlen := congrArg CStr.length h
    have hshort : (lit "PARSEC_TPM").length = 10 := by decide +kernel
    rw [longName_length, hshort] at hlen
    omega
  have hmissing : jsonObjectGet (ear.val.submods.map Ref.val) longName = none := by
    rwa [← jsonObjectGet_isSome_iff, Bool.not_eq_true, Option.isSome_eq_false_iff,
      Option.isNone_iff_eq_none] at hkeys
  have hrun := congrFun (earGetStatus_eq hear.complete blanks longName (some .none) (some emptyErr))
    Ledger.empty
  rw [statusOf, recordOf, hmissing] at hrun
  refine ⟨ear, _, Ledger.empty, _, hear, hrun, rfl, rfl, hmissing, fun hholds => ?_⟩
  have hblanks : composed blanks (.noRecord longName) = shown (.noRecord longName) :=
    (Buffer.holds_write _ _).unique hholds
  have hlong : ¬ (Failure.noRecord longName).message.Countable := by
    intro h
    have hle := noRecord_countable h
    rw [longName_length] at hle
    omega
  rw [composed, printed, if_neg hlong] at hblanks
  have hblank : ((blanks.leaves (.noRecord longName)).truncate (earErrSz - 1)).bytes[31]? = some 32 := by
    decide +kernel
  rw [hblanks, longName_shown] at hblank
  exact absurd hblank (by decide)

end CEar.Atomicity
