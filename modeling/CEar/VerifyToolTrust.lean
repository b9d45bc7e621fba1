import CEar.Status
import CEar.VerifyToolRuns

namespace CEar.VerifyToolTrust

open Accessors Contract CString Ear Gates JsonValue Ownership Process Report Status Tokens Utils VerifyTool
  VerifyToolOptions VerifyToolRuns

variable {Alg Jwt : Type} [DecidableEq Alg]

/-- The tool gets as far as the string for the token, and has no memory for it. -/
def Overlooks (host : Host) : Prop :=
  ∃ s key file, settings noSettings host.getopt host.operand = .ok s ∧
    contents host.keyFile s.keyFn = some key ∧ contents host.earFile s.earFn = some file ∧
    ¬ Copied host.calloc file

theorem judge_eq_none (host : Host) (env : Env Alg Jwt) : judge host env = none ↔ Overlooks host := by
  constructor
  · intro h
    rw [judge] at h
    cases hsettings : settings noSettings host.getopt host.operand with
    | error diagnostic => simp [hsettings] at h
    | ok s =>
        cases hkey : contents host.keyFile s.keyFn with
        | none => simp [hsettings, hkey] at h
        | some key =>
            cases hfile : contents host.earFile s.earFn with
            | none => simp [hsettings, hkey, hfile] at h
            | some file =>
                refine ⟨s, key, file, hsettings, hkey, hfile, fun hcopied => ?_⟩
                simp [hsettings, hkey, hfile, hcopied] at h
  · rintro ⟨s, key, file, hsettings, hkey, hfile, hcopied⟩
    simp [judge, hsettings, hkey, hfile, hcopied]

theorem main_faults {host : Host} {env : Env Alg Jwt} (h : judge host env = none) (errMsg : Buffer)
    (p : State Kind Held Line) : main host env errMsg p = none := by
  rcases (main_performs host env errMsg).run p with ⟨hfault, -⟩ | ⟨ret, p', hand, -, -, -, -, hjudge⟩
  · exact hfault
  · rw [h] at hjudge
    cases hjudge

theorem main_runs {host : Host} {env : Env Alg Jwt} {v : Verdict} (h : judge host env = some v)
    (errMsg : Buffer) (p : State Kind Held Line) :
    ∃ p', main host env errMsg p = some (v.ret, p') ∧ p'.library.live = p.library.live ∧
      p'.own.live = p.own.live ∧ p'.output = p.output ++ v.lines := by
  have hmain := (main_performs host env errMsg).run p
  rcases hmain with ⟨-, hjudge⟩ | ⟨ret, p', hand, hrun, hlib, hown, hout, hjudge⟩
  · rw [h] at hjudge
    cases hjudge
  · rw [h, Option.map_some, Option.some.injEq, Prod.mk.injEq] at hjudge
    obtain ⟨rfl, rfl⟩ := hjudge
    exact ⟨p', hrun, hlib.trans (zero_add _), hown.trans (zero_add _), hout⟩

theorem judge_of_main {host : Host} {env : Env Alg Jwt} {errMsg : Buffer} {p p' : State Kind Held Line}
    {ret : Int} (h : main host env errMsg p = some (ret, p')) :
    ∃ v, judge host env = some v ∧ v.ret = ret ∧ p'.library.live = p.library.live ∧
      p'.own.live = p.own.live ∧ p'.output = p.output ++ v.lines := by
  cases hjudge : judge host env with
  | none =>
      rw [main_faults hjudge] at h
      cases h
  | some v =>
      obtain ⟨p'', hrun, hlib, hown, hout⟩ := main_runs hjudge errMsg p
      rw [h, Option.some.injEq, Prod.mk.injEq] at hrun
      obtain ⟨rfl, rfl⟩ := hrun
      exact ⟨v, rfl, rfl, hlib, hown, hout⟩

section Sample

def sampleFile (fn : CStr) (data : List UInt8) : Files where
  fopen name := if name = fn then some ⟨0, Int64.ofNat data.length, data⟩ else none
  malloc _ := true

theorem sampleFile_contents (fn : CStr) (c : Content) :
    contents (sampleFile fn c.bytes) fn = some c := by
  have hsize : (Int64.ofNat c.bytes.length).toUInt64 = c.size := rfl
  simp only [contents, sampleFile, if_true, Option.bind_eq_bind, Option.bind_some, hsize, item,
    Content.size_toNat, c.nonempty, le_rfl, and_self, dif_pos, List.take_length]
  simp

def keyContent : Content := ⟨exampleKey.bytes, exampleKey.nonempty, by decide +kernel⟩

def earContent : Content := ⟨realmEar.text.bytes, by decide +kernel, by decide +kernel⟩

/-- `verify -a HS256 -k hmac.key -s CCA_REALM ear.jwt` -/
def sampleHost : Host where
  name := lit "verify"
  getopt := [.letter .a (lit "HS256"), .letter .k (lit "hmac.key"), .letter .s (lit "CCA_REALM")]
  operand := some (lit "ear.jwt")
  keyFile := sampleFile (lit "hmac.key") keyContent.bytes
  earFile := sampleFile (lit "ear.jwt") earContent.bytes
  calloc _ := true

def sampleSettings : Settings := ⟨lit "hmac.key", lit "HS256", lit "ear.jwt", lit "CCA_REALM"⟩

theorem sample_settings :
    settings noSettings sampleHost.getopt sampleHost.operand = .ok sampleSettings := by
  rfl

theorem sample_key : contents sampleHost.keyFile sampleSettings.keyFn = some keyContent :=
  sampleFile_contents _ keyContent

theorem sample_file : contents sampleHost.earFile sampleSettings.earFn = some earContent :=
  sampleFile_contents _ earContent

theorem sample_text : earContent.text = realmEar.text :=
  upToNul_bytes _

theorem sample_not_overlooks : ¬ Overlooks sampleHost := by
  rintro ⟨s, key, file, hsettings, hkey, hfile, hnot⟩
  obtain rfl := Except.ok.inj (sample_settings.symm.trans hsettings)
  obtain rfl := Option.some.inj (sample_file.symm.trans hfile)
  exact hnot ⟨by decide +kernel, rfl⟩

end Sample

/-- A run of the tool reads through NULL or past a block just when the string for
the token is not allocated. Every other run releases what it has acquired, once. -/
theorem main_releases (host : Host) (env : Env Alg Jwt) (errMsg : Buffer) (p : State Kind Held Line) :
    (main host env errMsg p = none ↔ Overlooks host) ∧
      ∀ ret p', main host env errMsg p = some (ret, p') →
        p'.library.live = p.library.live ∧ p'.own.live = p.own.live := by
  constructor
  · rw [← judge_eq_none host env]
    constructor
    · intro hfault
      by_contra hjudge
      obtain ⟨v, hv⟩ := Option.ne_none_iff_exists'.mp hjudge
      obtain ⟨p', hrun, -⟩ := main_runs hv errMsg p
      rw [hfault] at hrun
      cases hrun
    · intro hjudge
      exact main_faults hjudge errMsg p
  · intro ret p' hrun
    obtain ⟨v, -, -, hlib, hown, -⟩ := judge_of_main hrun
    exact ⟨hlib, hown⟩

theorem main_releases_sample :
    ∃ ret p', main sampleHost realmEar.env emptyErr ⟨Ledger.empty, Ledger.empty, []⟩ = some (ret, p') ∧
      p'.library.live = 0 ∧ p'.own.live = 0 := by
  obtain ⟨hfaults, hreleases⟩ :=
    main_releases sampleHost realmEar.env emptyErr ⟨Ledger.empty, Ledger.empty, []⟩
  have hruns := mt hfaults.mp sample_not_overlooks
  obtain ⟨⟨ret, p'⟩, hrun⟩ := Option.ne_none_iff_exists'.mp hruns
  exact ⟨ret, p', hrun, hreleases ret p' hrun⟩

/-- The tool prints and returns what the verdict says, whatever its buffer for
messages held before. -/
theorem main_refines (host : Host) (env : Env Alg Jwt) (errMsg : Buffer) (p : State Kind Held Line) :
    (main host env errMsg p).map (fun r => (r.1, r.2.output)) =
      (judge host env).map (fun v => (v.ret, p.output ++ v.lines)) := by
  cases hjudge : judge host env with
  | none =>
      rw [main_faults hjudge]
      rfl
  | some v =>
      obtain ⟨p', hrun, -, -, hout⟩ := main_runs hjudge errMsg p
      rw [hrun, Option.map_some, Option.map_some, hout]

/-- What the tool vouches for when it prints a tier: a token in one file, signed
with the key in the other and acceptable, that gives the record this status.
The names of the files are the given ones cut to 1023 characters, that of the
algorithm to 15 and that of the record to 127. -/
def Attested (obs : Observations Alg Jwt) (env : Env Alg Jwt) (host : Host) (s : Settings)
    (tier : EarTier) : Prop :=
  settings noSettings host.getopt host.operand = .ok s ∧
    ∃ key file jwt submods, contents host.keyFile s.keyFn = some key ∧
      contents host.earFile s.earFn = some file ∧
      Acceptable obs env file.text key.key s.alg jwt submods ∧
      obs.verifies file.text key.key (env.jwtStrAlg s.alg) ∧
      StatusText submods s.appRec (tierName tier)

def statusLines (s : Settings) (tier : EarTier) : List Line :=
  [.stdout (lit "EAR verified"), .stdout (statusLine s.appRec tier)]

theorem judgeToken_status {env : Env Alg Jwt} {earJwt : CStr} {pkey : Key} {alg appRec appRec' : CStr}
    {tier : EarTier} (h : judgeToken env earJwt pkey alg appRec = .status appRec' tier) :
    appRec' = appRec ∧ ∃ jwt v, authenticate env earJwt pkey alg = .ok jwt ∧ inspect env jwt = .ok v ∧
      statusOf (some v) appRec = .ok tier := by
  rw [judgeToken] at h
  cases hauth : authenticate env earJwt pkey alg with
  | error f => simp [hauth] at h
  | ok jwt =>
      cases hinspect : inspect env jwt with
      | error f => simp [hauth, hinspect] at h
      | ok v =>
          cases hstatus : statusOf (some v) appRec with
          | error f => simp [hauth, hinspect, hstatus] at h
          | ok t =>
              simp only [hauth, hinspect, hstatus, Verdict.status.injEq] at h
              obtain ⟨rfl, rfl⟩ := h
              exact ⟨rfl, jwt, v, rfl, hinspect, hstatus⟩

theorem judge_status {host : Host} {env : Env Alg Jwt} {appRec : CStr} {tier : EarTier}
    (h : judge host env = some (.status appRec tier)) :
    ∃ s key file, settings noSettings host.getopt host.operand = .ok s ∧
      contents host.keyFile s.keyFn = some key ∧ contents host.earFile s.earFn = some file ∧
      judgeToken env file.text key.key s.alg s.appRec = .status appRec tier := by
  rw [judge] at h
  cases hsettings : settings noSettings host.getopt host.operand with
  | error diagnostic => simp [hsettings] at h
  | ok s =>
      cases hkey : contents host.keyFile s.keyFn with
      | none => simp [hsettings, hkey] at h
      | some key =>
          cases hfile : contents host.earFile s.earFn with
          | none => simp [hsettings, hkey, hfile] at h
          | some file =>
              simp only [hsettings, hkey, hfile, Option.ite_none_right_eq_some, Option.some.injEq] at h
              exact ⟨s, key, file, rfl, hkey, hfile, h.2⟩

theorem statusText_congr {v w : Json} (h : JsonEqual v w) {appRec : CStr} {tier : EarTier} :
    StatusText v appRec (tierName tier) ↔ StatusText w appRec (tierName tier) := by
  rw [← statusOf_eq_ok_iff, ← statusOf_eq_ok_iff, statusOf_congr (.some h)]

theorem attested_of_status {obs : Observations Alg Jwt} {env : Env Alg Jwt} (hdoc : Documented obs env)
    {host : Host} {appRec : CStr} {tier : EarTier} (h : judge host env = some (.status appRec tier)) :
    ∃ s, s.appRec = appRec ∧ Attested obs env host s tier := by
  obtain ⟨s, key, file, hsettings, hkey, hfile, htoken⟩ := judge_status h
  obtain ⟨rfl, jwt, v, hauth, hinspect, hstatus⟩ := judgeToken_status htoken
  obtain ⟨submods, text, hacceptable, -, -, -, hequal, hsigned⟩ := accepted_of_ok hdoc hauth hinspect
  have htext := (statusText_congr hequal).mp (statusOf_eq_ok_iff.mp hstatus)
  exact ⟨s, rfl, hsettings, key, file, jwt, submods, hkey, hfile, hacceptable, hsigned, htext⟩

theorem isContainer_of_text {v : Json} {appRec status : CStr} (h : StatusText v appRec status) :
    v.isContainer = true := by
  obtain ⟨submod, ⟨keys, nodup, vals, i, rfl, -⟩, -⟩ := h
  rfl

theorem status_of_attested {obs : Observations Alg Jwt} {env : Env Alg Jwt} (hdoc : Documented obs env)
    (hall : AllocationsSucceed obs env) {host : Host} (hmemory : ¬ Overlooks host) {s : Settings}
    {tier : EarTier} (h : Attested obs env host s tier) :
    judge host env = some (.status s.appRec tier) := by
  obtain ⟨hsettings, key, file, jwt, submods, hkey, hfile, hacceptable, -, htext⟩ := h
  have hcopied : Copied host.calloc file := by
    by_contra hnot
    exact hmemory ⟨s, key, file, hsettings, hkey, hfile, hnot⟩
  obtain ⟨hauth, v, hinspect, hequal⟩ := ok_of_accepted hdoc hall hacceptable (isContainer_of_text htext)
  have hstatus : statusOf (some v) s.appRec = .ok tier :=
    statusOf_eq_ok_iff.mpr ((statusText_congr hequal).mpr htext)
  simp only [judge, hsettings, hkey, hfile, if_pos hcopied, judgeToken, hauth, hinspect, hstatus]

/-- What follows the name of the record in a status line. -/
def statusTail (tier : EarTier) : List UInt8 :=
  (lit " status: tier(").bytes ++ ((decimal (tierCode tier)).bytes ++ (lit ")").bytes)

theorem statusLine_bytes (appRec : CStr) (tier : EarTier) :
    (statusLine appRec tier).bytes = appRec.bytes ++ statusTail tier := by
  simp only [statusLine, statusTail, CStr.append_bytes, List.append_assoc]

theorem statusTail_length (tier : EarTier) : (statusTail tier).length = 16 := by
  cases tier <;> decide +kernel

theorem statusTail_inj {tier tier' : EarTier} (h : statusTail tier = statusTail tier') : tier = tier' := by
  have hcode : (statusTail tier)[14]? = (statusTail tier')[14]? := by rw [h]
  cases tier <;> cases tier' <;> first | rfl | exact absurd hcode (by decide +kernel)

/-- The line tells the record and the tier. -/
theorem statusLine_inj {appRec appRec' : CStr} {tier tier' : EarTier}
    (h : statusLine appRec tier = statusLine appRec' tier') : appRec = appRec' ∧ tier = tier' := by
  have hbytes := congrArg CStr.bytes h
  rw [statusLine_bytes, statusLine_bytes] at hbytes
  obtain ⟨hrec, htail⟩ := List.append_inj' hbytes (by rw [statusTail_length, statusTail_length])
  exact ⟨CStr.ext hrec, statusTail_inj htail⟩

theorem statusLine_ne_verified (appRec : CStr) (tier : EarTier) :
    statusLine appRec tier ≠ lit "EAR verified" := by
  intro h
  have hlen := congrArg (fun s => s.bytes.length) h
  have hverified : (lit "EAR verified").bytes.length = 12 := by decide +kernel
  simp only [statusLine_bytes, List.length_append, statusTail_length, hverified] at hlen
  omega

theorem status_of_line {v : Verdict} {appRec : CStr} {tier : EarTier}
    (h : Line.stdout (statusLine appRec tier) ∈ v.lines) : v = .status appRec tier := by
  cases v with
  | usage | keyUnreadable | earUnreadable | unverified => simp [Verdict.lines] at h
  | noStatus => simp [Verdict.lines, statusLine_ne_verified] at h
  | status appRec' tier' =>
      simp only [Verdict.lines, List.mem_cons, Line.stdout.injEq, statusLine_ne_verified, List.not_mem_nil,
        or_false, false_or] at h
      obtain ⟨rfl, rfl⟩ := statusLine_inj h
      rfl

theorem status_of_ret {v : Verdict} (h : v.ret = 0) : ∃ appRec tier, v = .status appRec tier := by
  cases v with
  | usage | keyUnreadable | earUnreadable | unverified | noStatus => simp [Verdict.ret, exitFailure] at h
  | status appRec tier => exact ⟨appRec, tier, rfl⟩

/-- The tool succeeds, and prints a status line, only for a token that is signed
and gives that record that status; and it does for every such token unless
memory runs out. -/
theorem main_attests {obs : Observations Alg Jwt} {env : Env Alg Jwt} (hdoc : Documented obs env)
    (host : Host) (errMsg : Buffer) (p : State Kind Held Line) :
    (∀ ret p', main host env errMsg p = some (ret, p') → ∃ lines, p'.output = p.output ++ lines ∧
      (ret = 0 → ∃ s tier, Attested obs env host s tier ∧ lines = statusLines s tier) ∧
      ∀ appRec tier, Line.stdout (statusLine appRec tier) ∈ lines →
        ret = 0 ∧ ∃ s, s.appRec = appRec ∧ Attested obs env host s tier) ∧
    (AllocationsSucceed obs env → ¬ Overlooks host → ∀ s tier, Attested obs env host s tier →
      ∃ p', main host env errMsg p = some (0, p') ∧ p'.output = p.output ++ statusLines s tier) := by
  constructor
  · intro ret p' hrun
    obtain ⟨v, hv, rfl, -, -, hout⟩ := judge_of_main hrun
    refine ⟨v.lines, hout, ?_, ?_⟩
    · intro hret
      obtain ⟨appRec, tier, rfl⟩ := status_of_ret hret
      obtain ⟨s, rfl, hattested⟩ := attested_of_status hdoc hv
      exact ⟨s, tier, hattested, rfl⟩
    · intro appRec tier hline
      obtain rfl := status_of_line hline
      exact ⟨rfl, attested_of_status hdoc hv⟩
  · intro hall hmemory s tier hattested
    obtain ⟨p', hrun, -, -, hout⟩ := main_runs (status_of_attested hdoc hall hmemory hattested) errMsg p
    exact ⟨p', hrun, hout⟩

theorem sample_attested :
    Attested realmEar.observations realmEar.env sampleHost sampleSettings .contraindicated := by
  have hacceptable := realmEar.acceptable
  rw [← sample_text] at hacceptable
  refine ⟨sample_settings, keyContent, earContent, (), realmSubmods, sample_key, sample_file, hacceptable,
    ⟨sample_text, rfl, ?_⟩, statusRecord_text (by simp [tierName, sampleSettings])⟩
  decide +kernel

theorem main_attests_sample :
    ∃ p', main sampleHost realmEar.env emptyErr ⟨Ledger.empty, Ledger.empty, []⟩ = some (0, p') ∧
      p'.output = [.stdout (lit "EAR verified"), .stdout (lit "CCA_REALM status: tier(3)")] := by
  obtain ⟨-, hprints⟩ := main_attests realmEar.documented sampleHost emptyErr ⟨Ledger.empty, Ledger.empty, []⟩
  obtain ⟨p', hrun, hout⟩ :=
    hprints realmEar.allocationsSucceed sample_not_overlooks _ _ sample_attested
  refine ⟨p', hrun, hout.trans ?_⟩
  decide +kernel

end CEar.VerifyToolTrust
