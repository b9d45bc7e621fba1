import CEar.Contract

namespace CEar.Tokens

open Contract CString Ear Gates JsonValue Ownership Utils Verify

/-- The object with these members. -/
def jsonObject (members : List (CStr × Json)) (h : (members.map Prod.fst).Nodup) : Json :=
  .object (members.map Prod.fst) h (fun i => (members.get (i.cast (List.length_map _))).2)

theorem jsonObject_hasMember {members : List (CStr × Json)} (h : (members.map Prod.fst).Nodup)
    {key : CStr} {v : Json} (hmem : (key, v) ∈ members) : (jsonObject members h).HasMember key v := by
  obtain ⟨i, hi⟩ := List.get_of_mem hmem
  refine ⟨_, h, _, i.cast (List.length_map _).symm, rfl, ?_, ?_⟩
  · rw [List.get_eq_getElem, List.getElem_map]
    exact congrArg Prod.fst hi
  · exact congrArg Prod.snd hi

theorem find?_of_mem {α β : Type} [DecidableEq β] {f : α → β} {l : List α} (h : (l.map f).Nodup)
    {a : α} (ha : a ∈ l) : l.find? (fun x => f x = f a) = some a := by
  cases hfind : l.find? (fun x => f x = f a) with
  | none =>
      have hnot := List.find?_eq_none.mp hfind a ha
      exact absurd (decide_eq_true rfl) hnot
  | some b =>
      have hsame : f b = f a := by simpa using List.find?_some hfind
      rw [List.inj_on_of_nodup_map h (List.mem_of_find?_eq_some hfind) ha hsame]

/-- A claim of a token, and its serialisation. -/
structure Grant where
  name : CStr
  value : Json
  text : CStr

/-- The names that stand for algorithms. -/
def algorithms : List CStr :=
  [lit "none", lit "HS256", lit "HS384", lit "HS512", lit "RS256", lit "RS384", lit "RS512", lit "ES256",
    lit "ES384", lit "ES512", lit "PS256", lit "PS384", lit "PS512"]

/-- A token as its issuer has made it. -/
structure Token where
  text : CStr
  key : Key
  alg : CStr
  grants : List Grant
  known : alg ∈ algorithms
  names : (grants.map Grant.name).Nodup
  texts : (grants.map Grant.text).Nodup

namespace Token

def grant (t : Token) (name : CStr) : Option Grant := t.grants.find? (fun g => g.name = name)

/-- The callees of the library as they answer when this token is the only one
that has been signed. -/
def env (t : Token) : Env (Option CStr) Unit where
  libc := ⟨fun _ => lit ""⟩
  jwtAlgInval := none
  jwtStrAlg alg := if alg ∈ algorithms then some alg else none
  jwtValidNew alg := (0, some ⟨alg, 0, 0⟩)
  time := 1677247879
  callocEar := true
  jwtDecode text key := if text = t.text ∧ key.bytes = t.key.bytes then (0, some ()) else (22, none)
  jwtValidate _ v := if v.alg = some t.alg then 0 else 2
  jwtGetGrant _ name := jsonStringValue ((t.grant name).map Grant.value)
  jwtGetGrantsJson _ name := (t.grant name).map Grant.text
  jsonLoads text _ :=
    ((t.grants.find? (fun g => g.text = text)).map Grant.value).filter Json.isContainer

def observations (t : Token) : Observations (Option CStr) Unit where
  headerAlg _ := some t.alg
  claim _ name := (t.grant name).map Grant.value
  verifies text key alg := text = t.text ∧ key.bytes = t.key.bytes ∧ alg = some t.alg
  serialises text v := ∃ g ∈ t.grants, g.text = text ∧ g.value = v

variable (t : Token)

theorem grant_of_mem {g : Grant} (h : g ∈ t.grants) : t.grant g.name = some g :=
  find?_of_mem t.names h

theorem mem_of_grant {g : Grant} {name : CStr} (h : t.grant name = some g) : g ∈ t.grants :=
  List.mem_of_find?_eq_some h

theorem loads_of_mem {g : Grant} (h : g ∈ t.grants) :
    t.env.jsonLoads g.text 0 = if g.value.isContainer = true then some g.value else none := by
  simp only [env, find?_of_mem t.texts h, Option.map_some]
  rfl

theorem documented : Documented t.observations t.env where
  validNew alg ret v h := by
    cases h
    rfl
  decode text key jwt h := by
    by_cases hsigned : text = t.text ∧ key.bytes = t.key.bytes
    · exact ⟨hsigned.1, hsigned.2, rfl⟩
    · simp [env, hsigned] at h
  validate jwt v h := by
    by_cases halg : v.alg = some t.alg
    · exact halg.symm
    · simp [env, halg] at h
  grant jwt name s := jsonStringValue_eq_some_iff
  grantsJson jwt name text h := by
    obtain ⟨g, hg, rfl⟩ := Option.map_eq_some_iff.mp h
    exact ⟨g.value, congrArg (Option.map Grant.value) hg, g, t.mem_of_grant hg, rfl, rfl⟩
  loads text v w h hser := by
    obtain ⟨g, hg, rfl, rfl⟩ := hser
    rw [t.loads_of_mem hg, Option.ite_none_right_eq_some, Option.some.injEq] at h
    rw [h.2]
    exact JsonEqual.refl v
  loadsTop text v h := (Option.filter_eq_some_iff.mp h).2

theorem allocationsSucceed : AllocationsSucceed t.observations t.env where
  validNew alg _ := ⟨_, rfl⟩
  calloc := rfl
  grantsJson jwt name v h := by
    obtain ⟨g, hg, rfl⟩ := Option.map_eq_some_iff.mp h
    exact ⟨g.text, congrArg (Option.map Grant.text) hg⟩
  loads text v hser hv := by
    obtain ⟨g, hg, rfl, rfl⟩ := hser
    exact ⟨g.value, by rw [t.loads_of_mem hg, if_pos hv]⟩

theorem authentic : Authentic t.env t.text t.key t.alg () ⟨some t.alg, 0, 0⟩ where
  known := by simp [env, t.known]
  validator := by simp [env, t.known]
  allocated := rfl
  decoded := if_pos ⟨rfl, rfl⟩
  valid := if_pos rfl

end Token

def quoted (s : CStr) : CStr := lit "\"" ++ s ++ lit "\""

/-- A token that `ear_jwt_verify` accepts. -/
structure EarToken extends Token where
  submods : Json
  submodsText : CStr
  container : submods.isContainer = true
  profiled : ⟨lit "eat_profile", .string earProfile, quoted earProfile⟩ ∈ grants
  claimed : ⟨lit "submods", submods, submodsText⟩ ∈ grants

namespace EarToken

variable (t : EarToken)

theorem acceptable : Acceptable t.observations t.env t.text t.key t.alg () t.submods where
  known := t.authentic.known
  decoded := t.authentic.decoded
  valid := by simp [Token.env, t.known]
  profile := congrArg (Option.map Grant.value) (t.grant_of_mem t.profiled)
  claimed := congrArg (Option.map Grant.value) (t.grant_of_mem t.claimed)

theorem inspected : inspect t.env () = .ok t.submods := by
  refine inspect_eq_ok.mpr ⟨?_, readSubmods_eq_ok.mpr ⟨t.submodsText, ?_, ?_⟩⟩
  · simp only [Token.env, t.grant_of_mem t.profiled, Option.map_some]
    rfl
  · exact congrArg (Option.map Grant.text) (t.grant_of_mem t.claimed)
  · exact (t.loads_of_mem t.claimed).trans (if_pos t.container)

theorem runs :
    ∃ L ear, earJwtVerify t.env t.text t.key t.alg none none Ledger.empty = some (⟨0, some ear, none⟩, L) ∧
      ear.val.submods.map Ref.val = some t.submods := by
  have hrun := earJwtVerify_authentic t.authentic none none
  simp only [t.inspected] at hrun
  obtain ⟨_, L, _, hrun, -, ear, j, i, rfl, -⟩ := hrun.run Ledger.empty
  exact ⟨L, _, hrun, rfl⟩

theorem verified :
    ∃ ear : Ref (EarT Unit), Verified ear ∧ ear.val.submods.map Ref.val = some t.submods := by
  obtain ⟨L, ear, hrun, hsub⟩ := t.runs
  exact ⟨ear, ⟨Option CStr, _, _, _, _, _, _, _, _, _, L, hrun, rfl, rfl⟩, hsub⟩

end EarToken

def akpubText : CStr :=
  lit "MFkwEwYHKoZIzj0CAQYIKoZIzj0DAQcDQgAEcjSp8" ++
  lit "_MWM3gy8TugWO1TpQSj_vIksLpC-g8l5S3lpGb7PW" ++
  lit "WGoCAjEP8_A59VZwLXgwoZzN0WxuBPjpaWiWsfCQ"

def attestedRecord : Json :=
  jsonObject [(lit "ear.appraisal-policy-id", .string (lit "https://veraison.example/policy/1/60a0068d")),
    (lit "ear.status", .string (lit "affirming")),
    (lit "ear.trustworthiness-vector",
      jsonObject [(lit "executables", .integer 2), (lit "hardware", .integer 2),
        (lit "instance-identity", .integer 2)] (by decide +kernel)),
    (lit "ear.veraison.key-attestation",
      jsonObject [(lit "akpub", .string akpubText)] (List.nodup_singleton _))] (by decide +kernel)

def parsecSubmods : Json := jsonObject [(lit "PARSEC_TPM", attestedRecord)] (List.nodup_singleton _)

def parsecText : CStr :=
  lit "\x7b\"PARSEC_TPM\":" ++
    lit "\x7b\"ear.appraisal-policy-id\":" ++
    lit "\"https://veraison.example/policy/1/60a0068d\"," ++
    lit "\"ear.status\":\"affirming\",\"ear.trustworthiness-vector\":" ++
    lit "\x7b\"executables\":2,\"hardware\":2,\"instance-identity\":2\x7d," ++
    lit "\"ear.veraison.key-attestation\":\x7b\"akpub\":\"" ++
    akpubText ++ lit "\"\x7d\x7d\x7d"

def pemKey : Key where
  bytes :=
    ascii "-----BEGIN PUBLIC KEY-----\n" ++
    ascii "MFkwEwYHKoZIzj0CAQYIKoZIzj0DAQcDQgAEusWxHK2PmfnHKwXPS54m0kTcGJ90\n" ++
    ascii "UiglWiGahtagnv8gE4v4LcG21WK+D6VKt4BKOmS21yzP7Wtvtu0ou/wRfg==\n" ++
    ascii "-----END PUBLIC KEY-----\n"
  nonempty := List.length_pos_of_ne_nil (by decide +kernel)

/-- The token that the library is tested with. -/
def validEar : EarToken where
  text :=
    lit "eyJhbGciOiJFUzI1NiIsInR5cCI6IkpXVCJ9." ++
    lit "eyJlYXIucmF3LWV2aWRlbmNlIjoiTnpRM01qWTVOek0yTlRZek56UUsiLCJlYXIudmVyaWZpZXItaWQiOnsiYnVpbGQi" ++
    lit "OiJ2dHMgMC4wLjEiLCJkZXZlbG9wZXIiOiJodHRwczovL3ZlcmFpc29uLXByb2plY3Qub3JnIn0sImVhdF9wcm9maWxl" ++
    lit "IjoidGFnOmdpdGh1Yi5jb20sMjAyMzp2ZXJhaXNvbi9lYXIiLCJpYXQiOjEuNjY2NTI5MTg0ZSswOSwianRpIjoiNTVi" ++
    lit "OGIzZmFkOGRkMWQ4ZWFjNGU0OGYxMTdmZTUwOGIxMWY4NDRkOWYwMTg5YmZlZDliODc1MTVhNjc1NDI2NCIsIm5iZiI6" ++
    lit "MTY3NzI0Nzg3OSwic3VibW9kcyI6eyJQQVJTRUNfVFBNIjp7ImVhci5hcHByYWlzYWwtcG9saWN5LWlkIjoiaHR0cHM6" ++
    lit "Ly92ZXJhaXNvbi5leGFtcGxlL3BvbGljeS8xLzYwYTAwNjhkIiwiZWFyLnN0YXR1cyI6ImFmZmlybWluZyIsImVhci50" ++
    lit "cnVzdHdvcnRoaW5lc3MtdmVjdG9yIjp7ImV4ZWN1dGFibGVzIjoyLCJoYXJkd2FyZSI6MiwiaW5zdGFuY2UtaWRlbnRp" ++
    lit "dHkiOjJ9LCJlYXIudmVyYWlzb24ua2V5LWF0dGVzdGF0aW9uIjp7ImFrcHViIjoiTUZrd0V3WUhLb1pJemowQ0FRWUlL" ++
    lit "b1pJemowREFRY0RRZ0FFY2pTcDhfTVdNM2d5OFR1Z1dPMVRwUVNqX3ZJa3NMcEMtZzhsNVMzbHBHYjdQV1dHb0NBakVQ" ++
    lit "OF9BNTlWWndMWGd3b1p6TjBXeHVCUGpwYVdpV3NmQ1EifX19fQ.3Ym-f1LEgamxePUM7h6Y2RJDGh9eeL0xKor0n1wE9" ++
    lit "jdAnLNwm3rTKFV2S2LbqVFoDtK9QGalT2t5RnUdfwZNmg"
  key := pemKey
  alg := lit "ES256"
  grants :=
    [⟨lit "ear.raw-evidence", .string (lit "NzQ3MjY5NzM2NTYzNzQK"),
        quoted (lit "NzQ3MjY5NzM2NTYzNzQK")⟩,
      ⟨lit "ear.verifier-id",
        jsonObject [(lit "build", .string (lit "vts 0.0.1")),
          (lit "developer", .string (lit "https://veraison-project.org"))] (by decide +kernel),
        lit "\x7b\"build\":\"vts 0.0.1\"," ++ lit "\"developer\":\"https://veraison-project.org\"\x7d"⟩,
      ⟨lit "eat_profile", .string earProfile, quoted earProfile⟩,
      ⟨lit "iat", .real 1666529184 0, lit "1666529184.0"⟩,
      ⟨lit "jti", .string (lit "55b8b3fad8dd1d8eac4e48f117fe508b11f844d9f0189bfed9b87515a6754264"),
        quoted (lit "55b8b3fad8dd1d8eac4e48f117fe508b11f844d9f0189bfed9b87515a6754264")⟩,
      ⟨lit "nbf", .integer 1677247879, lit "1677247879"⟩,
      ⟨lit "submods", parsecSubmods, parsecText⟩]
  known := by decide +kernel
  names := by decide +kernel
  texts := by decide +kernel
  submods := parsecSubmods
  submodsText := parsecText
  container := rfl
  profiled := by simp
  claimed := by simp

def exampleKey : Key := ⟨ascii "the 32 bytes of an example key..", by decide +kernel⟩

def issuedGrant : Grant := ⟨lit "iat", .integer 1677247879, lit "1677247879"⟩

def statusRecord (status : CStr) : Json :=
  jsonObject [(lit "ear.status", .string status)] (List.nodup_singleton _)

def realmSubmods : Json :=
  jsonObject [(lit "CCA_PLATFORM", statusRecord (lit "warning")),
    (lit "CCA_REALM", statusRecord (lit "contraindicated"))] (by decide +kernel)

def exampleHeader : CStr := lit "eyJhbGciOiJIUzI1NiIsInR5cCI6IkpXVCJ9."

/-- An EAR that says nothing but its submods, the text being what follows in it. -/
def exampleEar (text submodsText : CStr) (submods : Json) (container : submods.isContainer = true)
    (texts : [quoted earProfile, lit "1677247879", submodsText].Nodup) : EarToken where
  text :=
    exampleHeader ++
    lit "eyJlYXRfcHJvZmlsZSI6InRhZzpnaXRodWIuY29tLDIwMjM6" ++
    lit "dmVyYWlzb24vZWFyIiwiaWF0IjoxNjc3MjQ3ODc5LCJz" ++ text
  key := exampleKey
  alg := lit "HS256"
  grants := [⟨lit "eat_profile", .string earProfile, quoted earProfile⟩, issuedGrant,
    ⟨lit "submods", submods, submodsText⟩]
  known := by decide +kernel
  names := by
    change [lit "eat_profile", lit "iat", lit "submods"].Nodup
    decide +kernel
  texts := texts
  submods := submods
  submodsText := submodsText
  container := container
  profiled := by simp
  claimed := by simp

def realmEar : EarToken :=
  exampleEar
    (lit "dWJtb2RzIjp7IkNDQV9QTEFURk9STSI6eyJlYXIuc3RhdHVz" ++
    lit "Ijoid2FybmluZyJ9LCJDQ0FfUkVBTE0iOnsiZWFyLnN0YXR1" ++
    lit "cyI6ImNvbnRyYWluZGljYXRlZCJ9fX0.X3l2SmIdqFDWrGwK" ++
    lit "-QnbEsES5-Q8kAixcMHILpCosPg")
    (lit "\x7b\"CCA_PLATFORM\":\x7b\"ear.status\":\"warning\"\x7d," ++
      lit "\"CCA_REALM\":\x7b\"ear.status\":\"contraindicated\"\x7d\x7d")
    realmSubmods rfl (by decide +kernel)

def emptyEar : EarToken :=
  exampleEar
    (lit "dWJtb2RzIjp7fX0.KZXH_pZYNUMPkr3Wl3MwvpDD_B5bpN_B" ++
    lit "hNiKwqI9_tc")
    (lit "\x7b\x7d") (jsonObject [] List.nodup_nil) rfl (by decide +kernel)

def arrayEar : EarToken :=
  exampleEar
    (lit "dWJtb2RzIjpbXX0.k3jtloct59FVVN5aBuwT8u7COPJ6N8uk" ++
    lit "LiC-TCGepgg")
    (lit "[]") (.array 0 nofun) rfl (by decide +kernel)

/-- A token without a profile. -/
def bareToken : Token where
  text :=
    exampleHeader ++
    lit "eyJpYXQiOjE2NzcyNDc4NzksInN1Ym1vZHMiOnsiQ0NBX1JFQUxNIjp7ImVhci5zdGF0dXMiOiJhZmZpcm1pbmcifX19" ++
    lit "._G3hUHRzrqvuruWegETC9Kuufb32VW0D-_zxf7vC3lc"
  key := exampleKey
  alg := lit "HS256"
  grants := [issuedGrant, ⟨lit "submods",
    jsonObject [(lit "CCA_REALM", statusRecord (lit "affirming"))] (List.nodup_singleton _),
    lit "\x7b\"CCA_REALM\":\x7b\"ear.status\":\"affirming\"\x7d\x7d"⟩]
  known := by decide +kernel
  names := by decide +kernel
  texts := by decide +kernel

end CEar.Tokens
