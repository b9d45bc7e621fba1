import CEar.B64urlDecode
import CEar.Verify

namespace CEar.Accessors

open B64urlDecode CString Ear Gates JsonValue Ownership Report Utils Verify

variable {Jwt : Type} {ear : EarT Jwt} {appRec : CStr}

def recordOf (submods : Option Json) (appRec : CStr) : Except Failure Json :=
  found (.noRecord appRec) (jsonObjectGet submods appRec)

def tierOf (status : CStr) : Option EarTier :=
  (tiers.find? (fun t => t.1 = status)).map Prod.snd

def statusOf (submods : Option Json) (appRec : CStr) : Except Failure EarTier := do
  let submod ← recordOf submods appRec
  let status ← found .noStatus (jsonStringValue (jsonObjectGet (some submod) (lit "ear.status")))
  found (.unknownStatus status) (tierOf status)

def akpubOf (submods : Option Json) (appRec : CStr) : Except Failure CStr := do
  let submod ← recordOf submods appRec
  let keyAttestation ← found .noKeyAttestation
    (jsonObjectGet (some submod) (lit "ear.veraison.key-attestation"))
  found .noAkpub (jsonStringValue (jsonObjectGet (some keyAttestation) (lit "akpub")))

theorem found_bind_congr {α : Type} {f : Failure} {a b : Option Json} {g g' : Json → Except Failure α}
    (h : Option.Rel JsonEqual a b) (hg : ∀ x y, JsonEqual x y → g x = g' y) :
    (found f a >>= g) = (found f b >>= g') := by
  cases h with
  | none => rfl
  | some hxy =>
      simp only [found, ok_bind]
      exact hg _ _ hxy

theorem statusOf_congr {v w : Option Json} (h : Option.Rel JsonEqual v w) (appRec : CStr) :
    statusOf v appRec = statusOf w appRec := by
  apply found_bind_congr (jsonObjectGet_rel h appRec)
  intro x y hxy
  rw [jsonStringValue_congr (jsonObjectGet_rel (.some hxy) (lit "ear.status"))]

theorem akpubOf_congr {v w : Option Json} (h : Option.Rel JsonEqual v w) (appRec : CStr) :
    akpubOf v appRec = akpubOf w appRec := by
  apply found_bind_congr (jsonObjectGet_rel h appRec)
  intro x y hxy
  apply found_bind_congr (jsonObjectGet_rel (.some hxy) (lit "ear.veraison.key-attestation"))
  intro x' y' hxy'
  rw [jsonStringValue_congr (jsonObjectGet_rel (.some hxy') (lit "akpub"))]

/-- The key of the record is a text that is stored past the end of its block. -/
def Overruns (calloc : Bool) (submods : Option Json) (appRec : CStr) : Prop :=
  ∃ text, akpubOf submods appRec = .ok text ∧ Overflows calloc text

theorem overruns_congr {calloc : Bool} {v w : Option Json} (h : Option.Rel JsonEqual v w) :
    Overruns calloc v appRec ↔ Overruns calloc w appRec := by
  rw [Overruns, Overruns, akpubOf_congr h appRec]

theorem tierFromString_eq (status : CStr) (ptier : Option EarTier) :
    tierFromString status ptier = ((tierOf status).elim (-1, ptier) (fun t => (0, some t))) := by
  rw [tierFromString, tierOf]
  cases tiers.find? (fun t => t.1 = status) <;> rfl

theorem earGetStatus_eq (h : Complete ear) (libc : Libc) (appRec : CStr) (ptier : Option EarTier)
    (errMsg : Option Buffer) : earGetStatus libc ear appRec ptier errMsg =
      pure (match statusOf (ear.submods.map Ref.val) appRec with
        | .ok t => ⟨0, some t, errMsg⟩
        | .error f => ⟨-1, ptier, reported libc f errMsg⟩) := by
  simp only [earGetStatus, Exec.assert, h.jwt, h.submods, if_true, Exec.lift_some, pure_bind,
    reportErr_composeErr, statusOf, recordOf]
  cases jsonObjectGet (ear.submods.map Ref.val) appRec with
  | none => rfl
  | some submod =>
      cases hstatus : jsonStringValue (jsonObjectGet (some submod) (lit "ear.status")) with
      | none => simp only [found, hstatus, ok_bind, error_bind]
      | some status =>
          simp only [found, hstatus, ok_bind, tierFromString_eq]
          cases tierOf status with
          | none => rfl
          | some t => rfl

theorem earVeraisonGetAkpub_eq (h : Complete ear) (libc : Libc) (calloc : Bool) (appRec : CStr)
    (pakpub : Option (Ref Block)) (pakpubSz : Nat) (errMsg : Option Buffer) :
    earVeraisonGetAkpub libc calloc ear appRec pakpub pakpubSz errMsg =
      match akpubOf (ear.submods.map Ref.val) appRec with
      | .error f => pure ⟨-1, pakpub, pakpubSz, reported libc f errMsg⟩
      | .ok text => do
          let r ← uB64urlDecode calloc (some text) pakpub pakpubSz
          return ⟨if r.ret = -1 then -1 else 0, r.pout, r.poutSz,
            if r.ret = -1 then reported libc .badAkpub errMsg else errMsg⟩ := by
  simp only [earVeraisonGetAkpub, Exec.assert, h.jwt, if_true, Exec.lift_some, pure_bind,
    reportErr_composeErr, akpubOf, recordOf]
  cases jsonObjectGet (ear.submods.map Ref.val) appRec with
  | none => rfl
  | some submod =>
      cases hatt : jsonObjectGet (some submod) (lit "ear.veraison.key-attestation") with
      | none => simp only [found, hatt, ok_bind, error_bind]
      | some keyAttestation =>
          cases htext : jsonStringValue (jsonObjectGet (some keyAttestation) (lit "akpub")) with
          | none => simp only [found, hatt, htext, ok_bind]
          | some text =>
              simp only [found, hatt, htext, ok_bind]
              refine bind_congr fun r => ?_
              by_cases hret : r.ret = -1
              · simp only [hret, if_true]
              · simp only [hret, if_false]

theorem earVeraisonGetAkpub_runs (h : Complete ear) (libc : Libc) {calloc : Bool} {appRec : CStr}
    (hfits : ¬ Overruns calloc (ear.submods.map Ref.val) appRec) (pakpub : Option (Ref Block))
    (pakpubSz : Nat) (errMsg : Option Buffer) :
    Runs 0 (earVeraisonGetAkpub libc calloc ear appRec pakpub pakpubSz errMsg) (fun r own =>
      (∃ f, r = ⟨-1, pakpub, pakpubSz, reported libc f errMsg⟩ ∧ own = 0 ∧
        (akpubOf (ear.submods.map Ref.val) appRec = .error f ∨
          ∃ text, akpubOf (ear.submods.map Ref.val) appRec = .ok text ∧ f = .badAkpub)) ∨
        ∃ text out, akpubOf (ear.submods.map Ref.val) appRec = .ok text ∧ r.ret = 0 ∧
          r.pakpub = some out ∧ r.errMsg = errMsg ∧ own = {(Kind.keyBuffer, out.id)}) := by
  rw [earVeraisonGetAkpub_eq h]
  cases hakpub : akpubOf (ear.submods.map Ref.val) appRec with
  | error f => exact Runs.pure _ (Or.inl ⟨f, rfl, rfl, Or.inl rfl⟩)
  | ok text =>
      have htext : ¬ Overflows calloc text := fun hover => hfits ⟨text, hakpub, hover⟩
      refine Runs.bind (uB64urlDecode_runs htext pakpub pakpubSz) fun d own hd => ?_
      rcases hd with ⟨rfl, rfl⟩ | ⟨-, out, hret, hout, rfl⟩
      · exact Runs.pure _ (Or.inl ⟨.badAkpub, rfl, rfl, Or.inr ⟨text, rfl, rfl⟩⟩)
      · have hne : ¬ d.ret = -1 := by omega
        refine Runs.pure _ (Or.inr ⟨text, out, rfl, ?_, hout, ?_, rfl⟩)
        · exact if_neg hne
        · exact if_neg hne

section Run

variable {libc : Libc} {calloc : Bool} {pakpub : Option (Ref Block)} {pakpubSz : Nat}
  {errMsg : Option Buffer} {L L' : Ledger Kind} {r : AkpubResult}

theorem earVeraisonGetAkpub_overrun (h : Complete ear)
    (hover : Overruns calloc (ear.submods.map Ref.val) appRec) :
    earVeraisonGetAkpub libc calloc ear appRec pakpub pakpubSz errMsg L = none := by
  obtain ⟨text, hakpub, htext⟩ := hover
  rw [earVeraisonGetAkpub_eq h, hakpub]
  simp only [Exec.bind_apply, uB64urlDecode_overflow htext]
  rfl

theorem earVeraisonGetAkpub_eq_none (h : Complete ear) :
    earVeraisonGetAkpub libc calloc ear appRec pakpub pakpubSz errMsg L = none ↔
      Overruns calloc (ear.submods.map Ref.val) appRec := by
  constructor
  · intro hnone
    by_contra hfits
    obtain ⟨r, L', own, hrun, -⟩ := (earVeraisonGetAkpub_runs h libc hfits pakpub pakpubSz errMsg).run L
    rw [hnone] at hrun
    cases hrun
  · intro hover
    exact earVeraisonGetAkpub_overrun h hover

theorem not_overruns_of_run (h : Complete ear)
    (hrun : earVeraisonGetAkpub libc calloc ear appRec pakpub pakpubSz errMsg L = some (r, L')) :
    ¬ Overruns calloc (ear.submods.map Ref.val) appRec := by
  intro hover
  rw [earVeraisonGetAkpub_overrun h hover] at hrun
  cases hrun

/-- A key that is handed over is what the decoder has made of the record's text. -/
theorem earVeraisonGetAkpub_success (h : Complete ear)
    (hrun : earVeraisonGetAkpub libc calloc ear appRec pakpub pakpubSz errMsg L = some (r, L'))
    (hret : r.ret = 0) :
    ∃ text d, akpubOf (ear.submods.map Ref.val) appRec = .ok text ∧
      uB64urlDecode calloc (some text) pakpub pakpubSz L = some (d, L') ∧ d.ret = 0 ∧
      r.pakpub = d.pout ∧ r.pakpubSz = d.poutSz := by
  rw [earVeraisonGetAkpub_eq h] at hrun
  cases hakpub : akpubOf (ear.submods.map Ref.val) appRec with
  | error f =>
      rw [hakpub] at hrun
      cases hrun
      exact absurd hret (by simp)
  | ok text =>
      rw [hakpub] at hrun
      obtain ⟨⟨d, M⟩, hdecode, hr⟩ := Option.bind_eq_some_iff.mp hrun
      cases hr
      refine ⟨text, d, rfl, hdecode, ?_, rfl, rfl⟩
      obtain ⟨own, -, ⟨rfl, -⟩ | ⟨-, out, hd, -⟩⟩ :=
        (uB64urlDecode_runs (not_overflows_of_run hdecode) pakpub pakpubSz).result hdecode
      · exact absurd hret (by simp)
      · exact hd

end Run

theorem foldl_count (keys : List CStr) (n : Nat) :
    keys.foldl (fun count _ => count + 1) n = n + keys.length := by
  induction keys generalizing n with
  | nil => rfl
  | cons key keys ih =>
      rw [List.foldl_cons, ih, List.length_cons]
      omega

theorem storeKey_next (id : Nat) (filled : List CStr) (key : CStr) (left : Nat) :
    storeKey (some ⟨id, filled.map some ++ List.replicate (left + 1) none⟩) filled.length key =
      some (some ⟨id, (filled ++ [key]).map some ++ List.replicate left none⟩) := by
  have hlt : filled.length < (filled.map some ++ List.replicate (left + 1) (none : Option CStr)).length := by
    simp
  have hset : (filled.map some ++ List.replicate (left + 1) (none : Option CStr)).set filled.length (some key) =
      (filled ++ [key]).map some ++ List.replicate left none := by
    rw [List.set_append_right _ _ (by simp), List.length_map, Nat.sub_self, List.replicate_succ,
      List.set_cons_zero, List.map_append, List.append_assoc]
    rfl
  simp only [storeKey, Option.bind_eq_bind, Option.bind_some, if_pos hlt, hset]
  rfl

theorem foldlM_storeKey (id : Nat) (filled keys : List CStr) :
    keys.foldlM (fun p key => do return (← storeKey p.1 p.2 key, p.2 + 1))
        (some ⟨id, filled.map some ++ List.replicate keys.length none⟩, filled.length) =
      some (some ⟨id, (filled ++ keys).map some⟩, (filled ++ keys).length) := by
  induction keys generalizing filled with
  | nil => simp
  | cons key keys ih =>
      have hnext := ih (filled ++ [key])
      rw [List.length_append, List.length_singleton, List.append_assoc, List.singleton_append] at hnext
      rw [List.foldlM_cons, List.length_cons, storeKey_next]
      exact hnext

/-- The second pass visits what the first pass has counted. -/
theorem earGetAppRecs_runs (h : Complete ear) (pappRec : Option (Ref (List (Option CStr))))
    (pappRecSz : Nat) : Runs 0 (earGetAppRecs true ear pappRec pappRecSz) (fun r own =>
    ∃ id, r = ⟨0, some ⟨id, (jsonObjectKeys (ear.submods.map Ref.val)).map some⟩,
        (jsonObjectKeys (ear.submods.map Ref.val)).length⟩ ∧ own = {(Kind.nameList, id)}) := by
  simp only [earGetAppRecs, Exec.assert, h.jwt, h.submods, if_true, Exec.lift_some, pure_bind, foldl_count,
    Nat.zero_add]
  refine bindHold _ _ fun id => ?_
  have hfill := foldlM_storeKey id [] (jsonObjectKeys (ear.submods.map Ref.val))
  exact Runs.bindLift hfill (Runs.pure _ ⟨id, rfl, rfl⟩)

end CEar.Accessors
