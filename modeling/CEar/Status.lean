import CEar.Accessors
import CEar.Tokens

namespace CEar.Status

open Accessors CString Ear Gates JsonValue Ownership Tokens Utils Verify

variable {Jwt : Type} {submods : Json} {appRec status : CStr} {t : EarTier}

/-- The text that stands for a tier in a token. -/
def tierName : EarTier → CStr
  | .none => lit "none"
  | .affirming => lit "affirming"
  | .warning => lit "warning"
  | .contraindicated => lit "contraindicated"

def StatusText (submods : Json) (appRec status : CStr) : Prop :=
  ∃ submod, submods.HasMember appRec submod ∧ submod.HasMember (lit "ear.status") (.string status)

theorem tierOf_tierName (t : EarTier) : tierOf (tierName t) = some t := by
  cases t <;> decide +kernel

theorem tiers_tierName : ∀ p ∈ tiers, p.1 = tierName p.2 := by
  decide +kernel

theorem tierOf_eq_some_iff : tierOf status = some t ↔ status = tierName t := by
  constructor
  · intro h
    obtain ⟨p, hfind, rfl⟩ := Option.map_eq_some_iff.mp h
    have hfound := List.find?_some hfind
    rw [← of_decide_eq_true hfound]
    exact tiers_tierName p (List.mem_of_find?_eq_some hfind)
  · rintro rfl
    exact tierOf_tierName t

theorem statusOf_eq_ok_iff :
    statusOf (some submods) appRec = .ok t ↔ StatusText submods appRec (tierName t) := by
  constructor
  · intro h
    obtain ⟨submod, hrecord, hrest⟩ := bind_eq_ok h
    obtain ⟨status, hstatus, htier⟩ := bind_eq_ok hrest
    obtain rfl := tierOf_eq_some_iff.mp (found_eq_ok.mp htier)
    have hmember := jsonStringValue_eq_some_iff.mp (found_eq_ok.mp hstatus)
    exact ⟨submod, jsonObjectGet_eq_some_iff.mp (found_eq_ok.mp hrecord),
      jsonObjectGet_eq_some_iff.mp hmember⟩
  · rintro ⟨submod, hrecord, hstatus⟩
    have hget := jsonStringValue_eq_some_iff.mpr (jsonObjectGet_eq_some_iff.mpr hstatus)
    rw [statusOf, recordOf, found_eq_ok.mpr (jsonObjectGet_eq_some_iff.mpr hrecord), ok_bind,
      found_eq_ok.mpr hget, ok_bind]
    exact found_eq_ok.mpr (tierOf_tierName t)

theorem statusText_unique {status' : CStr} (h : StatusText submods appRec status)
    (h' : StatusText submods appRec status') : status = status' := by
  obtain ⟨submod, hrecord, hstatus⟩ := h
  obtain ⟨submod', hrecord', hstatus'⟩ := h'
  rw [← jsonObjectGet_eq_some_iff] at hrecord hrecord' hstatus hstatus'
  obtain rfl := Option.some.inj (hrecord.symm.trans hrecord')
  rw [hstatus, Option.some.injEq, Json.string.injEq] at hstatus'
  exact hstatus'

/-- `ear_get_status` answers with a tier when the record's status names it, and
fails on any other shape of the submods. -/
theorem earGetStatus_names {ear : Ref (EarT Jwt)} (hear : Verified ear)
    (hsub : ear.val.submods.map Ref.val = some submods) (libc : Libc) (appRec : CStr)
    (ptier : Option EarTier) (errMsg : Option Buffer) (L : Ledger Kind) :
    ∃ r L', earGetStatus libc ear.val appRec ptier errMsg L = some (r, L') ∧
      (∀ t, r.ret = 0 ∧ r.ptier = some t ↔ StatusText submods appRec (tierName t)) ∧
      ((∀ t, ¬ StatusText submods appRec (tierName t)) → r.ret = -1) ∧
      ∀ status t, StatusText submods appRec status → r.ret = 0 → r.ptier = some t →
        status = tierName t := by
  rw [earGetStatus_eq hear.complete, hsub]
  refine ⟨_, L, rfl, ?_⟩
  cases hstatus : statusOf (some submods) appRec with
  | ok u =>
      have hu := statusOf_eq_ok_iff.mp hstatus
      refine ⟨fun t => ⟨?_, fun h => ⟨rfl, ?_⟩⟩, fun hnone => absurd hu (hnone u), ?_⟩
      · rintro ⟨-, ht⟩
        rwa [← Option.some.inj ht]
      · exact congrArg some (Except.ok.inj (hstatus.symm.trans (statusOf_eq_ok_iff.mpr h)))
      · intro status t htext _ ht
        rw [← Option.some.inj ht]
        exact statusText_unique htext hu
  | error f =>
      refine ⟨fun t => ⟨fun h => absurd h.1 (by simp), fun h => ?_⟩, fun _ => rfl,
        fun _ _ _ hret => absurd hret (by simp)⟩
      rw [statusOf_eq_ok_iff.mpr h] at hstatus
      cases hstatus

theorem statusRecord_text {members : List (CStr × Json)} {h : (members.map Prod.fst).Nodup}
    (hmem : (appRec, statusRecord status) ∈ members) : StatusText (jsonObject members h) appRec status :=
  ⟨_, jsonObject_hasMember h hmem, jsonObject_hasMember _ List.mem_cons_self⟩

theorem earGetStatus_names_sample :
    ∃ (ear : Ref (EarT Unit)) (r : StatusResult) (L' : Ledger Kind), Verified ear ∧
      earGetStatus realmEar.env.libc ear.val (lit "CCA_REALM") none none Ledger.empty = some (r, L') ∧
      r.ret = 0 ∧ r.ptier = some .contraindicated := by
  obtain ⟨ear, hear, hsub⟩ := realmEar.verified
  obtain ⟨r, L', hrun, hnames, -⟩ :=
    earGetStatus_names hear hsub realmEar.env.libc (lit "CCA_REALM") none none Ledger.empty
  have htext : StatusText realmSubmods (lit "CCA_REALM") (tierName .contraindicated) :=
    statusRecord_text (by simp [tierName])
  obtain ⟨hret, hptier⟩ := (hnames .contraindicated).mpr htext
  exact ⟨ear, r, L', hear, hrun, hret, hptier⟩

end CEar.Status
