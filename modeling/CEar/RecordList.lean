import CEar.Accessors
import CEar.Tokens
import Mathlib.Data.List.Induction

namespace CEar.RecordList

open Accessors CString Ear JsonValue Ownership Tokens Utils Verify

variable {Jwt : Type} {calloc : Bool} {keylist : Option (Ref (List (Option CStr)))} {keys : List CStr}

def records (ear : EarT Jwt) : List CStr := jsonObjectKeys (ear.submods.map Ref.val)

/-- The slots behind `keylist`; none behind NULL. -/
def slots (keylist : Option (Ref (List (Option CStr)))) : Nat :=
  keylist.elim 0 (fun list => list.val.length)

def allocateList (calloc : Bool) (count : Nat) : Exec Kind (Option (Ref (List (Option CStr)))) :=
  hold Kind.nameList (if calloc then some (List.replicate count none) else none)

/-- `keylist` and `i` after the names `keys` of the second pass. -/
def secondPass (keylist : Option (Ref (List (Option CStr)))) (keys : List CStr) :
    Option (Option (Ref (List (Option CStr))) × Nat) :=
  keys.foldlM (fun p key => do return (← storeKey p.1 p.2 key, p.2 + 1)) (keylist, 0)

/-- Whenever the second pass over `keys` stores a name, the list is there and
has the slot. -/
def StoresWithin (keylist : Option (Ref (List (Option CStr)))) (keys : List CStr) : Prop :=
  ∀ done key rest, keys = done ++ key :: rest →
    ∃ list i, secondPass keylist done = some (some list, i) ∧ i < slots keylist

theorem earGetAppRecs_eq {ear : EarT Jwt} (h : Complete ear) (pappRec : Option (Ref (List (Option CStr))))
    (pappRecSz : Nat) : earGetAppRecs calloc ear pappRec pappRecSz = do
    let keylist ← allocateList calloc (records ear).length
    let p ← Exec.lift (secondPass keylist (records ear))
    return ⟨0, p.1, (records ear).length⟩ := by
  simp only [earGetAppRecs, Exec.assert, h.jwt, h.submods, if_true, Exec.lift_some, pure_bind, foldl_count,
    Nat.zero_add]
  rfl

theorem storeKey_lt {i : Nat} (h : i < slots keylist) (key : CStr) :
    ∃ list, storeKey keylist i key = some (some list) ∧ slots (some list) = slots keylist := by
  cases keylist with
  | none => exact absurd h (Nat.not_lt_zero i)
  | some list =>
      have hlt : i < list.val.length := h
      have hstore : storeKey (some list) i key = some (some ⟨list.id, list.val.set i (some key)⟩) := by
        rw [storeKey, Option.bind_eq_bind, Option.bind_some, if_pos hlt]
        rfl
      exact ⟨_, hstore, List.length_set⟩

theorem storeKey_ge {i : Nat} (h : slots keylist ≤ i) (key : CStr) :
    storeKey keylist i key = none := by
  cases keylist with
  | none => rfl
  | some list =>
      have hge : ¬ i < list.val.length := Nat.not_lt.mpr h
      rw [storeKey, Option.bind_eq_bind, Option.bind_some, if_neg hge]

theorem secondPass_concat (key : CStr) : secondPass keylist (keys ++ [key]) = do
    let p ← secondPass keylist keys
    return (← storeKey p.1 p.2 key, p.2 + 1) := by
  simp only [secondPass, List.foldlM_append, List.foldlM_cons, List.foldlM_nil, bind_pure]

theorem secondPass_within (h : keys.length ≤ slots keylist) :
    ∃ keylist', secondPass keylist keys = some (keylist', keys.length) ∧
      slots keylist' = slots keylist := by
  induction keys using List.reverseRecOn with
  | nil => exact ⟨keylist, rfl, rfl⟩
  | append_singleton keys key ih =>
      rw [List.length_append, List.length_singleton] at h
      obtain ⟨keylist', hpass, hslots⟩ := ih (by omega)
      have hlt : keys.length < slots keylist' := by omega
      obtain ⟨list, hstore, hslots'⟩ := storeKey_lt hlt key
      refine ⟨some list, ?_, hslots'.trans hslots⟩
      rw [secondPass_concat, hpass, Option.bind_eq_bind, Option.bind_some, hstore,
        List.length_append, List.length_singleton]
      rfl

theorem secondPass_fault (h : slots keylist < keys.length) : secondPass keylist keys = none := by
  induction keys using List.reverseRecOn with
  | nil => exact absurd h (Nat.not_lt_zero _)
  | append_singleton keys key ih =>
      rw [List.length_append, List.length_singleton] at h
      rw [secondPass_concat]
      rcases Nat.lt_or_ge (slots keylist) keys.length with hlt | hge
      · rw [ih hlt]
        rfl
      · obtain ⟨keylist', hpass, hslots⟩ := secondPass_within hge
        have hfull : slots keylist' ≤ keys.length := by omega
        have hstore := storeKey_ge hfull key
        rw [hpass, Option.bind_eq_bind, Option.bind_some, hstore]
        rfl

theorem storesWithin_iff : StoresWithin keylist keys ↔ keys.length ≤ slots keylist := by
  constructor
  · intro h
    rcases List.eq_nil_or_concat' keys with rfl | ⟨done, key, rfl⟩
    · exact Nat.zero_le _
    · obtain ⟨list, i, hpass, hi⟩ := h done key [] rfl
      rcases Nat.lt_or_ge (slots keylist) done.length with hlt | hge
      · rw [secondPass_fault hlt] at hpass
        cases hpass
      · obtain ⟨keylist', hpass', -⟩ := secondPass_within hge
        rw [hpass', Option.some.injEq, Prod.mk.injEq] at hpass
        obtain ⟨-, rfl⟩ := hpass
        rw [List.length_append, List.length_singleton]
        exact hi
  · rintro h done key rest rfl
    rw [List.length_append, List.length_cons] at h
    have hle : done.length ≤ slots keylist := by omega
    obtain ⟨keylist', hpass, hslots⟩ := secondPass_within hle
    cases keylist' with
    | none =>
        rw [slots, Option.elim_none] at hslots
        omega
    | some list => exact ⟨list, done.length, hpass, by omega⟩

theorem allocateList_slots {count : Nat} {L L' : Ledger Kind}
    (h : allocateList calloc count L = some (keylist, L')) :
    slots keylist = if calloc then count else 0 := by
  cases calloc with
  | false =>
      cases h
      rfl
  | true =>
      cases h
      exact List.length_replicate

theorem allocateList_total (calloc : Bool) (count : Nat) (L : Ledger Kind) :
    ∃ keylist L', allocateList calloc count L = some (keylist, L') := by
  cases calloc with
  | false => exact ⟨none, L, rfl⟩
  | true => exact ⟨_, L.insert Kind.nameList, rfl⟩

/-- A call that copes with what `calloc` answers. When a list for one or more
names is refused, it returns -1 and leaves the out parameters as they were;
otherwise it returns 0 and stores within the list. -/
structure Copes (calloc : Bool) (ear : EarT Jwt) : Prop where
  refused : calloc = false → records ear ≠ [] → ∀ pappRec pappRecSz L, ∃ L',
    earGetAppRecs calloc ear pappRec pappRecSz L = some (⟨-1, pappRec, pappRecSz⟩, L')
  granted : calloc = true ∨ records ear = [] → ∀ pappRec pappRecSz L, ∃ r L' keylist M,
    earGetAppRecs calloc ear pappRec pappRecSz L = some (r, L') ∧ r.ret = 0 ∧
      allocateList calloc (records ear).length L = some (keylist, M) ∧
      StoresWithin keylist (records ear)

theorem earGetAppRecs_granted {ear : EarT Jwt} (h : Complete ear)
    (hgranted : calloc = true ∨ records ear = []) (pappRec : Option (Ref (List (Option CStr))))
    (pappRecSz : Nat) (L : Ledger Kind) :
    ∃ r L' keylist M, earGetAppRecs calloc ear pappRec pappRecSz L = some (r, L') ∧ r.ret = 0 ∧
      allocateList calloc (records ear).length L = some (keylist, M) ∧
      StoresWithin keylist (records ear) := by
  obtain ⟨keylist, L', hlist⟩ := allocateList_total calloc (records ear).length L
  have hle : (records ear).length ≤ slots keylist := by
    rw [allocateList_slots hlist]
    rcases hgranted with rfl | hempty
    · exact le_rfl
    · rw [hempty]
      exact Nat.zero_le _
  obtain ⟨keylist', hpass, -⟩ := secondPass_within hle
  have hrun : earGetAppRecs calloc ear pappRec pappRecSz L =
      some (⟨0, keylist', (records ear).length⟩, L') := by
    rw [earGetAppRecs_eq h, Exec.bind_apply, hlist, Option.bind_some, hpass, Exec.lift_some, pure_bind]
    rfl
  exact ⟨_, L', keylist, L', hrun, rfl, hlist, storesWithin_iff.mpr hle⟩

/-- A name is stored through NULL. -/
theorem earGetAppRecs_fault {ear : EarT Jwt} (h : Complete ear) (hrecords : records ear ≠ [])
    (pappRec : Option (Ref (List (Option CStr)))) (pappRecSz : Nat) (L : Ledger Kind) :
    earGetAppRecs false ear pappRec pappRecSz L = none := by
  have hpass : secondPass none (records ear) = none :=
    secondPass_fault (List.length_pos_iff.mpr hrecords)
  rw [earGetAppRecs_eq h, allocateList, if_neg (by decide), hold_none, pure_bind, hpass]
  rfl

theorem earGetAppRecs_copes_iff {ear : Ref (EarT Jwt)} (hear : Verified ear) (calloc : Bool) :
    Copes calloc ear.val ↔ calloc = true ∨ records ear.val = [] := by
  constructor
  · intro h
    by_contra hnot
    obtain ⟨hcalloc, hrecords⟩ := not_or.mp hnot
    rw [Bool.not_eq_true] at hcalloc
    obtain ⟨L', hrun⟩ := h.refused hcalloc hrecords none 0 Ledger.empty
    rw [hcalloc, earGetAppRecs_fault hear.complete hrecords] at hrun
    cases hrun
  · intro hgranted
    refine ⟨fun hcalloc hrecords => ?_, fun h => earGetAppRecs_granted hear.complete h⟩
    rcases hgranted with hgranted | hgranted
    · exact absurd (hcalloc.symm.trans hgranted) (by decide)
    · exact absurd hgranted hrecords

/-- A list of two names is allocated; no list is needed for none. -/
theorem earGetAppRecs_copes_iff_sample :
    (∃ ear : Ref (EarT Unit), Verified ear ∧ records ear.val = [lit "CCA_PLATFORM", lit "CCA_REALM"] ∧
      Copes true ear.val) ∧
    ∃ ear : Ref (EarT Unit), Verified ear ∧ records ear.val = [] ∧ Copes false ear.val := by
  obtain ⟨ear, hear, hsub⟩ := realmEar.verified
  obtain ⟨ear', hear', hsub'⟩ := emptyEar.verified
  have hrecords : records ear'.val = [] := by
    rw [records, hsub']
    rfl
  refine ⟨⟨ear, hear, by rw [records, hsub]; rfl, ?_⟩, ear', hear', hrecords, ?_⟩
  · exact (earGetAppRecs_copes_iff hear true).mpr (Or.inl rfl)
  · exact (earGetAppRecs_copes_iff hear' false).mpr (Or.inr hrecords)

/-- A token with two records, and no memory for the list of their names. -/
theorem earGetAppRecs_overlooks :
    ∃ ear : Ref (EarT Unit), Verified ear ∧ records ear.val = [lit "CCA_PLATFORM", lit "CCA_REALM"] ∧
      (∀ pappRec pappRecSz L, earGetAppRecs false ear.val pappRec pappRecSz L = none) ∧
      ¬ Copes false ear.val := by
  obtain ⟨ear, hear, hsub⟩ := realmEar.verified
  have hrecords : records ear.val = [lit "CCA_PLATFORM", lit "CCA_REALM"] := by
    rw [records, hsub]
    rfl
  have hne : records ear.val ≠ [] := by
    rw [hrecords]
    exact List.cons_ne_nil _ _
  refine ⟨ear, hear, hrecords, earGetAppRecs_fault hear.complete hne, fun h => ?_⟩
  obtain ⟨L', hrun⟩ := h.refused rfl hne none 0 Ledger.empty
  rw [earGetAppRecs_fault hear.complete hne] at hrun
  cases hrun

end CEar.RecordList
