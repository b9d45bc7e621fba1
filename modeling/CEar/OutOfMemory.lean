import CEar.Session

namespace CEar.OutOfMemory

open B64urlDecode Base64Decode CString Ear JsonValue KeyAttestation Ownership RecordList Session Simulation
  Tokens Utils Verify

variable {Alg Jwt : Type} [DecidableEq Alg] {w w' : World Jwt} {c : Call Alg Jwt} {ret : Int}

theorem session_balanced {es : List (Call Alg Jwt × Int)} (h : Trace start Executes es w) : Balanced w := by
  apply h.invariant balanced_start
  intro w e w' hw hstep
  exact (exec_keeps hw hstep.legal hstep.executed).1

theorem exec_eq_none (h : Balanced w) (hlegal : Legal w c) : exec c w = none ↔ Faults c := by
  constructor
  · intro hnone
    by_contra hruns
    obtain ⟨ret, w', hexec, -⟩ := legal_keeps h hlegal hruns
    rw [hnone] at hexec
    cases hexec
  · intro hfaults
    exact exec_faults h hlegal hfaults

/-- The texts that do not fit in their block, in the key of a record. -/
theorem overruns_iff {calloc : Bool} {submods : Option Json} {appRec : CStr} :
    Accessors.Overruns calloc submods appRec ↔ calloc = true ∧ ∃ text,
      akpubClaim submods appRec = some (.string text) ∧ Wraps (alphabetPrefix text).length := by
  simp only [Accessors.Overruns, akpubOf_eq_ok, Overflows, fits_iff_not_wraps, not_not]
  constructor
  · rintro ⟨text, hclaim, hcalloc, hwraps⟩
    exact ⟨hcalloc, text, hclaim, hwraps⟩
  · rintro ⟨hcalloc, text, hclaim, hwraps⟩
    exact ⟨text, hclaim, hcalloc, hwraps⟩

/-- Whichever allocations fail in a session, these are the legal calls that
fault: one for the names of an EAR with records and no memory for their list,
and one for a key whose text wraps the size of its block around. Every other
call leaves live what the caller holds, and a failed one what was live. -/
theorem session_faults {es : List (Call Alg Jwt × Int)} (h : Trace start Executes es w)
    (hlegal : Legal w c) :
    (exec c w = none ↔
      (∃ ear pappRec pappRecSz, c = .getAppRecs false ear pappRec pappRecSz ∧ records ear.val ≠ []) ∨
      ∃ libc ear appRec pakpub pakpubSz errMsg text,
        c = .getAkpub libc true ear appRec pakpub pakpubSz errMsg ∧
        akpubClaim (ear.val.submods.map Ref.val) appRec = some (.string text) ∧
        Wraps (alphabetPrefix text).length) ∧
    ∀ ret w', exec c w = some (ret, w') →
      w'.ledger.live = owns w' ∧ (ret = -1 → w'.ledger.live = w.ledger.live) := by
  have hw := session_balanced h
  refine ⟨(exec_eq_none hw hlegal).trans ?_, ?_⟩
  · cases c with
    | getAppRecs calloc ear pappRec pappRecSz => simp [Faults]
    | getAkpub libc calloc ear appRec pakpub pakpubSz errMsg => simp [Faults, overruns_iff]
    | verify | getStatus | freeEar | freeKey | freeList => simp [Faults]
  · intro ret w' hexec
    obtain ⟨hbalanced, hfails⟩ := exec_keeps hw hlegal hexec
    exact ⟨hbalanced.live, hfails⟩

/-- A token with two records has been verified: its names are had with memory for
them only. -/
theorem session_faults_sample :
    ∃ L ear, Trace start Executes [(verification realmEar, 0)] ⟨L, {ear}, 0, 0⟩ ∧
      exec (.getAppRecs false ear none 0 : Call (Option CStr) Unit) ⟨L, {ear}, 0, 0⟩ = none ∧
      exec (.getAppRecs true ear none 0 : Call (Option CStr) Unit) ⟨L, {ear}, 0, 0⟩ ≠ none := by
  obtain ⟨L, ear, hrun, hsub⟩ := realmEar.runs
  have htrace : Trace start Executes [(verification realmEar, 0)] ⟨L, {ear}, 0, 0⟩ :=
    .next .start (verification_executes hrun)
  have hlegal (calloc : Bool) :
      Legal ⟨L, {ear}, 0, 0⟩ (.getAppRecs calloc ear none 0 : Call (Option CStr) Unit) :=
    Multiset.mem_singleton_self ear
  have hrecords : records ear.val ≠ [] := by
    rw [records, hsub]
    exact List.cons_ne_nil _ _
  obtain ⟨hrefused, -⟩ := session_faults htrace (hlegal false)
  obtain ⟨hgranted, -⟩ := session_faults htrace (hlegal true)
  refine ⟨L, ear, htrace, hrefused.mpr (Or.inl ⟨ear, none, 0, rfl, hrecords⟩), ?_⟩
  rw [ne_eq, hgranted]
  simp

end CEar.OutOfMemory
