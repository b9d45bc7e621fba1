import CEar.KeyAttestation
import CEar.RecordList
import CEar.Simulation
import Mathlib.Data.Multiset.Bind

namespace CEar.Session

open Accessors B64urlDecode Base64Decode Contract CString Ear Gates JsonValue KeyAttestation Ownership
  RecordList Report Simulation Tokens Utils Verify
open scoped Classical

variable {Alg Jwt : Type} [DecidableEq Alg]

/-- The library's objects, and what the caller has been given and has not freed. -/
structure World (Jwt : Type) where
  ledger : Ledger Kind
  ears : Multiset (Ref (EarT Jwt))
  keys : Multiset (Ref Block)
  lists : Multiset (Ref (List (Option CStr)))

/-- A call of the library, or the caller's own `free` of a buffer or a list. -/
inductive Call (Alg Jwt : Type)
  | verify (env : Env Alg Jwt) (earJwt : CStr) (pkey : Key) (alg : CStr)
      (pear : Option (Ref (EarT Jwt))) (errMsg : Option Buffer)
  | getAppRecs (calloc : Bool) (ear : Ref (EarT Jwt)) (pappRec : Option (Ref (List (Option CStr))))
      (pappRecSz : Nat)
  | getStatus (libc : Libc) (ear : Ref (EarT Jwt)) (appRec : CStr) (ptier : Option EarTier)
      (errMsg : Option Buffer)
  | getAkpub (libc : Libc) (calloc : Bool) (ear : Ref (EarT Jwt)) (appRec : CStr)
      (pakpub : Option (Ref Block)) (pakpubSz : Nat) (errMsg : Option Buffer)
  | freeEar (ear : Option (Ref (EarT Jwt)))
  | freeKey (key : Ref Block)
  | freeList (list : Ref (List (Option CStr)))

def Legal (w : World Jwt) : Call Alg Jwt → Prop
  | .verify .. => True
  | .getAppRecs _ ear _ _ | .getStatus _ ear .. | .getAkpub _ _ ear .. => ear ∈ w.ears
  | .freeEar ear => ∀ e ∈ ear, e ∈ w.ears
  | .freeKey key => key ∈ w.keys
  | .freeList list => list ∈ w.lists

/-- There is no memory for a list of one or more names, or the text of the key is
stored past the end of its block. -/
def Faults : Call Alg Jwt → Prop
  | .getAppRecs calloc ear _ _ => calloc = false ∧ records ear.val ≠ []
  | .getAkpub _ calloc ear appRec .. => Overruns calloc (ear.val.submods.map Ref.val) appRec
  | .verify .. | .getStatus .. | .freeEar _ | .freeKey _ | .freeList _ => False

def received {α : Type} (ret : Int) (out : Option (Ref α)) : Multiset (Ref α) :=
  if ret = 0 then out.elim 0 ({·}) else 0

/-- The return value and the world after a call; a call of `free` counts as
returning 0. -/
noncomputable def exec (c : Call Alg Jwt) (w : World Jwt) : Option (Int × World Jwt) :=
  match c with
  | .verify env earJwt pkey alg pear errMsg => do
      let (r, L) ← earJwtVerify env earJwt pkey alg pear errMsg w.ledger
      return (r.ret, { w with ledger := L, ears := received r.ret r.pear + w.ears })
  | .getAppRecs calloc ear pappRec pappRecSz => do
      let (r, L) ← earGetAppRecs calloc ear.val pappRec pappRecSz w.ledger
      return (r.ret, { w with ledger := L, lists := received r.ret r.pappRec + w.lists })
  | .getStatus libc ear appRec ptier errMsg => do
      let (r, L) ← earGetStatus libc ear.val appRec ptier errMsg w.ledger
      return (r.ret, { w with ledger := L })
  | .getAkpub libc calloc ear appRec pakpub pakpubSz errMsg => do
      let (r, L) ← earVeraisonGetAkpub libc calloc ear.val appRec pakpub pakpubSz errMsg w.ledger
      return (r.ret, { w with ledger := L, keys := received r.ret r.pakpub + w.keys })
  | .freeEar ear => do
      let (_, L) ← earFree ear w.ledger
      return (0, { w with ledger := L, ears := w.ears - ear.elim 0 ({·}) })
  | .freeKey key => do
      let (_, L) ← Exec.release Kind.keyBuffer key.id w.ledger
      return (0, { w with ledger := L, keys := w.keys.erase key })
  | .freeList list => do
      let (_, L) ← Exec.release Kind.nameList list.id w.ledger
      return (0, { w with ledger := L, lists := w.lists.erase list })

/-- The objects of what the caller holds: for each EAR itself, its token and its
submods, and the buffers and lists. -/
def owns (w : World Jwt) : Multiset (Obj Kind) :=
  w.ears.bind owned + (w.keys.map (fun key => (Kind.keyBuffer, key.id)) +
    w.lists.map (fun list => (Kind.nameList, list.id)))

structure Balanced (w : World Jwt) : Prop where
  live : w.ledger.live = owns w
  complete : ∀ ear ∈ w.ears, Complete ear.val

def start : World Jwt := ⟨Ledger.empty, 0, 0, 0⟩

theorem balanced_start : Balanced (start : World Jwt) := ⟨rfl, by simp [start]⟩

variable {w : World Jwt}

theorem received_failed {α : Type} (out : Option (Ref α)) : received (-1) out = 0 := rfl

theorem received_none {α : Type} : received 0 (none : Option (Ref α)) = 0 := rfl

theorem received_some {α : Type} (out : Ref α) : received 0 (some out) = {out} := rfl

theorem owns_ear (L : Ledger Kind) (ear : Ref (EarT Jwt)) (ears : Multiset (Ref (EarT Jwt)))
    (keys : Multiset (Ref Block)) (lists : Multiset (Ref (List (Option CStr)))) :
    owns ⟨L, {ear} + ears, keys, lists⟩ = owned ear + owns ⟨L, ears, keys, lists⟩ := by
  simp only [owns, Multiset.singleton_add, Multiset.cons_bind, add_assoc]

theorem owns_key (L : Ledger Kind) (ears : Multiset (Ref (EarT Jwt))) (key : Ref Block)
    (keys : Multiset (Ref Block)) (lists : Multiset (Ref (List (Option CStr)))) :
    owns ⟨L, ears, {key} + keys, lists⟩ =
      {(Kind.keyBuffer, key.id)} + owns ⟨L, ears, keys, lists⟩ := by
  simp only [owns, Multiset.singleton_add, Multiset.map_cons, Multiset.add_cons, Multiset.cons_add]

theorem owns_list (L : Ledger Kind) (ears : Multiset (Ref (EarT Jwt))) (keys : Multiset (Ref Block))
    (list : Ref (List (Option CStr))) (lists : Multiset (Ref (List (Option CStr)))) :
    owns ⟨L, ears, keys, {list} + lists⟩ =
      {(Kind.nameList, list.id)} + owns ⟨L, ears, keys, lists⟩ := by
  simp only [owns, Multiset.singleton_add, Multiset.map_cons, Multiset.add_cons]

def Keeps (w : World Jwt) (c : Call Alg Jwt) : Prop :=
  ∃ ret w', exec c w = some (ret, w') ∧ Balanced w' ∧ (ret = -1 → w'.ledger.live = w.ledger.live)

theorem verify_keeps (h : Balanced w) (env : Env Alg Jwt) (earJwt : CStr) (pkey : Key) (alg : CStr)
    (pear : Option (Ref (EarT Jwt))) (errMsg : Option Buffer) :
    Keeps w (.verify env earJwt pkey alg pear errMsg) := by
  obtain ⟨r, L, own, hrun, hlive, hr⟩ :=
    (earJwtVerify_runs env earJwt pkey alg pear errMsg).run w.ledger
  refine ⟨_, _, by simp only [exec, hrun]; rfl, ?_⟩
  cases hr with
  | unauthentic | refused =>
      simp only [received_failed, zero_add] at hlive ⊢
      exact ⟨⟨hlive.trans h.live, h.complete⟩, fun _ => hlive⟩
  | verified ear j s jwt submods hauth hs =>
      refine ⟨⟨?_, ?_⟩, fun hret => absurd hret (by simp)⟩
      · rw [received_some, owns_ear]
        exact hlive.trans (congrArg _ h.live)
      · intro e he
        rcases Multiset.mem_add.mp he with he | he
        · obtain rfl := Multiset.mem_singleton.mp he
          exact ⟨rfl, rfl⟩
        · exact h.complete e he

/-- A list with a slot for each record. An EAR without records gets by without it. -/
theorem earGetAppRecs_listed {ear : EarT Jwt} (h : Complete ear) {calloc : Bool}
    (hgranted : ¬ (calloc = false ∧ records ear ≠ [])) (pappRec : Option (Ref (List (Option CStr))))
    (pappRecSz : Nat) (L : Ledger Kind) : ∃ list L',
      earGetAppRecs calloc ear pappRec pappRecSz L = some (⟨0, list, (records ear).length⟩, L') ∧
      L'.live = list.elim 0 (fun list => {(Kind.nameList, list.id)}) + L.live ∧
      list.map Ref.val = if calloc then some ((records ear).map some) else none := by
  cases calloc with
  | false =>
      have hempty : records ear = [] := by simpa using hgranted
      have hrun : earGetAppRecs false ear pappRec pappRecSz L = some (⟨0, none, 0⟩, L) := by
        rw [earGetAppRecs_eq h, hempty]
        rfl
      rw [hempty]
      exact ⟨none, L, hrun, (zero_add _).symm, rfl⟩
  | true =>
      obtain ⟨_, L', _, hrun, hlive, id, rfl, rfl⟩ := (earGetAppRecs_runs h pappRec pappRecSz).run L
      exact ⟨_, L', hrun, hlive, rfl⟩

theorem getAppRecs_keeps (h : Balanced w) {calloc : Bool} {ear : Ref (EarT Jwt)} (hear : ear ∈ w.ears)
    (hgranted : ¬ (calloc = false ∧ records ear.val ≠ [])) (pappRec : Option (Ref (List (Option CStr))))
    (pappRecSz : Nat) : Keeps w (.getAppRecs calloc ear pappRec pappRecSz : Call Alg Jwt) := by
  obtain ⟨list, L, hrun, hlive, -⟩ :=
    earGetAppRecs_listed (h.complete ear hear) hgranted pappRec pappRecSz w.ledger
  refine ⟨_, _, by simp only [exec, hrun]; rfl, ?_⟩
  refine ⟨⟨?_, h.complete⟩, fun hret => absurd hret (by simp)⟩
  rw [h.live] at hlive
  cases list with
  | none =>
      rw [received_none, zero_add]
      exact hlive.trans (zero_add _)
  | some list =>
      rw [received_some, owns_list]
      exact hlive

theorem getStatus_keeps (h : Balanced w) {ear : Ref (EarT Jwt)} (hear : ear ∈ w.ears) (libc : Libc)
    (appRec : CStr) (ptier : Option EarTier) (errMsg : Option Buffer) :
    Keeps w (.getStatus libc ear appRec ptier errMsg : Call Alg Jwt) := by
  have hrun := congrFun (earGetStatus_eq (h.complete ear hear) libc appRec ptier errMsg) w.ledger
  refine ⟨_, _, by simp only [exec, hrun]; rfl, ?_⟩
  exact ⟨⟨h.live, h.complete⟩, fun _ => rfl⟩

theorem getAkpub_keeps (h : Balanced w) {ear : Ref (EarT Jwt)} (hear : ear ∈ w.ears) {calloc : Bool}
    {appRec : CStr} (hfits : ¬ Overruns calloc (ear.val.submods.map Ref.val) appRec) (libc : Libc)
    (pakpub : Option (Ref Block)) (pakpubSz : Nat) (errMsg : Option Buffer) :
    Keeps w (.getAkpub libc calloc ear appRec pakpub pakpubSz errMsg : Call Alg Jwt) := by
  obtain ⟨r, L, own, hrun, hlive, hr⟩ :=
    (earVeraisonGetAkpub_runs (h.complete ear hear) libc hfits pakpub pakpubSz errMsg).run w.ledger
  refine ⟨_, _, by simp only [exec, hrun]; rfl, ?_⟩
  rcases hr with ⟨f, rfl, rfl, -⟩ | ⟨text, out, -, hret, hout, -, rfl⟩
  · simp only [received_failed, zero_add] at hlive ⊢
    exact ⟨⟨hlive.trans h.live, h.complete⟩, fun _ => hlive⟩
  · rw [hret, hout, received_some]
    refine ⟨⟨?_, h.complete⟩, fun hfail => absurd hfail (by simp)⟩
    rw [owns_key]
    exact hlive.trans (congrArg _ h.live)

theorem freeEar_keeps (h : Balanced w) {ear : Option (Ref (EarT Jwt))} (hear : ∀ e ∈ ear, e ∈ w.ears) :
    Keeps w (.freeEar ear : Call Alg Jwt) := by
  cases ear with
  | none =>
      refine ⟨0, w, ?_, h, fun _ => rfl⟩
      simp [exec, earFree]
  | some ear =>
      obtain ⟨ears, hears⟩ := Multiset.exists_cons_of_mem (hear ear rfl)
      have hlive : w.ledger.live = owned ear + 0 + owns { w with ears := ears } := by
        rw [add_zero, h.live, ← owns_ear, Multiset.singleton_add, ← hears]
      obtain ⟨_, L, _, hrun, hlive', rfl⟩ := earFree_runs ear 0 w.ledger _ hlive
      refine ⟨0, ⟨L, ears, w.keys, w.lists⟩, ?_, ⟨?_, ?_⟩, fun hret => absurd hret (by simp)⟩
      · simp [exec, hrun, hears]
      · exact hlive'.trans (zero_add _)
      · intro e he
        exact h.complete e (by rw [hears]; exact Multiset.mem_cons_of_mem he)

theorem release_live {k : Kind} {id : Nat} {rest : Multiset (Obj Kind)}
    (h : w.ledger.live = {(k, id)} + rest) :
    ∃ L, Exec.release k id w.ledger = some ((), L) ∧ L.live = rest := by
  have hrelease : Runs {(k, id)} (Exec.release k id) (fun _ own => own = 0) :=
    Runs.release (Multiset.singleton_add _ 0) rfl
  obtain ⟨_, L, _, hrun, hlive, rfl⟩ := hrelease w.ledger rest h
  exact ⟨L, hrun, hlive.trans (zero_add rest)⟩

theorem exec_freeKey (h : Balanced w) {key : Ref Block} {keys : Multiset (Ref Block)}
    (hkeys : w.keys = {key} + keys) :
    ∃ L, exec (.freeKey key : Call Alg Jwt) w = some (0, ⟨L, w.ears, keys, w.lists⟩) ∧
      L.live = owns { w with keys := keys } := by
  have hlive : w.ledger.live = {(Kind.keyBuffer, key.id)} + owns { w with keys := keys } := by
    rw [h.live, ← owns_key, ← hkeys]
  obtain ⟨L, hrun, hL⟩ := release_live hlive
  refine ⟨L, ?_, hL⟩
  simp [exec, hrun, hkeys]

theorem freeKey_keeps (h : Balanced w) {key : Ref Block} (hkey : key ∈ w.keys) :
    Keeps w (.freeKey key : Call Alg Jwt) := by
  obtain ⟨keys, hkeys⟩ := Multiset.exists_cons_of_mem hkey
  obtain ⟨L, hexec, hL⟩ := @exec_freeKey Alg _ _ _ h _ _ hkeys
  exact ⟨0, _, hexec, ⟨hL, h.complete⟩, fun hret => absurd hret (by simp)⟩

theorem freeList_keeps (h : Balanced w) {list : Ref (List (Option CStr))} (hlist : list ∈ w.lists) :
    Keeps w (.freeList list : Call Alg Jwt) := by
  obtain ⟨lists, hlists⟩ := Multiset.exists_cons_of_mem hlist
  have hlive : w.ledger.live = {(Kind.nameList, list.id)} + owns { w with lists := lists } := by
    rw [h.live, ← owns_list, Multiset.singleton_add, ← hlists]
  obtain ⟨L, hrun, hL⟩ := release_live hlive
  refine ⟨0, ⟨L, w.ears, w.keys, lists⟩, ?_, ⟨hL, h.complete⟩, fun hret => absurd hret (by simp)⟩
  simp [exec, hrun, hlists]

theorem legal_keeps (h : Balanced w) {c : Call Alg Jwt} (hc : Legal w c) (hruns : ¬ Faults c) :
    Keeps w c := by
  cases c with
  | verify env earJwt pkey alg pear errMsg => exact verify_keeps h env earJwt pkey alg pear errMsg
  | getAppRecs calloc ear pappRec pappRecSz => exact getAppRecs_keeps h hc hruns pappRec pappRecSz
  | getStatus libc ear appRec ptier errMsg => exact getStatus_keeps h hc libc appRec ptier errMsg
  | getAkpub libc calloc ear appRec pakpub pakpubSz errMsg =>
      exact getAkpub_keeps h hc hruns libc pakpub pakpubSz errMsg
  | freeEar ear => exact freeEar_keeps h hc
  | freeKey key => exact freeKey_keeps h hc
  | freeList list => exact freeList_keeps h hc

theorem exec_faults (h : Balanced w) {c : Call Alg Jwt} (hc : Legal w c) (hfaults : Faults c) :
    exec c w = none := by
  cases c with
  | getAppRecs calloc ear pappRec pappRecSz =>
      obtain ⟨rfl, hrecords⟩ := hfaults
      simp only [exec, earGetAppRecs_fault (h.complete ear hc) hrecords]
      rfl
  | getAkpub libc calloc ear appRec pakpub pakpubSz errMsg =>
      simp only [exec, earVeraisonGetAkpub_overrun (h.complete ear hc) hfaults]
      rfl
  | verify | getStatus | freeEar | freeKey | freeList => exact hfaults.elim

theorem not_faults_of_exec (h : Balanced w) {c : Call Alg Jwt} (hc : Legal w c) {ret : Int}
    {w' : World Jwt} (hexec : exec c w = some (ret, w')) : ¬ Faults c := by
  intro hfaults
  rw [exec_faults h hc hfaults] at hexec
  cases hexec

theorem exec_keeps (h : Balanced w) {c : Call Alg Jwt} (hc : Legal w c) {ret : Int} {w' : World Jwt}
    (hexec : exec c w = some (ret, w')) :
    Balanced w' ∧ (ret = -1 → w'.ledger.live = w.ledger.live) := by
  obtain ⟨ret', w'', hrun, hkeeps⟩ := legal_keeps h hc (not_faults_of_exec h hc hexec)
  rw [hexec, Option.some.injEq, Prod.mk.injEq] at hrun
  obtain ⟨rfl, rfl⟩ := hrun
  exact hkeeps

/-- The worlds that legal calls lead to, in any order and with any outcome of the
external functions that `allowed` admits. -/
inductive Reachable (allowed : Env Alg Jwt → Prop) : World Jwt → Prop
  | start : Reachable allowed start
  | call {w w' : World Jwt} {c : Call Alg Jwt} {ret : Int} (h : Reachable allowed w)
      (hlegal : Legal w c) (hallowed : ∀ env earJwt pkey alg pear errMsg,
        c = .verify env earJwt pkey alg pear errMsg → allowed env)
      (hexec : exec c w = some (ret, w')) : Reachable allowed w'

theorem Reachable.balanced {allowed : Env Alg Jwt → Prop} (h : Reachable allowed w) : Balanced w := by
  induction h with
  | start => exact balanced_start
  | call h hlegal hallowed hexec ih => exact (exec_keeps ih hlegal hexec).1

/-- A legal call and what it returns. -/
structure Executes (w : World Jwt) (e : Call Alg Jwt × Int) (w' : World Jwt) : Prop where
  legal : Legal w e.1
  executed : exec e.1 w = some (e.2, w')

theorem reachable_of_trace {allowed : Env Alg Jwt → Prop} {es : List (Call Alg Jwt × Int)}
    (h : Trace start Executes es w) (hallowed : ∀ e ∈ es, ∀ env earJwt pkey alg pear errMsg,
      e.1 = .verify env earJwt pkey alg pear errMsg → allowed env) : Reachable allowed w := by
  induction h with
  | start => exact .start
  | next h hstep ih =>
      have hbefore := ih fun e he => hallowed e (List.mem_append_left _ he)
      have hlast := hallowed _ (List.mem_append_right _ (List.mem_singleton_self _))
      exact .call hbefore hstep.legal hlast hstep.executed

section Visit

def verification (t : EarToken) : Call (Option CStr) Unit := .verify t.env t.text t.key t.alg none none

theorem verification_executes {t : EarToken} {L : Ledger Kind} {ear : Ref (EarT Unit)}
    (hrun : earJwtVerify t.env t.text t.key t.alg none none Ledger.empty = some (⟨0, some ear, none⟩, L)) :
    Executes start (verification t, 0) ⟨L, {ear}, 0, 0⟩ := by
  refine ⟨trivial, ?_⟩
  simp only [verification, exec, start, hrun, Option.bind_eq_bind, Option.bind_some, received_some, add_zero]
  rfl

variable {v : World Unit} {ear : Ref (EarT Unit)} {appRec : CStr}

theorem getStatus_executes (h : Balanced v) (hear : ear ∈ v.ears) {f : Failure}
    (hstatus : statusOf (ear.val.submods.map Ref.val) appRec = .error f) (libc : Libc)
    (ptier : Option EarTier) (errMsg : Option Buffer) :
    Executes v ((.getStatus libc ear appRec ptier errMsg, -1) : Call (Option CStr) Unit × Int) v := by
  have hrun := congrFun (earGetStatus_eq (h.complete ear hear) libc appRec ptier errMsg) v.ledger
  rw [hstatus] at hrun
  exact ⟨hear, by simp only [exec, hrun]; rfl⟩

theorem getAkpub_executes (h : Balanced v) (hear : ear ∈ v.ears) {text : CStr}
    (hclaim : akpubClaim (ear.val.submods.map Ref.val) appRec = some (.string text))
    (htwo : 2 ≤ (alphabetPrefix text).length) (hn : (alphabetPrefix text).length ≤ 2 ^ 31 - 4) (libc : Libc)
    (pakpub : Option (Ref Block)) (pakpubSz : Nat) (errMsg : Option Buffer) :
    ∃ L key, Executes v
      ((.getAkpub libc true ear appRec pakpub pakpubSz errMsg, 0) : Call (Option CStr) Unit × Int)
      ⟨L, v.ears, {key} + v.keys, v.lists⟩ := by
  obtain ⟨d, L, -, hrun, -, ⟨hle, -⟩ | ⟨-, id, -, rfl⟩⟩ := (uB64urlDecode_small hn pakpub pakpubSz).run v.ledger
  · omega
  · refine ⟨L, ⟨id, decodedBlock (alphabetPrefix text)⟩, hear, ?_⟩
    simp only [exec, earVeraisonGetAkpub_eq (h.complete ear hear), akpubOf_eq_ok.mpr hclaim,
      Exec.bind_apply, hrun]
    rfl

theorem getAppRecs_executes (h : Balanced v) (hear : ear ∈ v.ears)
    (pappRec : Option (Ref (List (Option CStr)))) (pappRecSz : Nat) :
    ∃ L list, Executes v ((.getAppRecs true ear pappRec pappRecSz, 0) : Call (Option CStr) Unit × Int)
      ⟨L, v.ears, v.keys, {list} + v.lists⟩ := by
  obtain ⟨_, L, _, hrun, -, id, rfl, -⟩ :=
    (earGetAppRecs_runs (h.complete ear hear) pappRec pappRecSz).run v.ledger
  exact ⟨L, _, hear, by simp only [exec, hrun]; rfl⟩

theorem freeKey_executes (h : Balanced v) {key : Ref Block} {keys : Multiset (Ref Block)}
    (hkeys : v.keys = {key} + keys) :
    ∃ L, Executes v ((.freeKey key, 0) : Call (Option CStr) Unit × Int) ⟨L, v.ears, keys, v.lists⟩ := by
  have hkey : key ∈ v.keys := by
    rw [hkeys]
    exact Multiset.mem_add.mpr (Or.inl (Multiset.mem_singleton_self key))
  obtain ⟨L, hexec, -⟩ := @exec_freeKey (Option CStr) _ _ _ h _ _ hkeys
  exact ⟨L, hkey, hexec⟩

/-- A session with the EAR that the library is tested with: it is asked for a
record it does not have, for its key and for its names, and the key is freed. -/
def visit (ear : Ref (EarT Unit)) (key : Ref Block) : List (Call (Option CStr) Unit × Int) :=
  [(verification validEar, 0),
    (.getStatus validEar.env.libc ear (lit "CCA_REALM") none (some emptyErr), -1),
    (.getAkpub validEar.env.libc true ear (lit "PARSEC_TPM") none 0 (some emptyErr), 0),
    (.getAppRecs true ear none 0, 0), (.freeKey key, 0)]

theorem visit_runs :
    ∃ ear key list L, Trace start Executes (visit ear key) ⟨L, {ear}, 0, {list}⟩ ∧
      ear.val.submods.map Ref.val = some parsecSubmods := by
  obtain ⟨L₁, ear, hrun, hsub⟩ := validEar.runs
  have hverify := verification_executes hrun
  have h₁ := (exec_keeps balanced_start hverify.legal hverify.executed).1
  have hear : ear ∈ ({ear} : Multiset (Ref (EarT Unit))) := Multiset.mem_singleton_self ear
  have hstatus : statusOf (ear.val.submods.map Ref.val) (lit "CCA_REALM") =
      .error (.noRecord (lit "CCA_REALM")) := by
    rw [hsub]
    rfl
  have hfails := getStatus_executes h₁ hear hstatus validEar.env.libc none (some emptyErr)
  have hclaim := validEar_akpub
  rw [← hsub] at hclaim
  have hlen : (alphabetPrefix akpubText).length = 122 := by decide +kernel
  obtain ⟨L₂, key, hkey⟩ := getAkpub_executes h₁ hear hclaim (by omega) (by omega) validEar.env.libc none 0
    (some emptyErr)
  have h₂ := (exec_keeps h₁ hkey.legal hkey.executed).1
  obtain ⟨L₃, list, hlist⟩ := getAppRecs_executes h₂ hear none 0
  have h₃ := (exec_keeps h₂ hlist.legal hlist.executed).1
  obtain ⟨L₄, hfree⟩ := freeKey_executes h₃ rfl
  rw [add_zero] at hlist hfree
  exact ⟨ear, key, list, L₄, .next (.next (.next (.next (.next .start hverify) hfails) hkey) hlist) hfree, hsub⟩

theorem visit_allowed {allowed : Env (Option CStr) Unit → Prop} (h : allowed validEar.env)
    (ear : Ref (EarT Unit)) (key : Ref Block) :
    ∀ e ∈ visit ear key, ∀ env earJwt pkey alg pear errMsg,
      e.1 = .verify env earJwt pkey alg pear errMsg → allowed env := by
  intro e he env earJwt pkey alg pear errMsg hc
  simp only [visit, List.mem_cons, List.not_mem_nil, or_false] at he
  rcases he with rfl | rfl | rfl | rfl | rfl
  · cases hc
    exact h
  · cases hc
  · cases hc
  · cases hc
  · cases hc

end Visit

/-- Whatever legal calls have been made, the live objects are those of the EARs
and buffers the caller holds; every further legal call that does not fault
releases live objects only, and one that fails leaves them as they were. -/
theorem reachable_live (h : Reachable (fun _ : Env Alg Jwt => True) w) :
    w.ledger.live = owns w ∧
    (∀ ear ∈ w.ears, ∃ jwt submods, ear.val.jwt = some jwt ∧ ear.val.submods = some submods ∧
      owned ear = {(Kind.jwt, jwt.id), (Kind.json, submods.id), (Kind.ear, ear.id)}) ∧
    ∀ c : Call Alg Jwt, Legal w c → ¬ Faults c → ∃ ret w', exec c w = some (ret, w') ∧
      w'.ledger.live = owns w' ∧ (ret = -1 → w'.ledger.live = w.ledger.live) := by
  refine ⟨h.balanced.live, ?_, ?_⟩
  · intro ear hear
    obtain ⟨jwt, hjwt⟩ := Option.isSome_iff_exists.mp (h.balanced.complete ear hear).jwt
    obtain ⟨submods, hsubmods⟩ := Option.isSome_iff_exists.mp (h.balanced.complete ear hear).submods
    refine ⟨jwt, submods, hjwt, hsubmods, ?_⟩
    rw [owned, hjwt, hsubmods]
    rfl
  · intro c hc hruns
    obtain ⟨ret, w', hexec, hbalanced, hfail⟩ := legal_keeps h.balanced hc hruns
    exact ⟨ret, w', hexec, hbalanced.live, hfail⟩

theorem reachable_live_sample :
    ∃ ear key list L, Trace start Executes (visit ear key) ⟨L, {ear}, 0, {list}⟩ ∧
      L.live = owned ear + {(Kind.nameList, list.id)} ∧
      ∃ ret w', exec (.freeEar (some ear) : Call (Option CStr) Unit) ⟨L, {ear}, 0, {list}⟩ = some (ret, w') := by
  obtain ⟨ear, key, list, L, htrace, -⟩ := visit_runs
  have hreachable : Reachable (fun _ => True) ⟨L, {ear}, 0, {list}⟩ :=
    reachable_of_trace htrace (visit_allowed trivial ear key)
  obtain ⟨hlive, -, hcalls⟩ := reachable_live hreachable
  have hlegal : Legal ⟨L, {ear}, 0, {list}⟩ (.freeEar (some ear) : Call (Option CStr) Unit) := by
    rintro e ⟨⟩
    exact Multiset.mem_singleton_self ear
  obtain ⟨ret, w', hexec, -⟩ := hcalls _ hlegal not_false
  refine ⟨ear, key, list, L, htrace, ?_, ret, w', hexec⟩
  rw [hlive, owns]
  simp

/-- An EAR whose submods are an object or an array, and those of its token. -/
def Claimed (obs : Observations Alg Jwt) (ear : Ref (EarT Jwt)) : Prop :=
  ∃ jwt v submods, ear.val.jwt.map Ref.val = some jwt ∧ ear.val.submods.map Ref.val = some v ∧
    v.isContainer = true ∧ obs.claim jwt (lit "submods") = some submods ∧ JsonEqual v submods

theorem earJwtVerify_claimed {obs : Observations Alg Jwt} {env : Env Alg Jwt} (hdoc : Documented obs env)
    {earJwt : CStr} {pkey : Key} {alg : CStr} {pear : Option (Ref (EarT Jwt))} {errMsg : Option Buffer}
    {L L' : Ledger Kind} {r : VerifyResult Jwt}
    (hrun : earJwtVerify env earJwt pkey alg pear errMsg L = some (r, L')) (hret : r.ret = 0) :
    ∃ ear, r.pear = some ear ∧ Claimed obs ear := by
  obtain ⟨own, -, hr⟩ := (earJwtVerify_runs env earJwt pkey alg pear errMsg).result hrun
  obtain ⟨ear, j, s, jwt, v, h, hv, hpear⟩ := hr.success hret
  obtain ⟨submods, text, hacc, -, -, hloads, hequal, -⟩ := accepted_of_ok hdoc h hv
  exact ⟨_, hpear, jwt, v, submods, rfl, rfl, hdoc.loadsTop _ _ hloads, hacc.claimed, hequal⟩

/-- The caller gains an EAR from a successful verification only. -/
theorem exec_ears {c : Call Alg Jwt} {ret : Int} {w' : World Jwt} (h : exec c w = some (ret, w'))
    {ear : Ref (EarT Jwt)} (hear : ear ∈ w'.ears) :
    ear ∈ w.ears ∨ ∃ env earJwt pkey alg pear errMsg r L, c = .verify env earJwt pkey alg pear errMsg ∧
      earJwtVerify env earJwt pkey alg pear errMsg w.ledger = some (r, L) ∧ r.ret = 0 ∧
      r.pear = some ear := by
  cases c with
  | verify env earJwt pkey alg pear errMsg =>
      obtain ⟨⟨r, L⟩, hrun, hw⟩ := Option.bind_eq_some_iff.mp h
      cases hw
      rcases Multiset.mem_add.mp hear with hnew | hold
      · refine Or.inr ⟨env, earJwt, pkey, alg, pear, errMsg, r, L, rfl, hrun, ?_⟩
        by_cases hret : r.ret = 0
        · rw [received, if_pos hret] at hnew
          cases hpear : r.pear with
          | none => simp [hpear] at hnew
          | some e =>
              rw [hpear, Option.elim_some, Multiset.mem_singleton] at hnew
              exact ⟨hret, by rw [hnew]⟩
        · rw [received, if_neg hret] at hnew
          simp at hnew
      · exact Or.inl hold
  | freeEar freed =>
      obtain ⟨⟨_, L⟩, -, hw⟩ := Option.bind_eq_some_iff.mp h
      cases hw
      exact Or.inl (Multiset.mem_of_le (Multiset.sub_le_self _ _) hear)
  | getAppRecs | getStatus | getAkpub | freeKey | freeList =>
      obtain ⟨⟨_, L⟩, -, hw⟩ := Option.bind_eq_some_iff.mp h
      cases hw
      exact Or.inl hear

theorem Reachable.claimed {obs : Observations Alg Jwt} (h : Reachable (Documented obs) w) :
    ∀ ear ∈ w.ears, Claimed obs ear := by
  induction h with
  | start => exact fun ear hear => absurd hear (Multiset.notMem_zero ear)
  | call h hlegal hallowed hexec ih =>
      intro ear hear
      rcases exec_ears hexec hear with hold | ⟨env, earJwt, pkey, alg, pear, errMsg, r, L, hc, hrun, hret, hpear⟩
      · exact ih ear hold
      · obtain ⟨e, he, hclaimed⟩ := earJwtVerify_claimed (hallowed _ _ _ _ _ _ hc) hrun hret
        obtain rfl := Option.some.inj (hpear.symm.trans he)
        exact hclaimed

/-- Only a token whose submods are an object or an array is verified, and every
EAR in the hands of the caller caches the submods of its token. -/
theorem reachable_submods {obs : Observations Alg Jwt} (h : Reachable (Documented obs) w) :
    (∀ env earJwt pkey alg pear errMsg r L, Documented obs env →
      earJwtVerify env earJwt pkey alg pear errMsg w.ledger = some (r, L) → r.ret = 0 →
        ∃ ear jwt submods, r.pear = some ear ∧ ear.val.jwt.map Ref.val = some jwt ∧
          obs.claim jwt (lit "submods") = some submods ∧ submods.isContainer = true) ∧
    ∀ ear ∈ w.ears, Claimed obs ear := by
  refine ⟨?_, h.claimed⟩
  intro env earJwt pkey alg pear errMsg r L hdoc hrun hret
  obtain ⟨ear, hear, jwt, v, submods, hjwt, -, hcontainer, hclaim, hequal⟩ :=
    earJwtVerify_claimed hdoc hrun hret
  exact ⟨ear, jwt, submods, hear, hjwt, hclaim, by rw [← hequal.isContainer_eq, hcontainer]⟩

theorem reachable_submods_sample :
    ∃ ear key list L, Trace start Executes (visit ear key) ⟨L, {ear}, 0, {list}⟩ ∧
      Claimed validEar.observations ear := by
  obtain ⟨ear, key, list, L, htrace, hsub⟩ := visit_runs
  have hreachable : Reachable (Documented validEar.observations) ⟨L, {ear}, 0, {list}⟩ :=
    reachable_of_trace htrace (visit_allowed validEar.documented ear key)
  exact ⟨ear, key, list, L, htrace, (reachable_submods hreachable).2 ear (Multiset.mem_singleton_self ear)⟩

/-- A token with an empty array for submods is verified. -/
theorem array_verified :
    ∃ (w : World Unit) (ear : Ref (EarT Unit)) (v : Json),
      Reachable (Documented arrayEar.observations) w ∧ ear ∈ w.ears ∧
      ear.val.submods.map Ref.val = some v ∧ v.isObject = false := by
  obtain ⟨L, ear, hrun, hsub⟩ := arrayEar.runs
  have hverify := verification_executes hrun
  have hreachable : Reachable (Documented arrayEar.observations) ⟨L, {ear}, 0, 0⟩ := by
    refine reachable_of_trace (.next .start hverify) ?_
    intro e he env earJwt pkey alg pear errMsg hc
    rw [List.nil_append, List.mem_singleton] at he
    rw [he] at hc
    cases hc
    exact arrayEar.documented
  exact ⟨_, ear, _, hreachable, Multiset.mem_singleton_self ear, hsub, rfl⟩

end CEar.Session
