import CEar.AnyLength
import CEar.Session

namespace CEar.ClaimsStore

open Accessors AnyLength B64urlDecode Base64Decode Contract CString Ear Gates JsonValue Ownership RecordList
  Report Session Simulation Tokens Utils Verify
open Base64Url (decode)

variable {Alg Jwt : Type} [DecidableEq Alg]

/-- What the library is for: it keeps the signed submods of verified tokens, each
under the handle that its caller has been given. -/
abbrev Store := Nat → Option Json

def noClaims : Store := fun _ => none

/-- What a caller sees of a call: what it is given, or the text in its buffer. The
slots of a list are those behind the pointer, which can be NULL. -/
inductive Answer
  | handle (id : Nat)
  | names (count : Nat) (slots : Option (List (Option CStr)))
  | tier (t : EarTier)
  | key (k : List UInt8)
  | failed (text : Option CStr)
  | done

def message (errMsg : Option Buffer) : Option CStr :=
  errMsg.bind (fun b => readStr (b.window earErrSz))

/-- What a call answers in a world, none when it faults. -/
noncomputable def answer (c : Call Alg Jwt) (w : World Jwt) : Option Answer :=
  match c with
  | .verify env earJwt pkey alg pear errMsg => do
      let (r, _) ← earJwtVerify env earJwt pkey alg pear errMsg w.ledger
      if r.ret = 0 then return .handle (← r.pear).id else return .failed (message r.errMsg)
  | .getAppRecs calloc ear pappRec pappRecSz => do
      let (r, _) ← earGetAppRecs calloc ear.val pappRec pappRecSz w.ledger
      if r.ret = 0 then return .names r.pappRecSz (r.pappRec.map Ref.val) else return .failed none
  | .getStatus libc ear appRec ptier errMsg => do
      let (r, _) ← earGetStatus libc ear.val appRec ptier errMsg w.ledger
      if r.ret = 0 then return .tier (← r.ptier) else return .failed (message r.errMsg)
  | .getAkpub libc calloc ear appRec pakpub pakpubSz errMsg => do
      let (r, _) ← earVeraisonGetAkpub libc calloc ear.val appRec pakpub pakpubSz errMsg w.ledger
      if r.ret = 0 then return .key (← (← r.pakpub).val.read r.pakpubSz)
        else return .failed (message r.errMsg)
  | .freeEar _ | .freeKey _ | .freeList _ => some .done

/-- The text of a refusal: a refusal of the claims goes unexplained. -/
def refusal (env : Env Alg Jwt) (earJwt : CStr) (pkey : Key) (alg : CStr) : Option CStr :=
  match authenticate env earJwt pkey alg with
  | .error f => some (composed env.libc f)
  | .ok jwt =>
      match inspect env jwt with
      | .error _ => some (lit "")
      | .ok _ => none

def explain (errMsg : Option Buffer) (text : CStr) : Answer := .failed (errMsg.map (fun _ => text))

/-- The key in a record, as far as `int` counts its characters. -/
def keyOf (calloc : Bool) (submods : Option Json) (appRec : CStr) : Except Failure (List UInt8) := do
  let text ← akpubOf submods appRec
  require (calloc = true ∧ Accepts (alphabetPrefix text).length) .badAkpub
  return decode ((alphabetPrefix text).take (counted (alphabetPrefix text).length))

def answered {α : Type} (libc : Libc) (errMsg : Option Buffer) (f : α → Answer) : Except Failure α → Answer
  | .ok a => f a
  | .error e => explain errMsg (composed libc e)

/-- A list with a slot for each name; no list when there is no memory for one. -/
def listed (calloc : Bool) (names : List CStr) : Answer :=
  .names names.length (if calloc then some (names.map some) else none)

/-- The calls of the library as operations on the store. -/
inductive Step (obs : Observations Alg Jwt) : Store → Call Alg Jwt × Answer → Store → Prop
  | verified {s env earJwt pkey alg pear errMsg jwt v id} (hfresh : s id = none)
      (hacceptable : Acceptable obs env earJwt pkey alg jwt v)
      (hsigned : obs.verifies earJwt pkey (env.jwtStrAlg alg)) :
      Step obs s (.verify env earJwt pkey alg pear errMsg, .handle id) (Function.update s id (some v))
  | refused {s env earJwt pkey alg pear errMsg text} (h : refusal env earJwt pkey alg = some text) :
      Step obs s (.verify env earJwt pkey alg pear errMsg, explain errMsg text) s
  | getAppRecs {s calloc ear pappRec pappRecSz v names} (h : s ear.id = some v)
      (hnames : names.Perm (jsonObjectKeys (some v))) (hgranted : calloc = true ∨ names = []) :
      Step obs s (.getAppRecs calloc ear pappRec pappRecSz, listed calloc names) s
  | getStatus {s libc ear appRec ptier errMsg v} (h : s ear.id = some v) :
      Step obs s (.getStatus libc ear appRec ptier errMsg,
        answered libc errMsg .tier (statusOf (some v) appRec)) s
  | getAkpub {s libc calloc ear appRec pakpub pakpubSz errMsg v} (h : s ear.id = some v)
      (hfits : ¬ Overruns calloc (some v) appRec) :
      Step obs s (.getAkpub libc calloc ear appRec pakpub pakpubSz errMsg,
        answered libc errMsg .key (keyOf calloc (some v) appRec)) s
  | freeEar {s ear} : Step obs s (.freeEar (some ear), .done) (Function.update s ear.id none)
  | freeNull {s} : Step obs s (.freeEar none, .done) s
  | freeKey {s key} : Step obs s (.freeKey key, .done) s
  | freeList {s list} : Step obs s (.freeList list, .done) s

theorem keyOf_congr {v w : Option Json} (h : Option.Rel JsonEqual v w) (calloc : Bool) (appRec : CStr) :
    keyOf calloc v appRec = keyOf calloc w appRec := by
  rw [keyOf, keyOf, akpubOf_congr h appRec]

section Messages

variable (libc : Libc) (f : Failure) (errMsg : Option Buffer)

theorem message_reported : message (reported libc f errMsg) = errMsg.map (fun _ => composed libc f) := by
  cases errMsg with
  | none => rfl
  | some b =>
      have hfits : (composed libc f).length < earErrSz := Nat.lt_succ_of_le (composed_le libc f)
      exact (Buffer.holds_write b (composed libc f)).readStr_window hfits

theorem message_erased : message (erased errMsg) = errMsg.map (fun _ => lit "") := by
  cases errMsg with
  | none => rfl
  | some b =>
      have hfits : (lit "").length < earErrSz := by decide
      exact (Buffer.holds_write b (lit "")).readStr_window hfits

theorem reported_map : (reported libc f errMsg).map (fun _ => lit "") = errMsg.map (fun _ => lit "") := by
  cases errMsg <;> rfl

end Messages

section Answers

variable {w : World Jwt} {ear : Ref (EarT Jwt)}

theorem answer_getAppRecs (h : Complete ear.val) {calloc : Bool}
    (hgranted : ¬ (calloc = false ∧ records ear.val ≠ [])) (pappRec : Option (Ref (List (Option CStr))))
    (pappRecSz : Nat) : answer (.getAppRecs calloc ear pappRec pappRecSz : Call Alg Jwt) w =
      some (listed calloc (records ear.val)) := by
  obtain ⟨list, L, hrun, -, hslots⟩ := earGetAppRecs_listed h hgranted pappRec pappRecSz w.ledger
  simp only [answer, hrun, listed, ← hslots]
  rfl

theorem answer_getStatus (h : Complete ear.val) (libc : Libc) (appRec : CStr) (ptier : Option EarTier)
    (errMsg : Option Buffer) : answer (.getStatus libc ear appRec ptier errMsg : Call Alg Jwt) w =
      some (answered libc errMsg .tier (statusOf (ear.val.submods.map Ref.val) appRec)) := by
  simp only [answer, earGetStatus_eq h]
  cases statusOf (ear.val.submods.map Ref.val) appRec with
  | error f => exact congrArg (fun text => some (Answer.failed text)) (message_reported libc f errMsg)
  | ok t => rfl

theorem answer_getAkpub (h : Complete ear.val) {calloc : Bool} {appRec : CStr}
    (hfits : ¬ Overruns calloc (ear.val.submods.map Ref.val) appRec) (libc : Libc)
    (pakpub : Option (Ref Block)) (pakpubSz : Nat) (errMsg : Option Buffer) :
    answer (.getAkpub libc calloc ear appRec pakpub pakpubSz errMsg : Call Alg Jwt) w =
      some (answered libc errMsg .key (keyOf calloc (ear.val.submods.map Ref.val) appRec)) := by
  simp only [answer, earVeraisonGetAkpub_eq h, keyOf]
  cases hakpub : akpubOf (ear.val.submods.map Ref.val) appRec with
  | error f => exact congrArg (fun text => some (Answer.failed text)) (message_reported libc f errMsg)
  | ok text =>
      have htext : ¬ Overflows calloc text := fun hover => hfits ⟨text, hakpub, hover⟩
      obtain ⟨d, L, own, hrun, -, hd⟩ := (uB64urlDecode_counted htext pakpub pakpubSz).run w.ledger
      simp only [ok_bind, require, Exec.bind_apply, hrun]
      rcases hd with ⟨hrefused, rfl, -⟩ | ⟨haccepted, out, -, rfl, hread⟩
      · rw [if_neg hrefused]
        exact congrArg (fun text => some (Answer.failed text)) (message_reported libc .badAkpub errMsg)
      · rw [if_pos haccepted]
        exact congrArg (fun k => k.bind (fun k => some (Answer.key k))) hread

end Answers

/-- The store has what the caller holds: the claims of each EAR up to the order
in which they are read, and nothing under any other handle. -/
structure Tracks (w : World Jwt) (s : Store) : Prop where
  held : ∀ ear ∈ w.ears, ∃ c v, ear.val.submods.map Ref.val = some c ∧ s ear.id = some v ∧ JsonEqual c v
  only : ∀ id v, s id = some v → ∃ ear ∈ w.ears, ear.id = id

theorem tracks_start : Tracks (start : World Jwt) noClaims where
  held ear hear := absurd hear (Multiset.notMem_zero ear)
  only id v h := by cases h

variable {w w' : World Jwt} {s : Store}

theorem ear_mem_owned (ear : Ref (EarT Jwt)) : (Kind.ear, ear.id) ∈ owned ear := by
  simp [owned]

theorem handles_nodup (h : Balanced w) : (w.ears.map Ref.id).Nodup := by
  have howns : (w.ears.bind owned).Nodup := by
    have hlive := w.ledger.nodup
    rw [h.live, owns] at hlive
    exact Multiset.nodup_of_le (Multiset.le_add_right _ _) hlive
  obtain ⟨-, ears, hears, hdisjoint⟩ := Multiset.nodup_bind.mp howns
  rw [hears, Multiset.map_coe, Multiset.coe_nodup, List.nodup_iff_pairwise_ne, List.pairwise_map]
  apply hdisjoint.imp
  intro a b hab hid
  have hmem := ear_mem_owned b
  rw [← hid] at hmem
  exact Multiset.disjoint_left.mp hab (ear_mem_owned a) hmem

theorem Tracks.of_ears (h : Tracks w s) (hears : w'.ears = w.ears) : Tracks w' s := by
  constructor
  · rw [hears]
    exact h.held
  · rw [hears]
    exact h.only

/-- The EAR that a verification hands over goes under a handle of its own. -/
theorem Tracks.insert {ear : Ref (EarT Jwt)} {c v : Json} (h : Tracks w s)
    (hears : w'.ears = {ear} + w.ears) (hnodup : (w'.ears.map Ref.id).Nodup)
    (hsub : ear.val.submods.map Ref.val = some c) (hequal : JsonEqual c v) :
    s ear.id = none ∧ Tracks w' (Function.update s ear.id (some v)) := by
  rw [hears, Multiset.singleton_add, Multiset.map_cons, Multiset.nodup_cons] at hnodup
  have hother : ∀ e ∈ w.ears, e.id ≠ ear.id := by
    intro e he hid
    exact hnodup.1 (hid ▸ Multiset.mem_map_of_mem Ref.id he)
  refine ⟨?_, ⟨?_, ?_⟩⟩
  · by_contra hsome
    obtain ⟨u, hu⟩ := Option.ne_none_iff_exists'.mp hsome
    obtain ⟨e, he, hid⟩ := h.only _ u hu
    exact hother e he hid
  · intro e he
    rw [hears, Multiset.singleton_add, Multiset.mem_cons] at he
    rcases he with rfl | he
    · exact ⟨c, v, hsub, Function.update_self _ _ _, hequal⟩
    · rw [Function.update_of_ne (hother e he)]
      exact h.held e he
  · intro id u hu
    rw [hears, Multiset.singleton_add]
    by_cases hid : id = ear.id
    · exact ⟨ear, Multiset.mem_cons_self _ _, hid.symm⟩
    · rw [Function.update_of_ne hid] at hu
      obtain ⟨e, he, hid⟩ := h.only id u hu
      exact ⟨e, Multiset.mem_cons_of_mem he, hid⟩

theorem Tracks.erase {ear : Ref (EarT Jwt)} (h : Tracks w s) (hears : w.ears = {ear} + w'.ears)
    (hnodup : (w.ears.map Ref.id).Nodup) : Tracks w' (Function.update s ear.id none) := by
  rw [hears, Multiset.singleton_add, Multiset.map_cons, Multiset.nodup_cons] at hnodup
  constructor
  · intro e he
    have hother : e.id ≠ ear.id := fun hid => hnodup.1 (hid ▸ Multiset.mem_map_of_mem Ref.id he)
    rw [Function.update_of_ne hother]
    apply h.held e
    rw [hears, Multiset.singleton_add]
    exact Multiset.mem_cons_of_mem he
  · intro id u hu
    by_cases hid : id = ear.id
    · rw [hid, Function.update_self] at hu
      cases hu
    · rw [Function.update_of_ne hid] at hu
      obtain ⟨e, he, hid'⟩ := h.only id u hu
      rw [hears, Multiset.singleton_add, Multiset.mem_cons] at he
      rcases he with rfl | he
      · exact absurd hid'.symm hid
      · exact ⟨e, he, hid'⟩

def Simulates (obs : Observations Alg Jwt) (s : Store) (c : Call Alg Jwt) (a : Answer)
    (w' : World Jwt) : Prop :=
  ∃ s', Step obs s (c, a) s' ∧ Tracks w' s'

variable {obs : Observations Alg Jwt} {a : Answer} {ret : Int}

theorem verify_simulates (h : Tracks w s) (hw' : Balanced w') {env : Env Alg Jwt}
    (hdoc : Documented obs env) {earJwt : CStr} {pkey : Key} {alg : CStr} {pear : Option (Ref (EarT Jwt))}
    {errMsg : Option Buffer}
    (hexec : exec (.verify env earJwt pkey alg pear errMsg) w = some (ret, w'))
    (hanswer : answer (.verify env earJwt pkey alg pear errMsg) w = some a) :
    Simulates obs s (.verify env earJwt pkey alg pear errMsg) a w' := by
  obtain ⟨⟨r, L⟩, hrun, hw⟩ := Option.bind_eq_some_iff.mp hexec
  cases hw
  obtain ⟨own, -, hr⟩ := (earJwtVerify_runs env earJwt pkey alg pear errMsg).result hrun
  simp only [answer, hrun] at hanswer
  cases hr with
  | unauthentic f hauth =>
      have hrefusal : refusal env earJwt pkey alg = some (composed env.libc f) := by rw [refusal, hauth]
      obtain rfl : Answer.failed (message (reported env.libc f errMsg)) = a := Option.some.inj hanswer
      rw [message_reported]
      exact ⟨s, .refused hrefusal, h.of_ears (zero_add _)⟩
  | refused jwt f hauth hf =>
      have hrefusal : refusal env earJwt pkey alg = some (lit "") := by simp only [refusal, hauth, hf]
      obtain rfl : Answer.failed (message (erased (reported env.libc f errMsg))) = a := Option.some.inj hanswer
      rw [message_erased, reported_map]
      exact ⟨s, .refused hrefusal, h.of_ears (zero_add _)⟩
  | verified ear j i jwt v hauth hv =>
      obtain rfl : Answer.handle ear = a := Option.some.inj hanswer
      obtain ⟨submods, text, hacceptable, -, -, -, hequal, hsigned⟩ := accepted_of_ok hdoc hauth hv
      obtain ⟨hfresh, htracks⟩ := h.insert rfl (handles_nodup hw') rfl hequal
      exact ⟨_, .verified hfresh hacceptable hsigned, htracks⟩

/-- A call that hands over no EAR and frees none leaves the store as it is. -/
theorem exec_ears_eq {c : Call Alg Jwt} (hexec : exec c w = some (ret, w'))
    (hverify : ∀ env earJwt pkey alg pear errMsg, c ≠ .verify env earJwt pkey alg pear errMsg)
    (hfree : ∀ ear, c ≠ .freeEar ear) : w'.ears = w.ears := by
  cases c with
  | verify env earJwt pkey alg pear errMsg => exact absurd rfl (hverify env earJwt pkey alg pear errMsg)
  | freeEar ear => exact absurd rfl (hfree ear)
  | getAppRecs | getStatus | getAkpub | freeKey | freeList =>
      obtain ⟨⟨_, L⟩, -, hw⟩ := Option.bind_eq_some_iff.mp hexec
      cases hw
      rfl

theorem getAppRecs_simulates (h : Tracks w s) (hw : Balanced w) {calloc : Bool} {ear : Ref (EarT Jwt)}
    (hear : ear ∈ w.ears) (hgranted : ¬ (calloc = false ∧ records ear.val ≠ []))
    {pappRec : Option (Ref (List (Option CStr)))} {pappRecSz : Nat}
    (hanswer : answer (.getAppRecs calloc ear pappRec pappRecSz : Call Alg Jwt) w = some a) :
    Step obs s (.getAppRecs calloc ear pappRec pappRecSz, a) s := by
  obtain ⟨c, v, hsub, hv, hequal⟩ := h.held ear hear
  rw [answer_getAppRecs (hw.complete ear hear) hgranted] at hanswer
  obtain rfl := Option.some.inj hanswer
  refine .getAppRecs hv ?_ ?_
  · rw [records, hsub]
    exact jsonObjectKeys_perm (.some hequal)
  · cases calloc with
    | false => exact Or.inr (by simpa using hgranted)
    | true => exact Or.inl rfl

theorem getStatus_simulates (h : Tracks w s) (hw : Balanced w) {ear : Ref (EarT Jwt)} (hear : ear ∈ w.ears)
    {libc : Libc} {appRec : CStr} {ptier : Option EarTier} {errMsg : Option Buffer}
    (hanswer : answer (.getStatus libc ear appRec ptier errMsg : Call Alg Jwt) w = some a) :
    Step obs s (.getStatus libc ear appRec ptier errMsg, a) s := by
  obtain ⟨c, v, hsub, hv, hequal⟩ := h.held ear hear
  rw [answer_getStatus (hw.complete ear hear), hsub, statusOf_congr (.some hequal)] at hanswer
  obtain rfl := Option.some.inj hanswer
  exact .getStatus hv

theorem getAkpub_simulates (h : Tracks w s) (hw : Balanced w) {libc : Libc} {calloc : Bool}
    {ear : Ref (EarT Jwt)} (hear : ear ∈ w.ears) {appRec : CStr}
    (hfits : ¬ Overruns calloc (ear.val.submods.map Ref.val) appRec) {pakpub : Option (Ref Block)}
    {pakpubSz : Nat} {errMsg : Option Buffer}
    (hanswer : answer (.getAkpub libc calloc ear appRec pakpub pakpubSz errMsg : Call Alg Jwt) w = some a) :
    Step obs s (.getAkpub libc calloc ear appRec pakpub pakpubSz errMsg, a) s := by
  obtain ⟨c, v, hsub, hv, hequal⟩ := h.held ear hear
  rw [answer_getAkpub (hw.complete ear hear) hfits, hsub, keyOf_congr (.some hequal)] at hanswer
  obtain rfl := Option.some.inj hanswer
  rw [hsub, overruns_congr (.some hequal)] at hfits
  exact .getAkpub hv hfits

theorem free_simulates (h : Tracks w s) (hw : Balanced w) {ear : Option (Ref (EarT Jwt))}
    (hear : ∀ e ∈ ear, e ∈ w.ears) (hexec : exec (.freeEar ear : Call Alg Jwt) w = some (ret, w')) :
    Simulates obs s (.freeEar ear) .done w' := by
  obtain ⟨⟨_, L⟩, hrun, hw'⟩ := Option.bind_eq_some_iff.mp hexec
  cases hw'
  cases ear with
  | none =>
      apply Exists.intro s
      exact ⟨.freeNull, h.of_ears (by simp)⟩
  | some ear =>
      obtain ⟨ears, hears⟩ := Multiset.exists_cons_of_mem (hear ear rfl)
      refine ⟨_, .freeEar, h.erase ?_ (handles_nodup hw)⟩
      simp [hears]

theorem call_simulates (h : Tracks w s) (hw : Balanced w) {c : Call Alg Jwt} (hlegal : Legal w c)
    (hdoc : ∀ env earJwt pkey alg pear errMsg,
      c = .verify env earJwt pkey alg pear errMsg → Documented obs env)
    (hexec : exec c w = some (ret, w')) (hanswer : answer c w = some a) : Simulates obs s c a w' := by
  have hruns := not_faults_of_exec hw hlegal hexec
  cases c with
  | verify env earJwt pkey alg pear errMsg =>
      exact verify_simulates h (exec_keeps hw hlegal hexec).1 (hdoc _ _ _ _ _ _ rfl) hexec hanswer
  | getAppRecs calloc ear pappRec pappRecSz =>
      exact ⟨s, getAppRecs_simulates h hw hlegal hruns hanswer, h.of_ears (exec_ears_eq hexec nofun nofun)⟩
  | getStatus libc ear appRec ptier errMsg =>
      exact ⟨s, getStatus_simulates h hw hlegal hanswer, h.of_ears (exec_ears_eq hexec nofun nofun)⟩
  | getAkpub libc calloc ear appRec pakpub pakpubSz errMsg =>
      exact ⟨s, getAkpub_simulates h hw hlegal hruns hanswer, h.of_ears (exec_ears_eq hexec nofun nofun)⟩
  | freeEar ear =>
      cases hanswer
      exact free_simulates h hw hlegal hexec
  | freeKey key =>
      cases hanswer
      exact ⟨s, .freeKey, h.of_ears (exec_ears_eq hexec nofun nofun)⟩
  | freeList list =>
      cases hanswer
      exact ⟨s, .freeList, h.of_ears (exec_ears_eq hexec nofun nofun)⟩

theorem legal_answers (hw : Balanced w) {c : Call Alg Jwt} (hlegal : Legal w c) (hruns : ¬ Faults c) :
    ∃ a, answer c w = some a := by
  cases c with
  | verify env earJwt pkey alg pear errMsg =>
      obtain ⟨r, L, own, hrun, -, hr⟩ := (earJwtVerify_runs env earJwt pkey alg pear errMsg).run w.ledger
      simp only [answer, hrun]
      cases hr with
      | unauthentic | refused => exact ⟨_, rfl⟩
      | verified => exact ⟨_, rfl⟩
  | getAppRecs calloc ear pappRec pappRecSz =>
      exact ⟨_, answer_getAppRecs (hw.complete ear hlegal) hruns pappRec pappRecSz⟩
  | getStatus libc ear appRec ptier errMsg =>
      exact ⟨_, answer_getStatus (hw.complete ear hlegal) libc appRec ptier errMsg⟩
  | getAkpub libc calloc ear appRec pakpub pakpubSz errMsg =>
      exact ⟨_, answer_getAkpub (hw.complete ear hlegal) hruns libc pakpub pakpubSz errMsg⟩
  | freeEar | freeKey | freeList => exact ⟨_, rfl⟩

/-- A legal call in a session, with callees that are allowed, and its answer. -/
structure Plays (allowed : Env Alg Jwt → Prop) (w : World Jwt) (e : Call Alg Jwt × Answer)
    (w' : World Jwt) : Prop where
  legal : Legal w e.1
  allowed : ∀ env earJwt pkey alg pear errMsg, e.1 = .verify env earJwt pkey alg pear errMsg → allowed env
  answered : answer e.1 w = some e.2
  executed : ∃ ret, exec e.1 w = some (ret, w')

theorem Plays.balanced {allowed : Env Alg Jwt → Prop} {e : Call Alg Jwt × Answer}
    (h : Plays allowed w e w') (hw : Balanced w) : Balanced w' := by
  obtain ⟨ret, hexec⟩ := h.executed
  exact (exec_keeps hw h.legal hexec).1

theorem balanced_of_trace {allowed : Env Alg Jwt → Prop} {es : List (Call Alg Jwt × Answer)}
    (h : Trace start (Plays allowed) es w) : Balanced w :=
  h.invariant balanced_start fun _ _ _ hw hplays => hplays.balanced hw

theorem plays_simulates {e : Call Alg Jwt × Answer} (h : Balanced w ∧ Tracks w s)
    (hplays : Plays (Documented obs) w e w') :
    ∃ s', Step obs s e s' ∧ Balanced w' ∧ Tracks w' s' := by
  obtain ⟨c, a⟩ := e
  obtain ⟨ret, hexec⟩ := hplays.executed
  obtain ⟨s', hstep, htracks⟩ :=
    call_simulates h.2 h.1 hplays.legal hplays.allowed hexec hplays.answered
  exact ⟨s', hstep, hplays.balanced h.1, htracks⟩

theorem session_simulated {es : List (Call Alg Jwt × Answer)}
    (h : Trace start (Plays (Documented obs)) es w) :
    ∃ s, Trace noClaims (Step obs) es s ∧ Balanced w ∧ Tracks w s := by
  have hstep : ∀ (w : World Jwt) (s : Store) (e : Call Alg Jwt × Answer) (w' : World Jwt),
      Balanced w ∧ Tracks w s → Plays (Documented obs) w e w' →
        ∃ s', Step obs s e s' ∧ Balanced w' ∧ Tracks w' s' :=
    fun _ _ _ _ hR hplays => plays_simulates hR hplays
  exact Trace.simulated ⟨balanced_start, tracks_start⟩ hstep h

/-- Whatever calls a session makes, in whatever order, it is answered as by a
store of the claims that were signed; and no legal call that does not fault goes
unanswered. -/
theorem session_refines {es : List (Call Alg Jwt × Answer)}
    (h : Trace start (Plays (Documented obs)) es w) :
    (∃ s, Trace noClaims (Step obs) es s ∧ Tracks w s) ∧
      ∀ c : Call Alg Jwt, Legal w c → ¬ Faults c → (∀ env earJwt pkey alg pear errMsg,
        c = .verify env earJwt pkey alg pear errMsg → Documented obs env) →
          ∃ a w', Plays (Documented obs) w (c, a) w' := by
  obtain ⟨s, htrace, hbalanced, htracks⟩ := session_simulated h
  refine ⟨⟨s, htrace, htracks⟩, ?_⟩
  intro c hlegal hruns hdoc
  obtain ⟨a, ha⟩ := legal_answers hbalanced hlegal hruns
  obtain ⟨ret, w', hexec, -⟩ := legal_keeps hbalanced hlegal hruns
  exact ⟨a, w', hlegal, hdoc, ha, ret, hexec⟩

theorem trace_verification (t : EarToken) :
    ∃ L ear, Trace start (Plays (Documented t.observations)) [(verification t, .handle ear.id)]
        ⟨L, {ear}, 0, 0⟩ ∧
      ear.val.submods.map Ref.val = some t.submods := by
  obtain ⟨L, ear, hrun, hsub⟩ := t.runs
  have hexecutes := verification_executes hrun
  have hplays : Plays (Documented t.observations) start (verification t, .handle ear.id) ⟨L, {ear}, 0, 0⟩ := by
    refine ⟨hexecutes.legal, ?_, ?_, 0, hexecutes.executed⟩
    · intro env earJwt pkey alg pear errMsg hc
      cases hc
      exact t.documented
    · simp only [verification, answer, start, hrun]
      rfl
  exact ⟨L, ear, .next .start hplays, hsub⟩

theorem session_refines_sample :
    ∃ L ear s, Trace noClaims (Step realmEar.observations) [(verification realmEar, .handle ear.id)] s ∧
      ∃ a w', Plays (Documented realmEar.observations) ⟨L, {ear}, 0, 0⟩ (.getAppRecs true ear none 0, a) w' := by
  obtain ⟨L, ear, htrace, -⟩ := trace_verification realmEar
  obtain ⟨⟨s, hs, -⟩, hanswers⟩ := session_refines htrace
  have hlegal : Legal ⟨L, {ear}, 0, 0⟩ (.getAppRecs true ear none 0 : Call (Option CStr) Unit) :=
    Multiset.mem_singleton_self ear
  have hruns : ¬ Faults (.getAppRecs true ear none 0 : Call (Option CStr) Unit) := by simp [Faults]
  exact ⟨L, ear, s, hs, hanswers _ hlegal hruns nofun⟩

end CEar.ClaimsStore
