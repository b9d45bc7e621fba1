import CEar.Accessors
import CEar.VerifyToolOptions

namespace CEar.VerifyToolRuns

open Accessors CString Ear Gates JsonValue Ownership Process Report Utils Verify VerifyTool
open VerifyToolOptions

/-- The contents of a file that the tool can read: there is something in it,
and `size_t` counts it. -/
structure Content where
  bytes : List UInt8
  nonempty : 0 < bytes.length
  countable : bytes.length < 2 ^ 64

def Content.key (c : Content) : Key := ⟨c.bytes, c.nonempty⟩

def Content.text (c : Content) : CStr := upToNul c.bytes

def Content.size (c : Content) : UInt64 := UInt64.ofNat c.bytes.length

@[simp] theorem Content.size_toNat (c : Content) : c.size.toNat = c.bytes.length :=
  UInt64.toNat_ofNat_of_lt' c.countable

theorem take_toNat_length {data : List UInt8} {sz : UInt64} (h : sz.toNat ≤ data.length) :
    (data.take sz.toNat).length = sz.toNat := by
  rw [List.length_take]
  exact Nat.min_eq_left h

def item (data : List UInt8) (sz : UInt64) : Option Content :=
  if h : 0 < sz.toNat ∧ sz.toNat ≤ data.length then
    some ⟨data.take sz.toNat, by rw [take_toNat_length h.2]; exact h.1,
      by rw [take_toNat_length h.2]; exact sz.toNat_lt⟩
  else
    none

/-- What `read_from_file` finds under a name. -/
def contents (files : Files) (fn : CStr) : Option Content := do
  let fp ← files.fopen fn
  if fp.fseek = -1 ∨ files.malloc fp.ftell.toUInt64 = false then
    none
  else
    item fp.data fp.ftell.toUInt64

theorem fread_eq (fp : Stream) (sz : UInt64) :
    fread fp sz = (item fp.data sz).map Content.bytes := by
  have hpos : sz ≠ 0 ↔ 0 < sz.toNat := by
    rw [Nat.pos_iff_ne_zero, ne_eq, ne_eq, ← UInt64.toNat_inj]
    rfl
  rw [fread, item]
  by_cases h : 0 < sz.toNat ∧ sz.toNat ≤ fp.data.length
  · rw [if_pos ⟨hpos.mpr h.1, h.2⟩, dif_pos h]
    rfl
  · rw [if_neg fun hread => h ⟨hpos.mp hread.1, hread.2⟩, dif_neg h]
    rfl

theorem item_size {data : List UInt8} {sz : UInt64} {c : Content} (h : item data sz = some c) :
    c.size = sz := by
  by_cases hread : 0 < sz.toNat ∧ sz.toNat ≤ data.length
  · rw [item, dif_pos hread, Option.some.injEq] at h
    subst h
    rw [← UInt64.toNat_inj, Content.size_toNat, take_toNat_length hread.2]
  · rw [item, dif_neg hread] at h
    cases h

def heldStream (fp : Option (Ref Stream)) : Multiset (Obj Held) :=
  fp.elim 0 (fun fp => {(Held.stream, fp.id)})

def heldBytes (b : Option Bytes) : Multiset (Obj Held) :=
  b.elim 0 (fun b => {(Held.block, b.id)})

theorem fclose_runs (fp : Option (Ref Stream)) (rest : Multiset (Obj Held)) :
    Runs (heldStream fp + rest) (fclose fp) (fun _ own => own = rest) := by
  cases fp with
  | none => exact Runs.pure _ (zero_add rest)
  | some fp => exact Runs.release (Multiset.singleton_add _ _) rfl

theorem free_runs (b : Option Bytes) (rest : Multiset (Obj Held)) :
    Runs (heldBytes b + rest) (free b) (fun _ own => own = rest) := by
  cases b with
  | none => exact Runs.pure _ (zero_add rest)
  | some b => exact Runs.release (Multiset.singleton_add _ _) rfl

theorem readErr_runs {fp : Option (Ref Stream)} {b pb : Option Bytes} {pbSz : Option UInt64}
    {pre : Multiset (Obj Held)} (hpre : pre = heldStream fp + heldBytes b) :
    Runs pre (readErr fp b pb pbSz) (fun r own => r = ⟨-1, pb, pbSz⟩ ∧ own = 0) := by
  subst hpre
  have hfree := free_runs b 0
  rw [add_zero] at hfree
  apply Runs.bind (fclose_runs fp (heldBytes b))
  rintro - _ rfl
  apply Runs.bind hfree
  rintro - _ rfl
  exact Runs.pure _ ⟨rfl, rfl⟩

/-- `read_from_file` hands over the contents of the file and nothing else, or
assigns nothing and keeps nothing. -/
theorem readFromFile_runs (files : Files) (fn : CStr) (pb : Option Bytes) (pbSz : Option UInt64) :
    Runs 0 (readFromFile files fn pb pbSz) (fun r own =>
      match contents files fn with
      | none => r = ⟨-1, pb, pbSz⟩ ∧ own = 0
      | some c => ∃ id, r = ⟨0, some ⟨id, c.bytes⟩, some c.size⟩ ∧ own = {(Held.block, id)}) := by
  simp only [readFromFile, contents]
  cases files.fopen fn with
  | none => exact readErr_runs rfl
  | some stream =>
      refine Runs.bindAcquire _ fun fp => ?_
      by_cases hseek : stream.fseek = -1
      · simp only [Option.bind_eq_bind, Option.bind_some, hseek, true_or, if_true]
        exact readErr_runs rfl
      by_cases hmalloc : files.malloc stream.ftell.toUInt64 = false
      · simp only [Option.bind_eq_bind, Option.bind_some, hseek, hmalloc, or_true, if_true, if_false]
        exact readErr_runs rfl
      simp only [Option.bind_eq_bind, Option.bind_some, hseek, hmalloc, if_false, fread_eq]
      refine Runs.bindAcquire _ fun b => ?_
      cases hitem : item stream.data stream.ftell.toUInt64 with
      | none =>
          simp only [Option.map_none]
          exact readErr_runs (Multiset.cons_swap _ _ _)
      | some c =>
          simp only [Option.map_some]
          refine Runs.bindRelease (Multiset.cons_swap _ _ _) (Runs.pure _ ⟨b, ?_, rfl⟩)
          rw [item_size hitem]

/-- The copy of the contents as a string can be made: its size does not wrap
around, and there is memory for it. -/
def Copied (calloc : UInt64 → Bool) (c : Content) : Prop :=
  c.bytes.length + 1 < 2 ^ 64 ∧ calloc (c.size + 1) = true

instance (calloc : UInt64 → Bool) (c : Content) : Decidable (Copied calloc c) :=
  inferInstanceAs (Decidable (_ ∧ _))

theorem size_add_one (c : Content) : (c.size + 1).toNat = (c.bytes.length + 1) % 2 ^ 64 := by
  rw [UInt64.toNat_add, Content.size_toNat]
  rfl

theorem memcpy_whole (id : Nat) (c : Content) (h : c.bytes.length + 1 < 2 ^ 64) :
    memcpy (some ⟨id, List.replicate (c.size + 1).toNat 0⟩) c.bytes c.size =
      some ⟨id, c.bytes ++ [0]⟩ := by
  rw [size_add_one, Nat.mod_eq_of_lt h]
  simp [memcpy, List.drop_replicate]

theorem terminate_whole (id : Nat) (c : Content) :
    terminate ⟨id, c.bytes ++ [0]⟩ c.size = some ⟨id, c.bytes ++ [0]⟩ := by
  simp [terminate]

theorem toCstr_runs {calloc : UInt64 → Bool} {c : Content} (h : Copied calloc c) :
    Runs 0 (toCstr calloc c.bytes c.size) (fun s own =>
      ∃ id, s = some ⟨id, c.bytes ++ [0]⟩ ∧ own = {(Held.block, id)}) := by
  rw [toCstr, if_neg (by simp [h.2])]
  refine Runs.bindAcquire _ fun id => ?_
  apply Runs.bindLift (memcpy_whole id c h.1)
  apply Runs.bindLift (terminate_whole id c)
  exact Runs.pure _ ⟨id, rfl, rfl⟩

/-- Without the memory the copy goes through NULL, and where the size wraps
around to zero it goes past what was allocated. -/
theorem toCstr_faults {calloc : UInt64 → Bool} {c : Content} (h : ¬ Copied calloc c)
    (L : Ledger Held) : toCstr calloc c.bytes c.size L = none := by
  have hnull : memcpy none c.bytes c.size = none := rfl
  rw [toCstr]
  by_cases hcalloc : calloc (c.size + 1) = false
  · rw [if_pos hcalloc, hnull]
    rfl
  · have hlen : ¬ c.bytes.length + 1 < 2 ^ 64 := fun hlt => h ⟨hlt, by simpa using hcalloc⟩
    have hcount := c.countable
    have hzero : (c.size + 1).toNat = 0 := by
      rw [size_add_one]
      omega
    have hpast (id : Nat) :
        memcpy (some ⟨id, List.replicate (c.size + 1).toNat 0⟩) c.bytes c.size = none := by
      simp [memcpy, hzero, Nat.not_le.mpr c.nonempty]
    rw [if_neg hcalloc]
    simp only [hpast]
    rfl

/-- How a run of the tool ends. -/
inductive Verdict
  | usage (name : CStr) (diagnostic : Option CStr)
  | keyUnreadable (fn : CStr)
  | earUnreadable (fn : CStr)
  | unverified (text : CStr)
  | noStatus (appRec text : CStr)
  | status (appRec : CStr) (tier : EarTier)

def Verdict.ret : Verdict → Int
  | .usage .. => exitFailure
  | .status _ _ => 0
  | _ => -1

def Verdict.lines : Verdict → List Line
  | .usage name diagnostic => (diagnostic.map Line.getopt).toList ++ [.usage (VerifyTool.usage name)]
  | .keyUnreadable fn => [.warn (lit "error reading key from " ++ fn)]
  | .earUnreadable fn => [.warn (lit "error reading EAR JWT from " ++ fn)]
  | .unverified text => [.warnx (lit "failed to verify EAR: " ++ text)]
  | .noStatus appRec text => [.stdout (lit "EAR verified"),
      .warnx (lit "failed to retrieve EAR status for " ++ appRec ++ lit " appraisal: " ++ text)]
  | .status appRec tier => [.stdout (lit "EAR verified"), .stdout (statusLine appRec tier)]

variable {Alg Jwt : Type} [DecidableEq Alg]

/-- What the library makes of a token. A refusal of its claims goes unexplained. -/
def judgeToken (env : Env Alg Jwt) (earJwt : CStr) (pkey : Key) (alg appRec : CStr) : Verdict :=
  match authenticate env earJwt pkey alg with
  | .error f => .unverified (composed env.libc f)
  | .ok jwt =>
      match inspect env jwt with
      | .error _ => .unverified (lit "")
      | .ok submods =>
          match statusOf (some submods) appRec with
          | .error f => .noStatus appRec (composed env.libc f)
          | .ok tier => .status appRec tier

/-- What the tool is for, in terms of the files and of the token in them. There
is no verdict where the string for the token is not allocated. -/
def judge (host : Host) (env : Env Alg Jwt) : Option Verdict :=
  match settings noSettings host.getopt host.operand with
  | .error diagnostic => some (.usage host.name diagnostic)
  | .ok s =>
      match contents host.keyFile s.keyFn with
      | none => some (.keyUnreadable s.keyFn)
      | some key =>
          match contents host.earFile s.earFn with
          | none => some (.earUnreadable s.earFn)
          | some jwt =>
              if Copied host.calloc jwt then
                some (judgeToken env jwt.text key.key s.alg s.appRec)
              else
                none

theorem earFree_heldEar (ear : Option (Ref (EarT Jwt))) :
    Runs (heldEar ear) (earFree ear) (fun _ own => own = 0) := by
  cases ear with
  | none => exact Runs.pure _ rfl
  | some ear =>
      have hfree := earFree_runs ear 0
      rwa [add_zero] at hfree

theorem mainErr_performs {key earJwt earJwtCstr : Option Bytes} {ear : Option (Ref (EarT Jwt))}
    {own : Multiset (Obj Held)} {lib : Multiset (Obj Kind)} {out : List Line}
    {post : Option (Int × Hand Kind Held Line) → Prop} (hlib : lib = heldEar ear)
    (hown : own = heldBytes key + (heldBytes earJwt + heldBytes earJwtCstr))
    (hpost : post (some (-1, ⟨0, 0, out⟩))) :
    Performs ⟨lib, own, out⟩ (mainErr key earJwt earJwtCstr ear) post := by
  subst hlib hown
  have hlast := free_runs earJwtCstr 0
  rw [add_zero] at hlast
  apply Performs.bindPerform (free_runs key _)
  rintro - _ rfl
  apply Performs.bindPerform (free_runs earJwt _)
  rintro - _ rfl
  apply Performs.bindPerform hlast
  rintro - _ rfl
  apply Performs.bindCall (earFree_heldEar ear)
  rintro - _ rfl
  exact Performs.pure hpost

theorem asKey_content (id : Nat) (c : Content) :
    asKey (some ⟨id, c.bytes⟩) (some c.size) = some c.key := by
  have hread : 0 < c.size.toNat ∧ c.size.toNat ≤ c.bytes.length := by
    rw [Content.size_toNat]
    exact ⟨c.nonempty, le_rfl⟩
  simp [asKey, Content.key, c.nonempty]

/-- The blocks of the key, the token and its string, in the order in which they
are acquired and in the order in which a verified token's are freed. -/
theorem held_blocks (key earJwt earJwtCstr : Bytes) :
    ({(Held.block, earJwtCstr.id)} + ({(Held.block, earJwt.id)} + {(Held.block, key.id)}) :
        Multiset (Obj Held)) =
      heldBytes earJwt + (heldBytes key + (heldBytes earJwtCstr + 0)) := by
  rw [add_zero]
  exact add_left_comm _ _ _ |>.trans (congrArg _ (add_comm _ _))

theorem readStr_composed (libc : Libc) (b : Buffer) (f : Failure) :
    readStr ((b.write (composed libc f).cells).window earErrSz) = some (composed libc f) :=
  (Buffer.holds_write b (composed libc f)).readStr_window (Nat.lt_succ_of_le (composed_le libc f))

theorem earJwtVerify_judged (env : Env Alg Jwt) (earJwt : CStr) (pkey : Key) (alg appRec : CStr)
    (errMsg : Buffer) : Runs 0 (earJwtVerify env earJwt pkey alg none (some errMsg)) (fun r own =>
      (∃ text b, r = ⟨-1, none, some b⟩ ∧ own = 0 ∧ readStr (b.window earErrSz) = some text ∧
        judgeToken env earJwt pkey alg appRec = .unverified text) ∨
      ∃ ear submods, r = ⟨0, some ear, some errMsg⟩ ∧ own = owned ear ∧ Complete ear.val ∧
        ear.val.submods.map Ref.val = some submods ∧
        judgeToken env earJwt pkey alg appRec = match statusOf (some submods) appRec with
          | .error f => .noStatus appRec (composed env.libc f)
          | .ok tier => .status appRec tier) := by
  apply (earJwtVerify_runs env earJwt pkey alg none (some errMsg)).mono
  intro r own hr
  cases hr with
  | unauthentic f h =>
      refine Or.inl ⟨composed env.libc f, _, rfl, rfl, readStr_composed env.libc errMsg f, ?_⟩
      rw [judgeToken, h]
  | refused jwt f h hf =>
      refine Or.inl ⟨lit "", _, rfl, rfl, ?_, by simp only [judgeToken, h, hf]⟩
      have hfits : (lit "").length < earErrSz := by decide
      exact (Buffer.holds_write (errMsg.write (composed env.libc f).cells) (lit "")).readStr_window hfits
  | verified ear j s jwt submods h hs =>
      exact Or.inr ⟨_, submods, rfl, rfl, ⟨rfl, rfl⟩, rfl, by simp only [judgeToken, h, hs]⟩

theorem mainStatus_performs {libc : Libc} {ear : Ref (EarT Jwt)} {submods : Json} {out : List Line}
    {post : Option (Int × Hand Kind Held Line) → Prop} (hear : Complete ear.val)
    (hsub : ear.val.submods.map Ref.val = some submods) (appRec : CStr) (errMsg : Buffer)
    (hpost : match statusOf (some submods) appRec with
      | .error f => post (some (-1, ⟨0, 0, out ++ [.warnx (lit "failed to retrieve EAR status for " ++
          appRec ++ lit " appraisal: " ++ composed libc f)]⟩))
      | .ok tier => post (some (0, ⟨0, 0, out ++ [.stdout (statusLine appRec tier)]⟩))) :
    Performs ⟨owned ear, 0, out⟩ (mainStatus libc ear appRec errMsg) post := by
  have hfree := earFree_heldEar (some ear)
  rw [mainStatus, earGetStatus_eq hear, hsub, Proc.call_pure, pure_bind]
  cases hstatus : statusOf (some submods) appRec with
  | error f =>
      rw [hstatus] at hpost
      apply Performs.bindLift rfl
      rw [if_pos rfl]
      apply Performs.bindLift (readStr_composed libc errMsg f)
      exact Performs.bindPrint (mainErr_performs rfl rfl hpost)
  | ok tier =>
      rw [hstatus] at hpost
      apply Performs.bindLift rfl
      rw [if_neg (by decide : ¬ (0 : Int) = -1)]
      apply Performs.bindLift rfl
      apply Performs.bindPrint
      apply Performs.bindCall hfree
      rintro - _ rfl
      exact Performs.pure hpost

theorem mainUsage_performs (name : CStr) (diagnostic : Option CStr)
    {post : Option (Int × Hand Kind Held Line) → Prop}
    (hpost : post (some (exitFailure, ⟨0, 0, (Verdict.usage name diagnostic).lines⟩))) :
    Performs Hand.empty (mainUsage name diagnostic) post := by
  cases diagnostic with
  | none => exact Performs.bindPrint (Performs.pure hpost)
  | some text => exact Performs.bindPrint (Performs.bindPrint (Performs.pure hpost))

theorem mainVerify_performs {host : Host} {args : Args} {s : Settings} (hargs : Represents args s)
    (hsettings : settings noSettings host.getopt host.operand = .ok s) (env : Env Alg Jwt)
    (errMsg : Buffer) : Performs Hand.empty (mainVerify host env args errMsg)
      (fun r => r = (judge host env).map (fun v => (v.ret, ⟨0, 0, v.lines⟩))) := by
  have hzero : ¬ (0 : Int) = -1 := by decide
  simp only [mainVerify, judge, hsettings]
  apply Performs.bindLift hargs.keyFn.readStr
  apply Performs.bindLift hargs.earFn.readStr
  apply Performs.bindLift hargs.alg.readStr
  apply Performs.bindLift hargs.appRec.readStr
  apply Performs.bindPerform (readFromFile_runs host.keyFile s.keyFn none none)
  intro r own hr
  cases hkey : contents host.keyFile s.keyFn with
  | none =>
      simp only [hkey] at hr ⊢
      obtain ⟨rfl, rfl⟩ := hr
      exact Performs.bindPrint (mainErr_performs rfl rfl rfl)
  | some key =>
      simp only [hkey] at hr ⊢
      obtain ⟨k, rfl, rfl⟩ := hr
      rw [if_neg hzero]
      apply Performs.bindPerformFrame (readFromFile_runs host.earFile s.earFn none none)
      intro r own hr
      cases hjwt : contents host.earFile s.earFn with
      | none =>
          simp only [hjwt] at hr ⊢
          obtain ⟨rfl, rfl⟩ := hr
          exact Performs.bindPrint (mainErr_performs rfl (add_comm _ _) rfl)
      | some jwt =>
          simp only [hjwt] at hr ⊢
          obtain ⟨j, rfl, rfl⟩ := hr
          rw [if_neg hzero]
          apply Performs.bindLift rfl
          apply Performs.bindLift rfl
          by_cases hcopied : Copied host.calloc jwt
          · rw [if_pos hcopied]
            apply Performs.bindPerformFrame (toCstr_runs hcopied)
            rintro _ own ⟨c, rfl, rfl⟩
            apply Performs.bindLift (readStr_terminated jwt.bytes [])
            apply Performs.bindLift (asKey_content k key)
            apply Performs.bindCall (earJwtVerify_judged env jwt.text key.key s.alg s.appRec errMsg)
            rintro v lib (⟨text, b, rfl, rfl, htext, hjudge⟩ | ⟨ear, submods, rfl, rfl, hear, hsub, hjudge⟩)
            · rw [hjudge]
              apply Performs.bindLift rfl
              rw [if_pos (by decide : (-1 : Int) ≠ 0)]
              apply Performs.bindLift htext
              refine Performs.bindPrint (mainErr_performs rfl ?_ rfl)
              exact (held_blocks ⟨k, key.bytes⟩ ⟨j, jwt.bytes⟩ ⟨c, _⟩).trans (add_left_comm _ _ _)
            · rw [hjudge, held_blocks ⟨k, key.bytes⟩ ⟨j, jwt.bytes⟩ ⟨c, jwt.bytes ++ [0]⟩]
              apply Performs.bindLift rfl
              rw [if_neg (by decide : ¬ (0 : Int) ≠ 0)]
              apply Performs.bindPerform (free_runs (some ⟨j, jwt.bytes⟩) _)
              rintro - _ rfl
              apply Performs.bindPerform (free_runs (some ⟨k, key.bytes⟩) _)
              rintro - _ rfl
              apply Performs.bindPerform (free_runs (some ⟨c, jwt.bytes ++ [0]⟩) _)
              rintro - _ rfl
              apply Performs.bindPrint
              apply Performs.bindLift rfl
              apply mainStatus_performs hear hsub
              cases statusOf (some submods) s.appRec <;> rfl
          · rw [if_neg hcopied]
            refine Performs.faults ?_ rfl
            intro p
            simp only [Proc.bind_apply, Proc.perform, toCstr_faults hcopied p.own]
            rfl

theorem main_performs (host : Host) (env : Env Alg Jwt) (errMsg : Buffer) :
    Performs Hand.empty (main host env errMsg)
      (fun r => r = (judge host env).map (fun v => (v.ret, ⟨0, 0, v.lines⟩))) := by
  obtain ⟨parsed, hparse, -, hleaves⟩ := parseOpts_spec host.getopt host.operand represents_noArgs
  apply Performs.bindLift hparse
  rw [Leaves] at hleaves
  cases hsettings : settings noSettings host.getopt host.operand with
  | error diagnostic =>
      rw [hsettings] at hleaves
      obtain ⟨args, rfl, -⟩ := hleaves
      apply mainUsage_performs
      rw [judge, hsettings]
      rfl
  | ok s =>
      rw [hsettings] at hleaves
      obtain ⟨args, rfl, hargs⟩ := hleaves
      exact mainVerify_performs hargs hsettings env errMsg

end CEar.VerifyToolRuns
