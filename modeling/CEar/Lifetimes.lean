import CEar.ClaimsStore

namespace CEar.Lifetimes

open Accessors ClaimsStore Contract CString Ear Gates JsonValue Ownership Report Session Simulation Tokens
  Utils Verify
open scoped Classical

variable {Alg Jwt : Type} [DecidableEq Alg]

theorem hold_noReuse {α : Type} (k : Kind) (o : Option α) : NoReuse (hold k o) := by
  cases o with
  | none => exact .pure none
  | some a => exact .bind (.acquire k) fun id => .pure _

theorem releaseOpt_noReuse {α : Type} (k : Kind) (o : Option (Ref α)) : NoReuse (releaseOpt k o) := by
  cases o with
  | none => exact .pure ()
  | some r => exact .release k r.id

theorem earFree_noReuse (ear : Option (Ref (EarT Jwt))) : NoReuse (earFree ear) := by
  cases ear with
  | none => exact .pure ()
  | some ear =>
      apply NoReuse.bind (releaseOpt_noReuse _ _)
      intro _
      apply NoReuse.bind (releaseOpt_noReuse _ _)
      intro _
      exact .release _ _

theorem reportErr_noReuse (errMsg : Option Buffer) (e : Buffer) : NoReuse (reportErr errMsg e) := by
  cases errMsg with
  | none => exact .pure none
  | some b => exact .bind (.lift _) fun r => .pure _

omit [DecidableEq Alg] in
theorem verifyErr_noReuse (ear : Option (Ref (EarT Jwt))) (valid : Option (Ref (JwtValid Alg))) (e : Buffer)
    (pear : Option (Ref (EarT Jwt))) (errMsg : Option Buffer) :
    NoReuse (verifyErr ear valid e pear errMsg) := by
  apply NoReuse.bind (earFree_noReuse ear)
  intro _
  apply NoReuse.bind (releaseOpt_noReuse _ valid)
  intro _
  exact .bind (reportErr_noReuse errMsg e) fun _ => .pure _

omit [DecidableEq Alg] in
theorem cacheSubmods_noReuse (env : Env Alg Jwt) (ear : EarT Jwt) (errMsg : Option Buffer) :
    NoReuse (cacheSubmods env ear errMsg) := by
  apply NoReuse.bind (.lift _)
  intro _
  apply NoReuse.bind (hold_noReuse _ _)
  intro submodsJs
  cases submodsJs with
  | none => exact .bind (reportErr_noReuse _ _) fun _ => .pure _
  | some text =>
      apply NoReuse.bind (hold_noReuse _ _)
      intro submods
      by_cases hnone : submods.isNone = true
      · simp only [if_pos hnone]
        apply NoReuse.bind (.release _ _)
        intro _
        exact .bind (reportErr_noReuse _ _) fun _ => .pure _
      · simp only [if_neg hnone]
        exact .bind (.release _ _) fun _ => .pure _

theorem earJwtVerify_noReuse (env : Env Alg Jwt) (earJwt : CStr) (pkey : Key) (alg : CStr)
    (pear : Option (Ref (EarT Jwt))) (errMsg : Option Buffer) :
    NoReuse (earJwtVerify env earJwt pkey alg pear errMsg) := by
  simp only [earJwtVerify]
  split
  · exact verifyErr_noReuse _ _ _ _ _
  apply NoReuse.bind (hold_noReuse _ _)
  intro jwtValid
  cases jwtValid with
  | none => exact verifyErr_noReuse _ _ _ _ _
  | some v =>
      dsimp only
      split
      · exact verifyErr_noReuse _ _ _ _ _
      apply NoReuse.bind (hold_noReuse _ _)
      intro ear
      cases ear with
      | none => exact verifyErr_noReuse _ _ _ _ _
      | some ear =>
          apply NoReuse.bind (hold_noReuse _ _)
          intro jwt
          cases jwt with
          | none => exact verifyErr_noReuse _ _ _ _ _
          | some j =>
              dsimp only
              split
              · exact verifyErr_noReuse _ _ _ _ _
              split
              · exact verifyErr_noReuse _ _ _ _ _
              apply NoReuse.bind (.release _ _)
              intro _
              rw [validateProfile_eq, pure_bind]
              cases checkProfile env j.val with
              | error f => exact verifyErr_noReuse _ _ _ _ _
              | ok _ =>
                  apply NoReuse.bind (cacheSubmods_noReuse _ _ _)
                  rintro ⟨submods, errMsg'⟩
                  dsimp only
                  split
                  · exact verifyErr_noReuse _ _ _ _ _
                  · exact .pure _

theorem earGetAppRecs_noReuse (calloc : Bool) (ear : EarT Jwt)
    (pappRec : Option (Ref (List (Option CStr)))) (pappRecSz : Nat) :
    NoReuse (earGetAppRecs calloc ear pappRec pappRecSz) := by
  apply NoReuse.bind (.lift _)
  intro _
  apply NoReuse.bind (.lift _)
  intro _
  apply NoReuse.bind (hold_noReuse _ _)
  intro keylist
  exact .bind (.lift _) fun _ => .pure _

theorem uB64urlDecode_noReuse (calloc : Bool) (input : Option CStr) (pout : Option (Ref Block))
    (poutSz : Nat) : NoReuse (uB64urlDecode calloc input pout poutSz) := by
  cases input with
  | none => exact .pure _
  | some text =>
      simp only [uB64urlDecode]
      split
      · exact .pure _
      apply NoReuse.bind (.lift _)
      intro outSz
      split
      · exact .pure _
      split
      · exact .pure _
      apply NoReuse.bind (.acquire _)
      intro out
      apply NoReuse.bind (.lift _)
      rintro ⟨count, stores⟩
      apply NoReuse.bind (.lift _)
      intro block
      dsimp only
      split
      · exact .bind (.release _ _) fun _ => .pure _
      · exact .pure _

theorem earVeraisonGetAkpub_noReuse {ear : EarT Jwt} (h : Complete ear) (libc : Libc) (calloc : Bool)
    (appRec : CStr) (pakpub : Option (Ref Block)) (pakpubSz : Nat) (errMsg : Option Buffer) :
    NoReuse (earVeraisonGetAkpub libc calloc ear appRec pakpub pakpubSz errMsg) := by
  rw [earVeraisonGetAkpub_eq h]
  cases akpubOf (ear.submods.map Ref.val) appRec with
  | error f => exact .pure _
  | ok text => exact .bind (uB64urlDecode_noReuse _ _ _ _) fun _ => .pure _

variable {w w' : World Jwt} {c : Call Alg Jwt} {ret : Int} {allowed : Env Alg Jwt → Prop}

/-- A call reuses no object if the function that it runs does not. -/
theorem noReuse_call {α : Type} {x : Exec Kind α} (hx : NoReuse x) {f : α × Ledger Kind → Int × World Jwt}
    (hf : ∀ p, (f p).2.ledger = p.2) (hexec : ((x w.ledger).bind fun p => some (f p)) = some (ret, w')) :
    w.ledger.next ≤ w'.ledger.next ∧ ∀ o ∈ w'.ledger.live, o ∈ w.ledger.live ∨ w.ledger.next ≤ o.2 := by
  obtain ⟨⟨a, L⟩, hrun, hw⟩ := Option.bind_eq_some_iff.mp hexec
  have hledger := hf (a, L)
  rw [Option.some.inj hw] at hledger
  rw [hledger]
  exact hx _ _ _ hrun

theorem exec_noReuse (h : Balanced w) (hlegal : Legal w c) (hexec : exec c w = some (ret, w')) :
    w.ledger.next ≤ w'.ledger.next ∧ ∀ o ∈ w'.ledger.live, o ∈ w.ledger.live ∨ w.ledger.next ≤ o.2 := by
  cases c with
  | verify env earJwt pkey alg pear errMsg =>
      exact noReuse_call (earJwtVerify_noReuse env earJwt pkey alg pear errMsg) (fun _ => rfl) hexec
  | getAppRecs calloc ear pappRec pappRecSz =>
      exact noReuse_call (earGetAppRecs_noReuse calloc ear.val pappRec pappRecSz) (fun _ => rfl) hexec
  | getStatus libc ear appRec ptier errMsg =>
      have hpure : NoReuse (earGetStatus libc ear.val appRec ptier errMsg) := by
        rw [earGetStatus_eq (h.complete ear hlegal)]
        exact .pure _
      exact noReuse_call hpure (fun _ => rfl) hexec
  | getAkpub libc calloc ear appRec pakpub pakpubSz errMsg =>
      have hakpub := earVeraisonGetAkpub_noReuse (h.complete ear hlegal) libc calloc appRec pakpub pakpubSz errMsg
      exact noReuse_call hakpub (fun _ => rfl) hexec
  | freeEar ear => exact noReuse_call (earFree_noReuse ear) (fun _ => rfl) hexec
  | freeKey key => exact noReuse_call (.release _ _) (fun _ => rfl) hexec
  | freeList list => exact noReuse_call (.release _ _) (fun _ => rfl) hexec

/-- What the library hands over to the caller. -/
inductive Item (Jwt : Type)
  | ear (ear : Ref (EarT Jwt))
  | key (key : Ref Block)
  | list (list : Ref (List (Option CStr)))

namespace Item

/-- The objects that live as long as the item: for an EAR its token and its
claims too, which the names in a list point into. -/
def objects : Item Jwt → Multiset (Obj Kind)
  | .ear e => owned e
  | .key k => {(Kind.keyBuffer, k.id)}
  | .list l => {(Kind.nameList, l.id)}

def HeldIn (w : World Jwt) : Item Jwt → Prop
  | .ear e => e ∈ w.ears
  | .key k => k ∈ w.keys
  | .list l => l ∈ w.lists

def free : Item Jwt → Call Alg Jwt
  | .ear e => .freeEar (some e)
  | .key k => .freeKey k
  | .list l => .freeList l

end Item

variable {i : Item Jwt}

theorem objects_live (h : Balanced w) (hheld : i.HeldIn w) : ∀ o ∈ i.objects, o ∈ w.ledger.live := by
  intro o ho
  rw [h.live, owns]
  cases i with
  | ear ear => exact Multiset.mem_add.mpr (.inl (Multiset.mem_bind.mpr ⟨ear, hheld, ho⟩))
  | key key =>
      rw [Item.objects, Multiset.mem_singleton] at ho
      rw [ho, Multiset.mem_add, Multiset.mem_add]
      exact .inr (.inl (Multiset.mem_map_of_mem _ hheld))
  | list list =>
      rw [Item.objects, Multiset.mem_singleton] at ho
      rw [ho, Multiset.mem_add, Multiset.mem_add]
      exact .inr (.inr (Multiset.mem_map_of_mem _ hheld))

/-- Freeing an item takes its objects off what the caller owns. -/
theorem owns_free (hheld : i.HeldIn w) (hexec : exec (i.free : Call Alg Jwt) w = some (ret, w')) :
    owns w = i.objects + owns w' := by
  cases i with
  | ear ear =>
      obtain ⟨⟨u, L⟩, -, hw⟩ := Option.bind_eq_some_iff.mp hexec
      cases hw
      obtain ⟨ears, hears⟩ := Multiset.exists_cons_of_mem hheld
      rw [Item.objects, ← owns_ear L]
      simp [owns, hears]
  | key key =>
      obtain ⟨⟨u, L⟩, -, hw⟩ := Option.bind_eq_some_iff.mp hexec
      cases hw
      obtain ⟨keys, hkeys⟩ := Multiset.exists_cons_of_mem hheld
      rw [Item.objects, ← owns_key L]
      simp [owns, hkeys]
  | list list =>
      obtain ⟨⟨u, L⟩, -, hw⟩ := Option.bind_eq_some_iff.mp hexec
      cases hw
      obtain ⟨lists, hlists⟩ := Multiset.exists_cons_of_mem hheld
      rw [Item.objects, ← owns_list L]
      simp [owns, hlists]

theorem free_ends (h : Balanced w) (h' : Balanced w') (hheld : i.HeldIn w)
    (hexec : exec (i.free : Call Alg Jwt) w = some (ret, w')) : ∀ o ∈ i.objects, o ∉ w'.ledger.live := by
  have hnodup := w.ledger.nodup
  rw [h.live, owns_free hheld hexec, ← h'.live, Multiset.nodup_add] at hnodup
  exact fun o ho => Multiset.disjoint_left.mp hnodup.2.2 ho

/-- No other call takes an item from the caller. -/
theorem call_holds (hheld : i.HeldIn w) (hother : c ≠ i.free) (hexec : exec c w = some (ret, w')) :
    i.HeldIn w' := by
  cases c with
  | verify =>
      obtain ⟨⟨r, L⟩, -, hw⟩ := Option.bind_eq_some_iff.mp hexec
      cases hw
      cases i with
      | ear ear => exact Multiset.mem_add.mpr (.inr hheld)
      | key | list => exact hheld
  | getAppRecs =>
      obtain ⟨⟨r, L⟩, -, hw⟩ := Option.bind_eq_some_iff.mp hexec
      cases hw
      cases i with
      | list list => exact Multiset.mem_add.mpr (.inr hheld)
      | ear | key => exact hheld
  | getStatus =>
      obtain ⟨⟨r, L⟩, -, hw⟩ := Option.bind_eq_some_iff.mp hexec
      cases hw
      cases i <;> exact hheld
  | getAkpub =>
      obtain ⟨⟨r, L⟩, -, hw⟩ := Option.bind_eq_some_iff.mp hexec
      cases hw
      cases i with
      | key key => exact Multiset.mem_add.mpr (.inr hheld)
      | ear | list => exact hheld
  | freeEar freed =>
      obtain ⟨⟨u, L⟩, -, hw⟩ := Option.bind_eq_some_iff.mp hexec
      cases hw
      cases i with
      | ear ear =>
          cases freed with
          | none => simpa [Item.HeldIn] using hheld
          | some freed =>
              have hne : ear ≠ freed := fun he => hother (by rw [he]; rfl)
              simpa [Item.HeldIn, Multiset.sub_singleton, Multiset.mem_erase_of_ne hne] using hheld
      | key | list => exact hheld
  | freeKey freed =>
      obtain ⟨⟨u, L⟩, -, hw⟩ := Option.bind_eq_some_iff.mp hexec
      cases hw
      cases i with
      | key key =>
          have hne : key ≠ freed := fun hk => hother (by rw [hk]; rfl)
          exact (Multiset.mem_erase_of_ne hne).mpr hheld
      | ear | list => exact hheld
  | freeList freed =>
      obtain ⟨⟨u, L⟩, -, hw⟩ := Option.bind_eq_some_iff.mp hexec
      cases hw
      cases i with
      | list list =>
          have hne : list ≠ freed := fun hl => hother (by rw [hl]; rfl)
          exact (Multiset.mem_erase_of_ne hne).mpr hheld
      | ear | key => exact hheld

/-- An item after the calls `es` since it was held: still held, or freed and
its objects gone for good. -/
inductive Since (i : Item Jwt) (es : List (Call Alg Jwt × Answer)) (w : World Jwt) : Prop
  | held (h : i.HeldIn w) (hnone : ∀ e ∈ es, e.1 ≠ i.free)
  | freed (h : ∀ o ∈ i.objects, o ∉ w.ledger.live ∧ o.2 < w.ledger.next) (hsome : ∃ e ∈ es, e.1 = i.free)

theorem since_step {es : List (Call Alg Jwt × Answer)} {e : Call Alg Jwt × Answer} (hw : Balanced w)
    (h : Since i es w) (hplays : Plays allowed w e w') : Since i (es ++ [e]) w' := by
  obtain ⟨ret, hexec⟩ := hplays.executed
  obtain ⟨hle, hlive⟩ := exec_noReuse hw hplays.legal hexec
  cases h with
  | held hheld hnone =>
      by_cases hfree : e.1 = i.free
      · rw [hfree] at hexec
        have hgone := free_ends hw (hplays.balanced hw) hheld hexec
        refine .freed (fun o ho => ⟨hgone o ho, ?_⟩) ⟨e, by simp, hfree⟩
        exact (w.ledger.fresh o (objects_live hw hheld o ho)).trans_le hle
      · refine .held (call_holds hheld hfree hexec) fun e' he' => ?_
        rcases List.mem_append.mp he' with he' | he'
        · exact hnone e' he'
        · rwa [List.mem_singleton.mp he']
  | freed hgone hsome =>
      obtain ⟨e', he', hfree⟩ := hsome
      refine .freed (fun o ho => ?_) ⟨e', List.mem_append_left _ he', hfree⟩
      obtain ⟨hdead, hold⟩ := hgone o ho
      refine ⟨fun hmem => ?_, hold.trans_le hle⟩
      rcases hlive o hmem with hmem | hnew
      · exact hdead hmem
      · exact absurd hold (Nat.not_lt.mpr hnew)

theorem since_run {t : World Jwt} {es : List (Call Alg Jwt × Answer)} (ht : Balanced t) (hheld : i.HeldIn t)
    (h : Trace t (Plays allowed) es w) : Balanced w ∧ Since i es w := by
  induction h with
  | start => exact ⟨ht, .held hheld fun e he => absurd he List.not_mem_nil⟩
  | next h hplays ih => exact ⟨hplays.balanced ih.1, since_step ih.1 ih.2 hplays⟩

/-- What the library hands over lives until the caller frees that very item,
whatever else is verified, read and freed meanwhile, and no longer. -/
theorem items_live {before after : List (Call Alg Jwt × Answer)} {t : World Jwt}
    (hbefore : Trace start (Plays allowed) before t) (hheld : i.HeldIn t)
    (hafter : Trace t (Plays allowed) after w) :
    ∀ o ∈ i.objects, o ∈ w.ledger.live ↔ ∀ e ∈ after, e.1 ≠ i.free := by
  obtain ⟨hw, hsince⟩ := since_run (balanced_of_trace hbefore) hheld hafter
  intro o ho
  cases hsince with
  | held hheld hnone => exact iff_of_true (objects_live hw hheld o ho) hnone
  | freed hgone hsome =>
      obtain ⟨e, he, hfree⟩ := hsome
      exact iff_of_false (hgone o ho).1 fun hnone => hnone e he hfree

theorem items_live_sample :
    ∃ (ear : Ref (EarT Unit)) (w : World Unit),
      Trace start (Plays (Documented realmEar.observations))
        ([(verification realmEar, .handle ear.id)] ++ [(.freeEar (some ear), .done)]) w ∧
      (Kind.ear, ear.id) ∉ w.ledger.live := by
  obtain ⟨L, ear, hbefore, -⟩ := trace_verification realmEar
  have hlegal : Legal ⟨L, {ear}, 0, 0⟩ (.freeEar (some ear) : Call (Option CStr) Unit) := by
    rintro e ⟨⟩
    exact Multiset.mem_singleton_self ear
  obtain ⟨ret, w, hexec, -⟩ := legal_keeps (balanced_of_trace hbefore) hlegal not_false
  have hplays : Plays (Documented realmEar.observations) ⟨L, {ear}, 0, 0⟩ (.freeEar (some ear), .done) w :=
    ⟨hlegal, nofun, rfl, ret, hexec⟩
  have hheld : (Item.ear ear).HeldIn ⟨L, {ear}, 0, 0⟩ := Multiset.mem_singleton_self ear
  have hlive := items_live hbefore hheld (.next .start hplays) (Kind.ear, ear.id) (ear_mem_owned ear)
  refine ⟨ear, w, .next hbefore hplays, fun hmem => ?_⟩
  exact hlive.mp hmem _ (List.mem_singleton_self _) rfl

end CEar.Lifetimes
