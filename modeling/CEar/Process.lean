import CEar.Ownership

namespace CEar.Process

open Ownership

variable {κ κ' ε α β : Type}

/-- A program that uses a library: what the library has acquired for it, what
it has acquired itself, and what it has printed. -/
structure State (κ κ' ε : Type) where
  library : Ledger κ
  own : Ledger κ'
  output : List ε

def Proc (κ κ' ε α : Type) := State κ κ' ε → Option (α × State κ κ' ε)

namespace Proc

instance : Monad (Proc κ κ' ε) where
  pure a := fun p => some (a, p)
  bind x f := fun p => (x p).bind (fun q => f q.1 q.2)

instance : LawfulMonad (Proc κ κ' ε) := LawfulMonad.mk' _
  (fun x => funext fun p => Option.bind_fun_some (x p))
  (fun _ _ => rfl)
  (fun x _ _ => funext fun p => Option.bind_assoc (x p) _ _)

def call (x : Exec κ α) : Proc κ κ' ε α := fun p =>
  (x p.library).map (fun r => (r.1, { p with library := r.2 }))

def perform (x : Exec κ' α) : Proc κ κ' ε α := fun p =>
  (x p.own).map (fun r => (r.1, { p with own := r.2 }))

def print (e : ε) : Proc κ κ' ε Unit := fun p => some ((), { p with output := p.output ++ [e] })

def lift (o : Option α) : Proc κ κ' ε α := fun p => o.map (fun a => (a, p))

@[simp] theorem pure_apply (a : α) (p : State κ κ' ε) :
    (pure a : Proc κ κ' ε α) p = some (a, p) := rfl

@[simp] theorem bind_apply (x : Proc κ κ' ε α) (f : α → Proc κ κ' ε β) (p : State κ κ' ε) :
    (x >>= f) p = (x p).bind (fun q => f q.1 q.2) := rfl

@[simp] theorem call_pure (a : α) : call (pure a : Exec κ α) = (pure a : Proc κ κ' ε α) := rfl

end Proc

/-- What a part of the program has in hand, and what it has printed. -/
structure Hand (κ κ' ε : Type) where
  library : Multiset (Obj κ)
  own : Multiset (Obj κ')
  output : List ε

def Hand.empty : Hand κ κ' ε := ⟨0, 0, []⟩

structure Extends (p : State κ κ' ε) (hand rest : Hand κ κ' ε) : Prop where
  library : p.library.live = hand.library + rest.library
  own : p.own.live = hand.own + rest.own
  output : p.output = rest.output ++ hand.output

/-- Started with `pre` in hand and anything else left alone, the computation
ends as `post` says: with a result and what it has in hand then, or with a
fault. -/
def Performs (pre : Hand κ κ' ε) (x : Proc κ κ' ε α)
    (post : Option (α × Hand κ κ' ε) → Prop) : Prop :=
  ∀ (p : State κ κ' ε) (rest : Hand κ κ' ε), Extends p pre rest →
    (x p = none ∧ post none) ∨
      ∃ a p' hand, x p = some (a, p') ∧ Extends p' hand rest ∧ post (some (a, hand))

namespace Performs

open Proc

variable {l : Multiset (Obj κ)} {o : Multiset (Obj κ')} {out : List ε} {pre : Hand κ κ' ε}
  {post : Option (β × Hand κ κ' ε) → Prop}

theorem pure {b : β} (h : post (some (b, pre))) : Performs pre (Pure.pure b) post := by
  intro p rest hp
  exact Or.inr ⟨b, p, pre, rfl, hp, h⟩

theorem bind {x : Proc κ κ' ε α} {f : α → Proc κ κ' ε β} {mid : Option (α × Hand κ κ' ε) → Prop}
    (hx : Performs pre x mid) (hnone : mid none → post none)
    (hf : ∀ a hand, mid (some (a, hand)) → Performs hand (f a) post) :
    Performs pre (x >>= f) post := by
  intro p rest hp
  rcases hx p rest hp with ⟨hfault, hmid⟩ | ⟨a, p', hand, hrun, hp', hmid⟩
  · exact Or.inl ⟨by rw [bind_apply, hfault, Option.bind_none], hnone hmid⟩
  · have hrest : (x >>= f) p = f a p' := by rw [bind_apply, hrun, Option.bind_some]
    rw [hrest]
    exact hf a hand hmid p' rest hp'

theorem bindCall {x : Exec κ α} {f : α → Proc κ κ' ε β} {mid : α → Multiset (Obj κ) → Prop}
    (hx : Runs l x mid) (hf : ∀ a l', mid a l' → Performs ⟨l', o, out⟩ (f a) post) :
    Performs ⟨l, o, out⟩ (call x >>= f) post := by
  intro p rest hp
  obtain ⟨a, L, own, hrun, hlive, hmid⟩ := hx p.library rest.library hp.library
  have hrest : (call x >>= f) p = f a { p with library := L } := by
    rw [bind_apply, call, hrun, Option.map_some, Option.bind_some]
  rw [hrest]
  exact hf a own hmid _ rest ⟨hlive, hp.own, hp.output⟩

theorem bindPerform {x : Exec κ' α} {f : α → Proc κ κ' ε β} {mid : α → Multiset (Obj κ') → Prop}
    (hx : Runs o x mid) (hf : ∀ a o', mid a o' → Performs ⟨l, o', out⟩ (f a) post) :
    Performs ⟨l, o, out⟩ (perform x >>= f) post := by
  intro p rest hp
  obtain ⟨a, L, own, hrun, hlive, hmid⟩ := hx p.own rest.own hp.own
  have hrest : (perform x >>= f) p = f a { p with own := L } := by
    rw [bind_apply, perform, hrun, Option.map_some, Option.bind_some]
  rw [hrest]
  exact hf a own hmid _ rest ⟨hp.library, hlive, hp.output⟩

/-- What is performed with nothing in hand leaves alone what the program has. -/
theorem bindPerformFrame {x : Exec κ' α} {f : α → Proc κ κ' ε β}
    {mid : α → Multiset (Obj κ') → Prop} (hx : Runs 0 x mid)
    (hf : ∀ a o', mid a o' → Performs ⟨l, o' + o, out⟩ (f a) post) :
    Performs ⟨l, o, out⟩ (perform x >>= f) post := by
  have hframe : Runs (0 + o) x (fun a own => ∃ o', mid a o' ∧ own = o' + o) :=
    hx.frame o fun a o' ha => ⟨o', ha, rfl⟩
  rw [zero_add] at hframe
  apply bindPerform hframe
  rintro a _ ⟨o', ha, rfl⟩
  exact hf a o' ha

theorem bindPrint {e : ε} {f : Unit → Proc κ κ' ε β}
    (hf : Performs ⟨l, o, out ++ [e]⟩ (f ()) post) : Performs ⟨l, o, out⟩ (print e >>= f) post := by
  intro p rest hp
  apply hf
  refine ⟨hp.library, hp.own, ?_⟩
  rw [hp.output, List.append_assoc]

theorem bindLift {v : Option α} {a : α} {f : α → Proc κ κ' ε β} (hv : v = some a)
    (hf : Performs pre (f a) post) : Performs pre (lift v >>= f) post := by
  subst hv
  exact hf

/-- A computation that faults here is done, whatever is in hand. -/
theorem faults {x : Proc κ κ' ε β} (hx : ∀ p, x p = none) (h : post none) :
    Performs pre x post := by
  intro p rest _
  exact Or.inl ⟨hx p, h⟩

theorem run {x : Proc κ κ' ε β} (h : Performs Hand.empty x post) (p : State κ κ' ε) :
    (x p = none ∧ post none) ∨
      ∃ b p' hand, x p = some (b, p') ∧ p'.library.live = hand.library + p.library.live ∧
        p'.own.live = hand.own + p.own.live ∧ p'.output = p.output ++ hand.output ∧
        post (some (b, hand)) := by
  have hp : Extends p Hand.empty ⟨p.library.live, p.own.live, p.output⟩ :=
    ⟨(zero_add _).symm, (zero_add _).symm, (List.append_nil _).symm⟩
  rcases h p _ hp with hfault | ⟨b, p', hand, hrun, hp', hpost⟩
  · exact Or.inl hfault
  · exact Or.inr ⟨b, p', hand, hrun, hp'.library, hp'.own, hp'.output, hpost⟩

end Performs

end CEar.Process
