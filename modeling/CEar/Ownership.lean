import Mathlib.Data.Multiset.AddSub
import Mathlib.Algebra.Order.Group.Multiset

namespace CEar.Ownership

variable {κ α β : Type}

/-- An acquired object: what releases it, and its identity. -/
abbrev Obj (κ : Type) := κ × Nat

/-- The objects acquired and not yet released. Identities are never reused, so
an object can leave the ledger once only. -/
structure Ledger (κ : Type) where
  next : Nat
  live : Multiset (Obj κ)
  fresh : ∀ o ∈ live, o.2 < next
  nodup : live.Nodup

namespace Ledger

def empty : Ledger κ := ⟨0, 0, by simp, Multiset.nodup_zero⟩

def insert (L : Ledger κ) (k : κ) : Ledger κ where
  next := L.next + 1
  live := (k, L.next) ::ₘ L.live
  fresh := by
    intro o ho
    rcases Multiset.mem_cons.mp ho with rfl | ho
    · exact Nat.lt_succ_self _
    · exact (L.fresh o ho).trans (Nat.lt_succ_self _)
  nodup := Multiset.nodup_cons.mpr ⟨fun h => lt_irrefl _ (L.fresh _ h), L.nodup⟩

def erase [DecidableEq κ] (L : Ledger κ) (o : Obj κ) : Ledger κ where
  next := L.next
  live := L.live.erase o
  fresh := fun p hp => L.fresh p (Multiset.mem_of_mem_erase hp)
  nodup := L.nodup.erase o

@[simp] theorem insert_live (L : Ledger κ) (k : κ) : (L.insert k).live = (k, L.next) ::ₘ L.live := rfl

@[simp] theorem erase_live [DecidableEq κ] (L : Ledger κ) (o : Obj κ) :
    (L.erase o).live = L.live.erase o := rfl

end Ledger

/-- A computation over the ledger. The result `none` is undefined behaviour:
a release of something that is not live, an access out of bounds. -/
def Exec (κ α : Type) := Ledger κ → Option (α × Ledger κ)

namespace Exec

instance : Monad (Exec κ) where
  pure a := fun L => some (a, L)
  bind x f := fun L => (x L).bind (fun p => f p.1 p.2)

instance : LawfulMonad (Exec κ) := LawfulMonad.mk' _
  (fun x => funext fun L => Option.bind_fun_some (x L))
  (fun _ _ => rfl)
  (fun x _ _ => funext fun L => Option.bind_assoc (x L) _ _)

def acquire (k : κ) : Exec κ Nat := fun L => some (L.next, L.insert k)

def release [DecidableEq κ] (k : κ) (id : Nat) : Exec κ Unit := fun L =>
  if (k, id) ∈ L.live then some ((), L.erase (k, id)) else none

def lift (o : Option α) : Exec κ α := fun L => o.map (fun a => (a, L))

def assert (p : Prop) [Decidable p] : Exec κ Unit := lift (if p then some () else none)

@[simp] theorem pure_apply (a : α) (L : Ledger κ) : (pure a : Exec κ α) L = some (a, L) := rfl

@[simp] theorem bind_apply (x : Exec κ α) (f : α → Exec κ β) (L : Ledger κ) :
    (x >>= f) L = (x L).bind (fun p => f p.1 p.2) := rfl

@[simp] theorem lift_some (a : α) : lift (some a) = (pure a : Exec κ α) := rfl

end Exec

/-- Started with the objects `pre` in hand and any others left alone, the
computation does not fault and ends with objects in hand as `post` says. -/
def Runs (pre : Multiset (Obj κ)) (x : Exec κ α) (post : α → Multiset (Obj κ) → Prop) : Prop :=
  ∀ (L : Ledger κ) (rest : Multiset (Obj κ)), L.live = pre + rest →
    ∃ a L' own, x L = some (a, L') ∧ L'.live = own + rest ∧ post a own

namespace Runs

open Exec

variable {pre own : Multiset (Obj κ)} {x : Exec κ α} {post mid : α → Multiset (Obj κ) → Prop}

theorem mono (h : Runs pre x mid) (hpost : ∀ a own, mid a own → post a own) :
    Runs pre x post := by
  intro L rest hL
  obtain ⟨a, L', own, hx, hL', ha⟩ := h L rest hL
  exact ⟨a, L', own, hx, hL', hpost a own ha⟩

theorem pure (a : α) (h : post a pre) : Runs pre (Pure.pure a) post := by
  intro L rest hL
  exact ⟨a, L, pre, rfl, hL, h⟩

theorem bind {f : α → Exec κ β} {post : β → Multiset (Obj κ) → Prop} (hx : Runs pre x mid)
    (hf : ∀ a own, mid a own → Runs own (f a) post) : Runs pre (x >>= f) post := by
  intro L rest hL
  obtain ⟨a, L', own, hrun, hL', ha⟩ := hx L rest hL
  obtain ⟨b, L'', own', hrun', hL'', hb⟩ := hf a own ha L' rest hL'
  exact ⟨b, L'', own', by simp [hrun, hrun'], hL'', hb⟩

theorem frame (d : Multiset (Obj κ)) (h : Runs pre x mid)
    (hpost : ∀ a own, mid a own → post a (own + d)) : Runs (pre + d) x post := by
  intro L rest hL
  obtain ⟨a, L', own, hx, hL', ha⟩ := h L (d + rest) (by rw [hL, add_assoc])
  exact ⟨a, L', own + d, hx, by rw [hL', add_assoc], hpost a own ha⟩

/-- A callee that starts with nothing leaves the caller's objects `d` alone. -/
theorem bindFrame {f : α → Exec κ β} {post : β → Multiset (Obj κ) → Prop} {d : Multiset (Obj κ)}
    (hx : Runs 0 x mid) (hf : ∀ a own, mid a own → Runs (own + d) (f a) post) :
    Runs d (x >>= f) post := by
  have hx' : Runs (0 + d) x (fun a own => ∃ own', mid a own' ∧ own = own' + d) :=
    hx.frame d fun a own ha => ⟨own, ha, rfl⟩
  rw [zero_add] at hx'
  apply bind hx'
  rintro a _ ⟨own, ha, rfl⟩
  exact hf a own ha

theorem lift {o : Option α} {a : α} (ho : o = some a) (h : post a pre) :
    Runs pre (Exec.lift o) post := by
  subst ho
  exact pure a h

theorem acquire (k : κ) {post : Nat → Multiset (Obj κ) → Prop}
    (h : ∀ id, post id ((k, id) ::ₘ pre)) : Runs pre (Exec.acquire k) post := by
  intro L rest hL
  refine ⟨L.next, L.insert k, (k, L.next) ::ₘ pre, rfl, ?_, h _⟩
  rw [Ledger.insert_live, hL, Multiset.cons_add]

theorem release [DecidableEq κ] {k : κ} {id : Nat} {post : Unit → Multiset (Obj κ) → Prop}
    (hpre : pre = (k, id) ::ₘ own) (h : post () own) : Runs pre (Exec.release k id) post := by
  intro L rest hL
  subst hpre
  have hmem : (k, id) ∈ L.live := by simp [hL]
  refine ⟨(), L.erase (k, id), own, if_pos hmem, ?_, h⟩
  rw [Ledger.erase_live, hL, Multiset.cons_add, Multiset.erase_cons_head]

theorem bindLift {o : Option α} {a : α} {f : α → Exec κ β} {post : β → Multiset (Obj κ) → Prop}
    (ho : o = some a) (h : Runs pre (f a) post) : Runs pre (Exec.lift o >>= f) post := by
  have hlift : Runs pre (Exec.lift o) (fun b own => b = a ∧ own = pre) := lift ho ⟨rfl, rfl⟩
  apply bind hlift
  rintro b own ⟨rfl, rfl⟩
  exact h

theorem bindAcquire (k : κ) {f : Nat → Exec κ β} {post : β → Multiset (Obj κ) → Prop}
    (h : ∀ id, Runs ((k, id) ::ₘ pre) (f id) post) : Runs pre (Exec.acquire k >>= f) post := by
  have hacquire : Runs pre (Exec.acquire k) (fun id own => own = (k, id) ::ₘ pre) :=
    acquire k fun _ => rfl
  apply bind hacquire
  rintro id own rfl
  exact h id

theorem bindRelease [DecidableEq κ] {k : κ} {id : Nat} {f : Unit → Exec κ β}
    {post : β → Multiset (Obj κ) → Prop} (hpre : pre = (k, id) ::ₘ own)
    (h : Runs own (f ()) post) : Runs pre (Exec.release k id >>= f) post := by
  have hrelease : Runs pre (Exec.release k id) (fun _ own' => own' = own) := release hpre rfl
  apply bind hrelease
  rintro _ own' rfl
  exact h

theorem run (h : Runs 0 x post) (L : Ledger κ) :
    ∃ a L' own, x L = some (a, L') ∧ L'.live = own + L.live ∧ post a own :=
  h L L.live (zero_add _).symm

theorem result (h : Runs 0 x post) {L L' : Ledger κ} {a : α} (hx : x L = some (a, L')) :
    ∃ own, L'.live = own + L.live ∧ post a own := by
  obtain ⟨b, M, own, hrun, hlive, hpost⟩ := h.run L
  rw [hx, Option.some.injEq, Prod.mk.injEq] at hrun
  obtain ⟨rfl, rfl⟩ := hrun
  exact ⟨own, hlive, hpost⟩

end Runs

/-- What is live after the computation was live before it, or is new. -/
def NoReuse (x : Exec κ α) : Prop :=
  ∀ L a L', x L = some (a, L') → L.next ≤ L'.next ∧ ∀ o ∈ L'.live, o ∈ L.live ∨ L.next ≤ o.2

namespace NoReuse

open Exec

theorem pure (a : α) : NoReuse (Pure.pure a : Exec κ α) := by
  intro L b L' h
  cases h
  exact ⟨le_rfl, fun o ho => Or.inl ho⟩

theorem bind {x : Exec κ α} {f : α → Exec κ β} (hx : NoReuse x) (hf : ∀ a, NoReuse (f a)) :
    NoReuse (x >>= f) := by
  intro L b L'' h
  obtain ⟨⟨a, L'⟩, hrun, hrest⟩ := Option.bind_eq_some_iff.mp h
  obtain ⟨hle, hlive⟩ := hx L a L' hrun
  obtain ⟨hle', hlive'⟩ := hf a L' b L'' hrest
  refine ⟨hle.trans hle', fun o ho => ?_⟩
  rcases hlive' o ho with hold | hnew
  · exact hlive o hold
  · exact Or.inr (hle.trans hnew)

theorem acquire (k : κ) : NoReuse (Exec.acquire k) := by
  intro L id L' h
  cases h
  refine ⟨Nat.le_succ _, fun o ho => ?_⟩
  rcases Multiset.mem_cons.mp ho with rfl | ho
  · exact Or.inr le_rfl
  · exact Or.inl ho

theorem release [DecidableEq κ] (k : κ) (id : Nat) : NoReuse (Exec.release k id) := by
  intro L u L' h
  by_cases hmem : (k, id) ∈ L.live
  · rw [Exec.release, if_pos hmem] at h
    cases h
    exact ⟨le_rfl, fun o ho => Or.inl (Multiset.mem_of_mem_erase ho)⟩
  · rw [Exec.release, if_neg hmem] at h
    cases h

theorem lift (o : Option α) : NoReuse (Exec.lift o : Exec κ α) := by
  cases o with
  | none =>
      intro L a L' h
      cases h
  | some a => exact pure a

end NoReuse

end CEar.Ownership
