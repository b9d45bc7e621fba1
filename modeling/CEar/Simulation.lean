import Mathlib.Data.List.Basic

namespace CEar.Simulation

variable {σ τ ε : Type}

/-- The runs of a system from its first state, with what is observed of each step. -/
inductive Trace (init : σ) (step : σ → ε → σ → Prop) : List ε → σ → Prop
  | start : Trace init step [] init
  | next {es : List ε} {s s' : σ} {e : ε} (h : Trace init step es s) (hstep : step s e s') :
      Trace init step (es ++ [e]) s'

variable {init : σ} {step : σ → ε → σ → Prop} {init' : τ} {step' : τ → ε → τ → Prop}

theorem Trace.invariant {I : σ → Prop} (hinit : I init) (hpreserved : ∀ s e s', I s → step s e s' → I s')
    {es : List ε} {s : σ} (h : Trace init step es s) : I s := by
  induction h with
  | start => exact hinit
  | next h hstep ih => exact hpreserved _ _ _ ih hstep

/-- A run can be cut at any of its steps. -/
theorem Trace.split {es : List ε} {s : σ} (h : Trace init step es s) {before after : List ε} {e : ε}
    (hes : es = before ++ e :: after) :
    ∃ t t', Trace init step before t ∧ step t e t' ∧ Trace t' step after s := by
  induction h generalizing after with
  | start => simp at hes
  | @next es s s' e' h hstep ih =>
      rcases List.eq_nil_or_concat after with rfl | ⟨after', last, rfl⟩
      · obtain ⟨rfl, hlast⟩ := List.append_inj' hes rfl
        obtain rfl := List.singleton_inj.mp hlast
        exact ⟨s, s', h, hstep, .start⟩
      · rw [List.concat_eq_append, ← List.cons_append, ← List.append_assoc] at hes
        obtain ⟨hinit, hlast⟩ := List.append_inj' hes rfl
        obtain rfl := List.singleton_inj.mp hlast
        obtain ⟨t, t', hbefore, hmid, hafter⟩ := ih hinit
        rw [List.concat_eq_append]
        exact ⟨t, t', hbefore, hmid, .next hafter hstep⟩

/-- A forward simulation takes every run to one that is observed alike. -/
theorem Trace.simulated {R : σ → τ → Prop} (hinit : R init init')
    (hsimulates : ∀ s t e s', R s t → step s e s' → ∃ t', step' t e t' ∧ R s' t')
    {es : List ε} {s : σ} (h : Trace init step es s) : ∃ t, Trace init' step' es t ∧ R s t := by
  induction h with
  | start => exact ⟨init', .start, hinit⟩
  | next h hstep ih =>
      obtain ⟨t, htrace, hR⟩ := ih
      obtain ⟨t', hstep', hR'⟩ := hsimulates _ _ _ _ hR hstep
      exact ⟨t', .next htrace hstep', hR'⟩

end CEar.Simulation
