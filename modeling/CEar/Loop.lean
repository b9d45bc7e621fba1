import Mathlib.Order.Basic

namespace CEar.Loop

variable {σ α : Type}

/-- What one turn of a loop body asks for: another turn from a new state, or
to leave the loop with a result. -/
inductive Control (σ α : Type)
  | next (s : σ)
  | done (a : α)

/-- At most `fuel` turns of a body. The result is `none` when the fuel runs
out and when the body itself faults. -/
def run (body : σ → Option (Control σ α)) : Nat → σ → Option α
  | 0, _ => none
  | fuel + 1, s =>
      match body s with
      | none => none
      | some (.next s') => run body fuel s'
      | some (.done a) => some a

theorem run_next {body : σ → Option (Control σ α)} {s s' : σ} (h : body s = some (.next s'))
    (fuel : Nat) : run body (fuel + 1) s = run body fuel s' := by
  simp only [run, h]

theorem run_done {body : σ → Option (Control σ α)} {s : σ} {a : α} (h : body s = some (.done a))
    (fuel : Nat) : run body (fuel + 1) s = some a := by
  simp only [run, h]

/-- Total correctness. The invariant holds on every turn, the measure falls on
every turn that asks for another one, and the exits establish the result. -/
theorem run_total {body : σ → Option (Control σ α)} (I : σ → Prop) (Q : α → Prop) (μ : σ → Nat)
    (hbody : ∀ s, I s →
      (∃ s', body s = some (.next s') ∧ I s' ∧ μ s' < μ s) ∨ ∃ a, body s = some (.done a) ∧ Q a)
    (fuel : Nat) (s : σ) (hs : I s) (hfuel : μ s < fuel) :
    ∃ a, run body fuel s = some a ∧ Q a := by
  induction fuel generalizing s with
  | zero => omega
  | succ fuel ih =>
      rcases hbody s hs with ⟨s', hstep, hs', hμ⟩ | ⟨a, hstep, ha⟩
      · obtain ⟨a, hrun, ha⟩ := ih s' hs' (by omega)
        exact ⟨a, by rw [run_next hstep, hrun], ha⟩
      · exact ⟨a, run_done hstep fuel, ha⟩

theorem run_eq {body : σ → Option (Control σ α)} (I : σ → Prop) (f : σ → α) (μ : σ → Nat)
    (hbody : ∀ s, I s →
      (∃ s', body s = some (.next s') ∧ I s' ∧ f s' = f s ∧ μ s' < μ s) ∨
        body s = some (.done (f s)))
    (fuel : Nat) (s : σ) (hs : I s) (hfuel : μ s < fuel) : run body fuel s = some (f s) := by
  obtain ⟨a, hrun, ha⟩ := run_total (fun t => I t ∧ f t = f s) (· = f s) μ
    (by
      rintro t ⟨ht, he⟩
      rcases hbody t ht with ⟨t', hstep, ht', hf, hμ⟩ | hstep
      · exact Or.inl ⟨t', hstep, ⟨ht', hf.trans he⟩, hμ⟩
      · exact Or.inr ⟨f t, hstep, he⟩)
    fuel s ⟨hs, rfl⟩ hfuel
  rw [hrun, ha]

end CEar.Loop
