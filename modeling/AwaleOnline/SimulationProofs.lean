import AwaleOnline.GuardedRunProofs

/-!
# Simulations between guarded runs

A system that is more concrete than another: it has states the other does not tell apart, and
steps the other does not see.

* **`Reachable.simulate`** — forward simulation: when every concrete step is matched by one
  abstract step or by none, the concrete runs reach nothing the abstract ones do not;
* **`run_countdown`** — a measure that every step of a kind lowers by one counts how many of
  them a run can still take;
* **`run_progress`** — steps for all the work that is left can be made, or lead to where the
  system is stuck;
* **`acc_of_two`** — two measures, the second for the steps that leave the first alone.
-/

namespace GuardedRun

variable {σ ε ο τ ζ κ : Type} {step : σ → ε → Option (σ × ο)} {C : σ → ε → Prop}
  {init : σ → Prop} {step' : τ → ζ → Option (τ × κ)} {D : τ → ζ → Prop} {init' : τ → Prop}

/-- **FORWARD SIMULATION**, with steps that the abstract system does not see. -/
theorem Reachable.simulate {R : σ → τ → Prop} (h0 : ∀ s, init s → ∃ t, init' t ∧ R s t)
    (hstep : ∀ s t e s' o, Reachable step C init s → Reachable step' D init' t → R s t →
      C s e → step s e = some (s', o) →
      R s' t ∨ ∃ t' e' o', D t e' ∧ step' t e' = some (t', o') ∧ R s' t')
    {s : σ} (h : Reachable step C init s) : ∃ t, Reachable step' D init' t ∧ R s t := by
  induction h with
  | start hi =>
      obtain ⟨t, ht, hR⟩ := h0 _ hi
      exact ⟨t, .start ht, hR⟩
  | next hr hc hs ih =>
      obtain ⟨t, ht, hR⟩ := ih
      rcases hstep _ t _ _ _ hr ht hR hc hs with hR' | ⟨t', e', o', hD, hs', hR'⟩
      · exact ⟨t, ht, hR'⟩
      · exact ⟨t', .next ht hD hs', hR'⟩

/-- The simulation rule for a projection of the states. -/
theorem Reachable.project {f : σ → τ} (h0 : ∀ s, init s → init' (f s))
    (hstep : ∀ s e s' o, C s e → step s e = some (s', o) →
      f s' = f s ∨ ∃ e' o', D (f s) e' ∧ step' (f s) e' = some (f s', o'))
    {s : σ} (h : Reachable step C init s) : Reachable step' D init' (f s) := by
  have hsim : ∃ t, Reachable step' D init' t ∧ f s = t := by
    refine h.simulate (R := fun s t => f s = t) (fun s hs => ⟨f s, h0 s hs, rfl⟩) ?_
    rintro s t e s' o _ _ rfl hc hs
    rcases hstep s e s' o hc hs with heq | ⟨e', o', hD, hs'⟩
    · exact Or.inl heq
    · exact Or.inr ⟨f s', e', o', hD, hs', rfl⟩
  obtain ⟨t, ht, rfl⟩ := hsim
  exact ht

/-- A step of the system as one beside a history. -/
theorem recording_of_step {γ : Type} (record : σ → ε → γ → γ) (g : γ) {s s' : σ} {e : ε} {o : ο}
    (h : step s e = some (s', o)) :
    recording step record (s, g) e = some ((s', record s e g), o) := by
  show (step s e).map _ = _
  rw [h]
  rfl

/-- **COUNTDOWN RULE.**  Steps that each keep `I` and lower `work` by one: a run of them takes as
    many as it lowers `work` by. -/
theorem run_countdown {I : σ → Prop} {work : σ → Nat} {P : ε → Prop}
    (hstep : ∀ s e s' o, I s → P e → step s e = some (s', o) →
      I s' ∧ work s = work s' + 1) :
    ∀ (es : List ε) {s t : σ} {os : List ο}, I s → (∀ e ∈ es, P e) →
      run step s es = some (t, os) → I t ∧ work s = work t + es.length := by
  intro es
  induction es with
  | nil =>
      intro s t os hs _ hr
      simp only [run, Option.some.injEq, Prod.mk.injEq] at hr
      exact ⟨hr.1 ▸ hs, congrArg work hr.1⟩
  | cons e es ih =>
      intro s t os hs hP hr
      obtain ⟨s', o, os', hs', hrest, -⟩ := run_cons hr
      obtain ⟨hI, hwork⟩ := hstep s e s' o hs (hP e List.mem_cons_self) hs'
      obtain ⟨hIt, hlen⟩ := ih hI (fun e' he' => hP e' (List.mem_cons_of_mem _ he')) hrest
      refine ⟨hIt, ?_⟩
      rw [hwork, hlen, List.length_cons]
      omega

/-- **PROGRESS RULE.**  Where there is work, a step that keeps `I` and lowers `work` by one is
    possible, or else the system is `Stuck`: steps for no more than the work can all be made, or
    the first ones of them lead to where it is stuck. -/
theorem run_progress {α : Type} {I : σ → Prop} {work : σ → Nat} {Stuck : σ → α → Prop} {f : α → ε}
    (hstep : ∀ s a, I s → 0 < work s →
      (∃ s' o, step s (f a) = some (s', o) ∧ I s' ∧ work s = work s' + 1) ∨ Stuck s a) :
    ∀ (as : List α) {s : σ}, I s → as.length ≤ work s →
      (run step s (as.map f)).isSome
        ∨ ∃ as₁ a as₂ t os, as = as₁ ++ a :: as₂ ∧ run step s (as₁.map f) = some (t, os)
          ∧ Stuck t a := by
  intro as
  induction as with
  | nil => exact fun _ _ => Or.inl rfl
  | cons a as ih =>
      intro s hs hle
      rw [List.length_cons] at hle
      rcases hstep s a hs (by omega) with ⟨s', o, hs', hI, hwork⟩ | hstuck
      · have hrun : ∀ es, run step s (f a :: es) = (run step s' es).map fun r => (r.1, o :: r.2) := by
          intro es
          simp only [run, hs']
        rcases ih hI (by omega) with hsome | ⟨as₁, b, as₂, t, os, rfl, hfirst, hstuck⟩
        · refine Or.inl ?_
          rw [List.map_cons, hrun, Option.isSome_map]
          exact hsome
        · refine Or.inr ⟨a :: as₁, b, as₂, t, o :: os, rfl, ?_, hstuck⟩
          rw [List.map_cons, hrun, hfirst]
          rfl
      · exact Or.inr ⟨[], a, as, s, [], rfl, rfl, hstuck⟩

/-- **TERMINATION RULE.**  A relation that keeps `I` and lowers `f`, or keeps `f` and lowers `g`,
    has no infinite descent from a state with `I`. -/
theorem acc_of_two {r : σ → σ → Prop} {I : σ → Prop} {f g : σ → Nat}
    (hstep : ∀ s s', I s → r s' s → I s' ∧ (f s' < f s ∨ (f s' = f s ∧ g s' < g s)))
    {s : σ} (hs : I s) : Acc r s := by
  induction hf : f s using Nat.strongRecOn generalizing s with
  | ind n ihf =>
      induction hg : g s using Nat.strongRecOn generalizing s with
      | ind m ihg =>
          refine ⟨s, fun s' hr => ?_⟩
          obtain ⟨hI, hlt | ⟨heq, hlt⟩⟩ := hstep s s' hs hr
          · exact ihf _ (hf ▸ hlt) hI rfl
          · exact ihg _ (hg ▸ hlt) hI (heq.trans hf) rfl

end GuardedRun
