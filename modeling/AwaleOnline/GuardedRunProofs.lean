import Mathlib.Data.List.Basic

/-!
# Guarded runs of a deterministic system

A system is a partial step function `step : σ → ε → Option (σ × ο)`: on an event it moves
to a new state and emits an output, or it has no move.  This file holds what every
development over such a system needs, for arbitrary states, events and outputs:

* **`Reachable step C init`** — the states reached from an initial one by steps that each
  meet a condition `C` on the state *before* the step and the event;
* **`Reachable.invariant`** — the induction rule: what holds initially and is preserved by
  every conditioned step holds of every reachable state;
* **`recording`** — the same system with a history beside its state, and **`Reachable.forget`**;
* **`run`** / **`Meets`** — runs over a given list of events, executable, with the outputs;
* **`run_related`** — the two-run rule: a relation preserved by matched steps with equal
  outputs is preserved by whole runs, and the runs emit the same outputs.
-/

namespace GuardedRun

variable {σ ε ο : Type}

/-- The states reached from an initial state by steps that all meet `C`. -/
inductive Reachable (step : σ → ε → Option (σ × ο)) (C : σ → ε → Prop)
    (init : σ → Prop) : σ → Prop where
  | start {s : σ} : init s → Reachable step C init s
  | next {s s' : σ} {e : ε} {o : ο} :
      Reachable step C init s → C s e → step s e = some (s', o) →
      Reachable step C init s'

/-- The condition that excludes nothing. -/
def Always : σ → ε → Prop := fun _ _ => True

variable {step : σ → ε → Option (σ × ο)} {C D : σ → ε → Prop} {init : σ → Prop}

/-- **INVARIANT RULE.**  What holds initially and is preserved by every conditioned step
    holds of every reachable state. -/
theorem Reachable.invariant {I : σ → Prop} (h0 : ∀ s, init s → I s)
    (hstep : ∀ s e s' o, I s → C s e → step s e = some (s', o) → I s')
    {s : σ} (h : Reachable step C init s) : I s := by
  induction h with
  | start hi => exact h0 _ hi
  | next _ hc hs ih => exact hstep _ _ _ _ ih hc hs

/-- The invariant rule with the reachability of the pre-state at hand: used to bring in
    invariants already proved. -/
theorem Reachable.invariant_of {I : σ → Prop} (h0 : ∀ s, init s → I s)
    (hstep : ∀ s e s' o, Reachable step C init s → I s → C s e →
      step s e = some (s', o) → I s')
    {s : σ} (h : Reachable step C init s) : I s := by
  induction h with
  | start hi => exact h0 _ hi
  | next hr hc hs ih => exact hstep _ _ _ _ hr ih hc hs

/-- A weaker condition reaches more. -/
theorem Reachable.mono (hCD : ∀ s e, C s e → D s e) {s : σ}
    (h : Reachable step C init s) : Reachable step D init s := by
  induction h with
  | start hi => exact .start hi
  | next _ hc hs ih => exact .next ih (hCD _ _ hc) hs

/-! ## A history beside the state -/

/-- The system with a history `γ` that `record` extends at every step and nothing reads. -/
def recording {γ : Type} (step : σ → ε → Option (σ × ο)) (record : σ → ε → γ → γ)
    (p : σ × γ) (e : ε) : Option ((σ × γ) × ο) :=
  (step p.1 e).map fun r => ((r.1, record p.1 e p.2), r.2)

theorem recording_eq_some {γ : Type} {record : σ → ε → γ → γ} {p p' : σ × γ} {e : ε} {o : ο}
    (h : recording step record p e = some (p', o)) :
    step p.1 e = some (p'.1, o) ∧ p'.2 = record p.1 e p.2 := by
  obtain ⟨r, hr, heq⟩ := Option.map_eq_some_iff.mp h
  obtain ⟨rfl, rfl⟩ := Prod.mk.inj heq
  exact ⟨hr, rfl⟩

/-- Forgetting the history gives a run of the system itself. -/
theorem Reachable.forget {γ : Type} {record : σ → ε → γ → γ} {g : γ} {p : σ × γ}
    (h : Reachable (recording step record) (fun p e => C p.1 e)
      (fun p => init p.1 ∧ p.2 = g) p) : Reachable step C init p.1 := by
  induction h with
  | start hi => exact .start hi.1
  | next _ hc hs ih => exact .next ih hc (recording_eq_some hs).1

/-! ## Runs over a list of events -/

/-- Run a list of events, collecting the outputs; `none` when a step has no move. -/
def run (step : σ → ε → Option (σ × ο)) : σ → List ε → Option (σ × List ο)
  | s, [] => some (s, [])
  | s, e :: es =>
      match step s e with
      | none => none
      | some (s', o) => (run step s' es).map fun r => (r.1, o :: r.2)

/-- Every step of the run meets `C` in the state in which it is taken. -/
def Meets (step : σ → ε → Option (σ × ο)) (C : σ → ε → Prop) : σ → List ε → Prop
  | _, [] => True
  | s, e :: es =>
      C s e ∧ match step s e with
        | none => True
        | some (s', _) => Meets step C s' es

instance decidableMeets [∀ s e, Decidable (C s e)] :
    ∀ (es : List ε) (s : σ), Decidable (Meets step C s es)
  | [], _ => isTrue trivial
  | e :: es, s =>
      match hs : step s e with
      | none => decidable_of_iff (C s e) (by simp [Meets, hs])
      | some (s', _) =>
          haveI := decidableMeets es s'
          decidable_of_iff (C s e ∧ Meets step C s' es) (by simp [Meets, hs])

theorem meets_always (es : List ε) : ∀ s : σ, Meets step Always s es := by
  induction es with
  | nil => exact fun _ => trivial
  | cons e es ih =>
      intro s
      refine ⟨trivial, ?_⟩
      cases step s e with
      | none => trivial
      | some p => exact ih p.1

/-- One step of `run`. -/
theorem run_cons {s t : σ} {e : ε} {es : List ε} {os : List ο}
    (h : run step s (e :: es) = some (t, os)) :
    ∃ s' o os', step s e = some (s', o) ∧ run step s' es = some (t, os')
      ∧ os = o :: os' := by
  cases hs : step s e with
  | none => simp [run, hs] at h
  | some p =>
      obtain ⟨s', o⟩ := p
      cases hr : run step s' es with
      | none => simp [run, hs, hr] at h
      | some r =>
          obtain ⟨t', os'⟩ := r
          simp only [run, hs, hr, Option.map_some, Option.some.injEq,
            Prod.mk.injEq] at h
          exact ⟨s', o, os', rfl, by rw [hr, h.1], h.2.symm⟩

/-- A conditioned run leads from reachable states to reachable states. -/
theorem reachable_of_run :
    ∀ (es : List ε) {s t : σ} {os : List ο}, Reachable step C init s →
      Meets step C s es → run step s es = some (t, os) →
      Reachable step C init t := by
  intro es
  induction es with
  | nil =>
      intro s t os hs _ hr
      simp only [run, Option.some.injEq, Prod.mk.injEq] at hr
      exact hr.1 ▸ hs
  | cons e es ih =>
      intro s t os hs hm hr
      obtain ⟨s', o, os', hstep, hrest, -⟩ := run_cons hr
      obtain ⟨hc, hm'⟩ := hm
      rw [hstep] at hm'
      exact ih (.next hs hc hstep) hm' hrest

/-- A run that was evaluated, as a reachable state: used with `decide`, on a projection of
    the final state that can be compared. -/
theorem reachable_of_eval {β : Type} {f : σ → β} {b : β} {es : List ε} {s : σ}
    (hs : init s) (hm : Meets step C s es)
    (hr : (run step s es).map (fun r => f r.1) = some b) :
    ∃ t, Reachable step C init t ∧ f t = b := by
  obtain ⟨r, hrun, hf⟩ := Option.map_eq_some_iff.mp hr
  exact ⟨r.1, reachable_of_run es (.start hs) hm hrun, hf⟩

/-- **TWO-RUN RULE.**  If matched steps from related states emit the same output and end
    in related states, a conditioned run is matched by a run over the same events with
    the same outputs. -/
theorem run_related {R : σ → σ → Prop}
    (hstep : ∀ s t e s' o, R s t → C s e → step s e = some (s', o) →
      ∃ t', step t e = some (t', o) ∧ R s' t') :
    ∀ (es : List ε) {s t s' : σ} {os : List ο}, R s t → Meets step C s es →
      run step s es = some (s', os) →
      ∃ t', run step t es = some (t', os) ∧ R s' t' := by
  intro es
  induction es with
  | nil =>
      intro s t s' os hR _ hr
      simp only [run, Option.some.injEq, Prod.mk.injEq] at hr
      exact ⟨t, by rw [← hr.2]; rfl, hr.1 ▸ hR⟩
  | cons e es ih =>
      intro s t s' os hR hm hr
      obtain ⟨s₁, o, os₁, hs, hrest, hos⟩ := run_cons hr
      obtain ⟨hc, hm'⟩ := hm
      rw [hs] at hm'
      obtain ⟨t₁, ht, hR₁⟩ := hstep s t e s₁ o hR hc hs
      obtain ⟨t', ht', hR'⟩ := ih hR₁ hm' hrest
      refine ⟨t', ?_, hR'⟩
      simp only [run, ht, ht', Option.map_some, hos]

end GuardedRun
