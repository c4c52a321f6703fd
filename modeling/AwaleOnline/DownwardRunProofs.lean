import Mathlib.Algebra.BigOperators.Group.Finset.Basic
import Mathlib.Order.Interval.Finset.Nat

/-!
# Downward runs

The longest run of indices below `n`, and not below `lo`, that ends at `n - 1` and on which a
predicate holds: what a loop visits that goes down from `n - 1` and stops at the first index
that fails the predicate.

* **`run_succ`** / **`run_of_not`** — the run as the loop builds it, index by index;
* **`run_holds`**, **`run_up`**, **`run_end`** — it is the longest run of consecutive indices;
* **`run_congr`**, **`run_add`** — it depends on the predicate there only, and moves with it.
-/

namespace DownwardRun

variable {p q : Nat → Prop} [DecidablePred p] [DecidablePred q] {lo n i j k : Nat}

/-- The indices from which on the predicate holds. -/
def run (p : Nat → Prop) [DecidablePred p] (lo n : Nat) : Finset Nat :=
  {i ∈ Finset.Ico lo n | ∀ j ∈ Finset.Ico i n, p j}

theorem mem_run : i ∈ run p lo n ↔ (lo ≤ i ∧ i < n) ∧ ∀ j, i ≤ j → j < n → p j := by
  simp only [run, Finset.mem_filter, Finset.mem_Ico, and_imp]

theorem run_holds (h : i ∈ run p lo n) : p i := by
  obtain ⟨⟨-, hlt⟩, hall⟩ := mem_run.mp h
  exact hall i (Nat.le_refl i) hlt

theorem run_lt (h : i ∈ run p lo n) : i < n := (mem_run.mp h).1.2

theorem run_ge (h : i ∈ run p lo n) : lo ≤ i := (mem_run.mp h).1.1

/-- The run has no gaps and reaches up to `n - 1`. -/
theorem run_up (h : i ∈ run p lo n) (hij : i ≤ j) (hj : j < n) : j ∈ run p lo n := by
  obtain ⟨⟨hlo, -⟩, hall⟩ := mem_run.mp h
  exact mem_run.mpr ⟨⟨Nat.le_trans hlo hij, hj⟩, fun k hk => hall k (Nat.le_trans hij hk)⟩

/-- It ends where the predicate fails, or at the bound. -/
theorem run_end (h : i + 1 ∈ run p lo n) (hi : i ∉ run p lo n) : i < lo ∨ ¬ p i := by
  by_contra hc
  obtain ⟨hlo, hp⟩ := not_or.mp hc
  obtain ⟨⟨-, hlt⟩, hall⟩ := mem_run.mp h
  refine hi (mem_run.mpr ⟨⟨Nat.not_lt.mp hlo, Nat.lt_of_succ_lt hlt⟩, fun j hij hj => ?_⟩)
  rcases Nat.eq_or_lt_of_le hij with rfl | hlt'
  · exact not_not.mp hp
  · exact hall j hlt' hj

/-! ## Index by index -/

theorem run_zero : run p lo 0 = ∅ := by
  ext i
  simp [mem_run]

theorem run_succ (hlo : lo ≤ n) (hp : p n) : run p lo (n + 1) = insert n (run p lo n) := by
  ext i
  rw [Finset.mem_insert, mem_run, mem_run]
  constructor
  · rintro ⟨⟨hi, hlt⟩, hall⟩
    rcases Nat.eq_or_lt_of_le (Nat.le_of_lt_succ hlt) with rfl | hlt'
    · exact Or.inl rfl
    · exact Or.inr ⟨⟨hi, hlt'⟩, fun j hij hj => hall j hij (Nat.lt_succ_of_lt hj)⟩
  · rintro (rfl | ⟨⟨hi, hlt⟩, hall⟩)
    · refine ⟨⟨hlo, Nat.lt_succ_self i⟩, fun j hij hj => ?_⟩
      rw [Nat.le_antisymm (Nat.le_of_lt_succ hj) hij]
      exact hp
    · refine ⟨⟨hi, Nat.lt_succ_of_lt hlt⟩, fun j hij hj => ?_⟩
      rcases Nat.eq_or_lt_of_le (Nat.le_of_lt_succ hj) with rfl | hj'
      · exact hp
      · exact hall j hij hj'

theorem run_of_not (h : ¬ (n ≥ lo ∧ p n)) : run p lo (n + 1) = ∅ := by
  refine Finset.eq_empty_of_forall_notMem fun i hi => ?_
  obtain ⟨⟨hlo, hlt⟩, hall⟩ := mem_run.mp hi
  have hle : i ≤ n := Nat.le_of_lt_succ hlt
  exact h ⟨Nat.le_trans hlo hle, hall n hle (Nat.lt_succ_self n)⟩

theorem not_mem_run_self : n ∉ run p lo n := fun h => absurd (run_lt h) (Nat.lt_irrefl n)

/-! ## Another predicate, another origin -/

theorem run_congr (h : ∀ j, lo ≤ j → j < n → (p j ↔ q j)) : run p lo n = run q lo n := by
  ext i
  rw [mem_run, mem_run]
  refine and_congr_right fun ⟨hlo, _⟩ => forall_congr' fun j => ?_
  exact forall_congr' fun hij => forall_congr' fun hj => h j (Nat.le_trans hlo hij) hj

/-- The indices moved up by `k`. -/
def upBy (k : Nat) : Nat ↪ Nat := ⟨fun i => i + k, fun _ _ h => Nat.add_right_cancel h⟩

theorem mem_run_add : i + k ∈ run p (lo + k) (n + k) ↔ i ∈ run (fun j => p (j + k)) lo n := by
  rw [mem_run, mem_run, Nat.add_le_add_iff_right, Nat.add_lt_add_iff_right]
  refine and_congr_right fun _ => ⟨fun h j hij hj => ?_, fun h j hij hj => ?_⟩
  · exact h (j + k) (Nat.add_le_add_right hij k) (Nat.add_lt_add_right hj k)
  · obtain ⟨j, rfl⟩ := Nat.exists_eq_add_of_le' (Nat.le_of_add_left_le hij)
    exact h j (Nat.le_of_add_le_add_right hij) (Nat.lt_of_add_lt_add_right hj)

theorem run_add (p : Nat → Prop) [DecidablePred p] (lo n k : Nat) :
    run p (lo + k) (n + k) = (run (fun j => p (j + k)) lo n).map (upBy k) := by
  ext i
  rw [Finset.mem_map]
  constructor
  · intro hi
    obtain ⟨i, rfl⟩ := Nat.exists_eq_add_of_le' (Nat.le_of_add_left_le (run_ge hi))
    exact ⟨i, mem_run_add.mp hi, rfl⟩
  · rintro ⟨j, hj, rfl⟩
    exact mem_run_add.mpr hj

end DownwardRun
