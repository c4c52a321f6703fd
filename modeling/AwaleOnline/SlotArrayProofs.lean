import Mathlib.Algebra.GroupWithZero.Nat
import Mathlib.Logic.Function.Basic
import Mathlib.Data.List.Range

/-!
# Arrays of slots

A C array is modelled as a function from indices to values, together with a count of the
slots in use that its owner keeps elsewhere.  Writing a slot is `Function.update`.  This file
holds the deletion that C programs write by hand, for arbitrary contents:

* **`shiftDown a i n`** — `for (k = i; k < n; ++k) a[k] = a[k + 1];`, with its closed form;
* **`skip i`** — the index map that says where each surviving slot comes from: injective,
  never `i`, and onto every other slot;
* **`filterMap_skip`** — a scan over the surviving slots, against one over all of them;
* **`perm_update`** — what overwriting a slot does to the slots in use, taken together;
* **`sum_skip`**, **`sum_update`** — what a deletion and a write do to a sum over the slots;
* **`search_eq_some`** / **`search_eq_none`** — what a search loop over the slots in use
  finds: the first match, or no match at all.
-/

namespace SlotArray

variable {α : Type}

/-- `for (k = i; k < n; ++k) a[k] = a[k + 1];` -/
def shiftDown (a : Nat → α) (i n : Nat) : Nat → α :=
  (List.range' i (n - i)).foldl (fun a k => Function.update a k (a (k + 1))) a

private theorem shift_foldl (m : Nat) :
    ∀ (i : Nat) (a : Nat → α) (k : Nat),
      (List.range' i m).foldl (fun a k => Function.update a k (a (k + 1))) a k
        = if i ≤ k ∧ k < i + m then a (k + 1) else a k := by
  induction m with
  | zero =>
      intro i a k
      rw [if_neg (by omega)]
      rfl
  | succ m ih =>
      intro i a k
      rw [List.range'_succ, List.foldl_cons, ih]
      by_cases hk : k = i
      · subst hk
        rw [if_neg (by omega), if_pos (by omega), Function.update_self]
      · by_cases hin : i + 1 ≤ k ∧ k < i + 1 + m
        · rw [if_pos hin, if_pos (by omega), Function.update_of_ne (by omega)]
        · rw [if_neg hin, if_neg (by omega), Function.update_of_ne hk]

/-- **Closed form of the shift.** -/
theorem shiftDown_apply (a : Nat → α) (i n k : Nat) :
    shiftDown a i n k = if i ≤ k ∧ k < n then a (k + 1) else a k := by
  rw [shiftDown, shift_foldl]
  by_cases h : i ≤ k ∧ k < n
  · rw [if_pos h, if_pos (by omega)]
  · rw [if_neg h, if_neg (by omega)]

/-- Where slot `k` of the shifted array comes from. -/
def skip (i k : Nat) : Nat := if k < i then k else k + 1

theorem skip_injective (i : Nat) {k k' : Nat} (h : skip i k = skip i k') : k = k' := by
  simp only [skip] at h
  split at h <;> split at h <;> omega

theorem skip_ne (i k : Nat) : skip i k ≠ i := by
  simp only [skip]
  split <;> omega

theorem skip_lt {i k n : Nat} (h : k < n) : skip i k < n + 1 := by
  simp only [skip]
  split <;> omega

/-- Below the new count, the shifted array is the old one read through `skip`. -/
theorem shiftDown_skip (a : Nat → α) {i n k : Nat} (hk : k < n) :
    shiftDown a i n k = a (skip i k) := by
  rw [shiftDown_apply, skip]
  by_cases h : k < i
  · rw [if_neg (by omega), if_pos h]
  · rw [if_pos (by omega), if_neg h]

/-- Every slot but the deleted one survives, and `skip` names its new place. -/
theorem exists_skip {i j n : Nat} (hj : j < n + 1) (hne : j ≠ i) (hi : i ≤ n) :
    ∃ k, k < n ∧ skip i k = j := by
  by_cases h : j < i
  · exact ⟨j, by omega, if_pos h⟩
  · refine ⟨j - 1, by omega, ?_⟩
    rw [skip, if_neg (by omega)]
    omega

/-- A loop over the slots, up to one of them and from it on. -/
theorem range_split {i n : Nat} (hi : i ≤ n) :
    List.range n = List.range i ++ List.range' i (n - i) := by
  calc List.range n = List.range (i + (n - i)) := by rw [Nat.add_sub_cancel' hi]
    _ = List.range i ++ List.range' i (n - i) := by
        rw [List.range_add, List.range'_eq_map_range]

/-- The indices `skip` reads, in order: all but the deleted one. -/
theorem map_skip_range {i n : Nat} (hi : i ≤ n) :
    (List.range n).map (skip i) = List.range i ++ List.range' (i + 1) (n - i) := by
  rw [range_split hi, List.map_append]
  congr 1
  · refine (List.map_congr_left fun k hk => ?_).trans (List.map_id _)
    exact if_pos (List.mem_range.mp hk)
  · rw [Nat.add_comm i 1, ← List.map_add_range' i]
    refine List.map_congr_left fun k hk => ?_
    have hle : i ≤ k := (List.mem_range'_1.mp hk).1
    rw [skip, if_neg (by omega), Nat.add_comm]

/-- What a scan over the slots collects does not change with a slot that gives nothing. -/
theorem filterMap_skip {β : Type} {f : Nat → Option β} {i n : Nat} (hi : i ≤ n)
    (hf : f i = none) :
    (List.range n).filterMap (fun k => f (skip i k)) = (List.range (n + 1)).filterMap f := by
  have hfirst : List.range' i (n + 1 - i) = i :: List.range' (i + 1) (n - i) := by
    rw [Nat.succ_sub hi, List.range'_succ]
  calc (List.range n).filterMap (fun k => f (skip i k))
      = ((List.range n).map (skip i)).filterMap f := (List.filterMap_map ..).symm
    _ = (List.range (n + 1)).filterMap f := by
        rw [map_skip_range hi, range_split (Nat.le_succ_of_le hi), hfirst,
          List.filterMap_append, List.filterMap_append, List.filterMap_cons_none hf]

/-- What the slots add up to, in terms of the deleted one and the others. -/
theorem sum_skip (f : Nat → Nat) {i n : Nat} (hi : i ≤ n) :
    ((List.range (n + 1)).map f).sum
      = f i + ((List.range n).map fun k => f (skip i k)).sum := by
  have hfirst : List.range' i (n + 1 - i) = i :: List.range' (i + 1) (n - i) := by
    rw [Nat.succ_sub hi, List.range'_succ]
  have hrest : (List.range n).map (fun k => f (skip i k)) = ((List.range n).map (skip i)).map f :=
    (List.map_map ..).symm
  rw [hrest, map_skip_range hi, range_split (Nat.le_succ_of_le hi), hfirst]
  simp only [List.map_append, List.map_cons, List.sum_append, List.sum_cons]
  omega

/-! ## One slot overwritten -/

/-- Of the slots in use, taken together, only the old value goes and the new one comes. -/
theorem perm_update {β : Type} (f : Nat → β) (b : β) {j n : Nat} (hj : j < n) :
    (f j :: (List.range n).map (Function.update f j b)).Perm (b :: (List.range n).map f) := by
  obtain ⟨m, hm⟩ : ∃ m, n - j = m + 1 := ⟨n - j - 1, by omega⟩
  have hfirst : List.range n = List.range j ++ j :: List.range' (j + 1) m := by
    rw [range_split (Nat.le_of_lt hj), hm, List.range'_succ]
  have hfront : (List.range j).map (Function.update f j b) = (List.range j).map f :=
    List.map_congr_left fun k hk =>
      Function.update_of_ne (Nat.ne_of_lt (List.mem_range.mp hk)) b f
  have hback : (List.range' (j + 1) m).map (Function.update f j b)
      = (List.range' (j + 1) m).map f :=
    List.map_congr_left fun k hk =>
      Function.update_of_ne (Nat.ne_of_gt (List.mem_range'_1.mp hk).1) b f
  rw [hfirst, List.map_append, List.map_append, List.map_cons, List.map_cons, hfront, hback,
    Function.update_self]
  -- both values are moved to the front of the same list
  have hnew : ((List.range j).map f ++ b :: (List.range' (j + 1) m).map f).Perm
      (b :: ((List.range j).map f ++ (List.range' (j + 1) m).map f)) := List.perm_middle
  have hold : ((List.range j).map f ++ f j :: (List.range' (j + 1) m).map f).Perm
      (f j :: ((List.range j).map f ++ (List.range' (j + 1) m).map f)) := List.perm_middle
  exact (hnew.cons (f j)).trans ((List.Perm.swap ..).trans (hold.symm.cons b))

theorem sum_update (f : Nat → Nat) (b : Nat) {j n : Nat} (hj : j < n) :
    f j + ((List.range n).map (Function.update f j b)).sum = b + ((List.range n).map f).sum := by
  have hsum := (perm_update f b hj).sum_nat
  rwa [List.sum_cons, List.sum_cons] at hsum

/-! ## Search loops -/

section Search

variable {p : Nat → Prop} [DecidablePred p] {n i : Nat}

/-- `for (i = 0; i < n; ++i) if (p(i)) break;` stops at the first match. -/
theorem search_eq_some :
    (List.range n).find? (fun i => p i) = some i ↔ i < n ∧ p i ∧ ∀ k < i, ¬ p k := by
  rw [List.find?_range_eq_some]
  simp only [decide_eq_true_eq, List.mem_range, Bool.not_eq_eq_eq_not, Bool.not_true,
    decide_eq_false_iff_not]
  constructor
  · rintro ⟨hp, hi, hfirst⟩
    exact ⟨hi, hp, hfirst⟩
  · rintro ⟨hi, hp, hfirst⟩
    exact ⟨hp, hi, hfirst⟩

theorem search_eq_none :
    (List.range n).find? (fun i => p i) = none ↔ ∀ i < n, ¬ p i := by
  simp only [List.find?_eq_none, List.mem_range, decide_eq_true_eq]

end Search

end SlotArray
