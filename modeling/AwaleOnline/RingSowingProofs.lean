import Mathlib.Data.Int.CardIntervalMod

/-!
# Sowing round a ring

Items are dealt one by one to the places of a ring of `m + 1` places, from the place behind an
origin on, and the origin is passed over.  The origin is counted `0`, the others `1` to `m`.

* **`reach`** — how far from the origin item `t` falls, laps included; **`reach_mod`** says on
  which place that is;
* **`share`** / **`share_eq`** — how many of the first `n` items a place gets;
* **`Head`** — how far the dealing hand is, between two items; **`Head.pass`** and
  **`Head.drop`** are the two kinds of steps it makes.
-/

namespace RingSowing

variable {m t k n d : Nat}

/-- The lap is over with item `t`, and the count of the places starts again. -/
theorem succ_of_last (hm : 0 < m) (h : t % m + 1 = m) :
    (t + 1) / m = t / m + 1 ∧ (t + 1) % m = 0 := by
  refine (Nat.div_mod_unique hm).mpr ⟨?_, hm⟩
  have hsplit := Nat.mod_add_div t m
  rw [Nat.mul_add, Nat.mul_one]
  omega

theorem succ_of_not_last (hm : 0 < m) (h : t % m + 1 ≠ m) :
    (t + 1) / m = t / m ∧ (t + 1) % m = t % m + 1 := by
  have hlt := Nat.mod_lt t hm
  refine (Nat.div_mod_unique hm).mpr ⟨?_, by omega⟩
  have hsplit := Nat.mod_add_div t m
  omega

/-- The number of places from the origin to where item `t` falls. -/
def reach (m t : Nat) : Nat := t + t / m + 1

/-- Item `t` falls on place `t % m + 1`. -/
theorem reach_mod (hm : 0 < m) (t : Nat) : reach m t % (m + 1) = t % m + 1 := by
  have hlt : t % m + 1 < m + 1 := Nat.succ_lt_succ (Nat.mod_lt t hm)
  have hsplit : reach m t = t % m + 1 + (m + 1) * (t / m) := by
    have h := Nat.mod_add_div t m
    rw [reach, Nat.add_mul, Nat.one_mul]
    omega
  rw [hsplit, Nat.add_mul_mod_self_left, Nat.mod_eq_of_lt hlt]

/-- The number of items among the first `n` that fall on place `d`. -/
def share (m n d : Nat) : Nat := Nat.count (fun t => t % m + 1 = d) n

theorem share_succ (m n d : Nat) :
    share m (n + 1) d = share m n d + if n % m + 1 = d then 1 else 0 :=
  Nat.count_succ ..

/-- **SHARES.**  Every place gets an item a lap, and the first ones get one more. -/
theorem share_eq (hm : 0 < m) (hd : 0 < d) (hdm : d ≤ m) (n : Nat) :
    share m n d = n / m + if d ≤ n % m then 1 else 0 := by
  have hmod : (d - 1) % m = d - 1 := Nat.mod_eq_of_lt (by omega)
  have hcount : share m n d = Nat.count (· ≡ d - 1 [MOD m]) n := by
    rw [share, Nat.count_eq_card_filter_range, Nat.count_eq_card_filter_range]
    refine congrArg Finset.card (Finset.filter_congr fun t _ => ?_)
    show t % m + 1 = d ↔ t % m = (d - 1) % m
    omega
  rw [hcount, Nat.count_modEq_card n hm, hmod]
  refine congrArg (n / m + ·) (if_congr ?_ rfl rfl)
  omega

/-! ## The dealing hand -/

/-- After `t` items the hand is at the place of item `t`, or behind the one of the item before
    and has not looked yet whether that is the origin. -/
def Head (m t k : Nat) : Prop := k = reach m t ∨ (0 < t ∧ k = reach m (t - 1) + 1)

/-- A hand at the origin passes it over. -/
theorem Head.pass (hm : 0 < m) (h : Head m t k) (horigin : k % (m + 1) = 0) :
    Head m t (k + 1) := by
  rcases h with rfl | ⟨ht, rfl⟩
  · rw [reach_mod hm] at horigin
    cases horigin
  · obtain ⟨t, rfl⟩ : ∃ t', t = t' + 1 := ⟨t - 1, by omega⟩
    rw [Nat.add_sub_cancel] at horigin ⊢
    by_cases hlast : t % m + 1 = m
    · have hlap := succ_of_last hm hlast
      refine Or.inl ?_
      rw [reach, reach, hlap.1]
      omega
    · have hnext := succ_of_not_last hm hlast
      have heq : reach m t + 1 = reach m (t + 1) := by
        rw [reach, reach, hnext.1]
        omega
      rw [heq, reach_mod hm] at horigin
      cases horigin

/-- Elsewhere it is at the place of the next item. -/
theorem Head.drop (hm : 0 < m) (h : Head m t k) (horigin : k % (m + 1) ≠ 0) :
    k % (m + 1) = t % m + 1 ∧ k = reach m t := by
  have hk : k = reach m t := by
    rcases h with rfl | ⟨ht, rfl⟩
    · rfl
    · obtain ⟨t, rfl⟩ : ∃ t', t = t' + 1 := ⟨t - 1, by omega⟩
      rw [Nat.add_sub_cancel] at horigin ⊢
      by_cases hlast : t % m + 1 = m
      · -- behind the last place of the ring is the origin
        refine absurd ?_ horigin
        rw [Nat.add_mod, reach_mod hm, hlast]
        simp
      · rw [reach, reach, (succ_of_not_last hm hlast).1]
        omega
  subst hk
  exact ⟨reach_mod hm t, rfl⟩

/-- Behind the item it left there. -/
theorem head_next (m t : Nat) : Head m (t + 1) (reach m t + 1) := Or.inr ⟨Nat.succ_pos t, rfl⟩

end RingSowing
