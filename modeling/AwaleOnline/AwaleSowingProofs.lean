import AwaleOnline.AwaleConservationProofs
import AwaleOnline.RingSowingProofs

/-!
# Sowing in closed form

The sowing loop of `game_play` deals the seeds of a house round the ring of the other eleven.
Its index runs freely and is reduced at every use; the last house is reconstructed from it.

* **`sown`**, **`lastHouse`** — the board and the last house, read off the number of seeds;
* **`Paced`** — where the loop is after `t` seeds, under any arithmetic; **`Dealt`** adds the
  board, under exact stores;
* **`sowing_closed_form`** — the loop ends, with that board and that last house.
-/

namespace AwaleSowing

open AwaleGame AwaleConservation RingSowing

variable {A A' : Arith} {b : Board} {n pos t : Nat} {w : Sowing} {h : Fin boardSize}

/-! ## The closed form -/

/-- How many houses clockwise from `pos` house `h` is. -/
def distance (pos : Nat) (h : Fin boardSize) : Nat := (h + (boardSize - pos)) % boardSize

/-- The board after house `pos` was sown. -/
def sown (b : Board) (pos : Nat) : Board := fun h =>
  if h.val = pos then 0
  else b h + b (house pos) / 11 + if distance pos h ≤ b (house pos) % 11 then 1 else 0

/-- The house of the last seed. -/
def lastHouse (b : Board) (pos : Nat) : Nat :=
  (pos + b (house pos) + (b (house pos) - 1) / 11) % boardSize

theorem distance_pos (hpos : pos < boardSize) (hh : h.val ≠ pos) :
    0 < distance pos h ∧ distance pos h ≤ 11 := by
  have hlt := h.isLt
  simp only [distance, boardSize] at hlt hpos ⊢
  omega

/-- The house at a distance of `k`. -/
theorem eq_house_iff (hpos : pos < boardSize) (k : Nat) :
    h = house (pos + k) ↔ distance pos h = k % boardSize := by
  have hlt := h.isLt
  rw [Fin.ext_iff]
  simp only [distance, house, boardSize] at hlt hpos ⊢
  omega

/-! ## The index -/

/-- The loop after `t` of `n` seeds: what is in hand, and where the hand is. -/
structure Paced (pos n t : Nat) (w : Sowing) : Prop where
  hand : w.seedsToSow + t = n
  index : ∃ k, w.i = pos + k ∧ Head 11 t k
  last : w.seedsToSow = 0 → 0 < t → w.i = pos + (reach 11 (t - 1) + 1)

/-- A round passes the origin over or sows one seed on the next house of the ring. -/
theorem Paced.step (hpos : pos < boardSize) (hp : Paced pos n t w) (hseeds : w.seedsToSow > 0)
    (A : Arith) :
    (sowStep A pos w = { w with i := w.i + 1 } ∧ Paced pos n t (sowStep A pos w))
      ∨ (sowStep A pos w = ⟨Function.update w.board (house (pos + reach 11 t))
            (A.house (w.board (house (pos + reach 11 t)) + 1)), w.i + 1, w.seedsToSow - 1⟩
        ∧ Paced pos n (t + 1) (sowStep A pos w)) := by
  obtain ⟨k, hk, hhead⟩ := hp.index
  have horigin : w.i % boardSize = pos ↔ k % (11 + 1) = 0 := by
    simp only [hk, boardSize] at hpos ⊢
    omega
  by_cases hi : w.i % boardSize = pos
  · have hstep : sowStep A pos w = { w with i := w.i + 1 } := by
      rw [sowStep, if_neg (not_not.mpr hi)]
    refine Or.inl ⟨hstep, ?_⟩
    rw [hstep]
    refine ⟨hp.hand, ⟨k + 1, congrArg (· + 1) hk, hhead.pass (by decide) (horigin.mp hi)⟩, ?_⟩
    intro hzero
    exact absurd hzero (Nat.ne_of_gt hseeds)
  · obtain ⟨-, rfl⟩ := hhead.drop (by decide) (mt horigin.mpr hi)
    have hstep : sowStep A pos w = ⟨Function.update w.board (house (pos + reach 11 t))
        (A.house (w.board (house (pos + reach 11 t)) + 1)), w.i + 1, w.seedsToSow - 1⟩ := by
      rw [sowStep, if_pos hi, hk]
    refine Or.inr ⟨hstep, ?_⟩
    rw [hstep]
    refine ⟨?_, ⟨reach 11 t + 1, congrArg (· + 1) hk, head_next 11 t⟩, fun _ _ => ?_⟩
    · have hhand := hp.hand
      show w.seedsToSow - 1 + (t + 1) = n
      omega
    · exact congrArg (· + 1) hk

/-- What a round preserves, the loop preserves. -/
theorem sow_invariant {P : Sowing → Prop}
    (hstep : ∀ w, w.seedsToSow > 0 → P w → P (sowStep A pos w)) :
    ∀ (fuel : Nat) (w : Sowing), P w → P (sow A pos fuel w) := by
  intro fuel
  induction fuel with
  | zero => intro w hw; exact hw
  | succ fuel ih =>
      intro w hw
      by_cases hseeds : w.seedsToSow > 0
      · rw [sow, if_pos hseeds]
        exact ih _ (hstep w hseeds hw)
      · rw [sow, if_neg hseeds]
        exact hw

/-- The loop is entered behind the origin, with the first seed still in hand. -/
theorem paced_start (n pos : Nat) (b : Board) : Paced pos n 0 ⟨b, pos + 1, n⟩ :=
  ⟨rfl, ⟨1, rfl, Or.inl rfl⟩, fun _ ht => absurd ht (Nat.lt_irrefl 0)⟩

theorem sow_paced (hpos : pos < boardSize) (A : Arith) (b : Board) (fuel : Nat) :
    ∃ t, Paced pos n t (sow A pos fuel ⟨b, pos + 1, n⟩) := by
  have hround : ∀ w, w.seedsToSow > 0 → (∃ t, Paced pos n t w)
      → ∃ t, Paced pos n t (sowStep A pos w) := by
    rintro w hseeds ⟨t, hp⟩
    rcases hp.step hpos hseeds A with ⟨-, hp'⟩ | ⟨-, hp'⟩
    · exact ⟨t, hp'⟩
    · exact ⟨t + 1, hp'⟩
  exact sow_invariant hround fuel _ ⟨0, paced_start n pos b⟩

/-- The last house as the code reconstructs it, whatever the stores do. -/
theorem sowHouse_last (hpos : pos < boardSize) (A : Arith) (hn : 0 < b (house pos)) :
    ((sowHouse A b pos).i - 1) % boardSize = lastHouse b pos := by
  obtain ⟨t, hp⟩ : ∃ t, Paced pos (b (house pos)) t (sowHouse A b pos) :=
    sow_paced hpos A _ _
  have hdone : (sowHouse A b pos).seedsToSow = 0 := sow_done _ _ (sowHouse_entry b)
  have hhand := hp.hand
  rw [hdone, Nat.zero_add] at hhand
  subst hhand
  rw [hp.last hdone hn, lastHouse, reach]
  refine congrArg (· % boardSize) ?_
  omega

/-- The last seed falls on another house than the origin. -/
theorem lastHouse_ne (hn : 0 < b (house pos)) : lastHouse b pos ≠ pos := by
  have hreach := reach_mod (Nat.succ_pos 10) (b (house pos) - 1)
  simp only [lastHouse, reach, boardSize] at hreach ⊢
  omega

theorem lastHouse_lt (b : Board) (pos : Nat) : lastHouse b pos < boardSize :=
  Nat.mod_lt _ (Nat.succ_pos 11)

/-! ## The board -/

/-- After `t` seeds: the origin is empty, the other houses have their shares. -/
structure Dealt (b : Board) (pos n t : Nat) (w : Sowing) : Prop extends Paced pos n t w where
  board : ∀ h, w.board h = if h.val = pos then 0 else b h + share 11 t (distance pos h)

theorem distance_self (hpos : pos < boardSize) (hh : h.val = pos) : distance pos h = 0 := by
  simp only [distance, boardSize] at hpos ⊢
  omega

theorem Dealt.step (hpos : pos < boardSize) (hd : Dealt b pos n t w)
    (hseeds : w.seedsToSow > 0) : ∃ t', Dealt b pos n t' (sowStep unbounded pos w) := by
  rcases hd.toPaced.step hpos hseeds unbounded with ⟨hstep, hp⟩ | ⟨hstep, hp⟩
  · refine ⟨t, hp, ?_⟩
    rw [hstep]
    exact hd.board
  · refine ⟨t + 1, hp, fun h => ?_⟩
    have hplace : h = house (pos + reach 11 t) ↔ t % 11 + 1 = distance pos h := by
      rw [eq_house_iff hpos, show boardSize = 11 + 1 from rfl, reach_mod (by decide)]
      exact eq_comm
    rw [hstep]
    show Function.update w.board _ (w.board _ + 1) h = _
    by_cases hh : h = house (pos + reach 11 t)
    · have horigin : h.val ≠ pos := by
        intro hself
        have hzero := distance_self hpos hself
        have hmod := hplace.mp hh
        omega
      rw [← hh, Function.update_self, hd.board h, if_neg horigin, if_neg horigin, share_succ,
        if_pos (hplace.mp hh)]
      rfl
    · rw [Function.update_of_ne hh, hd.board h, share_succ, if_neg (mt hplace.mpr hh)]
      rfl

theorem dealt_start (b : Board) (hpos : pos < boardSize) :
    Dealt b pos n 0 ⟨Function.update b (house pos) 0, pos + 1, n⟩ := by
  refine ⟨paced_start n pos _, fun h => ?_⟩
  have hhouse : h = house pos ↔ h.val = pos := by
    rw [Fin.ext_iff]
    show h.val = pos % boardSize ↔ h.val = pos
    rw [Nat.mod_eq_of_lt hpos]
  show Function.update b (house pos) 0 h = _
  by_cases hh : h = house pos
  · rw [if_pos (hhouse.mp hh), hh, Function.update_self]
  · rw [Function.update_of_ne hh, if_neg (mt hhouse.mpr hh)]
    rfl

/-- Sowing without loss gives every house its share. -/
theorem sowHouse_unbounded (hpos : pos < boardSize) (b : Board) :
    (sowHouse unbounded b pos).board = sown b pos := by
  have hround : ∀ w, w.seedsToSow > 0 → (∃ t, Dealt b pos (b (house pos)) t w)
      → ∃ t, Dealt b pos (b (house pos)) t (sowStep unbounded pos w) := by
    rintro w hseeds ⟨t, hd⟩
    exact hd.step hpos hseeds
  obtain ⟨t, hd⟩ : ∃ t, Dealt b pos (b (house pos)) t (sowHouse unbounded b pos) :=
    sow_invariant hround _ _ ⟨0, dealt_start b hpos⟩
  have hdone : (sowHouse unbounded b pos).seedsToSow = 0 := sow_done _ _ (sowHouse_entry b)
  have hhand := hd.hand
  rw [hdone, Nat.zero_add] at hhand
  subst hhand
  funext h
  rw [hd.board h, sown]
  by_cases hh : h.val = pos
  · rw [if_pos hh, if_pos hh]
  · obtain ⟨hd0, hd1⟩ := distance_pos hpos hh
    rw [if_neg hh, if_neg hh, share_eq (by decide) hd0 hd1, Nat.add_assoc]

/-! ## The machine's houses -/

/-- The loop stores into houses only. -/
theorem sow_congr (hA : A.house = A'.house) :
    ∀ (fuel : Nat) (w : Sowing), sow A pos fuel w = sow A' pos fuel w := by
  intro fuel
  induction fuel with
  | zero => intro w; rfl
  | succ fuel ih =>
      intro w
      have hround : sowStep A pos w = sowStep A' pos w := by rw [sowStep, sowStep, hA]
      rw [sow, sow, hround, ih]

/-- A `uint8_t` holds every board of at most 255 seeds. -/
theorem houses_exact : ExactUpTo 255 ⟨machine.house, id⟩ where
  house _ hk := Nat.mod_eq_of_lt (Nat.lt_succ_of_le hk)
  captured _ _ _ := rfl

theorem sowHouse_machine (hpos : pos < boardSize) (hb : boardSum b ≤ 255) :
    (sowHouse machine b pos).board = sown b pos := by
  have hcongr : sowHouse machine b pos = sowHouse ⟨machine.house, id⟩ b pos :=
    sow_congr (show machine.house = (⟨machine.house, id⟩ : Arith).house from rfl) _ _
  rw [hcongr, sowHouse_exact houses_exact hb, sowHouse_unbounded hpos]

/-- Once the hand is empty, more rounds change nothing. -/
theorem sow_more (A : Arith) :
    ∀ (fuel : Nat) (w : Sowing), (sow A pos fuel w).seedsToSow = 0 →
      ∀ more, sow A pos (fuel + more) w = sow A pos fuel w := by
  intro fuel
  induction fuel with
  | zero =>
      intro w hw more
      have hnone : ¬ w.seedsToSow > 0 := Nat.not_lt.mpr (Nat.le_of_eq hw)
      cases more with
      | zero => rfl
      | succ more =>
          rw [Nat.zero_add]
          exact if_neg hnone
  | succ fuel ih =>
      intro w hw more
      rw [Nat.add_right_comm, sow]
      by_cases hseeds : w.seedsToSow > 0
      · rw [sow, if_pos hseeds] at hw
        rw [if_pos hseeds, ih _ hw, sow, if_pos hseeds]
      · rw [if_neg hseeds, sow, if_neg hseeds]

/-- **SOWING IN CLOSED FORM.**  With any number of rounds from two a seed on, the loop has ended
    by its own test.  Its house is empty, every other house at a distance `d` has got
    `n / 11` seeds, and one more if `d ≤ n % 11`; the last house is `lastHouse`, another one
    than it started from. -/
theorem sowing_closed_form (hpos : pos < boardSize) (hb : boardSum b ≤ 255)
    (hn : 0 < b (house pos)) :
    ∀ fuel, 2 * b (house pos) ≤ fuel →
      let w := sow machine pos fuel
        ⟨Function.update b (house pos) 0, pos + 1, b (house pos)⟩
      w = sowHouse machine b pos
        ∧ w.seedsToSow = 0
        ∧ w.board (house pos) = 0
        ∧ (∀ h : Fin boardSize, h.val ≠ pos →
            w.board h = b h + b (house pos) / 11
              + if distance pos h ≤ b (house pos) % 11 then 1 else 0)
        ∧ (w.i - 1) % boardSize
            = (pos + b (house pos) + (b (house pos) - 1) / 11) % boardSize
        ∧ (w.i - 1) % boardSize ≠ pos := by
  intro fuel hfuel w
  have hdone : (sowHouse machine b pos).seedsToSow = 0 := sow_done _ _ (sowHouse_entry b)
  obtain ⟨more, rfl⟩ := Nat.exists_eq_add_of_le hfuel
  have hw : w = sowHouse machine b pos := sow_more machine _ _ hdone more
  have hboard := sowHouse_machine hpos hb
  have hlast := sowHouse_last hpos machine hn
  rw [hw, hlast, hboard]
  refine ⟨rfl, hdone, ?_, ?_, rfl, lastHouse_ne hn⟩
  · exact if_pos (Nat.mod_eq_of_lt hpos)
  · intro h hh
    exact if_neg hh

/-- One seed in every house but house 2, which holds twelve: a lap and one seed more. -/
theorem sowing_closed_form_lap :
    let b : Board := fun h => if h.val = 2 then 12 else 1
    (sowHouse machine b 2).board = (fun h => if h.val = 2 then 0 else if h.val = 3 then 3 else 2)
      ∧ ((sowHouse machine b 2).i - 1) % boardSize = 3 := by
  intro b
  obtain ⟨hw, -, horigin, hothers, hlast, -⟩ :=
    sowing_closed_form (show 2 < boardSize by decide) (show boardSum b ≤ 255 by decide)
      (by decide) _ (Nat.le_refl _)
  rw [hw] at horigin hothers hlast
  refine ⟨funext fun h => ?_, hlast.trans (by decide)⟩
  by_cases hh : h.val = 2
  · have heq : h = house 2 := Fin.ext hh
    rw [if_pos hh, heq]
    exact horigin
  · rw [hothers h hh, if_neg hh]
    revert h
    decide

end AwaleSowing
