import AwaleOnline.AwaleGameProofs
import Mathlib.Algebra.BigOperators.Group.Finset.Piecewise
import Mathlib.Algebra.Order.BigOperators.Group.Finset

/-!
# Seed conservation and the absence of wrap-around

The seeds on the board and the captured counts of the two players are one conserved total.
Conservation is proved loop by loop, for stores that are exact up to that total: a house or a
count never holds more than all the seeds, so no store can see a larger value, so the machine
run and the unbounded run are the same run.

* **`sow_total`** / **`sow_done`** — sowing moves every seed in hand to the board and ends;
* **`capture_total`** — capturing moves seeds from the board to the mover;
* **`gamePlay_exact`** — under any arithmetic that is exact up to the total, a call of
  `game_play` equals the unbounded call and conserves the total;
* **`conservation`** — the whole-run statement for a two-player game.
-/

namespace AwaleConservation

open AwaleGame

/-- The seeds on a board. -/
def boardSum (b : Board) : Nat := ∑ h, b h

theorem boardSum_update (b : Board) (k : Fin boardSize) (v : Nat) :
    boardSum (Function.update b k v) + b k = boardSum b + v := by
  have h1 : boardSum (Function.update b k v) = v + ∑ x ∈ Finset.univ \ {k}, b x :=
    Finset.sum_update_of_mem (Finset.mem_univ k) b v
  have h2 : b k + ∑ x ∈ Finset.univ \ {k}, b x = boardSum b := by
    rw [Finset.sdiff_singleton_eq_erase]
    exact Finset.add_sum_erase Finset.univ b (Finset.mem_univ k)
  omega

theorem le_boardSum (b : Board) (k : Fin boardSize) : b k ≤ boardSum b :=
  Finset.single_le_sum (fun _ _ => Nat.zero_le _) (Finset.mem_univ k)

/-- Stores that lose nothing up to `n`. -/
structure ExactUpTo (n : Nat) (A : Arith) : Prop where
  house : ∀ k, k ≤ n → A.house k = k
  captured : ∀ z : Int, 0 ≤ z → z ≤ n → A.captured z = z

/-- The machine's conversions are exact on what both fields can hold. -/
theorem machine_exact : ExactUpTo 127 machine where
  house k hk := Nat.mod_eq_of_lt (by omega)
  captured z h0 h1 := by
    show z.bmod 256 = z
    rw [Int.bmod_def]
    split <;> omega

theorem unbounded_exact (n : Nat) : ExactUpTo n unbounded where
  house _ _ := rfl
  captured _ _ _ := rfl

theorem ExactUpTo.mono {m n : Nat} {A : Arith} (h : ExactUpTo n A) (hmn : m ≤ n) :
    ExactUpTo m A where
  house k hk := h.house k (by omega)
  captured z h0 h1 := h.captured z h0 (by omega)

/-! ## Sowing -/

variable {A : Arith} {n pos : Nat}

/-- One round of the sowing loop moves at most one seed from the hand to the board. -/
theorem sowStep_total (pos : Nat) (hA : ExactUpTo n A) {w : Sowing} (hpos : w.seedsToSow > 0)
    (hn : boardSum w.board + w.seedsToSow ≤ n) :
    boardSum (sowStep A pos w).board + (sowStep A pos w).seedsToSow
      = boardSum w.board + w.seedsToSow := by
  simp only [sowStep]
  split
  · have hle := le_boardSum w.board (house w.i)
    have hst : A.house (w.board (house w.i) + 1) = w.board (house w.i) + 1 :=
      hA.house _ (by omega)
    have hsum := boardSum_update w.board (house w.i) (w.board (house w.i) + 1)
    show boardSum (Function.update w.board (house w.i) (A.house _)) + (w.seedsToSow - 1)
      = boardSum w.board + w.seedsToSow
    rw [hst]
    omega
  · rfl

/-- A round makes the store of the unbounded round. -/
theorem sowStep_exact (hA : ExactUpTo n A) {w : Sowing} (hpos : w.seedsToSow > 0)
    (hn : boardSum w.board + w.seedsToSow ≤ n) :
    sowStep A pos w = sowStep unbounded pos w := by
  have hle := le_boardSum w.board (house w.i)
  have hst : A.house (w.board (house w.i) + 1) = w.board (house w.i) + 1 :=
    hA.house _ (by omega)
  simp only [sowStep]
  rw [hst]
  rfl

theorem sow_total (hA : ExactUpTo n A) :
    ∀ (fuel : Nat) (w : Sowing), boardSum w.board + w.seedsToSow ≤ n →
      boardSum (sow A pos fuel w).board + (sow A pos fuel w).seedsToSow
        = boardSum w.board + w.seedsToSow := by
  intro fuel
  induction fuel with
  | zero => intro w _; rfl
  | succ fuel ih =>
      intro w hn
      by_cases hpos : w.seedsToSow > 0
      · have hstep := sowStep_total pos hA hpos hn
        rw [sow, if_pos hpos, ih _ (by omega), hstep]
      · rw [sow, if_neg hpos]

theorem sow_exact (hA : ExactUpTo n A) :
    ∀ (fuel : Nat) (w : Sowing), boardSum w.board + w.seedsToSow ≤ n →
      sow A pos fuel w = sow unbounded pos fuel w := by
  intro fuel
  induction fuel with
  | zero => intro w _; rfl
  | succ fuel ih =>
      intro w hn
      by_cases hpos : w.seedsToSow > 0
      · have hstep := sowStep_total pos hA hpos hn
        rw [sow, if_pos hpos, ih _ (by omega), sowStep_exact hA hpos hn, sow, if_pos hpos]
      · rw [sow, if_neg hpos, sow, if_neg hpos]

/-- The rounds the loop still needs: two for each seed, one more to pass the origin. -/
def roundsLeft (pos : Nat) (w : Sowing) : Nat :=
  2 * w.seedsToSow + if w.i % boardSize = pos then 1 else 0

theorem roundsLeft_sowStep (A : Arith) (pos : Nat) {w : Sowing} (hpos : w.seedsToSow > 0) :
    roundsLeft pos (sowStep A pos w) < roundsLeft pos w := by
  simp only [roundsLeft, sowStep]
  by_cases hi : w.i % boardSize = pos
  · -- the origin is skipped, and the next house is not the origin
    have hi' : ¬ (w.i + 1) % boardSize = pos := by
      simp only [boardSize] at hi ⊢
      omega
    simp only [hi, ne_eq, not_true_eq_false, if_false, hi', if_true]
    omega
  · simp only [hi, ne_eq, not_false_eq_true, if_true, if_false]
    split <;> omega

/-- **The sowing loop ends**: with enough rounds it leaves by its own test. -/
theorem sow_done :
    ∀ (fuel : Nat) (w : Sowing), roundsLeft pos w ≤ fuel →
      (sow A pos fuel w).seedsToSow = 0 := by
  intro fuel
  induction fuel with
  | zero =>
      intro w h
      simp only [roundsLeft] at h
      show w.seedsToSow = 0
      omega
  | succ fuel ih =>
      intro w h
      by_cases hpos : w.seedsToSow > 0
      · have hlt := roundsLeft_sowStep A pos hpos
        rw [sow, if_pos hpos]
        exact ih _ (by omega)
      · rw [sow, if_neg hpos]
        omega

/-- The state in which the sowing loop is entered. -/
theorem sowHouse_entry (b : Board) :
    roundsLeft pos
        { board := Function.update b (house pos) 0, i := pos + 1,
          seedsToSow := b (house pos) } ≤ 2 * b (house pos) := by
  have hne : ¬ (pos + 1) % boardSize = pos := by
    simp only [boardSize]
    omega
  simp only [roundsLeft, hne, if_false]
  omega

theorem sowHouse_hand (b : Board) :
    boardSum (Function.update b (house pos) 0) + b (house pos) = boardSum b := by
  have h := boardSum_update b (house pos) 0
  omega

theorem sowHouse_exact (hA : ExactUpTo n A) {b : Board} (hn : boardSum b ≤ n) :
    sowHouse A b pos = sowHouse unbounded b pos :=
  sow_exact hA _ _ (by rw [sowHouse_hand]; exact hn)

/-- Sowing a house keeps every seed on the board. -/
theorem sowHouse_total (pos : Nat) (hA : ExactUpTo n A) {b : Board} (hn : boardSum b ≤ n) :
    boardSum (sowHouse A b pos).board = boardSum b := by
  have htot : boardSum (sowHouse A b pos).board + (sowHouse A b pos).seedsToSow
      = boardSum (Function.update b (house pos) 0) + b (house pos) :=
    sow_total hA _ _ (by rw [sowHouse_hand]; exact hn)
  have hdone : (sowHouse A b pos).seedsToSow = 0 :=
    sow_done _ _ (sowHouse_entry b)
  rw [sowHouse_hand] at htot
  omega

/-! ## Capturing -/

variable {offset : Nat}

theorem capture_total (offset : Nat) (hA : ExactUpTo n A) :
    ∀ (k : Nat) (w : Board × Int), 0 ≤ w.2 → boardSum w.1 + w.2 ≤ n →
      boardSum (capture A offset k w).1 + (capture A offset k w).2 = boardSum w.1 + w.2
        ∧ w.2 ≤ (capture A offset k w).2 := by
  intro k
  induction k with
  | zero => intro w _ _; exact ⟨rfl, le_refl _⟩
  | succ i ih =>
      intro w h0 hn
      by_cases hc : i ≥ offset ∧ (w.1 (house i) = 2 ∨ w.1 (house i) = 3)
      · have hsum := boardSum_update w.1 (house i) 0
        have hst : A.captured (w.2 + w.1 (house i)) = w.2 + w.1 (house i) :=
          hA.captured _ (by omega) (by omega)
        rw [capture, if_pos hc, hst]
        obtain ⟨h1, h2⟩ := ih (Function.update w.1 (house i) 0, w.2 + w.1 (house i))
          (by show 0 ≤ w.2 + (w.1 (house i) : Int); omega)
          (by
            show (boardSum (Function.update w.1 (house i) 0) : Int)
              + (w.2 + w.1 (house i)) ≤ n
            omega)
        refine ⟨?_, ?_⟩
        · rw [h1]
          show (boardSum (Function.update w.1 (house i) 0) : Int)
            + (w.2 + w.1 (house i)) = boardSum w.1 + w.2
          omega
        · refine le_trans ?_ h2
          show w.2 ≤ w.2 + (w.1 (house i) : Int)
          omega
      · rw [capture, if_neg hc]
        exact ⟨rfl, le_refl _⟩

theorem capture_exact (hA : ExactUpTo n A) :
    ∀ (k : Nat) (w : Board × Int), 0 ≤ w.2 → boardSum w.1 + w.2 ≤ n →
      capture A offset k w = capture unbounded offset k w := by
  intro k
  induction k with
  | zero => intro w _ _; rfl
  | succ i ih =>
      intro w h0 hn
      by_cases hc : i ≥ offset ∧ (w.1 (house i) = 2 ∨ w.1 (house i) = 3)
      · have hsum := boardSum_update w.1 (house i) 0
        have hst : A.captured (w.2 + w.1 (house i)) = w.2 + w.1 (house i) :=
          hA.captured _ (by omega) (by omega)
        rw [capture, if_pos hc, hst, ih _ ?_ ?_, capture, if_pos hc]
        · rfl
        · show 0 ≤ w.2 + (w.1 (house i) : Int)
          omega
        · show (boardSum (Function.update w.1 (house i) 0) : Int)
            + (w.2 + w.1 (house i)) ≤ n
          omega
      · rw [capture, if_neg hc, capture, if_neg hc]

/-! ## A call of `game_play` -/

/-- All the seeds of a game. -/
def total (game : Game) : Int :=
  boardSum game.board + (game.players 0).captured + (game.players 1).captured

/-- The seeds of a game are `n`, and no count is negative. -/
structure Conserved (n : Nat) (game : Game) : Prop where
  total : total game = n
  first : 0 ≤ (game.players 0).captured
  second : 0 ≤ (game.players 1).captured

theorem Conserved.sum {game : Game} (h : Conserved n game) :
    (boardSum game.board : Int) + (game.players 0).captured + (game.players 1).captured = n :=
  h.total

theorem Conserved.board_le {game : Game} (h : Conserved n game) :
    boardSum game.board ≤ n := by
  have h1 := h.sum
  have h2 := h.first
  have h3 := h.second
  omega

theorem side_cases (side : Fin 2) : side = 0 ∨ side = 1 := by omega

theorem Conserved.captured_le {game : Game} (h : Conserved n game) (side : Fin 2) :
    0 ≤ (game.players side).captured
      ∧ boardSum game.board + (game.players side).captured ≤ n := by
  have h1 := h.sum
  have h2 := h.first
  have h3 := h.second
  rcases side_cases side with rfl | rfl
  · refine ⟨h2, ?_⟩
    show (boardSum game.board : Int) + (game.players 0).captured ≤ n
    omega
  · refine ⟨h3, ?_⟩
    show (boardSum game.board : Int) + (game.players 1).captured ≤ n
    omega

/-- Replacing the board and one player's count moves the total by what moved. -/
private theorem conserved_replace {game : Game} (h : Conserved n game) (side : Fin 2)
    {b : Board} {c : Int} (hc : (game.players side).captured ≤ c)
    (hsum : boardSum b + c = boardSum game.board + (game.players side).captured) :
    Conserved n { game with
      board := b
      players := Function.update game.players side
        { game.players side with captured := c } } := by
  have h1 := h.sum
  obtain ⟨-, h2, h3⟩ := h
  rcases side_cases side with rfl | rfl
  · simp only [Fin.val_zero] at hc hsum
    refine ⟨?_, ?_, ?_⟩
    · simp [AwaleConservation.total, Function.update_self, Function.update_of_ne]
      omega
    · simp [Function.update_self]
      omega
    · simpa [Function.update_of_ne] using h3
  · simp only [Fin.val_one] at hc hsum
    refine ⟨?_, ?_, ?_⟩
    · simp [AwaleConservation.total, Function.update_self, Function.update_of_ne]
      omega
    · simpa [Function.update_of_ne] using h2
    · simp [Function.update_self]
      omega

theorem captureFrom_conserved (hA : ExactUpTo n A) {game : Game} (h : Conserved n game)
    (last : Nat) (side : Fin 2) : Conserved n (captureFrom A game last side) := by
  simp only [captureFrom]
  split
  · obtain ⟨h0, hle⟩ := h.captured_le side
    obtain ⟨hsum, hc⟩ := capture_total (boardSize / 2 * (1 - side.val)) hA
      (last + 1) (game.board, (game.players side).captured) h0 hle
    exact conserved_replace h side hc hsum
  · exact h

theorem captureFrom_exact (hA : ExactUpTo n A) {game : Game} (h : Conserved n game)
    (last : Nat) (side : Fin 2) :
    captureFrom A game last side = captureFrom unbounded game last side := by
  obtain ⟨h0, hle⟩ := h.captured_le side
  simp only [captureFrom]
  rw [capture_exact hA _ (game.board, (game.players side).captured) h0 hle]

theorem sown_conserved (pos : Nat) (hA : ExactUpTo n A) {game : Game}
    (h : Conserved n game) :
    Conserved n { game with board := (sowHouse A game.board pos).board } where
  total := by
    have hsum := sowHouse_total pos hA h.board_le
    show (boardSum (sowHouse A game.board pos).board : Int) + _ + _ = n
    rw [hsum]
    exact h.sum
  first := h.first
  second := h.second

/-- **One call.**  Exact stores up to the total make the call equal to the unbounded one,
    and the call conserves the total, whether it is accepted or rejected. -/
theorem gamePlay_exact (hA : ExactUpTo n A) {game : Game} (h : Conserved n game)
    (pos : Int) (side : Fin 2) :
    gamePlay A game pos side = gamePlay unbounded game pos side
      ∧ Conserved n (gamePlay A game pos side).1 := by
  simp only [gamePlay]
  by_cases hv : playCheck game pos side = .validPlay
  · have hs := sown_conserved pos.toNat hA h
    have hsow : sowHouse A game.board pos.toNat = sowHouse unbounded game.board pos.toNat :=
      sowHouse_exact hA h.board_le
    rw [if_pos hv, if_pos hv]
    refine ⟨?_, ?_⟩
    · simp only [captureFrom_exact hA hs, ← hsow]
    · obtain ⟨h1, h2, h3⟩ := captureFrom_conserved hA hs
        (((sowHouse A game.board pos.toNat).i - 1) % boardSize) side
      exact ⟨h1, h2, h3⟩
  · rw [if_neg hv, if_neg hv]
    exact ⟨rfl, h⟩

/-! ## What the stores see

    The values a call stores, before any conversion: one for each `++board[...]` and one for
    each `captured += ...`.  They follow the two loops. -/

def sowStores (A : Arith) (pos : Nat) : Nat → Sowing → List Int
  | 0, _ => []
  | fuel + 1, w =>
      if w.seedsToSow > 0 then
        (if w.i % boardSize ≠ pos then [(w.board (house w.i) + 1 : Int)] else [])
          ++ sowStores A pos fuel (sowStep A pos w)
      else []

def captureStores (A : Arith) (offset : Nat) : Nat → Board × Int → List Int
  | 0, _ => []
  | i + 1, w =>
      if i ≥ offset ∧ (w.1 (house i) = 2 ∨ w.1 (house i) = 3) then
        (w.2 + w.1 (house i)) :: captureStores A offset i
          (Function.update w.1 (house i) 0, A.captured (w.2 + w.1 (house i)))
      else []

def playStores (A : Arith) (game : Game) (pos : Int) (side : Nat) : List Int :=
  if playCheck game pos side = .validPlay then
    let b := game.board
    let p := pos.toNat
    let w := sowHouse A b p
    let last := (w.i - 1) % boardSize
    sowStores A p (2 * b (house p))
        { board := Function.update b (house p) 0, i := p + 1, seedsToSow := b (house p) }
      ++ if gameBoardCanCapture { game with board := w.board }.byte (1 - side) last then
          captureStores A (boardSize / 2 * (1 - side)) (last + 1)
            (w.board, (game.players side).captured)
        else []
  else []

theorem sowStores_le (hA : ExactUpTo n A) :
    ∀ (fuel : Nat) (w : Sowing), boardSum w.board + w.seedsToSow ≤ n →
      ∀ v ∈ sowStores A pos fuel w, 0 ≤ v ∧ v ≤ n := by
  intro fuel
  induction fuel with
  | zero => intro w _ v hv; exact nomatch hv
  | succ fuel ih =>
      intro w hn v hv
      by_cases hpos : w.seedsToSow > 0
      · have hstep := sowStep_total pos hA hpos hn
        have hle := le_boardSum w.board (house w.i)
        rw [sowStores, if_pos hpos] at hv
        rcases List.mem_append.mp hv with hhd | htl
        · split at hhd
          · have heq := List.mem_singleton.mp hhd
            omega
          · exact nomatch hhd
        · exact ih _ (by omega) v htl
      · rw [sowStores, if_neg hpos] at hv
        exact nomatch hv

theorem captureStores_le (hA : ExactUpTo n A) :
    ∀ (k : Nat) (w : Board × Int), 0 ≤ w.2 → boardSum w.1 + w.2 ≤ n →
      ∀ v ∈ captureStores A offset k w, 0 ≤ v ∧ v ≤ n := by
  intro k
  induction k with
  | zero => intro w _ _ v hv; exact nomatch hv
  | succ i ih =>
      intro w h0 hn v hv
      by_cases hc : i ≥ offset ∧ (w.1 (house i) = 2 ∨ w.1 (house i) = 3)
      · have hsum := boardSum_update w.1 (house i) 0
        have hst : A.captured (w.2 + w.1 (house i)) = w.2 + w.1 (house i) :=
          hA.captured _ (by omega) (by omega)
        rw [captureStores, if_pos hc, hst] at hv
        rcases List.mem_cons.mp hv with hhd | htl
        · omega
        · refine ih _ ?_ ?_ v htl
          · show 0 ≤ w.2 + (w.1 (house i) : Int)
            omega
          · show (boardSum (Function.update w.1 (house i) 0) : Int)
              + (w.2 + w.1 (house i)) ≤ n
            omega
      · rw [captureStores, if_neg hc] at hv
        exact nomatch hv

/-- No store of a call exceeds the total. -/
theorem playStores_le (hA : ExactUpTo n A) {game : Game} (h : Conserved n game)
    (pos : Int) (side : Fin 2) :
    ∀ v ∈ playStores A game pos side, 0 ≤ v ∧ v ≤ n := by
  intro v hv
  by_cases hval : playCheck game pos side = .validPlay
  · simp only [playStores, if_pos hval] at hv
    rcases List.mem_append.mp hv with hs | hc
    · refine sowStores_le hA _ _ ?_ v hs
      rw [sowHouse_hand]
      exact h.board_le
    · have hs := sown_conserved pos.toNat hA h
      obtain ⟨h0, hle⟩ := hs.captured_le side
      split at hc
      · exact captureStores_le hA _
          ((sowHouse A game.board pos.toNat).board, (game.players side).captured)
          h0 hle v hc
      · exact nomatch hc
  · simp only [playStores, if_neg hval] at hv
    exact nomatch hv

/-! ## Whole games -/

/-- `game_init` followed by two `game_add_player` calls with `spectate = 0`. -/
def newGame (game : Game) (p q : Player) : Game :=
  gameAddPlayer (gameAddPlayer (gameInit game) p false) q false

/-- A sequence of `game_play` calls, with the results they return. -/
def playAll (A : Arith) : Game → List (Int × Fin 2) → Game × List PlayResult
  | game, [] => (game, [])
  | game, (pos, side) :: moves =>
      let r := gamePlay A game pos side
      let rest := playAll A r.1 moves
      (rest.1, r.2 :: rest.2)

theorem newGame_conserved (game : Game) (p q : Player) :
    Conserved 48 (newGame game p q) := by
  have hfull : boardSum (fun _ => initialSeed) = 48 := rfl
  refine ⟨?_, ?_, ?_⟩
  · simp [AwaleConservation.total, newGame, gameAddPlayer, gameInit, addIndex, hfull]
  · simp [newGame, gameAddPlayer, gameInit, addIndex]
  · simp [newGame, gameAddPlayer, gameInit, addIndex]

/-- **Runs.**  A sequence of calls conserves the total and equals the unbounded sequence. -/
theorem playAll_exact (hA : ExactUpTo n A) :
    ∀ (moves : List (Int × Fin 2)) {game : Game}, Conserved n game →
      playAll A game moves = playAll unbounded game moves
        ∧ Conserved n (playAll A game moves).1 := by
  intro moves
  induction moves with
  | nil => intro game h; exact ⟨rfl, h⟩
  | cons m moves ih =>
      intro game h
      obtain ⟨pos, side⟩ := m
      obtain ⟨heq, hcons⟩ := gamePlay_exact hA h pos side
      obtain ⟨hrun, hend⟩ := ih hcons
      refine ⟨?_, hend⟩
      simp only [playAll]
      rw [hrun, heq]

/-- **SEED CONSERVATION.**  In a two-player game, after any sequence of `game_play` calls with
    any positions and sides, the houses and the captured counts sum to 48, each of them lies in
    `0..48`, every value the next call stores lies in `0..48` too, so no increment of a house
    and no addition to a count wraps, and the machine run is the unbounded one. -/
theorem conservation (game : Game) (p q : Player) (moves : List (Int × Fin 2)) :
    let g := (playAll machine (newGame game p q) moves).1
    ((∑ h, g.board h : Nat) : Int) + (g.players 0).captured + (g.players 1).captured = 48
      ∧ (∀ h, g.board h ≤ 48)
      ∧ (∀ side : Fin 2, 0 ≤ (g.players side).captured ∧ (g.players side).captured ≤ 48)
      ∧ (∀ (pos : Int) (side : Fin 2), ∀ v ∈ playStores machine g pos side, 0 ≤ v ∧ v ≤ 48)
      ∧ playAll machine (newGame game p q) moves
          = playAll unbounded (newGame game p q) moves := by
  intro g
  have hA : ExactUpTo 48 machine := machine_exact.mono (by decide)
  obtain ⟨hrun, hcons⟩ := playAll_exact hA moves (newGame_conserved game p q)
  have hg : Conserved 48 g := hcons
  refine ⟨hg.total, ?_, ?_, fun pos side => playStores_le hA hg pos side, hrun⟩
  · intro h
    exact le_trans (le_boardSum g.board h) hg.board_le
  · intro side
    obtain ⟨h0, hle⟩ := hg.captured_le side
    exact ⟨h0, by push_cast at hle; omega⟩

end AwaleConservation
