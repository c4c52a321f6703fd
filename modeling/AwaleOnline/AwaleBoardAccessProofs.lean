import AwaleOnline.AwaleCaptureProofs

/-!
# Board accesses

The functions of `game.c` once more, each with the indices at which it reads or writes `board`.
Without the indices they are the functions of the model, so the indices are those of its runs.

* **`playTraced_value`** — the traced call is `game_play`;
* **`scanTraced_subset`**, **`captureTraced_le`**, **`sowTraced_mem`** — where each part looks;
* **`accesses_on_board`** — a call stays on the board exactly unless side `0` makes a valid play
  whose last seed falls on the other row: the scan then starts behind the board.
-/

namespace AwaleBoardAccess

open AwaleGame AwaleConservation AwaleSowing AwaleCapture

variable {A : Arith} {game : Game} {pos : Int} {side : Fin 2} {k : Int}

/-! ## The functions with their indices -/

/-- The two tests in front of a move. -/
def checkTraced (game : Game) (pos : Int) (side : Nat) : PlayResult × List Int :=
  if (pos < 0 ∨ pos ≥ boardSize) ∨ (side = 0 ∧ pos ≥ boardSize / 2)
      ∨ (side = 1 ∧ pos < boardSize / 2) then (.outOfBounds, [])
  else (if game.board (house pos.toNat) ≤ 0 then .emptyHouse else .validPlay, [pos])

def sowTraced (A : Arith) (pos : Nat) : Nat → Sowing → Sowing × List Int
  | 0, w => (w, [])
  | fuel + 1, w =>
      if w.seedsToSow > 0 then
        let r := sowTraced A pos fuel (sowStep A pos w)
        (r.1, if w.i % boardSize ≠ pos then (w.i % boardSize : Nat) :: r.2 else r.2)
      else (w, [])

/-- The scan over the indices it has left, up to its `break`. -/
def scanTraced (board : Nat → Nat) : List Nat → Bool × List Int
  | [] => (false, [])
  | i :: rest =>
      if board i ≠ 0 ∧ board i ≠ 2 ∧ board i ≠ 3 then (true, [(i : Int)])
      else
        let r := scanTraced board rest
        (r.1, i :: r.2)

def canCaptureTraced (board : Nat → Nat) (oppositeSide lastPos : Nat) : Bool × List Int :=
  let offset := boardSize / 2 * oppositeSide
  if (oppositeSide = 1 ∧ lastPos < boardSize / 2)
      ∨ (oppositeSide = 0 ∧ lastPos ≥ boardSize / 2) then (false, [])
  else
    scanTraced board ((List.range (boardSize / 2 + 1)).map fun k => boardSize / 2 + offset - k)

/-- The capture loop; it reads the house only where `i >= offset` holds. -/
def captureTraced (A : Arith) (offset : Nat) : Nat → Board × Int → (Board × Int) × List Int
  | 0, w => (w, [])
  | i + 1, w =>
      if i ≥ offset then
        if w.1 (house i) = 2 ∨ w.1 (house i) = 3 then
          let r := captureTraced A offset i
            (Function.update w.1 (house i) 0, A.captured (w.2 + w.1 (house i)))
          (r.1, i :: r.2)
        else (w, [(i : Int)])
      else (w, [])

def captureFromTraced (A : Arith) (game : Game) (pos side : Nat) : Game × List Int :=
  let leave := canCaptureTraced game.byte (1 - side) pos
  if leave.1 then
    let w := captureTraced A (boardSize / 2 * (1 - side)) (pos + 1)
      (game.board, (game.players side).captured)
    ({ game with
        board := w.1.1
        players := Function.update game.players side
          { game.players side with captured := w.1.2 } }, leave.2 ++ w.2)
  else (game, leave.2)

/-- `game_play`; `board[pos]` is read and emptied before the sowing. -/
def playTraced (A : Arith) (game : Game) (pos : Int) (side : Nat) :
    (Game × PlayResult) × List Int :=
  let check := checkTraced game pos side
  if check.1 = .validPlay then
    let seeds := game.board (house pos.toNat)
    let w := sowTraced A pos.toNat (2 * seeds)
      { board := Function.update game.board (house pos.toNat) 0, i := pos.toNat + 1,
        seedsToSow := seeds }
    let after := captureFromTraced A { game with board := w.1.board }
      ((w.1.i - 1) % boardSize) side
    (({ after.1 with turn := if after.1.turn = 0 then 1 else 0 }, .validPlay),
      check.2 ++ pos :: pos :: w.2 ++ after.2)
  else ((game, check.1), check.2)

/-! ## They are the functions of the model -/

theorem checkTraced_value (game : Game) (pos : Int) (side : Nat) :
    (checkTraced game pos side).1 = playCheck game pos side := by
  rw [checkTraced, playCheck]
  split
  · rfl
  · rfl

theorem sowTraced_value (A : Arith) (pos : Nat) :
    ∀ (fuel : Nat) (w : Sowing), (sowTraced A pos fuel w).1 = sow A pos fuel w := by
  intro fuel
  induction fuel with
  | zero => intro w; rfl
  | succ fuel ih =>
      intro w
      rw [sowTraced, sow]
      split
      · exact ih _
      · rfl

theorem scanTraced_value (board : Nat → Nat) (is : List Nat) :
    (scanTraced board is).1 = is.any fun i => board i ≠ 0 ∧ board i ≠ 2 ∧ board i ≠ 3 := by
  induction is with
  | nil => rfl
  | cons i rest ih =>
      rw [scanTraced, List.any_cons]
      split
      · rename_i hkept
        rw [decide_eq_true hkept]
        rfl
      · rename_i hkept
        rw [decide_eq_false hkept]
        exact ih

theorem canCaptureTraced_value (board : Nat → Nat) (oppositeSide lastPos : Nat) :
    (canCaptureTraced board oppositeSide lastPos).1
      = gameBoardCanCapture board oppositeSide lastPos := by
  rw [canCaptureTraced, gameBoardCanCapture]
  split
  · rfl
  · rw [scanTraced_value, List.any_map]
    rfl

theorem captureTraced_value (A : Arith) (offset : Nat) :
    ∀ (n : Nat) (w : Board × Int),
      (captureTraced A offset n w).1 = capture A offset n w := by
  intro n
  induction n with
  | zero => intro w; rfl
  | succ i ih =>
      intro w
      rw [captureTraced, capture]
      by_cases hlow : i ≥ offset
      · by_cases htake : w.1 (house i) = 2 ∨ w.1 (house i) = 3
        · rw [if_pos hlow, if_pos htake, if_pos ⟨hlow, htake⟩]
          exact ih _
        · rw [if_pos hlow, if_neg htake, if_neg fun h => htake h.2]
      · rw [if_neg hlow, if_neg fun h => hlow h.1]

theorem captureFromTraced_value (A : Arith) (game : Game) (pos side : Nat) :
    (captureFromTraced A game pos side).1 = captureFrom A game pos side := by
  rw [captureFromTraced, captureFrom]
  simp only [canCaptureTraced_value, captureTraced_value]
  split
  · rfl
  · rfl

/-- **THE TRACED CALL** is the call. -/
theorem playTraced_value (A : Arith) (game : Game) (pos : Int) (side : Nat) :
    (playTraced A game pos side).1 = gamePlay A game pos side := by
  rw [playTraced, gamePlay]
  simp only [checkTraced_value, sowTraced_value, captureFromTraced_value]
  split
  · rfl
  · rfl

/-! ## Where the parts look -/

/-- An index of the board. -/
def OnBoard (k : Int) : Prop := 0 ≤ k ∧ k < boardSize

theorem onBoard_of_lt {i : Nat} (hi : i < boardSize) : OnBoard i :=
  ⟨Int.natCast_nonneg i, Int.ofNat_lt.mpr hi⟩

theorem checkTraced_mem (hk : k ∈ (checkTraced game pos side).2) : OnBoard k := by
  rw [checkTraced] at hk
  split at hk
  · cases hk
  · rename_i hbounds
    obtain ⟨hlow, hhigh⟩ := not_or.mp (not_or.mp hbounds).1
    rw [List.mem_singleton.mp hk]
    exact ⟨Int.not_lt.mp hlow, Int.not_le.mp hhigh⟩

/-- Every round reduces its index. -/
theorem sowTraced_mem (A : Arith) (pos : Nat) :
    ∀ (fuel : Nat) (w : Sowing), ∀ k ∈ (sowTraced A pos fuel w).2, OnBoard k := by
  intro fuel
  induction fuel with
  | zero =>
      intro w k hk
      cases hk
  | succ fuel ih =>
      intro w k hk
      rw [sowTraced] at hk
      split at hk
      · simp only at hk
        split at hk
        · rcases List.mem_cons.mp hk with rfl | hrest
          · exact onBoard_of_lt (Nat.mod_lt _ (Nat.succ_pos 11))
          · exact ih _ k hrest
        · exact ih _ k hk
      · cases hk

theorem scanTraced_subset (board : Nat → Nat) (is : List Nat) :
    ∀ k ∈ (scanTraced board is).2, ∃ i ∈ is, k = i := by
  induction is with
  | nil =>
      intro k hk
      cases hk
  | cons i rest ih =>
      intro k hk
      rw [scanTraced] at hk
      split at hk
      · exact ⟨i, List.mem_cons_self .., List.mem_singleton.mp hk⟩
      · rcases List.mem_cons.mp hk with rfl | hrest
        · exact ⟨i, List.mem_cons_self .., rfl⟩
        · obtain ⟨j, hj, rfl⟩ := ih k hrest
          exact ⟨j, List.mem_cons_of_mem i hj, rfl⟩

/-- Whatever the scan finds, it looks at its first index. -/
theorem scanTraced_head (board : Nat → Nat) (i : Nat) (rest : List Nat) :
    (i : Int) ∈ (scanTraced board (i :: rest)).2 := by
  rw [scanTraced]
  split
  · exact List.mem_singleton.mpr rfl
  · exact List.mem_cons_self ..

theorem captureTraced_le (A : Arith) (offset : Nat) :
    ∀ (n : Nat) (w : Board × Int), ∀ k ∈ (captureTraced A offset n w).2,
      ∃ i < n, k = (i : Int) := by
  intro n
  induction n with
  | zero =>
      intro w k hk
      cases hk
  | succ i ih =>
      intro w k hk
      rw [captureTraced] at hk
      split at hk
      · split at hk
        · rcases List.mem_cons.mp hk with rfl | hrest
          · exact ⟨i, Nat.lt_succ_self i, rfl⟩
          · obtain ⟨j, hj, rfl⟩ := ih _ k hrest
            exact ⟨j, Nat.lt_succ_of_lt hj, rfl⟩
        · exact ⟨i, Nat.lt_succ_self i, List.mem_singleton.mp hk⟩
      · cases hk

/-- The scan of the row of side `0` starts at the first house behind it. -/
theorem canCaptureTraced_second (board : Nat → Nat) (last : Nat) :
    ∀ k ∈ (canCaptureTraced board 0 last).2, OnBoard k := by
  intro k hk
  rw [canCaptureTraced] at hk
  split at hk
  · cases hk
  · obtain ⟨i, hi, rfl⟩ := scanTraced_subset _ _ k hk
    obtain ⟨j, -, rfl⟩ := List.mem_map.mp hi
    refine onBoard_of_lt ?_
    simp only [boardSize]
    omega

/-- The scan of the row of side `1` starts behind the board. -/
theorem canCaptureTraced_first (board : Nat → Nat) (last : Nat) :
    (∀ k ∈ (canCaptureTraced board 1 last).2, OnBoard k) ↔ last < boardSize / 2 := by
  rw [canCaptureTraced]
  by_cases hlast : last < boardSize / 2
  · rw [if_pos (Or.inl ⟨rfl, hlast⟩)]
    refine iff_of_true (fun k hk => ?_) hlast
    cases hk
  · rw [if_neg fun h => h.elim (fun h => hlast h.2) fun h => absurd h.1 (by decide)]
    refine iff_of_false (fun hall => ?_) hlast
    have hbehind : OnBoard ((boardSize / 2 + boardSize / 2 * 1 - 0 : Nat) : Int) :=
      hall _ (scanTraced_head board _ _)
    exact absurd hbehind.2 (by decide)

/-- The capture loop stays below the last house, so the scan decides. -/
theorem captureFromTraced_onBoard (A : Arith) (game : Game) (side : Nat) {last : Nat}
    (hlast : last < boardSize) :
    (∀ k ∈ (captureFromTraced A game last side).2, OnBoard k)
      ↔ ∀ k ∈ (canCaptureTraced game.byte (1 - side) last).2, OnBoard k := by
  rw [captureFromTraced]
  simp only
  split
  · rw [List.forall_mem_append]
    refine and_iff_left fun k hk => ?_
    obtain ⟨i, hi, rfl⟩ := captureTraced_le A _ _ _ k hk
    exact onBoard_of_lt (Nat.lt_of_le_of_lt (Nat.le_of_lt_succ hi) hlast)
  · exact Iff.rfl

/-! ## A call -/

/-- **ON THE BOARD**, unless a valid play of side `0` ends in the row of side `1`. -/
theorem accesses_on_board (game : Game) (pos : Int) (side : Fin 2) :
    (∀ k ∈ (playTraced machine game pos side).2, OnBoard k)
      ↔ ¬ (playCheck game pos side = .validPlay ∧ side = 0
          ∧ boardSize / 2 ≤ lastHouse game.board pos.toNat) := by
  rw [playTraced]
  simp only [checkTraced_value, sowTraced_value]
  by_cases hv : playCheck game pos side = .validPlay
  · obtain ⟨hlow, hpos, hseeds⟩ := playCheck_valid hv
    have hlast : ((sow machine pos.toNat (2 * game.board (house pos.toNat))
        { board := Function.update game.board (house pos.toNat) 0, i := pos.toNat + 1,
          seedsToSow := game.board (house pos.toNat) }).i - 1) % boardSize
            = lastHouse game.board pos.toNat := sowHouse_last hpos machine hseeds
    have hown : OnBoard pos := by
      refine ⟨hlow, ?_⟩
      simp only [boardSize] at hpos ⊢
      omega
    have hbefore : ∀ k ∈ (checkTraced game pos side).2 ++ pos :: pos ::
        (sowTraced machine pos.toNat (2 * game.board (house pos.toNat))
          { board := Function.update game.board (house pos.toNat) 0, i := pos.toNat + 1,
            seedsToSow := game.board (house pos.toNat) }).2, OnBoard k := by
      refine List.forall_mem_append.mpr ⟨fun k hk => checkTraced_mem hk, ?_⟩
      refine List.forall_mem_cons.mpr ⟨hown, List.forall_mem_cons.mpr ⟨hown, ?_⟩⟩
      exact sowTraced_mem machine pos.toNat _ _
    rw [if_pos hv, hlast, List.forall_mem_append, and_iff_right hbefore,
      captureFromTraced_onBoard machine _ side (lastHouse_lt game.board pos.toNat)]
    rcases side_cases side with rfl | rfl
    · refine (canCaptureTraced_first _ _).trans ?_
      rw [and_iff_right hv, and_iff_right rfl, Nat.not_le]
    · exact iff_of_true (canCaptureTraced_second _ _) fun h => absurd h.2.1 (by decide)
  · rw [if_neg hv]
    exact iff_of_true (fun k hk => checkTraced_mem hk) fun h => hv h.1

/-- The first move of a game may already read behind the board. -/
theorem opening_reads_behind :
    ¬ ∀ k ∈ (playTraced machine (twoPlayers (List.replicate 12 4) 0 0) 5 0).2, OnBoard k := by
  intro hall
  exact absurd (hall 12 (by decide)).2 (by decide)

end AwaleBoardAccess
