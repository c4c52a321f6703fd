import AwaleOnline.AwaleCaptureProofs
import AwaleOnline.AwaleVerdictProofs
import Mathlib.Algebra.BigOperators.Intervals

/-!
# Sides without seeds

`game_play` sows wherever the player wants, `game_is_ended` looks at the counts only: no rule
makes a side feed the other, and none ends the game when a side cannot play.

* **`playTurns`** — valid plays of the two sides in turn, until the game is over;
* **`valid_iff_hasSeed`** — a side can play exactly when its row holds a seed;
* **`starved`** — a side that cannot play faces all the seeds left, and nothing it sends
  changes the game.
-/

namespace AwaleStarvation

open AwaleGame AwaleConservation AwaleCapture AwaleVerdict

variable {A : Arith} {b : Board} {game g : Game} {side : Nat} {pos : Int} {moves : List Int}
  {R : Finset Nat}

/-! ## Playing in turn -/

/-- A valid play in a game that is not over. -/
def playTurn (game : Game) (pos : Int) (side : Fin 2) : Option Game :=
  if gameIsEnded game = .notEnded ∧ (gamePlay machine game pos side).2 = .validPlay then
    some (gamePlay machine game pos side).1
  else none

/-- Such plays of both sides in turn. -/
def playTurns : Game → Fin 2 → List Int → Option Game
  | game, _, [] => some game
  | game, side, pos :: moves =>
      (playTurn game pos side).bind fun next => playTurns next side.rev moves

/-- What a run in turn keeps: the seeds, and `turn` as the side to play. -/
structure InTurn (game : Game) (side : Fin 2) : Prop where
  conserved : Conserved 48 game
  turn : game.turn = side

theorem InTurn.step {side : Fin 2} {next : Game} (h : InTurn game side)
    (hplay : playTurn game pos side = some next) : InTurn next side.rev := by
  rw [playTurn] at hplay
  split at hplay
  · rename_i hvalid
    cases hplay
    have hcheck := (gamePlay_result machine game pos side).symm.trans hvalid.2
    refine ⟨(gamePlay_exact (machine_exact.mono (by decide)) h.conserved pos side).2, ?_⟩
    rw [gamePlay_turn hcheck, h.turn]
    rcases side_cases side with rfl | rfl
    · rfl
    · rfl
  · cases hplay

theorem InTurn.run :
    ∀ (moves : List Int) {game : Game} {side : Fin 2}, InTurn game side →
      playTurns game side moves = some g →
        ∃ side' : Fin 2, InTurn g side' ∧ side'.val = (side.val + moves.length) % 2 := by
  intro moves
  induction moves with
  | nil =>
      intro game side h hrun
      cases hrun
      exact ⟨side, h, (Nat.mod_eq_of_lt side.isLt).symm⟩
  | cons pos moves ih =>
      intro game side h hrun
      obtain ⟨next, hplay, hrest⟩ := Option.bind_eq_some_iff.mp hrun
      obtain ⟨side', hend, hside⟩ := ih (h.step hplay) hrest
      refine ⟨side', hend, hside.trans ?_⟩
      rw [List.length_cons]
      rcases side_cases side with rfl | rfl
      · show (1 + moves.length) % 2 = (0 + (moves.length + 1)) % 2
        omega
      · show (0 + moves.length) % 2 = (1 + (moves.length + 1)) % 2
        omega

/-! ## Being able to play -/

/-- The houses a side plays from. -/
def ownRow (side : Nat) : Finset Nat :=
  Finset.Ico (boardSize / 2 * side) (boardSize / 2 * side + boardSize / 2)

theorem playCheck_row (hside : side ≤ 1) (hv : playCheck game pos side = .validPlay) :
    pos.toNat ∈ ownRow side := by
  rw [playCheck] at hv
  split at hv
  · cases hv
  · rename_i hbounds
    rw [ownRow, Finset.mem_Ico]
    simp only [boardSize, Nat.cast_ofNat] at hbounds ⊢
    omega

/-- **A SIDE CAN PLAY** exactly when its row holds a seed. -/
theorem valid_iff_hasSeed (game : Game) (hside : side ≤ 1) :
    (∃ pos, (gamePlay A game pos side).2 = .validPlay) ↔ HasSeed game.board (ownRow side) := by
  constructor
  · rintro ⟨pos, hv⟩
    rw [gamePlay_result] at hv
    exact ⟨pos.toNat, playCheck_row hside hv, (playCheck_valid hv).2.2⟩
  · rintro ⟨i, hi, hseeds⟩
    obtain ⟨hlow, hhigh⟩ := Finset.mem_Ico.mp hi
    refine ⟨i, ?_⟩
    rw [gamePlay_result, playCheck_own hside hlow hhigh]
    exact if_neg (Nat.not_le.mpr hseeds)

/-- The two rows are the board. -/
theorem seeds_rows (b : Board) (side : Fin 2) :
    seeds b (ownRow side) + seeds b (oppositeRow side) = boardSum b := by
  have hboard : (boardSum b : Int) = ∑ i ∈ Finset.range boardSize, (b (house i) : Int) := by
    rw [Finset.sum_range, boardSum, Nat.cast_sum]
    exact Finset.sum_congr rfl fun h _ => by rw [house_of_lt]
  have hrows := Finset.sum_Ico_consecutive (fun i => (b (house i) : Int))
    (Nat.zero_le (boardSize / 2)) (show boardSize / 2 ≤ boardSize by decide)
  rw [hboard, Finset.range_eq_Ico, ← hrows]
  rcases side_cases side with rfl | rfl
  · rfl
  · exact Int.add_comm _ _

theorem seeds_of_not (h : ¬ HasSeed b R) : seeds b R = 0 := by
  refine Finset.sum_eq_zero fun i hi => ?_
  have hzero : b (house i) = 0 := by
    by_contra hne
    exact h ⟨i, hi, Nat.pos_of_ne_zero hne⟩
  rw [hzero]
  rfl

/-- **STARVATION.**  In a game that is not over, the side to move can play exactly when its row
    holds a seed.  If it holds none, the other row holds all the seeds that are not captured,
    one at least, and every call for the side to move is rejected and changes nothing. -/
theorem starved (game : Game) (p q : Player)
    (hrun : playTurns (newGame game p q) 0 moves = some g) (hopen : gameIsEnded g = .notEnded) :
    g.turn = moves.length % 2
      ∧ ((∃ pos, (gamePlay machine g pos g.turn).2 = .validPlay)
          ↔ HasSeed g.board (ownRow g.turn))
      ∧ (¬ HasSeed g.board (ownRow g.turn) →
          seeds g.board (oppositeRow g.turn)
              = 48 - (g.players 0).captured - (g.players 1).captured
            ∧ 0 < seeds g.board (oppositeRow g.turn)
            ∧ ∀ pos, (gamePlay machine g pos g.turn).1 = g
                ∧ (gamePlay machine g pos g.turn).2 ≠ .validPlay) := by
  have hstart : InTurn (newGame game p q) 0 := ⟨newGame_conserved game p q, rfl⟩
  obtain ⟨side, hg, hside⟩ := hstart.run moves hrun
  have hle : g.turn ≤ 1 := by
    rw [hg.turn]
    exact Nat.le_of_lt_succ side.isLt
  have hvalid : (∃ pos, (gamePlay machine g pos g.turn).2 = .validPlay)
      ↔ HasSeed g.board (ownRow g.turn) := valid_iff_hasSeed g hle
  refine ⟨?_, hvalid, fun hnone => ?_⟩
  · rw [hg.turn, hside]
    show (0 + moves.length) % 2 = moves.length % 2
    rw [Nat.zero_add]
  · have hleft : seeds g.board (oppositeRow g.turn)
        = 48 - (g.players 0).captured - (g.players 1).captured := by
      have hrows := seeds_rows g.board side
      rw [← hg.turn, seeds_of_not hnone] at hrows
      have htotal := hg.conserved.sum
      omega
    obtain ⟨h1, h2, h3⟩ := (ended_iff hg.conserved _).mp hopen
    refine ⟨hleft, by omega, fun pos => ?_⟩
    have hrejected : (gamePlay machine g pos g.turn).2 ≠ .validPlay :=
      fun hv => hnone (hvalid.mp ⟨pos, hv⟩)
    refine ⟨?_, hrejected⟩
    rw [gamePlay_rejected fun hcheck => hrejected ((gamePlay_result ..).trans hcheck)]

/-- A game nobody has played yet. -/
def freshGame : Game :=
  newGame (twoPlayers [] 0 0) ((twoPlayers [] 0 0).players 0) ((twoPlayers [] 0 0).players 1)

/-- Fourteen plays that leave side `0`, to move, without a seed. -/
def starvingPlays : List Int := [0, 11, 3, 6, 2, 11, 1, 8, 5, 11, 4, 11, 5, 8]

theorem starvingPlays_run :
    ∃ g, playTurns freshGame 0 starvingPlays = some g ∧ gameIsEnded g = .notEnded
      ∧ ¬ HasSeed g.board (ownRow g.turn) := by
  have hrun : (playTurns freshGame 0 starvingPlays).map
      (fun g => (gameIsEnded g, decide (HasSeed g.board (ownRow g.turn))))
        = some (.notEnded, false) := by
    decide +kernel
  obtain ⟨g, hg, hend⟩ := Option.map_eq_some_iff.mp hrun
  obtain ⟨hopen, hseed⟩ := Prod.mk.inj hend
  exact ⟨g, hg, hopen, of_decide_eq_false hseed⟩

/-- There the other row holds every seed that is left. -/
theorem starved_first_side :
    ∃ g, playTurns freshGame 0 starvingPlays = some g
      ∧ seeds g.board (oppositeRow g.turn)
          = 48 - (g.players 0).captured - (g.players 1).captured
      ∧ ∀ pos, (gamePlay machine g pos g.turn).1 = g := by
  obtain ⟨g, hg, hopen, hnone⟩ := starvingPlays_run
  obtain ⟨-, -, hstarved⟩ := starved _ _ _ hg hopen
  obtain ⟨hseeds, -, hall⟩ := hstarved hnone
  exact ⟨g, hg, hseeds, fun pos => (hall pos).1⟩

/-- The game is not over, and the side to move has no valid play. -/
theorem game_stuck :
    ∃ g, playTurns freshGame 0 starvingPlays = some g ∧ gameIsEnded g = .notEnded
      ∧ ∀ pos, (gamePlay machine g pos g.turn).2 ≠ .validPlay := by
  obtain ⟨g, hg, hopen, hnone⟩ := starvingPlays_run
  have hturn : InTurn freshGame 0 := ⟨newGame_conserved _ _ _, rfl⟩
  obtain ⟨side, hend, -⟩ := hturn.run starvingPlays hg
  refine ⟨g, hg, hopen, fun pos hv => hnone ?_⟩
  exact (valid_iff_hasSeed g (hend.turn ▸ Nat.le_of_lt_succ side.isLt)).mp ⟨pos, hv⟩

end AwaleStarvation
