import AwaleOnline.AwaleSowingProofs
import AwaleOnline.DownwardRunProofs

/-!
# What a valid play does

After sowing, `game_play` asks `game_board_can_capture` for leave and then empties houses of the
other side from the last one sown downwards.

* **`captureRun`** — the houses the loop would empty: the run of houses with 2 or 3 seeds;
* **`Permitted`** — what the scan looks for: a house, or the byte behind the row, that holds
  neither nothing nor 2 nor 3;
* **`gamePlay_eq`** — a valid play sows, takes that run if it is permitted, and changes turn;
* **`no_grand_slam`**, **`exact_captures`** — when the play keeps the rules of the game.
-/

namespace AwaleCapture

open AwaleGame AwaleConservation AwaleSowing DownwardRun

variable {A : Arith} {b : Board} {game : Game} {pos : Int} {side i last n offset : Nat}
  {R : Finset Nat}

/-! ## The row of the other side -/

/-- Its first house. -/
def rowStart (side : Nat) : Nat := boardSize / 2 * (1 - side)

/-- Its six houses. -/
def oppositeRow (side : Nat) : Finset Nat :=
  Finset.Ico (rowStart side) (rowStart side + boardSize / 2)

theorem oppositeRow_lt (hi : i ∈ oppositeRow side) : i < boardSize := by
  obtain ⟨-, hlt⟩ := Finset.mem_Ico.mp hi
  simp only [rowStart, boardSize] at hlt ⊢
  omega

theorem house_of_lt (h : Fin boardSize) : house h.val = h := Fin.ext (Nat.mod_eq_of_lt h.isLt)

/-- Some house of the set holds a seed. -/
def HasSeed (b : Board) (S : Finset Nat) : Prop := ∃ i ∈ S, 0 < b (house i)

instance (b : Board) (S : Finset Nat) : Decidable (HasSeed b S) :=
  inferInstanceAs (Decidable (∃ i ∈ S, 0 < b (house i)))

/-- The seeds of a set of houses. -/
def seeds (b : Board) (S : Finset Nat) : Int := ∑ i ∈ S, (b (house i) : Int)

/-! ## The run -/

/-- What the capture loop takes. -/
def Takable (b : Board) (i : Nat) : Prop := b (house i) = 2 ∨ b (house i) = 3

instance (b : Board) : DecidablePred (Takable b) :=
  fun i => inferInstanceAs (Decidable (b (house i) = 2 ∨ b (house i) = 3))

theorem Takable.nonempty (h : Takable b i) : 0 < b (house i) := by
  rcases h with h | h
  · rw [h]
    decide
  · rw [h]
    decide

/-- The houses with 2 or 3 seeds that end at the last house sown, within the other row. -/
def captureRun (b : Board) (side last : Nat) : Finset Nat :=
  if last ∈ oppositeRow side then run (Takable b) (rowStart side) (last + 1) else ∅

theorem captureRun_subset (hi : i ∈ captureRun b side last) : i ∈ oppositeRow side := by
  rw [captureRun] at hi
  split at hi
  · rename_i hlast
    have hhigh := (Finset.mem_Ico.mp hlast).2
    have hlt := run_lt hi
    exact Finset.mem_Ico.mpr ⟨run_ge hi, by omega⟩
  · cases hi

theorem captureRun_takable (hi : i ∈ captureRun b side last) : Takable b i := by
  rw [captureRun] at hi
  split at hi
  · exact run_holds hi
  · cases hi

/-- The run is unbroken up to the last house, and goes down as far as it can. -/
theorem captureRun_maximal (hi : i ∈ captureRun b side last) :
    (∀ j, i ≤ j → j ≤ last → j ∈ captureRun b side last)
      ∧ ∀ j, j + 1 = i → j ∉ captureRun b side last → j ∉ oppositeRow side ∨ ¬ Takable b j := by
  by_cases hlast : last ∈ oppositeRow side
  · have hrun : captureRun b side last = run (Takable b) (rowStart side) (last + 1) :=
      if_pos hlast
    rw [hrun] at hi ⊢
    refine ⟨fun j hij hj => run_up hi hij (Nat.lt_succ_of_le hj), ?_⟩
    rintro j rfl hj
    rcases run_end hi hj with hlo | hp
    · exact Or.inl fun hmem => absurd (Finset.mem_Ico.mp hmem).1 (Nat.not_le.mpr hlo)
    · exact Or.inr hp
  · rw [captureRun, if_neg hlast] at hi
    cases hi

/-! ## The capture loop -/

theorem house_ne (hi : i < n) (hn : n < boardSize) : house i ≠ house n := by
  intro h
  have hval : i % boardSize = n % boardSize := congrArg Fin.val h
  rw [Nat.mod_eq_of_lt (Nat.lt_trans hi hn), Nat.mod_eq_of_lt hn] at hval
  exact absurd hval (Nat.ne_of_lt hi)

/-- Emptying a house does not touch the houses below. -/
theorem run_update (b : Board) (hn : n < boardSize) (v : Nat) :
    run (Takable (Function.update b (house n) v)) offset n = run (Takable b) offset n := by
  refine run_congr fun j _ hj => ?_
  rw [Takable, Takable, Function.update_of_ne (house_ne hj hn)]

theorem capture_board (A : Arith) (offset : Nat) :
    ∀ n ≤ boardSize, ∀ (w : Board × Int) (h : Fin boardSize),
      (capture A offset n w).1 h
        = if h.val ∈ run (Takable w.1) offset n then 0 else w.1 h := by
  intro n
  induction n with
  | zero =>
      intro _ w h
      rw [run_zero]
      rfl
  | succ n ih =>
      intro hn w h
      rw [capture]
      by_cases hc : n ≥ offset ∧ (w.1 (house n) = 2 ∨ w.1 (house n) = 3)
      · rw [if_pos hc, ih (Nat.le_of_lt hn), run_update _ hn, run_succ hc.1 hc.2]
        by_cases hh : h.val = n
        · have heq : h = house n := by rw [← hh, house_of_lt]
          rw [hh, if_neg not_mem_run_self, if_pos (Finset.mem_insert_self ..), heq]
          exact Function.update_self ..
        · have hne : h ≠ house n := fun heq => hh (heq ▸ Nat.mod_eq_of_lt hn)
          show (if h.val ∈ run (Takable w.1) offset n then 0
            else Function.update w.1 (house n) 0 h) = _
          rw [Function.update_of_ne hne]
          refine if_congr ?_ rfl rfl
          rw [Finset.mem_insert, or_iff_right hh]
      · rw [if_neg hc, run_of_not hc]
        rfl

/-- A count in an `int8_t`, after the captures of a run: every addition is wrapped. -/
theorem capture_count (offset : Nat) :
    ∀ n ≤ boardSize, ∀ w : Board × Int,
      (capture machine offset n w).2
        = if run (Takable w.1) offset n = ∅ then w.2
          else (w.2 + seeds w.1 (run (Takable w.1) offset n)).bmod 256 := by
  intro n
  induction n with
  | zero =>
      intro _ w
      rw [run_zero, if_pos rfl]
      rfl
  | succ n ih =>
      intro hn w
      rw [capture]
      by_cases hc : n ≥ offset ∧ (w.1 (house n) = 2 ∨ w.1 (house n) = 3)
      · have hsum : seeds w.1 (insert n (run (Takable w.1) offset n))
            = w.1 (house n) + seeds w.1 (run (Takable w.1) offset n) :=
          Finset.sum_insert not_mem_run_self
        have hbelow : seeds (Function.update w.1 (house n) 0) (run (Takable w.1) offset n)
            = seeds w.1 (run (Takable w.1) offset n) := by
          refine Finset.sum_congr rfl fun j hj => ?_
          rw [Function.update_of_ne (house_ne (run_lt hj) hn)]
        rw [if_pos hc, ih (Nat.le_of_lt hn), run_update _ hn, run_succ hc.1 hc.2,
          if_neg (Finset.insert_ne_empty _ _), hsum, hbelow, ← Int.add_assoc]
        split
        · rename_i hrun
          rw [hrun]
          show (w.2 + w.1 (house n)).bmod 256 = (w.2 + w.1 (house n) + 0).bmod 256
          rw [Int.add_zero]
        · exact Int.bmod_add_bmod
      · rw [if_neg hc, run_of_not hc, if_pos rfl]

/-! ## The permission -/

/-- Contents on which the scan stops with leave to capture. -/
def Kept (n : Nat) : Prop := n ≠ 0 ∧ n ≠ 2 ∧ n ≠ 3

instance (n : Nat) : Decidable (Kept n) := inferInstanceAs (Decidable (n ≠ 0 ∧ n ≠ 2 ∧ n ≠ 3))

/-- The byte behind the row, which the scan reads first. -/
def nextByte (game : Game) (side : Nat) : Nat := game.byte (boardSize / 2 + rowStart side)

/-- Some house of the row, or the byte behind it, is neither empty nor takable. -/
def Permitted (game : Game) (side : Nat) : Prop :=
  (∃ i ∈ oppositeRow side, Kept (game.board (house i))) ∨ Kept (nextByte game side)

instance (game : Game) (side : Nat) : Decidable (Permitted game side) :=
  inferInstanceAs (Decidable (_ ∨ _))

theorem byte_house (game : Game) (hi : i < boardSize) : game.byte i = game.board (house i) := by
  rw [Game.byte, dif_pos hi]
  exact congrArg game.board (Fin.ext (Nat.mod_eq_of_lt hi).symm)

/-- The test in front of the scan: the last house is in the other row. -/
theorem own_row_iff (side : Nat) (hlast : last < boardSize) :
    ((1 - side = 1 ∧ last < boardSize / 2) ∨ (1 - side = 0 ∧ last ≥ boardSize / 2))
      ↔ last ∉ oppositeRow side := by
  rw [oppositeRow, Finset.mem_Ico]
  simp only [rowStart, boardSize] at hlast ⊢
  omega

/-- The indices of the scan: the byte behind the row, then the row from its end on. -/
theorem scan_index (side k : Nat) (hk : k < boardSize / 2 + 1) (hzero : k ≠ 0) :
    boardSize / 2 + rowStart side - k ∈ oppositeRow side := by
  rw [oppositeRow, Finset.mem_Ico]
  simp only [boardSize] at hk ⊢
  omega

theorem canCapture_iff (game : Game) (side : Nat) (hlast : last < boardSize) :
    gameBoardCanCapture game.byte (1 - side) last = true
      ↔ last ∈ oppositeRow side ∧ Permitted game side := by
  rw [gameBoardCanCapture]
  simp only [own_row_iff side hlast]
  by_cases hrow : last ∈ oppositeRow side
  · rw [if_neg (not_not.mpr hrow), List.any_eq_true, and_iff_right hrow]
    constructor
    · rintro ⟨k, hk, hkept⟩
      have hkept' := of_decide_eq_true hkept
      by_cases hzero : k = 0
      · subst hzero
        exact Or.inr hkept'
      · have hi := scan_index side k (List.mem_range.mp hk) hzero
        refine Or.inl ⟨_, hi, ?_⟩
        rw [← byte_house game (oppositeRow_lt hi)]
        exact hkept'
    · rintro (⟨i, hi, hkept⟩ | hkept)
      · obtain ⟨hlow, hhigh⟩ := Finset.mem_Ico.mp hi
        have hk : boardSize / 2 + rowStart side - (boardSize / 2 + rowStart side - i) = i :=
          Nat.sub_sub_self (Nat.le_of_lt (Nat.add_comm .. ▸ hhigh))
        rw [← byte_house game (oppositeRow_lt hi), ← hk] at hkept
        refine ⟨boardSize / 2 + rowStart side - i, List.mem_range.mpr ?_, decide_eq_true hkept⟩
        omega
      · exact ⟨0, List.mem_range.mpr (Nat.succ_pos _), decide_eq_true hkept⟩
  · rw [if_pos hrow]
    constructor
    · intro h
      cases h
    · intro h
      exact absurd h.1 hrow

/-! ## The play -/

/-- The game after the houses of a set were captured by a side. -/
def take (game : Game) (side : Nat) (R : Finset Nat) : Game :=
  { game with
    board := fun h => if h.val ∈ R then 0 else game.board h
    players := Function.update game.players side
      { game.players side with
        captured := if R = ∅ then (game.players side).captured
          else ((game.players side).captured + seeds game.board R).bmod 256 } }

theorem take_empty (game : Game) (side : Nat) : take game side ∅ = game := by
  have hplayers : Function.update game.players side
      { game.players side with captured := (game.players side).captured } = game.players :=
    Function.update_eq_self side game.players
  rw [take, if_pos rfl, hplayers]
  rfl

/-- What a side takes after the sowing: all of the run, or nothing. -/
def captures (game : Game) (side last : Nat) : Finset Nat :=
  if Permitted game side then captureRun game.board side last else ∅

theorem captureFrom_eq (game : Game) (side : Nat) (hlast : last < boardSize) :
    captureFrom machine game last side = take game side (captures game side last) := by
  rw [captureFrom]
  by_cases hc : last ∈ oppositeRow side ∧ Permitted game side
  · have hrun : captures game side last
        = run (Takable game.board) (rowStart side) (last + 1) := by
      rw [captures, if_pos hc.2, captureRun, if_pos hc.1]
    rw [if_pos ((canCapture_iff game side hlast).mpr hc), hrun, take]
    have hboard := capture_board machine (rowStart side) (last + 1) hlast
      (game.board, (game.players side).captured)
    have hcount := capture_count (rowStart side) (last + 1) hlast
      (game.board, (game.players side).captured)
    rw [← funext hboard, ← hcount]
    rfl
  · have hnone : captures game side last = ∅ := by
      rw [captures, captureRun]
      split
      · rename_i hp
        exact if_neg fun hrow => hc ⟨hrow, hp⟩
      · rfl
    rw [if_neg (mt (canCapture_iff game side hlast).mp hc), hnone, take_empty]

/-- The game after the sowing of a house. -/
def sownGame (game : Game) (pos : Nat) : Game := { game with board := sown game.board pos }

/-- **A VALID PLAY.** -/
theorem gamePlay_eq (hb : boardSum game.board ≤ 255)
    (hv : playCheck game pos side = .validPlay) :
    gamePlay machine game pos side
      = ({ take (sownGame game pos.toNat) side
            (captures (sownGame game pos.toNat) side (lastHouse game.board pos.toNat)) with
          turn := if game.turn = 0 then 1 else 0 }, .validPlay) := by
  obtain ⟨-, hpos, hseeds⟩ := playCheck_valid hv
  have hlast := sowHouse_last hpos machine hseeds
  have hboard := sowHouse_machine hpos hb
  have hcapture : captureFrom machine { game with board := sown game.board pos.toNat }
      (lastHouse game.board pos.toNat) side = take (sownGame game pos.toNat) side
        (captures (sownGame game pos.toNat) side (lastHouse game.board pos.toNat)) :=
    captureFrom_eq (sownGame game pos.toNat) side (lastHouse_lt game.board pos.toNat)
  rw [gamePlay, if_pos hv]
  simp only [hlast, hboard, hcapture]
  rfl

theorem gamePlay_valid (hb : boardSum game.board ≤ 255)
    (hv : (gamePlay machine game pos side).2 = .validPlay) :
    (sowHouse machine game.board pos.toNat).board = sown game.board pos.toNat
      ∧ ((sowHouse machine game.board pos.toNat).i - 1) % boardSize
        = lastHouse game.board pos.toNat
      ∧ (gamePlay machine game pos side).1
        = { take (sownGame game pos.toNat) side
              (captures (sownGame game pos.toNat) side (lastHouse game.board pos.toNat)) with
            turn := if game.turn = 0 then 1 else 0 } := by
  have hcheck := (gamePlay_result machine game pos side).symm.trans hv
  obtain ⟨-, hpos, hseeds⟩ := playCheck_valid hcheck
  exact ⟨sowHouse_machine hpos hb, sowHouse_last hpos machine hseeds,
    congrArg Prod.fst (gamePlay_eq hb hcheck)⟩

/-! ## No grand slam -/

/-- The run a play may take, read off the game before it. -/
def nextRun (game : Game) (pos : Int) (side : Nat) : Finset Nat :=
  captureRun (sown game.board pos.toNat) side (lastHouse game.board pos.toNat)

/-- A run that holds every seed of the other row stays there, and so does some seed. -/
structure NoGrandSlam (game : Game) (pos : Int) (side : Fin 2) : Prop where
  keeps : HasSeed (sowHouse machine game.board pos.toNat).board (oppositeRow side) →
    HasSeed (gamePlay machine game pos side).1.board (oppositeRow side)
  spares :
    let w := sowHouse machine game.board pos.toNat
    ¬ HasSeed w.board (oppositeRow side \ captureRun w.board side ((w.i - 1) % boardSize)) →
      (gamePlay machine game pos side).1.board = w.board
        ∧ ((gamePlay machine game pos side).1.players side).captured
          = (game.players side).captured

/-- The play takes nothing, or leaves a seed, or the byte behind the row does not tempt it. -/
def SlamBarred (game : Game) (pos : Int) (side : Fin 2) : Prop :=
  nextRun game pos side = ∅
    ∨ HasSeed (sown game.board pos.toNat) (oppositeRow side \ nextRun game pos side)
    ∨ ¬ Kept (nextByte (sownGame game pos.toNat) side)

/-- When the run holds every seed of the row, the byte behind it decides. -/
theorem permitted_of_covered (game : Game) (last : Nat) (hcov : ¬ HasSeed game.board
      (oppositeRow side \ captureRun game.board side last)) :
    Permitted game side ↔ Kept (nextByte game side) := by
  refine ⟨fun h => ?_, Or.inr⟩
  rcases h with ⟨i, hi, hne, h2, h3⟩ | h
  · by_cases hrun : i ∈ captureRun game.board side last
    · rcases captureRun_takable hrun with htwo | hthree
      · exact absurd htwo h2
      · exact absurd hthree h3
    · exact absurd ⟨i, Finset.mem_sdiff.mpr ⟨hi, hrun⟩, Nat.pos_of_ne_zero hne⟩ hcov
  · exact h

theorem take_board_of_mem (hi : i ∈ R) (hlt : i < boardSize) :
    (take game side R).board (house i) = 0 := by
  refine if_pos ?_
  show i % boardSize ∈ R
  rw [Nat.mod_eq_of_lt hlt]
  exact hi

theorem take_board_of_not_mem (hi : i ∉ R) (hlt : i < boardSize) :
    (take game side R).board (house i) = game.board (house i) := by
  refine if_neg ?_
  show i % boardSize ∉ R
  rw [Nat.mod_eq_of_lt hlt]
  exact hi

/-- Taking all of a run that is not empty keeps a seed in the row only outside the run. -/
theorem take_hasSeed (hseed : HasSeed (take game side R).board (oppositeRow side)) :
    HasSeed game.board (oppositeRow side \ R) := by
  obtain ⟨i, hi, hpos⟩ := hseed
  by_cases hrun : i ∈ R
  · rw [take_board_of_mem hrun (oppositeRow_lt hi)] at hpos
    cases hpos
  · rw [take_board_of_not_mem hrun (oppositeRow_lt hi)] at hpos
    exact ⟨i, Finset.mem_sdiff.mpr ⟨hi, hrun⟩, hpos⟩

theorem hasSeed_take (hseed : HasSeed game.board (oppositeRow side \ R)) :
    HasSeed (take game side R).board (oppositeRow side) := by
  obtain ⟨i, hi, hpos⟩ := hseed
  obtain ⟨hrow, hrun⟩ := Finset.mem_sdiff.mp hi
  refine ⟨i, hrow, ?_⟩
  rw [take_board_of_not_mem hrun (oppositeRow_lt hrow)]
  exact hpos

theorem HasSeed.mono {S T : Finset Nat} (hseed : HasSeed b S) (hsub : S ⊆ T) : HasSeed b T := by
  obtain ⟨i, hi, hpos⟩ := hseed
  exact ⟨i, hsub hi, hpos⟩

theorem captures_of_permitted (hp : Permitted game side) :
    captures game side last = captureRun game.board side last := if_pos hp

theorem captures_of_not (hp : ¬ Permitted game side) : captures game side last = ∅ := if_neg hp

theorem captures_subset : captures game side last ⊆ captureRun game.board side last := by
  by_cases hp : Permitted game side
  · rw [captures_of_permitted hp]
  · rw [captures_of_not hp]
    exact Finset.empty_subset _

theorem hasSeed_captureRun (hrun : captureRun b side last ≠ ∅) :
    HasSeed b (oppositeRow side) := by
  obtain ⟨i, hi⟩ := Finset.nonempty_iff_ne_empty.mpr hrun
  exact ⟨i, captureRun_subset hi, (captureRun_takable hi).nonempty⟩

/-- **NO GRAND SLAM**, exactly under `SlamBarred`. -/
theorem no_grand_slam {side : Fin 2} (hb : boardSum game.board ≤ 48)
    (hv : (gamePlay machine game pos side).2 = .validPlay) :
    NoGrandSlam game pos side ↔ SlamBarred game pos side := by
  obtain ⟨hboard, hlast, hplay⟩ := gamePlay_valid (Nat.le_trans hb (by decide)) hv
  constructor
  · rintro ⟨hkeeps, -⟩
    by_contra hbar
    obtain ⟨hrun, hbar⟩ := not_or.mp hbar
    obtain ⟨hcov, hbyte⟩ := not_or.mp hbar
    have hperm : Permitted (sownGame game pos.toNat) side :=
      (permitted_of_covered (sownGame game pos.toNat) _ hcov).mpr (not_not.mp hbyte)
    rw [hboard, hplay, captures_of_permitted hperm] at hkeeps
    exact hcov (take_hasSeed (hkeeps (hasSeed_captureRun hrun)))
  · intro hbar
    by_cases hcov : HasSeed (sown game.board pos.toNat)
        (oppositeRow side \ nextRun game pos side)
    · refine ⟨fun _ => ?_, fun hnone => ?_⟩
      · rw [hplay]
        exact hasSeed_take (hcov.mono (Finset.sdiff_subset_sdiff (Finset.Subset.refl _)
          captures_subset))
      · rw [hboard, hlast] at hnone
        exact absurd hcov hnone
    · have hnone : captures (sownGame game pos.toNat) side (lastHouse game.board pos.toNat)
          = ∅ := by
        rcases hbar with hrun | hseed | hbyte
        · exact Finset.subset_empty.mp (hrun ▸ captures_subset)
        · exact absurd hseed hcov
        · exact captures_of_not (mt (permitted_of_covered (sownGame game pos.toNat) _ hcov).mp hbyte)
      rw [hnone, take_empty] at hplay
      refine ⟨fun hseed => ?_, fun _ => ?_⟩
      · rw [hplay]
        rw [hboard] at hseed
        exact hseed
      · rw [hplay, hboard]
        exact ⟨rfl, rfl⟩

/-- A started game of two players. -/
def twoPlayers (houses : List Nat) (first second : Int) : Game where
  board h := houses.getD h 0
  nbPlayers := 2
  nbSpectators := 0
  players e :=
    { id := e, name := CString.empty, captured := if e = 0 then first else second,
      clientIndex := e }
  isStarted := true
  turn := 1

/-- The last seed of side `0` is left to it: the byte behind its row is a house with 2 seeds. -/
theorem no_grand_slam_barred :
    NoGrandSlam (twoPlayers [1, 0, 0, 0, 0, 0, 2, 0, 0, 0, 0, 1] 22 22) 11 1 :=
  (no_grand_slam (by decide) (by decide)).mpr (Or.inr (Or.inr (by decide)))

/-- With one seed in that house it is taken. -/
theorem grand_slam_taken :
    let game := twoPlayers [1, 0, 0, 0, 0, 0, 1, 0, 0, 0, 0, 1] 22 23
    boardSum game.board ≤ 48 ∧ (gamePlay machine game 11 1).2 = .validPlay
      ∧ ¬ NoGrandSlam game 11 1 := by
  refine ⟨by decide, by decide, fun hslam => ?_⟩
  exact absurd (hslam.keeps (by decide)) (by decide)

/-! ## Exact captures -/

/-- `side` has taken the seeds of a set of houses, and nothing else has changed hands. -/
structure Takes (game game' : Game) (side : Nat) (R : Finset Nat) : Prop where
  board : ∀ h, game'.board h = if h.val ∈ R then 0 else game.board h
  mover : (game'.players side).captured = (game.players side).captured + seeds game.board R
  other : (game'.players (1 - side)).captured = (game.players (1 - side)).captured

/-- If the row keeps a seed outside the run, the play takes the run and nothing else. -/
def ExactCapture (game : Game) (pos : Int) (side : Fin 2) : Prop :=
  let w := sowHouse machine game.board pos.toNat
  let R := captureRun w.board side ((w.i - 1) % boardSize)
  HasSeed w.board (oppositeRow side \ R) →
    Takes { game with board := w.board } (gamePlay machine game pos side).1 side R

/-- The scan finds something to keep whenever there is something to take and to keep, and the
    mover's `int8_t` has room for it. -/
def CaptureAllowed (game : Game) (pos : Int) (side : Fin 2) : Prop :=
  let R := nextRun game pos side
  let count := (game.players side).captured + seeds (sown game.board pos.toNat) R
  HasSeed (sown game.board pos.toNat) (oppositeRow side \ R) →
    R = ∅ ∨ Permitted (sownGame game pos.toNat) side ∧ -128 ≤ count ∧ count ≤ 127

theorem bmod_eq_self_iff (z : Int) : z.bmod 256 = z ↔ -128 ≤ z ∧ z ≤ 127 := by
  rw [Int.bmod_def]
  split <;> omega

theorem takes_empty (game : Game) (side : Nat) : Takes game game side ∅ where
  board _ := rfl
  mover := (Int.add_zero _).symm
  other := rfl

theorem takes_take_iff (hR : R ≠ ∅) : Takes game (take game side R) side R
    ↔ -128 ≤ (game.players side).captured + seeds game.board R
      ∧ (game.players side).captured + seeds game.board R ≤ 127 := by
  have hmover : ((take game side R).players side).captured
      = ((game.players side).captured + seeds game.board R).bmod 256 := by
    show (Function.update game.players side _ side).captured = _
    rw [Function.update_self]
    exact if_neg hR
  have hother : (take game side R).players (1 - side) = game.players (1 - side) :=
    Function.update_of_ne (by omega) _ _
  rw [← bmod_eq_self_iff, ← hmover]
  refine ⟨fun h => h.mover, fun h => ⟨fun _ => rfl, h, ?_⟩⟩
  rw [hother]

/-- A run that is left alone still holds its seeds. -/
theorem not_takes_self (hR : captureRun game.board side last ≠ ∅) :
    ¬ Takes game game side (captureRun game.board side last) := by
  intro h
  obtain ⟨i, hi⟩ := Finset.nonempty_iff_ne_empty.mpr hR
  have hmod : (house i).val ∈ captureRun game.board side last := by
    show i % boardSize ∈ captureRun game.board side last
    rw [Nat.mod_eq_of_lt (oppositeRow_lt (captureRun_subset hi))]
    exact hi
  have hzero := h.board (house i)
  rw [if_pos hmod] at hzero
  exact absurd hzero (Nat.ne_of_gt (captureRun_takable hi).nonempty)

/-- **EXACT CAPTURES**, exactly under `CaptureAllowed`. -/
theorem exact_captures {side : Fin 2} (hb : boardSum game.board ≤ 48)
    (hv : (gamePlay machine game pos side).2 = .validPlay) :
    ExactCapture game pos side ↔ CaptureAllowed game pos side := by
  obtain ⟨hboard, hlast, hplay⟩ := gamePlay_valid (Nat.le_trans hb (by decide)) hv
  have hturn : ∀ (G G' : Game) (t : Nat) (R : Finset Nat),
      Takes G { G' with turn := t } side R ↔ Takes G G' side R :=
    fun _ _ _ _ => ⟨fun ⟨h1, h2, h3⟩ => ⟨h1, h2, h3⟩, fun ⟨h1, h2, h3⟩ => ⟨h1, h2, h3⟩⟩
  simp only [ExactCapture, CaptureAllowed, hboard, hlast, hplay, hturn]
  refine forall_congr' fun _ => ?_
  by_cases hrun : nextRun game pos side = ∅
  · have hnone : captures (sownGame game pos.toNat) side (lastHouse game.board pos.toNat) = ∅ :=
      Finset.subset_empty.mp (hrun ▸ captures_subset)
    rw [hnone, take_empty]
    refine iff_of_true ?_ (Or.inl hrun)
    rw [← nextRun, hrun]
    exact takes_empty _ _
  · rw [or_iff_right hrun]
    by_cases hperm : Permitted (sownGame game pos.toNat) side
    · rw [captures_of_permitted hperm, and_iff_right hperm]
      exact takes_take_iff hrun
    · rw [captures_of_not hperm, take_empty]
      exact iff_of_false (not_takes_self hrun) fun h => hperm h.1

/-- Two seeds are taken, and the last house of the row keeps its four. -/
theorem exact_captures_two :
    let game := twoPlayers [1, 0, 0, 0, 0, 4, 0, 0, 0, 0, 0, 1] 20 22
    HasSeed (sown game.board 11) (oppositeRow 1 \ nextRun game 11 1)
      ∧ ExactCapture game 11 1 := by
  refine ⟨by decide, (exact_captures (by decide) (by decide)).mpr fun _ => Or.inr ?_⟩
  decide

/-- Three seeds in a house below the last one would be left, and yet the two are not taken. -/
theorem capture_refused :
    let game := twoPlayers [1, 0, 3, 0, 0, 0, 0, 0, 0, 0, 0, 1] 20 23
    boardSum game.board ≤ 48 ∧ (gamePlay machine game 11 1).2 = .validPlay
      ∧ ¬ ExactCapture game 11 1 := by
  refine ⟨by decide, by decide, fun hexact => ?_⟩
  exact absurd ((hexact (by decide)).board (house 0)) (by decide)

end AwaleCapture
