import AwaleOnline.AwaleCodecProofs
import AwaleOnline.AwaleConservationProofs
import AwaleOnline.AwaleSendingProofs

/-!
# The board a member sees

Three pieces of code turn the board round: the encoder of PLAYED, the seat-to-house translation
of `handle_play`, and the client, which numbers the houses as it shows them.

* **`view`** — the scores and the houses as the player of a side counts them;
* **`shown_eq`** — the client makes the view of a side out of the bytes encoded for it;
* **`RoomRemoved`**, **`PlayedOn`** — what becomes of a room: the board after the move is the one
  the server goes on with, unless the game is over and the room is gone;
* **`move_shown`** — a PLAY acts on the house its sender sees under that number, and every
  member is sent the view of the new board once.
-/

namespace AwaleView

open AwaleGame AwaleProtocol AwaleServer AwaleEffect AwaleBounds AwaleRoster AwaleSystem
  AwaleStanding AwaleSending AwaleConservation AwaleCodec

variable {s s' : Server} {c i e : Nat} {game : Game} {side : Fin 2} {p : UInt8} {rand : UInt32}
  {out : List Sent}

/-! ## Views -/

/-- What a client shows of a PLAYED frame. -/
structure View where
  own : Int
  other : Int
  houses : List Nat
  deriving DecidableEq

/-- The scores and the houses as the player of a side counts them, its own first. -/
def view (side : Fin 2) (game : Game) : View where
  own := (game.players side).captured
  other := (game.players (1 - side.val)).captured
  houses := (List.range boardSize).map fun k => game.board (house (k + boardSize / 2 * side))

/-- The arguments of `handle_played`, as numbers. -/
def ofCall : HandlerCall → Option View
  | .played sScore oScore board => some ⟨sScore.toNat, oScore.toNat, board.map UInt8.toNat⟩
  | _ => none

/-- What the client reads in the bytes that the server's encoder leaves in a buffer. -/
def shown (buf : ByteBuffer) (side : Fin 2) (game : Game) : Option View :=
  (serverClientProtocolRead
    ((sentBytes ((ServerFrame.played side game).write buf)).drop 2 ++ [0])).join.bind ofCall

theorem view_house (side : Fin 2) (game : Game) {k : Nat} (hk : k < boardSize) :
    (view side game).houses[k]? = some (game.board (house (k + boardSize / 2 * side))) := by
  simp [view, hk]

/-- Swapped scores, and the board from the other side. -/
structure Opposite (v w : View) : Prop where
  own : w.own = v.other
  other : w.other = v.own
  houses : ∀ k < boardSize, w.houses[k]? = v.houses[(k + boardSize / 2) % boardSize]?

theorem view_opposite (game : Game) : Opposite (view 0 game) (view 1 game) := by
  refine ⟨rfl, rfl, fun k hk => ?_⟩
  have hhouse : house (k + boardSize / 2) = house ((k + boardSize / 2) % boardSize) := by
    refine Fin.ext ?_
    exact (Nat.mod_mod (k + boardSize / 2) boardSize).symm
  rw [view_house 1 game hk, view_house 0 game (Nat.mod_lt _ (by decide))]
  exact congrArg (fun h => some (game.board h)) hhouse

theorem toNat_byteOfCaptured {z : Int} (h0 : 0 ≤ z) (h1 : z < 256) :
    ((byteOfCaptured z).toNat : Int) = z := by
  have hlt : (z % 256).toNat < 256 := by omega
  rw [byteOfCaptured, UInt8.toNat_ofNat_of_lt' hlt]
  omega

/-- **THE CLIENT SHOWS THE VIEW** that was encoded, whatever the buffer held. -/
theorem shown_eq (buf : ByteBuffer) (side : Fin 2) (h : Conserved 48 game) :
    shown buf side game = some (view side game) := by
  have hbody : (ServerFrame.played side game).body.length < 65536 := by
    simp [ServerFrame.body, boardBytes, boardSize]
  obtain ⟨lo, hi, body, hsent, -, -, -, hread⟩ := server_round_trip buf _ hbody
  have hcount : ∀ e : Fin 2,
      ((byteOfCaptured (game.players e).captured).toNat : Int) = (game.players e).captured := by
    intro e
    obtain ⟨h0, hle⟩ := h.captured_le e
    exact toNat_byteOfCaptured h0 (by omega)
  have hhouses : (boardBytes side game).map UInt8.toNat = (view side game).houses := by
    rw [boardBytes, List.map_map]
    show _ = (List.range boardSize).map fun k => game.board (house (k + boardSize / 2 * side))
    refine List.map_congr_left fun k _ => ?_
    have hle := le_boardSum game.board (house (k + boardSize / 2 * side))
    have hsum := h.board_le
    have hsize : UInt8.size = 256 := rfl
    exact UInt8.toNat_ofNat_of_lt' (by omega)
  rw [shown, hsent]
  show (serverClientProtocolRead (body ++ [0])).join.bind ofCall = _
  rw [hread]
  show some (View.mk _ _ _) = _
  rw [hhouses, hcount side, hcount ⟨1 - side.val, by omega⟩]
  rfl

/-! ## A move -/

/-- The view an entry is sent: the second player's own, and the first player's for the others. -/
def sideOf (e : Nat) : Fin 2 := if e = 1 then 1 else 0

def isPlayed : ServerMsg → Bool
  | .played _ _ _ => true
  | _ => false

/-- No two member entries hold the same connected socket. -/
def DistinctMembers (game : Game) : Prop :=
  ∀ e, MemberAt game e → ∀ e', MemberAt game e' → (game.players e).id ≠ -1 →
    (game.players e).id = (game.players e').id → e = e'

/-- Room `i` is gone, and the rooms behind it have moved up. -/
structure RoomRemoved (s : Server) (i : Nat) (s' : Server) : Prop where
  count : s'.nbRooms = s.nbRooms - 1
  rooms : ∀ k, Live s' k → s'.rooms k = s.rooms (SlotArray.skip i k)

theorem roomRemoved {u : Server} (hrooms : ∀ k, k ≠ i → u.rooms k = s.rooms k)
    (hnb : u.nbRooms = s.nbRooms) : RoomRemoved s i (deleteRoom u i) := by
  constructor
  · show u.nbRooms - 1 = s.nbRooms - 1
    rw [hnb]
  · intro k hk
    exact (live_deleteRoom hk).2.trans (hrooms _ (SlotArray.skip_ne i k))

/-- Room `i` is in a position `game`, or removed when that ends the game. -/
def PlayedOn (s : Server) (i : Nat) (game : Game) (s' : Server) : Prop :=
  (gameIsEnded game = .notEnded ∧ s'.nbRooms = s.nbRooms ∧ (s'.rooms i).game = game)
    ∨ (gameIsEnded game ≠ .notEnded ∧ RoomRemoved s i s')

/-- What the members of room `i` see of the PLAY of house `p` by the player of a side. -/
structure MoveShown (s : Server) (c i : Nat) (side : Fin 2) (p : UInt8) (rand : UInt32)
    (buf : ByteBuffer) : Prop where
  /-- Before the move the player is shown the houses in the order in which it counts them. -/
  before : shown buf side (s.rooms i).game = some (view side (s.rooms i).game)
  /-- The move is made from the house shown at index `p`. -/
  house : playIn s c i p
      = gamePlay machine (s.rooms i).game (p.toNat + boardSize / 2 * side : Nat) side
    ∧ (view side (s.rooms i).game).houses[p.toNat]?
      = some ((s.rooms i).game.board (house (p.toNat + boardSize / 2 * side)))
  valid : (playIn s c i p).2 = .validPlay
  /-- Every connected member is sent one PLAYED frame, its view of the new board. -/
  sent : ∀ e, MemberAt (s.rooms i).game e → ((s.rooms i).game.players e).id ≠ -1 →
    framesTo ((s.rooms i).game.players e).id (replies s c i p)
      = [(ServerFrame.played (sideOf e) (playIn s c i p).1).msg]
  /-- No `send` of them fails. -/
  opened : Opened s (replies s c i p)
  /-- The new board is the one the server goes on with, and nobody is sent another. -/
  step : ∀ s' out, AwaleServer.trans s (.frame c (Request.play p).body rand) = some (s', out) →
    (∀ x, (framesTo x out).filter isPlayed = framesTo x (replies s c i p))
      ∧ PlayedOn s i (playIn s c i p).1 s'
  finishes : (winnerName (playIn s c i p).1 (gameIsEnded (playIn s c i p).1)).strlen + 5
      ≤ bufSize →
    ∃ s' out, AwaleServer.trans s (.frame c (Request.play p).body rand) = some (s', out)
  after : ∀ j : Fin 2, shown buf j (playIn s c i p).1 = some (view j (playIn s c i p).1)
  opposite : Opposite (view 0 (playIn s c i p).1) (view 1 (playIn s c i p).1)

/-- `handle_play` finishes a valid move unless the name of the winner is too long for its buffer,
    and its sends succeed when the members' descriptors are open. -/
theorem handlePlay_finishes (hfind : findRoom s (s.clients c).roomId = some i)
    (hvalid : (playIn s c i p).2 = .validPlay) (hseats : (s.rooms i).game.nbPlayers = 2)
    (hopen : ∀ x ∈ memberIds (s.rooms i).game, Writable s x)
    (hfits : (winnerName (playIn s c i p).1 (gameIsEnded (playIn s c i p).1)).strlen + 5
      ≤ bufSize) : ∃ s' out, handlePlay s c p = .ok (s', out) ∧ Opened s out := by
  have hsize : ¬ (ServerMsg.gameStopped (gameIsEnded (playIn s c i p).1 = .draw)
      (winnerName (playIn s c i p).1 (gameIsEnded (playIn s c i p).1))).size > bufSize := by
    simp only [ServerMsg.size]
    split <;> omega
  have hreplies : Opened s (replies s c i p) :=
    (opened_replies s c i p).mpr ⟨fun _ => hopen, fun hrej => absurd hvalid hrej⟩
  have hseat : ∀ e < 2, ∀ m, Opened s (writeClient ((playIn s c i p).1.players e).id m) := by
    intro e he m
    refine opened_writeClient.mpr (hopen _ (mem_memberIds.mpr ⟨e, Or.inl (hseats ▸ he), ?_⟩))
    exact ((play_frame s c i p).2.2.2 e).1.symm
  rw [handlePlay_eq hfind, if_neg hsize]
  split
  · exact ⟨_, _, rfl, opened_append.mpr
      ⟨opened_append.mpr ⟨hreplies, hseat 0 Nat.zero_lt_two _⟩, hseat 1 Nat.one_lt_two _⟩⟩
  · exact ⟨_, _, rfl, hreplies⟩

/-- A player is taken for the side it sits on. -/
theorem sideIn_seat (hdistinct : DistinctMembers (s.rooms i).game)
    (hseats : (s.rooms i).game.nbPlayers = 2)
    (hconn : ((s.rooms i).game.players side).id ≠ -1)
    (hsock : ((s.rooms i).game.players side).id = (s.clients c).sock) :
    sideIn s c i = side := by
  have hmem : ∀ e : Fin 2, MemberAt (s.rooms i).game e :=
    fun e => Or.inl (Nat.lt_of_lt_of_eq e.isLt hseats.symm)
  by_cases hside : side = 0
  · subst hside
    exact sideIn_zero hsock
  · have hone : side = 1 := by omega
    subst hone
    refine sideIn_one fun h0 => ?_
    exact absurd (hdistinct 1 (hmem 1) 0 (hmem 0) hconn (hsock.trans h0.symm)) Nat.one_ne_zero

/-- The frames of an accepted move are all PLAYED, and what follows them is not. -/
theorem filter_played (hvalid : (playIn s c i p).2 = .validPlay) (x : Int) :
    (framesTo x (replies s c i p)).filter isPlayed = framesTo x (replies s c i p) := by
  rw [replies_valid hvalid]
  refine List.filter_eq_self.mpr fun m hm => ?_
  obtain ⟨_, _, _, _, -, -, hm'⟩ := mem_playedFrames (mem_framesTo.mp hm)
  have hm'' : m = _ := hm'
  rw [hm'']
  rfl

theorem filter_stopped (x y : Int) (draw : Bool) (winner : CString) :
    (framesTo x (writeClient y (.gameStopped draw winner))).filter isPlayed = [] := by
  refine List.filter_eq_nil_iff.mpr fun m hm => ?_
  obtain ⟨-, heq⟩ := mem_writeClient.mp (mem_framesTo.mp hm)
  rw [(Prod.mk.inj heq).2]
  exact Bool.false_ne_true

/-- The view the server encodes for a member. -/
theorem viewSide_sideOf (hmem : MemberAt game e) (hn : game.nbPlayers = 2) :
    viewSide game e = sideOf e := by
  have hentry := hmem
  simp only [MemberAt, hn] at hentry
  simp only [viewSide, sideOf, hn]
  by_cases he : e = 1
  · rw [if_pos (by omega), if_pos he, he]
    rfl
  · rw [if_neg he]
    split
    · show e = 0
      omega
    · rfl

/-- The move of a player is the play of the house it counts as `p`. -/
theorem playIn_seat (hside : sideIn s c i = side) :
    playIn s c i p
      = gamePlay machine (s.rooms i).game (p.toNat + boardSize / 2 * side : Nat) side := by
  have hpos : sideIn s c i * boardSize / 2 + p.toNat = p.toNat + boardSize / 2 * side := by
    rw [hside]
    simp only [boardSize]
    omega
  rw [playIn, hpos, hside]

/-- The PLAYED frames of a valid move are its replies, and the room goes on with the new board,
    unless the game is over. -/
theorem played_step (hfind : findRoom s (s.clients c).roomId = some i)
    (hvalid : (playIn s c i p).2 = .validPlay)
    (h : step s (.frame c (Request.play p).body rand) = .ok (s', out)) :
    (∀ x, (framesTo x out).filter isPlayed = framesTo x (replies s c i p))
      ∧ PlayedOn s i (playIn s c i p).1 s' := by
  rw [step_play] at h
  have heff : Effect (received s (Request.play p).body) c 0 (.play p) s' out :=
    handleRequest_effect h
  cases heff with
  | playedNowhere hnone =>
      have hnone' : findRoom s (s.clients c).roomId = none := hnone
      rw [hnone'] at hfind
      cases hfind
  | played hsome hopen =>
      obtain rfl := Option.some.inj (hfind.symm.trans hsome)
      refine ⟨fun x => filter_played hvalid x, Or.inl ⟨hopen, rfl, ?_⟩⟩
      exact setGame_self (received s (Request.play p).body) i _
  | playedLast hsome hend =>
      obtain rfl := Option.some.inj (hfind.symm.trans hsome)
      refine ⟨fun x => ?_, Or.inr ⟨hend, roomRemoved (fun k hk => ?_) rfl⟩⟩
      · rw [framesTo_append, framesTo_append, List.filter_append, List.filter_append,
          filter_stopped, filter_stopped, List.append_nil, List.append_nil]
        exact filter_played hvalid x
      · exact setGame_of_ne (s := received s (Request.play p).body) hk _

/-- **THE BOARD A MEMBER SEES IS THE BOARD THE SERVER PLAYS ON**, in every room that is started
    and so has its two players, and whose connected members are clients of the server. -/
theorem move_shown (buf : ByteBuffer) (rand : UInt32)
    (hids : ∀ a, Live s a → ∀ b, Live s b → (s.rooms a).id = (s.rooms b).id → a = b)
    (hi : Live s i) (hseats : (s.rooms i).game.nbPlayers = 2)
    (hdistinct : DistinctMembers (s.rooms i).game) (htotal : Conserved 48 (s.rooms i).game)
    (hopen : ∀ x ∈ memberIds (s.rooms i).game, x ≠ -1 → Open s x) (hc : c < s.nbClients)
    (hconn : ((s.rooms i).game.players side).id ≠ -1)
    (hsock : ((s.rooms i).game.players side).id = (s.clients c).sock)
    (hroom : (s.clients c).roomId = (s.rooms i).id)
    (hp : p.toNat < 6)
    (hne : (s.rooms i).game.board (house (p.toNat + boardSize / 2 * side)) ≠ 0) :
    MoveShown s c i side p rand buf := by
  have hside := sideIn_seat hdistinct hseats hconn hsock
  have hfind : findRoom s (s.clients c).roomId = some i := by
    refine findRoom_eq_some.mpr ⟨hi, hroom.symm, fun k hk hid => ?_⟩
    have hlive : Live s k := live_iff.mpr (Nat.lt_trans hk (live_iff.mp hi))
    exact Nat.ne_of_lt hk (hids k hlive i hi (hid.trans hroom))
  have hplay : playIn s c i p = _ := playIn_seat hside
  have hhigh : p.toNat + boardSize / 2 * side < boardSize / 2 * side + boardSize / 2 := by
    simp only [boardSize]
    omega
  have hcheck : playCheck (s.rooms i).game (p.toNat + boardSize / 2 * side : Nat) side
      = .validPlay := by
    rw [playCheck_own (Nat.le_of_lt_succ side.isLt) (Nat.le_add_left ..) hhigh]
    exact if_neg (mt Nat.le_zero.mp hne)
  have hvalid : (playIn s c i p).2 = .validPlay := by
    rw [hplay, gamePlay, if_pos hcheck]
  have hafter : Conserved 48 (playIn s c i p).1 := by
    rw [hplay]
    exact (gamePlay_exact (machine_exact.mono (by decide)) htotal _ side).2
  obtain ⟨hmember, hperson, hn, -⟩ := playIn_frame s c i p
  have hwritable : ∀ x ∈ memberIds (s.rooms i).game, Writable s x := fun x hx =>
    or_iff_not_imp_left.mpr (hopen x hx)
  have hpossible : Possible s (.frame c (Request.play p).body rand) :=
    ⟨hc, show 0 < 2 by decide, show 2 < 65536 by decide⟩
  refine ⟨shown_eq buf side htotal, ⟨hplay, view_house side _ (by simp only [boardSize]; omega)⟩,
    hvalid, ?_, ?_, ?_, ?_, fun j => shown_eq buf j hafter, view_opposite _⟩
  · intro e he hx
    have honly : ∀ e', MemberAt (playIn s c i p).1 e' →
        ((playIn s c i p).1.players e').id = ((s.rooms i).game.players e).id → e' = e := by
      intro e' he' hid
      exact (hdistinct e he e' ((hmember e').mp he') hx
        (hid.symm.trans (hperson e').1)).symm
    have hview := framesTo_view hx (hn.trans hseats).le ((hmember e).mpr he) (hperson e).1 honly
    have hsideOf : viewSide (playIn s c i p).1 e = (sideOf e).val :=
      viewSide_sideOf ((hmember e).mpr he) (hn.trans hseats)
    rw [replies_valid hvalid, hview, hsideOf]
    rfl
  · exact (opened_replies s c i p).mpr ⟨fun _ => hwritable, fun hrej => absurd hvalid hrej⟩
  · intro s' out h
    exact played_step hfind hvalid (trans_eq_some h).2
  · intro hfits
    obtain ⟨s', out, hs, hsent⟩ := handlePlay_finishes
      (s := received s (Request.play p).body) hfind hvalid hseats hwritable hfits
    exact ⟨s', out, trans_eq hpossible ((step_play s c p rand).trans hs) hsent⟩

/-- Two players and a spectator at the start of a game. -/
def table : Server :=
  { initial fun _ => 0 with
    clients := fun a => ⟨4 + a, CString.empty, 7, CString.empty⟩
    nbClients := 3
    rooms := fun _ => ⟨7, ⟨fun _ => initialSeed, 2, 1,
      fun e => ⟨4 + e, CString.empty, 0, 0⟩, true, 0⟩⟩
    nbRooms := 1 }

theorem move_shown_table : MoveShown table 1 0 1 2 0 fun _ => 0 := by
  refine move_shown (fun _ => 0) 0 ?_ (by decide) rfl ?_ ?_ (by decide) (by decide) (by decide)
    rfl rfl (by decide) (by decide)
  · intro a ha b hb _
    have ha' : (a : Int) < 1 := ha
    have hb' : (b : Int) < 1 := hb
    omega
  · intro e _ e' _ _ hid
    have hid' : (4 : Int) + e = 4 + e' := hid
    omega
  · exact ⟨rfl, Int.le_refl 0, Int.le_refl 0⟩

end AwaleView
