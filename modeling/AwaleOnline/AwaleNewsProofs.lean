import AwaleOnline.AwaleScreenProofs
import AwaleOnline.AwaleServiceProofs

/-!
# What the server tells its members

The last board that a member was told, if it was told any since it entered its room, is the one
of its room's game, from its own side.

* **`Current`** — a told board is the game's;
* **`Informs`** — one event with its frames keeps it so for one client, wherever the event has
  put it: one lemma for each way the rooms change;
* **`informs_request`** — serving a request informs every client.
-/

namespace AwaleNews

open AwaleGame AwaleProtocol AwaleServer AwaleEffect AwaleBounds AwaleRoster
open AwaleClient AwaleSystem AwaleTidy AwaleDialogue AwaleStanding AwaleService AwaleScreen

variable {s s' : Server} {a c i j k e : Nat} {rand roomId : UInt32} {spectate pos : UInt8}
  {name : CString} {q : Request} {st : State} {U : List Request} {D fs : List ServerMsg}
  {out : List Sent} {x : Int} {game game' : Game} {told : Option ServerMsg} {m : ServerMsg}

/-- What the member at entry `e` was told, if anything, is the board as it sees it. -/
def Current (game : Game) (e : Nat) (told : Option ServerMsg) : Prop :=
  told = none ∨ (game.isStarted = true ∧ told = some (writePlayed (viewSide game e) game))

/-- The board that entry `e` sees is the same. -/
def SameView (game game' : Game) (e : Nat) : Prop :=
  game'.isStarted = game.isStarted
    ∧ writePlayed (viewSide game' e) game' = writePlayed (viewSide game e) game

theorem Current.same (h : Current game e told) (hsame : SameView game game' e) :
    Current game' e told := by
  rcases h with h | ⟨hst, h⟩
  · exact Or.inl h
  · exact Or.inr ⟨hsame.1.trans hst, h.trans (congrArg some hsame.2.symm)⟩

/-- The entries behind the seats and the people in the seats do not show. -/
theorem sameView_of (hseats : game.nbPlayers ≤ 2) (h1 : game'.isStarted = game.isStarted)
    (h2 : game'.nbPlayers = game.nbPlayers) (h3 : game'.board = game.board)
    (h4 : ∀ j < 2, (game'.players j).captured = (game.players j).captured) (e : Nat) :
    SameView game game' e := by
  have hside : viewSide game' e = viewSide game e := by
    rw [viewSide, viewSide, h2]
  have hlt : viewSide game e < 2 := by
    rw [viewSide]
    split <;> omega
  refine ⟨h1, ?_⟩
  rw [hside, writePlayed, writePlayed, h3, h4 _ hlt, h4 (1 - viewSide game e) (by omega)]

/-- **AN EVENT INFORMS** the client at descriptor `x`: with the frames it was sent, it is told
    what its room looks like now if it was before, or is in no room. -/
def Informs (s s' : Server) (x : Int) (fs : List ServerMsg) : Prop :=
  ∀ k' e, entry s' k' e = some x → ∀ told,
    (∀ k, entry s k e = some x → Current (s.rooms k).game e told) →
    Current (s'.rooms k').game e (fs.foldl tell told)

/-- The view stays, and nothing is told. -/
theorem Informs.same (hentry : ∀ k' e, entry s' k' e = some x →
      ∃ k, entry s k e = some x ∧ SameView (s.rooms k).game (s'.rooms k').game e)
    (hfs : ∀ m ∈ fs, Mute m) : Informs s s' x fs := by
  intro k' e he told hbefore
  obtain ⟨k, hk, hsame⟩ := hentry k' e he
  rw [foldl_mute hfs]
  exact (hbefore k hk).same hsame

theorem Informs.rooms (hrooms : s'.rooms = s.rooms) (hnb : s'.nbRooms = s.nbRooms)
    (hfs : ∀ m ∈ fs, Mute m) : Informs s s' x fs := by
  refine .same (fun k e he => ⟨k, ?_, ?_⟩) hfs
  · rwa [entry_congr hrooms hnb] at he
  · rw [hrooms]
    exact ⟨rfl, rfl⟩

/-- One room is rewritten with the same views. -/
theorem Informs.setGame (i : Nat) (game : Game)
    (hrooms : s'.rooms = (AwaleServer.setGame s i game).rooms)
    (hentry : ∀ k e, entry s' k e = some x → entry s k e = some x)
    (hsame : ∀ e, entry s' i e = some x → SameView (s.rooms i).game game e)
    (hfs : ∀ m ∈ fs, Mute m) : Informs s s' x fs := by
  refine .same (fun k e he => ⟨k, hentry k e he, ?_⟩) hfs
  rw [hrooms]
  by_cases hk : k = i
  · subst hk
    rw [setGame_self]
    exact hsame e he
  · rw [setGame_of_ne hk]
    exact ⟨rfl, rfl⟩

/-- A room is closed, and the members of the others are told nothing. -/
theorem Informs.deleteRoom {u : Server} (hrooms : ∀ k, k ≠ i → u.rooms k = s.rooms k)
    (hnb : u.nbRooms = s.nbRooms)
    (hother : ∀ k e, k ≠ i → entry s k e = some x → ∀ m ∈ fs, Mute m) :
    Informs s (AwaleServer.deleteRoom u i) x fs := by
  intro k e he told hbefore
  obtain ⟨he', hroom⟩ := entry_deleteRoom hrooms hnb he
  rw [hroom, foldl_mute (hother _ e (SlotArray.skip_ne i k) he')]
  exact hbefore _ he'

/-- A frame that starts anew leaves nothing told. -/
theorem informs_anew (hfs : ∀ told, fs.foldl tell told = none) : Informs s s' x fs := by
  intro k e _ told _
  exact Or.inl (hfs told)

theorem forall_framesTo {P : ServerMsg → Prop} (h : ∀ p ∈ out, P p.2) :
    ∀ m ∈ framesTo x out, P m := fun _ hm => h _ (mem_framesTo.mp hm)

theorem forall_writeClient {P : ServerMsg → Prop} (h : P m) :
    ∀ p ∈ writeClient x m, P p.2 := by
  intro p hp
  rw [(mem_writeClient.mp hp).2]
  exact h

/-- An answer that tells nothing, with the rooms left alone. -/
theorem informs_answer {y : Int} (hrooms : s'.rooms = s.rooms) (hnb : s'.nbRooms = s.nbRooms)
    (hm : Mute m) : Informs s s' x (framesTo x (writeClient y m)) :=
  .rooms hrooms hnb (forall_framesTo (forall_writeClient hm))

/-! ## CONNECT -/

theorem sameView_setPlayerId (game : Game) (j : Nat) (id : Int) (e : Nat) :
    SameView game (setPlayerId game j id) e := ⟨rfl, writePlayed_setPlayerId game j id _⟩

/-- What a player that takes its seat again is told. -/
theorem resume_current {t : Server} (hj : j < game.nbPlayers) (h : Resume t game j m) :
    Current game j (tell told m) := by
  cases h with
  | waiting hst hframe =>
      obtain ⟨_, _, _, _, rfl⟩ := joinRoomFrame_ok hframe
      exact Or.inl rfl
  | toMove hst ht =>
      have hside : viewSide game j = j := if_pos hj
      exact Or.inr ⟨hst, congrArg (fun side => some (writePlayed side game)) hside.symm⟩
  | toWait hst ht => exact Or.inl rfl

theorem informs_connect (ho : Orderly s) (hc : c < s.nbClients) (habsent : Absent (roster s) c)
    (ha : a < s.nbClients) (heff : Effect s c rand (.connect name) s' out) :
    Informs s s' (s.clients a).sock (framesTo (s.clients a).sock out) := by
  cases heff with
  | nameRefused _ => exact informs_answer rfl rfl fun _ => rfl
  | named _ _ => exact informs_answer rfl rfl fun _ => rfl
  | @resumed _ i j m _ hseat hresume =>
      obtain ⟨hi, hj, -⟩ := findSeat_some hseat
      have hgame : ((reseated s c name i j).rooms i).game
          = setPlayerId (s.rooms i).game j (s.clients c).sock := setGame_self _ i _
      have hentry : ∀ k e, entry (reseated s c name i j) k e = some (s.clients a).sock →
          (if k = i ∧ e = j then some (s.clients c).sock else entry s k e)
            = some (s.clients a).sock := by
        intro k e he
        rwa [entry_of_roster (roster_reseated hi hj)] at he
      by_cases hac : a = c
      · subst hac
        rw [framesTo_own ho hc]
        intro k e he told _
        have he' := hentry k e he
        split at he'
        · rename_i hke
          obtain ⟨rfl, rfl⟩ := hke
          rw [hgame]
          exact resume_current hj hresume
        · exact absurd he' (habsent k e)
      · rw [framesTo_answer ho ha hc hac]
        refine .setGame i (setPlayerId (s.rooms i).game j (s.clients c).sock) rfl ?_
          (fun e _ => sameView_setPlayerId _ _ _ e) (List.forall_mem_nil _)
        intro k e he
        have he' := hentry k e he
        split at he'
        · exact absurd (Option.some.inj he') (ho.sock_ne ha hc hac)
        · exact he'

/-! ## CREATE_ROOM and JOIN_ROOM -/

theorem informs_createRoom (ho : Orderly s) (hc : c < s.nbClients) (ha : a < s.nbClients)
    (heff : Effect s c rand .createRoom s' out) :
    Informs s s' (s.clients a).sock (framesTo (s.clients a).sock out) := by
  cases heff with
  | created h0 _ =>
      by_cases hac : a = c
      · subst hac
        rw [framesTo_own ho hc]
        exact informs_anew fun _ => rfl
      · rw [framesTo_answer ho ha hc hac]
        refine .same (fun k e he => ⟨k, ?_⟩) (List.forall_mem_nil _)
        rw [entry_of_roster (roster_created h0)] at he
        have he' : (if k = s.nbRooms.toNat ∧ e = 0 then some (s.clients c).sock else entry s k e)
          = some (s.clients a).sock := he
        split at he'
        · exact absurd (Option.some.inj he') (ho.sock_ne ha hc hac)
        · have hlive := (entry_eq_some.mp he').1
          rw [created_old c rand (Nat.ne_of_lt (live_iff.mp hlive))]
          exact ⟨he', rfl, rfl⟩

/-- GAME_START frames leave nothing told, or are none. -/
theorem gameStarts_told (x : Int) (game : Game) (told : Option ServerMsg) :
    (framesTo x (gameStarts game)).foldl tell told = told
      ∨ (framesTo x (gameStarts game)).foldl tell told = none := by
  have hfs : ∀ m ∈ framesTo x (gameStarts game), ∀ told, tell told m = none := by
    refine forall_framesTo fun p hp => ?_
    obtain ⟨k, -, hp⟩ := List.mem_flatMap.mp hp
    obtain ⟨-, rfl⟩ := mem_writeClient.mp hp
    exact fun _ => rfl
  generalize framesTo x (gameStarts game) = fs at hfs
  induction fs generalizing told with
  | nil => exact Or.inl rfl
  | cons m fs ih =>
      rw [List.foldl_cons, hfs m List.mem_cons_self told]
      rcases ih none (fun m' hm' => hfs m' (List.mem_cons_of_mem _ hm')) with h | h
      · exact Or.inr h
      · exact Or.inr h

theorem informs_joinRoom (ho : Orderly s) (hc : c < s.nbClients) (ha : a < s.nbClients)
    (heff : Effect s c rand (.joinRoom roomId spectate) s' out) :
    Informs s s' (s.clients a).sock (framesTo (s.clients a).sock out) := by
  cases heff with
  | joinNotFound _ => exact informs_answer rfl rfl fun _ => rfl
  | joinFull _ _ => exact informs_answer rfl rfl fun _ => rfl
  | @joined _ _ i frame hfind hopen hframe hgo =>
      have hi := (findRoom_eq_some.mp hfind).1
      obtain ⟨_, _, _, _, rfl⟩ := joinRoomFrame_ok hframe
      by_cases hac : a = c
      · subst hac
        rw [framesTo_own ho hc]
        exact informs_anew fun _ => rfl
      · rw [framesTo_answer ho ha hc hac]
        refine .setGame i (joinedGame s c i spectate) rfl ?_ ?_ (List.forall_mem_nil _)
        · intro k e he
          exact (ho.entry_joined ha hc hac hfind hopen _ rfl rfl rfl he).1
        · -- the newcomer is a spectator
          intro e _
          have hsp := ho.joined_spectates hi hopen hgo
          have hindex : addIndex (s.rooms i).game (spectate ≠ 0)
              = 2 + (s.rooms i).game.nbSpectators := by
            simp [addIndex, hsp]
          refine sameView_of (ho.sized i).seats ?_ ?_ ?_ (fun j hj => ?_) e
          · rfl
          · simp [joinedGame, gameAddPlayer, hsp]
          · rfl
          · rw [joinedGame, gameAddPlayer_of_ne (by omega)]
  | @started _ _ i frame hfind hopen hframe hgo =>
      have hi := (findRoom_eq_some.mp hfind).1
      obtain ⟨_, _, _, _, rfl⟩ := joinRoomFrame_ok hframe
      obtain ⟨rfl, hone, hst, -⟩ := ho.started_seats hi hgo
      rw [framesTo_append, setGame_joined]
      intro k e he told hbefore
      rw [List.foldl_append]
      by_cases hac : a = c
      · subst hac
        rw [framesTo_own ho hc]
        rcases gameStarts_told (s.clients a).sock (joinedGame s a i 0)
          ([ServerMsg.joinRoomSuccessful _ _ _ _].foldl tell told) with h | h
        · exact Or.inl h
        · exact Or.inl h
      · rw [framesTo_answer ho ha hc hac, List.foldl_nil]
        obtain ⟨hold, -⟩ := ho.entry_joined ha hc hac hfind hopen
          { joinedGame s c i 0 with isStarted := true } rfl rfl rfl he
        rcases gameStarts_told (s.clients a).sock (joinedGame s c i 0) told with h | h
        · rw [h]
          by_cases hk : k = i
          · -- nothing has been told of a game that had not started
            subst hk
            rcases hbefore k hold with hnone | ⟨hstarted, -⟩
            · exact Or.inl hnone
            · rw [hst] at hstarted
              cases hstarted
          · have hroom : (setRoomId (AwaleServer.setGame s i
                { joinedGame s c i 0 with isStarted := true }) c roomId).rooms k = s.rooms k :=
              setGame_of_ne hk _
            rw [hroom]
            exact hbefore k hold
        · exact Or.inl h

/-! ## PLAY -/

/-- **A VALID MOVE** tells every member the new board. -/
theorem framesTo_move (ho : Orderly s) (ha : a < s.nbClients)
    (hown : entry s i e = some (s.clients a).sock) (hvalid : (playIn s c i pos).2 = .validPlay) :
    framesTo (s.clients a).sock (replies s c i pos)
      = [writePlayed (viewSide (playIn s c i pos).1 e) (playIn s c i pos).1] := by
  obtain ⟨hmem, hsame, hn, -⟩ := playIn_frame s c i pos
  obtain ⟨hi, he, hid⟩ := entry_eq_some.mp hown
  rw [replies_valid hvalid]
  refine framesTo_view (ho.sock_ne_vacant ha) (hn ▸ (ho.sized i).seats) ((hmem e).mpr he)
    ((hsame e).1.trans hid) ?_
  intro e' he' hid'
  refine (ho.settled.single a ha i e' i e ?_ hown).2
  exact entry_eq_some.mpr ⟨hi, (hmem e').mp he', (hsame e').1.symm.trans hid'⟩

/-- Nobody in another room is told of a move. -/
theorem mute_replies (ho : Orderly s) (hc : c < s.nbClients) (ha : a < s.nbClients)
    (he : e < 2) (hown : entry s i e = some (s.clients c).sock) {e' : Nat} (hk : k ≠ i)
    (hother : entry s k e' = some (s.clients a).sock) :
    framesTo (s.clients a).sock (replies s c i pos) = [] := by
  have hac : a ≠ c := by
    rintro rfl
    exact hk (ho.settled.single a ha k e' i e hother hown).1
  refine ho.framesTo_replies_none ha hc hac he hown fun e₁ he₁ => hk ?_
  exact (ho.settled.single a ha k e' i e₁ hother he₁).1

theorem informs_played (ho : Orderly s) (hc : c < s.nbClients) (ha : a < s.nbClients)
    (hown : entry s i e = some (s.clients c).sock)
    (hturn : expected (s.rooms i).game e = .waitingPlayInput) :
    Informs s (setGame s i (playIn s c i pos).1) (s.clients a).sock
      (framesTo (s.clients a).sock (replies s c i pos)) := by
  obtain ⟨he, hst, -⟩ := expected_eq_waitingPlayInput hturn
  obtain ⟨-, -, -, hstarted⟩ := playIn_frame s c i pos
  intro k e' he' told hbefore
  rw [entry_of_roster (roster_played s c i pos)] at he'
  have hin : entry s k e' = some (s.clients a).sock := he'
  by_cases hk : k = i
  · subst hk
    rw [setGame_self]
    by_cases hvalid : (playIn s c k pos).2 = .validPlay
    · rw [framesTo_move ho ha hin hvalid]
      exact Or.inr ⟨hstarted.trans hst, rfl⟩
    · rw [playIn_rejected hvalid, ho.framesTo_rejected hc he hown hvalid,
        foldl_mute (forall_framesTo (forall_writeClient fun _ => rfl))]
      exact hbefore k hin
  · rw [setGame_of_ne hk, mute_replies ho hc ha he hown hk hin]
    exact hbefore k hin

theorem informs_playedLast (ho : Orderly s) (hc : c < s.nbClients) (ha : a < s.nbClients)
    (hown : entry s i e = some (s.clients c).sock)
    (hturn : expected (s.rooms i).game e = .waitingPlayInput) :
    Informs s (deleteRoom (setGame s i (playIn s c i pos).1) i) (s.clients a).sock
      (framesTo (s.clients a).sock (lastFrames s c i pos)) := by
  obtain ⟨he, -, -⟩ := expected_eq_waitingPlayInput hturn
  refine .deleteRoom (fun k hk => setGame_of_ne hk _) rfl ?_
  intro k e' hk hin
  rw [lastFrames, framesTo_append, framesTo_append, mute_replies ho hc ha he hown hk hin]
  refine List.forall_mem_append.mpr ⟨?_, forall_framesTo (forall_writeClient fun _ => rfl)⟩
  exact forall_framesTo (forall_writeClient fun _ => rfl)

theorem informs_play (ho : Orderly s) (hc : c < s.nbClients) (ha : a < s.nbClients)
    (hcoh : Coherent s c st (.play pos :: U) D) (heff : Effect s c rand (.play pos) s' out) :
    Informs s s' (s.clients a).sock (framesTo (s.clients a).sock out) := by
  obtain ⟨-, ⟨habsent, -⟩ | ⟨k, e, hown, -, hturn, -, -, -⟩⟩ := hcoh.moving
  · have hnone := ho.settled.findRoom_absent hc habsent
    cases heff with
    | playedNowhere _ => exact .rooms rfl rfl (List.forall_mem_nil _)
    | played hfind _ =>
        rw [hnone] at hfind
        cases hfind
    | playedLast hfind _ =>
        rw [hnone] at hfind
        cases hfind
  · have hfound := ho.settled.findRoom_member hc hown
    cases heff with
    | playedNowhere hfind =>
        rw [hfind] at hfound
        cases hfound
    | @played _ i hfind _ =>
        obtain rfl := Option.some.inj (hfind.symm.trans hfound)
        exact informs_played ho hc ha hown hturn
    | @playedLast _ i hfind _ =>
        obtain rfl := Option.some.inj (hfind.symm.trans hfound)
        exact informs_playedLast ho hc ha hown hturn

/-! ## LEAVE_ROOM -/

theorem sameView_removeSpectator (hseats : game.nbPlayers ≤ 2) (j e : Nat) :
    SameView game (removeSpectator game j) e := by
  refine sameView_of hseats ?_ ?_ ?_ (fun k hk => ?_) e
  · rfl
  · rfl
  · rfl
  · rw [removeSpectator_of_ne (by omega)]

/-- An entry that is cleared was the one of another client. -/
theorem Informs.cleared (hseats : (s.rooms i).game.nbPlayers ≤ 2)
    (hrooms : s'.rooms = (AwaleServer.setGame s i (removeSpectator (s.rooms i).game j)).rooms)
    (hentry : ∀ k e, entry s' k e = if k = i ∧ e = j + 2 then none else entry s k e) :
    Informs s s' x [] := by
  refine .setGame i (removeSpectator (s.rooms i).game j) hrooms ?_
    (fun e _ => sameView_removeSpectator hseats j e) (List.forall_mem_nil _)
  intro k e he
  rw [hentry] at he
  split at he
  · cases he
  · exact he

theorem informs_leaveRoom (ho : Orderly s) (hq : RequestMeets s c rand .leaveRoom)
    (heff : Effect s c rand .leaveRoom s' out) : Informs s s' x (framesTo x out) := by
  cases heff with
  | @closed i j _ _ _ _ =>
      refine .deleteRoom (u := setRoomId s c 0) (fun _ _ => rfl) rfl fun _ _ _ _ => ?_
      exact forall_framesTo fun p hp => mute_idle (idle_leaveFrames hp)
  | @unwatched i j hi _ _ hp hw =>
      rcases targetRoom_cases s (s.clients c).roomId with hfind | ⟨-, hend⟩
      · rw [hi] at hfind
        have hlive := (findRoom_eq_some.mp hfind).1
        have hlast := (hq.2 i hfind).2 hp j hw
        exact .cleared (ho.sized i).seats rfl fun k e =>
          entry_of_roster (roster_unwatched hlive (ho.sized i).seats hlast) k e
      · -- the slot behind the last room is nobody's
        have hdead : ¬ Live (setRoomId s c 0) i := by
          rw [← hi, hend]
          exact not_live_end s
        have hroster : roster (AwaleServer.setGame (setRoomId s c 0) i
            (removeSpectator (s.rooms i).game j)) = (roster s).enter c 0 :=
          (roster_setGame_dead hdead).trans (roster_setRoomId s c 0)
        refine .setGame i (removeSpectator (s.rooms i).game j) rfl (fun k e he => ?_)
          (fun e _ => sameView_removeSpectator (ho.sized i).seats j e) (List.forall_mem_nil _)
        rwa [entry_of_roster hroster] at he
  | leftNothing _ _ _ _ _ => exact .rooms rfl rfl (List.forall_mem_nil _)

/-! ## Any request -/

/-- **SERVING A REQUEST INFORMS EVERY CLIENT.** -/
theorem informs_request (ho : Orderly s) (hc : c < s.nbClients) (hq : RequestMeets s c rand q)
    (hcoh : Coherent s c st (q :: U) D) (heff : Effect s c rand q s' out)
    (ha : a < s.nbClients) :
    Informs s s' (s.clients a).sock (framesTo (s.clients a).sock out) := by
  cases q with
  | connect name => exact informs_connect ho hc hcoh.connecting.2.1 ha heff
  | createRoom => exact informs_createRoom ho hc ha heff
  | joinRoom roomId spectate => exact informs_joinRoom ho hc ha heff
  | play pos => exact informs_play ho hc ha hcoh heff
  | leaveRoom => exact informs_leaveRoom ho hq heff
  | sendMessage message =>
      cases heff with
      | messaged _ _ =>
          refine .rooms rfl rfl (forall_framesTo fun p hp => ?_)
          rw [mem_messageFrames hp]
          exact fun _ => rfl
  | setBiography biography =>
      cases heff with
      | described => exact .rooms rfl rfl (List.forall_mem_nil _)

/-- The end of a connection tells nobody anything. -/
theorem informs_detached (ho : Orderly s) (h : Detached s c s') (hx : x ≠ -1) :
    Informs s s' x [] := by
  cases h with
  | @seat i j hseat =>
      obtain ⟨hlt, -, hp, -⟩ := hseat
      have hj := (findPlayer_eq_some.mp hp).1
      have hi : Live s i := live_iff.mpr hlt
      refine .setGame i (setPlayerId (s.rooms i).game j (-1)) rfl (fun k e he => ?_)
        (fun e _ => sameView_setPlayerId _ _ _ e) (List.forall_mem_nil _)
      rw [entry_of_roster (roster_setPlayerId hi (Or.inl hj))] at he
      have he' : (if k = i ∧ e = j then some (-1) else entry s k e) = some x := he
      split at he'
      · exact absurd (Option.some.inj he').symm hx
      · exact he'
  | @spectator i j _ hhit hlast =>
      have hi : Live s i := live_iff.mpr hhit.1
      refine .cleared (ho.sized i).seats rfl fun k e =>
        entry_of_roster (r := (roster s).put i (j + 2) none) ?_ k e
      rw [roster_removeSpectator hi (ho.sized i).seats hhit.2.2.2.1, ← hlast, Roster.put_put]
  | absent _ _ => exact .rooms rfl rfl (List.forall_mem_nil _)

end AwaleNews
