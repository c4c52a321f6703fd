import AwaleOnline.AwaleLimitsProofs

/-!
# Every reply releases its requester

Four states of the client wait for the answer to a request and ignore the keyboard.  What the
server sends back has to end the wait.

* **`Awaits`** — which request each of them has sent;
* **`Released`** — the answer is not empty, and read in order it leads the client to the menu or
  the name prompt when it is a refusal, and to the room, the game or the menu otherwise;
* **`reply_releases`** — in every reachable state the server answers and the answer releases the
  client, just when its round `Finishes` and the answer is not the refusal of a spectator, which
  `handle_join_room_refused` does not expect.
-/

namespace AwaleRelease

open AwaleGame AwaleProtocol AwaleServer AwaleEffect AwaleBounds AwaleRoster AwaleClient
  AwaleSystem AwaleStanding AwaleLimits

variable {s s' : Server} {c : Nat} {rand : UInt32} {q : Request} {out : List Sent}
  {state state' : State}

/-! ## Waiting -/

/-- The states that ignore the keyboard until a frame comes. -/
def Waiting (state : State) : Prop :=
  state = .waitingConnection ∨ state = .waitingCreateRoomResponse
    ∨ state = .waitingJoinRoomResponse ∨ state = .waitingSpectateRoomResponse
    ∨ state = .waitingPlayAck

instance (state : State) : Decidable (Waiting state) :=
  inferInstanceAs (Decidable (_ ∨ _))

/-- The requests that are answered to their sender, and the states their senders wait in. -/
inductive Awaits : State → Request → Prop where
  | connect {name : CString} : Awaits .waitingConnection (.connect name)
  | createRoom : Awaits .waitingCreateRoomResponse .createRoom
  | join {roomId : UInt32} : Awaits .waitingJoinRoomResponse (.joinRoom roomId 0)
  | spectate {roomId : UInt32} : Awaits .waitingSpectateRoomResponse (.joinRoom roomId 1)

/-- A client that starts to wait, other than for the answer to a move, has sent the request
    its state awaits. -/
theorem typed_awaits {sent : List Request} (h : Typed state state' sent)
    (hnew : ¬ Waiting state) (hwait : Waiting state') (hplay : state' ≠ .waitingPlayAck) :
    ∃ q, sent = [q] ∧ Awaits state' q := by
  cases h with
  | nothing => exact absurd hwait hnew
  | connect => exact ⟨_, rfl, .connect⟩
  | choose hmenu => rcases hmenu with rfl | rfl | rfl | rfl <;> exact absurd hwait (by decide)
  | create => exact ⟨_, rfl, .createRoom⟩
  | join => exact ⟨_, rfl, .join⟩
  | spectate => exact ⟨_, rfl, .spectate⟩
  | describe => exact absurd hwait (by decide)
  | play => exact absurd rfl hplay
  | leave _ => exact absurd hwait (by decide)
  | say _ => exact absurd hwait hnew

def isRefusal : ServerMsg → Bool
  | .connectionRefused _ => true
  | .roomCreationRefused _ => true
  | .joinRoomRefused _ => true
  | _ => false

/-- Where a refused request leaves its sender: at the name prompt or the menu. -/
def Denied : Request → State → Prop
  | .connect _, state => state = .connecting
  | _, state => state = .connected

/-- A room joined as a player, or the game in it. -/
def Seated (state : State) : Prop :=
  state = .inRoom ∨ state = .inGame ∨ state = .waitingPlayInput

/-- Where a granted request leads: a connection to the menu, or back to the room or game. -/
def Granted : Request → State → Prop
  | .connect _, state => state = .connected ∨ Seated state
  | .createRoom, state => state = .inRoom
  | .joinRoom _ spectate, state => if spectate = 0 then Seated state else state = .spectating
  | _, _ => False

/-- **An answer that ends the wait.** -/
structure Released (state : State) (q : Request) (frames : List ServerMsg) : Prop where
  answered : frames ≠ []
  awake : ¬ Waiting (frames.foldl after state)
  refused : (∃ m ∈ frames, isRefusal m = true) → Denied q (frames.foldl after state)
  granted : (∀ m ∈ frames, isRefusal m = false) → Granted q (frames.foldl after state)

/-! ## One frame -/

/-- A refusal that moves the client. -/
theorem Released.of_refusal {m : ServerMsg} (hm : isRefusal m = true)
    (hdenied : Denied q (after state m)) (hawake : ¬ Waiting (after state m)) :
    Released state q [m] where
  answered := List.cons_ne_nil _ _
  awake := hawake
  refused _ := hdenied
  granted h := absurd hm (by simp [h m (List.mem_singleton_self m)])

/-- A grant, with the frames that follow it. -/
theorem Released.of_grant {m : ServerMsg} {rest : List ServerMsg} (hm : isRefusal m = false)
    (hrest : ∀ m ∈ rest, isRefusal m = false)
    (hgranted : Granted q ((m :: rest).foldl after state))
    (hawake : ¬ Waiting ((m :: rest).foldl after state)) : Released state q (m :: rest) where
  answered := List.cons_ne_nil _ _
  awake := hawake
  refused := by
    rintro ⟨m', hmem, hm'⟩
    have hall : ∀ m' ∈ m :: rest, isRefusal m' = false := List.forall_mem_cons.mpr ⟨hm, hrest⟩
    rw [hall m' hmem] at hm'
    cases hm'
  granted _ := hgranted

theorem Seated.awake (h : Seated state) : ¬ Waiting state := by
  rcases h with rfl | rfl | rfl <;> decide

/-- GAME_START frames keep a seated client in its room or game. -/
theorem Seated.starts (h : Seated state) {frames : List ServerMsg}
    (hframes : ∀ m ∈ frames, ∃ pos, m = .gameStart pos) :
    Seated (frames.foldl after state) := by
  induction frames generalizing state with
  | nil => exact h
  | cons m frames ih =>
      obtain ⟨⟨pos, rfl⟩, hrest⟩ := List.forall_mem_cons.mp hframes
      refine ih ?_ hrest
      rcases h with rfl | rfl | rfl
      · show Seated (handleGameStart .inRoom pos).1
        unfold handleGameStart
        rw [if_pos rfl]
        split_ifs
        · exact Or.inr (Or.inr rfl)
        · exact Or.inr (Or.inl rfl)
        · exact Or.inl rfl
      · exact Or.inr (Or.inl rfl)
      · exact Or.inr (Or.inr rfl)

/-- The only frames of a start are GAME_START frames. -/
theorem framesTo_gameStarts_kind {x : Int} {game : Game} {m : ServerMsg}
    (h : m ∈ framesTo x (gameStarts game)) : ∃ pos, m = .gameStart pos := by
  obtain ⟨j, -, hmem⟩ := List.mem_flatMap.mp (mem_framesTo.mp h)
  obtain ⟨-, heq⟩ := mem_writeClient.mp hmem
  exact ⟨_, (Prod.mk.inj heq).2⟩

/-! ## The answers -/

/-- A reconnection leads to the room or the game. -/
theorem resume_seated {game : Game} {j : Nat} {m : ServerMsg} (h : Resume s game j m) :
    isRefusal m = false ∧ Seated (after .waitingConnection m) := by
  cases h with
  | waiting _ hframe =>
      obtain ⟨_, _, _, _, rfl⟩ := joinRoomFrame_ok hframe
      exact ⟨rfl, Or.inl rfl⟩
  | toMove _ _ => exact ⟨rfl, Or.inr (Or.inr rfl)⟩
  | toWait _ _ => exact ⟨rfl, Or.inr (Or.inl rfl)⟩

/-- A request to watch a room names a live room. -/
def SpectatorFound (s : Server) (q : Request) : Prop :=
  ∀ roomId, q = .joinRoom roomId 1 → ∃ i, Live s i ∧ (s.rooms i).id = roomId

theorem spectatorFound_iff {roomId : UInt32} :
    SpectatorFound s (.joinRoom roomId 1) ↔ findRoom s roomId ≠ none := by
  constructor
  · intro h hnone
    obtain ⟨i, hi, hid⟩ := h roomId rfl
    exact findRoom_eq_none.mp hnone i hi hid
  · intro h r heq
    cases heq
    obtain ⟨i, hfind⟩ := Option.ne_none_iff_exists'.mp h
    obtain ⟨hi, hid, -⟩ := findRoom_eq_some.mp hfind
    exact ⟨i, hi, hid⟩

/-- **THE ANSWER TO A REQUEST**: it releases the client, unless a spectator finds no room. -/
theorem released_iff (hsized : ∀ k, Sized (s.rooms k).game)
    (hfounded : ∀ k, Live s k → 0 < (s.rooms k).game.nbPlayers)
    (hsock : (s.clients c).sock ≠ -1) (hw : Awaits state q)
    (heff : Effect s c rand q s' out) :
    Released state q (framesTo (s.clients c).sock out) ↔ SpectatorFound s q := by
  have hone := framesTo_self hsock
  cases hw with
  | @connect name =>
      have hfound : SpectatorFound s (.connect name) := by
        intro _ h
        cases h
      refine ⟨fun _ => hfound, fun _ => ?_⟩
      cases heff with
      | nameRefused _ =>
          rw [hone]
          exact .of_refusal rfl rfl (by decide)
      | named _ _ =>
          rw [hone]
          exact .of_grant rfl (List.forall_mem_nil _) (Or.inl rfl) (by decide)
      | resumed _ _ hresume =>
          rw [hone]
          obtain ⟨hm, hseated⟩ := resume_seated hresume
          exact .of_grant hm (List.forall_mem_nil _) (Or.inr hseated) hseated.awake
  | createRoom =>
      have hfound : SpectatorFound s .createRoom := by
        intro _ h
        cases h
      refine ⟨fun _ => hfound, fun _ => ?_⟩
      cases heff with
      | created _ _ =>
          rw [hone]
          have hseated : Seated .inRoom := Or.inl rfl
          exact .of_grant rfl (List.forall_mem_nil _) rfl hseated.awake
  | @join roomId =>
      have hfound : SpectatorFound s (.joinRoom roomId 0) := by
        intro _ h
        cases h
      refine ⟨fun _ => hfound, fun _ => ?_⟩
      cases heff with
      | joinNotFound _ =>
          rw [hone]
          exact .of_refusal rfl rfl (by decide)
      | joinFull _ _ =>
          rw [hone]
          exact .of_refusal rfl rfl (by decide)
      | joined _ _ hframe _ =>
          obtain ⟨_, _, _, _, rfl⟩ := joinRoomFrame_ok hframe
          rw [hone]
          have hseated : Seated .inRoom := Or.inl rfl
          exact .of_grant rfl (List.forall_mem_nil _) hseated hseated.awake
      | @started _ _ i _ _ _ hframe _ =>
          obtain ⟨n, k, users, bios, rfl⟩ := joinRoomFrame_ok hframe
          rw [framesTo_append, hone, List.singleton_append]
          -- GAME_START follows the answer and moves the client on
          have hroom : Seated .inRoom := Or.inl rfl
          have hseated : Seated ((ServerMsg.joinRoomSuccessful n k users bios
              :: framesTo (s.clients c).sock (gameStarts (joinedGame s c i 0))).foldl after
                .waitingJoinRoomResponse) :=
            hroom.starts fun _ => framesTo_gameStarts_kind
          refine .of_grant rfl ?_ hseated hseated.awake
          intro m hm
          obtain ⟨pos, rfl⟩ := framesTo_gameStarts_kind hm
          rfl
  | @spectate roomId =>
      rw [spectatorFound_iff]
      cases heff with
      | joinNotFound hnone =>
          -- `handle_join_room_refused` knows one of the two waiting states only
          rw [hone]
          refine ⟨fun h => absurd (by decide) h.awake, fun h => absurd hnone h⟩
      | @joinFull _ _ i _ hfull =>
          -- the limit of 1024 counts players only, and there are two at most
          have hseats := (hsized i).seats
          rcases hfull with ⟨hzero, -⟩ | hfull
          · exact absurd hzero (by decide)
          · have h1024 : maxGamePlayers = 1024 := rfl
            omega
      | joined hfind _ hframe _ =>
          obtain ⟨_, _, _, _, rfl⟩ := joinRoomFrame_ok hframe
          rw [hone, hfind]
          refine ⟨fun _ => Option.some_ne_none _, fun _ => ?_⟩
          have hawake : ¬ Waiting .spectating := by decide
          exact .of_grant rfl (List.forall_mem_nil _) rfl hawake
      | @started _ _ i _ hfind _ _ hgo =>
          -- a spectator starts no game
          have hi := (findRoom_eq_some.mp hfind).1
          exact absurd (((hsized i).join_starts (hfounded i hi) _ _).mp hgo).1 (by decide)

/-- The round of a request that is sent whole finishes. -/
theorem request_finishes (hr : AwaleServer.Reachable Guard.any.meets s)
    (hp : Possible s (.frame c q.body rand)) :
    (∃ s' out, AwaleServer.trans s (.frame c q.body rand) = some (s', out))
      ↔ q.body.length < bufSize ∧ Finishes s c q := by
  have hsurvives := frame_finishes hr hp
  constructor
  · rintro ⟨s', out, htr⟩
    obtain ⟨hlen, hfinishes⟩ := hsurvives.mp (by rw [htr]; rfl)
    exact ⟨hlen, hfinishes q (readRequest_body s.buffer hlen)⟩
  · rintro ⟨hlen, hfinishes⟩
    have hread : readRequest (received s q.body).buffer = some q := readRequest_body s.buffer hlen
    have hsome : (AwaleServer.trans s (.frame c q.body rand)).isSome := by
      refine hsurvives.mpr ⟨hlen, fun q' hq' => ?_⟩
      obtain rfl : q = q' := Option.some.inj (hread.symm.trans hq')
      exact hfinishes
    obtain ⟨⟨s', out⟩, htr⟩ := Option.isSome_iff_exists.mp hsome
    exact ⟨s', out, htr⟩

/-- What a round that finishes sends to its client. -/
theorem answer_released (hr : AwaleServer.Reachable Guard.any.meets s) (hw : Awaits state q)
    (h : AwaleServer.trans s (.frame c q.body rand) = some (s', out)) :
    Released state q (framesTo (s.clients c).sock out) ↔ SpectatorFound s q := by
  obtain ⟨hp, hstep⟩ := trans_eq_some h
  obtain ⟨hlen, hout⟩ := step_cases hstep
  have hread : readRequest (received s q.body).buffer = some q := readRequest_body s.buffer hlen
  have hsock : (s.clients c).sock ≠ -1 := connected_reachable hr hp.1
  rcases hout with ⟨hnone, -, -⟩ | ⟨q', hq', heff⟩
  · rw [hread] at hnone
    cases hnone
  · obtain rfl : q' = q := Option.some.inj (hq'.symm.trans hread)
    have hsized := sized_reachable hr
    have hfounded := founded_reachable hr
    exact released_iff (s := received s q'.body) hsized hfounded hsock hw heff

/-- **EVERY REPLY RELEASES ITS REQUESTER.**  In every reachable state a client that waits for the
    answer to a request gets one that ends the wait as it should, just when the frames and the
    tables have room for it, what is written to is open, and, the request being to watch a room,
    there is a room with that id. -/
theorem reply_releases (hr : AwaleServer.Reachable Guard.any.meets s) (hw : Awaits state q)
    (hp : Possible s (.frame c q.body rand)) :
    (∃ s' out, AwaleServer.trans s (.frame c q.body rand) = some (s', out)
        ∧ Released state q (framesTo (s.clients c).sock out))
      ↔ (q.body.length < bufSize ∧ Finishes s c q) ∧ SpectatorFound s q := by
  rw [← request_finishes hr hp]
  constructor
  · rintro ⟨s', out, htr, hreleased⟩
    exact ⟨⟨s', out, htr⟩, (answer_released hr hw htr).mp hreleased⟩
  · rintro ⟨⟨s', out, htr⟩, hfound⟩
    exact ⟨s', out, htr, (answer_released hr hw htr).mpr hfound⟩

/-- A server with one connection and no room. -/
def newcomer : Server := accepted (initial fun _ => 0) 5

theorem newcomer_reachable : AwaleServer.Reachable Guard.any.meets newcomer :=
  .next (e := .accept 5) (o := []) (.start ⟨_, rfl⟩) (Guard.meets_any _)
    (trans_eq (by decide) rfl (opened_nil _))

/-- A room is asked for, and the answer leads into it. -/
theorem reply_releases_newcomer :
    ∃ s' out, AwaleServer.trans newcomer (.frame 0 Request.createRoom.body 7) = some (s', out)
      ∧ Released .waitingCreateRoomResponse .createRoom
          (framesTo (newcomer.clients 0).sock out) := by
  refine (reply_releases newcomer_reachable .createRoom (by decide)).mpr
    ⟨⟨by decide, by decide⟩, fun _ h => ?_⟩
  cases h

/-- A spectator who asks for a room that does not exist is refused, and waits on. -/
theorem refused_spectator_waits :
    AwaleServer.Reachable Guard.any.meets newcomer
      ∧ Awaits .waitingSpectateRoomResponse (.joinRoom 7 1)
      ∧ ∃ s' m, AwaleServer.trans newcomer (.frame 0 (Request.joinRoom 7 1).body 0)
          = some (s', [((newcomer.clients 0).sock, m)])
        ∧ after .waitingSpectateRoomResponse m = .waitingSpectateRoomResponse
        ∧ ¬ Released .waitingSpectateRoomResponse (.joinRoom 7 1) [m] := by
  refine ⟨newcomer_reachable, .spectate, received newcomer (Request.joinRoom 7 1).body,
    .joinRoomRefused (literal "Error: Room not found."),
    trans_eq (by decide) rfl (opened_own (s := newcomer) (c := 0) (by decide) _), rfl, ?_⟩
  intro h
  exact absurd (by decide) h.awake

end AwaleRelease
