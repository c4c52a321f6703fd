import AwaleOnline.AwaleStandingProofs
import AwaleOnline.AwaleSeatsProofs

/-!
# Whose biography is shown

A seat stores the index its player had in the client table when it sat down.  Biographies are
looked up by that index, while the table moves up at each disconnection, and a reconnection gives
the seat a new socket and leaves the index as it is.

* **`Attached`** — every seat that is not vacant stores the index of the client on its socket;
* **`attached_reachable`** — this holds as long as no disconnection moves a client that sits
  somewhere, and no seat is resumed from another index (`bioGuard`);
* **`biographies_shown`** — and then each JOIN_ROOM_SUCCESSFUL frame shows the biographies of the
  players it names.
-/

namespace AwaleBiography

open AwaleGame AwaleProtocol AwaleServer AwaleEffect AwaleRoster AwaleBounds AwaleSeats
  AwaleStanding

variable {s s' s₁ : Server} {c i : Nat} {rand : UInt32} {q : Request} {out : List Sent}

/-! ## The stored index -/

/-- Every seat that is not vacant stores the index of the client on its socket. -/
def Attached (s : Server) : Prop :=
  ∀ k e x name a, Place s k e x name a → x ≠ -1 → a < s.nbClients ∧ (s.clients a).sock = x

/-- A seat is resumed from the index it stores; a client disconnects only when the other seats
    taken store smaller indices, and its own is the one that `disconnect_user` finds. -/
def bioGuard : Guard where
  accept _ _ := True
  request s c _ q :=
    match q with
    | .connect name => nameInUse s name = false →
        ∀ p ∈ findSeat s name, ((s.rooms p.1).game.players p.2).clientIndex = c
    | _ => True
  disconnect s c := ∀ k < s.nbRooms.toNat, ∀ e < (s.rooms k).game.nbPlayers,
    ((s.rooms k).game.players e).id ≠ -1 →
      ((s.rooms k).game.players e).clientIndex < c ∨ SeatFound s c k e

instance (s : Server) (csock : Int) : Decidable (bioGuard.accept s csock) :=
  inferInstanceAs (Decidable True)

instance (s : Server) (c : Nat) (rand : UInt32) (q : Request) :
    Decidable (bioGuard.request s c rand q) := by
  refine q.casesOn ?_ ?_ ?_ ?_ ?_ ?_ ?_ <;> intros <;> dsimp only [bioGuard] <;> infer_instance

instance (s : Server) (c : Nat) : Decidable (bioGuard.disconnect s c) :=
  inferInstanceAs (Decidable (∀ k < s.nbRooms.toNat, ∀ e < _, _ → _ ∨ SeatFound s c k e))

theorem Attached.accept (h : Attached s) (csock : Int) : Attached (accepted s csock) := by
  intro k e x name a hplace hx
  obtain ⟨ha, hsock⟩ := h k e x name a
    ⟨⟨hplace.live, hplace.taken, hplace.id, hplace.name⟩, hplace.index⟩ hx
  refine ⟨Nat.lt_succ_of_lt ha, ?_⟩
  rw [accepted_of_ne (Nat.ne_of_lt ha)]
  exact hsock

theorem Attached.request (h : Attached s) (hseats : ∀ k, (s.rooms k).game.nbPlayers ≤ 2)
    (hc : c < s.nbClients) (hq : bioGuard.request s c rand q)
    (heff : Effect s c rand q s' out) : Attached s' := by
  intro k e x name a hplace hx
  rw [heff.counts, heff.sock]
  rcases AwaleSeats.Effect.place hseats heff hplace with
    ⟨k₀, hold⟩ | ⟨rfl, -, rfl | ⟨newName, i, j, rfl, hresumes, rfl⟩⟩
  · exact h k₀ e x name a hold hx
  · exact ⟨hc, rfl⟩
  · -- the resumed seat stores the index of the client that comes back
    have hindex := hq hresumes.free (i, j) hresumes.found
    rw [hindex]
    exact ⟨hc, rfl⟩

/-- The clients in front of the one that goes keep their index. -/
theorem Attached.disconnect (h : Attached s) (hseats : ∀ k, (s.rooms k).game.nbPlayers ≤ 2)
    (hc : c < s.nbClients) (hg : bioGuard.disconnect s c) (hd : disconnectUser s c = .ok s₁) :
    Attached (removeClient s₁ c) := by
  obtain ⟨hclients, hn, hnb⟩ := disconnectUser_frame hd
  have hfront : ∀ a < c, (removeClient s₁ c).clients a = s.clients a := by
    intro a ha
    show SlotArray.shiftDown s₁.clients c (s₁.nbClients - 1) a = s.clients a
    rw [SlotArray.shiftDown_apply, if_neg (by omega), hclients]
  have hcount : (removeClient s₁ c).nbClients = s.nbClients - 1 := by
    rw [← hn]
    rfl
  intro k e x name a hplace hx
  have hk : Live s k := (live_congr hnb k).mp hplace.live
  -- a seat that is still taken was taken before, and it is not the one that was found
  have hold : ∀ t, SameSeats t s₁ → (∀ k, (t.rooms k).game.nbPlayers ≤ 2) →
      e < (t.rooms k).game.nbPlayers ∧ ((t.rooms k).game.players e).id = x
        ∧ ((t.rooms k).game.players e).clientIndex = a := by
    intro t hsame htwo
    have htaken : e < (s₁.rooms k).game.nbPlayers := hplace.taken
    rw [hsame.counts k] at htaken
    have he : e < 2 := Nat.lt_of_lt_of_le htaken (htwo k)
    rw [← hsame.seats k e he]
    exact ⟨htaken, hplace.id, hplace.index⟩
  have hfound : e < (s.rooms k).game.nbPlayers ∧ ((s.rooms k).game.players e).id = x
      ∧ ((s.rooms k).game.players e).clientIndex = a ∧ ¬ SeatFound s c k e := by
    rcases disconnectUser_seats hseats hd with ⟨i, j, hseat, hsame⟩ | ⟨hno, hsame⟩
    · have htwo : ∀ k, ((vacated s i j).rooms k).game.nbPlayers ≤ 2 :=
        setGame_slots (P := fun _ game => game.nbPlayers ≤ 2) (fun k _ => hseats k) (hseats i)
      obtain ⟨htaken, hid, hindex⟩ := hold _ hsame htwo
      by_cases hki : k = i
      · subst hki
        rw [vacated, setGame_self] at htaken hid hindex
        by_cases hej : e = j
        · rw [hej, setPlayerId_self] at hid
          exact absurd hid.symm hx
        · rw [setPlayerId_of_ne hej] at hid hindex
          exact ⟨htaken, hid, hindex, fun hseat' => hej (seatFound_unique hseat' hseat).2⟩
      · rw [vacated, setGame_of_ne hki] at htaken hid hindex
        exact ⟨htaken, hid, hindex, fun hseat' => hki (seatFound_unique hseat' hseat).1⟩
    · obtain ⟨htaken, hid, hindex⟩ := hold _ hsame hseats
      exact ⟨htaken, hid, hindex, hno.not_found⟩
  obtain ⟨htaken, hid, hindex, hother⟩ := hfound
  have hlt : a < c := by
    have hcases := hg k (live_iff.mp hk) e htaken (by rw [hid]; exact hx)
    rw [hindex] at hcases
    exact hcases.resolve_right hother
  obtain ⟨-, hsock⟩ := h k e x _ a ⟨⟨hk, htaken, hid, rfl⟩, hindex⟩ hx
  rw [hcount, hfront a hlt]
  exact ⟨by omega, hsock⟩

/-- **THE INDEX IS KEPT** in every run under `bioGuard`. -/
theorem attached_reachable (h : AwaleServer.Reachable bioGuard.meets s) : Attached s := by
  refine Guard.invariant_with (J := fun s => ∀ k, (s.rooms k).game.nbPlayers ≤ 2)
    (I := Attached) (fun t ht => seats_reachable t ht) (fun _ _ h => h) ?_ ?_ ?_ ?_ ?_ h
  · intro b k e x name a hplace
    exact absurd hplace.live (not_live_of_le (Int.le_refl 0) k)
  · intro t b ht k e x name a hplace
    exact ht k e x name a
      ⟨⟨hplace.live, hplace.taken, hplace.id, hplace.name⟩, hplace.index⟩
  · intro t csock _ ht _ _ _ _
    exact ht.accept csock
  · intro t c rand q t' out hJ ht hc hq heff
    exact ht.request hJ hc hq heff
  · intro t c t₁ hJ ht hc hg hd
    exact ht.disconnect hJ hc hg hd

/-! ## The frame -/

/-- The room whose players a request is told of. -/
def shownRoom (s : Server) : Request → Option Nat
  | .joinRoom roomId _ => findRoom s roomId
  | .connect name => (findSeat s name).map Prod.fst
  | _ => none

/-- The players of room `i` are named, each connected one with its own biography. -/
structure BiosShown (s : Server) (i : Nat) (users bios : List CString) : Prop where
  names : ∀ j < (s.rooms i).game.nbPlayers,
    users[j]? = some ((s.rooms i).game.players j).name
  own : ∀ j < (s.rooms i).game.nbPlayers, ((s.rooms i).game.players j).id ≠ -1 →
    ∃ a < s.nbClients, (s.clients a).sock = ((s.rooms i).game.players j).id
      ∧ bios[j]? = some (s.clients a).biography

instance (s : Server) (i : Nat) (users bios : List CString) :
    Decidable (BiosShown s i users bios) :=
  decidable_of_iff
    ((∀ j < (s.rooms i).game.nbPlayers, _)
      ∧ ∀ j < (s.rooms i).game.nbPlayers, _ → ∃ a < s.nbClients, _ ∧ _)
    ⟨fun h => ⟨h.1, h.2⟩, fun h => ⟨h.names, h.own⟩⟩

/-- What the frame of a room with two seats at most holds at entry `j`. -/
theorem joinRoomFrame_entries {game : Game} {n k : UInt8} {users bios : List CString} {j : Nat}
    (h : joinRoomFrame s game = .ok (.joinRoomSuccessful n k users bios))
    (hj : j < game.nbPlayers) :
    users[j]? = some (game.players j).name
      ∧ bios[j]? = some (s.clients (game.players j).clientIndex).biography := by
  simp only [joinRoomFrame] at h
  split_ifs at h with htwo hnames hindex hsize
  obtain ⟨rfl, -, rfl, rfl⟩ := ServerMsg.joinRoomSuccessful.inj (Except.ok.inj h)
  have hn : (UInt8.ofNat game.nbPlayers).toNat = game.nbPlayers := by
    rw [UInt8.toNat_ofNat']
    omega
  constructor
  · rw [List.getElem?_take_of_lt (by omega), playerNames, List.getElem?_append_left (by
      rw [List.length_map, List.length_range]
      exact hj), List.getElem?_map, List.getElem?_range hj]
    rfl
  · rw [List.getElem?_take_of_lt (by omega), playerBios, List.getElem?_map,
      List.getElem?_range hj]
    rfl

/-- The answers to a play are about the play. -/
theorem replies_kind {pos : UInt8} {p : Sent} (hp : p ∈ replies s c i pos) :
    (∃ score score' board, p.2 = .played score score' board)
      ∨ ∃ text, p.2 = .invalidPlay text := by
  by_cases hvalid : (playIn s c i pos).2 = .validPlay
  · rw [replies_valid hvalid] at hp
    obtain ⟨_, score, score', board, -, -, heq⟩ := mem_playedFrames hp
    exact Or.inl ⟨score, score', board, heq⟩
  · rw [replies_rejected hvalid] at hp
    exact Or.inr ⟨_, congrArg Prod.snd (mem_writeClient.mp hp).2⟩

/-- **WHERE THE FRAME COMES FROM.**  A JOIN_ROOM_SUCCESSFUL frame is built from the room joined
    or resumed, as it is left behind. -/
theorem shown_frame (heff : Effect s c rand q s' out) {x : Int} {n k : UInt8}
    {users bios : List CString} (hsent : (x, .joinRoomSuccessful n k users bios) ∈ out) :
    ∃ i, shownRoom s q = some i ∧ Live s' i
      ∧ joinRoomFrame s' (s'.rooms i).game = .ok (.joinRoomSuccessful n k users bios) := by
  have hanswer : ∀ {y : Int} {m : ServerMsg},
      (x, .joinRoomSuccessful n k users bios) ∈ writeClient y m →
      m = .joinRoomSuccessful n k users bios := fun hmem =>
    (Prod.mk.inj (mem_writeClient.mp hmem).2).2.symm
  have hplayed : ∀ {i pos}, (x, .joinRoomSuccessful n k users bios) ∉ replies s c i pos := by
    intro i pos hmem
    rcases replies_kind hmem with ⟨_, _, _, heq⟩ | ⟨_, heq⟩
    · cases heq
    · cases heq
  cases heff with
  | nameRefused _ => cases hanswer hsent
  | named _ _ => cases hanswer hsent
  | @resumed name i j m hfree hseat hresume =>
      obtain ⟨hi, -, -⟩ := findSeat_some hseat
      refine ⟨i, by rw [shownRoom, hseat]; rfl, hi, ?_⟩
      obtain rfl := hanswer hsent
      have hgame : ((reseated s c name i j).rooms i).game
          = setPlayerId (s.rooms i).game j (s.clients c).sock := setGame_self ..
      rw [hgame]
      generalize hm : ServerMsg.joinRoomSuccessful n k users bios = m at hresume
      cases hresume with
      | waiting _ hframe => exact hframe
      | toMove _ _ => cases hm
      | toWait _ _ => cases hm
  | created _ _ => cases hanswer hsent
  | joinNotFound _ => cases hanswer hsent
  | joinFull _ _ => cases hanswer hsent
  | @joined roomId spectate i frame hfind _ hframe _ =>
      refine ⟨i, hfind, (findRoom_eq_some.mp hfind).1, ?_⟩
      have hgame : ((joined s c i roomId spectate).rooms i).game = joinedGame s c i spectate :=
        setGame_self s i _
      rw [hgame, hframe, hanswer hsent]
  | @started roomId spectate i frame hfind _ hframe _ =>
      refine ⟨i, hfind, (findRoom_eq_some.mp hfind).1, ?_⟩
      rw [setGame_self]
      -- the start is not part of the frame
      have hframe' : joinRoomFrame (setGame (joined s c i roomId spectate) i
            { joinedGame s c i spectate with isStarted := true })
          { joinedGame s c i spectate with isStarted := true } = .ok frame := hframe
      rcases List.mem_append.mp hsent with hmem | hmem
      · rw [hframe', hanswer hmem]
      · obtain ⟨j, -, hj⟩ := List.mem_flatMap.mp hmem
        cases hanswer hj
  | playedNowhere _ => exact absurd hsent List.not_mem_nil
  | played _ _ => exact absurd hsent hplayed
  | playedLast _ _ =>
      rcases List.mem_append.mp hsent with hmem | hmem
      · rcases List.mem_append.mp hmem with hmem | hmem
        · exact absurd hmem hplayed
        · cases hanswer hmem
      · cases hanswer hmem
  | closed _ _ _ _ =>
      obtain ⟨_, -, -, -, -, heq⟩ := mem_leaveFrames hsent
      cases heq
  | unwatched _ _ _ _ _ => exact absurd hsent List.not_mem_nil
  | leftNothing _ _ _ _ _ => exact absurd hsent List.not_mem_nil
  | messaged _ _ => cases mem_messageFrames hsent
  | described => exact absurd hsent List.not_mem_nil

/-- **BIOGRAPHIES.**  In every run under `bioGuard`, a JOIN_ROOM_SUCCESSFUL frame answers a
    request that joins or resumes a room, and shows each connected player of that room with the
    biography of the client on its seat. -/
theorem biographies_shown (h : AwaleServer.Reachable bioGuard.meets s) {e : Event}
    (hg : bioGuard.meets s e) (htr : AwaleServer.trans s e = some (s', out)) {x : Int}
    {n k : UInt8} {users bios : List CString}
    (hsent : (x, .joinRoomSuccessful n k users bios) ∈ out) :
    ∃ c body rand q i, e = .frame c body rand
      ∧ readRequest (received s body).buffer = some q
      ∧ shownRoom (received s body) q = some i ∧ BiosShown s' i users bios := by
  have hattached : Attached s' := attached_reachable (.next h hg htr)
  have hout := step_cases (trans_eq_some htr).2
  cases e with
  | accept csock =>
      obtain ⟨-, -, rfl⟩ := hout
      exact absurd hsent List.not_mem_nil
  | disconnect c =>
      obtain ⟨-, -, -, rfl⟩ := hout
      exact absurd hsent List.not_mem_nil
  | frame c body rand =>
      obtain ⟨-, ⟨-, -, rfl⟩ | ⟨q, hq, heff⟩⟩ := hout
      · exact absurd hsent List.not_mem_nil
      obtain ⟨i, hshown, hi, hframe⟩ := shown_frame heff hsent
      refine ⟨c, body, rand, q, i, rfl, hq, hshown, fun j hj => ?_, fun j hj hid => ?_⟩
      · exact (joinRoomFrame_entries hframe hj).1
      · obtain ⟨ha, hsock⟩ := hattached i j _ _ _ ⟨⟨hi, hj, rfl, rfl⟩, rfl⟩ hid
        exact ⟨_, ha, hsock, (joinRoomFrame_entries hframe hj).2⟩

/-- The second client joins room 7 as a player. -/
def joinSeven : Event := .frame 1 (Request.joinRoom 7 0).body 0

/-- The creator describes itself; the client behind it goes, and the next one joins. -/
theorem biographies_shown_newcomer :
    ∃ s s' out users i, AwaleServer.trans s joinSeven = some (s', out)
      ∧ (6, .joinRoomSuccessful 2 0 users [literal "b", CString.empty]) ∈ out
      ∧ BiosShown s' i users [literal "b", CString.empty] := by
  obtain ⟨s, hs, hf⟩ := Guard.reaches (g := bioGuard)
    (f := fun s => (decide (bioGuard.meets s joinSeven),
      (AwaleServer.trans s joinSeven).map fun r => r.2.head?))
    (b := (true, some (some (6, .joinRoomSuccessful 2 0 [CString.empty, CString.empty]
      [literal "b", CString.empty]))))
    [.accept 4, .accept 5, .frame 0 (Request.setBiography (literal "b")).body 0,
      .frame 0 Request.createRoom.body 7, .disconnect 1, .accept 6]
    (by decide +kernel) (by decide +kernel)
  obtain ⟨hd, ht⟩ := Prod.mk.inj hf
  obtain ⟨⟨s', out⟩, htr, hhead⟩ := Option.map_eq_some_iff.mp ht
  have hsent := List.mem_of_mem_head? hhead
  obtain ⟨_, _, _, _, i, -, -, -, hshown⟩ :=
    biographies_shown hs (of_decide_eq_true hd) htr hsent
  exact ⟨s, s', out, _, i, htr, hsent, hshown⟩

/-- The first client goes, and the creator moves up; the next one is shown its own biography in
    place of the creator's. -/
theorem biography_misattributed :
    ∃ s s' out users, AwaleServer.Reachable Guard.any.meets s
      ∧ AwaleServer.trans s joinSeven = some (s', out)
      ∧ (6, .joinRoomSuccessful 2 0 users [CString.empty, CString.empty]) ∈ out
      ∧ shownRoom (received s (Request.joinRoom 7 0).body) (.joinRoom 7 0) = some 0
      ∧ ((s'.rooms 0).game.players 0).id = (s'.clients 0).sock
      ∧ (s'.clients 0).biography = literal "b"
      ∧ ¬ BiosShown s' 0 users [CString.empty, CString.empty] := by
  obtain ⟨s, hs, hf⟩ := Guard.reaches (g := Guard.any)
    (f := fun s => (shownRoom (received s (Request.joinRoom 7 0).body) (.joinRoom 7 0),
      (AwaleServer.trans s joinSeven).map fun r : Server × List Sent =>
        (r.2.head?, decide (((r.1.rooms 0).game.players 0).id = (r.1.clients 0).sock
          ∧ (r.1.clients 0).biography = literal "b"
          ∧ ¬ BiosShown r.1 0 [CString.empty, CString.empty] [CString.empty, CString.empty]))))
    (b := (some 0, some (some (6, .joinRoomSuccessful 2 0 [CString.empty, CString.empty]
      [CString.empty, CString.empty]), true)))
    [.accept 4, .accept 5, .accept 6, .frame 1 (Request.setBiography (literal "b")).body 0,
      .frame 1 Request.createRoom.body 7, .disconnect 0]
    (by decide +kernel) (by decide +kernel)
  obtain ⟨hshown, ht⟩ := Prod.mk.inj hf
  obtain ⟨⟨s', out⟩, htr, hout⟩ := Option.map_eq_some_iff.mp ht
  obtain ⟨hhead, hd⟩ := Prod.mk.inj hout
  obtain ⟨hseat, hbio, hnot⟩ := of_decide_eq_true hd
  exact ⟨s, s', out, _, hs, htr, List.mem_of_mem_head? hhead, hshown, hseat, hbio, hnot⟩

end AwaleBiography
