import AwaleOnline.AwaleServerProofs
import AwaleOnline.AwaleCodecProofs

/-!
# The receive buffer all clients share

`read_client` stores a body and a NUL over what an earlier frame left, and
`client_server_protocol_read` never looks at how many bytes came.

* **`effect_readFrame`** — what a frame does is a function of the request that is read from
  the buffer: no handler looks at the buffer itself;
* **`readRequest_kept`** — that request depends on the body alone, unless the body is the
  beginning of a JOIN_ROOM;
* **`frame_isolated`** — so these are the bodies whose effect an earlier frame can change.
-/

namespace AwaleIsolation

open AwaleGame AwaleProtocol AwaleServer AwaleCodec

/-- The server with other contents in the receive buffer. -/
def withBuffer (s : Server) (buf : Buffer) : Server := { s with buffer := buf }

/-- The state after a round, the receive buffer apart, and the frames sent. -/
def effect (r : Result) : Result := r.map fun x => (withBuffer x.1 fun _ => 0, x.2)

variable {s : Server} {buf buf' : Buffer} {c : Nat} {body : List UInt8}

/-! ## The handlers do not see the buffer -/

/-- A handler that passes the receive buffer through and does not look at it. -/
def Blind (h : Server → Result) : Prop :=
  ∀ (s : Server) (buf : Buffer), h (withBuffer s buf)
    = (h s).map fun x => (withBuffer x.1 buf, x.2)

theorem blind_ite {p : Server → Prop} [∀ s, Decidable (p s)] {h h' : Server → Result}
    (hp : ∀ s buf, p (withBuffer s buf) ↔ p s) (h1 : Blind h) (h2 : Blind h') :
    Blind fun s => if p s then h s else h' s := by
  intro s buf
  by_cases hs : p s
  · simp only [if_pos hs, if_pos ((hp s buf).mpr hs), h1 s buf]
  · simp only [if_neg hs, if_neg (fun h => hs ((hp s buf).mp h)), h2 s buf]

theorem blind_ok {f : Server → Server} {out : Server → List Sent}
    (hf : ∀ s buf, f (withBuffer s buf) = withBuffer (f s) buf)
    (hout : ∀ s buf, out (withBuffer s buf) = out s) :
    Blind fun s => .ok (f s, out s) := by
  intro s buf
  show Except.ok _ = Except.ok _
  rw [hf, hout]

theorem blind_error {f : Server → Fault} (hf : ∀ s buf, f (withBuffer s buf) = f s) :
    Blind fun s => .error (f s) := by
  intro s buf
  show Except.error _ = Except.error _
  rw [hf]

/-- A choice made on something that is not the buffer. -/
theorem blind_cases {α : Type} {g : Server → Result} (f : Server → α)
    (hf : ∀ s buf, f (withBuffer s buf) = f s)
    (h : ∀ a, ∃ g' : Server → Result, (∀ s, f s = a → g s = g' s) ∧ Blind g') : Blind g := by
  intro s buf
  obtain ⟨g', hg, hb⟩ := h (f s)
  rw [hg _ (hf s buf), hg s rfl]
  exact hb s buf

theorem handleConnect_blind (c : Nat) (name : CString) :
    Blind fun s => handleConnect s c name := by
  refine blind_ite (fun _ _ => Iff.rfl) (blind_ok (fun _ _ => rfl) (fun _ _ => rfl)) ?_
  refine blind_cases (fun s => findSeat (setClient s c { s.clients c with name := name }) name)
    (fun _ _ => rfl) ?_
  rintro (_ | ⟨i, j⟩)
  · apply Exists.intro
    constructor
    · intro s hs
      rw [hs]
    · exact blind_ok (fun _ _ => rfl) (fun _ _ => rfl)
  · apply Exists.intro
    constructor
    · intro s hs
      rw [hs]
    · refine blind_ite (fun _ _ => Iff.rfl) ?_
        (blind_ite (fun _ _ => Iff.rfl) (blind_ok (fun _ _ => rfl) (fun _ _ => rfl))
          (blind_ok (fun _ _ => rfl) (fun _ _ => rfl)))
      intro s buf
      dsimp only
      generalize h1 : joinRoomFrame _ _ = r
      generalize h2 : joinRoomFrame _ _ = r'
      obtain rfl : r = r' := h1.symm.trans h2
      cases r <;> rfl

theorem handleCreateRoom_blind (c : Nat) (rand : UInt32) :
    Blind fun s => handleCreateRoom s c rand :=
  blind_ite (fun _ _ => Iff.rfl) (blind_ok (fun _ _ => rfl) (fun _ _ => rfl))
    (blind_error (fun _ _ => rfl))

theorem handleJoinRoom_blind (c : Nat) (roomId : UInt32) (spectate : UInt8) :
    Blind fun s => handleJoinRoom s c roomId spectate := by
  refine blind_cases (fun s => findRoom s roomId) (fun _ _ => rfl) ?_
  rintro (_ | i)
  · apply Exists.intro
    constructor
    · intro s hs
      simp only [handleJoinRoom]
      rw [hs]
    · exact blind_ok (fun _ _ => rfl) (fun _ _ => rfl)
  · apply Exists.intro
    constructor
    · intro s hs
      simp only [handleJoinRoom]
      rw [hs]
    · refine blind_ite (fun _ _ => Iff.rfl) (blind_ok (fun _ _ => rfl) (fun _ _ => rfl)) ?_
      refine blind_ite (fun _ _ => Iff.rfl) (blind_error (fun _ _ => rfl)) ?_
      refine blind_cases (fun s => joinRoomFrame (setRoomId (setRoom s i
        (roomAddPlayer (s.rooms i) (newPlayer s c) (spectate ≠ 0))) c roomId)
        (roomAddPlayer (s.rooms i) (newPlayer s c) (spectate ≠ 0)).game) (fun _ _ => rfl) ?_
      rintro (f | frame)
      · apply Exists.intro
        constructor
        · intro s hs
          simp only [hs]
          rfl
        · exact blind_error (fun _ _ => rfl)
      · apply Exists.intro
        constructor
        · intro s hs
          simp only [hs]
          rfl
        · exact blind_ite (fun _ _ => Iff.rfl) (blind_ok (fun _ _ => rfl) (fun _ _ => rfl))
            (blind_ok (fun _ _ => rfl) (fun _ _ => rfl))

theorem handlePlay_blind (c : Nat) (pos : UInt8) : Blind fun s => handlePlay s c pos := by
  refine blind_cases (fun s => findRoom s (s.clients c).roomId) (fun _ _ => rfl) ?_
  rintro (_ | i)
  · refine ⟨fun s => .ok (s, []), ?_, blind_ok (fun _ _ => rfl) (fun _ _ => rfl)⟩
    intro s hs
    simp only [handlePlay]
    rw [hs]
  · apply Exists.intro
    constructor
    · intro s hs
      simp only [handlePlay]
      rw [hs]
    · refine blind_ite (fun _ _ => Iff.rfl) ?_ ?_
      · refine blind_ite (fun _ _ => Iff.rfl) ?_ ?_
        · exact blind_error (fun _ _ => rfl)
        · exact blind_ok (fun _ _ => rfl) (fun _ _ => rfl)
      · exact blind_ok (fun _ _ => rfl) (fun _ _ => rfl)

theorem handleLeaveRoom_blind (c : Nat) : Blind fun s => handleLeaveRoom s c := by
  refine blind_ite (fun _ _ => Iff.rfl) (blind_error (fun _ _ => rfl)) ?_
  refine blind_ite (fun _ _ => Iff.rfl) (blind_error (fun _ _ => rfl)) ?_
  refine blind_cases (fun s => (findPlayer ((setRoomId s c 0).rooms
    (targetRoom s (s.clients c).roomId)).game (s.clients c).sock,
    findSpectator ((setRoomId s c 0).rooms
    (targetRoom s (s.clients c).roomId)).game (s.clients c).sock)) (fun _ _ => rfl) ?_
  rintro ⟨_ | j, _ | k⟩
  all_goals
    apply Exists.intro
    constructor
    · intro s hs
      rw [(Prod.mk.inj hs).1, (Prod.mk.inj hs).2]
    · exact blind_ok (fun _ _ => rfl) (fun _ _ => rfl)

theorem handleSendMessage_blind (c : Nat) (message : CString) :
    Blind fun s => handleSendMessage s c message := by
  refine blind_ite (fun _ _ => Iff.rfl) (blind_error (fun _ _ => rfl)) ?_
  refine blind_ite (fun _ _ => Iff.rfl) (blind_error (fun _ _ => rfl)) ?_
  exact blind_ite (fun _ _ => Iff.rfl) (blind_error (fun _ _ => rfl))
    (blind_ok (fun _ _ => rfl) (fun _ _ => rfl))

theorem handleRequest_blind (c : Nat) (rand : UInt32) (q : Request) :
    Blind fun s => handleRequest s c rand q := by
  cases q with
  | connect name => exact handleConnect_blind c name
  | createRoom => exact handleCreateRoom_blind c rand
  | joinRoom roomId spectate => exact handleJoinRoom_blind c roomId spectate
  | play pos => exact handlePlay_blind c pos
  | leaveRoom => exact handleLeaveRoom_blind c
  | sendMessage message => exact handleSendMessage_blind c message
  | setBiography biography => exact blind_ok (fun _ _ => rfl) (fun _ _ => rfl)

/-- **A FRAME IS ITS REQUEST.**  What it does, the buffer apart, is what the request read from
    the buffer does to the state. -/
theorem effect_readFrame (s : Server) (buf : Buffer) (c : Nat) (rand : UInt32)
    (h : body.length < bufSize) :
    effect (readFrame (withBuffer s buf) c body rand)
      = (readRequest (storeBody buf body)).elim (effect (.ok (s, [])))
          fun q => effect (handleRequest s c rand q) := by
  have hlen : ¬ body.length ≥ bufSize := Nat.not_le.mpr h
  cases hread : readRequest (storeBody buf body) with
  | none =>
      have hnone : readFrame (withBuffer s buf) c body rand
          = .ok (withBuffer s (storeBody buf body), []) := by
        simp only [readFrame, if_neg hlen]
        rw [show (withBuffer s buf).buffer = buf from rfl, hread]
        rfl
      rw [hnone]
      rfl
  | some q =>
      have hsome : readFrame (withBuffer s buf) c body rand
          = handleRequest (withBuffer s (storeBody buf body)) c rand q := by
        simp only [readFrame, if_neg hlen]
        rw [show (withBuffer s buf).buffer = buf from rfl, hread]
        rfl
      have hblind := handleRequest_blind c rand q s (storeBody buf body)
      dsimp only at hblind
      rw [hsome, hblind]
      cases hq : handleRequest s c rand q with
      | error f => simp [hq, effect, Except.map]
      | ok x => simp [hq, effect, Except.map, withBuffer]

/-! ## What is read of the buffer -/

/-- The bytes of the body and the NUL hide what was there before. -/
theorem storeBody_kept {k : Nat} (h : k ≤ body.length) :
    storeBody buf body k = storeBody buf' body k := by
  have hlt : k < (body ++ [0]).length := by
    simp only [List.length_append, List.length_cons, List.length_nil]
    omega
  simp only [storeBody, List.getElem?_eq_getElem hlt, Option.getD_some]

theorem storeBody_nul : storeBody buf body body.length = 0 := by
  simp [storeBody]

/-- The beginning of a JOIN_ROOM: the type, and less than the room id and the flag. -/
def CutJoin (body : List UInt8) : Prop :=
  body.head? = some ClientServerProtocol.joinRoom.code ∧ body.length < 5

instance (body : List UInt8) : Decidable (CutJoin body) :=
  inferInstanceAs (Decidable (_ ∧ _))

/-- **THE REQUEST IS IN THE BODY**, unless a JOIN_ROOM is cut: every other field is read at an
    offset inside the body or as a string that the NUL ends. -/
theorem readRequest_kept (hpos : 0 < body.length) (hlen : body.length < bufSize)
    (hcut : ¬ CutJoin body) :
    readRequest (storeBody buf body) = readRequest (storeBody buf' body) := by
  have hstring : CString.read (storeBody buf body) bufSize 1
      = CString.read (storeBody buf' body) bufSize 1 :=
    CString.read_congr (fun _ hk => storeBody_kept hk) storeBody_nul hpos hlen
  have hbyte : ∀ k ≤ body.length, storeBody buf body k = storeBody buf' body k :=
    fun _ hk => storeBody_kept hk
  have hjoin : (storeBody buf' body 0).toNat = 2 → 5 ≤ body.length := by
    intro hty
    by_contra hlt
    cases body with
    | nil => exact absurd hpos (Nat.lt_irrefl 0)
    | cons b bs =>
        have hb : b = 2 := UInt8.toNat.inj hty
        exact hcut ⟨congrArg some hb, Nat.not_le.mp hlt⟩
  simp only [readRequest]
  rw [hstring, hbyte 0 (Nat.zero_le _), hbyte 1 hpos]
  generalize (storeBody buf' body 0).toNat = ty at hjoin
  split
  · rfl
  · rfl
  · have h5 := hjoin rfl
    have hid : readUInt32 (storeBody buf body) 1 = readUInt32 (storeBody buf' body) 1 := by
      simp only [readUInt32, hbyte 1 (by omega), hbyte 2 (by omega), hbyte 3 (by omega),
        hbyte 4 (by omega)]
    rw [hid, hbyte 5 h5]
  · rfl
  · rfl
  · rfl
  · rfl
  · rfl

/-! ## A cut JOIN_ROOM -/

/-- Two connections. -/
def guests : Server :=
  let s := { setClient (initial fun _ => 0) 0 ⟨5, CString.empty, 0, CString.empty⟩ with
    nbClients := 1 }
  { setClient s 1 ⟨6, CString.empty, 0, CString.empty⟩ with nbClients := 2 }

theorem guests_reachable : Reachable GuardedRun.Always guests := by
  have h0 : Reachable GuardedRun.Always (initial fun _ => 0) := .start ⟨_, rfl⟩
  exact .next (e := .accept 6) (o := [])
    (.next (e := .accept 5) (o := []) h0 trivial (trans_eq (by decide) rfl (opened_nil _)))
    trivial (trans_eq (by decide) rfl (opened_nil _))

/-- The first client alone in a room with a given id. -/
def lobby (roomId : UInt32) : Server :=
  let s := withBuffer guests (storeBody guests.buffer [1])
  { setRoomId (setRoom s 0 (roomAddPlayer (roomInit (s.rooms 0) roomId) (newPlayer s 0) false))
      0 roomId with nbRooms := 1 }

theorem lobby_reachable (roomId : UInt32) :
    Reachable GuardedRun.Always (lobby roomId) := by
  have hpossible : Possible guests (.frame 0 [1] roomId) := ⟨by decide, by decide, by decide⟩
  exact .next (o := [(5, .roomCreationSuccessful roomId)]) guests_reachable trivial
    (trans_eq hpossible rfl (opened_own (s := guests) hpossible.1 _))

/-- The seats taken in the first room after the second client has joined. -/
def seatsAfter (roomId : UInt32) (spectate : UInt8) : Except Fault Nat :=
  (handleJoinRoom (lobby roomId) 1 roomId spectate).map fun x => (x.1.rooms 0).game.nbPlayers

theorem seatsAfter_eq (roomId : UInt32) :
    seatsAfter roomId 0 = .ok 2 ∧ seatsAfter roomId 1 = .ok 1 := by
  have hfind : findRoom (lobby roomId) roomId = some 0 :=
    findRoom_eq_some.mpr ⟨Int.zero_lt_one, rfl, fun k hk => absurd hk (Nat.not_lt_zero k)⟩
  simp only [seatsAfter, handleJoinRoom]
  rw [hfind]
  exact ⟨rfl, rfl⟩

/-- A buffer that holds zeros and, where the flag of a JOIN_ROOM is read, `spectate`. -/
def leftover (spectate : UInt8) : Buffer := fun k => if k = 5 then spectate else 0

/-- What a cut JOIN_ROOM asks for: the flag is the one left in the buffer. -/
theorem readRequest_leftover (hcut : CutJoin body) (spectate : UInt8) :
    readRequest (storeBody (leftover spectate) body)
      = some (.joinRoom (readUInt32 (storeBody (leftover 0) body) 1) spectate) := by
  obtain ⟨hhead, hlen⟩ := hcut
  have hhead' : body[0]? = some 2 := by
    rw [← List.head?_eq_getElem?]
    exact hhead
  have h0 : (storeBody (leftover spectate) body 0).toNat = 2 := by
    have hpos : 0 < body.length := (List.getElem?_eq_some_iff.mp hhead').1
    have hsome : (body ++ [0])[0]? = some 2 := (List.getElem?_append_left hpos).trans hhead'
    simp only [storeBody]
    rw [hsome]
    rfl
  have hbehind : storeBody (leftover spectate) body 5 = spectate := by
    have hnone : (body ++ [0])[5]? = none := List.getElem?_eq_none (by simp; omega)
    simp [storeBody, hnone, leftover]
  have hid : ∀ k, k ≠ 5 →
      storeBody (leftover spectate) body k = storeBody (leftover 0) body k := by
    intro k hk
    simp [storeBody, leftover, hk]
  simp only [readRequest]
  rw [h0]
  simp only [hbehind, readUInt32, hid 1 (by decide), hid 2 (by decide), hid 3 (by decide),
    hid 4 (by decide)]

/-- **A CUT JOIN_ROOM LEAKS**: in some reachable state it seats the client or lets it watch, as
    an earlier frame decides. -/
theorem cut_join_leaks (hcut : CutJoin body) :
    ∃ roomId : UInt32, Reachable GuardedRun.Always (lobby roomId)
      ∧ effect (readFrame (withBuffer (lobby roomId) (leftover 0)) 1 body 0)
        ≠ effect (readFrame (withBuffer (lobby roomId) (leftover 1)) 1 body 0) := by
  have hlen : body.length < bufSize := Nat.lt_trans hcut.2 (by decide)
  refine ⟨readUInt32 (storeBody (leftover 0) body) 1, lobby_reachable _, ?_⟩
  generalize hid : readUInt32 (storeBody (leftover 0) body) 1 = roomId
  rw [effect_readFrame _ _ _ _ hlen, effect_readFrame _ _ _ _ hlen, readRequest_leftover hcut,
    readRequest_leftover hcut, hid]
  intro heq
  -- the two runs differ in the seats taken
  have hmap : ∀ r : Result, (effect r).map (fun x => (x.1.rooms 0).game.nbPlayers)
      = r.map fun x => (x.1.rooms 0).game.nbPlayers := by
    intro r
    cases r <;> rfl
  have hseats : seatsAfter roomId 0 = seatsAfter roomId 1 :=
    (hmap _).symm.trans ((congrArg (Except.map _) heq).trans (hmap _))
  obtain ⟨h0, h1⟩ := seatsAfter_eq roomId
  rw [h0, h1] at hseats
  exact absurd (Except.ok.inj hseats) (by decide)

/-- **FRAME ISOLATION.**  A body has the same effect whatever the buffer held, in every state
    and for every client, just when it is not a JOIN_ROOM cut short. -/
theorem frame_isolated (hpos : 0 < body.length) (hlen : body.length < bufSize) :
    (∀ (s : Server) (c : Nat) (rand : UInt32) (buf buf' : Buffer),
        effect (readFrame (withBuffer s buf) c body rand)
          = effect (readFrame (withBuffer s buf') c body rand))
      ↔ ¬ CutJoin body := by
  constructor
  · intro h hcut
    obtain ⟨roomId, -, hne⟩ := cut_join_leaks hcut
    exact hne (h _ _ _ _ _)
  · intro hcut s c rand buf buf'
    rw [effect_readFrame s buf c rand hlen, effect_readFrame s buf' c rand hlen,
      readRequest_kept hpos hlen hcut]

theorem frame_isolated_play :
    (∀ (s : Server) (c : Nat) (rand : UInt32) (buf buf' : Buffer),
        effect (readFrame (withBuffer s buf) c [3] rand)
          = effect (readFrame (withBuffer s buf') c [3] rand))
      ↔ ¬ CutJoin [3] :=
  frame_isolated (by decide) (by decide)

/-- After another client's JOIN_ROOM for room 256, the lone byte of a JOIN_ROOM takes a seat in
    that room, or watches it, as the other client asked for. -/
theorem lone_join_byte :
    Reachable GuardedRun.Always (lobby 256)
      ∧ effect (readFrame (withBuffer (lobby 256)
          (storeBody (fun _ => 0) (Request.joinRoom 256 0).body)) 1 [2] 0)
        ≠ effect (readFrame (withBuffer (lobby 256)
          (storeBody (fun _ => 0) (Request.joinRoom 256 1).body)) 1 [2] 0) := by
  refine ⟨lobby_reachable 256, ?_⟩
  intro heq
  have hseats := congrArg
    (fun r : Result => r.toOption.map fun x => (x.1.rooms 0).game.nbPlayers) heq
  exact absurd hseats (by decide +kernel)

end AwaleIsolation
