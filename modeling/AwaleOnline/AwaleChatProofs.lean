import AwaleOnline.AwaleSendingProofs

/-!
# Chat delivery and isolation

`handle_send_message` writes to the entries of the room its search stops at: the first one with
the sender's room id, or the slot behind the last room when there is none.

* **`framesTo_messageFrames`** — a descriptor gets one frame for each entry that holds it;
* **`ChatDelivered`** — what a member's message and a stranger's message have to do;
* **`chat_delivery`** — in every reachable state a SEND_MESSAGE does so exactly under
  `ChatMeets`: the room found lists the other members of the sender's room, each once.
-/

namespace AwaleChat

open AwaleGame AwaleProtocol AwaleServer AwaleEffect AwaleBounds AwaleRoster AwaleSystem
  AwaleStanding AwaleSending

variable {s s' : Server} {c k : Nat} {rand : UInt32} {sock x : Int} {game : Game}
  {m : ServerMsg} {out : List Sent} {text : List UInt8} {message : CString}

/-! ## Who is in a room -/

/-- The socket stands in a member entry of live room `k`. -/
def Member (s : Server) (k : Nat) (x : Int) : Prop :=
  Live s k ∧ x ∈ memberIds (s.rooms k).game

instance (s : Server) (k : Nat) (x : Int) : Decidable (Member s k x) :=
  inferInstanceAs (Decidable (Live s k ∧ x ∈ memberIds (s.rooms k).game))

/-! ## Where the frames go -/

/-- One frame for each entry that holds the descriptor. -/
theorem framesTo_broadcast (m : ServerMsg) (hx : x ≠ -1) (hsock : x ≠ sock) (ids : List Int) :
    framesTo x (ids.flatMap fun y => if y ≠ sock then writeClient y m else [])
      = List.replicate (ids.count x) m := by
  induction ids with
  | nil => rfl
  | cons y ids ih =>
      rw [List.flatMap_cons, framesTo_append, ih]
      by_cases hyx : y = x
      · subst hyx
        rw [if_pos hsock, framesTo_self hx, List.count_cons_self, List.replicate_succ]
        rfl
      · rw [List.count_cons_of_ne hyx]
        split
        · rw [framesTo_other hyx]
          rfl
        · rfl

/-- The two loops as one, over the member entries. -/
theorem messageFrames_eq (game : Game) (sock : Int) (m : ServerMsg) :
    messageFrames game sock m
      = (memberIds game).flatMap fun y => if y ≠ sock then writeClient y m else [] := by
  simp only [messageFrames, memberIds, List.flatMap_append, List.flatMap_map]

theorem framesTo_messageFrames (hx : x ≠ -1) (hsock : x ≠ sock) :
    framesTo x (messageFrames game sock m) = List.replicate ((others game sock).count x) m := by
  have hcount : (others game sock).count x = (memberIds game).count x :=
    List.count_filter (by simp [hx, hsock])
  rw [messageFrames_eq, framesTo_broadcast m hx hsock, hcount]

/-- Neither the sender nor a vacant entry is written to. -/
theorem framesTo_messageFrames_none (h : x = -1 ∨ x = sock) :
    framesTo x (messageFrames game sock m) = [] := by
  refine framesTo_none fun p hp => ?_
  rw [messageFrames_eq] at hp
  obtain ⟨y, -, hmem⟩ := List.mem_flatMap.mp hp
  split at hmem
  · rename_i hy
    obtain ⟨hne, rfl⟩ := mem_writeClient.mp hmem
    rcases h with rfl | rfl
    · exact hne
    · exact hy
  · cases hmem

theorem messageFrames_eq_nil : messageFrames game sock m = [] ↔ others game sock = [] := by
  constructor
  · intro h
    refine List.eq_nil_iff_forall_not_mem.mpr fun x hx => ?_
    obtain ⟨-, hne, hsock⟩ := mem_others.mp hx
    have hnone : framesTo x (messageFrames game sock m)
        = List.replicate ((others game sock).count x) m := framesTo_messageFrames hne hsock
    rw [h, framesTo_nil] at hnone
    have hpos := List.count_pos_iff.mpr hx
    have hzero := congrArg List.length hnone
    rw [List.length_replicate] at hzero
    exact absurd hzero (Nat.ne_of_lt hpos)
  · intro h
    rw [messageFrames_eq]
    refine List.flatMap_eq_nil_iff.mpr fun y hy => ?_
    by_cases hsock : y = sock
    · rw [if_neg (not_not.mpr hsock)]
    · rw [if_pos hsock]
      have hne : y = -1 := by
        by_contra hne
        have hmem := mem_others.mpr ⟨hy, hne, hsock⟩
        rw [h] at hmem
        cases hmem
      rw [hne]
      rfl

/-! ## One message -/

/-- **DELIVERY.**  A member's message reaches every other connected member of its room once and
    nobody else, a stranger's message reaches nobody. -/
structure ChatDelivered (s : Server) (c : Nat) (message : CString) (out : List Sent) :
    Prop where
  members : ∀ k, Member s k (s.clients c).sock → ∀ x, framesTo x out
    = if x ∈ others (s.rooms k).game (s.clients c).sock then
        [.message (s.clients c).name message] else []
  stranger : (∀ k, ¬ Member s k (s.clients c).sock) → out = []

/-- The frame fits its buffer and the search ends inside the table; the room it ends at lists the
    other members of every live room of the sender, each once, and a sender of no live room is
    alone there; and the descriptors listed are open. -/
structure ChatMeets (s : Server) (c : Nat) (message : CString) : Prop where
  fits : (s.clients c).name.strlen + message.strlen + 5 ≤ bufSize
  slot : targetRoom s (s.clients c).roomId < maxRooms
  once : ∀ k < s.nbRooms.toNat, Member s k (s.clients c).sock →
    (others (homeOf s c) (s.clients c).sock).Nodup
      ∧ others (s.rooms k).game (s.clients c).sock ⊆ others (homeOf s c) (s.clients c).sock
      ∧ others (homeOf s c) (s.clients c).sock ⊆ others (s.rooms k).game (s.clients c).sock
  alone : (∀ k < s.nbRooms.toNat, ¬ Member s k (s.clients c).sock) →
    others (homeOf s c) (s.clients c).sock = []
  served : ∀ x ∈ others (homeOf s c) (s.clients c).sock, Open s x

instance (s : Server) (c : Nat) (message : CString) : Decidable (ChatMeets s c message) :=
  decidable_of_iff
    ((s.clients c).name.strlen + message.strlen + 5 ≤ bufSize
      ∧ targetRoom s (s.clients c).roomId < maxRooms
      ∧ (∀ k < s.nbRooms.toNat, Member s k (s.clients c).sock →
        (others (homeOf s c) (s.clients c).sock).Nodup
          ∧ others (s.rooms k).game (s.clients c).sock ⊆ others (homeOf s c) (s.clients c).sock
          ∧ others (homeOf s c) (s.clients c).sock
            ⊆ others (s.rooms k).game (s.clients c).sock)
      ∧ ((∀ k < s.nbRooms.toNat, ¬ Member s k (s.clients c).sock) →
        others (homeOf s c) (s.clients c).sock = [])
      ∧ ∀ x ∈ others (homeOf s c) (s.clients c).sock, Open s x)
    ⟨fun ⟨h1, h2, h3, h4, h5⟩ => ⟨h1, h2, h3, h4, h5⟩,
      fun ⟨h1, h2, h3, h4, h5⟩ => ⟨h1, h2, h3, h4, h5⟩⟩

/-- The frames that reach `x`, once the loops have run. -/
theorem framesTo_once (hnodup : (others game sock).Nodup) (x : Int) :
    framesTo x (messageFrames game sock m) = if x ∈ others game sock then [m] else [] := by
  by_cases hx : x = -1 ∨ x = sock
  · have hout : x ∉ others game sock := by
      intro hmem
      obtain ⟨-, hne, hsock⟩ := mem_others.mp hmem
      exact hx.elim hne hsock
    rw [framesTo_messageFrames_none hx, if_neg hout]
  · obtain ⟨hne, hsock⟩ := not_or.mp hx
    rw [framesTo_messageFrames hne hsock, List.Nodup.count hnodup]
    split <;> rfl

/-- The loops deliver to the room they run over: exactly to the other members of the sender's
    room when the two have the same ones, none twice. -/
theorem delivered_iff (s : Server) (c : Nat) (message : CString) :
    ChatDelivered s c message (messageFrames (homeOf s c) (s.clients c).sock
        (.message (s.clients c).name message))
      ↔ (∀ k < s.nbRooms.toNat, Member s k (s.clients c).sock →
          (others (homeOf s c) (s.clients c).sock).Nodup
            ∧ others (s.rooms k).game (s.clients c).sock ⊆ others (homeOf s c) (s.clients c).sock
            ∧ others (homeOf s c) (s.clients c).sock
              ⊆ others (s.rooms k).game (s.clients c).sock)
        ∧ ((∀ k < s.nbRooms.toNat, ¬ Member s k (s.clients c).sock) →
          others (homeOf s c) (s.clients c).sock = []) := by
  constructor
  · intro h
    refine ⟨fun k _ hk => ?_, fun hno => ?_⟩
    · -- the length of what a member gets is the number of its entries
      have hcount : ∀ x ∈ others (homeOf s c) (s.clients c).sock,
          (others (homeOf s c) (s.clients c).sock).count x = 1
            ∧ x ∈ others (s.rooms k).game (s.clients c).sock := by
        intro x hx
        obtain ⟨-, hne, hsock⟩ := mem_others.mp hx
        have hlen := congrArg List.length (h.members k hk x)
        rw [framesTo_messageFrames hne hsock, List.length_replicate] at hlen
        have hpos := List.count_pos_iff.mpr hx
        split at hlen
        · rename_i hmem
          exact ⟨hlen, hmem⟩
        · exact absurd hlen (Nat.ne_of_gt hpos)
      refine ⟨?_, ?_, fun x hx => (hcount x hx).2⟩
      · refine List.nodup_iff_count_le_one.mpr fun x => ?_
        by_cases hx : x ∈ others (homeOf s c) (s.clients c).sock
        · exact Nat.le_of_eq (hcount x hx).1
        · rw [List.count_eq_zero_of_not_mem hx]
          exact Nat.zero_le 1
      · intro x hx
        obtain ⟨-, hne, hsock⟩ := mem_others.mp hx
        have hlen := congrArg List.length (h.members k hk x)
        rw [framesTo_messageFrames hne hsock, List.length_replicate, if_pos hx] at hlen
        exact List.count_pos_iff.mp (Nat.lt_of_lt_of_eq Nat.zero_lt_one hlen.symm)
    · exact messageFrames_eq_nil.mp (h.stranger fun k hk => hno k (live_iff.mp hk.1) hk)
  · rintro ⟨honce, halone⟩
    refine ⟨fun k hk x => ?_, fun hno => ?_⟩
    · obtain ⟨hnodup, hsub, hsup⟩ := honce k (live_iff.mp hk.1) hk
      rw [framesTo_once hnodup]
      exact if_congr ⟨fun hx => hsup hx, fun hx => hsub hx⟩ rfl rfl
    · exact messageFrames_eq_nil.mpr (halone fun k _ => hno k)

/-- `handle_send_message` finishes when the frame fits and the search ends inside the table, and
    its sends succeed when what is listed there is open. -/
theorem handleSendMessage_ok (hsized : ∀ k, Sized (s.rooms k).game) :
    (∃ s' out, handleSendMessage s c message = .ok (s', out) ∧ Opened s out
        ∧ ChatDelivered s c message out)
      ↔ ChatMeets s c message := by
  have hsize : (ServerMsg.message (s.clients c).name message).size
      = (s.clients c).name.strlen + message.strlen + 5 := rfl
  constructor
  · rintro ⟨s', out, h, hsent, hd⟩
    simp only [handleSendMessage] at h
    split at h
    · cases h
    · rename_i hfits
      split at h
      · cases h
      · rename_i hslot
        split at h
        · cases h
        · obtain ⟨rfl, rfl⟩ := Prod.mk.inj (Except.ok.inj h)
          obtain ⟨honce, halone⟩ := (delivered_iff s c message).mp hd
          exact ⟨by omega, by omega, honce, halone, opened_message.mp hsent⟩
  · intro h
    have hseats := (hsized (targetRoom s (s.clients c).roomId)).seats
    have hspec := (hsized (targetRoom s (s.clients c).roomId)).spectators
    have hmax : maxGamePlayers = 1024 := rfl
    have hfits := h.fits
    have hslot := h.slot
    refine ⟨s, _, ?_, opened_message.mpr h.served,
      (delivered_iff s c message).mpr ⟨h.once, h.alone⟩⟩
    simp only [handleSendMessage]
    rw [if_neg (by omega), if_neg (by omega), if_neg (by omega)]
    rfl

/-- What `client_server_protocol_read` takes for the text. -/
theorem readRequest_message (buf : Buffer) (h : (5 :: text).length < bufSize) :
    readRequest (storeBody buf (5 :: text)) = some (.sendMessage (CString.ofBytes text)) := by
  have hlen : text.length + 1 < bufSize := h
  have hnul : storeBody buf (5 :: text) (text.length + 1) = 0 := by
    simp [storeBody]
  have htext : (List.range' 1 (text.length + 1 - 1)).map (storeBody buf (5 :: text)) = text := by
    refine List.ext_getElem (by simp) ?_
    intro k hk hk'
    simp [storeBody, Nat.add_comm 1 k, List.getElem?_append_left hk',
      List.getElem?_eq_getElem hk']
  have hread : CString.read (storeBody buf (5 :: text)) bufSize 1
      = CString.ofBytes ((List.range' 1 (text.length + 1 - 1)).map (storeBody buf (5 :: text))) :=
    CString.read_eq_ofBytes hnul (Nat.le_add_left 1 _) hlen
  rw [htext] at hread
  show some (Request.sendMessage (CString.read (storeBody buf (5 :: text)) bufSize 1)) = _
  rw [hread]

/-- **CHAT DELIVERY AND ISOLATION.**  In every reachable state a SEND_MESSAGE frame is handled to
    the end, and reaches the other connected members of the sender's room once and nobody else,
    exactly when it fits the buffers and `ChatMeets` holds of the room the search ends at. -/
theorem chat_delivery (hr : Reachable Guard.any.meets s)
    (hp : Possible s (.frame c (5 :: text) rand)) :
    (∃ s' out, AwaleServer.trans s (.frame c (5 :: text) rand) = some (s', out)
        ∧ ChatDelivered s c (CString.ofBytes text) out)
      ↔ (5 :: text).length < bufSize ∧ ChatMeets s c (CString.ofBytes text) := by
  have hsized : ∀ k, Sized ((received s (5 :: text)).rooms k).game :=
    fun k => sized_reachable hr k
  have hstep : (5 :: text).length < bufSize →
      step s (.frame c (5 :: text) rand)
        = handleSendMessage (received s (5 :: text)) c (CString.ofBytes text) := by
    intro hlen
    simp only [step, readFrame]
    rw [if_neg (Nat.not_le.mpr hlen), readRequest_message s.buffer hlen]
    rfl
  constructor
  · rintro ⟨s', out, h, hd⟩
    obtain ⟨-, hs, hsent⟩ := trans_iff.mp h
    obtain ⟨hlen, -⟩ := step_cases hs
    rw [hstep hlen] at hs
    have hm := (handleSendMessage_ok (s := received s (5 :: text)) hsized).mp
      ⟨s', out, hs, hsent, hd.members, hd.stranger⟩
    exact ⟨hlen, hm.fits, hm.slot, hm.once, hm.alone, hm.served⟩
  · rintro ⟨hlen, hm⟩
    have hm' : ChatMeets (received s (5 :: text)) c (CString.ofBytes text) :=
      ⟨hm.fits, hm.slot, hm.once, hm.alone, hm.served⟩
    obtain ⟨s', out, hs, hsent, hd⟩ := (handleSendMessage_ok hsized).mpr hm'
    exact ⟨s', out, trans_eq hp ((hstep hlen).trans hs) hsent, hd.members, hd.stranger⟩

/-- Two players, of whom the first closes the room. -/
def closedRoom : List Event :=
  [.accept 4, .accept 5, .frame 0 Request.createRoom.body 7,
    .frame 1 (Request.joinRoom 7 0).body 0, .frame 0 Request.leaveRoom.body 0]

theorem chat_delivery_two_players :
    ∃ s, s.nbRooms = 1 ∧ ∃ s' out,
      AwaleServer.trans s (.frame 0 [5, 104, 105] 0) = some (s', out)
        ∧ ChatDelivered s 0 (CString.ofBytes [104, 105]) out := by
  obtain ⟨s, hs, hf⟩ := Guard.reaches (g := Guard.any)
    (f := fun s => (s.nbRooms, s.nbClients, decide (ChatMeets s 0 (CString.ofBytes [104, 105]))))
    (b := (1, 2, true)) (closedRoom.take 4)
    (by decide +kernel) (by decide +kernel)
  obtain ⟨hnb, hf⟩ := Prod.mk.inj hf
  obtain ⟨hn, hm⟩ := Prod.mk.inj hf
  have hp : Possible s (.frame 0 [5, 104, 105] 0) := by
    refine ⟨?_, by decide, by decide⟩
    show 0 < s.nbClients
    omega
  exact ⟨s, hnb, (chat_delivery hs hp).mpr ⟨by decide, of_decide_eq_true hm⟩⟩

/-- The second player is in no live room any more, and the text it sends goes to the first. -/
theorem closed_room_overheard :
    ∃ s, Reachable Guard.any.meets s ∧ Possible s (.frame 1 [5, 104, 105] 0)
      ∧ (∀ k, ¬ Member s k (s.clients 1).sock)
      ∧ ∃ s' out, AwaleServer.trans s (.frame 1 [5, 104, 105] 0) = some (s', out)
        ∧ out = [(4, .message CString.empty (literal "hi"))]
        ∧ ¬ ChatDelivered s 1 (CString.ofBytes [104, 105]) out := by
  obtain ⟨s, hs, hf⟩ := Guard.reaches (g := Guard.any)
    (f := fun s => (s.nbRooms, decide (Possible s (.frame 1 [5, 104, 105] 0)),
      (AwaleServer.trans s (.frame 1 [5, 104, 105] 0)).map fun r => r.2))
    (b := (0, true, some [(4, .message CString.empty (literal "hi"))])) closedRoom
    (by decide +kernel) (by decide +kernel)
  obtain ⟨hnb, hf⟩ := Prod.mk.inj hf
  obtain ⟨hp, ht⟩ := Prod.mk.inj hf
  obtain ⟨⟨s', out⟩, hs', hout⟩ := Option.map_eq_some_iff.mp ht
  have hnone : ∀ k, ¬ Member s k (s.clients 1).sock :=
    fun k hk => not_live_of_le (Int.le_of_eq hnb) k hk.1
  refine ⟨s, hs, of_decide_eq_true hp, hnone, s', out, hs', hout, fun hd => ?_⟩
  rw [hd.stranger hnone] at hout
  cases hout

end AwaleChat
