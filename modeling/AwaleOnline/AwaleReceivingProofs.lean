import AwaleOnline.AwaleStreamProofs

/-!
# Receiving into a buffer

`read_client` and `read_server` read as many bytes as the prefix says into a buffer of `BUF_SIZE`
bytes and put a NUL behind them; the decoders then take strings from the buffer.

* **`written`** — the indices a receiver writes, for a prefix and a body of any length;
* **`decoded_iff`** — the client's decoder stays in the buffer just when it holds as many NULs as
  the message calls for strings (`Enough`);
* **`receiving`** — nothing is written outside, and every string ends inside, just when the body
  leaves room for its NUL and, on the client, brings NULs enough.
-/

namespace AwaleReceiving

open AwaleGame AwaleProtocol AwaleCodec AwaleStream ByteBuffer

variable {buf : ByteBuffer} {p b l : List UInt8} {side : Side} {type : ServerClientProtocol}

/-! ## The buffer -/

/-- The indices that a `recv` of these bytes writes. -/
def recvd (bytes : List UInt8) : List Nat := List.range bytes.length

/-- What a call writes: the prefix, the body, and the NULs.  `read_client` ends with one, each
    `read_server` with its own. -/
def written : Side → List UInt8 → List UInt8 → List Nat
  | .server, p, b => recvd p ++ recvd b ++ [b.length]
  | .client, p, b => recvd p ++ [p.length] ++ (recvd b ++ [b.length])

/-- The buffer after a call. -/
def filled (side : Side) (buf : ByteBuffer) (p b : List UInt8) : ByteBuffer :=
  (side.readPrefix buf p).storeBytes 0 (b ++ [0])

/-- The bytes a decoder may read. -/
def contents (buf : ByteBuffer) : List UInt8 := (List.range' 0 bufSize).map buf

theorem recvd_lt {bytes : List UInt8} {n : Nat} (h : bytes.length ≤ n) :
    ∀ k ∈ recvd bytes, k < n :=
  fun _ hk => Nat.lt_of_lt_of_le (List.mem_range.mp hk) h

/-- The NUL behind the body is the last index written. -/
theorem written_iff (hp : p.length ≤ 2) :
    (∀ k ∈ written side p b, k < bufSize) ↔ b.length < bufSize := by
  have hprefix : p.length < bufSize := Nat.lt_of_le_of_lt hp (by decide)
  constructor
  · intro h
    refine h b.length ?_
    cases side with
    | server => exact List.mem_append_right _ (List.mem_singleton_self _)
    | client =>
        exact List.mem_append_right _ (List.mem_append_right _ (List.mem_singleton_self _))
  · intro h
    have hrecv := recvd_lt (Nat.le_of_lt hprefix)
    have hbody := recvd_lt (Nat.le_of_lt h)
    have hnul : ∀ {n : Nat}, n < bufSize → ∀ k ∈ [n], k < bufSize :=
      fun hn => List.forall_mem_singleton.mpr hn
    cases side with
    | server =>
        exact List.forall_mem_append.mpr
          ⟨List.forall_mem_append.mpr ⟨hrecv, hbody⟩, hnul h⟩
    | client =>
        exact List.forall_mem_append.mpr ⟨List.forall_mem_append.mpr ⟨hrecv, hnul hprefix⟩,
          List.forall_mem_append.mpr ⟨hbody, hnul h⟩⟩

/-- What is not written is left alone. -/
theorem filled_off {k : Nat} (hk : k ∉ written side p b) : filled side buf p b k = buf k := by
  have hout : ∀ {bytes : List UInt8}, k ∉ recvd bytes → bytes.length ≤ k :=
    fun h => Nat.le_of_not_lt fun hlt => h (List.mem_range.mpr hlt)
  have hoff : ∀ {bytes : List UInt8}, k ∉ recvd bytes → k ≠ bytes.length →
      k < 0 ∨ 0 + (bytes ++ [(0 : UInt8)]).length ≤ k := by
    intro bytes hrecvd hne
    have hle := hout hrecvd
    rw [List.length_append, List.length_singleton]
    omega
  cases side with
  | server =>
      simp only [written, List.mem_append, List.mem_singleton, not_or] at hk
      obtain ⟨⟨hp, hb⟩, hnul⟩ := hk
      have hle := hout hp
      rw [filled, storeBytes_off _ _ _ (hoff hb hnul)]
      exact storeBytes_off _ _ _ (by omega)
  | client =>
      simp only [written, List.mem_append, List.mem_singleton, not_or] at hk
      obtain ⟨⟨hp, hpnul⟩, hb, hnul⟩ := hk
      rw [filled, storeBytes_off _ _ _ (hoff hb hnul)]
      exact storeBytes_off _ _ _ (hoff hp hpnul)

theorem contents_drop (buf : ByteBuffer) (off : Nat) :
    (contents buf).drop off = (List.range' off (bufSize - off)).map buf := by
  rw [contents, ← List.map_drop, List.drop_range', Nat.zero_add, Nat.mul_one]

theorem filled_end (side : Side) (buf : ByteBuffer) (p b : List UInt8) :
    filled side buf p b b.length = 0 := by
  have hlt : b.length < (b ++ [(0 : UInt8)]).length := by
    rw [List.length_append]
    exact Nat.lt_succ_self _
  have hat := storeBytes_at (side.readPrefix buf p) 0 _ hlt
  rw [Nat.zero_add] at hat
  rw [filled, hat, List.getElem_append_right (Nat.le_refl _)]
  simp

/-- The buffer the server's model hands to `client_server_protocol_read`. -/
theorem filled_server (buf : ByteBuffer) (p b : List UInt8) :
    filled .server buf p b = storeBody (buf.storeBytes 0 p) b := by
  funext k
  simp [filled, Side.readPrefix, storeBytes, storeBody]

/-- Behind a body that fits there is a NUL, at its end. -/
theorem filled_nul {off : Nat} (hoff : off ≤ b.length) (hb : b.length < bufSize) :
    0 ∈ (contents (filled side buf p b)).drop off := by
  rw [contents_drop, List.mem_map]
  exact ⟨b.length, List.mem_range'_1.mpr ⟨hoff, by omega⟩, filled_end side buf p b⟩

/-! ## The server -/

/-- The names, biographies and messages a request hands to its handler. -/
def strings : Request → List CString
  | .connect name => [name]
  | .sendMessage message => [message]
  | .setBiography biography => [biography]
  | _ => []

/-- **THE SERVER RECEIVES** inside its buffer, and hands over strings that end there and fit a
    field of 1024 bytes. -/
structure ServerReceives (buf : ByteBuffer) (p b : List UInt8) : Prop where
  inside : ∀ k ∈ written .server p b, k < bufSize
  fits : b ≠ [] → ∀ q, readRequest (filled .server buf p b) = some q → ∀ str ∈ strings q,
    stringAt (contents (filled .server buf p b)) 1 = some str ∧ str.strlen + 1 ≤ bufSize

/-- The strings of a request begin behind its type. -/
theorem strings_read {q : Request} (hq : readRequest buf = some q) {str : CString}
    (hstr : str ∈ strings q) : str = CString.read buf bufSize 1 := by
  simp only [readRequest] at hq
  split at hq <;> cases hq
  · exact List.mem_singleton.mp hstr
  · cases hstr
  · cases hstr
  · cases hstr
  · cases hstr
  · exact List.mem_singleton.mp hstr
  · exact List.mem_singleton.mp hstr

theorem serverReceives_iff (hp : p.length ≤ 2) :
    ServerReceives buf p b ↔ b.length < bufSize := by
  constructor
  · intro h
    exact (written_iff hp).mp h.inside
  · intro h
    refine ⟨(written_iff hp).mpr h, fun hb q hq str hstr => ?_⟩
    have hpos : 1 ≤ b.length := List.length_pos_of_ne_nil hb
    have hread : stringAt (contents (filled .server buf p b)) 1 = some str := by
      rw [strings_read hq hstr, stringAt, if_pos (filled_nul hpos h), contents_drop]
      rfl
    have hlen := strlen_stringAt hread
    rw [contents, List.length_map, List.length_range'] at hlen
    exact ⟨hread, by omega⟩

/-! ## The client -/

/-- Where the strings of a message begin, and how many it calls for. -/
def asked (l : List UInt8) : ServerClientProtocol → Nat × Nat
  | .connectionRefused => (1, 1)
  | .roomCreationRefused => (1, 1)
  | .joinRoomSuccessful => (3, 2 * (l.getD 1 0).toNat + (l.getD 2 0).toNat)
  | .joinRoomRefused => (1, 1)
  | .playerJoinedRoom => (1, 1)
  | .spectatorJoinedRoom => (1, 1)
  | .gameStopped => (2, 1)
  | .message => (1, 2)
  | .invalidPlay => (1, 1)
  | _ => (0, 0)

/-- The bytes hold as many NULs as the message calls for strings, and no more than two players. -/
def Enough (l : List UInt8) : Prop :=
  ∀ type, ServerClientProtocol.ofByte (l.getD 0 0) = some type →
    (type = .joinRoomSuccessful → (l.getD 1 0).toNat ≤ 2)
      ∧ (asked l type).2 ≤ (l.drop (asked l type).1).count 0

instance (l : List UInt8) : Decidable (Enough l) :=
  decidable_of_iff
    (∀ type ∈ ServerClientProtocol.ofByte (l.getD 0 0),
      (type = .joinRoomSuccessful → (l.getD 1 0).toNat ≤ 2)
        ∧ (asked l type).2 ≤ (l.drop (asked l type).1).count 0)
    (by simp only [Enough, Option.mem_def])

theorem nextPlayer_takes : Takes nextPlayer 2 :=
  nextString_takes.bind nextString_takes Prod.mk

theorem messageStrings_isSome :
    ((stringAt l 1).bind fun u => stringAt l (2 + u.strlen)).isSome
      ↔ 2 ≤ (l.drop 1).count 0 := by
  rw [← nextPlayer_takes.isSome_iff, nextPlayer]
  cases hu : stringAt l 1 with
  | none => simp [nextString, hu]
  | some u =>
      have hoff : 2 + u.strlen = 1 + (u.strlen + 1) := by omega
      simp [nextString, hu, hoff, Option.isSome_map]

theorem stringAt_isSome {off : Nat} :
    (stringAt l off).isSome ↔ 1 ≤ (l.drop off).count 0 := by
  rw [← nextString_takes.isSome_iff, nextString, Option.isSome_map]

/-- The strings of a JOIN_ROOM_SUCCESSFUL frame: two for each player, then the spectators. -/
theorem readJoinRoomSuccessful_isSome (hlen : 3 ≤ l.length) :
    (readJoinRoomSuccessful l).isSome
      ↔ (l.getD 1 0).toNat ≤ 2
        ∧ 2 * (l.getD 1 0).toNat + (l.getD 2 0).toNat ≤ (l.drop 3).count 0 := by
  have h1 : l[1]? = some (l.getD 1 0) := by
    rw [List.getD_eq_getElem?_getD, List.getElem?_eq_getElem (by omega)]
    rfl
  have h2 : l[2]? = some (l.getD 2 0) := by
    rw [List.getD_eq_getElem?_getD, List.getElem?_eq_getElem (by omega)]
    rfl
  generalize l.getD 1 0 = u at h1 ⊢
  generalize l.getD 2 0 = v at h2 ⊢
  have hall := (nextPlayer_takes.readN u.toNat).bind (nextString_takes.readN v.toNat)
    (fun players spectators => (players, spectators))
  have hiff := @Takes.isSome_iff _ _ _ hall l 3
  simp only [readJoinRoomSuccessful, h1, h2]
  by_cases hu : u.toNat > 2
  · refine iff_of_false (fun hsome => ?_) fun h => absurd h.1 (by omega)
    simp [hu] at hsome
  · rw [and_iff_right (by omega)]
    have hsum : u.toNat * 2 + v.toNat * 1 = 2 * u.toNat + v.toNat := by omega
    rw [← hsum, ← hiff]
    simp [hu, Option.isSome_bind, Option.isSome_map]

theorem enough_iff (htype : ServerClientProtocol.ofByte (l.getD 0 0) = some type) :
    Enough l ↔ (type = .joinRoomSuccessful → (l.getD 1 0).toNat ≤ 2)
      ∧ (asked l type).2 ≤ (l.drop (asked l type).1).count 0 := by
  constructor
  · intro h
    exact h type htype
  · intro h type' htype'
    obtain rfl := Option.some.inj (htype.symm.trans htype')
    exact h

/-- **THE DECODER STAYS IN THE BUFFER** just when the message brings its NULs. -/
theorem decoded_iff (hlen : l.length = bufSize) :
    (serverClientProtocolRead l).isSome ↔ Enough l := by
  have hsize : bufSize = 1024 := rfl
  have hbyte : ∀ {k}, k < 3 → l[k]? = some (l.getD k 0) := by
    intro k hk
    rw [List.getD_eq_getElem?_getD, List.getElem?_eq_getElem (by omega)]
    rfl
  have hstring := @stringAt_isSome l 1
  simp only [serverClientProtocolRead, hbyte (by decide : 0 < 3), hbyte (by decide : 1 < 3),
    hbyte (by decide : 2 < 3), Option.bind_eq_bind, Option.bind_some]
  cases htype : ServerClientProtocol.ofByte (l.getD 0 0) with
  | none => exact iff_of_true rfl fun type h => by rw [htype] at h; cases h
  | some type =>
      rw [enough_iff htype]
      cases type with
      | connectionSuccessful => simp [asked]
      | connectionRefused => simpa [asked] using hstring
      | roomCreationSuccessful => simp [asked, uint32At, bytesAt, hlen, hsize]
      | roomCreationRefused => simpa [asked] using hstring
      | joinRoomSuccessful =>
          rw [Option.isSome_map, readJoinRoomSuccessful_isSome (by omega)]
          simp [asked]
      | joinRoomRefused => simpa [asked] using hstring
      | played => simp [asked, bytesAt, hlen, hsize, boardSize]
      | gameStart => simp [asked]
      | playerJoinedRoom => simpa [asked] using hstring
      | spectatorJoinedRoom => simpa [asked] using hstring
      | gameStopped => simpa [asked, Option.isSome_bind] using stringAt_isSome
      | message =>
          simpa [asked, Option.isSome_bind] using @messageStrings_isSome l
      | invalidPlay => simpa [asked] using hstring

/-- The names, biographies and messages a call hands to its handler. -/
def callStrings : HandlerCall → List CString
  | .connectionRefused errorMessage => [errorMessage]
  | .roomCreationRefused errorMessage => [errorMessage]
  | .joinRoomSuccessful _ _ users bios spectators => users ++ bios ++ spectators
  | .joinRoomRefused errorMessage => [errorMessage]
  | .playerJoinedRoom username => [username]
  | .spectatorJoinedRoom username => [username]
  | .gameStopped _ winner => [winner]
  | .message username message => [username, message]
  | .invalidPlay errorMessage => [errorMessage]
  | _ => []

/-- A string that a NUL of the bytes ends. -/
def Ends (l : List UInt8) (str : CString) : Prop := ∃ off, stringAt l off = some str

theorem Ends.fits {str : CString} (h : Ends l str) : str.strlen + 1 ≤ l.length := by
  obtain ⟨off, h⟩ := h
  have hlt := strlen_stringAt h
  omega

theorem nextString_ends {off : Nat} {r : CString × Nat} (h : nextString l off = some r) :
    Ends l r.1 := by
  obtain ⟨str, hstr, rfl⟩ := Option.map_eq_some_iff.mp h
  exact ⟨off, hstr⟩

theorem nextPlayer_ends {off : Nat} {r : (CString × CString) × Nat}
    (h : nextPlayer l off = some r) : Ends l r.1.1 ∧ Ends l r.1.2 := by
  obtain ⟨user, huser, h⟩ := Option.bind_eq_some_iff.mp h
  obtain ⟨bio, hbio, rfl⟩ := Option.map_eq_some_iff.mp h
  exact ⟨nextString_ends huser, nextString_ends hbio⟩

theorem joinRoom_ends {call : HandlerCall} (h : readJoinRoomSuccessful l = some call) :
    ∀ str ∈ callStrings call, Ends l str := by
  simp only [readJoinRoomSuccessful, Option.bind_eq_bind] at h
  obtain ⟨nbUsers, -, h⟩ := Option.bind_eq_some_iff.mp h
  obtain ⟨nbSpectators, -, h⟩ := Option.bind_eq_some_iff.mp h
  split at h
  · cases h
  · obtain ⟨players, hplayers, h⟩ := Option.bind_eq_some_iff.mp h
    obtain ⟨spectators, hspectators, h⟩ := Option.bind_eq_some_iff.mp h
    obtain rfl := Option.some.inj h
    have hp := forall_readN (P := fun player => Ends l player.1 ∧ Ends l player.2)
      nextPlayer_ends hplayers
    have hs := forall_readN nextString_ends hspectators
    intro str hstr
    rcases List.mem_append.mp hstr with hstr | hstr
    · rcases List.mem_append.mp hstr with hstr | hstr
      · obtain ⟨player, hplayer, rfl⟩ := List.mem_map.mp hstr
        exact (hp player hplayer).1
      · obtain ⟨player, hplayer, rfl⟩ := List.mem_map.mp hstr
        exact (hp player hplayer).2
    · exact hs str hstr

/-- What a decoder hands over ends in the bytes it was given. -/
theorem callStrings_end {call : HandlerCall}
    (h : serverClientProtocolRead l = some (some call)) :
    ∀ str ∈ callStrings call, Ends l str := by
  have hone : ∀ {off : Nat} {f : CString → HandlerCall},
      (∀ m, callStrings (f m) = [m]) →
      (stringAt l off).map (fun m => some (f m)) = some (some call) →
      ∀ str ∈ callStrings call, Ends l str := by
    intro off f hf h
    obtain ⟨m, hm, hcall⟩ := Option.map_eq_some_iff.mp h
    obtain rfl := Option.some.inj hcall
    rw [hf m]
    exact List.forall_mem_singleton.mpr ⟨off, hm⟩
  simp only [serverClientProtocolRead, Option.bind_eq_bind] at h
  obtain ⟨type, -, h⟩ := Option.bind_eq_some_iff.mp h
  split at h
  · cases h
    exact List.forall_mem_nil _
  · exact hone (fun _ => rfl) h
  · obtain ⟨n, -, hcall⟩ := Option.map_eq_some_iff.mp h
    cases hcall
    exact List.forall_mem_nil _
  · exact hone (fun _ => rfl) h
  · obtain ⟨joined, hjoined, hcall⟩ := Option.map_eq_some_iff.mp h
    obtain rfl := Option.some.inj hcall
    exact joinRoom_ends hjoined
  · exact hone (fun _ => rfl) h
  · obtain ⟨sScore, -, h⟩ := Option.bind_eq_some_iff.mp h
    obtain ⟨oScore, -, h⟩ := Option.bind_eq_some_iff.mp h
    obtain ⟨board, -, h⟩ := Option.bind_eq_some_iff.mp h
    cases h
    exact List.forall_mem_nil _
  · obtain ⟨pos, -, hcall⟩ := Option.map_eq_some_iff.mp h
    cases hcall
    exact List.forall_mem_nil _
  · exact hone (fun _ => rfl) h
  · exact hone (fun _ => rfl) h
  · obtain ⟨draw, -, h⟩ := Option.bind_eq_some_iff.mp h
    obtain ⟨winner, hwinner, h⟩ := Option.bind_eq_some_iff.mp h
    cases h
    exact List.forall_mem_singleton.mpr ⟨2, hwinner⟩
  · obtain ⟨username, husername, h⟩ := Option.bind_eq_some_iff.mp h
    obtain ⟨message, hmessage, h⟩ := Option.bind_eq_some_iff.mp h
    cases h
    exact List.forall_mem_cons.mpr
      ⟨⟨1, husername⟩, List.forall_mem_singleton.mpr ⟨_, hmessage⟩⟩
  · exact hone (fun _ => rfl) h
  · cases h

/-- **THE CLIENT RECEIVES** inside its buffer, decodes inside it, and hands over strings that
    end there and fit a field of 1024 bytes. -/
structure ClientReceives (buf : ByteBuffer) (p b : List UInt8) : Prop where
  inside : ∀ k ∈ written .client p b, k < bufSize
  fits : p ≠ [] → b ≠ [] → ∃ call, serverClientProtocolRead (contents (filled .client buf p b))
      = some call ∧ ∀ c ∈ call, ∀ str ∈ callStrings c,
        Ends (contents (filled .client buf p b)) str ∧ str.strlen + 1 ≤ bufSize

theorem contents_length (buf : ByteBuffer) : (contents buf).length = bufSize := by
  rw [contents, List.length_map, List.length_range']

theorem clientReceives_iff (hp : p.length ≤ 2) :
    ClientReceives buf p b ↔ b.length < bufSize
      ∧ (p ≠ [] → b ≠ [] → Enough (contents (filled .client buf p b))) := by
  constructor
  · intro h
    refine ⟨(written_iff hp).mp h.inside, fun hp hb => ?_⟩
    obtain ⟨call, hcall, -⟩ := h.fits hp hb
    refine (decoded_iff (contents_length _)).mp ?_
    rw [hcall]
    rfl
  · rintro ⟨hlen, henough⟩
    refine ⟨(written_iff hp).mpr hlen, fun hp hb => ?_⟩
    have hsome := (decoded_iff (contents_length _)).mpr (henough hp hb)
    obtain ⟨call, hcall⟩ := Option.isSome_iff_exists.mp hsome
    refine ⟨call, hcall, fun c hc str hstr => ?_⟩
    rw [Option.mem_def.mp hc] at hcall
    have hends := callStrings_end hcall str hstr
    have hfits := hends.fits
    rw [contents_length] at hfits
    exact ⟨hends, hfits⟩

/-! ## Both programs -/

/-- **RECEIVING.**  Whatever a buffer held, whatever the prefix and whatever the body: the
    server receives inside its buffer just when the body leaves room for its NUL, the client
    just when, besides, the message it decodes brings as many NULs as it calls for strings. -/
theorem receiving (buf : ByteBuffer) {p : List UInt8} (b : List UInt8) (hp : p.length ≤ 2) :
    (ServerReceives buf p b ↔ b.length < bufSize)
      ∧ (ClientReceives buf p b ↔ b.length < bufSize
          ∧ (p ≠ [] → b ≠ [] → Enough (contents (filled .client buf p b)))) :=
  ⟨serverReceives_iff hp, clientReceives_iff hp⟩

/-- The refusal of a name, into a buffer of zeros. -/
theorem receiving_refusal :
    ServerReceives (fun _ => 0) [3, 0] [1, 97, 0]
      ∧ ClientReceives (fun _ => 0) [3, 0] [1, 97, 0] := by
  have h := receiving (fun _ => 0) (p := [3, 0]) [1, 97, 0] (by decide)
  exact ⟨h.1.mpr (by decide), h.2.mpr ⟨by decide, fun _ _ => by decide +kernel⟩⟩

/-- **A BODY OF 1024 BYTES** is received whole, and its NUL goes behind the buffer. -/
theorem full_body_overruns :
    ∃ b : List UInt8, b.length = prefixValue 0 4
      ∧ bufSize ∈ written .server [0, 4] b ∧ ¬ ServerReceives (fun _ => 0) [0, 4] b
      ∧ bufSize ∈ written .client [0, 4] b ∧ ¬ ClientReceives (fun _ => 0) [0, 4] b := by
  have hlen : (List.replicate 1024 (1 : UInt8)).length = bufSize := List.length_replicate
  have hnot : ¬ (List.replicate 1024 (1 : UInt8)).length < bufSize := by
    rw [hlen]
    exact Nat.lt_irrefl _
  have hend : bufSize ∈ [(List.replicate 1024 (1 : UInt8)).length] := by
    rw [hlen]
    exact List.mem_singleton_self _
  refine ⟨List.replicate 1024 1, hlen, List.mem_append_right _ hend, fun h => ?_,
    List.mem_append_right _ (List.mem_append_right _ hend), fun h => ?_⟩
  · exact hnot ((serverReceives_iff (by decide)).mp h)
  · exact hnot ((clientReceives_iff (by decide)).mp h).1

end AwaleReceiving
