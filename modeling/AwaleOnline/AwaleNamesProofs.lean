import AwaleOnline.AwaleSeatsProofs

/-!
# Names: who is who, and whose seat is taken

The server knows a person by a name only: CONNECT refuses a name that a client has, and gives
the seat that stores the name to whoever comes back with it.

* **`names_unique`** — no two clients have the same name, the empty one apart;
* **`seat_takeover`** — under `takeoverGuard` a reconnection takes a vacant seat only: the name
  a seat stores is then the name of the client that sits in it.
-/

namespace AwaleNames

open AwaleGame AwaleProtocol AwaleServer AwaleEffect AwaleRoster AwaleSeats

variable {s s' s₁ : Server} {c : Nat} {rand : UInt32} {q : Request} {out : List Sent} {g : Guard}

/-! ## The names of the client table -/

/-- Two clients have different names, unless both have none. -/
def NamesUnique (s : Server) : Prop :=
  ∀ a < s.nbClients, ∀ b < s.nbClients, a ≠ b →
    (s.clients a).name ≠ CString.empty → (s.clients a).name ≠ (s.clients b).name

/-- The name client `c` has after a request. -/
def nameAfter (s : Server) (c : Nat) : Request → CString
  | .connect name => if nameInUse s name then (s.clients c).name else name
  | _ => (s.clients c).name

/-- An accepted CONNECT writes the name of its sender, and nothing else writes a name. -/
theorem Effect.name (h : Effect s c rand q s' out) (a : Nat) :
    (s'.clients a).name = if a = c then nameAfter s c q else (s.clients a).name := by
  have hsame : nameAfter s c q = (s.clients c).name →
      (s'.clients a).name = (s.clients a).name →
      (s'.clients a).name = if a = c then nameAfter s c q else (s.clients a).name := by
    intro hafter hkeep
    split
    · rename_i hac
      rw [hkeep, hafter, hac]
    · exact hkeep
  have hfree : ∀ {name}, nameInUse s name = false → nameAfter s c (.connect name) = name := by
    intro name hf
    exact if_neg (by rw [hf]; exact Bool.false_ne_true)
  have hset : ∀ {name}, nameInUse s name = false →
      ((setClient s c { s.clients c with name := name }).clients a).name
        = if a = c then nameAfter s c (.connect name) else (s.clients a).name := by
    intro name hf
    rw [hfree hf]
    by_cases hac : a = c
    · rw [if_pos hac, hac, setClient_self]
    · rw [if_neg hac, setClient_of_ne hac]
  cases h with
  | nameRefused hin => exact hsame (if_pos hin) rfl
  | named hf _ => exact hset hf
  | resumed hf _ _ => exact (setRoomId_name _ c _ a).trans (hset hf)
  | created _ _ => exact hsame rfl (setRoomId_name s c _ a)
  | joinNotFound _ => exact hsame rfl rfl
  | joinFull _ _ => exact hsame rfl rfl
  | joined _ _ _ _ => exact hsame rfl (setRoomId_name s c _ a)
  | started _ _ _ _ => exact hsame rfl (setRoomId_name s c _ a)
  | playedNowhere _ => exact hsame rfl rfl
  | played _ _ => exact hsame rfl rfl
  | playedLast _ _ => exact hsame rfl rfl
  | closed _ _ _ _ => exact hsame rfl (setRoomId_name s c 0 a)
  | unwatched _ _ _ _ _ => exact hsame rfl (setRoomId_name s c 0 a)
  | leftNothing _ _ _ _ _ => exact hsame rfl (setRoomId_name s c 0 a)
  | messaged _ _ => exact hsame rfl rfl
  | described => exact hsame rfl (setClient_field Client.name (by rfl) a)

/-- The name a client takes is its old one, or one that nobody has. -/
theorem nameAfter_cases (s : Server) (c : Nat) (q : Request) :
    nameAfter s c q = (s.clients c).name
      ∨ ∀ a < s.nbClients, (s.clients a).name ≠ nameAfter s c q := by
  cases q with
  | connect name =>
      by_cases hin : nameInUse s name = true
      · exact Or.inl (if_pos hin)
      · refine Or.inr fun a ha hname => hin ?_
        rw [nameAfter, if_neg hin] at hname
        exact nameInUse_iff.mpr ⟨a, ha, hname⟩
  | _ => exact Or.inl rfl

theorem NamesUnique.accept (h : NamesUnique s) (csock : Int) :
    NamesUnique (accepted s csock) := by
  intro a ha b hb hab hne
  have ha' : a < s.nbClients + 1 := ha
  have hb' : b < s.nbClients + 1 := hb
  have hold : a ≠ s.nbClients := by
    rintro rfl
    rw [accepted_self] at hne
    exact hne rfl
  rw [accepted_of_ne hold] at hne ⊢
  by_cases hbn : b = s.nbClients
  · rw [hbn, accepted_self]
    exact hne
  · rw [accepted_of_ne hbn]
    exact h a (by omega) b (by omega) hab hne

theorem NamesUnique.request (h : NamesUnique s) (heff : Effect s c rand q s' out) :
    NamesUnique s' := by
  intro a ha b hb hab
  rw [heff.counts] at ha hb
  rw [Effect.name heff a, Effect.name heff b]
  rcases nameAfter_cases s c q with hkeep | hnew
  · rw [hkeep]
    have hname : ∀ x, (if x = c then (s.clients c).name else (s.clients x).name)
        = (s.clients x).name := fun x => by
      split
      · rename_i hx
        rw [hx]
      · rfl
    rw [hname a, hname b]
    exact h a ha b hb hab
  · by_cases hac : a = c
    · rw [if_pos hac, if_neg (fun hbc => hab (hac.trans hbc.symm))]
      intro _
      exact (hnew b hb).symm
    · rw [if_neg hac]
      by_cases hbc : b = c
      · rw [if_pos hbc]
        intro _
        exact hnew a ha
      · rw [if_neg hbc]
        exact h a ha b hb hab

theorem NamesUnique.remove (h : NamesUnique s) : NamesUnique (removeClient s c) := by
  have hread : ∀ a, a < s.nbClients - 1 →
      (removeClient s c).clients a = s.clients (SlotArray.skip c a) := fun a ha =>
    SlotArray.shiftDown_skip s.clients ha
  have hlt : ∀ a, a < s.nbClients - 1 → SlotArray.skip c a < s.nbClients := fun a ha => by
    have hskip := SlotArray.skip_lt (i := c) ha
    omega
  intro a ha b hb hab hne
  rw [hread a ha] at hne ⊢
  rw [hread b hb]
  exact h _ (hlt a ha) _ (hlt b hb) (fun heq => hab (SlotArray.skip_injective c heq)) hne

/-- Names are unique in every state of every run. -/
theorem namesUnique_reachable (h : Reachable g.meets s) : NamesUnique s := by
  refine Guard.invariant ?_ ?_ ?_ ?_ ?_ h
  · intro b a ha
    exact absurd ha (Nat.not_lt_zero a)
  · intro t b ht
    exact ht
  · intro t csock ht _ _ _ _
    exact ht.accept csock
  · intro t c rand q t' out ht _ _ heff
    exact ht.request heff
  · intro t c t₁ ht _ _ hd
    obtain ⟨hclients, hn, -⟩ := disconnectUser_frame hd
    refine NamesUnique.remove ?_
    simp only [NamesUnique]
    rw [hclients, hn]
    exact ht

/-! ## Names fit their field -/

/-- A CONNECT brings a name that fits the field it is copied to. -/
def shortGuard : Guard where
  accept _ _ := True
  request _ _ _ q :=
    match q with
    | .connect name => name.strlen < bufSize
    | _ => True
  disconnect _ _ := True

/-- The string at offset `1` of the receive buffer has fewer bytes than the buffer. -/
theorem strlen_read_lt (buf : Buffer) : (CString.read buf bufSize 1).strlen < bufSize := by
  have hle : (CString.read buf bufSize 1).strlen
      ≤ ((List.range' 1 (bufSize - 1)).map buf).length :=
    (List.takeWhile_prefix _).length_le
  rw [List.length_map, List.length_range'] at hle
  have hpos : bufSize - 1 < bufSize := by decide
  omega

theorem readRequest_connect {buf : Buffer} {name : CString}
    (h : readRequest buf = some (.connect name)) : name = CString.read buf bufSize 1 := by
  simp only [readRequest] at h
  split at h <;> cases h
  rfl

/-- Every frame is like that. -/
theorem shortGuard_meets (s : Server) (e : Event) : shortGuard.meets s e := by
  cases e with
  | accept csock => trivial
  | disconnect c => trivial
  | frame c body rand =>
      refine Guard.meets_frame.mpr fun q hq => ?_
      cases q with
      | connect name =>
          show name.strlen < bufSize
          rw [readRequest_connect hq]
          exact strlen_read_lt _
      | _ => trivial

private theorem namesShort (h : Reachable shortGuard.meets s) :
    ∀ a, (s.clients a).name.strlen < bufSize := by
  refine Guard.invariant (g := shortGuard)
    (I := fun s => ∀ a, (s.clients a).name.strlen < bufSize) ?_ ?_ ?_ ?_ ?_ h
  · intro b a
    exact (by decide : CString.empty.strlen < bufSize)
  · intro t b ht
    exact ht
  · intro t csock ht _ _ _ _ a
    by_cases ha : a = t.nbClients
    · rw [ha, accepted_self]
      exact (by decide : CString.empty.strlen < bufSize)
    · rw [accepted_of_ne ha]
      exact ht a
  · intro t c rand q t' out ht _ hq heff a
    rw [Effect.name heff a]
    split
    · cases q with
      | connect name =>
          show (if nameInUse t name then (t.clients c).name else name).strlen < bufSize
          split
          · exact ht c
          · exact hq
      | _ => exact ht c
    · exact ht a
  · intro t c t₁ ht _ _ hd a
    show (SlotArray.shiftDown t₁.clients c (t₁.nbClients - 1) a).name.strlen < bufSize
    rw [(disconnectUser_frame hd).1, SlotArray.shiftDown_apply]
    split
    · exact ht (a + 1)
    · exact ht a

/-- **NAME UNIQUENESS.**  In every state reached by any accepts, frames and disconnections, two
    clients with a name have different names, and every name fits its field. -/
theorem names_unique (h : Reachable Guard.any.meets s) :
    NamesUnique s ∧ ∀ a < s.nbClients, (s.clients a).name.strlen < bufSize :=
  ⟨namesUnique_reachable h, fun a _ =>
    namesShort (GuardedRun.Reachable.mono (fun t e _ => shortGuard_meets t e) h) a⟩

/-- Two clients take names, the first one changes its name, and the second leaves. -/
def renames : List Event :=
  [.accept 4, .frame 0 (Request.connect (literal "a")).body 0, .accept 5,
    .frame 1 (Request.connect (literal "a")).body 0,
    .frame 1 (Request.connect (literal "b")).body 0,
    .frame 0 (Request.connect (literal "c")).body 0, .accept 6,
    .frame 2 (Request.connect (literal "a")).body 0, .disconnect 1]

theorem names_unique_renaming :
    ∃ s, (s.nbClients, (s.clients 0).name, (s.clients 1).name)
        = (2, literal "c", literal "a")
      ∧ NamesUnique s ∧ ∀ a < s.nbClients, (s.clients a).name.strlen < bufSize := by
  obtain ⟨s, hs, hf⟩ := Guard.reaches (g := Guard.any)
    (f := fun s => (s.nbClients, (s.clients 0).name, (s.clients 1).name))
    (b := (2, literal "c", literal "a")) renames (by decide +kernel) (by decide +kernel)
  exact ⟨s, hf, names_unique hs⟩

/-! ## The names of the seats -/

/-- Each seat is vacant, or a connected client sits in it that still has the stored name. -/
def SeatsNamed (s : Server) : Prop :=
  ∀ k e x name, Seat s k e x name →
    x = -1 ∨ ∃ a < s.nbClients, (s.clients a).sock = x ∧ (s.clients a).name = name

/-- No seat of a live room holds the socket of client `c`. -/
def Unseated (s : Server) (c : Nat) : Prop :=
  ∀ k < s.nbRooms.toNat, ∀ e < (s.rooms k).game.nbPlayers,
    ((s.rooms k).game.players e).id ≠ (s.clients c).sock

instance (s : Server) (c : Nat) : Decidable (Unseated s c) :=
  inferInstanceAs (Decidable (∀ k < s.nbRooms.toNat, ∀ e < _, _))

/-- Nobody changes the name while seated, and a client that disconnects sits nowhere but in the
    seat that `disconnect_user` finds. -/
def takeoverGuard : Guard where
  accept _ _ := True
  request s c _ q :=
    match q with
    | .connect name => nameInUse s name = false → Unseated s c
    | _ => True
  disconnect s c := ∀ k < s.nbRooms.toNat, ∀ e < (s.rooms k).game.nbPlayers,
    ((s.rooms k).game.players e).id = (s.clients c).sock → SeatFound s c k e

instance (s : Server) (csock : Int) : Decidable (takeoverGuard.accept s csock) :=
  inferInstanceAs (Decidable True)

instance (s : Server) (c : Nat) (rand : UInt32) (q : Request) :
    Decidable (takeoverGuard.request s c rand q) := by
  refine q.casesOn ?_ ?_ ?_ ?_ ?_ ?_ ?_ <;> intros <;> dsimp only [takeoverGuard] <;>
    infer_instance

instance (s : Server) (c : Nat) : Decidable (takeoverGuard.disconnect s c) :=
  inferInstanceAs (Decidable (∀ k < s.nbRooms.toNat, ∀ e < _, _ → SeatFound s c k e))

theorem SeatsNamed.accept (h : SeatsNamed s) (csock : Int) : SeatsNamed (accepted s csock) := by
  intro k e x name hseat
  rcases h k e x name ⟨hseat.live, hseat.taken, hseat.id, hseat.name⟩ with hx | ⟨a, ha, hclient⟩
  · exact Or.inl hx
  · refine Or.inr ⟨a, Nat.lt_succ_of_lt ha, ?_⟩
    rw [accepted_of_ne (Nat.ne_of_lt ha)]
    exact hclient

theorem SeatsNamed.request (h : SeatsNamed s) (hseats : ∀ k, (s.rooms k).game.nbPlayers ≤ 2)
    (hc : c < s.nbClients) (hq : takeoverGuard.request s c rand q)
    (heff : Effect s c rand q s' out) : SeatsNamed s' := by
  intro k e x name hseat
  rcases AwaleSeats.Effect.seat hseats heff hseat with ⟨k₀, hold⟩ | ⟨hx, hname⟩
  · rcases h k₀ e x name hold with hx | ⟨a, ha, hsock, hname⟩
    · exact Or.inl hx
    · refine Or.inr ⟨a, heff.counts ▸ ha, (heff.sock a).trans hsock, ?_⟩
      rw [Effect.name heff a]
      split
      · -- the sender sits in a seat, so it does not change its name
        rename_i hac
        subst hac
        have hkeep : nameAfter s a q = (s.clients a).name := by
          cases q with
          | connect newName =>
              refine if_pos ?_
              by_contra hfree
              have hun := hq (Bool.eq_false_iff.mpr hfree)
              exact hun k₀ (live_iff.mp hold.live) e hold.taken (hold.id.trans hsock.symm)
          | _ => rfl
        rw [hkeep, hname]
      · exact hname
  · exact Or.inr ⟨c, heff.counts ▸ hc, (heff.sock c).trans hx.symm, hname.symm⟩

theorem SeatsNamed.remove (h : SeatsNamed s) (hc : c < s.nbClients)
    (hleft : ∀ k e x name, Seat s k e x name → x ≠ (s.clients c).sock) :
    SeatsNamed (removeClient s c) := by
  intro k e x name hseat
  have hold : Seat s k e x name := ⟨hseat.live, hseat.taken, hseat.id, hseat.name⟩
  rcases h k e x name hold with hx | ⟨a, ha, hsock, hname⟩
  · exact Or.inl hx
  · have hac : a ≠ c := by
      rintro rfl
      exact hleft k e x name hold hsock.symm
    obtain ⟨b, hb, hskip⟩ := SlotArray.exists_skip (n := s.nbClients - 1) (by omega) hac
      (by omega)
    have hread : (removeClient s c).clients b = s.clients a := by
      rw [← hskip]
      exact SlotArray.shiftDown_skip s.clients hb
    exact Or.inr ⟨b, hb, hread ▸ hsock, hread ▸ hname⟩

/-- What `disconnect_user` leaves of the seats: the old ones, one of them vacated. -/
theorem SeatsNamed.disconnect (h : SeatsNamed s) (hd : (roster s).Distinct)
    (hseats : ∀ k, (s.rooms k).game.nbPlayers ≤ 2) (hc : c < s.nbClients)
    (hg : takeoverGuard.disconnect s c) (hdisc : disconnectUser s c = .ok s₁) :
    SeatsNamed (removeClient s₁ c) := by
  obtain ⟨hclients, hn, -⟩ := disconnectUser_frame hdisc
  have hpos : 0 < (s.clients c).sock := (hd c hc).1
  -- a seat of `s₁` is vacant, or it is a seat of `s` that holds somebody else
  have hseat : ∀ k e x name, Seat s₁ k e x name →
      x = -1 ∨ (Seat s k e x name ∧ x ≠ (s.clients c).sock) := by
    rintro k e x name ⟨hlive, htaken, hid, hname⟩
    rcases disconnectUser_seats hseats hdisc with ⟨i, j, hfound, hsame⟩ | ⟨hno, hsame⟩
    · have hlive' : Live s k := (live_congr hsame.nbRooms k).mp hlive
      rw [hsame.counts k] at htaken
      have hcount : ((vacated s i j).rooms k).game.nbPlayers = (s.rooms k).game.nbPlayers :=
        setGame_slots (P := fun k game => game.nbPlayers = (s.rooms k).game.nbPlayers)
          (fun _ _ => rfl) (by rfl) k
      rw [hcount] at htaken
      have he : e < 2 := Nat.lt_of_lt_of_le htaken (hseats k)
      rw [hsame.seats k e he] at hid hname
      by_cases hki : k = i
      · subst hki
        rw [vacated, setGame_self] at hid hname
        by_cases hej : e = j
        · rw [hej, setPlayerId_self] at hid
          exact Or.inl hid.symm
        · rw [setPlayerId_of_ne hej] at hid hname
          refine Or.inr ⟨⟨hlive', htaken, hid, hname⟩, fun hx => hej ?_⟩
          exact (seatFound_unique (hg k hfound.1 e htaken (hid.trans hx)) hfound).2
      · rw [vacated, setGame_of_ne hki] at hid hname
        refine Or.inr ⟨⟨hlive', htaken, hid, hname⟩, fun hx => hki ?_⟩
        exact (seatFound_unique (hg k (live_iff.mp hlive') e htaken (hid.trans hx)) hfound).1
    · have hlive' : Live s k := (live_congr hsame.nbRooms k).mp hlive
      rw [hsame.counts k] at htaken
      have he : e < 2 := Nat.lt_of_lt_of_le htaken (hseats k)
      rw [hsame.seats k e he] at hid hname
      refine Or.inr ⟨⟨hlive', htaken, hid, hname⟩, fun hx => ?_⟩
      exact hno.not_found (hg k (live_iff.mp hlive') e htaken (hid.trans hx))
  refine SeatsNamed.remove ?_ (hn ▸ hc) ?_
  · intro k e x name hs
    rcases hseat k e x name hs with hx | ⟨hold, -⟩
    · exact Or.inl hx
    · rw [hclients, hn]
      exact h k e x name hold
  · intro k e x name hs
    rw [hclients]
    rcases hseat k e x name hs with hx | ⟨-, hne⟩
    · omega
    · exact hne

theorem seatsNamed_reachable (h : Reachable takeoverGuard.meets s) : SeatsNamed s := by
  refine Guard.invariant_with
    (J := fun s => (∀ k, (s.rooms k).game.nbPlayers ≤ 2) ∧ (roster s).Distinct)
    (I := SeatsNamed) (fun t ht => ⟨seats_reachable t ht, distinct_reachable ht⟩)
    (fun _ _ h => h) ?_ ?_ ?_ ?_ ?_ h
  · intro b k e x name hseat
    exact absurd hseat.live (not_live_of_le (Int.le_refl 0) k)
  · intro t b ht k e x name hseat
    exact ht k e x name ⟨hseat.live, hseat.taken, hseat.id, hseat.name⟩
  · intro t csock _ ht _ _ _ _
    exact ht.accept csock
  · intro t c rand q t' out hJ ht hc hq heff
    exact ht.request hJ.1 hc hq heff
  · intro t c t₁ hJ ht hc hg hd
    exact ht.disconnect hJ.2 hJ.1 hc hg hd

/-- What a CONNECT with `name` does to the seats. -/
structure TakesVacant (s s' : Server) (name : CString) : Prop where
  /-- The seat whose id is overwritten was vacant. -/
  vacant : nameInUse s name = false → ∀ p ∈ findSeat s name,
    ((s.rooms p.1).game.players p.2).id = -1
  /-- A seat that is not vacant keeps its id. -/
  kept : ∀ k, Live s k → ∀ e < (s.rooms k).game.nbPlayers,
    ((s.rooms k).game.players e).id ≠ -1 →
      ((s'.rooms k).game.players e).id = ((s.rooms k).game.players e).id

private theorem takesVacant (h : SeatsNamed s) {name : CString}
    (heff : Effect s c rand (.connect name) s' out) : TakesVacant s s' name := by
  have hvacant : nameInUse s name = false → ∀ p ∈ findSeat s name,
      ((s.rooms p.1).game.players p.2).id = -1 := by
    rintro hfree ⟨i, j⟩ hseat
    obtain ⟨hi, hj, hnamed⟩ := findSeat_some hseat
    refine (h i j _ name ⟨hi, hj, rfl, hnamed⟩).resolve_right ?_
    rintro ⟨a, ha, -, hname⟩
    rw [nameInUse_iff.mpr ⟨a, ha, hname⟩] at hfree
    exact absurd hfree (by decide)
  refine ⟨hvacant, ?_⟩
  intro k hk e he hid
  cases heff with
  | nameRefused _ => rfl
  | named _ _ => rfl
  | @resumed _ i j m hfree hseat _ =>
      show (((setGame s i (setPlayerId (s.rooms i).game j (s.clients c).sock)).rooms k).game.players
        e).id = _
      by_cases hki : k = i
      · subst hki
        rw [setGame_self, setPlayerId_of_ne]
        rintro rfl
        exact hid (hvacant hfree (k, e) hseat)
      · rw [setGame_of_ne hki]

/-- **SEAT TAKEOVER.**  In every state reached under `takeoverGuard`, a CONNECT of any client
    overwrites the id of a vacant seat only, and every other seat keeps its occupant. -/
theorem seat_takeover (h : Reachable takeoverGuard.meets s) {body : List UInt8} {name : CString}
    (hq : readRequest (received s body).buffer = some (.connect name))
    (htr : trans s (.frame c body rand) = some (s', out)) : TakesVacant s s' name := by
  obtain ⟨-, hstep⟩ := trans_eq_some htr
  obtain ⟨-, ⟨hnone, -, -⟩ | ⟨q, hq', heff⟩⟩ := step_cases hstep
  · rw [hnone] at hq
    exact nomatch hq
  · obtain rfl : q = .connect name := Option.some.inj (hq'.symm.trans hq)
    have hnamed : SeatsNamed (received s body) := fun k e x n hseat =>
      seatsNamed_reachable h k e x n ⟨hseat.live, hseat.taken, hseat.id, hseat.name⟩
    obtain ⟨hvacant, hkept⟩ := takesVacant hnamed heff
    exact ⟨hvacant, hkept⟩

/-- The body of a CONNECT as `a`. -/
def connectA : List UInt8 := (Request.connect (literal "a")).body

/-- `a` opens a room and disconnects; a new connection enters the same name. -/
theorem seat_takeover_comeback :
    ∃ s s' : Server, ((s.rooms 0).game.players 0).id = -1
      ∧ ((s'.rooms 0).game.players 0).id = 5 ∧ TakesVacant s s' (literal "a") := by
  obtain ⟨s, hs, hf⟩ := Guard.reaches (g := takeoverGuard)
    (f := fun s => (((s.rooms 0).game.players 0).id,
      (trans s (.frame 0 connectA 0)).map fun r => ((r.1.rooms 0).game.players 0).id))
    (b := (-1, some 5))
    [.accept 4, .frame 0 connectA 0, .frame 0 Request.createRoom.body 7, .disconnect 0, .accept 5]
    (by decide +kernel) (by decide +kernel)
  simp only [Prod.mk.injEq] at hf
  obtain ⟨⟨s', out⟩, htr, hid⟩ := Option.map_eq_some_iff.mp hf.2
  exact ⟨s, s', hf.1, hid, seat_takeover hs
    (readRequest_body s.buffer (q := .connect (literal "a")) (by decide)) htr⟩

/-- `a` opens a room and changes its name to `b`: the next client that enters the name `a` gets
    the seat of a player who is still connected. -/
theorem seat_stolen : ¬ ∀ s, Reachable Guard.any.meets s → ∀ c body rand name s' out,
    readRequest (received s body).buffer = some (.connect name) →
    trans s (.frame c body rand) = some (s', out) → TakesVacant s s' name := by
  intro h
  obtain ⟨s, hs, hf⟩ := Guard.reaches (g := Guard.any)
    (f := fun s => (nameInUse s (literal "a"), findSeat s (literal "a"),
      ((s.rooms 0).game.players 0).id, (trans s (.frame 1 connectA 0)).isSome))
    (b := (false, some (0, 0), 4, true))
    [.accept 4, .frame 0 connectA 0, .frame 0 Request.createRoom.body 7,
      .frame 0 (Request.connect (literal "b")).body 0, .accept 5]
    (by decide +kernel) (by decide +kernel)
  simp only [Prod.mk.injEq] at hf
  obtain ⟨hfree, hseat, hid, hsome⟩ := hf
  obtain ⟨⟨s', out⟩, htr⟩ := Option.isSome_iff_exists.mp hsome
  have hvacant := (h s hs 1 connectA 0 (literal "a") s' out
    (readRequest_body s.buffer (q := .connect (literal "a")) (by decide)) htr).vacant hfree (0, 0)
    hseat
  rw [hid] at hvacant
  exact absurd hvacant (by decide)

end AwaleNames
