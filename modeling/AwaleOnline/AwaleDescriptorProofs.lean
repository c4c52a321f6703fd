import AwaleOnline.AwaleMembershipProofs

/-!
# Descriptors: what the server writes to is open

`write_client` ends the whole server when `send` fails, so a socket in a member entry must be
the socket of a connected client.

* **`sends_connected`** — under `descriptorGuard` every frame of a request goes to a connected
  client: each handler writes to its own client, to member entries of a live room, or to
  entries the guard speaks of;
* **`sound_step`** — `Roster.Sound` is kept by every guarded request and disconnection;
* **`descriptors_open`** — both, over whole runs, and a disconnected socket is in no entry.
-/

namespace AwaleDescriptor

open AwaleGame AwaleProtocol AwaleServer AwaleEffect AwaleBounds AwaleRoster AwaleMembership

variable {s s' : Server} {c : Nat}

/-! ## The condition -/

/-- Entry `k` of slot `i` is a member entry of a live room, or vacant, or the sender's own. -/
def Addressed (s : Server) (c i k : Nat) : Prop :=
  (Live s i ∧ MemberAt (s.rooms i).game k) ∨ ((s.rooms i).game.players k).id = -1
    ∨ ((s.rooms i).game.players k).id = (s.clients c).sock

instance (s : Server) (c i k : Nat) : Decidable (Addressed s c i k) :=
  inferInstanceAs (Decidable ((_ ∧ _) ∨ _ ∨ _))

/-- The loops of `disconnect_user` find every entry that holds the client's socket. -/
def AllFound (s : Server) (c : Nat) : Prop :=
  InOnly s (s.clients c).sock fun k e => SeatFound s c k e ∨ (2 ≤ e ∧ Hit s c k (e - 2))

instance (s : Server) (c : Nat) : Decidable (AllFound s c) :=
  inferInstanceAs (Decidable (InOnly s (s.clients c).sock fun k e =>
    SeatFound s c k e ∨ (2 ≤ e ∧ Hit s c k (e - 2))))

/-- The handlers write to `Addressed` entries and copy such an entry over a spectator's; and a
    disconnection finds all entries of its client. -/
def descriptorGuard : Guard where
  accept _ _ := True
  request s c _ q :=
    match q with
    | .play pos => ∀ i ∈ findRoom s (s.clients c).roomId, Addressed s c i 1
        ∨ (gameIsEnded (playIn s c i pos).1 = .notEnded
          ∧ (sideIn s c i = 0 ∨ (playIn s c i pos).2 = .validPlay))
    | .leaveRoom =>
        let i := targetRoom s (s.clients c).roomId
        let game := (s.rooms i).game
        (∀ j ∈ findPlayer game (s.clients c).sock,
          ∀ k < game.nbPlayers + game.nbSpectators, k ≠ j → Addressed s c i k)
        ∧ (findPlayer game (s.clients c).sock = none →
            ∀ j ∈ findSpectator game (s.clients c).sock,
              j + 1 = game.nbSpectators ∨ Addressed s c i (game.nbSpectators - 1))
    | .sendMessage _ =>
        let i := targetRoom s (s.clients c).roomId
        ∀ k < (s.rooms i).game.nbPlayers + (2 + (s.rooms i).game.nbSpectators),
          MemberAt (s.rooms i).game k → Addressed s c i k
    | _ => True
  disconnect s c := ScanMeets s c ∧ AllFound s c

instance (s : Server) (csock : Int) : Decidable (descriptorGuard.accept s csock) :=
  inferInstanceAs (Decidable True)

instance (s : Server) (c : Nat) (rand : UInt32) (q : Request) :
    Decidable (descriptorGuard.request s c rand q) := by
  refine q.casesOn ?_ ?_ ?_ ?_ ?_ ?_ ?_ <;> intros <;> dsimp only [descriptorGuard] <;>
    infer_instance

instance (s : Server) (c : Nat) : Decidable (descriptorGuard.disconnect s c) :=
  inferInstanceAs (Decidable (_ ∧ _))

/-! ## Frames -/

/-- Every frame goes to a connected client. -/
def ToConnected (s : Server) (out : List Sent) : Prop :=
  ∀ f ∈ out, (roster s).Connected f.1

/-- The sender is connected. -/
theorem own_connected (hc : c < s.nbClients) : (roster s).Connected (s.clients c).sock :=
  ⟨c, hc, rfl⟩

theorem Sound.member (h : (roster s).Sound) {i k : Nat} (hi : Live s i)
    (hk : MemberAt (s.rooms i).game k) :
    ((s.rooms i).game.players k).id = -1
      ∨ (roster s).Connected ((s.rooms i).game.players k).id :=
  h i k _ (entry_eq_some.mpr ⟨hi, hk, rfl⟩)

theorem Sound.addressed (h : (roster s).Sound) (hc : c < s.nbClients) {i k : Nat}
    (hk : Addressed s c i k) :
    ((s.rooms i).game.players k).id = -1
      ∨ (roster s).Connected ((s.rooms i).game.players k).id := by
  rcases hk with ⟨hi, hmem⟩ | hneg | hown
  · exact Sound.member h hi hmem
  · exact Or.inl hneg
  · exact Or.inr (hown ▸ own_connected hc)

/-- The PLAYED frames go to the members of the room. -/
private theorem toConnected_played (h : (roster s).Sound) {i : Nat} (hi : Live s i)
    {game : Game} (h1 : game.nbPlayers = (s.rooms i).game.nbPlayers)
    (h2 : game.nbSpectators = (s.rooms i).game.nbSpectators)
    (h3 : ∀ e, (game.players e).id = ((s.rooms i).game.players e).id) :
    ToConnected s (playedFrames game) := by
  refine sentTo_append (sentTo_flatMap ?_) (sentTo_flatMap ?_)
  · intro j hj
    refine sentTo_writeClient ?_
    rw [h3]
    exact Sound.member h hi (Or.inl (h1 ▸ hj))
  · intro j hj
    refine sentTo_writeClient ?_
    rw [h3]
    exact Sound.member h hi (Or.inr ⟨by omega, by omega⟩)

/-- The answers to a PLAY; the one to an invalid move goes to the seat of the inferred side. -/
private theorem toConnected_replies (h : (roster s).Sound) (hc : c < s.nbClients) {i : Nat}
    {pos : UInt8} (hi : Live s i)
    (hside : sideIn s c i = 0 ∨ (playIn s c i pos).2 = .validPlay ∨ Addressed s c i 1) :
    ToConnected s (replies s c i pos) := by
  obtain ⟨h1, h2, -, h4⟩ := play_frame s c i pos
  by_cases hvalid : (playIn s c i pos).2 = .validPlay
  · rw [replies_valid hvalid]
    exact toConnected_played h hi h1 h2 fun e => (h4 e).1
  · rw [replies_rejected hvalid]
    refine sentTo_writeClient ?_
    have hid : ((playIn s c i pos).1.players (sideIn s c i)).id
        = ((s.rooms i).game.players (sideIn s c i)).id := (h4 _).1
    rw [hid]
    by_cases hown : ((s.rooms i).game.players 0).id = (s.clients c).sock
    · rw [sideIn_zero hown, hown]
      exact Or.inr (own_connected hc)
    · rw [sideIn_one hown] at hside ⊢
      rcases hside with h0 | hplayed | hok
      · exact nomatch h0
      · exact absurd hplayed hvalid
      · exact Sound.addressed h hc hok

/-- **SENDS.**  Every frame of a guarded request goes to a connected client. -/
theorem sends_connected {rand : UInt32} {q : Request} {out : List Sent}
    (h : (roster s).Sound) (hfounded : ∀ k, Live s k → 0 < (s.rooms k).game.nbPlayers)
    (hc : c < s.nbClients) (hq : descriptorGuard.request s c rand q)
    (heff : Effect s c rand q s' out) : ToConnected s out := by
  have hself : ∀ m, ToConnected s (writeClient (s.clients c).sock m) :=
    fun m => sentTo_writeClient (Or.inr (own_connected hc))
  cases heff with
  | nameRefused _ => exact hself _
  | named _ _ => exact hself _
  | resumed _ _ _ => exact hself _
  | created _ _ => exact hself _
  | joinNotFound _ => exact hself _
  | joinFull _ _ => exact hself _
  | joined _ _ _ _ => exact hself _
  | @started roomId spectate i frame hfind hopen _ _ =>
      refine sentTo_append (hself _) (sentTo_flatMap ?_)
      intro j hj
      refine sentTo_writeClient ?_
      -- a seat of the joined room is the one just filled, or was a member entry before
      have hi := (findRoom_eq_some.mp hfind).1
      by_cases hnew : j = addIndex (s.rooms i).game (spectate ≠ 0)
      · have hid : ((joinedGame s c i spectate).players j).id = (s.clients c).sock := by
          show (Function.update (s.rooms i).game.players _ _ j).id = _
          rw [hnew, Function.update_self]
          rfl
        exact Or.inr (hid ▸ own_connected hc)
      · have hid : ((joinedGame s c i spectate).players j).id
            = ((s.rooms i).game.players j).id := by
          show (Function.update (s.rooms i).game.players _ _ j).id = _
          rw [Function.update_of_ne hnew]
        rw [hid]
        refine Sound.member h hi (Or.inl ?_)
        have hj' : j < if (spectate ≠ 0 : Bool) then (s.rooms i).game.nbPlayers
          else (s.rooms i).game.nbPlayers + 1 := hj
        have hne : j ≠ if (spectate ≠ 0 : Bool) then 2 + (s.rooms i).game.nbSpectators
          else (s.rooms i).game.nbPlayers := hnew
        split at hj'
        · exact hj'
        · rename_i hsp
          rw [if_neg hsp] at hne
          omega
  | playedNowhere _ => exact sentTo_nil
  | @played pos i hfind hend =>
      refine toConnected_replies h hc (findRoom_eq_some.mp hfind).1 ?_
      rcases hq i hfind with hok | ⟨-, hside | hvalid⟩
      · exact Or.inr (Or.inr hok)
      · exact Or.inl hside
      · exact Or.inr (Or.inl hvalid)
  | @playedLast pos i hfind hend =>
      have hi := (findRoom_eq_some.mp hfind).1
      -- the last frames go to both seats, so both have to be in order
      have hok := (hq i hfind).resolve_right fun hn => hend hn.1
      have hids : ∀ e, ((playIn s c i pos).1.players e).id
          = ((s.rooms i).game.players e).id := fun e => ((play_frame s c i pos).2.2.2 e).1
      refine sentTo_append (sentTo_append
        (toConnected_replies h hc hi (Or.inr (Or.inr hok))) ?_) ?_
      · refine sentTo_writeClient ?_
        rw [hids]
        exact Sound.member h hi (Or.inl (hfounded i hi))
      · refine sentTo_writeClient ?_
        rw [hids]
        exact Sound.addressed h hc hok
  | @closed i j hi _ _ hp =>
      subst hi
      refine sentTo_flatMap ?_
      intro k hk
      split
      · rename_i hkj
        exact sentTo_writeClient (Sound.addressed h hc (hq.1 j hp k hk hkj))
      · exact sentTo_nil
  | unwatched _ _ _ _ _ => exact sentTo_nil
  | leftNothing _ _ _ _ _ => exact sentTo_nil
  | @messaged message i hi _ =>
      subst hi
      refine sentTo_append (sentTo_flatMap ?_) (sentTo_flatMap ?_)
      · intro j hj
        split
        · exact sentTo_writeClient
            (Sound.addressed h hc (hq j (by omega) (Or.inl hj)))
        · exact sentTo_nil
      · intro j hj
        split
        · exact sentTo_writeClient
            (Sound.addressed h hc (hq (2 + j) (by omega) (Or.inr ⟨by omega, by omega⟩)))
        · exact sentTo_nil
  | described => exact sentTo_nil

/-! ## Member entries -/

private theorem sound_request {rand : UInt32} {q : Request} {r : Roster}
    (h : (roster s).Sound) (hc : c < s.nbClients)
    (hq : descriptorGuard.request s c rand q) (ht : Transfer s c rand q r) : r.Sound := by
  have hown : (s.clients c).sock = -1 ∨ (roster s).Connected (s.clients c).sock :=
    Or.inr (own_connected hc)
  cases ht with
  | keep => exact h
  | seat _ _ => exact Roster.Sound.put h hown
  | launch _ => exact Roster.Sound.put (r := (roster s).launch rand) h hown
  | join _ _ => exact Roster.Sound.put h hown
  | finish _ _ => exact Roster.Sound.close h
  | shut _ _ => exact Roster.Sound.close (r := (roster s).enter c 0) h
  | @unwatch i j hfind hp hw =>
      have htarget := targetRoom_of_find hfind
      by_cases hlast : j + 1 = (s.rooms i).game.nbSpectators
      · -- the copy is dropped again
        rw [← hlast, Roster.put_put]
        exact Roster.Sound.clear (r := (roster s).enter c 0) h
      · have hq' := hq.2
        rw [htarget] at hq'
        have hok := (hq' hp j hw).resolve_left hlast
        refine Roster.Sound.clear (r := ((roster s).enter c 0).put i (j + 2) _) ?_
        exact Roster.Sound.put (r := (roster s).enter c 0) h (Sound.addressed h hc hok)
  | leave => exact h

/-- After a guarded disconnection the socket is in no live member entry. -/
private theorem released {s₁ : Server} (hseats : ∀ k, (s.rooms k).game.nbPlayers ≤ 2)
    (hd : (roster s).Distinct) (hc : c < s.nbClients)
    (hg : descriptorGuard.disconnect s c) (h : disconnectUser s c = .ok s₁) (k e : Nat) :
    (roster s₁).entry k e ≠ some (s.clients c).sock := by
  obtain ⟨hm, hall⟩ := hg
  have hfound := inOnly_iff.mp hall
  have hpos : 0 < (s.clients c).sock := (hd c hc).1
  rcases (detached hseats hm h).roster_eq hseats with
    ⟨i, j, hseat, heq⟩ | ⟨i, j, hno, hhit, heq⟩ | ⟨hno, hq, heq⟩
  · rw [heq]
    intro he
    have he' : (if k = i ∧ e = j then some (-1) else entry s k e)
      = some (s.clients c).sock := he
    split at he'
    · have hneg := Option.some.inj he'
      omega
    · rename_i hne
      rcases hfound k e he' with hseat' | ⟨-, hhit⟩
      · -- both seats are the first one found
        obtain ⟨h1, h2, h3, h4⟩ := hseat
        obtain ⟨h5, h6, h7, h8⟩ := hseat'
        have hki : k = i := by
          rcases Nat.lt_trichotomy k i with hlt | heqk | hgt
          · rw [h4 k hlt h6] at h7
            exact nomatch h7
          · exact heqk
          · rw [h8 i hgt h2] at h3
            exact nomatch h3
        subst hki
        rw [h3] at h7
        exact hne ⟨rfl, (Option.some.inj h7).symm⟩
      · -- the spectator loop finds something only when no seat is found
        have hno := (hm k hhit.1 (e - 2) hhit.2.2.2.1 hhit).1
        exact hno.not_found hseat
  · rw [heq]
    intro he
    have he' : (if k = i ∧ e = j + 2 then none else entry s k e)
      = some (s.clients c).sock := he
    split at he'
    · exact nomatch he'
    · rename_i hne
      rcases hfound k e he' with hseat | ⟨h2, hhit'⟩
      · exact hno.not_found hseat
      · -- one entry is found, and it is the one dropped
        obtain ⟨-, -, -, honly⟩ := hm i hhit.1 j hhit.2.2.2.1 hhit
        obtain ⟨rfl, hj⟩ := honly k hhit'.1 (e - 2) hhit'.2.2.2.1 hhit'
        exact hne ⟨rfl, by omega⟩
  · rw [heq]
    intro he
    rcases hfound k e he with hseat | ⟨-, hhit⟩
    · exact hno.not_found hseat
    · exact hq _ _ hhit

theorem sound_reachable (h : Reachable descriptorGuard.meets s) : (roster s).Sound := by
  refine Guard.invariant_with
    (J := fun s => (∀ k, (s.rooms k).game.nbPlayers ≤ 2) ∧ (roster s).Distinct)
    (I := fun s => (roster s).Sound)
    (fun t ht => ⟨seats_reachable t ht, distinct_reachable ht⟩) (fun _ _ h => h)
    ?_ ?_ ?_ ?_ ?_ h
  · intro b k e x he
    have he' : entry (initial b) k e = some x := he
    have hlt : (k : Int) < 0 := (entry_eq_some.mp he').1
    omega
  · intro t b ht
    exact ht
  · intro t csock _ ht _ _ _ _
    rw [roster_accepted]
    exact Roster.Sound.enrol ht
  · intro t c rand q t' out hJ ht hc hq heff
    exact sound_request ht hc hq (transfer hJ.1 heff)
  · intro t c t₁ hJ ht hc hg hd
    obtain ⟨h1, h2, -⟩ := roster_disconnect_clients hd
    rw [roster_removeClient]
    refine Roster.Sound.dismiss ?_ (h1 ▸ hc) ?_
    · -- no entry was written with anything but `-1`
      intro k e x he
      have hconn : (roster t₁).Connected x ↔ (roster t).Connected x := by
        unfold Roster.Connected
        rw [h1, h2]
      rw [hconn]
      have hsound : (roster t₁).entry k e = some x → x = -1 ∨ (roster t).Connected x := by
        rcases (detached hJ.1 hg.1 hd).roster_eq hJ.1 with
          ⟨i, j, -, heq⟩ | ⟨i, j, -, -, heq⟩ | ⟨-, -, heq⟩
        · rw [heq]
          exact Roster.Sound.put ht (Or.inl rfl) k e x
        · rw [heq]
          exact Roster.Sound.clear ht k e x
        · rw [heq]
          exact ht k e x
      exact hsound he
    · intro k e he
      rw [h2] at he
      exact released hJ.1 hJ.2 hc hg hd k e he

/-! ## The result -/

/-- Every frame that a guarded event hands to `send` goes to a connected client. -/
theorem sends_guarded (h : Reachable descriptorGuard.meets s) {e : Event} {out : List Sent}
    (hm : descriptorGuard.meets s e) (hp : Possible s e) (hs : step s e = .ok (s', out)) :
    ToConnected s out := by
  have hsound := sound_reachable h
  have hfounded := founded_reachable h
  have hout := step_cases hs
  cases e with
  | accept csock =>
      obtain ⟨-, -, rfl⟩ := hout
      exact sentTo_nil
  | frame c body rand =>
      obtain ⟨-, ⟨-, -, rfl⟩ | ⟨q, hq, heff⟩⟩ := hout
      · exact sentTo_nil
      · exact sends_connected (s := received s body) hsound hfounded hp.1
          (Guard.meets_frame.mp hm q hq) heff
  | disconnect c =>
      obtain ⟨-, -, -, rfl⟩ := hout
      exact sentTo_nil

/-- So no guarded event ends the process: it has a successor when its processing stays defined. -/
theorem trans_guarded (h : Reachable descriptorGuard.meets s) {e : Event} {out : List Sent}
    (hm : descriptorGuard.meets s e) (hp : Possible s e) :
    trans s e = some (s', out) ↔ step s e = .ok (s', out) :=
  ⟨fun ht => (trans_eq_some ht).2, fun hs => trans_eq hp hs (sends_guarded h hm hp hs)⟩

/-- No dangling socket: every member entry of a live room is vacant or holds a connected
    socket, the next guarded event hands no frame to `send` but for connected clients, and a
    client that disconnects leaves its socket in no entry. -/
structure DescriptorsOpen (s : Server) : Prop where
  sound : (roster s).Sound
  sends : ∀ e s' out, descriptorGuard.meets s e → Possible s e → step s e = .ok (s', out) →
    ToConnected s out
  released : ∀ c s' out, descriptorGuard.disconnect s c →
    trans s (.disconnect c) = some (s', out) →
    ∀ k e, entry s' k e ≠ some (s.clients c).sock

/-- **NO DANGLING SOCKET**, in every state reached under `descriptorGuard`. -/
theorem descriptors_open (h : Reachable descriptorGuard.meets s) : DescriptorsOpen s := by
  refine ⟨sound_reachable h, fun e s' out hm hp hs => sends_guarded h hm hp hs, ?_⟩
  intro c s' out hg htr
  obtain ⟨hp, hs⟩ := trans_eq_some htr
  obtain ⟨s₁, hd, rfl, -⟩ := step_cases hs
  have hgone := released (seats_reachable s h) (distinct_reachable h) hp hg hd
  exact hgone

theorem descriptors_open_visit :
    ∃ s, (s.nbClients, s.nbRooms) = (2, 1) ∧ DescriptorsOpen s := by
  obtain ⟨s, hs, hf⟩ := Guard.reaches (g := descriptorGuard)
    (f := fun s => (s.nbClients, s.nbRooms)) (b := (2, 1)) visit
    (by decide +kernel) (by decide +kernel)
  exact ⟨s, hf, descriptors_open hs⟩

/-- A room is opened in front of the one a spectator watches: the spectator loop then reads the
    wrong room, and the socket stays in the entry after the client is gone. -/
theorem spectator_stays :
    ¬ ∀ s, Reachable Guard.any.meets s → (roster s).Sound := by
  intro h
  obtain ⟨s, hs, hf⟩ := Guard.reaches (g := Guard.any)
    (f := fun s => (entry s 1 2, decide ((roster s).Connected 6)))
    (b := (some 6, false))
    [.accept 4, .accept 5, .accept 6, .frame 0 Request.createRoom.body 7,
      .frame 1 Request.createRoom.body 8, .frame 2 (Request.joinRoom 8 1).body 0,
      .disconnect 2]
    (by decide +kernel) (by decide +kernel)
  obtain ⟨he, hconn⟩ := Prod.mk.inj hf
  rcases h s hs 1 2 6 he with hneg | hyes
  · exact absurd hneg (by decide)
  · exact of_decide_eq_false hconn hyes

end AwaleDescriptor
