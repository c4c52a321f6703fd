import AwaleOnline.AwaleRosterProofs

/-!
# Membership over whole runs

Two properties of the roster that the handlers rely on and do not all restore, each with the
condition under which every run keeps it and a run that breaks it:

* **`single_membership`** — no client is in two member entries: `singleGuard` asks for what
  CREATE_ROOM, JOIN_ROOM and a reconnection do not check, and keeps away from the compaction of
  the spectator entries, which copies the wrong one;
* **`client_room_consistency`** — a client's room id names a live room it is a member of:
  `consistentGuard` asks that a room be closed only when nobody else believes to be in it.
-/

namespace AwaleMembership

open AwaleGame AwaleProtocol AwaleServer AwaleEffect AwaleBounds AwaleRoster

variable {s s' : Server} {c : Nat}

/-! ## Single membership -/

/-- The socket that the removal of a spectator copies. -/
def copied (game : Game) : Int := (game.players (game.nbSpectators - 1)).id

/-- A client that creates or joins a room is in none, a reconnecting one is in no other seat; a
    spectator that leaves is the last one, or the socket copied over its entry stays in no other
    entry; the spectator loops of a disconnection find at most a last entry; and a new
    descriptor is not in two stale entries. -/
def singleGuard : Guard where
  accept s csock := Once s csock
  request s c _ q :=
    match q with
    | .connect name => nameInUse s name = false → ∀ p ∈ findSeat s name,
        InOnly s (s.clients c).sock fun k e => k = p.1 ∧ e = p.2
    | .createRoom => Nowhere s (s.clients c).sock
    | .joinRoom roomId spectate => ∀ i ∈ findRoom s roomId,
        JoinOpen (s.rooms i).game spectate → Nowhere s (s.clients c).sock
    | .leaveRoom => ∀ i ∈ findRoom s (s.clients c).roomId,
        findPlayer (s.rooms i).game (s.clients c).sock = none →
        ∀ j ∈ findSpectator (s.rooms i).game (s.clients c).sock,
          j + 1 = (s.rooms i).game.nbSpectators
            ∨ ((roster s).Connected (copied (s.rooms i).game) →
              InOnly s (copied (s.rooms i).game) fun k e =>
                k = i ∧ (e = j + 2 ∨ e = (s.rooms i).game.nbSpectators + 1))
    | _ => True
  disconnect s c := ScanMeets s c

instance (game : Game) (spectate : UInt8) : Decidable (JoinOpen game spectate) :=
  inferInstanceAs (Decidable (¬ _ ∧ _))

instance (s : Server) (csock : Int) : Decidable (singleGuard.accept s csock) :=
  inferInstanceAs (Decidable (Once s csock))

instance (s : Server) (c : Nat) (rand : UInt32) (q : Request) :
    Decidable (singleGuard.request s c rand q) := by
  refine q.casesOn ?_ ?_ ?_ ?_ ?_ ?_ ?_ <;> intros <;> dsimp only [singleGuard] <;> infer_instance

instance (s : Server) (c : Nat) : Decidable (singleGuard.disconnect s c) :=
  inferInstanceAs (Decidable (ScanMeets s c))

private theorem single_request {rand : UInt32} {q : Request} {r : Roster}
    (h : (roster s).Single) (hq : singleGuard.request s c rand q)
    (ht : Transfer s c rand q r) : r.Single := by
  cases ht with
  | keep => exact h
  | @seat name i j hfree hseat =>
      refine Roster.Single.put h ?_
      intro _ _ _ k e he
      exact inOnly_iff.mp (hq hfree (i, j) hseat) k e he
  | launch _ =>
      refine Roster.Single.put (r := (roster s).launch rand) h ?_
      intro _ _ _ k e he
      exact (inOnly_iff.mp hq k e he).elim
  | join hfind hopen =>
      refine Roster.Single.put h ?_
      intro _ _ _ k e he
      exact (inOnly_iff.mp (hq _ hfind hopen) k e he).elim
  | finish _ _ => exact Roster.Single.close h
  | shut _ _ => exact Roster.Single.close (r := (roster s).enter c 0) h
  | @unwatch i j hfind hp hw =>
      have hj := (findSpectator_eq_some.mp hw).1
      by_cases hlast : j + 1 = (s.rooms i).game.nbSpectators
      · -- the copy is dropped again
        rw [← hlast, Roster.put_put]
        exact Roster.Single.clear (r := (roster s).enter c 0) h
      · have hcopy := (hq i hfind hp j hw).resolve_left hlast
        rw [Roster.put_comm _ _ (by omega)]
        refine Roster.Single.put (r := ((roster s).enter c 0).put i _ none)
          (Roster.Single.clear (r := (roster s).enter c 0) h) ?_
        intro a ha hsock k e he
        have hold : entry s k e = some (copied (s.rooms i).game) := by
          have he' : (if k = i ∧ e = (s.rooms i).game.nbSpectators + 1 then none
            else entry s k e) = some (copied (s.rooms i).game) := he
          split at he'
          · exact nomatch he'
          · exact he'
        obtain ⟨hk, rfl | rfl⟩ := inOnly_iff.mp (hcopy ⟨a, ha, hsock⟩) k e hold
        · exact ⟨hk, rfl⟩
        · -- the last entry has been cleared
          have he' : (if k = i ∧ (s.rooms i).game.nbSpectators + 1
              = (s.rooms i).game.nbSpectators + 1 then none
            else entry s k _) = some (copied (s.rooms i).game) := he
          rw [if_pos ⟨hk, rfl⟩] at he'
          exact nomatch he'
  | leave => exact h

/-- **SINGLE MEMBERSHIP.**  In every state reached under `singleGuard`, the socket of a
    connected client is in at most one member entry of all live rooms together. -/
theorem single_membership (h : Reachable singleGuard.meets s) : (roster s).Single := by
  refine Guard.invariant_with
    (J := fun s => (∀ k, (s.rooms k).game.nbPlayers ≤ 2) ∧ (roster s).Distinct)
    (I := fun s => (roster s).Single)
    (fun t ht => ⟨seats_reachable t ht, distinct_reachable ht⟩) (fun _ _ h => h)
    ?_ ?_ ?_ ?_ ?_ h
  · intro b a ha
    exact absurd ha (Nat.not_lt_zero a)
  · intro t b ht
    exact ht
  · intro t csock _ ht hg _ _ _
    rw [roster_accepted]
    refine Roster.Single.enrol ht ?_
    intro k e k' e' h1 h2
    exact inOnly_iff.mp (inOnly_iff.mp hg k e h1) k' e' h2
  · intro t c rand q t' out hJ ht _ hq heff
    exact single_request ht hq (transfer hJ.1 heff)
  · intro t c t₁ hJ ht _ hg hd
    rw [roster_removeClient]
    refine Roster.Single.dismiss ?_
    rcases (detached hJ.1 hg hd).roster_eq hJ.1 with
      ⟨i, j, -, heq⟩ | ⟨i, j, -, -, heq⟩ | ⟨-, -, heq⟩
    · rw [heq]
      refine Roster.Single.put ht ?_
      -- a vacant seat holds no connected socket
      intro a ha hsock
      have hpos := (hJ.2 a ha).1
      omega
    · rw [heq]
      exact Roster.Single.clear ht
    · rw [heq]
      exact ht

/-- Two players start a game, a spectator comes and goes, and a player disconnects. -/
def visit : List Event :=
  [.accept 4, .accept 5, .accept 6, .frame 0 Request.createRoom.body 7,
    .frame 1 (Request.joinRoom 7 0).body 0, .frame 2 (Request.joinRoom 7 1).body 0,
    .frame 2 Request.leaveRoom.body 0, .disconnect 1]

theorem single_membership_visit :
    ∃ s, (s.nbClients, s.nbRooms) = (2, 1) ∧ (roster s).Single := by
  obtain ⟨s, hs, hf⟩ := Guard.reaches (g := singleGuard)
    (f := fun s => (s.nbClients, s.nbRooms)) (b := (2, 1)) visit
    (by decide +kernel) (by decide +kernel)
  exact ⟨s, hf, single_membership hs⟩

/-- A client that sends CREATE_ROOM twice is a player of two rooms. -/
theorem two_rooms : ¬ ∀ s, Reachable Guard.any.meets s → (roster s).Single := by
  intro h
  obtain ⟨s, hs, hf⟩ := Guard.reaches (g := Guard.any)
    (f := fun s => (s.nbClients, (s.clients 0).sock, entry s 0 0, entry s 1 0))
    (b := (1, 4, some 4, some 4))
    [.accept 4, .frame 0 Request.createRoom.body 7, .frame 0 Request.createRoom.body 8]
    (by decide +kernel) (by decide +kernel)
  simp only [Prod.mk.injEq] at hf
  obtain ⟨hn, hsock, h0, h1⟩ := hf
  have hsame := h s hs 0 (by show 0 < s.nbClients; omega) 0 0 1 0
    (h0.trans (congrArg some hsock.symm)) (h1.trans (congrArg some hsock.symm))
  exact absurd hsame.1 (by decide)

/-! ## Client-to-room consistency -/

/-- A reconnection takes no seat another client of the room sits in; no PLAY ends a game; a
    player leaves only a live room nobody else believes to be in, a spectator only as the last
    one; and the spectator loops of a disconnection drop at most the client's own entry. -/
def consistentGuard : Guard where
  accept _ _ := True
  request s c _ q :=
    match q with
    | .connect name => nameInUse s name = false → ∀ p ∈ findSeat s name, ∀ a < s.nbClients,
        a ≠ c → (s.clients a).roomId = (s.rooms p.1).id →
        ((s.rooms p.1).game.players p.2).id ≠ (s.clients a).sock
    | .play pos => ∀ i ∈ findRoom s (s.clients c).roomId,
        gameIsEnded (playIn s c i pos).1 = .notEnded ∨ (s.rooms i).id = 0
    | .leaveRoom =>
        (∀ j ∈ findPlayer (s.rooms (targetRoom s (s.clients c).roomId)).game (s.clients c).sock,
          findRoom s (s.clients c).roomId ≠ none ∧ ∀ a < s.nbClients, a ≠ c →
            (s.clients a).roomId ≠ 0 → (s.clients a).roomId ≠ (s.clients c).roomId)
        ∧ ∀ i ∈ findRoom s (s.clients c).roomId,
          findPlayer (s.rooms i).game (s.clients c).sock = none →
          ∀ j ∈ findSpectator (s.rooms i).game (s.clients c).sock,
            j + 1 = (s.rooms i).game.nbSpectators
    | _ => True
  disconnect s c := ScanMeets s c
    ∧ ∀ i < s.nbRooms.toNat, ∀ j < (s.rooms i).game.nbSpectators, Hit s c i j →
      ((s.rooms i).game.players (j + 2)).id = (s.clients c).sock

instance (s : Server) (csock : Int) : Decidable (consistentGuard.accept s csock) :=
  inferInstanceAs (Decidable True)

instance (s : Server) (c : Nat) (rand : UInt32) (q : Request) :
    Decidable (consistentGuard.request s c rand q) := by
  refine q.casesOn ?_ ?_ ?_ ?_ ?_ ?_ ?_ <;> intros <;> dsimp only [consistentGuard] <;>
    infer_instance

instance (s : Server) (c : Nat) : Decidable (consistentGuard.disconnect s c) :=
  inferInstanceAs (Decidable (ScanMeets s c
    ∧ ∀ i < s.nbRooms.toNat, ∀ j < (s.rooms i).game.nbSpectators, _ → _))

/-- The entry a client leaves holds no other client's socket. -/
private theorem own_entry {k e : Nat} (hd : (roster s).Distinct) (hc : c < s.nbClients)
    (hown : entry s k e = some (s.clients c).sock) :
    ∀ a < s.nbClients, a ≠ c → entry s k e ≠ some (s.clients a).sock := by
  intro a ha hac heq
  rw [hown] at heq
  exact hac ((hd c hc).2 a ha (Option.some.inj heq)).symm

private theorem consistent_request {rand : UInt32} {q : Request} {r : Roster}
    (h : (roster s).Consistent) (hseats : ∀ k, (s.rooms k).game.nbPlayers ≤ 2)
    (hd : (roster s).Distinct) (hc : c < s.nbClients)
    (hq : consistentGuard.request s c rand q) (ht : Transfer s c rand q r) :
    r.Consistent := by
  cases ht with
  | keep => exact h
  | @seat name i j hfree hseat =>
      obtain ⟨hi, hj, -⟩ := findSeat_some hseat
      refine Roster.Consistent.put_enter h (live_eq_some.mpr ⟨hi, rfl⟩) ?_
      intro a ha hac hroom heq
      exact hq hfree (i, j) hseat a ha hac hroom (entry_eq_some.mp heq).2.2
  | launch h0 =>
      have hnew : (roster s).live (roster s).nbRooms = none := live_of_le (Nat.le_refl _)
      refine Roster.Consistent.put_enter (Roster.Consistent.launch h hnew) (if_pos rfl) ?_
      intro a _ _ _ heq
      have hnone : entry s s.nbRooms.toNat 0 = none := entry_none_of_le (Nat.le_refl _)
      have heq' : entry s s.nbRooms.toNat 0 = some (s.clients a).sock := heq
      rw [hnone] at heq'
      exact nomatch heq'
  | join hfind hopen =>
      obtain ⟨hi, hid, -⟩ := findRoom_eq_some.mp hfind
      refine Roster.Consistent.put_enter h (live_eq_some.mpr ⟨hi, hid⟩) ?_
      intro a _ _ _ heq
      exact addIndex_not_member (hseats _) hopen (entry_eq_some.mp heq).2.1
  | @finish pos i hfind hend =>
      obtain ⟨hi, hid, -⟩ := findRoom_eq_some.mp hfind
      have hi' : i < (roster s).nbRooms := live_iff.mp hi
      refine Roster.Consistent.close h hi' (fun k hk => live_of_le hk) ?_
      intro a _ hroom hlive
      have hzero := (hq i hfind).resolve_left hend
      exact hroom ((live_eq_some.mp hlive).2.symm.trans hzero)
  | @shut i j hi hp =>
      subst hi
      obtain ⟨hfound, hfree⟩ := hq.1 j hp
      have hfind := (targetRoom_cases s (s.clients c).roomId).resolve_right fun h => hfound h.1
      obtain ⟨hi, hid, -⟩ := findRoom_eq_some.mp hfind
      have hi' : targetRoom s (s.clients c).roomId < (roster s).nbRooms := live_iff.mp hi
      refine Roster.Consistent.close (r := (roster s).enter c 0) (Roster.Consistent.leave h)
        hi' (fun k hk => live_of_le hk) ?_
      intro a ha hroom hlive
      by_cases hac : a = c
      · subst hac
        exact hroom (Roster.enter_self (roster s) a 0)
      · rw [Roster.enter_of_ne hac] at hroom hlive
        exact hfree a ha hac hroom ((live_eq_some.mp hlive).2.symm.trans hid)
  | @unwatch i j hfind hp hw =>
      obtain ⟨hi, -, -⟩ := findRoom_eq_some.mp hfind
      obtain ⟨hj, hsock, -⟩ := findSpectator_eq_some.mp hw
      have hlast := hq.2 i hfind hp j hw
      have hown : entry s i (j + 2) = some (s.clients c).sock :=
        entry_eq_some.mpr ⟨hi, Or.inr ⟨by omega, by omega⟩, hsock⟩
      rw [← hlast, Roster.put_put]
      refine Roster.Consistent.put (r := (roster s).enter c 0) (Roster.Consistent.leave h) ?_
      intro a ha hroom _
      by_cases hac : a = c
      · subst hac
        exact absurd (Roster.enter_self _ a 0) hroom
      · exact own_entry hd hc hown a ha hac
  | leave => exact Roster.Consistent.leave h

/-- **CLIENT-TO-ROOM CONSISTENCY.**  In every state reached under `consistentGuard`, a
    connected client with a room id is a member of a live room with that id. -/
theorem client_room_consistency (h : Reachable consistentGuard.meets s) :
    (roster s).Consistent := by
  refine Guard.invariant_with
    (J := fun s => (∀ k, (s.rooms k).game.nbPlayers ≤ 2) ∧ (roster s).Distinct)
    (I := fun s => (roster s).Consistent)
    (fun t ht => ⟨seats_reachable t ht, distinct_reachable ht⟩) (fun _ _ h => h)
    ?_ ?_ ?_ ?_ ?_ h
  · intro b a ha
    exact absurd ha (Nat.not_lt_zero a)
  · intro t b ht
    exact ht
  · intro t csock _ ht _ _ _ _
    rw [roster_accepted]
    exact Roster.Consistent.enrol ht
  · intro t c rand q t' out hJ ht hc hq heff
    exact consistent_request ht hJ.1 hJ.2 hc hq (transfer hJ.1 heff)
  · intro t c t₁ hJ ht hc hg hd
    rw [roster_removeClient]
    refine Roster.Consistent.dismiss ?_
    -- the entry that is cleared is the client's own
    have hclear : ∀ i e (x : Option Int), entry t i e = some (t.clients c).sock →
        (((roster t).enter c 0).put i e x).Consistent := by
      intro i e x hown
      refine Roster.Consistent.put (Roster.Consistent.leave ht) ?_
      intro a ha hroom _
      by_cases hac : a = c
      · subst hac
        exact absurd (Roster.enter_self _ a 0) hroom
      · exact own_entry hJ.2 hc hown a ha hac
    rcases (detached hJ.1 hg.1 hd).roster_eq hJ.1 with
      ⟨i, j, hseat, heq⟩ | ⟨i, j, -, hhit, heq⟩ | ⟨-, -, heq⟩
    · obtain ⟨hj, hsock, -⟩ := findPlayer_eq_some.mp hseat.2.2.1
      have hi : Live t i := live_iff.mpr hseat.1
      rw [heq]
      exact hclear i j _ (entry_eq_some.mpr ⟨hi, Or.inl hj, hsock⟩)
    · have hj := hhit.2.2.2.1
      have hi : Live t i := live_iff.mpr hhit.1
      have hown := hg.2 i hhit.1 j hj hhit
      rw [heq]
      exact hclear i (j + 2) _
        (entry_eq_some.mpr ⟨hi, Or.inr ⟨by omega, by omega⟩, hown⟩)
    · rw [heq]
      exact Roster.Consistent.leave ht

theorem client_room_consistency_visit :
    ∃ s, (s.nbClients, s.nbRooms) = (2, 1) ∧ (roster s).Consistent := by
  obtain ⟨s, hs, hf⟩ := Guard.reaches (g := consistentGuard)
    (f := fun s => (s.nbClients, s.nbRooms)) (b := (2, 1)) visit
    (by decide +kernel) (by decide +kernel)
  exact ⟨s, hf, client_room_consistency hs⟩

/-- After the first of two players left, the other still carries the id of the closed room. -/
theorem room_id_outlives_room :
    ¬ ∀ s, Reachable Guard.any.meets s → (roster s).Consistent := by
  intro h
  obtain ⟨s, hs, hf⟩ := Guard.reaches (g := Guard.any)
    (f := fun s => (s.nbClients, s.nbRooms, (s.clients 1).roomId))
    (b := (2, 0, 7)) (twoLeavers.take 5)
    (by decide +kernel) (by decide +kernel)
  simp only [Prod.mk.injEq] at hf
  obtain ⟨hn, hnb, hroom⟩ := hf
  obtain ⟨k, e, hlive, -⟩ := h s hs 1 (by show 1 < s.nbClients; omega)
    (by show (s.clients 1).roomId ≠ 0; rw [hroom]; decide)
  exact not_live_of_le (Int.le_of_eq hnb) k (live_eq_some.mp hlive).1

end AwaleMembership
