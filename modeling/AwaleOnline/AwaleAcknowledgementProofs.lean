import AwaleOnline.AwaleSystemProofs
import AwaleOnline.AwaleRosterProofs

/-!
# A move is answered

In WAITING_PLAY_ACK a client ignores its keyboard, so only a frame can free it.  PLAYED and
INVALID_PLAY do; GAME_STOPPED does not: `handle_game_stopped` leaves that state out where
`handle_message` has it.

* **`Answered`** — the PLAY of a waiting client, or a frame that frees it, is in flight;
* **`moves_answered`** — so it is in every run in which the server reads every PLAY while the
  sender has a seat in the room the PLAY is for;
* **`move_unanswered`** — and not when the room is closed between the move and its processing.
-/

namespace AwaleAcknowledgement

open AwaleGame AwaleProtocol AwaleServer AwaleEffect AwaleRoster AwaleClient AwaleSystem

variable {sys sys' : System} {s s' : Server} {c i j : Nat} {pos : UInt8} {rand : UInt32}
  {out : List Sent}

/-- A frame that takes a client out of WAITING_PLAY_ACK. -/
def Frees (m : ServerMsg) : Prop := after .waitingPlayAck m ≠ .waitingPlayAck

instance (m : ServerMsg) : Decidable (Frees m) := inferInstanceAs (Decidable (_ ≠ _))

/-- What is in flight for a client that waits. -/
def Awaited (l : Link) : Prop :=
  l.state = .waitingPlayAck → (∃ pos, Request.play pos ∈ l.up) ∨ ∃ m ∈ l.down, Frees m

/-- Every running client that waits for an answer will have one. -/
def Answered (sys : System) : Prop :=
  ∀ c < sys.server.nbClients, (sys.linkOf c).closed = false → Awaited (sys.linkOf c)

/-- Client `c` has a seat in the room its room id names. -/
def Seated (s : Server) (c : Nat) : Prop :=
  ∃ i ∈ findRoom s (s.clients c).roomId, findPlayer (s.rooms i).game (s.clients c).sock ≠ none

instance (s : Server) (c : Nat) : Decidable (Seated s c) :=
  inferInstanceAs (Decidable (∃ i ∈ findRoom s (s.clients c).roomId, _))

def isPlay : Request → Bool
  | .play _ => true
  | _ => false

/-- The server reads PLAYs of seated clients only. -/
def PlaySeated (sys : System) : Move → Prop
  | .serve c _ => (sys.linkOf c).up.head?.any isPlay = true → Seated sys.server c
  | _ => True

instance (sys : System) : ∀ e, Decidable (PlaySeated sys e)
  | .serve c _ =>
      inferInstanceAs (Decidable ((sys.linkOf c).up.head?.any isPlay = true → _))
  | .accept _ => isTrue trivial
  | .input _ _ => isTrue trivial
  | .receive _ => isTrue trivial
  | .hangUp _ => isTrue trivial

/-! ## The answer to a PLAY -/

theorem frees_played (score score' : UInt8) (board : List UInt8) :
    Frees (.played score score' board) := nofun

theorem frees_invalidPlay (text : CString) : Frees (.invalidPlay text) := nofun

/-- **THE MOVER IS ANSWERED**: a valid move is announced to every seat, a rejected one to the
    side `handle_play` computes, which is the mover's. -/
theorem replies_free (hp : findPlayer (s.rooms i).game (s.clients c).sock = some j)
    (hseats : (s.rooms i).game.nbPlayers ≤ 2) (hsock : (s.clients c).sock ≠ -1) :
    ∃ m, ((s.clients c).sock, m) ∈ replies s c i pos ∧ Frees m := by
  obtain ⟨hj, hid, -⟩ := findPlayer_eq_some.mp hp
  obtain ⟨hn, -, -, hsame⟩ := play_frame s c i pos
  by_cases hvalid : (playIn s c i pos).2 = .validPlay
  · refine ⟨writePlayed j (playIn s c i pos).1, ?_, frees_played _ _ _⟩
    have hid' : ((playIn s c i pos).1.players j).id = (s.clients c).sock := (hsame j).1.trans hid
    rw [replies_valid hvalid]
    refine List.mem_append_left _ (List.mem_flatMap.mpr ⟨j, ?_, ?_⟩)
    · exact List.mem_range.mpr (hn.symm ▸ hj)
    · rw [hid']
      exact mem_writeClient.mpr ⟨hsock, rfl⟩
  · refine ⟨.invalidPlay (invalidPlayText (playIn s c i pos).2), ?_, frees_invalidPlay _⟩
    have hside : ((s.rooms i).game.players (sideIn s c i)).id = (s.clients c).sock := by
      refine sideIn_seated.mpr ?_
      have hseat : j = 0 ∨ j = 1 := by omega
      rcases hseat with rfl | rfl
      · exact Or.inl hid
      · exact Or.inr hid
    have hside' : ((playIn s c i pos).1.players (sideIn s c i)).id = (s.clients c).sock :=
      (hsame _).1.trans hside
    rw [replies_rejected hvalid, hside']
    exact mem_writeClient.mpr ⟨hsock, rfl⟩

/-- What the server sends when it reads the PLAY of a seated client. -/
theorem play_answered (hseat : Seated s c) (hseats : ∀ k, (s.rooms k).game.nbPlayers ≤ 2)
    (hsock : (s.clients c).sock ≠ -1) (heff : Effect s c rand (.play pos) s' out) :
    ∃ m ∈ framesTo (s.clients c).sock out, Frees m := by
  obtain ⟨i, hfind, hp⟩ := hseat
  obtain ⟨j, hp⟩ := Option.ne_none_iff_exists'.mp hp
  cases heff with
  | playedNowhere hnone =>
      rw [hnone] at hfind
      exact nomatch hfind
  | @played _ i' hfind' _ =>
      obtain rfl := Option.some.inj (hfind'.symm.trans hfind)
      obtain ⟨m, hm, hfree⟩ := @replies_free s c _ j pos hp (hseats _) hsock
      exact ⟨m, mem_framesTo.mpr hm, hfree⟩
  | @playedLast _ i' hfind' _ =>
      obtain rfl := Option.some.inj (hfind'.symm.trans hfind)
      obtain ⟨m, hm, hfree⟩ := @replies_free s c _ j pos hp (hseats _) hsock
      refine ⟨m, mem_framesTo.mpr ?_, hfree⟩
      exact List.mem_append_left _ (List.mem_append_left _ hm)

/-! ## Every move keeps it -/

/-- Only a PLAY makes a client wait. -/
theorem Awaited.typed {l : Link} {state : State} {sent : List Request} (h : Awaited l)
    (ht : Typed l.state state sent) :
    Awaited { l with state := state, up := l.up ++ sent } := by
  obtain ⟨state₀, up, down, closed⟩ := l
  intro hstate
  have hstate' : state = .waitingPlayAck := hstate
  cases ht with
  | nothing =>
      rcases h hstate with ⟨pos, hpos⟩ | hfree
      · exact Or.inl ⟨pos, List.mem_append_left _ hpos⟩
      · exact Or.inr hfree
  | play => exact Or.inl ⟨_, List.mem_append_right _ List.mem_cons_self⟩
  | choose hmenu =>
      rw [hstate'] at hmenu
      rcases hmenu with hmenu | hmenu | hmenu | hmenu <;> exact nomatch hmenu
  | say hin =>
      rw [hstate'] at hin
      rcases hin with hin | hin | hin | hin <;> exact nomatch hin
  | connect => exact nomatch hstate'
  | create => exact nomatch hstate'
  | join => exact nomatch hstate'
  | spectate => exact nomatch hstate'
  | describe => exact nomatch hstate'
  | leave _ => exact nomatch hstate'

/-- A client that still waits after a frame has read one that does not free it. -/
theorem Awaited.received {l : Link} {m : ServerMsg} {down : List ServerMsg} (h : Awaited l)
    (hdown : l.down = m :: down) :
    Awaited { l with state := after l.state m, down := down } := by
  intro hstate
  have hwait := after_eq_waitingPlayAck hstate
  rcases h hwait with hplay | ⟨m', hm', hfree⟩
  · exact Or.inl hplay
  · rw [hdown] at hm'
    rcases List.mem_cons.mp hm' with rfl | hm'
    · exact absurd (hwait ▸ hstate) hfree
    · exact Or.inr ⟨m', hm', hfree⟩

/-- More frames behind those in flight. -/
theorem Awaited.more {l : Link} (h : Awaited l) (ms : List ServerMsg) :
    Awaited { l with down := l.down ++ ms } := by
  intro hstate
  rcases h hstate with hplay | ⟨m, hm, hfree⟩
  · exact Or.inl hplay
  · exact Or.inr ⟨m, List.mem_append_left _ hm, hfree⟩

/-- The server reads the oldest request: a PLAY goes and its answer comes. -/
theorem Awaited.served {l : Link} {q : Request} {up : List Request} {ms : List ServerMsg}
    (h : Awaited l) (hup : l.up = q :: up) (hplay : isPlay q = true → ∃ m ∈ ms, Frees m) :
    Awaited { l with up := up, down := l.down ++ ms } := by
  intro hstate
  rcases h hstate with ⟨pos, hpos⟩ | ⟨m, hm, hfree⟩
  · rw [hup] at hpos
    rcases List.mem_cons.mp hpos with rfl | hpos
    · obtain ⟨m, hm, hfree⟩ := hplay rfl
      exact Or.inr ⟨m, List.mem_append_right _ hm, hfree⟩
    · exact Or.inl ⟨pos, hpos⟩
  · exact Or.inr ⟨m, List.mem_append_left _ hm, hfree⟩

private theorem answered_setLink {l : Link} (h : Answered sys)
    (hl : l.closed = false → Awaited l) :
    Answered ⟨sys.server, sys.setLink c l⟩ := by
  intro a ha
  rw [linkOf_setLink]
  split
  · exact hl
  · exact h a ha

theorem answered_moved {e : Move} (hseats : ∀ k, (sys.server.rooms k).game.nbPlayers ≤ 2)
    (hsocks : ∀ a < sys.server.nbClients, (sys.server.clients a).sock ≠ -1)
    (h : Answered sys) (hC : PlaySeated sys e) (hm : Moved sys e sys' out) :
    Answered sys' := by
  cases hm with
  | accepted _ _ hnew =>
      intro a ha
      rcases linkOf_accepted hnew ha with ⟨-, heq⟩ | ⟨hlt, heq⟩ <;> rw [heq]
      · exact fun _ hstate => nomatch hstate
      · exact h a hlt
  | exited _ _ => exact answered_setLink h fun hclosed => nomatch hclosed
  | typed hc hopen ht _ => exact answered_setLink h fun _ => (h _ hc hopen).typed ht
  | received hc hopen hdown => exact answered_setLink h fun _ => (h _ hc hopen).received hdown
  | hungUp hc _ _ hd =>
      intro a ha
      obtain ⟨hlt, -, heq⟩ := linkOf_hungUp hc hd ha
      rw [heq]
      exact h _ hlt
  | @served c rand q up s' out hc hup heff =>
      intro a ha
      have ha' : a < sys.server.nbClients := heff.counts ▸ ha
      rw [linkOf_served (fun b => heff.sock b), linkOf_setLink]
      split
      · rename_i hsock
        intro hopen
        rw [hsock]
        refine (h c hc hopen).served hup fun hplay => ?_
        have hseat : Seated sys.server c := hC (by rw [hup]; exact hplay)
        cases q with
        | play pos =>
            exact play_answered (s := AwaleEffect.received sys.server (Request.play pos).body)
              hseat hseats (hsocks c hc) heff
        | _ => exact nomatch hplay
      · intro hopen
        exact (h a ha' hopen).more _

/-- **A MOVE IS ANSWERED.**  In every state of a run in which the server reads every PLAY while
    its sender is seated, a client in WAITING_PLAY_ACK has its PLAY or a frame that frees it in
    flight. -/
theorem moves_answered (h : Reachable PlaySeated sys) : Answered sys := by
  refine invariant
    (J := fun sys => (∀ k, (sys.server.rooms k).game.nbPlayers ≤ 2)
      ∧ ∀ a < sys.server.nbClients, (sys.server.clients a).sock ≠ -1) ?_ ?_ ?_ h
  · intro sys hr
    have hserver := server_reachable hr
    exact ⟨seats_reachable sys.server hserver, fun a ha => connected_reachable hserver ha⟩
  · rintro sys ⟨⟨b, hserver⟩, -⟩ a ha
    rw [hserver] at ha
    exact absurd ha (Nat.not_lt_zero a)
  · rintro sys e sys' out ⟨hseats, hsocks⟩ hI hC hm
    exact answered_moved hseats hsocks hI hC hm

/-- Two clients enter their names, meet in a room, and the first one plays. -/
def firstMove : List Move :=
  [.accept 4, .accept 5, .input 0 (literal "a"), .input 1 (literal "b"), .serve 0 0,
    .serve 1 0, .receive 0, .receive 1, .input 0 (literal "1"), .serve 0 7, .receive 0,
    .input 1 (literal "2"), .input 1 (literal "7"), .serve 1 0, .receive 1, .receive 1,
    .receive 0, .input 0 (literal "1")]

theorem moves_answered_first_move :
    ∃ sys, (sys.linkOf 0).state = .waitingPlayAck ∧ Answered sys := by
  obtain ⟨sys, hr, hf⟩ := reaches (C := PlaySeated) (f := fun sys => (sys.linkOf 0).state)
    (b := .waitingPlayAck) firstMove (by decide +kernel) (by decide +kernel)
  exact ⟨sys, hf, moves_answered hr⟩

/-- The opponent leaves while the PLAY is in flight.  The first client reads GAME_STOPPED, which
    does not free it, and its PLAY finds no room. -/
theorem move_unanswered :
    ∃ sys : System, Reachable GuardedRun.Always sys
      ∧ sys.linkOf 0 = ⟨.waitingPlayAck, [], [], false⟩ ∧ ¬ Answered sys := by
  obtain ⟨sys, hr, hf⟩ := reaches (C := fun _ _ => True)
    (f := fun sys => (sys.linkOf 0, sys.server.nbClients))
    (b := (⟨.waitingPlayAck, [], [], false⟩, 2))
    (firstMove ++ [.input 1 (literal "/leave"), .serve 1 0, .receive 0, .serve 0 0])
    (by decide +kernel) (by decide +kernel)
  obtain ⟨hlink, hn⟩ := Prod.mk.inj hf
  refine ⟨sys, hr, hlink, fun h => ?_⟩
  have hawaited := h 0 (by omega)
  rw [hlink] at hawaited
  rcases hawaited rfl rfl with ⟨pos, hpos⟩ | ⟨m, hm, -⟩
  · exact absurd hpos List.not_mem_nil
  · exact absurd hm List.not_mem_nil

end AwaleAcknowledgement
