import AwaleOnline.AwaleTerminalProofs

/-!
# The programs together

The server, and at the other end of every descriptor a client that runs its main loop: what is
typed waits for `fgets`, what is received waits behind what is typed, and both go through one
buffer.

* **`step_network`** — a step of the programs is a step of the network, or changes nothing in it;
* **`refines`** — so whatever holds in every run of the system holds in every run of the programs;
* **`same_programs`** — while no input ends, the programs reach just what the system reaches with
  lines that can be typed.
-/

namespace AwalePrograms

open AwaleProtocol AwaleClient AwaleCodec ByteBuffer
open AwaleServer (Server Sent)
open AwaleKeyboard (Typable typedLine)
open AwaleSystem (System Move)
open AwaleTerminal (Terminal Keyboard Event Output getLine lineIn readKeyboard readSocket)
open AwaleWire (Network Wire Call wholeCall readClient readServer Carries Lifted Whole)

/-- The clients are found by the descriptor of the server's end. -/
structure Programs where
  server : Server
  client : Int → Terminal

def Programs.clientOf (p : Programs) (c : Nat) : Terminal := p.client (p.server.clients c).sock

def Programs.setClient (p : Programs) (c : Nat) (t : Terminal) : Int → Terminal :=
  Function.update p.client (p.server.clients c).sock t

/-- What the programs look like from the network. -/
def Programs.network (p : Programs) : Network := ⟨p.server, fun sock => (p.client sock).wire⟩

/-- Somebody starts a client, the server reads from one, or something happens at a client. -/
inductive Step where
  | start (csock : Int) (buffer : ByteBuffer)
  | read (c : Nat) (k : Call) (rand : UInt32) (buf : ByteBuffer)
  | client (c : Nat) (e : Event)

/-- Bytes arrive when the server has sent them, and it closes no connection that is in use. -/
def own : Event → Bool
  | .arrive _ => false
  | .hangUp => false
  | _ => true

/-- A client that has just started. -/
def started (buffer : ByteBuffer) : Terminal := ⟨.fresh, ⟨[], [], false⟩, buffer, false⟩

def step (p : Programs) : Step → Option (Programs × List Sent)
  | .start csock buffer => (AwaleServer.trans p.server (.accept csock)).map fun r =>
      (⟨r.1, Function.update p.client csock (started buffer)⟩, [])
  | .read c k rand buf => (readClient p.network c k rand buf).map fun r =>
      (⟨r.1.server, fun sock => { p.client sock with wire := r.1.wire sock }⟩, r.2)
  | .client c e =>
      if c < p.server.nbClients ∧ own e = true then
        (AwaleTerminal.step (p.clientOf c) e).map fun r =>
          (⟨p.server, p.setClient c r.1⟩, [])
      else none

def Initial (p : Programs) : Prop :=
  AwaleServer.Initial p.server ∧ ∀ sock, AwaleTerminal.Initial (p.client sock)

/-- The step of the network that a step of the programs makes, if any. -/
def netStep (p : Programs) : Step → Option AwaleWire.Step
  | .start csock _ => some (.accept csock)
  | .read c k rand buf => some (.read c k rand buf)
  | .client c (.round k recvs scratch _) =>
      let t := p.clientOf c
      if t.keyboard.fd ≠ [] ∨ t.keyboard.ended = true then
        (getLine t.keyboard k).map fun got =>
          .input c (lineIn t.buffer got.1) scratch
      else some (.receive c recvs t.buffer)
  | .client _ _ => none

/-- A condition on the steps of the network, as one on those of the programs. -/
def Under (C : Network → AwaleWire.Step → Prop) (p : Programs) (e : Step) : Prop :=
  ∀ e' ∈ netStep p e, C p.network e'

abbrev Reachable (C : Programs → Step → Prop) : Programs → Prop :=
  GuardedRun.Reachable step C Initial

variable {p p' : Programs} {net : Network} {e : Step} {e' : AwaleWire.Step} {c k : Nat}
  {out : List Sent} {t t' : Terminal} {recvs : Call} {scratch : ByteBuffer} {fails : Bool}
  {o : Output} {stored : List UInt8} {kb : Keyboard}

@[simp] theorem setClient_self (p : Programs) (c : Nat) (t : Terminal) :
    p.setClient c t (p.server.clients c).sock = t := Function.update_self _ _ _

theorem setClient_of_ne {sock : Int} (h : sock ≠ (p.server.clients c).sock) (t : Terminal) :
    p.setClient c t sock = p.client sock := Function.update_of_ne h _ _

/-! ## A step is a step of the network -/

theorem dispatch_silent (state : State) (h : HandlerCall) : (dispatch state h).2 = [] := by
  cases state <;> cases h <;>
    simp only [dispatch, handleConnectionSuccessful, handleConnectionRefused,
      handleRoomCreationSuccessful, handleRoomCreationRefused, handleJoinRoomSuccessful,
      handleJoinRoomRefused, handlePlayed, handleGameStart, handleGameStopped,
      handleInvalidPlay, setCurrentState] <;>
    split_ifs <;> rfl

/-- A client that sends nothing. -/
theorem next_nil (w : Wire) (buf : ByteBuffer) (state : State) :
    w.next false buf state [] = { w with state := state } := by
  show Wire.mk state (w.up ++ []) w.down w.closed = _
  rw [List.append_nil]

theorem readSocket_wire (hup : t.hungUp = false) (recvs : Call) (scratch : ByteBuffer) :
    (readSocket t recvs scratch fails).map (fun r => r.1.wire) = readServer t.wire recvs t.buffer := by
  simp only [readSocket, readServer, hup, Bool.false_eq_true, false_and, if_false]
  cases AwaleWire.call .client t.buffer false recvs t.wire.down with
  | none => rfl
  | some got =>
      simp only [Option.bind_some]
      split
      · rfl
      split
      · rfl
      cases serverClientProtocolRead
          (AwaleReceiving.contents (AwaleReceiving.filled .client t.buffer got.head got.body)) with
      | none => rfl
      | some h =>
          cases h with
          | none =>
              simp only [Option.map_some, Option.elim_none]
              rw [next_nil]
          | some handler =>
              simp only [Option.map_some, Option.elim_some, dispatch_silent]
              rw [next_nil, next_nil]

theorem readKeyboard_wire (hup : t.hungUp = false)
    (hgot : getLine t.keyboard k = some (stored, kb)) (hw : net.wireOf c = t.wire)
    (hc : c < net.server.nbClients) (hopen : t.wire.closed = false) (scratch : ByteBuffer) :
    (readKeyboard t k scratch fails).map (fun r => ((⟨net.server, net.setWire c r.1.wire⟩ : Network),
        ([] : List Sent)))
      = AwaleWire.step net
          (.input c (lineIn t.buffer stored) scratch) := by
  simp only [readKeyboard, AwaleWire.step, hgot, Option.bind_some, hw, hup, Bool.false_and]
  rw [if_pos ⟨hc, hopen⟩]
  cases handleUserInput t.wire.state (lineIn t.buffer stored) with
  | exit => rfl
  | overrun => rfl
  | next state sent => rfl

/-- One client changes, as its wire does. -/
theorem wires_update (client : Int → Terminal) (x : Int) (t : Terminal) :
    (fun sock => (Function.update client x t sock).wire)
      = Function.update (fun sock => (client sock).wire) x t.wire :=
  Function.comp_update Terminal.wire client x t

theorem network_set (p : Programs) (c : Nat) (t : Terminal) :
    (⟨p.server, p.setClient c t⟩ : Programs).network
      = ⟨p.server, p.network.setWire c t.wire⟩ :=
  congrArg (Network.mk p.server) (wires_update p.client _ t)

/-- A call in front of nothing blocks. -/
theorem call_blocks (side : AwaleStream.Side) (buf : ByteBuffer) (k : Call) :
    AwaleWire.call side buf false k [] = none := by
  have hrecv : AwaleWire.recv false 2 k.head [] = none := by
    refine if_neg ?_
    rintro ⟨-, hzero, hblocks⟩
    rcases hblocks (Nat.eq_zero_of_le_zero hzero) with h | h
    · cases h
    · cases h.2
  rw [AwaleWire.call, hrecv]
  rfl

theorem round_network (hup : (p.clientOf c).hungUp = false) (hc : c < p.server.nbClients)
    (he : netStep p (.client c (.round k recvs scratch fails)) = some e') :
    (AwaleTerminal.round (p.clientOf c) k recvs scratch fails).map
        (fun r => ((⟨p.server, p.network.setWire c r.1.wire⟩ : Network), ([] : List Sent)))
      = AwaleWire.step p.network e' := by
  have hwire : p.network.wireOf c = (p.clientOf c).wire := rfl
  simp only [netStep] at he
  simp only [AwaleTerminal.round]
  by_cases hopen : (p.clientOf c).wire.closed = true
  · -- neither the program nor the network goes on
    rw [if_pos hopen]
    have hclosed : ¬ (c < p.network.server.nbClients ∧ (p.network.wireOf c).closed = false) := by
      rw [hwire, hopen]
      exact fun h => by cases h.2
    split at he
    · obtain ⟨got, -, rfl⟩ := Option.map_eq_some_iff.mp he
      simp only [AwaleWire.step, if_neg hclosed]
      rfl
    · obtain rfl := Option.some.inj he
      simp only [AwaleWire.step, if_neg hclosed]
      rfl
  · have hopen' : (p.clientOf c).wire.closed = false := by simpa using hopen
    rw [if_neg hopen]
    split at he
    · rename_i hready
      obtain ⟨got, hgot, rfl⟩ := Option.map_eq_some_iff.mp he
      rw [if_pos hready]
      exact readKeyboard_wire hup hgot hwire hc hopen' scratch
    · rename_i hready
      obtain rfl := Option.some.inj he
      have hopened : c < p.network.server.nbClients ∧ (p.network.wireOf c).closed = false :=
        ⟨hc, hopen'⟩
      rw [if_neg hready]
      simp only [AwaleWire.step, if_pos hopened]
      rw [hwire, ← readSocket_wire hup recvs scratch, Option.map_map]
      split
      · rfl
      · rename_i hidle
        have hdown : (p.clientOf c).wire.down = [] := by simpa using (not_or.mp hidle).1
        rw [readSocket, hdown, hup, call_blocks]
        rfl

/-- **A STEP OF THE PROGRAMS** is the step of the network. -/
theorem step_network (hup : ∀ sock, (p.client sock).hungUp = false)
    (he : netStep p e = some e') :
    (step p e).map (fun r => (r.1.network, r.2)) = AwaleWire.step p.network e' := by
  cases e with
  | start csock buffer =>
      obtain rfl := Option.some.inj he
      have hwires := wires_update p.client csock (started buffer)
      simp only [step, AwaleWire.step, Option.map_map]
      refine congrArg (fun f => Option.map f (AwaleServer.trans p.server (.accept csock))) ?_
      funext r
      exact congrArg (fun wires => ((⟨r.1, wires⟩ : Network), ([] : List Sent))) hwires
  | read c k rand buf =>
      obtain rfl := Option.some.inj he
      simp only [step, AwaleWire.step, Option.map_map]
      exact Option.map_id'
  | client c ev =>
      cases ev with
      | round k recvs scratch fails =>
          by_cases hc : c < p.server.nbClients
          · rw [← round_network (hup _) hc he]
            simp only [step]
            rw [if_pos ⟨hc, rfl⟩, Option.map_map]
            refine congrArg (fun f => Option.map f _) ?_
            funext r
            exact congrArg (fun net => (net, ([] : List Sent))) (network_set p c r.1)
          · have hclosed : ∀ w : Wire, ¬ (c < p.network.server.nbClients ∧ w.closed = false) :=
              fun _ h => hc h.1
            have hnone : step p (.client c (.round k recvs scratch fails)) = none :=
              if_neg fun h => hc h.1
            rw [hnone]
            simp only [netStep] at he
            split at he
            · obtain ⟨got, -, rfl⟩ := Option.map_eq_some_iff.mp he
              simp only [AwaleWire.step, if_neg (hclosed _)]
              rfl
            · obtain rfl := Option.some.inj he
              simp only [AwaleWire.step, if_neg (hclosed _)]
              rfl
      | typed bytes => cases he
      | endInput => cases he
      | arrive bytes => cases he
      | hangUp => cases he

theorem client_cases {ev : Event} (hs : step p (.client c ev) = some (p', out)) :
    c < p.server.nbClients ∧ own ev = true ∧ ∃ t o,
      AwaleTerminal.step (p.clientOf c) ev = some (t, o)
        ∧ p' = ⟨p.server, p.setClient c t⟩ ∧ out = [] := by
  simp only [step] at hs
  split at hs
  · rename_i hc
    obtain ⟨r, hr, heq⟩ := Option.map_eq_some_iff.mp hs
    obtain ⟨rfl, rfl⟩ := Prod.mk.inj heq
    exact ⟨hc.1, hc.2, r.1, r.2, hr, rfl, rfl⟩
  · cases hs

/-- What the network does not see. -/
theorem step_silent (he : netStep p e = none) (hs : step p e = some (p', out)) :
    p'.network = p.network := by
  cases e with
  | start csock buffer => cases he
  | read c k rand buf => cases he
  | client c ev =>
      obtain ⟨-, hown, t, o, ht, rfl, rfl⟩ := client_cases hs
      have hsame : t.wire = (p.clientOf c).wire → p.network.setWire c t.wire = p.network.wire := by
        intro hw
        rw [hw]
        exact Function.update_eq_self _ _
      rw [network_set]
      refine congrArg (Network.mk p.server) (hsame ?_)
      cases ev with
      | typed bytes =>
          simp only [AwaleTerminal.step] at ht
          split at ht
          · cases ht
          · obtain ⟨rfl, -⟩ := Prod.mk.inj (Option.some.inj ht)
            rfl
      | endInput =>
          obtain ⟨rfl, -⟩ := Prod.mk.inj (Option.some.inj ht)
          rfl
      | arrive bytes => cases hown
      | hangUp => cases hown
      | round k recvs scratch fails =>
          -- `fgets` blocks
          simp only [netStep] at he
          split at he
          · rename_i hready
            have hround : AwaleTerminal.round (p.clientOf c) k recvs scratch fails
              = some (t, o) := ht
            simp only [AwaleTerminal.round, if_pos hready, readKeyboard,
              Option.map_eq_none_iff.mp he] at hround
            split at hround <;> cases hround
          · cases he

/-- A round leaves the server's end of the connection alone. -/
theorem client_hungUp {ev : Event} (hown : own ev = true)
    (h : AwaleTerminal.step t ev = some (t', o)) : t'.hungUp = t.hungUp := by
  cases ev with
  | typed bytes =>
      simp only [AwaleTerminal.step] at h
      split at h
      · cases h
      · obtain ⟨rfl, -⟩ := Prod.mk.inj (Option.some.inj h)
        rfl
  | endInput =>
      obtain ⟨rfl, -⟩ := Prod.mk.inj (Option.some.inj h)
      rfl
  | arrive bytes => cases hown
  | hangUp => cases hown
  | round k recvs scratch fails =>
      obtain ⟨hup, -⟩ := AwaleTerminal.round_cases h
      exact hup

/-- What every client of the programs satisfies, if one that starts does and its own steps keep
    it. -/
theorem step_clients {I : Terminal → Prop} (hstart : ∀ buffer, I (started buffer))
    (hwire : ∀ t w, I t → I { t with wire := w })
    (hclient : ∀ c ev t o, e = .client c ev → own ev = true → I (p.clientOf c) →
      AwaleTerminal.step (p.clientOf c) ev = some (t, o) → I t)
    (h : ∀ sock, I (p.client sock)) (hs : step p e = some (p', out)) :
    ∀ sock, I (p'.client sock) := by
  have hupdate : ∀ {x : Int} {t : Terminal}, I t →
      ∀ sock, I (Function.update p.client x t sock) := by
    intro x t ht sock
    by_cases hsock : sock = x
    · rw [hsock, Function.update_self]
      exact ht
    · rw [Function.update_of_ne hsock]
      exact h sock
  cases e with
  | start csock buffer =>
      obtain ⟨r, -, heq⟩ := Option.map_eq_some_iff.mp hs
      obtain ⟨rfl, -⟩ := Prod.mk.inj heq
      exact hupdate (hstart buffer)
  | read c k rand buf =>
      obtain ⟨r, -, heq⟩ := Option.map_eq_some_iff.mp hs
      obtain ⟨rfl, -⟩ := Prod.mk.inj heq
      exact fun sock => hwire _ _ (h sock)
  | client c ev =>
      obtain ⟨-, hown, t, o, ht, rfl, -⟩ := client_cases hs
      exact hupdate (hclient c ev t o rfl hown (h _) ht)

/-! ## Runs -/

theorem hungUp_step (h : ∀ sock, (p.client sock).hungUp = false)
    (hs : step p e = some (p', out)) : ∀ sock, (p'.client sock).hungUp = false := by
  refine step_clients (I := fun t => t.hungUp = false) (fun _ => rfl) (fun _ _ ht => ht) ?_ h hs
  intro c ev t o _ hown ht hstep
  exact (client_hungUp hown hstep).trans ht

/-- **THE PROGRAMS REFINE THE SYSTEM**, whatever is typed and whenever it ends. -/
theorem refines {C : System → Move → Prop} (h : Reachable (Under (Lifted C)) p) :
    ∃ sys, AwaleSystem.Reachable C sys ∧ Carries p.network sys := by
  have hsim : ∃ net, AwaleWire.Reachable (Lifted C) net
      ∧ (p.network = net ∧ ∀ sock, (p.client sock).hungUp = false) := by
    refine h.simulate (R := fun p net => p.network = net
      ∧ ∀ sock, (p.client sock).hungUp = false) ?_ ?_
    · rintro p ⟨hserver, hclients⟩
      refine ⟨p.network, ⟨hserver, ?_⟩, rfl, fun sock => (hclients sock).2.2⟩
      funext sock
      exact (hclients sock).1
    · rintro p net e p' out - - ⟨rfl, hup⟩ hC hs
      have hup' := hungUp_step hup hs
      cases he : netStep p e with
      | none => exact Or.inl ⟨step_silent he hs, hup'⟩
      | some e' =>
          have hstep := step_network hup he
          rw [hs] at hstep
          exact Or.inr ⟨p'.network, e', out, hC e' he, hstep.symm, rfl, hup'⟩
  obtain ⟨net, hnet, rfl, -⟩ := hsim
  exact AwaleWire.refines hnet

/-- Every `recv` is whole, and nobody ends the input of a client. -/
def Open (p : Programs) (e : Step) : Prop :=
  Under Whole p e ∧ ∀ c, e ≠ .client c .endInput

/-- The lines that a client handles can be typed. -/
def TypedLines (_ : System) : Move → Prop
  | .input _ line => Typable line
  | _ => True

/-- While no input ends, a line that is handled was typed. -/
theorem open_typed (hp : ∀ sock, (p.client sock).keyboard.ended = false) (he : Open p e) :
    Under (Lifted TypedLines) p e := by
  refine fun e' he' => ⟨he.1 e' he', fun sys _ => ?_⟩
  cases e with
  | start csock buffer =>
      obtain rfl := Option.some.inj he'
      trivial
  | read c k rand buf =>
      obtain rfl := Option.some.inj he'
      simp only [AwaleWire.moveOf]
      split <;> trivial
  | client c ev =>
      cases ev with
      | round k recvs scratch fails =>
          simp only [netStep] at he'
          split at he'
          · obtain ⟨got, hgot, rfl⟩ := Option.map_eq_some_iff.mp he'
            obtain ⟨hstored, -, -, henough⟩ := AwaleTerminal.getLine_eq_some hgot
            have hne : got.1 ≠ [] := by
              intro hnil
              rcases henough (hp _) with h | h <;> rw [hnil] at h <;> cases h
            rw [hstored] at hne
            refine ⟨_, ?_, (hstored ▸ AwaleTerminal.lineIn_typed hne).symm⟩
            intro hempty
            exact hne (by rw [hempty]; rfl)
          · obtain rfl := Option.some.inj he'
            trivial
      | typed bytes => cases he'
      | endInput => cases he'
      | arrive bytes => cases he'
      | hangUp => cases he'

theorem ended_step (hopen : ∀ c, e ≠ .client c .endInput)
    (h : ∀ sock, (p.client sock).keyboard.ended = false) (hs : step p e = some (p', out)) :
    ∀ sock, (p'.client sock).keyboard.ended = false := by
  refine step_clients (I := fun t => t.keyboard.ended = false) (fun _ => rfl) (fun _ _ ht => ht)
    ?_ h hs
  intro c ev t o he hown ht hstep
  cases ev with
  | typed bytes =>
      simp only [AwaleTerminal.step] at hstep
      split at hstep
      · cases hstep
      · obtain ⟨rfl, -⟩ := Prod.mk.inj (Option.some.inj hstep)
        exact ht
  | endInput => exact absurd he (hopen c)
  | arrive bytes => cases hown
  | hangUp => cases hown
  | round k recvs scratch fails =>
      obtain ⟨-, ⟨-, stored, hgot, -⟩ | ⟨-, hkb, -⟩⟩ := AwaleTerminal.round_cases hstep
      · obtain ⟨-, -, hended, -⟩ := AwaleTerminal.getLine_eq_some hgot
        exact hended.trans ht
      · rw [hkb]
        exact ht

theorem open_reachable (h : Reachable Open p) : Reachable (Under (Lifted TypedLines)) p
    ∧ ∀ sock, (p.client sock).keyboard.ended = false := by
  induction h with
  | start hi =>
      refine ⟨.start hi, fun sock => ?_⟩
      rw [(hi.2 sock).2.1]
  | next _ hopen hs ih =>
      exact ⟨.next ih.1 (open_typed ih.2 hopen) hs, ended_step hopen.2 ih.2 hs⟩

/-! ## Every run of the system -/

/-- A client that has handled all that was typed. -/
def Idle (t : Terminal) : Prop := t.keyboard = ⟨[], [], false⟩ ∧ t.hungUp = false

/-- The programs carry the system, and nothing that was typed is left. -/
structure Realises (p : Programs) (sys : System) : Prop where
  reached : Reachable Open p
  carries : Carries p.network sys
  idle : ∀ sock, Idle (p.client sock)

variable {sys sys' : System}

/-- A move that is a step of the network is made by the programs. -/
theorem realise_step (hp : Reachable Open p) (hcarries : Carries p.network sys)
    (hup : ∀ sock, (p.client sock).hungUp = false) (hr : AwaleSystem.Reachable TypedLines sys)
    (hwhole : Whole p.network e') (he : netStep p e = some e')
    (hopen : ∀ c, e ≠ .client c .endInput)
    (hidle : ∀ p' out, step p e = some (p', out) → ∀ sock, Idle (p'.client sock))
    (hmove : AwaleSystem.move sys (AwaleWire.moveOf p.network e') = some (sys', out)) :
    ∃ p', Realises p' sys' := by
  have hrel := AwaleWire.step_related hr hcarries hwhole
  rw [hmove, ← step_network hup he] at hrel
  generalize hstep : step p e = r at hrel
  cases r with
  | none => cases hrel
  | some r =>
      cases hrel with
      | some hmatch =>
          refine ⟨r.1, .next hp ⟨?_, hopen⟩ hstep, hmatch.2, hidle r.1 r.2 hstep⟩
          intro e'' he''
          obtain rfl := Option.some.inj (he.symm.trans he'')
          exact hwhole

theorem not_ready (h : Idle t) : ¬ (t.keyboard.fd ≠ [] ∨ t.keyboard.ended = true) := by
  rw [h.1]
  rintro (hfd | hended)
  · exact hfd rfl
  · cases hended

/-- A client that reads from its socket stays idle. -/
theorem idle_round (h : Idle t)
    (hs : AwaleTerminal.step t (.round k recvs scratch fails) = some (t', o)) : Idle t' := by
  obtain ⟨hup, ⟨hready, -⟩ | ⟨-, hkb, -⟩⟩ := AwaleTerminal.round_cases hs
  · exact absurd hready (not_ready h)
  · exact ⟨hkb.trans h.1, hup.trans h.2⟩

section Line

variable {line : CString} {bytes : List UInt8}

/-- What one types for a line: `fgets` takes it whole. -/
theorem keys_of_line (h : Typable line) : ∃ bytes : List UInt8, bytes ≠ []
    ∧ AwaleKeyboard.fgets (bufSize - 1 - 1) bytes = bytes ∧ AwaleTerminal.Enough bytes
    ∧ typedLine bytes = line := by
  obtain ⟨hlen, hnone⟩ := AwaleKeyboard.typable_iff.mp h
  have hwhole := AwaleKeyboard.fgets_fgets (bufSize - 1 - 1) (line.chars ++ [10])
  have henough := AwaleKeyboard.fgets_enough (bufSize - 1 - 1) (l := line.chars ++ [10]) (by simp)
  refine ⟨_, ?_, hwhole, henough, ?_⟩
  · intro hnil
    rcases henough with hmem | hlong
    · rw [hnil] at hmem
      cases hmem
    · rw [hnil] at hlong
      cases hlong
  · rw [typedLine, hwhole]
    exact AwaleKeyboard.typedLine_chars hlen hnone

theorem getLine_keys (hwhole : AwaleKeyboard.fgets (bufSize - 1 - 1) bytes = bytes)
    (henough : AwaleTerminal.Enough bytes) :
    getLine ⟨[], bytes, false⟩ bytes.length = some (bytes, ⟨[], [], false⟩) := by
  have hnone : ¬ AwaleTerminal.Enough (AwaleKeyboard.fgets (bufSize - 1 - 1) []) := by decide
  simp only [getLine, List.nil_append, List.take_length, hwhole, List.drop_length]
  exact if_pos ⟨Nat.le_refl _, fun h => absurd h hnone, Or.inl henough⟩

/-- The programs after somebody has typed at a client. -/
def typedAt (p : Programs) (c : Nat) (bytes : List UInt8) : Programs :=
  ⟨p.server, p.setClient c { p.clientOf c with keyboard := ⟨[], bytes, false⟩ }⟩

theorem typedAt_self (p : Programs) (c : Nat) (bytes : List UInt8) :
    (typedAt p c bytes).clientOf c = { p.clientOf c with keyboard := ⟨[], bytes, false⟩ } :=
  setClient_self p c _

theorem step_typedAt (hidle : Idle (p.clientOf c)) (hc : c < p.server.nbClients)
    (bytes : List UInt8) :
    step p (.client c (.typed bytes)) = some (typedAt p c bytes, []) := by
  have htyped : AwaleTerminal.step (p.clientOf c) (.typed bytes)
      = some ({ p.clientOf c with keyboard := ⟨[], bytes, false⟩ }, .nothing) := by
    simp only [AwaleTerminal.step]
    rw [hidle.1]
    rfl
  simp only [step]
  rw [if_pos ⟨hc, rfl⟩, htyped]
  rfl

/-- A line is typed, and handled in the next round. -/
theorem Realises.input (h : Realises p sys) (hr : AwaleSystem.Reachable TypedLines sys)
    (hc : c < p.server.nbClients) (hline : Typable line)
    (hmove : AwaleSystem.move sys (.input c line) = some (sys', out)) :
    ∃ p', Realises p' sys' := by
  obtain ⟨bytes, hne, hwhole, henough, rfl⟩ := keys_of_line hline
  have hs₁ := step_typedAt (h.idle _) hc bytes
  have hself := typedAt_self p c bytes
  have hgot : getLine ((typedAt p c bytes).clientOf c).keyboard bytes.length
      = some (bytes, ⟨[], [], false⟩) := by
    rw [hself]
    exact getLine_keys hwhole henough
  have hready : ((typedAt p c bytes).clientOf c).keyboard.fd ≠ []
      ∨ ((typedAt p c bytes).clientOf c).keyboard.ended = true := by
    rw [hself]
    exact Or.inl hne
  have hread : lineIn ((typedAt p c bytes).clientOf c).buffer bytes = typedLine bytes := by
    have hfull : AwaleKeyboard.fgets (bufSize - 1 - 1) bytes ≠ [] := by
      rw [hwhole]
      exact hne
    have htyped := @AwaleTerminal.lineIn_typed ((typedAt p c bytes).clientOf c).buffer bytes hfull
    rwa [hwhole] at htyped
  have hup₁ : ∀ sock, ((typedAt p c bytes).client sock).hungUp = false :=
    hungUp_step (fun sock => (h.idle sock).2) hs₁
  have hnet : (typedAt p c bytes).network = p.network := step_silent rfl hs₁
  have hround : netStep (typedAt p c bytes) (.client c (.round bytes.length ⟨0, 0⟩ (fun _ => 0) false))
      = some (.input c (typedLine bytes) fun _ => 0) := by
    simp only [netStep]
    rw [if_pos hready, hgot, Option.map_some, hread]
  have hopen₁ : Open p (.client c (.typed bytes)) :=
    ⟨fun e' he' => (by cases he'), fun c h => (by cases h)⟩
  have hwhole₁ : Whole (typedAt p c bytes).network (.input c (typedLine bytes) fun _ => 0) :=
    trivial
  refine realise_step (.next h.reached hopen₁ hs₁) (hnet ▸ h.carries) hup₁ hr hwhole₁ hround
    (fun c h => by cases h) ?_ hmove
  intro p' out' hs sock
  obtain ⟨-, -, t', o, ht, rfl, -⟩ := client_cases hs
  by_cases hsock : sock = (p.server.clients c).sock
  · show Idle ((typedAt p c bytes).setClient c t' sock)
    rw [hsock]
    refine (setClient_self (typedAt p c bytes) c t').symm ▸ ?_
    obtain ⟨hup', ⟨-, stored, hgot', -⟩ | ⟨hnot, -⟩⟩ := AwaleTerminal.round_cases ht
    · have hkb := (Prod.mk.inj (Option.some.inj (hgot'.symm.trans hgot))).2
      exact ⟨hkb, hup'.trans (hup₁ _)⟩
    · exact absurd hready hnot
  · have hsame : (typedAt p c bytes).setClient c t' sock = p.client sock :=
      (setClient_of_ne (p := typedAt p c bytes) hsock t').trans (setClient_of_ne hsock _)
    show Idle ((typedAt p c bytes).setClient c t' sock)
    rw [hsame]
    exact h.idle sock

end Line

/-- **EVERY RUN OF THE SYSTEM** with lines that can be typed is one of the programs. -/
theorem realised (h : AwaleSystem.Reachable TypedLines sys) : ∃ p, Realises p sys := by
  induction h with
  | start hi =>
      rename_i sys
      refine ⟨⟨sys.server, fun _ => started fun _ => 0⟩, .start ⟨hi.1, fun _ => ⟨rfl, rfl, rfl⟩⟩,
        ⟨rfl, fun sock => ?_⟩, fun _ => ⟨rfl, rfl⟩⟩
      rw [hi.2]
      exact AwaleWire.fresh_carries
  | next hr hC hmove ih =>
      rename_i sys sys' e out
      obtain ⟨p, h⟩ := ih
      have hup : ∀ sock, (p.client sock).hungUp = false := fun sock => (h.idle sock).2
      have hserver : ∀ {e : Step}, (∀ c ev, e ≠ .client c ev) → ∀ p' out,
          step p e = some (p', out) → ∀ sock, Idle (p'.client sock) := by
        intro e he p' out hs
        refine step_clients (I := Idle) (fun _ => ⟨rfl, rfl⟩) (fun _ _ ht => ht) ?_ h.idle hs
        rintro c ev t o rfl
        exact absurd rfl (he c ev)
      obtain ⟨e', hwhole, rfl⟩ := AwaleWire.move_step h.carries hmove
      cases e' with
      | accept csock =>
          have he : netStep p (.start csock fun _ => 0) = some (.accept csock) := rfl
          exact realise_step h.reached h.carries hup hr hwhole he (fun c h => by cases h)
            (hserver fun c ev h => by cases h) hmove
      | input c line buf =>
          have hc : c < p.server.nbClients := by
            obtain ⟨sys₁, hinput, -⟩ := Option.map_eq_some_iff.mp hmove
            simp only [AwaleSystem.input] at hinput
            split at hinput
            · rename_i hopen
              rw [← h.carries.server] at hopen
              exact hopen.1
            · cases hinput
          exact h.input hr hc hC hmove
      | read c k rand buf =>
          have he : netStep p (.read c k rand buf) = some (.read c k rand buf) := rfl
          exact realise_step h.reached h.carries hup hr hwhole he (fun c h => by cases h)
            (hserver fun c ev h => by cases h) hmove
      | receive c k buf =>
          -- the program receives into its own buffer
          have he : netStep p (.client c (.round 0 k (fun _ => 0) false))
              = some (.receive c k (p.clientOf c).buffer) := if_neg (not_ready (h.idle _))
          have hwhole' : Whole p.network (.receive c k (p.clientOf c).buffer) := hwhole
          refine realise_step h.reached h.carries hup hr hwhole' he (fun c h => by cases h) ?_ hmove
          intro p' out hs
          refine step_clients (I := Idle) (fun _ => ⟨rfl, rfl⟩) (fun _ _ ht => ht) ?_ h.idle hs
          intro c' ev t o he' _ ht hstep
          obtain ⟨rfl, rfl⟩ := Step.client.inj he'
          exact idle_round ht hstep

/-- **THE PROGRAMS AND THE SYSTEM.**  While no input ends and every `recv` is whole, the programs
    reach the same servers, with the same clients, as the runs of the system whose lines can be
    typed: what `fgets` reads ahead, the order in which `select` is looked at and the buffer that
    lines and frames share make no difference. -/
theorem same_programs (s : Server) (clients : Int → State × Bool) :
    (∃ p, Reachable Open p ∧ p.server = s
        ∧ ∀ sock, ((p.client sock).wire.state, (p.client sock).wire.closed) = clients sock)
      ↔ ∃ sys, AwaleSystem.Reachable TypedLines sys ∧ sys.server = s
        ∧ ∀ sock, ((sys.link sock).state, (sys.link sock).closed) = clients sock := by
  constructor
  · rintro ⟨p, hp, rfl, hclients⟩
    obtain ⟨sys, hsys, hcarries⟩ := refines (open_reachable hp).1
    refine ⟨sys, hsys, hcarries.server.symm, fun sock => ?_⟩
    rw [← (hcarries.wires sock).state, ← (hcarries.wires sock).closed]
    exact hclients sock
  · rintro ⟨sys, hsys, rfl, hclients⟩
    obtain ⟨p, h⟩ := realised hsys
    refine ⟨p, h.reached, h.carries.server, fun sock => ?_⟩
    have hstate : (p.client sock).wire.state = (sys.link sock).state := (h.carries.wires sock).state
    have hclosed : (p.client sock).wire.closed = (sys.link sock).closed :=
      (h.carries.wires sock).closed
    rw [hstate, hclosed]
    exact hclients sock

end AwalePrograms
