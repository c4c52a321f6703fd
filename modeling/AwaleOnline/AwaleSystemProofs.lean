import AwaleOnline.AwaleClientProofs
import AwaleOnline.AwaleEffectProofs

/-!
# The system: one server, any number of clients

A connection is a `Link`: the client process at its far end, the requests on their way to the
server and the frames on their way back, both in order.  A run interleaves `Move`s freely.

* **`move`** — one move: a client connects, reads a line of its keyboard or a frame, exits, or the
  server reads a frame or the end of a connection;
* **`invariant`** — the induction rule, over what `Typed` and `Effect` say a move can do;
* **`server_reachable`** — the server component runs as the server alone does.

A client exists from its `accept` on: what it sends before is read after.
-/

namespace AwaleSystem

open AwaleProtocol AwaleServer AwaleEffect AwaleClient

/-- A connection; `closed` once its client has exited. -/
structure Link where
  state : State
  up : List Request
  down : List ServerMsg
  closed : Bool
  deriving DecidableEq

/-- A client that has just started. -/
def Link.fresh : Link := ⟨.connecting, [], [], false⟩

/-- The links are found by the descriptor of the server's end. -/
structure System where
  server : Server
  link : Int → Link

/-- The connection of the client at index `c` of the server's table. -/
def System.linkOf (sys : System) (c : Nat) : Link := sys.link (sys.server.clients c).sock

def System.setLink (sys : System) (c : Nat) (l : Link) : Int → Link :=
  Function.update sys.link (sys.server.clients c).sock l

/-- The frames sent on one descriptor. -/
def framesTo (sock : Int) (out : List Sent) : List ServerMsg :=
  (out.filter fun p => p.1 = sock).map fun p => p.2

/-- The server's frames join the queues. -/
def deliver (link : Int → Link) (out : List Sent) : Int → Link := fun sock =>
  { link sock with down := (link sock).down ++ framesTo sock out }

/-- Clients are named by their index in the server's table. -/
inductive Move where
  | accept (csock : Int)
  | input (c : Nat) (line : CString)
  | serve (c : Nat) (rand : UInt32)
  | receive (c : Nat)
  | hangUp (c : Nat)

/-- A client reads a line. -/
def input (sys : System) (c : Nat) (line : CString) : Option System :=
  let l := sys.linkOf c
  if c < sys.server.nbClients ∧ l.closed = false then
    match handleUserInput l.state line with
    | .exit => some { sys with link := sys.setLink c { l with closed := true } }
    | .overrun => none
    | .next state sent =>
        some { sys with link := sys.setLink c { l with state := state, up := l.up ++ sent } }
  else none

/-- The server reads the oldest request of a client. -/
def serve (sys : System) (c : Nat) (rand : UInt32) : Option (System × List Sent) :=
  let l := sys.linkOf c
  match l.up with
  | [] => none
  | q :: up =>
      (trans sys.server (.frame c q.body rand)).map fun r =>
        (⟨r.1, deliver (sys.setLink c { l with up := up }) r.2⟩, r.2)

/-- A client reads its oldest frame. -/
def receiveFrame (sys : System) (c : Nat) : Option System :=
  let l := sys.linkOf c
  if c < sys.server.nbClients ∧ l.closed = false then
    match l.down with
    | [] => none
    | m :: down =>
        let r := receive l.state m
        some { sys with
          link := sys.setLink c { l with state := r.1, up := l.up ++ r.2, down := down } }
  else none

/-- The server reads the end of a connection, behind all requests. -/
def hangUp (sys : System) (c : Nat) : Option System :=
  let l := sys.linkOf c
  if l.closed = true ∧ l.up = [] then
    (trans sys.server (.disconnect c)).map fun r => { sys with server := r.1 }
  else none

def accept (sys : System) (csock : Int) : Option System :=
  (trans sys.server (.accept csock)).map fun r =>
    ⟨r.1, Function.update sys.link csock .fresh⟩

/-- One move, with the frames the server sends. -/
def move (sys : System) : Move → Option (System × List Sent)
  | .accept csock => (accept sys csock).map fun sys => (sys, [])
  | .input c line => (input sys c line).map fun sys => (sys, [])
  | .serve c rand => serve sys c rand
  | .receive c => (receiveFrame sys c).map fun sys => (sys, [])
  | .hangUp c => (hangUp sys c).map fun sys => (sys, [])

def Initial (sys : System) : Prop :=
  AwaleServer.Initial sys.server ∧ sys.link = fun _ => .fresh

/-- The states of the system reached by moves that all meet `C`. -/
abbrev Reachable (C : System → Move → Prop) : System → Prop :=
  GuardedRun.Reachable move C Initial

/-! ## Queues -/

@[simp] theorem deliver_state (link : Int → Link) (out : List Sent) (sock : Int) :
    (deliver link out sock).state = (link sock).state := rfl

@[simp] theorem deliver_up (link : Int → Link) (out : List Sent) (sock : Int) :
    (deliver link out sock).up = (link sock).up := rfl

@[simp] theorem deliver_down (link : Int → Link) (out : List Sent) (sock : Int) :
    (deliver link out sock).down = (link sock).down ++ framesTo sock out := rfl

@[simp] theorem deliver_closed (link : Int → Link) (out : List Sent) (sock : Int) :
    (deliver link out sock).closed = (link sock).closed := rfl

@[simp] theorem framesTo_nil (sock : Int) : framesTo sock [] = [] := rfl

theorem framesTo_append (sock : Int) (out out' : List Sent) :
    framesTo sock (out ++ out') = framesTo sock out ++ framesTo sock out' := by
  simp only [framesTo]
  rw [List.filter_append, List.map_append]

theorem mem_framesTo {sock : Int} {out : List Sent} {m : ServerMsg} :
    m ∈ framesTo sock out ↔ (sock, m) ∈ out := by
  simp only [framesTo]
  constructor
  · intro h
    obtain ⟨p, hp, rfl⟩ := List.mem_map.mp h
    obtain ⟨hmem, hsock⟩ := List.mem_filter.mp hp
    have heq : p.1 = sock := of_decide_eq_true hsock
    exact heq ▸ hmem
  · intro h
    exact List.mem_map.mpr ⟨(sock, m), List.mem_filter.mpr ⟨h, decide_eq_true rfl⟩, rfl⟩

/-! ## What a move can do -/

variable {sys sys' : System} {c : Nat} {rand : UInt32} {out : List Sent}

/-- Every request in flight fits the buffers at both ends. -/
def Fits (sys : System) : Prop := ∀ sock, ∀ q ∈ (sys.link sock).up, q.body.length + 2 ≤ bufSize

/-- The outcomes of a move. -/
inductive Moved (sys : System) : Move → System → List Sent → Prop where
  | accepted {csock : Int} : sys.server.nbClients < maxClients → 0 < csock →
      (∀ i < sys.server.nbClients, (sys.server.clients i).sock ≠ csock) →
      Moved sys (.accept csock)
        ⟨accepted sys.server csock, Function.update sys.link csock .fresh⟩ []
  | exited {c : Nat} {line : CString} : c < sys.server.nbClients →
      (sys.linkOf c).closed = false →
      Moved sys (.input c line)
        ⟨sys.server, sys.setLink c { sys.linkOf c with closed := true }⟩ []
  | typed {c : Nat} {line : CString} {state : State} {sent : List Request} :
      c < sys.server.nbClients → (sys.linkOf c).closed = false →
      Typed (sys.linkOf c).state state sent →
      (∀ q ∈ sent, q.body.length + 2 ≤ bufSize) →
      Moved sys (.input c line)
        ⟨sys.server, sys.setLink c
          { sys.linkOf c with state := state, up := (sys.linkOf c).up ++ sent }⟩ []
  | served {c : Nat} {rand : UInt32} {q : Request} {up : List Request} {s' : Server}
      {out : List Sent} : c < sys.server.nbClients → (sys.linkOf c).up = q :: up →
      Effect (received sys.server q.body) c rand q s' out →
      Moved sys (.serve c rand)
        ⟨s', deliver (sys.setLink c { sys.linkOf c with up := up }) out⟩ out
  | received {c : Nat} {m : ServerMsg} {down : List ServerMsg} :
      c < sys.server.nbClients → (sys.linkOf c).closed = false →
      (sys.linkOf c).down = m :: down →
      Moved sys (.receive c)
        ⟨sys.server, sys.setLink c
          { sys.linkOf c with state := after (sys.linkOf c).state m, down := down }⟩ []
  | hungUp {c : Nat} {s₁ : Server} : c < sys.server.nbClients →
      (sys.linkOf c).closed = true → (sys.linkOf c).up = [] →
      disconnectUser sys.server c = .ok s₁ →
      Moved sys (.hangUp c)
        ⟨{ removeClient s₁ c with buffer := farewell (sys.server.clients c).name }, sys.link⟩ []

/-- **INVERSION OF A MOVE.** -/
theorem move_moved (hfits : Fits sys) {e : Move} (h : move sys e = some (sys', out)) :
    Moved sys e sys' out := by
  cases e with
  | accept csock =>
      obtain ⟨sys₁, h₁, heq⟩ := Option.map_eq_some_iff.mp h
      obtain ⟨rfl, rfl⟩ := Prod.mk.inj heq
      obtain ⟨r, hr, rfl⟩ := Option.map_eq_some_iff.mp h₁
      obtain ⟨hp, hs⟩ := trans_eq_some hr
      obtain ⟨hn, hr1, -⟩ := step_cases hs
      rw [hr1]
      exact .accepted hn hp.1 hp.2
  | input c line =>
      obtain ⟨sys₁, h₁, heq⟩ := Option.map_eq_some_iff.mp h
      obtain ⟨rfl, rfl⟩ := Prod.mk.inj heq
      simp only [input] at h₁
      split at h₁
      · rename_i hc
        split at h₁
        · obtain rfl := Option.some.inj h₁
          exact .exited hc.1 hc.2
        · exact nomatch h₁
        · rename_i state sent hin
          obtain rfl := Option.some.inj h₁
          obtain ⟨htyped, hlen⟩ := handleUserInput_typed hin
          exact .typed hc.1 hc.2 htyped hlen
      · exact nomatch h₁
  | serve c rand =>
      simp only [move, serve] at h
      split at h
      · exact nomatch h
      · rename_i q up hup
        obtain ⟨r, hr, heq⟩ := Option.map_eq_some_iff.mp h
        obtain ⟨rfl, rfl⟩ := Prod.mk.inj heq
        obtain ⟨hp, hs⟩ := trans_eq_some hr
        have hlen : q.body.length + 2 ≤ bufSize :=
          hfits (sys.server.clients c).sock q (by
            show q ∈ (sys.linkOf c).up
            rw [hup]
            exact List.mem_cons_self)
        -- the server decodes what the client encoded
        have hread := readRequest_body sys.server.buffer (q := q) (by omega)
        obtain ⟨-, ⟨hnone, -⟩ | ⟨q', hq', heff⟩⟩ := step_cases hs
        · exact absurd (hread.symm.trans hnone) nofun
        · obtain rfl := Option.some.inj (hread.symm.trans hq')
          exact .served hp.1 hup heff
  | receive c =>
      obtain ⟨sys₁, h₁, heq⟩ := Option.map_eq_some_iff.mp h
      obtain ⟨rfl, rfl⟩ := Prod.mk.inj heq
      simp only [receiveFrame] at h₁
      split at h₁
      · rename_i hc
        split at h₁
        · exact nomatch h₁
        · rename_i m down hdown
          obtain rfl := Option.some.inj h₁
          -- no frame makes the client answer
          rw [receive_silent, List.append_nil]
          exact .received hc.1 hc.2 hdown
      · exact nomatch h₁
  | hangUp c =>
      obtain ⟨sys₁, h₁, heq⟩ := Option.map_eq_some_iff.mp h
      obtain ⟨rfl, rfl⟩ := Prod.mk.inj heq
      simp only [hangUp] at h₁
      split at h₁
      · rename_i hc
        obtain ⟨r, hr, rfl⟩ := Option.map_eq_some_iff.mp h₁
        obtain ⟨hp, hs⟩ := trans_eq_some hr
        obtain ⟨s₁, hd, hr1, -⟩ := step_cases hs
        rw [hr1]
        exact .hungUp hp hc.1 hc.2 hd
      · exact nomatch h₁

/-! ## Where a client's connection goes -/

theorem setLink_self (c : Nat) (l : Link) :
    sys.setLink c l (sys.server.clients c).sock = l := Function.update_self ..

theorem setLink_of_ne {sock : Int} (h : sock ≠ (sys.server.clients c).sock) (l : Link) :
    sys.setLink c l sock = sys.link sock := Function.update_of_ne h ..

theorem linkOf_setLink (c a : Nat) (l : Link) :
    System.linkOf ⟨sys.server, sys.setLink c l⟩ a
      = if (sys.server.clients a).sock = (sys.server.clients c).sock then l
        else sys.linkOf a := by
  show sys.setLink c l (sys.server.clients a).sock = _
  by_cases h : (sys.server.clients a).sock = (sys.server.clients c).sock
  · rw [if_pos h, h, setLink_self]
  · rw [if_neg h, setLink_of_ne h]
    rfl

/-- Serving a request moves the sender's queue and extends the others. -/
theorem linkOf_served {s' : Server} (hsock : ∀ a, (s'.clients a).sock
      = (sys.server.clients a).sock) (a : Nat) (l : Link) :
    System.linkOf ⟨s', deliver (sys.setLink c l) out⟩ a
      = { System.linkOf ⟨sys.server, sys.setLink c l⟩ a with
          down := (System.linkOf ⟨sys.server, sys.setLink c l⟩ a).down
            ++ framesTo (sys.server.clients a).sock out } := by
  show deliver (sys.setLink c l) out (s'.clients a).sock = _
  rw [hsock a]
  rfl

theorem linkOf_accepted {csock : Int} (hnew : ∀ i < sys.server.nbClients,
      (sys.server.clients i).sock ≠ csock) {a : Nat} (ha : a < sys.server.nbClients + 1) :
    (a = sys.server.nbClients ∧ System.linkOf ⟨accepted sys.server csock,
        Function.update sys.link csock .fresh⟩ a = .fresh)
      ∨ (a < sys.server.nbClients ∧ System.linkOf ⟨accepted sys.server csock,
        Function.update sys.link csock .fresh⟩ a = sys.linkOf a) := by
  by_cases hlast : a = sys.server.nbClients
  · refine Or.inl ⟨hlast, ?_⟩
    show Function.update sys.link csock .fresh
      (Function.update sys.server.clients sys.server.nbClients _ a).sock = .fresh
    rw [hlast, Function.update_self, Function.update_self]
  · have hlt : a < sys.server.nbClients := by omega
    refine Or.inr ⟨hlt, ?_⟩
    show Function.update sys.link csock .fresh
      (Function.update sys.server.clients sys.server.nbClients _ a).sock = _
    rw [Function.update_of_ne hlast, Function.update_of_ne (hnew a hlt)]
    rfl

/-- The clients that stay move down in the table. -/
theorem linkOf_hungUp {s₁ : Server} {b : Buffer} (hc : c < sys.server.nbClients)
    (hd : disconnectUser sys.server c = .ok s₁) {a : Nat}
    (ha : a < (removeClient s₁ c).nbClients) :
    SlotArray.skip c a < sys.server.nbClients
      ∧ (removeClient s₁ c).clients a = sys.server.clients (SlotArray.skip c a)
      ∧ System.linkOf ⟨{ removeClient s₁ c with buffer := b }, sys.link⟩ a
        = sys.linkOf (SlotArray.skip c a) := by
  obtain ⟨hclients, hn, -⟩ := disconnectUser_frame hd
  have ha' : a < sys.server.nbClients - 1 := hn ▸ ha
  have hskip : SlotArray.skip c a < sys.server.nbClients := by
    have hlt := SlotArray.skip_lt (i := c) ha'
    omega
  have hentry : (removeClient s₁ c).clients a = sys.server.clients (SlotArray.skip c a) := by
    show SlotArray.shiftDown s₁.clients c (s₁.nbClients - 1) a = _
    rw [hclients, hn, SlotArray.shiftDown_skip _ ha']
  refine ⟨hskip, hentry, ?_⟩
  show sys.link ((removeClient s₁ c).clients a).sock = _
  rw [hentry]
  rfl

/-! ## Runs -/

private theorem fits_setLink {l : Link} (hfits : Fits sys)
    (hl : ∀ q ∈ l.up, q.body.length + 2 ≤ bufSize) (sock : Int) :
    ∀ q ∈ (sys.setLink c l sock).up, q.body.length + 2 ≤ bufSize := by
  by_cases hsock : sock = (sys.server.clients c).sock
  · subst hsock
    rw [setLink_self]
    exact hl
  · rw [setLink_of_ne hsock]
    exact hfits sock

theorem fits_moved {e : Move} (hfits : Fits sys) (h : Moved sys e sys' out) : Fits sys' := by
  cases h with
  | @accepted csock _ _ _ =>
      intro sock q hq
      by_cases hsock : sock = csock
      · subst hsock
        have hq' : q ∈ (Function.update sys.link sock .fresh sock).up := hq
        rw [Function.update_self] at hq'
        exact absurd hq' List.not_mem_nil
      · have hq' : q ∈ (Function.update sys.link csock .fresh sock).up := hq
        rw [Function.update_of_ne hsock] at hq'
        exact hfits sock q hq'
  | exited _ _ => exact fits_setLink hfits (hfits _)
  | typed _ _ _ hlen =>
      refine fits_setLink hfits ?_
      intro q hq
      rcases List.mem_append.mp hq with hq | hq
      · exact hfits _ q hq
      · exact hlen q hq
  | @served c rand q up s' out _ hup _ =>
      refine @fits_setLink sys _ _ hfits ?_
      intro q' hq'
      refine hfits (sys.server.clients c).sock q' ?_
      show q' ∈ (sys.linkOf c).up
      rw [hup]
      exact List.mem_cons_of_mem _ hq'
  | received _ _ _ => exact fits_setLink hfits (hfits _)
  | hungUp _ _ _ _ => exact hfits

theorem fits {C : System → Move → Prop} (h : Reachable C sys) : Fits sys := by
  refine GuardedRun.Reachable.invariant ?_ ?_ h
  · rintro sys ⟨-, hlink⟩ sock q hq
    rw [hlink] at hq
    exact absurd hq List.not_mem_nil
  · intro sys e sys' out hfits _ hmove
    exact fits_moved hfits (move_moved hfits hmove)

/-- The system before any client connects, over a zero receive buffer. -/
def start : System := ⟨initial fun _ => 0, fun _ => .fresh⟩

/-- An evaluated run from `start`, as a reachable state. -/
theorem reaches {C : System → Move → Prop} {β : Type} {f : System → β} {b : β} (es : List Move)
    (hm : GuardedRun.Meets move C start es)
    (hr : (GuardedRun.run move start es).map (fun r => f r.1) = some b) :
    ∃ sys, Reachable C sys ∧ f sys = b := by
  have hinit : Initial start := ⟨⟨_, rfl⟩, rfl⟩
  exact GuardedRun.reachable_of_eval hinit hm hr

/-- **INVARIANT RULE OF THE SYSTEM.**  What holds initially and is preserved by every guarded
    outcome of a move holds of every reachable state; `J` is what is already known of those
    states. -/
theorem invariant {C : System → Move → Prop} {I J : System → Prop}
    (hJ : ∀ sys, Reachable C sys → J sys) (hinit : ∀ sys, Initial sys → I sys)
    (hmoved : ∀ sys e sys' out, J sys → I sys → C sys e → Moved sys e sys' out → I sys') :
    ∀ {sys : System}, Reachable C sys → I sys := by
  intro sys h
  refine GuardedRun.Reachable.invariant_of hinit ?_ h
  intro sys e sys' out hr hI hC hmove
  exact hmoved sys e sys' out (hJ sys hr) hI hC (move_moved (fits hr) hmove)

/-- **THE SERVER'S RUN.** -/
theorem server_reachable {C : System → Move → Prop} (h : Reachable C sys) :
    AwaleServer.Reachable Guard.any.meets sys.server := by
  induction h with
  | start hinit => exact .start hinit.1
  | @next sys sys' e out _ _ hmove ih =>
      cases e with
      | accept csock =>
          obtain ⟨sys₁, h₁, heq⟩ := Option.map_eq_some_iff.mp hmove
          obtain ⟨rfl, -⟩ := Prod.mk.inj heq
          obtain ⟨r, hr, rfl⟩ := Option.map_eq_some_iff.mp h₁
          exact .next ih (Guard.meets_any _) hr
      | input c line =>
          obtain ⟨sys₁, h₁, heq⟩ := Option.map_eq_some_iff.mp hmove
          obtain ⟨rfl, -⟩ := Prod.mk.inj heq
          simp only [input] at h₁
          split at h₁
          · split at h₁
            · exact Option.some.inj h₁ ▸ ih
            · exact nomatch h₁
            · exact Option.some.inj h₁ ▸ ih
          · exact nomatch h₁
      | serve c rand =>
          simp only [move, serve] at hmove
          split at hmove
          · exact nomatch hmove
          · obtain ⟨r, hr, heq⟩ := Option.map_eq_some_iff.mp hmove
            obtain ⟨rfl, -⟩ := Prod.mk.inj heq
            exact .next ih (Guard.meets_any _) hr
      | receive c =>
          obtain ⟨sys₁, h₁, heq⟩ := Option.map_eq_some_iff.mp hmove
          obtain ⟨rfl, -⟩ := Prod.mk.inj heq
          simp only [receiveFrame] at h₁
          split at h₁
          · split at h₁
            · exact nomatch h₁
            · exact Option.some.inj h₁ ▸ ih
          · exact nomatch h₁
      | hangUp c =>
          obtain ⟨sys₁, h₁, heq⟩ := Option.map_eq_some_iff.mp hmove
          obtain ⟨rfl, -⟩ := Prod.mk.inj heq
          simp only [hangUp] at h₁
          split at h₁
          · obtain ⟨r, hr, rfl⟩ := Option.map_eq_some_iff.mp h₁
            exact .next ih (Guard.meets_any _) hr
          · exact nomatch h₁

end AwaleSystem
