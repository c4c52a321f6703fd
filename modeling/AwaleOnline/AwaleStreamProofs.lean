import AwaleOnline.AwaleCodecProofs
import Mathlib.Algebra.Order.BigOperators.Group.List
import Mathlib.Algebra.Order.Group.Nat

/-!
# Frames over a byte stream

`read_client` on the server and the two `read_server` calls of the client, on whatever pieces
the bytes of the frames arrive in.

* **`recv`** — one `recv` of a receiving side: of the prefix, then of the body.  Neither side
  compares what it got with what it asked for;
* **`Delivery`** — the stream of the frames, cut into pieces no larger than what is asked for;
* **`framing_aligned`** — the bodies sent are the bodies dispatched just when every piece is a
  whole prefix or a whole body.
-/

namespace AwaleStream

open AwaleProtocol AwaleCodec ByteBuffer

/-- The two receiving programs. -/
inductive Side where
  | server | client
  deriving DecidableEq

/-- The buffer after the `recv` of the prefix; `read_server` puts a NUL behind it. -/
def Side.readPrefix : Side → ByteBuffer → List UInt8 → ByteBuffer
  | .server, buf, c => buf.storeBytes 0 c
  | .client, buf, c => buf.storeBytes 0 (c ++ [0])

/-- Where a receiver is: in front of a call, behind the prefix, or past its last call (the
    connection is closed, or `buffer[n] = 0` is out of bounds). -/
inductive Phase where
  | idle
  | body (size : Nat)
  | stopped
  deriving DecidableEq

/-- A receiver and the bodies it has dispatched. -/
structure Receiver where
  phase : Phase
  dispatched : List (List UInt8)
  deriving DecidableEq

/-- What one `recv` returns.  `buf` is what the buffer holds when a call starts: it is written
    between two calls, by the frames of other clients or by a line of the keyboard. -/
structure Chunk where
  buf : ByteBuffer
  bytes : List UInt8

def recv (side : Side) (r : Receiver) (c : Chunk) : Receiver :=
  match r.phase with
  | .idle =>
      let buf := side.readPrefix c.buf c.bytes
      let size := prefixValue (buf 0) (buf 1)
      -- a `recv` of no bytes returns 0, which both sides take for the end
      { r with phase := if size = 0 then .stopped else .body size }
  | .body _ =>
      if c.bytes.length < bufSize then
        { phase := .idle, dispatched := r.dispatched ++ [c.bytes] }
      else { r with phase := .stopped }
  | .stopped => r

def start : Receiver := ⟨.idle, []⟩

def run (side : Side) (cs : List Chunk) : Receiver := cs.foldl (recv side) start

/-- The bytes asked for. -/
def Receiver.requested (r : Receiver) : Nat :=
  match r.phase with
  | .idle => 2
  | .body size => size
  | .stopped => 0

/-- Every `recv` returns a byte at least, and no more than it was asked for. -/
def Receivable (side : Side) : Receiver → List Chunk → Prop
  | _, [] => True
  | r, c :: cs =>
      1 ≤ c.bytes.length ∧ c.bytes.length ≤ r.requested ∧ Receivable side (recv side r c) cs

instance decidableReceivable (side : Side) :
    ∀ (r : Receiver) (cs : List Chunk), Decidable (Receivable side r cs)
  | _, [] => inferInstanceAs (Decidable True)
  | r, c :: cs =>
      have := decidableReceivable side (recv side r c) cs
      inferInstanceAs (Decidable (1 ≤ c.bytes.length ∧ c.bytes.length ≤ r.requested
        ∧ Receivable side (recv side r c) cs))

/-- The frames of some bodies, one behind the other. -/
def stream (bodies : List (List UInt8)) : List UInt8 :=
  bodies.flatMap fun b => bytesUInt16 (UInt16.ofNat b.length) ++ b

/-- **A delivery** of the stream: nothing of it is left, unless the receiver has stopped. -/
structure Delivery (side : Side) (bodies : List (List UInt8)) (cs : List Chunk) : Prop where
  receivable : Receivable side start cs
  flows : ∃ rest, cs.flatMap Chunk.bytes ++ rest = stream bodies
    ∧ (rest = [] ∨ (run side cs).phase = .stopped)

/-- The stream of the client's encoders. -/
theorem stream_requests (buf : ByteBuffer) (qs : List Request)
    (h : ∀ q ∈ qs, q.body.length < 65536) :
    qs.flatMap (fun q => sentBytes (writeRequest buf q)) = stream (qs.map Request.body) := by
  rw [stream, List.flatMap_map]
  refine List.flatMap_congr ?_
  intro q hq
  rw [request_frame buf q (h q hq), sentBytes_frame]

/-- The stream of the server's encoders. -/
theorem stream_messages (buf : ByteBuffer) (ms : List ServerFrame)
    (h : ∀ m ∈ ms, m.body.length < 65536) :
    ms.flatMap (fun m => sentBytes (m.write buf)) = stream (ms.map ServerFrame.body) := by
  rw [stream, List.flatMap_map]
  refine List.flatMap_congr ?_
  intro m hm
  rw [server_frame buf m (h m hm), sentBytes_frame]

/-! ## Calls -/

variable {side : Side}

theorem foldl_stopped {r : Receiver} (h : r.phase = .stopped) (cs : List Chunk) :
    cs.foldl (recv side) r = r := by
  induction cs with
  | nil => rfl
  | cons c cs ih =>
      have hr : recv side r c = r := by
        unfold recv
        rw [h]
      rw [List.foldl_cons, hr, ih]

/-- **What a call does** when its second `recv` returns: it dispatches what that one got, or
    the receiver stops. -/
theorem recv_call {r : Receiver} {p c : Chunk} (h : r.phase = .idle)
    (hc : 1 ≤ c.bytes.length) (hreq : c.bytes.length ≤ (recv side r p).requested) :
    recv side (recv side r p) c = ⟨.idle, r.dispatched ++ [c.bytes]⟩
      ∨ (recv side (recv side r p) c).phase = .stopped := by
  by_cases hsize : prefixValue (side.readPrefix p.buf p.bytes 0)
      (side.readPrefix p.buf p.bytes 1) = 0
  · have hstop : (recv side r p).requested = 0 := by
      simp [recv, h, hsize, Receiver.requested]
    omega
  · by_cases hlen : c.bytes.length < bufSize
    · left
      simp [recv, h, hsize, hlen]
    · right
      simp [recv, h, hsize, hlen]

/-- **THE CALLS OF A RUN.**  A run that ends between two calls is a sequence of whole calls; the
    bodies it dispatched are what their second `recv`s got. -/
theorem calls_of_run : ∀ (cs : List Chunk) (r : Receiver), r.phase = .idle →
    Receivable side r cs → (cs.foldl (recv side) r).phase = .idle →
    ∃ calls : List (Chunk × Chunk),
      cs = calls.flatMap (fun call => [call.1, call.2])
        ∧ (cs.foldl (recv side) r).dispatched
          = r.dispatched ++ calls.map (fun call => call.2.bytes)
        ∧ ∀ call ∈ calls, call.1.bytes.length ≤ 2
  | [], r, _, _, _ => ⟨[], rfl, (List.append_nil _).symm, List.forall_mem_nil _⟩
  | [p], r, h, _, hend => by
      have hnot : (recv side r p).phase ≠ .idle := by
        simp only [recv, h]
        split <;> simp
      exact absurd hend hnot
  | p :: c :: cs, r, h, hrecv, hend => by
      obtain ⟨-, hp, hc, hreq, hrest⟩ := hrecv
      rw [List.foldl_cons, List.foldl_cons] at hend ⊢
      rcases recv_call h hc hreq with hcall | hstop
      · rw [hcall] at hrest hend ⊢
        obtain ⟨calls, hcs, hdisp, hshort⟩ := calls_of_run cs _ rfl hrest hend
        have hp2 : p.bytes.length ≤ 2 := by simpa [Receiver.requested, h] using hp
        refine ⟨(p, c) :: calls, ?_, ?_, List.forall_mem_cons.mpr ⟨hp2, hshort⟩⟩
        · rw [List.flatMap_cons, ← hcs]
          rfl
        · rw [hdisp, List.map_cons, List.append_assoc]
          rfl
      · rw [foldl_stopped hstop, hstop] at hend
        cases hend

/-! ## Aligned deliveries -/

/-- The prefix of a body, read whole. -/
theorem readPrefix_value (side : Side) (buf : ByteBuffer) {n : Nat} (h : n < 65536) :
    prefixValue (side.readPrefix buf (bytesUInt16 (UInt16.ofNat n)) 0)
      (side.readPrefix buf (bytesUInt16 (UInt16.ofNat n)) 1) = n := by
  have hread : ∀ tail : List UInt8,
      prefixValue (buf.storeBytes 0 (bytesUInt16 (UInt16.ofNat n) ++ tail) 0)
        (buf.storeBytes 0 (bytesUInt16 (UInt16.ofNat n) ++ tail) 1) = n :=
    fun tail => prefixValue_ofNat h
  cases side with
  | server => simpa [Side.readPrefix] using hread []
  | client => exact hread [0]

/-- One call on a whole prefix and a whole body. -/
theorem recv_aligned {r : Receiver} {p c : Chunk} {body : List UInt8} (h : r.phase = .idle)
    (hlen : 1 ≤ body.length ∧ body.length < bufSize)
    (hp : p.bytes = bytesUInt16 (UInt16.ofNat body.length)) (hc : c.bytes = body) :
    recv side (recv side r p) c = ⟨.idle, r.dispatched ++ [body]⟩ := by
  have hvalue := readPrefix_value side p.buf
    (Nat.lt_trans hlen.2 (by decide : bufSize < 65536))
  rw [← hp] at hvalue
  have hne : body.length ≠ 0 := Nat.ne_of_gt hlen.1
  simp [recv, h, hvalue, hne, hc, hlen.2]

/-- **AN ALIGNED RUN DISPATCHES THE BODIES**, by induction on the frames. -/
theorem run_aligned {rest : List UInt8} (bodies : List (List UInt8)) :
    ∀ (cs : List Chunk) (r : Receiver), r.phase = .idle →
      (∀ b ∈ bodies, 1 ≤ b.length ∧ b.length < bufSize) →
      cs.map (fun c => c.bytes.length) = bodies.flatMap (fun b => [2, b.length]) →
      cs.flatMap Chunk.bytes ++ rest = stream bodies →
      cs.foldl (recv side) r = ⟨.idle, r.dispatched ++ bodies⟩ := by
  induction bodies with
  | nil =>
      intro cs r h _ hlen _
      rw [List.map_eq_nil_iff.mp hlen, List.append_nil]
      cases r
      cases h
      rfl
  | cons body bodies ih =>
      intro cs r h hb hlen hflow
      obtain ⟨hbody, hb⟩ := List.forall_mem_cons.mp hb
      obtain ⟨p, cs, rfl, hp, hlen⟩ := List.map_eq_cons_iff.mp hlen
      obtain ⟨c, cs, rfl, hc, hlen⟩ := List.map_eq_cons_iff.mp hlen
      -- the first two chunks are the first frame, and the others the frames behind it
      simp only [stream, List.flatMap_cons, List.append_assoc] at hflow
      obtain ⟨hpre, hflow⟩ := List.append_inj hflow (hp.trans rfl)
      obtain ⟨hbytes, hflow⟩ := List.append_inj hflow hc
      rw [List.foldl_cons, List.foldl_cons, recv_aligned h hbody hpre hbytes,
        ih cs _ rfl hb hlen hflow, List.append_assoc]
      rfl

/-! ## End to end -/

/-- A stream delivered whole, in aligned pieces. -/
theorem run_delivered {bodies : List (List UInt8)} {cs : List Chunk}
    (hb : ∀ b ∈ bodies, 1 ≤ b.length ∧ b.length < bufSize)
    (hflow : cs.flatMap Chunk.bytes = stream bodies)
    (hlen : cs.map (fun c => c.bytes.length) = bodies.flatMap fun b => [2, b.length]) :
    (run side cs).dispatched = bodies := by
  have hrun : run side cs = ⟨.idle, bodies⟩ :=
    run_aligned bodies cs start rfl hb hlen ((List.append_nil _).trans hflow)
  rw [hrun]

/-- What the clients encode reaches the handlers of the server, when no `recv` falls short:
    whatever the buffer holds at each dispatch, the requests are read back in order. -/
theorem requests_delivered {buf kept : ByteBuffer} {qs : List Request} {cs : List Chunk}
    (hfits : ∀ q ∈ qs, q.body.length + 2 ≤ bufSize)
    (hflow : cs.flatMap Chunk.bytes = qs.flatMap fun q => sentBytes (writeRequest buf q))
    (hlen : cs.map (fun c => c.bytes.length) = qs.flatMap fun q => [2, q.body.length]) :
    (run .server cs).dispatched.map (fun b => readRequest (storeBody kept b))
      = qs.map some := by
  have hsmall : ∀ q ∈ qs, q.body.length < bufSize := fun q hq => by
    have := hfits q hq
    omega
  have hb : ∀ b ∈ qs.map Request.body, 1 ≤ b.length ∧ b.length < bufSize := by
    intro b hb
    obtain ⟨q, hq, rfl⟩ := List.mem_map.mp hb
    exact ⟨body_length_pos q, hsmall q hq⟩
  rw [stream_requests buf qs fun q hq => Nat.lt_trans (hsmall q hq) (by decide)] at hflow
  rw [run_delivered hb hflow (by rw [hlen, List.flatMap_map]), List.map_map]
  refine List.map_congr_left ?_
  intro q hq
  exact readRequest_body kept (hsmall q hq)

/-- What the server encodes reaches the handlers of the client, likewise. -/
theorem messages_delivered {buf : ByteBuffer} {ms : List ServerFrame} {cs : List Chunk}
    (hfits : ∀ m ∈ ms, m.msg.size ≤ bufSize)
    (hflow : cs.flatMap Chunk.bytes = ms.flatMap fun m => sentBytes (m.write buf))
    (hlen : cs.map (fun c => c.bytes.length) = ms.flatMap fun m => [2, m.body.length]) :
    (run .client cs).dispatched.map (fun b => serverClientProtocolRead (b ++ [0]))
      = ms.map fun m => some (some m.call) := by
  have hsmall : ∀ m ∈ ms, m.body.length < bufSize := fun m hm => by
    have := hfits m hm
    rw [size_msg] at this
    omega
  have hb : ∀ b ∈ ms.map ServerFrame.body, 1 ≤ b.length ∧ b.length < bufSize := by
    intro b hb
    obtain ⟨m, hm, rfl⟩ := List.mem_map.mp hb
    exact ⟨m.body_length_pos, hsmall m hm⟩
  rw [stream_messages buf ms fun m hm => Nat.lt_trans (hsmall m hm) (by decide)] at hflow
  rw [run_delivered hb hflow (by rw [hlen, List.flatMap_map]), List.map_map]
  exact List.map_congr_left fun m _ => serverClientProtocolRead_body m

/-! ## Counting bytes -/

/-- Numbers of at most two that add up to two each are all two. -/
theorem all_two {α : Type} {f : α → Nat} (l : List α) (h : ∀ a ∈ l, f a ≤ 2)
    (hsum : (l.map f).sum = 2 * l.length) : ∀ a ∈ l, f a = 2 := by
  induction l with
  | nil => exact List.forall_mem_nil _
  | cons a l ih =>
      obtain ⟨ha, hl⟩ := List.forall_mem_cons.mp h
      have hle : (l.map f).sum ≤ l.length * 2 := by
        simpa using List.sum_le_card_nsmul (l.map f) 2 (by simpa using hl)
      simp only [List.map_cons, List.sum_cons, List.length_cons] at hsum
      exact List.forall_mem_cons.mpr ⟨by omega, ih hl (by omega)⟩

theorem stream_length (bodies : List (List UInt8)) :
    (stream bodies).length = 2 * bodies.length + (bodies.map List.length).sum := by
  induction bodies with
  | nil => rfl
  | cons body bodies ih =>
      have hcons : stream (body :: bodies)
          = bytesUInt16 (UInt16.ofNat body.length) ++ body ++ stream bodies := by
        rw [stream, List.flatMap_cons]
        rfl
      have hpre : (bytesUInt16 (UInt16.ofNat body.length)).length = 2 := rfl
      rw [hcons, List.length_append, List.length_append, ih, hpre]
      simp only [List.length_cons, List.map_cons, List.sum_cons]
      omega

theorem calls_length (calls : List (Chunk × Chunk)) :
    ((calls.flatMap fun call => [call.1, call.2]).flatMap Chunk.bytes).length
      = (calls.map fun call => call.1.bytes.length).sum
        + ((calls.map fun call => call.2.bytes).map List.length).sum := by
  induction calls with
  | nil => rfl
  | cons call calls ih =>
      simp only [List.flatMap_cons, List.flatMap_append, List.length_append, ih, List.map_cons,
        List.sum_cons, List.flatMap_nil, List.append_nil]
      omega

/-! ## The framing law -/

/-- **FRAMING.**  However the stream of the frames is delivered, the bodies dispatched are the
    bodies sent, with no call left behind its prefix, just when the pieces are the prefixes and
    the bodies themselves. -/
theorem framing_aligned {bodies : List (List UInt8)} {cs : List Chunk}
    (hb : ∀ b ∈ bodies, 1 ≤ b.length ∧ b.length < bufSize) (hd : Delivery side bodies cs) :
    ((run side cs).dispatched = bodies ∧ (run side cs).phase = .idle)
      ↔ cs.map (fun c => c.bytes.length) = bodies.flatMap fun b => [2, b.length] := by
  obtain ⟨rest, hflow, hrest⟩ := hd.flows
  constructor
  · rintro ⟨hdisp, hidle⟩
    obtain ⟨calls, rfl, hcalls, hshort⟩ := calls_of_run cs start rfl hd.receivable hidle
    have hbodies : calls.map (fun call => call.2.bytes) = bodies := hcalls.symm.trans hdisp
    have hnil : rest = [] := by
      rcases hrest with hrest | hstop
      · exact hrest
      · rw [hidle] at hstop
        cases hstop
    -- the prefixes take what the bodies leave of the stream: two bytes a frame
    have hcount : (calls.map fun call => call.1.bytes.length).sum = 2 * calls.length := by
      have hlen := congrArg List.length hflow
      rw [hnil, List.append_nil, calls_length, stream_length, hbodies] at hlen
      have hn : calls.length = bodies.length := by rw [← hbodies, List.length_map]
      omega
    have htwo := all_two calls hshort hcount
    rw [← hbodies, List.flatMap_map, List.map_flatMap]
    refine List.flatMap_congr ?_
    intro call hcall
    simp [htwo call hcall]
  · intro hlen
    have hrun : run side cs = ⟨.idle, bodies⟩ := run_aligned bodies cs start rfl hb hlen hflow
    rw [hrun]
    exact ⟨rfl, rfl⟩

/-- The body of CONNECT for the name `ab`. -/
def connectBody : List UInt8 := (Request.connect (literal "ab")).body

/-- Its frame, each `recv` answered in full. -/
def wholeFrame : List Chunk := [⟨fun _ => 0, [4, 0]⟩, ⟨fun _ => 0, connectBody⟩]

theorem framing_whole_frame :
    (run .server wholeFrame).dispatched = [connectBody]
      ∧ (run .server wholeFrame).phase = .idle :=
  (framing_aligned (by decide)
    { receivable := by decide
      flows := ⟨[], by decide, Or.inl rfl⟩ }).mpr (by decide)

/-- The same frame with its body in two pieces. -/
def cutBody : List Chunk :=
  [⟨fun _ => 0, [4, 0]⟩, ⟨fun _ => 0, [0, 97]⟩, ⟨fun _ => 0, [98, 0]⟩]

/-- A `recv` that returns half of the body: the half is dispatched as a body, and the rest of it
    is taken for a prefix. -/
theorem half_body_dispatched :
    Delivery .server [connectBody] cutBody
      ∧ (run .server cutBody).dispatched = [[0, 97]]
      ∧ (run .server cutBody).dispatched ≠ [connectBody]
      ∧ (run .server cutBody).phase = .body 98 :=
  ⟨⟨by decide, [], by decide, Or.inl rfl⟩, by decide, by decide, by decide⟩

end AwaleStream
