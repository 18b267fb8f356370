import DvbGseTunnel.Lib.Loop
import DvbGseTunnel.Params

/-!
# The loop of `process_encap`

`process_encap.c` from the start of the loop to its end. One pass of the outer
loop handles one event (what `pselect` and `read_tap` see); the drain loop over
the encapsulator's FIFO is `loop` of its body. The stop signals and the return
value are added in `StopSignals`.

The state logs the calls that matter to the outside, with the arguments they
were given, in the order they were made.
-/

namespace DvbGseTunnel

open Lib

def pduLabel (counter : UInt64) : Label :=
  #v[(counter &&& 0xff).toUInt8, ((counter >>> 8) &&& 0xff).toUInt8,
    ((counter >>> 16) &&& 0xff).toUInt8, ((counter >>> 32) &&& 0xff).toUInt8,
    ((counter >>> 48) &&& 0xff).toUInt8, ((counter >>> 56) &&& 0xff).toUInt8]

/-! ### State -/

inductive EncapCall where
  | receivePdu (counter : UInt64) (label : Label) (status : Status)
  | getPacket (desiredLen : Int) (status : Status)
  | writeUdp (datagram : List UInt8) (ret : Int)
deriving DecidableEq, Repr

/-- What stays from one pass of the outer loop to the next; `lib` and `net` are
    the states of libgse and of the kernel's socket. -/
structure EncapState (σ ω : Type) where
  lib : σ
  net : ω
  heap : Heap
  counter : UInt64
  err : Nat
  alive : Int
  calls : List EncapCall

/-- The state of the drain loop. -/
structure Drain (σ ω : Type) where
  env : EncapState σ ω
  vfragPdu : Vfrag
  ret : Ret
  desiredLen : Int

/-- What `process_encap` runs with: libgse, the kernel's answers to `sendto`, and
    the parameters. -/
structure EncapConf (σ ω : Type) where
  gse : GseConstants
  lib : Encapsulator σ
  sendto : ω → List UInt8 → Int × ω
  params : ProcessEncapParams

variable {σ ω : Type}

/-! ### The drain loop -/

/-- The padding step: `memset` after the packet, then `gse_set_vfrag_length` to
    the payload length. Writing outside the buffer has no result. -/
def padPacket (E : EncapConf σ ω) (heap : Heap) (pkt : Vfrag) : Option (Heap × Vfrag) :=
  if E.params.payloadLen ≠ 0 then
    match (heap pkt.buf).fill (pkt.start + pkt.length)
        (sizeT (E.params.payloadLen - pkt.length)) 0 with
    | none => none
    | some buffer =>
      let heap := Function.update heap pkt.buf buffer
      some (heap, (E.lib.gseSetVfragLength heap pkt (sizeT E.params.payloadLen)).2)
  else some (heap, pkt)

theorem padPacket_eq {E : EncapConf σ ω} {P : Nat} (hP : E.params.payloadLen = P)
    (hpos : 0 < P) (hmax : P < 2 ^ 64) (heap : Heap) {pkt : Vfrag} (hlen : pkt.length ≤ P) :
    padPacket E heap pkt = ((heap pkt.buf).fill (pkt.start + pkt.length) (P - pkt.length) 0).map
      fun buffer =>
        let heap := Function.update heap pkt.buf buffer
        (heap, (E.lib.gseSetVfragLength heap pkt P).2) := by
  have hmode : (P : Int) ≠ 0 := by omega
  have hpad : sizeT (P - pkt.length : Int) = P - pkt.length := by
    rw [sizeT_of_nonneg (by omega) (by omega)]
    omega
  have hset : sizeT (P : Int) = P := by
    rw [sizeT_of_nonneg (by omega) (by omega)]
    omega
  rw [padPacket, hP, if_pos hmode, hpad, hset]
  cases (heap pkt.buf).fill (pkt.start + pkt.length) (P - pkt.length) 0 <;> rfl

/-- The length asked of `gse_encap_get_packet`. -/
def Drain.demand (E : EncapConf σ ω) (d : Drain σ ω) : Int :=
  if E.params.payloadLen = 0 then
    E.lib.gseGetVfragLength d.env.lib d.vfragPdu + E.gse.GSE_MAX_HEADER_LENGTH
  else d.desiredLen

def Drain.got (E : EncapConf σ ω) (d : Drain σ ω) : VfragResult σ :=
  E.lib.gseEncapGetPacket d.env.lib d.env.heap (d.demand E)

def Drain.afterGet (E : EncapConf σ ω) (d : Drain σ ω) : Drain σ ω :=
  { d with
    env := { d.env with
      lib := (d.got E).lib, heap := (d.got E).heap,
      calls := d.env.calls ++ [.getPacket (d.demand E) (d.got E).status] }
    ret := .status (d.got E).status
    desiredLen := d.demand E }

def Drain.countError (d : Drain σ ω) : Drain σ ω :=
  { d with env := { d.env with err := d.env.err + 1 } }

def Drain.send (E : EncapConf σ ω) (d : Drain σ ω) (heap : Heap) (pkt : Vfrag) : Drain σ ω :=
  let (ret, net) := writeUdp E.sendto d.env.net (pkt.data heap)
  { d with
    env := { d.env with
      heap := heap, net := net, calls := d.env.calls ++ [.writeUdp (pkt.data heap) ret] }
    ret := .int ret }

def Drain.running (d : Drain σ ω) : Prop := d.ret ≠ .status .fifoEmpty ∧ d.env.err < 5

instance Drain.decidableRunning (d : Drain σ ω) : Decidable d.running :=
  inferInstanceAs (Decidable (_ ∧ _))

def drainBody (E : EncapConf σ ω) (d : Drain σ ω) : Flow (Drain σ ω) :=
  if d.running then
    if (d.got E).status ≠ .ok ∧ (d.got E).status ≠ .fifoEmpty then
      .next (d.afterGet E).countError
    else if (d.got E).status ≠ .fifoEmpty then
      match padPacket E (d.got E).heap (d.got E).vfrag with
      | none => .fault (d.afterGet E)
      | some (heap, pkt) => .next ((d.afterGet E).send E heap pkt)
    else .next (d.afterGet E)
  else .stop d

/-- Everything a pass of the drain loop can do. -/
theorem drainBody_cases (E : EncapConf σ ω) (d : Drain σ ω) :
    (¬d.running ∧ drainBody E d = .stop d) ∨
    (d.running ∧ (d.got E).status ≠ .ok ∧ (d.got E).status ≠ .fifoEmpty ∧
      drainBody E d = .next (d.afterGet E).countError) ∨
    (d.running ∧ (d.got E).status = .fifoEmpty ∧ drainBody E d = .next (d.afterGet E)) ∨
    (d.running ∧ (d.got E).status = .ok ∧
      padPacket E (d.got E).heap (d.got E).vfrag = none ∧
      drainBody E d = .fault (d.afterGet E)) ∨
    (d.running ∧ (d.got E).status = .ok ∧ ∃ heap pkt,
      padPacket E (d.got E).heap (d.got E).vfrag = some (heap, pkt) ∧
      drainBody E d = .next ((d.afterGet E).send E heap pkt)) := by
  by_cases hrun : d.running
  · by_cases hempty : (d.got E).status = .fifoEmpty
    · exact .inr (.inr (.inl ⟨hrun, hempty, by simp [drainBody, hrun, hempty]⟩))
    · by_cases hok : (d.got E).status = .ok
      · cases hpad : padPacket E (d.got E).heap (d.got E).vfrag with
        | none =>
          exact .inr (.inr (.inr (.inl ⟨hrun, hok, rfl, by simp [drainBody, hrun, hok, hpad]⟩)))
        | some p =>
          exact .inr (.inr (.inr (.inr
            ⟨hrun, hok, p.1, p.2, rfl, by simp [drainBody, hrun, hok, hpad]⟩)))
      · exact .inr (.inl ⟨hrun, hok, hempty, by simp [drainBody, hrun, hok, hempty]⟩)
  · exact .inl ⟨hrun, by simp [drainBody, hrun]⟩

@[simp] theorem Drain.afterGet_calls (E : EncapConf σ ω) (d : Drain σ ω) :
    (d.afterGet E).env.calls =
      d.env.calls ++ [.getPacket (d.demand E) (d.got E).status] := rfl

@[simp] theorem Drain.send_counter (E : EncapConf σ ω) (d : Drain σ ω) (heap : Heap)
    (pkt : Vfrag) : (d.send E heap pkt).env.counter = d.env.counter := rfl

@[simp] theorem Drain.send_lib (E : EncapConf σ ω) (d : Drain σ ω) (heap : Heap)
    (pkt : Vfrag) : (d.send E heap pkt).env.lib = d.env.lib := rfl

theorem Drain.send_calls (E : EncapConf σ ω) (d : Drain σ ω) (heap : Heap) (pkt : Vfrag) :
    ∃ ret, (d.send E heap pkt).env.calls = d.env.calls ++ [.writeUdp (pkt.data heap) ret] ∧
      (d.send E heap pkt).ret = .int ret := ⟨_, rfl, rfl⟩

/-! ### The outer loop -/

/-- What a pass of the outer loop meets. The TAP descriptor is the only one
    watched, so it is readable whenever `pselect` returns a positive number. -/
inductive EncapEvent where
  | timeout
  | pselectFailed
  | readable (read : Option (List UInt8))
deriving DecidableEq, Repr

/-- What becomes of a readable TAP interface: a store outside the buffer, nothing
    to encapsulate or a refused PDU, or a PDU in the FIFO. -/
inductive Reception (σ ω : Type) where
  | fault (s : EncapState σ ω)
  | ignored (s : EncapState σ ω)
  | admitted (d : Drain σ ω)

/-- The call of `gse_create_vfrag` for the next PDU. -/
def EncapState.created (E : EncapConf σ ω) (s : EncapState σ ω) : VfragResult σ :=
  E.lib.gseCreateVfrag s.lib s.heap GSE_MAX_PDU_LENGTH E.gse.GSE_MAX_HEADER_LENGTH
    E.gse.GSE_MAX_TRAILER_LENGTH

/-- After that call, with `heap` for what `read_tap` left in memory. -/
def EncapState.afterRead (E : EncapConf σ ω) (s : EncapState σ ω) (heap : Heap) :
    EncapState σ ω :=
  { s with lib := (s.created E).lib, heap := heap }

/-- The call of `gse_encap_receive_pdu`, with the label of the incremented counter. -/
def EncapState.received (E : EncapConf σ ω) (s : EncapState σ ω) (pdu : Vfrag) :
    Status × σ :=
  E.lib.gseEncapReceivePdu s.lib pdu (pduLabel (s.counter + 1))

def EncapState.afterReceive (E : EncapConf σ ω) (s : EncapState σ ω) (pdu : Vfrag) :
    EncapState σ ω :=
  { s with
    lib := (s.received E pdu).2
    counter := s.counter + 1
    calls := s.calls ++
      [.receivePdu (s.counter + 1) (pduLabel (s.counter + 1)) (s.received E pdu).1] }

/-- From `gse_encap_receive_pdu` to the drain loop. -/
def submitPdu (E : EncapConf σ ω) (pdu : Vfrag) (s : EncapState σ ω) : Reception σ ω :=
  if (s.received E pdu).1 ≠ .ok then .ignored (s.afterReceive E pdu)
  else .admitted ⟨{ s.afterReceive E pdu with err := 0 }, pdu,
    .status (s.received E pdu).1, E.params.payloadLen⟩

/-- From `gse_create_vfrag` to the drain loop. -/
def receiveFrame (E : EncapConf σ ω) (read : Option (List UInt8)) (s : EncapState σ ω) :
    Reception σ ω :=
  let heap := (s.created E).heap
  let vfrag := (s.created E).vfrag
  match readTap read (sizeT E.params.bufferLen) (heap vfrag.buf) vfrag.start with
  | none => .fault (s.afterRead E heap)
  | some r =>
    let heap := Function.update heap vfrag.buf r.buffer
    if r.ret < 0 then .ignored (s.afterRead E heap)
    else if r.len = 0 then .ignored (s.afterRead E heap)
    else submitPdu E (E.lib.gseSetVfragLength heap vfrag r.len).2 (s.afterRead E heap)

/-- What `receiveFrame` does: a store outside the buffer, or nothing to encapsulate
    (no call to the encapsulator yet), or a PDU that is refused or admitted. -/
theorem receiveFrame_cases (E : EncapConf σ ω) (read : Option (List UInt8))
    (s : EncapState σ ω) :
    (∃ heap, receiveFrame E read s = .fault (s.afterRead E heap)) ∨
    (∃ heap, receiveFrame E read s = .ignored (s.afterRead E heap)) ∨
    (∃ heap pdu, ((s.afterRead E heap).received E pdu).1 ≠ .ok ∧
      receiveFrame E read s = .ignored ((s.afterRead E heap).afterReceive E pdu)) ∨
    (∃ heap pdu, ((s.afterRead E heap).received E pdu).1 = .ok ∧
      receiveFrame E read s =
        .admitted ⟨{ (s.afterRead E heap).afterReceive E pdu with err := 0 }, pdu,
          .status ((s.afterRead E heap).received E pdu).1, E.params.payloadLen⟩) := by
  cases hread : readTap read (sizeT E.params.bufferLen)
      ((s.created E).heap (s.created E).vfrag.buf) (s.created E).vfrag.start with
  | none => exact .inl ⟨(s.created E).heap, by simp only [receiveFrame, hread]⟩
  | some r =>
    by_cases hret : r.ret < 0
    · exact .inr (.inl ⟨_, by simp only [receiveFrame, hread, if_pos hret]; rfl⟩)
    by_cases hlen : r.len = 0
    · exact .inr (.inl ⟨_, by simp only [receiveFrame, hread, if_neg hret, if_pos hlen]; rfl⟩)
    let heap := Function.update (s.created E).heap (s.created E).vfrag.buf r.buffer
    let pdu := (E.lib.gseSetVfragLength heap (s.created E).vfrag r.len).2
    by_cases hok : ((s.afterRead E heap).received E pdu).1 = .ok
    · refine .inr (.inr (.inr ⟨heap, pdu, hok, ?_⟩))
      simp only [receiveFrame, hread, if_neg hret, if_neg hlen, submitPdu]
      exact if_neg fun h => h hok
    · refine .inr (.inr (.inl ⟨heap, pdu, hok, ?_⟩))
      simp only [receiveFrame, hread, if_neg hret, if_neg hlen, submitPdu]
      exact if_pos hok

theorem receiveFrame_of_fits (E : EncapConf σ ω) {frame : List UInt8} (s : EncapState σ ω)
    (hne : frame.take (sizeT E.params.bufferLen) ≠ [])
    (hfits : (s.created E).vfrag.start + (frame.take (sizeT E.params.bufferLen)).length ≤
      ((s.created E).heap (s.created E).vfrag.buf).size) :
    let data := frame.take (sizeT E.params.bufferLen)
    let heap := Function.update (s.created E).heap (s.created E).vfrag.buf
      (((s.created E).heap (s.created E).vfrag.buf).overlay (s.created E).vfrag.start
        data.length fun i => data.getD i 0)
    receiveFrame E (some frame) s =
      submitPdu E (E.lib.gseSetVfragLength heap (s.created E).vfrag data.length).2
        (s.afterRead E heap) := by
  intro data heap
  have hlen : data.length ≠ 0 := fun h => hne (List.length_eq_zero_iff.mp h)
  simp only [receiveFrame, readTap_of_fits hne hfits, Int.lt_irrefl, if_false]
  exact if_neg hlen

/-- The heap with a frame stored in the buffer of its fragment. -/
def EncapState.stored (E : EncapConf σ ω) (s : EncapState σ ω) (frame : List UInt8) : Heap :=
  Function.update (s.created E).heap (s.created E).vfrag.buf
    (((s.created E).heap (s.created E).vfrag.buf).overlay E.gse.GSE_MAX_HEADER_LENGTH
      frame.length fun i => frame.getD i 0)

def EncapState.pdu (E : EncapConf σ ω) (s : EncapState σ ω) (frame : List UInt8) : Vfrag :=
  ⟨(s.created E).vfrag.buf, E.gse.GSE_MAX_HEADER_LENGTH, frame.length⟩

theorem stored_size {E : EncapConf σ ω} (hvfrag : VfragLaws E.lib) (frame : Bytes)
    (s : EncapState σ ω) : ((s.stored E frame) (s.pdu E frame).buf).size =
      E.gse.GSE_MAX_HEADER_LENGTH + GSE_MAX_PDU_LENGTH + E.gse.GSE_MAX_TRAILER_LENGTH := by
  rw [EncapState.stored, EncapState.pdu, Function.update_self, Buffer.overlay_size]
  exact hvfrag.create_size _ _ _ _ _

theorem data_stored {E : EncapConf σ ω} (frame : Bytes) (s : EncapState σ ω) :
    (s.pdu E frame).data (s.stored E frame) = frame := by
  rw [Vfrag.data, EncapState.stored, EncapState.pdu, Function.update_self]
  exact Buffer.read_write_same _ _ _

/-- A frame that `buffer_len` and the fragment have room for reaches
    `gse_encap_receive_pdu`. -/
theorem receiveFrame_of_laws {E : EncapConf σ ω} (hlib : VfragLaws E.lib) {frame : List UInt8}
    (s : EncapState σ ω) (hne : frame ≠ []) (hlen : frame.length ≤ E.params.bufferLen)
    (hmax : E.params.bufferLen ≤ GSE_MAX_PDU_LENGTH) :
    receiveFrame E (some frame) s =
      submitPdu E (s.pdu E frame) (s.afterRead E (s.stored E frame)) := by
  have hPDU : GSE_MAX_PDU_LENGTH = 65535 := rfl
  have hcapa : sizeT E.params.bufferLen = E.params.bufferLen.toNat :=
    sizeT_of_nonneg (by omega) (by omega)
  have htake : frame.take (sizeT E.params.bufferLen) = frame :=
    List.take_of_length_le (by omega)
  have hstart : (s.created E).vfrag.start = E.gse.GSE_MAX_HEADER_LENGTH :=
    hlib.create_start _ _ _ _ _
  have hsize : ((s.created E).heap (s.created E).vfrag.buf).size =
      E.gse.GSE_MAX_HEADER_LENGTH + GSE_MAX_PDU_LENGTH + E.gse.GSE_MAX_TRAILER_LENGTH :=
    hlib.create_size _ _ _ _ _
  have hread := receiveFrame_of_fits E s (htake.symm ▸ hne) (by rw [htake, hstart, hsize]; omega)
  simp only [htake, hstart] at hread
  have hset := hlib.setLength (s.stored E frame) (s.created E).vfrag frame.length (by
    rw [EncapState.stored, Function.update_self, Buffer.overlay_size, hstart, hsize]
    omega)
  rw [hstart] at hset
  exact hread.trans (by rw [EncapState.pdu, ← hset]; rfl)

/-- One pass of the outer loop; the drain loop may make `bound` passes. -/
def encapStep (E : EncapConf σ ω) (bound : Nat) (event : EncapEvent) (s : EncapState σ ω) :
    Flow (EncapState σ ω) :=
  if s.alive ≠ 0 then .stop s
  else match event with
    | .timeout => .next s
    | .pselectFailed => .stop { s with alive := -1 }
    | .readable read =>
      match receiveFrame E read s with
      | .fault s => .fault s
      | .ignored s => .next s
      | .admitted d => (loop (drainBody E) bound d).leave Drain.env

def Admitted (E : EncapConf σ ω) (frame : List UInt8) (s : EncapState σ ω) : Prop :=
  ((s.afterRead E (s.stored E frame)).received E (s.pdu E frame)).1 = .ok

def EncapState.submitted (E : EncapConf σ ω) (s : EncapState σ ω) (frame : List UInt8) :
    EncapState σ ω :=
  (s.afterRead E (s.stored E frame)).afterReceive E (s.pdu E frame)

def EncapState.drainStart (E : EncapConf σ ω) (s : EncapState σ ω) (frame : List UInt8) :
    Drain σ ω :=
  ⟨{ s.submitted E frame with err := 0 }, s.pdu E frame, .status .ok, E.params.payloadLen⟩

theorem encapStep_of_laws {E : EncapConf σ ω} (hlib : VfragLaws E.lib) {frame : List UInt8}
    (bound : Nat) {s : EncapState σ ω} (halive : s.alive = 0) (hne : frame ≠ [])
    (hlen : frame.length ≤ E.params.bufferLen) (hmax : E.params.bufferLen ≤ GSE_MAX_PDU_LENGTH) :
    (¬Admitted E frame s ∧
      encapStep E bound (.readable (some frame)) s = .next (s.submitted E frame)) ∨
    (Admitted E frame s ∧ encapStep E bound (.readable (some frame)) s =
      (loop (drainBody E) bound (s.drainStart E frame)).leave Drain.env) := by
  have hread := receiveFrame_of_laws hlib s hne hlen hmax
  by_cases hok : Admitted E frame s
  · refine .inr ⟨hok, ?_⟩
    have hstatus : ((s.afterRead E (s.stored E frame)).received E (s.pdu E frame)).1 = .ok := hok
    have hsubmit : submitPdu E (s.pdu E frame) (s.afterRead E (s.stored E frame)) =
        .admitted (s.drainStart E frame) := by
      rw [submitPdu, if_neg (fun h => h hstatus), hstatus]
      rfl
    simp only [encapStep, if_neg (fun h : s.alive ≠ 0 => h halive), hread]
    rw [hsubmit]
  · refine .inl ⟨hok, ?_⟩
    have hsubmit : submitPdu E (s.pdu E frame) (s.afterRead E (s.stored E frame)) =
        .ignored (s.submitted E frame) := if_pos hok
    simp only [encapStep, if_neg (fun h : s.alive ≠ 0 => h halive), hread]
    rw [hsubmit]

theorem encapStep_of_admitted {E : EncapConf σ ω} (hlib : VfragLaws E.lib) {frame : List UInt8}
    (bound : Nat) {s : EncapState σ ω} (halive : s.alive = 0) (hne : frame ≠ [])
    (hlen : frame.length ≤ E.params.bufferLen) (hmax : E.params.bufferLen ≤ GSE_MAX_PDU_LENGTH)
    (hadmitted : Admitted E frame s) : encapStep E bound (.readable (some frame)) s =
      (loop (drainBody E) bound (s.drainStart E frame)).leave Drain.env := by
  rcases encapStep_of_laws hlib bound halive hne hlen hmax with ⟨hno, _⟩ | ⟨_, hstep⟩
  · exact absurd hadmitted hno
  · exact hstep

def processEncap (E : EncapConf σ ω) (bound : Nat) (events : List EncapEvent)
    (s : EncapState σ ω) : Flow (EncapState σ ω) :=
  feed (encapStep E bound) events s

def EncapState.init (lib : σ) (net : ω) (heap : Heap) : EncapState σ ω :=
  ⟨lib, net, heap, 0, 0, 0, []⟩

/-! ### Invariants of the log

A property of the counter and the log that each logged call keeps is kept by whole
runs, whatever libgse and the kernel do and however the run ends. -/

section Log

variable {I : UInt64 → List EncapCall → Prop}

theorem drain_log {E : EncapConf σ ω}
    (hget : ∀ c calls len status, I c calls → I c (calls ++ [.getPacket len status]))
    (hsend : ∀ c calls data ret, I c calls → I c (calls ++ [.writeUdp data ret]))
    (bound : Nat) {d : Drain σ ω} (h : I d.env.counter d.env.calls) :
    I (loop (drainBody E) bound d).state.env.counter
      (loop (drainBody E) bound d).state.env.calls := by
  refine loop_inv (fun d : Drain σ ω => I d.env.counter d.env.calls) ?_ bound h
  intro d hd
  have hafter : I (d.afterGet E).env.counter (d.afterGet E).env.calls := hget _ _ _ _ hd
  rcases drainBody_cases E d with ⟨_, hb⟩ | ⟨_, _, _, hb⟩ | ⟨_, _, hb⟩ | ⟨_, _, _, hb⟩ |
    ⟨_, _, heap, pkt, _, hb⟩
  · rw [hb]; exact hd
  · rw [hb]; exact hafter
  · rw [hb]; exact hafter
  · rw [hb]; exact hafter
  · rw [hb]
    obtain ⟨ret, hcalls, _⟩ := (d.afterGet E).send_calls E heap pkt
    rw [Flow.state_next, hcalls, Drain.send_counter]
    exact hsend _ _ _ _ hafter

theorem processEncap_log {E : EncapConf σ ω}
    (hpdu : ∀ c calls status, I c calls →
      I (c + 1) (calls ++ [.receivePdu (c + 1) (pduLabel (c + 1)) status]))
    (hget : ∀ c calls len status, I c calls → I c (calls ++ [.getPacket len status]))
    (hsend : ∀ c calls data ret, I c calls → I c (calls ++ [.writeUdp data ret]))
    (bound : Nat) (events : List EncapEvent) {s : EncapState σ ω} (h : I s.counter s.calls) :
    I (processEncap E bound events s).state.counter
      (processEncap E bound events s).state.calls := by
  refine feed_inv (fun s : EncapState σ ω => I s.counter s.calls) events ?_ h
  intro event _ s hs
  by_cases halive : s.alive ≠ 0
  · simp only [encapStep, if_pos halive]
    exact hs
  · simp only [encapStep, if_neg halive]
    cases event with
    | timeout => exact hs
    | pselectFailed => exact hs
    | readable read =>
      rcases receiveFrame_cases E read s with ⟨heap, hr⟩ | ⟨heap, hr⟩ |
        ⟨heap, pdu, _, hr⟩ | ⟨heap, pdu, _, hr⟩
      · simp only [hr]
        exact hs
      · simp only [hr]
        exact hs
      · simp only [hr]
        exact hpdu _ _ _ hs
      · simp only [hr, Flow.state_leave]
        exact drain_log hget hsend bound (hpdu _ _ _ hs)

end Log

end DvbGseTunnel
