import DvbGseTunnel.Lib.Segmentation
import DvbGseTunnel.Rust.Common

/-!
# `satencap.rs`: the sending loop

`runtime` of the Rust `satencap`. The encapsulator of `dvb_gse_rust` is a
parameter: what its two functions answer, over an arbitrary type `σ` of states and
an arbitrary type `κ` of fragmentation contexts. The `payload` buffer is allocated
once and reused for all packets of all frames.
-/

namespace DvbGseTunnel.Rust

open Lib

def FRAG_ID : UInt8 := 0
def PROTOCOL : UInt16 := 9029

inductive EncapStatus (κ : Type) where
  | fragmentedPkt (len : UInt16) (context : κ)
  | completedPkt (len : UInt16)

/-- A call of the encapsulator: its result (`none` for an error), the buffer it
    was lent and its next state. -/
structure EncapResult (σ κ : Type) where
  status : Option (EncapStatus κ)
  buffer : List UInt8
  lib : σ

structure Encapsulator (σ κ : Type) where
  encap : σ → (pdu : List UInt8) → (fragId : UInt8) → (protocol : UInt16) → Label →
    (buffer : List UInt8) → EncapResult σ κ
  encapFrag : σ → (pdu : List UInt8) → κ → (buffer : List UInt8) → EncapResult σ κ

def pduLabel (counter : UInt64) : Label :=
  #v[((counter >>> 56) &&& 0xff).toUInt8, ((counter >>> 48) &&& 0xff).toUInt8,
    ((counter >>> 32) &&& 0xff).toUInt8, ((counter >>> 16) &&& 0xff).toUInt8,
    ((counter >>> 8) &&& 0xff).toUInt8, (counter &&& 0xff).toUInt8]

/-- What stays from one frame to the next. `pdus` logs the counter and the label
    of every PDU that reached the encapsulation, `sent` the datagrams. -/
structure EncapState (σ ω : Type) where
  lib : σ
  net : ω
  payload : List UInt8
  counter : UInt64
  pdus : List (UInt64 × Label)
  sent : List (List UInt8)
  panic : Option Panic

structure Sending (σ κ ω : Type) where
  env : EncapState σ ω
  buffer : List UInt8
  label : Label
  context : Option κ

/-- What `runtime` runs with: the encapsulator, the kernel's answers to `send`,
    and `payload_len` of the arguments. -/
structure EncapConf (σ κ ω : Type) where
  lib : Encapsulator σ κ
  send : ω → List UInt8 → Bool × ω
  payloadLen : Nat

variable {σ κ ω : Type}

def EncapConf.desiredLen (E : EncapConf σ κ ω) (payload : List UInt8) : Nat :=
  if E.payloadLen = 0 then payload.length else E.payloadLen

/-- The padding step: the buffer and the length of the datagram. -/
def padPayload (E : EncapConf σ κ ω) (payload : List UInt8) (len : Nat) :
    Option (List UInt8 × Nat) :=
  if len < E.desiredLen payload ∧ E.payloadLen ≠ 0 then
    match slice payload len with
    | none => none
    | some packet =>
      some (packet ++ List.replicate (payload.length - len) 0, E.desiredLen payload)
  else some (payload, len)

/-- The length of a packet and the context for the next one. -/
def EncapStatus.split : EncapStatus κ → Nat × Option κ
  | .fragmentedPkt len context => (len.toNat, some context)
  | .completedPkt len => (len.toNat, none)

def Sending.call (E : EncapConf σ κ ω) (d : Sending σ κ ω) : EncapResult σ κ :=
  match d.context with
  | some context => E.lib.encapFrag d.env.lib d.buffer context d.env.payload
  | none => E.lib.encap d.env.lib d.buffer FRAG_ID PROTOCOL d.label d.env.payload

def Sending.afterCall (E : EncapConf σ κ ω) (d : Sending σ κ ω) : Sending σ κ ω :=
  { d with env := { d.env with
      counter := d.env.counter + 1, lib := (d.call E).lib, payload := (d.call E).buffer } }

def Sending.panicked (d : Sending σ κ ω) (panic : Panic) : Sending σ κ ω :=
  { d with env := { d.env with panic := some panic } }

def Sending.afterSend (d : Sending σ κ ω) (payload : List UInt8) (net : ω) : Sending σ κ ω :=
  { d with env := { d.env with payload := payload, net := net } }

/-- A datagram was sent, and `context` is for the next packet. -/
def Sending.sentDatagram (d : Sending σ κ ω) (datagram : List UInt8) (context : Option κ) :
    Sending σ κ ω :=
  { d with env := { d.env with sent := d.env.sent ++ [datagram] }, context := context }

def sendBody (E : EncapConf σ κ ω) (d : Sending σ κ ω) : Flow (Sending σ κ ω) :=
  match (d.call E).status with
  | none => .fault ((d.afterCall E).panicked .unwrap)
  | some status =>
    match padPayload E (d.call E).buffer status.split.1 with
    | none => .fault ((d.afterCall E).panicked .index)
    | some (payload, payloadLen) =>
      match slice payload payloadLen with
      | none => .fault (((d.afterCall E).afterSend payload d.env.net).panicked .index)
      | some datagram =>
        let (sent, net) := E.send d.env.net datagram
        let d' := (d.afterCall E).afterSend payload net
        if sent = false then .fault (d'.panicked .unwrap)
        else if status.split.2.isNone then .stop (d'.sentDatagram datagram none)
        else .next (d'.sentDatagram datagram status.split.2)

def Sending.start (frame : List UInt8) (s : EncapState σ ω) : Sending σ κ ω :=
  { env := { s with pdus := s.pdus ++ [(s.counter, pduLabel s.counter)] }
    buffer := frame.take GSE_MAX_PDU_LEN
    label := pduLabel s.counter
    context := none }

/-- Everything a pass of the inner loop can do: panic without sending, or send one
    datagram, of a packet written by the encapsulator, and go on exactly if there is
    a context. -/
theorem sendBody_cases (E : EncapConf σ κ ω) (d : Sending σ κ ω) :
    (∃ payload net panic,
      sendBody E d = .fault (((d.afterCall E).afterSend payload net).panicked panic)) ∨
    (∃ status payload len datagram net, (d.call E).status = some status ∧
      padPayload E (d.call E).buffer status.split.1 = some (payload, len) ∧
      slice payload len = some datagram ∧
      (status.split.2 = none ∧ sendBody E d =
          .stop (((d.afterCall E).afterSend payload net).sentDatagram datagram none) ∨
        status.split.2 ≠ none ∧ sendBody E d =
          .next (((d.afterCall E).afterSend payload net).sentDatagram datagram
            status.split.2))) := by
  cases hstatus : (d.call E).status with
  | none =>
    exact .inl ⟨(d.call E).buffer, d.env.net, .unwrap, by simp only [sendBody, hstatus]; rfl⟩
  | some status =>
    cases hpad : padPayload E (d.call E).buffer status.split.1 with
    | none =>
      exact .inl ⟨(d.call E).buffer, d.env.net, .index,
        by simp only [sendBody, hstatus, hpad]; rfl⟩
    | some p =>
      cases hslice : slice p.1 p.2 with
      | none =>
        exact .inl ⟨p.1, d.env.net, .index, by simp only [sendBody, hstatus, hpad, hslice]⟩
      | some datagram =>
        by_cases hsent : (E.send d.env.net datagram).1 = false
        · exact .inl ⟨p.1, (E.send d.env.net datagram).2, .unwrap,
            by simp only [sendBody, hstatus, hpad, hslice, if_pos hsent]⟩
        · refine .inr ⟨status, p.1, p.2, datagram, (E.send d.env.net datagram).2, rfl, hpad,
            hslice, ?_⟩
          cases hcontext : status.split.2 with
          | none =>
            exact .inl ⟨rfl, by
              simp only [sendBody, hstatus, hpad, hslice, if_neg hsent, hcontext,
                Option.isNone_none, if_true]⟩
          | some context =>
            refine .inr ⟨nofun, ?_⟩
            simp only [sendBody, hstatus, hpad, hslice, if_neg hsent, hcontext,
              Option.isNone_some, Bool.false_eq_true, if_false]

def EncapStatus.ofContext (len : Nat) : Option κ → EncapStatus κ
  | none => .completedPkt (UInt16.ofNat len)
  | some context => .fragmentedPkt (UInt16.ofNat len) context

theorem EncapStatus.split_ofContext {len : Nat} (h : len < 2 ^ 16) (context : Option κ) :
    (EncapStatus.ofContext len context).split = (len, context) := by
  have hlen : (UInt16.ofNat len).toNat = len := by
    rw [UInt16.toNat_ofNat', Nat.mod_eq_of_lt h]
  cases context <;> simp only [EncapStatus.ofContext, EncapStatus.split, hlen]

/-- The call wrote this packet at the start of the buffer it was lent, with a context
    unless the frame is complete. -/
structure Wrote (r : EncapResult σ κ) (buffer packet : List UInt8) (context : Option κ) :
    Prop where
  status : r.status = some (.ofContext packet.length context)
  bytes : r.buffer = packet ++ buffer.drop packet.length
  le : packet.length ≤ buffer.length

/-- The bytes that leave the payload buffer after a packet was written in it. -/
theorem padPayload_of_wrote {E : EncapConf σ κ ω} {r : EncapResult σ κ}
    {buffer packet : List UInt8} {context : Option κ} (h : Wrote r buffer packet context)
    (hlen : E.payloadLen ≤ buffer.length) :
    ∃ payload len, padPayload E r.buffer packet.length = some (payload, len) ∧
      payload.length = buffer.length ∧
      slice payload len = some (padTo E.payloadLen packet) := by
  have hle := h.le
  have htotal : r.buffer.length = buffer.length := by
    rw [h.bytes, List.length_append, List.length_drop]
    omega
  have htake : r.buffer.take packet.length = packet := by rw [h.bytes, List.take_left]
  by_cases hpad : packet.length < E.payloadLen ∧ E.payloadLen ≠ 0
  · have hdesired : E.desiredLen r.buffer = E.payloadLen := if_neg hpad.2
    refine ⟨packet ++ List.replicate (buffer.length - packet.length) 0, E.payloadLen, ?_, ?_, ?_⟩
    · rw [padPayload, hdesired, if_pos hpad, slice_eq_some (by omega), htake, htotal]
    · rw [List.length_append, List.length_replicate]
      omega
    · rw [slice_eq_some (by rw [List.length_append, List.length_replicate]; omega),
        List.take_append, List.take_of_length_le (by omega), List.take_replicate, padTo]
      congr 3
      omega
  · have hkeep : ¬(packet.length < E.desiredLen r.buffer ∧ E.payloadLen ≠ 0) := by
      rintro ⟨hlt, hne⟩
      rw [EncapConf.desiredLen, if_neg hne] at hlt
      exact hpad ⟨hlt, hne⟩
    refine ⟨r.buffer, packet.length, if_neg hkeep, htotal, ?_⟩
    rw [slice_eq_some (by omega), htake, padTo_of_le (by omega)]

theorem padPayload_panics {E : EncapConf σ κ ω} {r : EncapResult σ κ}
    {buffer packet : List UInt8} {context : Option κ} (h : Wrote r buffer packet context)
    (hlen : buffer.length < E.payloadLen) :
    ∃ payload len, padPayload E r.buffer packet.length = some (payload, len) ∧
      slice payload len = none := by
  have hle := h.le
  have hne : E.payloadLen ≠ 0 := by omega
  have hdesired : E.desiredLen r.buffer = E.payloadLen := if_neg hne
  have htotal : r.buffer.length = buffer.length := by
    rw [h.bytes, List.length_append, List.length_drop]
    omega
  refine ⟨(r.buffer.take packet.length) ++
    List.replicate (r.buffer.length - packet.length) 0, E.payloadLen, ?_, ?_⟩
  · rw [padPayload, hdesired, if_pos ⟨by omega, hne⟩, slice_eq_some (by omega)]
  · refine slice_eq_none ?_
    rw [List.length_append, List.length_replicate, List.length_take]
    omega

/-- A pass in which the encapsulator writes a packet and the payload length is within
    the buffer: the packet is sent, padded. -/
theorem sendBody_of_wrote {E : EncapConf σ κ ω} {d : Sending σ κ ω} {packet : List UInt8}
    {context : Option κ} (h : Wrote (d.call E) d.env.payload packet context)
    (hsmall : d.env.payload.length < 2 ^ 16) (hlen : E.payloadLen ≤ d.env.payload.length) :
    ∃ payload, payload.length = d.env.payload.length ∧
      let net := (E.send d.env.net (padTo E.payloadLen packet)).2
      let d' := (d.afterCall E).afterSend payload net
      ((E.send d.env.net (padTo E.payloadLen packet)).1 = false ∧
        sendBody E d = .fault (d'.panicked .unwrap)) ∨
      ((E.send d.env.net (padTo E.payloadLen packet)).1 = true ∧ context = none ∧
        sendBody E d = .stop (d'.sentDatagram (padTo E.payloadLen packet) none)) ∨
      ((E.send d.env.net (padTo E.payloadLen packet)).1 = true ∧ context ≠ none ∧
        sendBody E d = .next (d'.sentDatagram (padTo E.payloadLen packet) context)) := by
  have hsplit : (EncapStatus.ofContext packet.length context).split = (packet.length, context) :=
    EncapStatus.split_ofContext (Nat.lt_of_le_of_lt h.le hsmall) context
  obtain ⟨payload, len, hpad, hpayload, hslice⟩ := padPayload_of_wrote h hlen
  refine ⟨payload, hpayload, ?_⟩
  intro net d'
  cases hsent : (E.send d.env.net (padTo E.payloadLen packet)).1 with
  | false =>
    refine .inl ⟨rfl, ?_⟩
    simp only [sendBody, h.status, hsplit, hpad, hslice, hsent, if_true]
    rfl
  | true =>
    cases context with
    | none =>
      refine .inr (.inl ⟨rfl, rfl, ?_⟩)
      simp only [sendBody, h.status, hsplit, hpad, hslice, hsent, Bool.true_eq_false, if_false,
        Option.isNone_none, if_true]
      rfl
    | some context =>
      refine .inr (.inr ⟨rfl, nofun, ?_⟩)
      simp only [sendBody, h.status, hsplit, hpad, hslice, hsent, Bool.true_eq_false, if_false,
        Option.isNone_some]
      rfl

theorem sendBody_panics {E : EncapConf σ κ ω} {d : Sending σ κ ω} {packet : List UInt8}
    {context : Option κ} (h : Wrote (d.call E) d.env.payload packet context)
    (hsmall : d.env.payload.length < 2 ^ 16) (hlen : d.env.payload.length < E.payloadLen) :
    ∃ t, sendBody E d = .fault t ∧ t.env.panic = some .index := by
  have hsplit : (EncapStatus.ofContext packet.length context).split = (packet.length, context) :=
    EncapStatus.split_ofContext (Nat.lt_of_le_of_lt h.le hsmall) context
  obtain ⟨payload, len, hpad, hslice⟩ := padPayload_panics h hlen
  refine ⟨((d.afterCall E).afterSend payload d.env.net).panicked .index, ?_, rfl⟩
  simp only [sendBody, h.status, hsplit, hpad, hslice]

/-- One pass of the outer loop: `recv` on the TAP interface gives a frame, cut to
    the size of the buffer, or fails. The inner loop may make `bound` passes. -/
def encapStep (E : EncapConf σ κ ω) (bound : Nat) (recv : Option (List UInt8))
    (s : EncapState σ ω) : Flow (EncapState σ ω) :=
  match recv with
  | none => .fault { s with panic := some .unwrap }
  | some frame => (loop (sendBody E) bound (Sending.start frame s)).leave Sending.env

def runtimeEncap (E : EncapConf σ κ ω) (bound : Nat) (frames : List (Option (List UInt8)))
    (s : EncapState σ ω) : Flow (EncapState σ ω) :=
  feed (encapStep E bound) frames s

def EncapState.init (lib : σ) (net : ω) : EncapState σ ω :=
  ⟨lib, net, List.replicate GSE_MAX_PACKET_LENGTH 0, 1, [], [], none⟩

end DvbGseTunnel.Rust
