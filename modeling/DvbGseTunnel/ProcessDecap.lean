import DvbGseTunnel.Lib.Loop
import DvbGseTunnel.Params

/-!
# The loop of `process_decap`

`process_decap.c`: the outer loop over the datagrams of the UDP socket and the
inner loop that walks one datagram packet by packet. The stop signals are added in
`StopSignals`.

`gse_length` and the receive buffer live outside the outer loop, as in the
source, so a pass finds in them what the pass before left there.
-/

namespace DvbGseTunnel

open Lib

def DATA_RECEIVED_SIZE : Nat := GSE_MAX_PACKET_LENGTH + 2

/-- What stays from one pass of the outer loop to the next. `windows` logs the
    data presented to `gse_deencap_packet`, `tap` the frames handed to
    `write_tap`. -/
structure DecapState (δ : Type) where
  lib : δ
  dataReceived : Buffer
  lenReceived : Nat
  gseLength : UInt16
  alive : Int
  windows : List (List UInt8)
  tap : List (List UInt8)

structure Walk (δ : Type) where
  env : DecapState δ
  lenDecapsulated : Nat

variable {δ : Type}

/-- The bytes of the datagram not yet decapsulated. -/
def Walk.window (w : Walk δ) : List UInt8 :=
  w.env.dataReceived.read w.lenDecapsulated (w.env.lenReceived - w.lenDecapsulated)

/-- The call of `gse_create_vfrag_with_data`. -/
def Walk.created (D : Decapsulator δ) (w : Walk δ) : CreatedWithData δ :=
  D.gseCreateVfragWithData w.env.lib w.window

def Walk.deencap (D : Decapsulator δ) (w : Walk δ) : Deencap δ :=
  D.gseDeencapPacket (w.created D).lib (w.created D).data

def Walk.gseLength (D : Decapsulator δ) (w : Walk δ) : UInt16 :=
  (w.deencap D).gseLength.getD w.env.gseLength

/-- After the two calls and the addition to `len_decapsulated`. -/
def Walk.afterDeencap (D : Decapsulator δ) (w : Walk δ) : Walk δ :=
  { env := { w.env with
      lib := (w.deencap D).lib
      gseLength := w.gseLength D
      alive := if (w.created D).status ≠ .ok then -1 else w.env.alive
      windows := w.env.windows ++ [(w.created D).data] }
    lenDecapsulated := w.lenDecapsulated + (w.gseLength D).toNat }

/-- After the call of `write_tap`, whose result is not looked at. -/
def Walk.deliver (w : Walk δ) (pdu : List UInt8) : Walk δ :=
  { w with env := { w.env with tap := w.env.tap ++ [pdu] } }

def Walk.running (w : Walk δ) : Prop :=
  w.lenDecapsulated < w.env.lenReceived ∧ w.env.alive = 0

instance Walk.decidableRunning (w : Walk δ) : Decidable w.running :=
  inferInstanceAs (Decidable (_ ∧ _))

/-- One pass of the inner loop. The statuses that only print a message take no
    branch here. -/
def decapBody (D : Decapsulator δ) (w : Walk δ) : Flow (Walk δ) :=
  if w.running then
    if (w.deencap D).status = .paddingDetected then .stop (w.afterDeencap D)
    else if (w.deencap D).status = .pduReceived then
      .next ((w.afterDeencap D).deliver (w.deencap D).pdu)
    else .next (w.afterDeencap D)
  else .stop w

def Walk.advance (D : Decapsulator δ) (w : Walk δ) : Walk δ :=
  if (w.deencap D).status = .pduReceived then (w.afterDeencap D).deliver (w.deencap D).pdu
  else w.afterDeencap D

/-- Everything a pass of the inner loop can do. -/
theorem decapBody_cases (D : Decapsulator δ) (w : Walk δ) :
    (¬w.running ∧ decapBody D w = .stop w) ∨
    (w.running ∧ (w.deencap D).status = .paddingDetected ∧
      decapBody D w = .stop (w.afterDeencap D)) ∨
    (w.running ∧ (w.deencap D).status ≠ .paddingDetected ∧
      decapBody D w = .next (w.advance D)) := by
  by_cases hrun : w.running
  · by_cases hpad : (w.deencap D).status = .paddingDetected
    · exact .inr (.inl ⟨hrun, hpad, by simp only [decapBody, if_pos hrun, if_pos hpad]⟩)
    · refine .inr (.inr ⟨hrun, hpad, ?_⟩)
      simp only [decapBody, if_pos hrun, if_neg hpad, Walk.advance]
      split <;> rfl
  · exact .inl ⟨hrun, by simp only [decapBody, if_neg hrun]⟩

theorem Walk.advance_eq (D : Decapsulator δ) (w : Walk δ) :
    ∃ tap, w.advance D =
      { w.afterDeencap D with env := { (w.afterDeencap D).env with tap := tap } } := by
  rw [Walk.advance]
  split
  · exact ⟨w.env.tap ++ [(w.deencap D).pdu], rfl⟩
  · exact ⟨w.env.tap, rfl⟩

/-- What a pass of the outer loop meets. The socket is the only descriptor
    watched, so it is readable whenever `pselect` returns a positive number. -/
inductive DecapEvent where
  | timeout
  | pselectFailed
  | readable (recvfrom : Option (UdpAddr × List UInt8))
deriving DecidableEq, Repr

/-- One pass of the outer loop; the inner loop may make `bound` passes. -/
def decapStep (D : Decapsulator δ) (params : ProcessDecapParams) (bound : Nat)
    (event : DecapEvent) (s : DecapState δ) : Flow (DecapState δ) :=
  if s.alive ≠ 0 then .stop s
  else match event with
    | .timeout => .next s
    | .pselectFailed => .stop { s with alive := -1 }
    | .readable recvfrom =>
      match readUdp recvfrom params.remote (sizeT params.payloadLen) s.dataReceived
          s.lenReceived with
      | none => .fault s
      | some r =>
        let s := { s with dataReceived := r.buffer, lenReceived := r.len }
        if r.ret < 0 then .stop { s with alive := -1 }
        else if 0 < r.ret ∨ r.len = 0 then .next s
        else (loop (decapBody D) bound ⟨s, 0⟩).leave Walk.env

theorem decapStep_of_fits (D : Decapsulator δ) (params : ProcessDecapParams) (bound : Nat)
    {datagram : List UInt8} {s : DecapState δ} (halive : s.alive = 0)
    (hne : datagram.take (sizeT params.payloadLen) ≠ [])
    (hfits : (datagram.take (sizeT params.payloadLen)).length ≤ s.dataReceived.size) :
    let data := datagram.take (sizeT params.payloadLen)
    decapStep D params bound (.readable (some (params.remote, datagram))) s =
      (loop (decapBody D) bound
        ⟨{ s with
            dataReceived := s.dataReceived.overlay 0 data.length fun i => data.getD i 0
            lenReceived := data.length }, 0⟩).leave Walk.env := by
  intro data
  have hlen : data.length ≠ 0 := fun h => hne (List.length_eq_zero_iff.mp h)
  have hwrite : s.dataReceived.write 0 data = some _ :=
    Buffer.write_eq_some (by rw [Nat.zero_add]; exact hfits)
  have hread : readUdp (some (params.remote, datagram)) params.remote
      (sizeT params.payloadLen) s.dataReceived s.lenReceived =
      some ⟨0, s.dataReceived.overlay 0 data.length fun i => data.getD i 0, data.length⟩ := by
    rw [readUdp, hwrite]
    simp [data]
  simp only [decapStep, if_neg (fun h : s.alive ≠ 0 => h halive), hread, Int.lt_irrefl,
    if_false, false_or, if_neg hlen]

/-- A datagram, from whatever address, that does not fit the buffer is stored past its
    end. -/
theorem decapStep_of_overflow (D : Decapsulator δ) (params : ProcessDecapParams) (bound : Nat)
    {addr : UdpAddr} {datagram : List UInt8} {s : DecapState δ} (halive : s.alive = 0)
    (hover : s.dataReceived.size < (datagram.take (sizeT params.payloadLen)).length) :
    decapStep D params bound (.readable (some (addr, datagram))) s = .fault s := by
  have hread : readUdp (some (addr, datagram)) params.remote (sizeT params.payloadLen)
      s.dataReceived s.lenReceived = none := by
    rw [readUdp_eq_none]
    simpa using hover
  simp only [decapStep, if_neg (fun h : s.alive ≠ 0 => h halive), hread]

/-- A datagram from elsewhere, or an empty one, that fits the buffer is dropped; it
    leaves its bytes in the buffer. -/
theorem decapStep_of_dropped (D : Decapsulator δ) (params : ProcessDecapParams) (bound : Nat)
    {addr : UdpAddr} {datagram : List UInt8} {s : DecapState δ} (halive : s.alive = 0)
    (hdrop : addr ≠ params.remote ∨ datagram.take (sizeT params.payloadLen) = [])
    (hfits : (datagram.take (sizeT params.payloadLen)).length ≤ s.dataReceived.size) :
    ∃ buffer, buffer.size = s.dataReceived.size ∧
      decapStep D params bound (.readable (some (addr, datagram))) s =
        .next { s with dataReceived := buffer, lenReceived := 0 } := by
  obtain ⟨buffer, hwrite, hsize⟩ : ∃ buffer,
      s.dataReceived.write 0 (datagram.take (sizeT params.payloadLen)) = some buffer ∧
      buffer.size = s.dataReceived.size :=
    ⟨_, Buffer.write_eq_some (by rw [Nat.zero_add]; exact hfits), rfl⟩
  refine ⟨buffer, hsize, ?_⟩
  by_cases haddr : addr = params.remote
  · have hempty : (datagram.take (sizeT params.payloadLen)).length = 0 := by
      rcases hdrop with hne | h
      · exact absurd haddr hne
      · rw [h]; rfl
    simp [decapStep, halive, readUdp, hwrite, haddr, hempty]
  · have hother : addr.addr ≠ params.remote.addr ∨ addr.port ≠ params.remote.port := by
      by_contra hsame
      rw [not_or, not_not, not_not] at hsame
      exact haddr (by cases addr; cases hr : params.remote; simp_all)
    simp [decapStep, halive, readUdp, hwrite, hother]

def processDecap (D : Decapsulator δ) (params : ProcessDecapParams) (bound : Nat)
    (events : List DecapEvent) (s : DecapState δ) : Flow (DecapState δ) :=
  feed (decapStep D params bound) events s

/-- The state the loop starts in: `bytes` and `gseLength` are whatever the
    allocated buffer and the uninitialised variable hold. -/
def DecapState.init (lib : δ) (bytes : Nat → UInt8) (gseLength : UInt16) : DecapState δ :=
  ⟨lib, ⟨DATA_RECEIVED_SIZE, bytes⟩, 0, gseLength, 0, [], []⟩

/-- Waiting for an event: `alive` is 0, and the buffer has its size. -/
def Waiting (s : DecapState δ) : Prop :=
  s.alive = 0 ∧ s.dataReceived.size = DATA_RECEIVED_SIZE

end DvbGseTunnel
