import DvbGseTunnel.Reference.Packets
import DvbGseTunnel.Rust.Cutting
import DvbGseTunnel.Rust.DecapIsolation

/-!
# A reference for `dvb_gse_rust`

An encapsulator and a decapsulator that exchange the reference packets. The context of a
fragmented frame is the bytes still to be sent; the decapsulator keeps the fragments it
has received.
-/

namespace DvbGseTunnel.Rust

open Lib Reference

def packetResult (packet : Bytes) (context : Option Bytes) (buffer : Bytes) :
    EncapResult Unit Bytes :=
  ⟨some (.ofContext packet.length context), packet ++ buffer.drop packet.length, ()⟩

def referenceEncap : Encapsulator Unit Bytes where
  encap _ pdu _ _ label buffer :=
    if pdu.length + 10 ≤ buffer.length then
      packetResult (encode .complete (address label) pdu) none buffer
    else
      packetResult
        (encode .first (firstExtra label pdu) ((pdu ++ crc pdu).take (buffer.length - 13)))
        (some ((pdu ++ crc pdu).drop (buffer.length - 13))) buffer
  encapFrag _ _ stream buffer :=
    if stream.length + 3 ≤ buffer.length then packetResult (encode .last [0] stream) none buffer
    else packetResult (encode .middle [0] (stream.take (buffer.length - 3)))
      (some (stream.drop (buffer.length - 3))) buffer

theorem packetResult_wrote {packet buffer : Bytes} {context : Option Bytes}
    (h : packet.length ≤ buffer.length) :
    Wrote (packetResult packet context buffer) buffer packet context := ⟨rfl, rfl, h⟩

/-- The packets a context stands for. -/
def StreamRest (stream : Bytes) (_ : Bytes) (ps : List Bytes) : Prop :=
  ps = tailPackets GSE_MAX_PACKET_LENGTH stream

theorem streamRest_continues (stream frame : Bytes) :
    Continues StreamRest (some stream) frame (tailPackets GSE_MAX_PACKET_LENGTH stream) := by
  cases hps : tailPackets GSE_MAX_PACKET_LENGTH stream with
  | nil => exact absurd hps (tailPackets_ne_nil _ _)
  | cons p ps => exact ⟨stream, rfl, hps.symm⟩

abbrev rustSegmentation : Segmentation := segmentation GSE_MAX_PACKET_LENGTH (by decide)

theorem referenceEncap_cuts :
    CutLaws referenceEncap rustSegmentation (fun _ => True) StreamRest where
  capacity := rfl
  encap := by
    intro d frame label buffer _ hbuffer
    by_cases hwhole : frame.length + 10 ≤ GSE_MAX_PACKET_LENGTH
    · refine ⟨encode .complete (address label) frame, [], none, ⟨label, ?_⟩, ?_, rfl⟩
      · rw [packets, if_pos hwhole]
      · simp only [referenceEncap, hbuffer, if_pos hwhole]
        refine packetResult_wrote ?_
        rw [length_encode, length_address, hbuffer]
        omega
    · refine ⟨encode .first (firstExtra label frame)
          ((frame ++ crc frame).take (GSE_MAX_PACKET_LENGTH - 13)), _,
        some ((frame ++ crc frame).drop (GSE_MAX_PACKET_LENGTH - 13)), ⟨label, ?_⟩, ?_,
        streamRest_continues _ frame⟩
      · rw [packets, if_neg hwhole]
      · simp only [referenceEncap, hbuffer, if_neg hwhole]
        refine packetResult_wrote ?_
        rw [length_encode, length_firstExtra, hbuffer, List.length_take]
        have hmax : GSE_MAX_PACKET_LENGTH = 4097 := rfl
        omega
  encapFrag := by
    intro d frame stream p ps buffer hrest hbuffer
    have hps : p :: ps = tailPackets GSE_MAX_PACKET_LENGTH stream := hrest
    have hmax : GSE_MAX_PACKET_LENGTH = 4097 := rfl
    rw [tailPackets] at hps
    by_cases hlast : GSE_MAX_PACKET_LENGTH ≤ 3 ∨ stream.length + 3 ≤ GSE_MAX_PACKET_LENGTH
    · have hfits : stream.length + 3 ≤ GSE_MAX_PACKET_LENGTH := by omega
      rw [dif_pos hlast] at hps
      cases hps
      refine ⟨none, ?_, rfl⟩
      simp only [referenceEncap, hbuffer, if_pos hfits]
      refine packetResult_wrote ?_
      rw [length_encode, List.length_singleton, hbuffer]
      omega
    · have hlong : ¬stream.length + 3 ≤ GSE_MAX_PACKET_LENGTH := fun h => hlast (.inr h)
      rw [dif_neg hlast] at hps
      cases hps
      refine ⟨some (stream.drop (GSE_MAX_PACKET_LENGTH - 3)), ?_, streamRest_continues _ frame⟩
      simp only [referenceEncap, hbuffer, if_neg hlong]
      refine packetResult_wrote ?_
      rw [length_encode, List.length_singleton, hbuffer, List.length_take]
      omega

def referenceDecap : Decapsulator (Option Bytes) where
  decap fragments datagram :=
    match decode datagram with
    | none => (.error, fragments)
    | some p =>
      match absorb fragments p with
      | (some m, fragments) => (.completedPkt ⟨m, m.length, Nat.le_refl _⟩, fragments)
      | (none, fragments) => (.fragmentedPkt, fragments)
  provisionStorage fragments _ := some fragments

theorem referenceDecap_receive (fragments : Option Bytes) (datagram : Bytes) :
    referenceDecap.receive fragments datagram = Reference.receive fragments datagram := by
  rw [Decapsulator.receive, Reference.receive]
  cases hdecode : decode datagram with
  | none => simp only [referenceDecap, hdecode]; rfl
  | some p =>
    rcases habsorb : absorb fragments p with ⟨_ | m, next⟩
    · simp only [referenceDecap, hdecode, habsorb]
      rfl
    · simp only [referenceDecap, hdecode, habsorb, DecapStatus.frame?, CompletedPkt.frame,
        List.take_length]
      rfl

theorem referenceDecap_reassembles :
    Reassembles rustSegmentation referenceDecap.receive (· = none)
      (Awaits GSE_MAX_PACKET_LENGTH) := by
  have hreceive : referenceDecap.receive = Reference.receive := by
    funext fragments datagram
    exact referenceDecap_receive fragments datagram
  rw [hreceive]
  exact receive_reassembles (by decide)

def referenceEncapConf (payloadLen : Nat) : EncapConf Unit Bytes Unit where
  lib := referenceEncap
  send net _ := (true, net)
  payloadLen := payloadLen

def referenceDecapConf : DecapConf (Option Bytes) Unit where
  lib := referenceDecap
  tapSend host _ := (true, host)

theorem referenceEncapConf_sends (payloadLen : Nat) : (referenceEncapConf payloadLen).Sends :=
  fun _ _ => rfl

theorem referenceDecapConf_succeeds : referenceDecapConf.Succeeds :=
  ⟨fun _ _ => rfl, fun _ _ => nofun⟩

end DvbGseTunnel.Rust
