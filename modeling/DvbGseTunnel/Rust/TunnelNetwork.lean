import DvbGseTunnel.Rust.Emission
import DvbGseTunnel.Rust.Tunnel
import DvbGseTunnel.TunnelNetwork

/-!
# The Rust programs over UDP

The Rust `satdecap` leaves its loop at the first packet that completes no frame. So what it
delivers, of a Rust or a C sender, is what arrives up to the first packet of a frame of
several, whatever UDP does (`rust_tunnel_delivers`, `rust_receiver_of_c_sender`). The Rust
`satencap` has no such limit: with the C `process_decap` as its receiver, the frames of
several packets come through as well (`c_receiver_of_rust_sender`).
-/

namespace DvbGseTunnel.Rust

open Lib Reference

variable {σ κ ω δ ω' ι : Type}

/-! ### The receiver -/

/-- What `dvb_gse_rust` documents about a decapsulator between two frames: a packet says
    itself where it ends, and a fragment completes no frame. -/
structure DecapLaws (L : Decapsulator δ) (S : Segmentation) (Ready : δ → Prop)
    (Awaits : δ → List Bytes → Bytes → Prop) : Prop where
  reassembles : Reassembles S L.receive Ready Awaits
  padded : ∀ {d p} n, Ready d → S.IsPacket p →
    L.receive d (p ++ List.replicate n 0) = L.receive d p
  fragment : ∀ {d m ps p}, Ready d → S.Cut m ps → p ∈ ps → ps.length ≠ 1 →
    (L.receive d p).1 = none

section

variable {D : DecapConf δ ω'} {S : Segmentation} {Ready : δ → Prop}
  {Awaits : δ → List Bytes → Bytes → Prop}

/-- One datagram: the frame whose only packet it carries, or the end of the loop. -/
theorem decapStep_answers (hD : D.Succeeds) (h : DecapLaws D.lib S Ready Awaits)
    (hcapacity : S.capacity ≤ GSE_MAX_PACKET_LENGTH) {len : Nat}
    (hlen : len ≤ GSE_MAX_PACKET_LENGTH) {P : Parties ι σ (Option Bytes) (DecapState δ ω') Bytes}
    (hrecv : P.recv = decapStep D) (hevent : P.event = some) {log : List (Option Bytes)}
    {frames : List Bytes} {pss : List (List Bytes)} (hcuts : List.Forall₂ S.Cut frames pss)
    (hemits : Emits (S.CarriesPadded len) pss.flatten log) :
    Answers P log (S.whole frames) (fun t => Ready t.lib) DecapState.tap := by
  -- what the decapsulator makes of a datagram is what it makes of its packet
  have hpacket : ∀ {s : DecapState δ ω'} {n : Nat} {d : Bytes}, Ready s.lib →
      log[n]? = some (some d) → ∃ p, pss.flatten[n]? = some p ∧
        D.lib.receive s.lib (d.take GSE_MAX_PACKET_LENGTH) = D.lib.receive s.lib p := by
    intro s n d hready hsent
    obtain ⟨p, hp, hisPacket, rfl⟩ := hemits n d hsent
    obtain ⟨_, hle⟩ := hisPacket.length_le
    have hfits : (padTo len p).length ≤ GSE_MAX_PACKET_LENGTH := by
      rw [padTo, List.length_append, List.length_replicate]
      omega
    refine ⟨p, hp, ?_⟩
    rw [List.take_of_length_le hfits]
    exact h.padded _ hready hisPacket
  refine ⟨?_, ?_⟩
  · intro s n d frame hready hsent hwhole
    obtain ⟨p, hp, hreceive⟩ := hpacket hready hsent
    rcases Segmentation.whole_cases hcuts hp with ⟨m, hcut, hm⟩ | ⟨_, _, _, _, _, hnone⟩
    · obtain rfl : m = frame := Option.some.inj (hm.symm.trans hwhole)
      obtain ⟨hframe, hnext⟩ := h.reassembles.done (h.reassembles.start hready hcut)
      rw [← hreceive] at hframe hnext
      obtain ⟨pkt, hpkt, rfl⟩ := DecapStatus.frame?_eq_some hframe
      obtain ⟨host, hstep⟩ := decapStep_of_completed hD hpkt
      refine ⟨{ s with
        lib := D.lib.recycle (D.lib.decap s.lib (d.take GSE_MAX_PACKET_LENGTH))
        host := host
        tap := s.tap ++ [pkt.frame] }, ?_, hnext, rfl⟩
      rw [hrecv, hevent]
      exact hstep
    · rw [hwhole] at hnone
      cases hnone
  · intro s n d hready hsent hnone
    obtain ⟨p, hp, hreceive⟩ := hpacket hready hsent
    rcases Segmentation.whole_cases hcuts hp with ⟨m, _, hm⟩ | ⟨m, ps, hcut, hmem, hseveral, _⟩
    · rw [hnone] at hm
      cases hm
    · have hincomplete := h.fragment hready hcut hmem hseveral
      rw [← hreceive] at hincomplete
      obtain ⟨lib, hstep⟩ := decapStep_of_not_completed hincomplete
      refine ⟨{ s with lib := lib }, ?_, rfl⟩
      rw [hrecv, hevent]
      exact hstep

end

theorem referenceDecap_laws :
    DecapLaws referenceDecap rustSegmentation (· = none) (Awaits GSE_MAX_PACKET_LENGTH) where
  reassembles := referenceDecap_reassembles
  padded := by
    intro d p n _ hp
    rw [referenceDecap_receive, referenceDecap_receive]
    exact receive_padded (isPacket_of_segmentation (by decide) hp) d _
  fragment := by
    rintro _ m ps p rfl hcut hp hseveral
    rw [referenceDecap_receive]
    exact receive_fragment (by decide) hcut hp hseveral

/-! ### The Rust tunnel -/

def rustParties (E : EncapConf σ κ ω) (D : DecapConf δ ω') (bound : Nat) :
    Parties (Option Bytes) (EncapState σ ω) (Option Bytes) (DecapState δ ω') Bytes where
  send := encapStep E bound
  sent s := s.sent.map some
  recv := decapStep D
  event := some

theorem rustParties_appends (E : EncapConf σ κ ω) (D : DecapConf δ ω') (bound : Nat) :
    (rustParties E D bound).Appends :=
  fun event s => (encapStep_sent E bound event s).map some

/-- With enough passes for each frame, the receiver answers whatever is sent. -/
theorem rustParties_answers {E : EncapConf σ κ ω} (hlen : E.payloadLen ≤ GSE_MAX_PACKET_LENGTH)
    {S : Segmentation} {Accepts : Bytes → Prop} {Rest : κ → Bytes → List Bytes → Prop}
    (hE : CutLaws E.lib S Accepts Rest) {D : DecapConf δ ω'} (hD : D.Succeeds) {Ready : δ → Prop}
    {Awaits : δ → List Bytes → Bytes → Prop} (hlib : DecapLaws D.lib S Ready Awaits)
    {events : List (Option Bytes)}
    (haccepts : ∀ frame ∈ framesReceived GSE_MAX_PDU_LEN events, Accepts frame) (lib : σ)
    (net : ω) :
    ∃ passes, ∀ bound ≥ passes, Answers (rustParties E D bound)
      ((runtimeEncap E bound events (.init lib net)).state.sent.map some)
      (S.whole (framesReceived GSE_MAX_PDU_LEN events)) (fun t => Ready t.lib) DecapState.tap := by
  obtain ⟨most, hmost⟩ := S.exists_packets_le (framesReceived GSE_MAX_PDU_LEN events)
  refine ⟨most, fun bound hbound => ?_⟩
  obtain ⟨pss, hcuts, hemits⟩ := runtimeEncap_emits hE hlen bound
    (fun frame hframe => ⟨haccepts frame hframe, Nat.le_trans (hmost frame hframe) hbound⟩) lib net
  exact decapStep_answers hD hlib (Nat.le_of_eq hE.capacity) hlen rfl rfl hcuts hemits

/-- **The Rust tunnel over UDP.** Whatever UDP loses, doubles and reorders, the receiver
    delivers the frames of the datagrams that arrive, in their order of arrival, up to the
    first packet of a frame of several packets; with that packet it has left its loop. -/
theorem rust_tunnel_delivers (E : EncapConf σ κ ω) (hlen : E.payloadLen ≤ GSE_MAX_PACKET_LENGTH)
    (S : Segmentation) (Accepts : Bytes → Prop) (Rest : κ → Bytes → List Bytes → Prop)
    (hE : CutLaws E.lib S Accepts Rest) (D : DecapConf δ ω') (hD : D.Succeeds) (Ready : δ → Prop)
    (Awaits : δ → List Bytes → Bytes → Prop) (hlib : DecapLaws D.lib S Ready Awaits)
    (moves : List (Move (Option Bytes) (Option Bytes)))
    (haccepts : ∀ frame ∈ framesReceived GSE_MAX_PDU_LEN (senderEvents moves), Accepts frame)
    (hown : ∀ event, Move.receiver event ∉ moves) (lib : σ) (net : ω) (dlib : δ) (host : ω')
    (hready : Ready dlib) :
    ∃ passes, ∀ bound ≥ passes,
      let run := (rustParties E D bound).run moves (.start (.init lib net) (.init dlib host))
      let whole := S.whole (framesReceived GSE_MAX_PDU_LEN (senderEvents moves))
      ∃ t, t.tap = untilNone (run.arrivals.map whole) ∧
        (run.receiver = .next t ∧ (∀ n ∈ run.arrivals, whole n ≠ none) ∨
          run.receiver = .stop t ∧ ∃ n ∈ run.arrivals, whole n = none) := by
  obtain ⟨passes, hanswers⟩ := rustParties_answers hlen hE hD hlib haccepts lib net
  refine ⟨passes, fun bound hbound => ?_⟩
  exact Parties.run_answers (P := rustParties E D bound) (rustParties_appends E D bound) moves hown
    (s := .init lib net) (t := .init dlib host) hready (hanswers bound hbound)

/-- The frame of two packets ends the run, though the last one arrives again after it. -/
def severalMoves : List (Move (Option Bytes) (Option Bytes)) :=
  [.sender (some [5]), .sender (some (List.replicate 5000 0)), .sender (some [7]), .arrive 3,
    .arrive 0, .arrive 1, .arrive 3]

theorem rust_tunnel_delivers_several : ∃ passes, ∀ bound ≥ passes,
    let run := (rustParties (referenceEncapConf 0) referenceDecapConf bound).run severalMoves
      (.start (.init () ()) (.init none ()))
    let whole := rustSegmentation.whole [[5], List.replicate 5000 0, [7]]
    ∃ t, t.tap = untilNone (run.arrivals.map whole) ∧
      (run.receiver = .next t ∧ (∀ n ∈ run.arrivals, whole n ≠ none) ∨
        run.receiver = .stop t ∧ ∃ n ∈ run.arrivals, whole n = none) := by
  have hframes : framesReceived GSE_MAX_PDU_LEN (senderEvents severalMoves) =
      [[5], List.replicate 5000 0, [7]] := by
    have hlong :
        (List.replicate 5000 (0 : UInt8)).take GSE_MAX_PDU_LEN = List.replicate 5000 0 := by
      rw [List.take_replicate]
      rfl
    change [_, (List.replicate 5000 (0 : UInt8)).take GSE_MAX_PDU_LEN, _] = _
    rw [hlong]
    rfl
  rw [← hframes]
  exact rust_tunnel_delivers (referenceEncapConf 0) (Nat.zero_le _) rustSegmentation _ StreamRest
    referenceEncap_cuts referenceDecapConf referenceDecapConf_succeeds _ _ referenceDecap_laws
    severalMoves (fun _ _ => trivial) (by
      simp only [severalMoves, List.mem_cons, List.not_mem_nil, reduceCtorEq, or_self,
        not_false_eq_true, implies_true]) () () none () rfl

/-! ### A C sender -/

def cSenderParties (E : DvbGseTunnel.EncapConf σ ω) (D : DecapConf δ ω') (bound : Nat) :
    Parties EncapEvent (DvbGseTunnel.EncapState σ ω) (Option Bytes) (DecapState δ ω') Bytes where
  send := DvbGseTunnel.encapStep E bound
  sent s := attempts s.calls
  recv := decapStep D
  event := some

/-- **The Rust receiver of a C sender.** The same holds of the padded datagrams of
    `process_encap`. -/
theorem rust_receiver_of_c_sender (E : DvbGseTunnel.EncapConf σ ω) (S : Segmentation)
    (crcLength : Nat) (Empty : σ → Prop) (Holds : σ → Heap → Queued → Prop)
    (hE : SenderLaws E S crcLength Empty Holds) (D : DecapConf δ ω') (hD : D.Succeeds)
    (Ready : δ → Prop) (Awaits : δ → List Bytes → Bytes → Prop)
    (hlib : DecapLaws D.lib S Ready Awaits) (moves : List (Move EncapEvent (Option Bytes)))
    (hfits : ∀ frame ∈ framesRead (sizeT E.params.bufferLen) (senderEvents moves),
      FrameFits E.gse S crcLength frame)
    (hown : ∀ event, Move.receiver event ∉ moves) (lib : σ) (hempty : Empty lib) (net : ω)
    (heap : Heap) (dlib : δ) (host : ω') (hready : Ready dlib) :
    ∃ passes, ∀ bound ≥ passes,
      let run := (cSenderParties E D bound).run moves
        (.start (.init lib net heap) (.init dlib host))
      let whole := S.whole (framesRead (sizeT E.params.bufferLen) (senderEvents moves))
      ∃ t, t.tap = untilNone (run.arrivals.map whole) ∧
        (run.receiver = .next t ∧ (∀ n ∈ run.arrivals, whole n ≠ none) ∨
          run.receiver = .stop t ∧ ∃ n ∈ run.arrivals, whole n = none) := by
  have hPacket : GSE_MAX_PACKET_LENGTH = 4097 := rfl
  have hcapacity : S.capacity ≤ GSE_MAX_PACKET_LENGTH := hE.capacity
  obtain ⟨passes, hpasses⟩ :=
    exists_passes S (framesRead (sizeT E.params.bufferLen) (senderEvents moves))
  refine ⟨passes, fun bound hbound => ?_⟩
  obtain ⟨s, pss, hrun, hcuts, hoffered⟩ := processEncap_emits hE.encap hE.vfrag hE.payloadLen
    (by omega) hE.bufferLen (senderEvents moves)
    (fun frame hframe => ⟨hfits frame hframe, (hpasses bound hbound).1 frame hframe⟩)
    hempty net heap
  obtain ⟨-, hemits⟩ := emits_of_offered hcuts hoffered
  rw [← Flow.state_eq hrun] at hemits
  exact Parties.run_answers (P := cSenderParties E D bound)
    (fun event s => attempts_log E bound event s) moves hown (s := .init lib net heap)
    (t := .init dlib host) hready
    (decapStep_answers hD hlib hcapacity hcapacity rfl rfl hcuts hemits)

def mixedMoves : List (Move EncapEvent (Option Bytes)) :=
  [.sender (frameEvent [5]), .sender (frameEvent [7]), .arrive 1, .arrive 0, .arrive 1]

theorem rust_receiver_of_c_sender_reordered : ∃ passes, ∀ bound ≥ passes,
    let run := (cSenderParties (referenceConf 4097) referenceDecapConf bound).run mixedMoves
      (.start (.init .empty () fun _ => ⟨0, fun _ => 0⟩) (.init none ()))
    let whole := rustSegmentation.whole [[5], [7]]
    ∃ t, t.tap = untilNone (run.arrivals.map whole) ∧
      (run.receiver = .next t ∧ (∀ n ∈ run.arrivals, whole n ≠ none) ∨
        run.receiver = .stop t ∧ ∃ n ∈ run.arrivals, whole n = none) := by
  have hframes : framesRead (sizeT (referenceConf 4097).params.bufferLen)
      (senderEvents mixedMoves) = [[5], [7]] := by decide
  rw [← hframes]
  refine rust_receiver_of_c_sender (referenceConf 4097) rustSegmentation 4 (· = .empty)
    (Reference.Holds 4097) ⟨Reference.encapsulator_fifo (by decide),
      Reference.encapsulator_vfrag, rfl, Nat.le_refl _, by decide⟩ referenceDecapConf
    referenceDecapConf_succeeds _ _ referenceDecap_laws mixedMoves ?_ (by simp [mixedMoves])
    .empty rfl () (fun _ => ⟨0, fun _ => 0⟩) none () rfl
  rw [hframes]
  intro frame hframe
  have hlength : frame.length ≤ 1 := by
    simp only [List.mem_cons, List.not_mem_nil, or_false] at hframe
    rcases hframe with rfl | rfl
    · exact Nat.le_refl 1
    · exact Nat.le_refl 1
  exact frameFits_of_short
    (Nat.le_trans (Nat.add_le_add_right (Nat.add_le_add_right hlength 4) 4097)
    (by decide))

/-! ### A C receiver -/

def cReceiverParties (E : EncapConf σ κ ω) (D : DvbGseTunnel.Decapsulator δ)
    (params : ProcessDecapParams) (bound : Nat) :
    Parties (Option Bytes) (EncapState σ ω) DecapEvent (DvbGseTunnel.DecapState δ) Bytes where
  send := encapStep E bound
  sent s := s.sent.map some
  recv := DvbGseTunnel.decapStep D params bound
  event := datagramEvent params

/-- **The C receiver of a Rust sender.** If it stores datagrams of the longest packets within
    its buffer, it goes on whatever arrives; it delivers each frame whose packets arrive in a
    row, and, if the datagrams arrive in order, every frame all of whose packets arrive. -/
theorem c_receiver_of_rust_sender (E : EncapConf σ κ ω)
    (hlen : E.payloadLen ≤ GSE_MAX_PACKET_LENGTH) (S : Segmentation) (Accepts : Bytes → Prop)
    (Rest : κ → Bytes → List Bytes → Prop) (hE : CutLaws E.lib S Accepts Rest)
    (D : DvbGseTunnel.Decapsulator δ) (Awaits : δ → List Bytes → Bytes → Prop)
    (hpackets : PacketLaws D S (fun _ => True) Awaits) (hwalk : WalkLaws D S.IsPacket)
    (params : ProcessDecapParams) (moves : List (Move (Option Bytes) DecapEvent))
    (hundisturbed : Undisturbed params GSE_MAX_PACKET_LENGTH moves)
    (haccepts : ∀ frame ∈ framesReceived GSE_MAX_PDU_LEN (senderEvents moves), Accepts frame)
    (lib : σ) (net : ω) (dlib : δ) (bytes : Nat → UInt8) (gseLength : UInt16) :
    ∃ passes, ∀ bound ≥ passes,
      let run := (cReceiverParties E D params bound).run moves
        (.start (.init lib net) (.init dlib bytes gseLength))
      let frames := framesReceived GSE_MAX_PDU_LEN (senderEvents moves)
      ∃ t, run.receiver = .next t ∧
        (∀ i frame, frames[i]? = some frame →
          List.range' (S.offset frames i) (S.sizes frame.length).length <:+: run.arrivals →
          frame ∈ t.tap) ∧
        (run.arrivals.Pairwise (· < ·) → (S.intact run.arrivals 0 frames).Sublist t.tap) := by
  have hPacket : GSE_MAX_PACKET_LENGTH = 4097 := rfl
  have hcapacity := hE.capacity
  obtain ⟨most, hmost⟩ := S.exists_packets_le (framesReceived GSE_MAX_PDU_LEN (senderEvents moves))
  refine ⟨most + 2, fun bound hbound => ?_⟩
  obtain ⟨pss, hcuts, hemits⟩ := runtimeEncap_emits hE hlen bound
    (fun frame hframe => ⟨haccepts frame hframe,
      Nat.le_trans (hmost frame hframe) (Nat.le_trans (Nat.le_add_right most 2) hbound)⟩) lib net
  have hstores := hundisturbed.stores
  have hhandles := decap_handles hwalk params E.payloadLen bound (by omega) (by omega)
    hundisturbed.within (Nat.le_trans (Nat.le_add_left 2 most) hbound)
  obtain ⟨t, hreceiver, -, htap⟩ := Parties.run_out (P := cReceiverParties E D params bound)
    (fun event s => (encapStep_sent E bound event s).map some) hhandles moves
    hundisturbed.foreign (s := .init lib net) (t := .init dlib bytes gseLength) ⟨rfl, rfl⟩ hemits
  have hrestarts := handle_restarts hpackets E.payloadLen
  refine ⟨t, hreceiver, fun i frame hframe hrow => ?_, fun hsorted => ?_⟩
  · rw [htap]
    exact hrestarts.mem_outputs hcuts hframe hrow dlib
  · rw [htap]
    exact hrestarts.intact_sublist hsorted hcuts dlib

/-- A frame of two packets between two of one. -/
def longMoves : List (Move (Option Bytes) DecapEvent) :=
  [.sender (some [5]), .arrive 0, .sender (some (List.replicate 5000 0)), .receiver .timeout,
    .arrive 1, .sender (some [7]), .arrive 2, .arrive 3]

theorem c_receiver_of_rust_sender_long : ∃ passes, ∀ bound ≥ passes,
    let run := (cReceiverParties (referenceEncapConf 0) Reference.decapsulator
      ⟨referenceParams 4097⟩ bound).run longMoves (.start (.init () ()) (.init none (fun _ => 0) 0))
    let frames := framesReceived GSE_MAX_PDU_LEN (senderEvents longMoves)
    ∃ t, run.receiver = .next t ∧
      (∀ i frame, frames[i]? = some frame →
        List.range' (rustSegmentation.offset frames i) (rustSegmentation.sizes frame.length).length
          <:+: run.arrivals →
        frame ∈ t.tap) ∧
      (run.arrivals.Pairwise (· < ·) →
        (rustSegmentation.intact run.arrivals 0 frames).Sublist t.tap) :=
  c_receiver_of_rust_sender (referenceEncapConf 0) (Nat.zero_le _) rustSegmentation _ StreamRest
    referenceEncap_cuts Reference.decapsulator _ (Reference.decapsulator_restarts (by decide))
    (Reference.decapsulator_walks (by decide)) ⟨referenceParams 4097⟩ longMoves
    ⟨by decide, by decide, by
      intro event hevent
      simp only [longMoves, List.mem_cons, List.not_mem_nil, reduceCtorEq, or_false, false_or,
        Move.receiver.injEq] at hevent
      rw [hevent]
      exact ⟨trivial, rfl⟩⟩ (fun _ _ => trivial) () () none (fun _ => 0) 0

end DvbGseTunnel.Rust
