import DvbGseTunnel.DecapArrivals
import DvbGseTunnel.EncapEmission
import DvbGseTunnel.Reference.Restarts
import DvbGseTunnel.Tunnel

/-!
# The C tunnel over UDP

`process_encap` and `process_decap` as the two programs of a network that may lose, double,
delay and reorder datagrams. The tunnel has no sequence numbers and no acknowledgements, so
what it delivers is a matter of what arrives: no frame is lost all of whose packets arrive
in order (`intact_frames_delivered`), without losses the frames come out as they were read
(`lossless_tunnel`), and a frame comes out when its packets arrive in a row
(`consecutive_packets_delivered`). If no frame takes more than one packet, the frames come
through as UDP brings the datagrams (`single_packets_delivered`).
-/

namespace DvbGseTunnel

open Lib

variable {σ ω δ : Type}

def tunnelParties (E : EncapConf σ ω) (D : Decapsulator δ) (params : ProcessDecapParams)
    (bound : Nat) : Parties EncapEvent (EncapState σ ω) DecapEvent (DecapState δ) Bytes where
  send := encapStep E bound
  sent s := attempts s.calls
  recv := decapStep D params bound
  event := datagramEvent params

abbrev TunnelMoves := List (Move EncapEvent DecapEvent)

/-- A run from the start of both programs. -/
def tunnelRun (E : EncapConf σ ω) (D : Decapsulator δ) (params : ProcessDecapParams)
    (bound : Nat) (moves : TunnelMoves) (s : EncapState σ ω) (t : DecapState δ) :
    Net (EncapState σ ω) (DecapState δ) :=
  (tunnelParties E D params bound).run moves (.start s t)

/-- The frames that the sender reads in a run. -/
def framesOf (params : ProcessEncapParams) (moves : TunnelMoves) : List Bytes :=
  framesRead (sizeT params.bufferLen) (senderEvents moves)

/-- What the sender relies on in constant-length mode: `payload_len` is the length that libgse
    cuts to, of at most `GSE_MAX_PACKET_LENGTH`, and `buffer_len` at most that of a PDU. -/
structure SenderLaws (E : EncapConf σ ω) (S : Segmentation) (crcLength : Nat) (Empty : σ → Prop)
    (Holds : σ → Heap → Queued → Prop) : Prop where
  encap : SegmentingLaws E.lib E.gse S crcLength Empty Holds
  vfrag : VfragLaws E.lib
  payloadLen : E.params.payloadLen = S.capacity
  capacity : S.capacity ≤ GSE_MAX_PACKET_LENGTH
  bufferLen : 0 ≤ E.params.bufferLen ∧ E.params.bufferLen ≤ GSE_MAX_PDU_LENGTH

/-- What the two programs rely on. The receiver's libgse drops an incomplete PDU when the
    first packet of another one comes. -/
structure TunnelLaws (E : EncapConf σ ω) (S : Segmentation) (crcLength : Nat) (Empty : σ → Prop)
    (Holds : σ → Heap → Queued → Prop) (D : Decapsulator δ)
    (Awaits : δ → List Bytes → Bytes → Prop) : Prop
    extends SenderLaws E S crcLength Empty Holds where
  packets : PacketLaws D S (fun _ => True) Awaits
  walk : WalkLaws D S.IsPacket

/-- What is assumed of a run: a receiver that stores whole packets and is not ended by what
    else it meets, and frames whose last packet, padded, ends within the buffer of their
    PDU. -/
structure Regular (E : EncapConf σ ω) (S : Segmentation) (crcLength : Nat)
    (params : ProcessDecapParams) (moves : TunnelMoves) : Prop
    extends Undisturbed params S.capacity moves where
  fits : ∀ frame ∈ framesOf E.params moves, FrameFits E.gse S crcLength frame

section

variable {E : EncapConf σ ω} {S : Segmentation} {crcLength : Nat} {Empty : σ → Prop}
  {Holds : σ → Heap → Queued → Prop} {D : Decapsulator δ}
  {Awaits : δ → List Bytes → Bytes → Prop} {params : ProcessDecapParams} {moves : TunnelMoves}

theorem tunnelParties_appends (E : EncapConf σ ω) (D : Decapsulator δ)
    (params : ProcessDecapParams) (bound : Nat) : (tunnelParties E D params bound).Appends :=
  fun event s => attempts_log E bound event s

/-- What the receiver writes is a matter of the packets that arrive. -/
theorem tunnelRun_tap (h : TunnelLaws E S crcLength Empty Holds D Awaits)
    (hregular : Regular E S crcLength params moves)
    {bound : Nat} (hbound : ∀ frame ∈ framesOf E.params moves,
      (S.sizes frame.length).length + 2 ≤ bound) (hpasses : 2 ≤ bound)
    {lib : σ} (hempty : Empty lib) (net : ω) (heap : Heap) (dlib : δ) (bytes : Nat → UInt8)
    (gseLength : UInt16) :
    let run := tunnelRun E D params bound moves (.init lib net heap) (.init dlib bytes gseLength)
    ∃ s t pss, (run.sender = .next s ∨ run.sender = .stop s) ∧ run.receiver = .next t ∧
      List.Forall₂ S.Cut (framesOf E.params moves) pss ∧
      (attempts s.calls).length = pss.flatten.length ∧
      t.tap = outputs (D.handle S.capacity) dlib (run.arrivals.filterMap (pss.flatten[·]?)) := by
  intro run
  have hPacket : GSE_MAX_PACKET_LENGTH = 4097 := rfl
  have hcapacity := h.capacity
  obtain ⟨s, pss, hrun, hcuts, hoffered⟩ := processEncap_emits h.encap h.vfrag h.payloadLen
    (by omega) h.bufferLen (senderEvents moves)
    (fun frame hframe => ⟨hregular.fits frame hframe, hbound frame hframe⟩) hempty net heap
  obtain ⟨hcount, hemits⟩ := emits_of_offered hcuts hoffered
  have hsender : run.sender = processEncap E bound (senderEvents moves) (.init lib net heap) :=
    (tunnelParties E D params bound).run_sender_start moves _ _
  have hhandles := decap_handles h.walk params S.capacity bound hregular.stores hregular.stores
    hregular.within hpasses
  obtain ⟨t, hreceiver, -, htap⟩ := Parties.run_out (P := tunnelParties E D params bound)
    (tunnelParties_appends E D params bound) hhandles moves hregular.foreign
    (s := .init lib net heap) (t := .init dlib bytes gseLength) ⟨rfl, rfl⟩
    (show Emits _ pss.flatten (attempts
      (processEncap E bound (senderEvents moves) (.init lib net heap)).state.calls) by
      rw [Flow.state_eq hrun]; exact hemits)
  refine ⟨s, t, pss, ?_, hreceiver, hcuts, hcount, htap⟩
  rw [hsender]
  exact hrun

end

/-- The inner loops are left when their bounds are large enough for the frames of the run. -/
theorem exists_passes (S : Segmentation) (frames : List Bytes) :
    ∃ passes, ∀ bound ≥ passes,
      (∀ frame ∈ frames, (S.sizes frame.length).length + 2 ≤ bound) ∧ 2 ≤ bound := by
  obtain ⟨most, hmost⟩ := S.exists_packets_le frames
  refine ⟨most + 2, fun bound hbound => ⟨fun frame hframe => ?_, by omega⟩⟩
  have hcount := hmost frame hframe
  omega

/-! ### The programs with the reference for libgse -/

theorem reference_laws : TunnelLaws (referenceConf 34) (Reference.segmentation 34 (by decide)) 4
    (· = .empty) (Reference.Holds 34) Reference.decapsulator (Reference.AwaitsFrom 34) where
  encap := Reference.encapsulator_fifo (by decide)
  vfrag := Reference.encapsulator_vfrag
  payloadLen := rfl
  capacity := by decide
  bufferLen := by decide
  packets := Reference.decapsulator_restarts (by decide)
  walk := Reference.decapsulator_walks (by decide)

theorem reference_regular {E : EncapConf σ ω} (hgse : E.gse = ⟨13, 4⟩) {params : ProcessDecapParams}
    (hlen : 34 ≤ params.payloadLen ∧ params.payloadLen ≤ DATA_RECEIVED_SIZE) {moves : TunnelMoves}
    {frames : List Bytes} (hframes : framesOf E.params moves = frames)
    (hshort : ∀ frame ∈ frames, frame.length ≤ 1000)
    (hforeign : ∀ event, Move.receiver event ∈ moves → event = .timeout) :
    Regular E (Reference.segmentation 34 (by decide)) 4 params moves where
  stores := hlen.1
  within := hlen.2
  fits := by
    rw [hframes, hgse]
    intro frame hframe
    have hlength := hshort frame hframe
    exact frameFits_of_short
      (Nat.le_trans (Nat.add_le_add_right (Nat.add_le_add_right hlength 4) 34)
      (by decide))
  foreign := by
    intro event hevent
    rw [hforeign event hevent]
    exact ⟨trivial, rfl⟩

/-- A frame of four packets, of which the third is lost, and one of a single packet. -/
def lossyMoves : TunnelMoves :=
  [.sender (frameEvent (List.replicate 100 0)), .arrive 0, .sender (frameEvent [7]), .arrive 1,
    .receiver .timeout, .arrive 3, .arrive 4]

theorem lossyMoves_frames :
    framesOf (referenceConf 34).params lossyMoves = [List.replicate 100 0, [7]] := by decide

theorem lossyMoves_regular : Regular (referenceConf 34)
    (Reference.segmentation 34 (by decide)) 4 ⟨referenceParams 34⟩ lossyMoves :=
  reference_regular rfl (by decide) lossyMoves_frames (by decide) (by simp [lossyMoves])

/-- Two frames of one packet each, the second of which arrives first, and twice. -/
def smallMoves : TunnelMoves :=
  [.sender (frameEvent [5]), .sender .timeout, .sender (frameEvent [7]), .arrive 1, .arrive 0,
    .receiver .timeout, .arrive 1]

theorem smallMoves_frames : framesOf (referenceConf 34).params smallMoves = [[5], [7]] := by decide

/-! ### What comes through -/

/-- **No intact frame is lost.** If the datagrams that arrive do so in the order of sending,
    each at most once, every frame all of whose packets arrive is delivered, in order,
    whatever is lost of the other frames. -/
theorem intact_frames_delivered (E : EncapConf σ ω) (S : Segmentation) (crcLength : Nat)
    (Empty : σ → Prop) (Holds : σ → Heap → Queued → Prop) (D : Decapsulator δ)
    (Awaits : δ → List Bytes → Bytes → Prop)
    (h : TunnelLaws E S crcLength Empty Holds D Awaits) (params : ProcessDecapParams)
    (moves : TunnelMoves) (hregular : Regular E S crcLength params moves)
    (horder : (brought moves).Pairwise (· < ·)) (lib : σ) (hempty : Empty lib) (net : ω)
    (heap : Heap) (dlib : δ) (bytes : Nat → UInt8) (gseLength : UInt16) :
    ∃ passes, ∀ bound ≥ passes,
      let run := tunnelRun E D params bound moves (.init lib net heap) (.init dlib bytes gseLength)
      ∃ t, run.receiver = .next t ∧
        (S.intact run.arrivals 0 (framesOf E.params moves)).Sublist t.tap := by
  obtain ⟨passes, hpasses⟩ := exists_passes S (framesOf E.params moves)
  refine ⟨passes, fun bound hbound => ?_⟩
  obtain ⟨hcounts, htwo⟩ := hpasses bound hbound
  obtain ⟨_, t, pss, -, hreceiver, hcuts, -, htap⟩ :=
    tunnelRun_tap h hregular hcounts htwo hempty net heap dlib bytes gseLength
  refine ⟨t, hreceiver, ?_⟩
  rw [htap]
  have hsublist := (tunnelParties E D params bound).arrivals_sublist_brought moves
    (.start (.init lib net heap) (.init dlib bytes gseLength))
  exact (handle_restarts h.packets S.capacity).intact_sublist (horder.sublist hsublist) hcuts dlib

theorem intact_frames_delivered_lossy : ∃ passes, ∀ bound ≥ passes,
    let run := tunnelRun (referenceConf 34) Reference.decapsulator ⟨referenceParams 34⟩ bound
      lossyMoves (.init .empty () fun _ => ⟨0, fun _ => 0⟩) (.init none (fun _ => 0) 0)
    ∃ t, run.receiver = .next t ∧ ((Reference.segmentation 34 (by decide)).intact run.arrivals 0
      [List.replicate 100 0, [7]]).Sublist t.tap :=
  lossyMoves_frames ▸ intact_frames_delivered (referenceConf 34)
    (Reference.segmentation 34 (by decide)) 4 _ _ Reference.decapsulator _ reference_laws
    ⟨referenceParams 34⟩ lossyMoves lossyMoves_regular (by decide)
    .empty rfl () (fun _ => ⟨0, fun _ => 0⟩) none (fun _ => 0) 0

/-- **Packets in a row.** Whatever UDP loses, doubles and reorders: a frame is delivered
    whenever its packets arrive one directly after the other. -/
theorem consecutive_packets_delivered (E : EncapConf σ ω) (S : Segmentation) (crcLength : Nat)
    (Empty : σ → Prop) (Holds : σ → Heap → Queued → Prop) (D : Decapsulator δ)
    (Awaits : δ → List Bytes → Bytes → Prop)
    (h : TunnelLaws E S crcLength Empty Holds D Awaits) (params : ProcessDecapParams)
    (moves : TunnelMoves) (hregular : Regular E S crcLength params moves) (lib : σ)
    (hempty : Empty lib) (net : ω) (heap : Heap) (dlib : δ) (bytes : Nat → UInt8)
    (gseLength : UInt16) :
    ∃ passes, ∀ bound ≥ passes,
      let run := tunnelRun E D params bound moves (.init lib net heap) (.init dlib bytes gseLength)
      ∃ t, run.receiver = .next t ∧ ∀ i frame, (framesOf E.params moves)[i]? = some frame →
        List.range' (S.offset (framesOf E.params moves) i) (S.sizes frame.length).length <:+:
          run.arrivals →
        frame ∈ t.tap := by
  obtain ⟨passes, hpasses⟩ := exists_passes S (framesOf E.params moves)
  refine ⟨passes, fun bound hbound => ?_⟩
  obtain ⟨hcounts, htwo⟩ := hpasses bound hbound
  obtain ⟨_, t, pss, -, hreceiver, hcuts, -, htap⟩ :=
    tunnelRun_tap h hregular hcounts htwo hempty net heap dlib bytes gseLength
  refine ⟨t, hreceiver, fun i frame hframe hrow => ?_⟩
  rw [htap]
  exact (handle_restarts h.packets S.capacity).mem_outputs hcuts hframe hrow dlib

theorem consecutive_packets_delivered_lossy : ∃ passes, ∀ bound ≥ passes,
    let run := tunnelRun (referenceConf 34) Reference.decapsulator ⟨referenceParams 34⟩ bound
      lossyMoves (.init .empty () fun _ => ⟨0, fun _ => 0⟩) (.init none (fun _ => 0) 0)
    ∃ t, run.receiver = .next t ∧ ∀ i frame,
      (framesOf (referenceConf 34).params lossyMoves)[i]? = some frame →
      List.range' ((Reference.segmentation 34 (by decide)).offset
          (framesOf (referenceConf 34).params lossyMoves) i)
        ((Reference.segmentation 34 (by decide)).sizes frame.length).length <:+: run.arrivals →
      frame ∈ t.tap :=
  consecutive_packets_delivered (referenceConf 34) (Reference.segmentation 34 (by decide)) 4 _ _
    Reference.decapsulator _ reference_laws ⟨referenceParams 34⟩ lossyMoves
    lossyMoves_regular
    .empty rfl () (fun _ => ⟨0, fun _ => 0⟩) none (fun _ => 0) 0

/-- **Frames of one packet.** If each frame read takes one packet, the frames delivered are
    those of the datagrams that arrive, in their order of arrival and as often as they
    arrive, whatever UDP does. -/
theorem single_packets_delivered (E : EncapConf σ ω) (S : Segmentation) (crcLength : Nat)
    (Empty : σ → Prop) (Holds : σ → Heap → Queued → Prop) (D : Decapsulator δ)
    (Awaits : δ → List Bytes → Bytes → Prop)
    (h : TunnelLaws E S crcLength Empty Holds D Awaits) (params : ProcessDecapParams)
    (moves : TunnelMoves) (hregular : Regular E S crcLength params moves)
    (hsingle : ∀ frame ∈ framesOf E.params moves, (S.sizes frame.length).length = 1) (lib : σ)
    (hempty : Empty lib) (net : ω) (heap : Heap) (dlib : δ) (bytes : Nat → UInt8)
    (gseLength : UInt16) :
    ∃ passes, ∀ bound ≥ passes,
      let run := tunnelRun E D params bound moves (.init lib net heap) (.init dlib bytes gseLength)
      ∃ t, run.receiver = .next t ∧
        t.tap = run.arrivals.filterMap ((framesOf E.params moves)[·]?) := by
  obtain ⟨passes, hpasses⟩ := exists_passes S (framesOf E.params moves)
  refine ⟨passes, fun bound hbound => ?_⟩
  obtain ⟨hcounts, htwo⟩ := hpasses bound hbound
  obtain ⟨_, t, pss, -, hreceiver, hcuts, -, htap⟩ :=
    tunnelRun_tap h hregular hcounts htwo hempty net heap dlib bytes gseLength
  refine ⟨t, hreceiver, ?_⟩
  rw [htap]
  exact (handle_restarts h.packets S.capacity).outputs_single hcuts hsingle dlib _

theorem single_packets_delivered_reordered : ∃ passes, ∀ bound ≥ passes,
    let run := tunnelRun (referenceConf 34) Reference.decapsulator ⟨referenceParams 34⟩ bound
      smallMoves (.init .empty () fun _ => ⟨0, fun _ => 0⟩) (.init none (fun _ => 0) 0)
    ∃ t, run.receiver = .next t ∧ t.tap = run.arrivals.filterMap ([[5], [7]][·]?) :=
  smallMoves_frames ▸ single_packets_delivered (referenceConf 34)
    (Reference.segmentation 34 (by decide)) 4 _ _ Reference.decapsulator _ reference_laws
    ⟨referenceParams 34⟩ smallMoves
    (reference_regular rfl (by decide) smallMoves_frames (by decide) (by simp [smallMoves]))
    (by rw [smallMoves_frames]; decide) .empty rfl () (fun _ => ⟨0, fun _ => 0⟩) none (fun _ => 0) 0

end DvbGseTunnel
