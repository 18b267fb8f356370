import DvbGseTunnel.Reference.Libgse

/-!
# The C tunnel, end to end

The datagrams of `process_encap` go in order to `process_decap`, with one payload length
on both sides. The tunnel delivers, except that the padding of the last packet of a long
frame does not fit the buffer of its PDU.
-/

namespace DvbGseTunnel

open Lib

variable {σ ω δ : Type}

/-- The sender comes back to its test after the last frame, with one datagram of exactly
    `payload_len` bytes on the network for each packet, the packet followed by zeros; and
    the receiver, fed these datagrams in order, writes exactly the frames to its TAP
    interface. -/
def TunnelDelivers (E : EncapConf σ ω) (S : Segmentation) (D : Decapsulator δ)
    (params : ProcessDecapParams) (bound : Nat) (frames : List Bytes) (s : EncapState σ ω)
    (t : DecapState δ) : Prop :=
  ∃ s', processEncap E bound (frames.map frameEvent) s = .next s' ∧
    (∃ pss, List.Forall₂ S.Cut frames pss ∧
      datagrams s'.calls = pss.flatten.map (padTo S.capacity)) ∧
    (∀ datagram ∈ datagrams s'.calls, (datagram.length : Int) = E.params.payloadLen) ∧
    ∃ t', processDecap D params bound ((datagrams s'.calls).map (datagramEvent params)) t =
        .next t' ∧
      t'.tap = t.tap ++ frames

theorem tunnelDelivers_iff_of_bound {E : EncapConf σ ω} {S : Segmentation} {crcLength : Nat}
    {Empty : σ → Prop} {Holds : σ → Heap → Queued → Prop}
    (hE : SegmentingLaws E.lib E.gse S crcLength Empty Holds) (hvfrag : VfragLaws E.lib)
    (hsends : E.Sends) (hP : E.params.payloadLen = S.capacity)
    (hmax : S.capacity ≤ GSE_MAX_PACKET_LENGTH)
    (hbuffer : E.params.bufferLen ≤ GSE_MAX_PDU_LENGTH) {D : Decapsulator δ} {Ready : δ → Prop}
    {Awaits : δ → List Bytes → Bytes → Prop} (hD : PacketLaws D S Ready Awaits)
    {params : ProcessDecapParams} (hsame : params.payloadLen = E.params.payloadLen)
    {frames : List Bytes} (hread : ∀ frame ∈ frames, E.Reads frame) {bound : Nat}
    (hbound : ∀ frame ∈ frames, (S.sizes frame.length).length + 2 ≤ bound) (hpasses : 2 ≤ bound)
    {lib : σ} (hempty : Empty lib) (net : ω) (heap : Heap) {dlib : δ} (hready : Ready dlib)
    (bytes : Nat → UInt8) (gseLength : UInt16) :
    TunnelDelivers E S D params bound frames (.init lib net heap)
        (.init dlib bytes gseLength) ↔
      ∀ frame ∈ frames, FrameFits E.gse S crcLength frame := by
  have hPacket : GSE_MAX_PACKET_LENGTH = 4097 := rfl
  obtain ⟨hsent, hfits⟩ := processEncap_sends hE hvfrag hsends hP (by omega) hbuffer hread hbound
    hempty net heap
  constructor
  · rintro ⟨s, hrun, _⟩
    exact hfits s hrun
  · intro hall
    obtain ⟨s, pss, hrun, hcuts, hcalls⟩ := hsent hall
    refine ⟨s, hrun, ⟨pss, hcuts, hcalls⟩, ?_, ?_⟩
    · rw [hcalls]
      intro datagram hmem
      obtain ⟨p, hp, rfl⟩ := List.mem_map.mp hmem
      obtain ⟨ps, hps, hpps⟩ := List.mem_flatten.mp hp
      obtain ⟨frame, _, hcut⟩ := Segmentation.exists_cut_of_mem hcuts hps
      rw [hP, length_padTo (S.sizes_le (Segmentation.mem_sizes hcut hpps))]
    · rw [hcalls]
      exact processDecap_delivers hD (hsame.trans hP) hmax hpasses hcuts hready bytes gseLength

/-- **When the C tunnel delivers.** For every sequence of frames and every payload length:
    the sender puts each packet, padded with zeros to that length, in one datagram, and the
    receiver delivers exactly the frames, in order, if and only if for each frame the padding
    of its last packet ends in the buffer of its PDU. -/
theorem tunnel_delivers_iff (E : EncapConf σ ω) (S : Segmentation) (crcLength : Nat)
    (Empty : σ → Prop) (Holds : σ → Heap → Queued → Prop)
    (hE : SegmentingLaws E.lib E.gse S crcLength Empty Holds) (hvfrag : VfragLaws E.lib)
    (hsends : E.Sends) (hP : E.params.payloadLen = S.capacity)
    (hmax : S.capacity ≤ GSE_MAX_PACKET_LENGTH)
    (hbuffer : E.params.bufferLen ≤ GSE_MAX_PDU_LENGTH) (D : Decapsulator δ) (Ready : δ → Prop)
    (Awaits : δ → List Bytes → Bytes → Prop) (hD : PacketLaws D S Ready Awaits)
    (params : ProcessDecapParams) (hsame : params.payloadLen = E.params.payloadLen)
    (frames : List Bytes) (hread : ∀ frame ∈ frames, E.Reads frame) (lib : σ)
    (hempty : Empty lib) (net : ω) (heap : Heap) (dlib : δ) (hready : Ready dlib)
    (bytes : Nat → UInt8) (gseLength : UInt16) :
    (∃ passes, ∀ bound ≥ passes, TunnelDelivers E S D params bound frames
        (.init lib net heap) (.init dlib bytes gseLength)) ↔
      ∀ frame ∈ frames, FrameFits E.gse S crcLength frame := by
  obtain ⟨most, hmost⟩ := S.exists_packets_le frames
  have hiff : ∀ bound ≥ most + 2, TunnelDelivers E S D params bound frames
      (.init lib net heap) (.init dlib bytes gseLength) ↔
      ∀ frame ∈ frames, FrameFits E.gse S crcLength frame := by
    intro bound hbound
    refine tunnelDelivers_iff_of_bound hE hvfrag hsends hP hmax hbuffer hD hsame hread
      (fun frame hmem => ?_) (by omega) hempty net heap hready bytes gseLength
    have hcount := hmost frame hmem
    omega
  constructor
  · rintro ⟨passes, h⟩
    exact (hiff (max passes (most + 2)) (Nat.le_max_right _ _)).mp (h _ (Nat.le_max_left _ _))
  · intro h
    exact ⟨most + 2, fun bound hbound => (hiff bound hbound).mpr h⟩

def referenceParams (payloadLen : Nat) : TunnelParams :=
  ⟨[], ⟨0, 0⟩, ⟨0, 0⟩, ⟨0, 1⟩, GSE_MAX_PDU_LENGTH, payloadLen⟩

def referenceConf (payloadLen : Nat) : EncapConf Reference.Fifo Unit where
  gse := ⟨13, 4⟩
  lib := Reference.encapsulator
  sendto net bytes := (bytes.length, net)
  params := ⟨referenceParams payloadLen, ⟨0, 1⟩⟩

/-- A frame of four packets and one of a single packet, in datagrams of 34 bytes. -/
theorem tunnel_delivers_two_frames : ∃ passes, ∀ bound ≥ passes,
    TunnelDelivers (referenceConf 34) (Reference.segmentation 34 (by decide))
      Reference.decapsulator ⟨referenceParams 34⟩ bound [List.replicate 100 0, [7]]
      (.init .empty () fun _ => ⟨0, fun _ => 0⟩) (.init none (fun _ => 0) 0) :=
  (tunnel_delivers_iff (referenceConf 34) (Reference.segmentation 34 (by decide)) 4 _ _
    (Reference.encapsulator_fifo (by decide)) Reference.encapsulator_vfrag (fun _ _ => rfl) rfl
    (by decide) (Int.le_refl _) Reference.decapsulator _ _
    (Reference.decapsulator_packets (by decide)) ⟨referenceParams 34⟩ rfl
    [List.replicate 100 0, [7]]
    (List.forall_mem_cons.mpr ⟨⟨by decide, by decide⟩,
      List.forall_mem_cons.mpr ⟨⟨by decide, by decide⟩, nofun⟩⟩)
    .empty rfl () (fun _ => ⟨0, fun _ => 0⟩) none rfl (fun _ => 0) 0).mpr
    (List.forall_mem_cons.mpr ⟨frameFits_of_short (by decide),
      List.forall_mem_cons.mpr ⟨frameFits_of_short (by decide), nofun⟩⟩)

/-- The last packet of a frame of 65535 bytes has 48 bytes, and ends with the buffer. -/
theorem longest_frame_overflows : ¬∃ passes, ∀ bound ≥ passes,
    TunnelDelivers (referenceConf 4097) (Reference.segmentation 4097 (by decide))
      Reference.decapsulator ⟨referenceParams 4097⟩ bound [List.replicate 65535 0]
      (.init .empty () fun _ => ⟨0, fun _ => 0⟩) (.init none (fun _ => 0) 0) := by
  rintro ⟨passes, h⟩
  have hread : ∀ frame ∈ [List.replicate 65535 (0 : UInt8)], (referenceConf 4097).Reads frame := by
    intro frame hframe
    rw [List.mem_singleton.mp hframe]
    refine ⟨List.ne_nil_of_length_pos ?_, ?_⟩ <;> rw [List.length_replicate]
    · exact Nat.zero_lt_succ 65534
    · exact Int.le_refl _
  obtain ⟨most, hmost⟩ := (Reference.segmentation 4097 (by decide)).exists_packets_le
    [List.replicate 65535 (0 : UInt8)]
  have hE : SegmentingLaws (referenceConf 4097).lib (referenceConf 4097).gse
      (Reference.segmentation 4097 (by decide)) 4 (· = .empty) (Reference.Holds 4097) :=
    Reference.encapsulator_fifo (by decide)
  have hD := Reference.decapsulator_packets (c := 4097) (by decide)
  have hiff : TunnelDelivers (referenceConf 4097) (Reference.segmentation 4097 (by decide))
      Reference.decapsulator ⟨referenceParams 4097⟩ (max passes (most + 2))
      [List.replicate 65535 0] (.init .empty () fun _ => ⟨0, fun _ => 0⟩)
      (.init none (fun _ => 0) 0) ↔ _ :=
    tunnelDelivers_iff_of_bound hE Reference.encapsulator_vfrag (fun _ _ => rfl) rfl
      (Nat.le_refl 4097) (Int.le_refl _) hD rfl hread
      (fun frame hmem => by have := hmost frame hmem; omega) (by omega) rfl () _ rfl _ 0
  have hfits := hiff.mp (h _ (Nat.le_max_left _ _)) _ List.mem_cons_self
  have hlast : (Reference.segmentation 4097 (by decide)).lastSize 65535 = 48 := by
    have hsizes : Reference.sizes 4097 65535 = 4097 :: Reference.tailSizes 4097 (61454 + 1) :=
      if_neg (by decide)
    change (Reference.sizes 4097 65535).getLast _ = 48
    simp only [hsizes, List.getLast_cons (Reference.tailSizes_ne_nil _ _)]
    rw [Reference.tailSizes_last (by decide)]
  rw [FrameFits, List.length_replicate, hlast, Reference.trailer_eq] at hfits
  exact absurd hfits (by decide)

end DvbGseTunnel
