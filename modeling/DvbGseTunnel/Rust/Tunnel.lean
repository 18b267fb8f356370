import DvbGseTunnel.Rust.Reference

/-!
# The Rust tunnel, end to end

The datagrams of the Rust `satencap`, without a payload length, go in order to the Rust
`satdecap`. The sender puts every packet of every frame in a datagram
(`runtimeEncap_sends`), and the receiver would reassemble them (`Reassembles`), if it did
not leave its loop at the first packet that completes no frame. So frames come through
up to the first one that needs several packets.
-/

namespace DvbGseTunnel.Rust

open Lib

variable {σ κ ω δ ω' : Type}

/-- Fed the packets of the frames, the receiver delivers these exactly if each has one
    packet. The induction is on the frames; the first one with more packets ends the run
    before it is delivered. -/
theorem runtimeDecap_tap_iff {D : DecapConf δ ω'} (hD : D.Succeeds) {S : Segmentation}
    (hcapacity : S.capacity = GSE_MAX_PACKET_LENGTH) {Ready : δ → Prop}
    {Awaits : δ → List Bytes → Bytes → Prop}
    (hlib : Reassembles S D.lib.receive Ready Awaits) {frames : List Bytes}
    {pss : List (List Bytes)} (hcuts : List.Forall₂ S.Cut frames pss) {s : DecapState δ ω'}
    (hready : Ready s.lib) :
    (runtimeDecap D (pss.flatten.map some) s).state.tap = s.tap ++ frames ↔
      ∀ frame ∈ frames, (S.sizes frame.length).length = 1 := by
  induction hcuts generalizing s with
  | nil => simp [runtimeDecap]
  | @cons frame ps frames pss hcut _ ih =>
    rw [List.forall_mem_cons, ← Segmentation.cut_length hcut]
    have hawaits := hlib.start hready hcut
    have hfits : ∀ p ∈ ps, p.take GSE_MAX_PACKET_LENGTH = p := by
      intro p hp
      exact List.take_of_length_le (hcapacity ▸ S.sizes_le (Segmentation.mem_sizes hcut hp))
    obtain ⟨p, rest, rfl⟩ := List.exists_cons_of_ne_nil (Segmentation.cut_ne_nil hcut)
    have hp : p.take GSE_MAX_PACKET_LENGTH = p := hfits p List.mem_cons_self
    rw [List.flatten_cons, List.cons_append, List.map_cons, runtimeDecap, feed_cons]
    cases rest with
    | nil =>
      obtain ⟨hframe, hnext⟩ := hlib.done hawaits
      obtain ⟨pkt, hpkt, rfl⟩ := DecapStatus.frame?_eq_some hframe
      obtain ⟨host, hstep⟩ := decapStep_of_completed hD (hp.symm ▸ hpkt)
      have hsplit : s.tap ++ pkt.frame :: frames = (s.tap ++ [pkt.frame]) ++ frames :=
        List.append_cons _ _ _
      rw [hstep, Flow.next_andThen, List.nil_append, hsplit, hp]
      refine (ih (s := ⟨_, host, s.tap ++ [pkt.frame], s.panic⟩) hnext).trans ?_
      exact ⟨fun h => ⟨rfl, h⟩, fun h => h.2⟩
    | cons q qs =>
      obtain ⟨hnone, _⟩ := hlib.more hawaits (List.cons_ne_nil q qs)
      obtain ⟨lib, hstep⟩ := decapStep_of_not_completed (hp.symm ▸ hnone)
      rw [hstep, Flow.stop_andThen]
      refine iff_of_false ?_ fun h => ?_
      · simp
      · simp at h

/-- The run of the sender comes back to `recv` after the last frame, and the receiver, fed
    its datagrams in order, sends exactly the frames to the TAP interface. -/
def Delivered (E : EncapConf σ κ ω) (D : DecapConf δ ω') (bound : Nat) (frames : List Bytes)
    (s : EncapState σ ω) (t : DecapState δ ω') : Prop :=
  ∃ s', runtimeEncap E bound (frames.map some) s = .next s' ∧
    (runtimeDecap D (s'.sent.map some) t).state.tap = t.tap ++ frames

theorem delivered_iff_of_bound {E : EncapConf σ κ ω} (hmode : E.payloadLen = 0)
    (hsends : E.Sends) {S : Segmentation} {Accepts : Bytes → Prop}
    {Rest : κ → Bytes → List Bytes → Prop} (hE : CutLaws E.lib S Accepts Rest)
    {D : DecapConf δ ω'} (hD : D.Succeeds) {Ready : δ → Prop}
    {Awaits : δ → List Bytes → Bytes → Prop}
    (hlib : Reassembles S D.lib.receive Ready Awaits) {frames : List Bytes}
    (haccepts : ∀ frame ∈ frames, Accepts frame ∧ frame.length ≤ GSE_MAX_PDU_LEN) {bound : Nat}
    (hbound : ∀ frame ∈ frames, (S.sizes frame.length).length ≤ bound) (lib : σ) (net : ω)
    {t : DecapState δ ω'} (hready : Ready t.lib) :
    Delivered E D bound frames (.init lib net) t ↔
      ∀ frame ∈ frames, (S.sizes frame.length).length = 1 := by
  obtain ⟨s, pss, hrun, hcuts, hsent⟩ := runtimeEncap_sends hE
    (by rw [hmode]; exact Nat.zero_le _) hsends haccepts hbound lib net
  have hpackets : s.sent = pss.flatten := by
    rw [hsent, hmode]
    exact List.map_id'' (fun p => padTo_of_le (Nat.zero_le _)) _
  rw [← runtimeDecap_tap_iff hD hE.capacity hlib hcuts hready, ← hpackets]
  constructor
  · rintro ⟨s', hrun', htap⟩
    obtain rfl : s = s' := by rw [hrun] at hrun'; cases hrun'; rfl
    exact htap
  · intro htap
    exact ⟨s, hrun, htap⟩

/-- **When the Rust tunnel delivers.** For every sequence of accepted frames: the receiver
    delivers exactly these frames, in order, if and only if each of them fits one packet
    in the payload buffer. -/
theorem delivered_iff (E : EncapConf σ κ ω) (hmode : E.payloadLen = 0) (hsends : E.Sends)
    (S : Segmentation) (Accepts : Bytes → Prop) (Rest : κ → Bytes → List Bytes → Prop)
    (hE : CutLaws E.lib S Accepts Rest) (D : DecapConf δ ω') (hD : D.Succeeds) (Ready : δ → Prop)
    (Awaits : δ → List Bytes → Bytes → Prop) (hlib : Reassembles S D.lib.receive Ready Awaits)
    (frames : List Bytes)
    (haccepts : ∀ frame ∈ frames, Accepts frame ∧ frame.length ≤ GSE_MAX_PDU_LEN) (lib : σ)
    (net : ω) (dlib : δ) (host : ω') (hready : Ready dlib) :
    (∃ passes, ∀ bound ≥ passes, Delivered E D bound frames (.init lib net) (.init dlib host)) ↔
      ∀ frame ∈ frames, (S.sizes frame.length).length = 1 := by
  obtain ⟨most, hmost⟩ := S.exists_packets_le frames
  have hiff : ∀ bound ≥ most, Delivered E D bound frames (.init lib net) (.init dlib host) ↔
      ∀ frame ∈ frames, (S.sizes frame.length).length = 1 := by
    intro bound hbound
    exact delivered_iff_of_bound hmode hsends hE hD hlib haccepts
      (fun frame hmem => Nat.le_trans (hmost frame hmem) hbound) lib net hready
  constructor
  · rintro ⟨passes, h⟩
    exact (hiff (max passes most) (Nat.le_max_right _ _)).mp (h _ (Nat.le_max_left _ _))
  · intro h
    exact ⟨most, fun bound hbound => (hiff bound hbound).mpr h⟩

/-- A frame of one byte. -/
theorem delivered_one_byte : ∃ passes, ∀ bound ≥ passes,
    Delivered (referenceEncapConf 0) referenceDecapConf bound [[7]] (.init () ())
      (.init none ()) :=
  (delivered_iff (referenceEncapConf 0) rfl (referenceEncapConf_sends 0) rustSegmentation _
    StreamRest referenceEncap_cuts referenceDecapConf referenceDecapConf_succeeds _ _
    referenceDecap_reassembles [[7]] (by simp [GSE_MAX_PDU_LEN]) () () none () rfl).mpr
    (by simp [rustSegmentation, Reference.segmentation, Reference.sizes, GSE_MAX_PACKET_LENGTH])

/-- A frame of 5000 bytes needs two packets, and is not delivered. -/
theorem long_frame_lost : ¬∃ passes, ∀ bound ≥ passes,
    Delivered (referenceEncapConf 0) referenceDecapConf bound [List.replicate 5000 0]
      (.init () ()) (.init none ()) := by
  rintro ⟨passes, h⟩
  have haccepts : ∀ frame ∈ [List.replicate 5000 (0 : UInt8)],
      True ∧ frame.length ≤ GSE_MAX_PDU_LEN := by
    intro frame hframe
    rw [List.mem_singleton.mp hframe, List.length_replicate]
    exact ⟨trivial, by decide⟩
  obtain ⟨most, hmost⟩ := rustSegmentation.exists_packets_le [List.replicate 5000 0]
  have hiff := delivered_iff_of_bound (E := referenceEncapConf 0) rfl (referenceEncapConf_sends 0)
    referenceEncap_cuts referenceDecapConf_succeeds referenceDecap_reassembles haccepts
    (fun frame hmem => Nat.le_trans (hmost frame hmem) (Nat.le_max_right passes most)) () ()
    (t := .init none ()) rfl
  have hone := hiff.mp (h _ (Nat.le_max_left _ _)) _ List.mem_cons_self
  rw [List.length_replicate] at hone
  change (Reference.sizes GSE_MAX_PACKET_LENGTH 5000).length = 1 at hone
  rw [Reference.sizes, if_neg (by decide), List.length_cons] at hone
  exact Reference.tailSizes_ne_nil _ _ (List.length_eq_zero_iff.mp (Nat.succ.inj hone))

end DvbGseTunnel.Rust
