import DvbGseTunnel.DecapWalk
import DvbGseTunnel.Lib.Arrivals

/-!
# The reference for libgse starts afresh

A complete or a first packet drops the fragments received before. So the reference
deencapsulator reassembles each frame from its packets in whatever state the first of
them finds it (`decapsulator_restarts`), and stays aligned on any packets of any frames
(`decapsulator_walks`).
-/

namespace DvbGseTunnel.Reference

open Lib

/-- The packets of a whole frame are still to come, in any state, or those of the rest. -/
def AwaitsFrom (c : Nat) (fragments : Option Bytes) (ps : List Bytes) (m : Bytes) : Prop :=
  (∃ label, ps = packets c label m) ∨ Awaits c fragments ps m

theorem absorb_eq_of_none {p : Packet} (h : absorb none p ≠ (none, none))
    (fragments : Option Bytes) : absorb fragments p = absorb none p := by
  rcases p with ⟨k, size, body⟩
  cases k with
  | complete => rfl
  | first => rfl
  | middle => exact absurd rfl h
  | last => exact absurd rfl h

/-- The first packet of a frame is handled as if nothing had come before. -/
theorem deencapPacket_first {c : Nat} (hc : 14 ≤ c ∧ c ≤ 4097) {label : Label} {m p : Bytes}
    {ps : List Bytes} (hpackets : packets c label m = p :: ps) (fragments : Option Bytes)
    (tail : Bytes) :
    deencapPacket fragments (p ++ tail) = deencapPacket none (p ++ tail) ∧
      receive fragments (p ++ tail) = receive none (p ++ tail) := by
  have hawaits : Awaits c none (p :: ps) m := hpackets ▸ .whole label m
  obtain ⟨pk, hdecode, -, habsorb⟩ := hawaits.decode hc
  have hfirst : absorb none pk ≠ (none, none) := by
    rcases habsorb with ⟨-, h⟩ | ⟨-, a, h, -⟩
    · rw [h]
      nofun
    · rw [h]
      nofun
  have hsame := absorb_eq_of_none hfirst fragments
  rw [deencapPacket, deencapPacket, receive, receive, hdecode]
  simp only [hsame, and_self]

theorem AwaitsFrom.cases {c : Nat} (hc : 14 ≤ c ∧ c ≤ 4097) {fragments : Option Bytes} {p : Bytes}
    {ps : List Bytes} {m : Bytes} (h : AwaitsFrom c fragments (p :: ps) m) :
    ∃ d, Awaits c d (p :: ps) m ∧ ∀ tail,
      deencapPacket fragments (p ++ tail) = deencapPacket d (p ++ tail) ∧
        receive fragments (p ++ tail) = receive d (p ++ tail) := by
  rcases h with ⟨label, hpackets⟩ | hawaits
  · exact ⟨none, hpackets ▸ .whole label m, deencapPacket_first hc hpackets.symm fragments⟩
  · exact ⟨fragments, hawaits, fun tail => ⟨rfl, rfl⟩⟩

theorem receive_restarts {c : Nat} (hc : 14 ≤ c ∧ c ≤ 4097) :
    Restarts (segmentation c hc.1) receive (AwaitsFrom c) where
  start := by
    rintro d m ps - ⟨label, rfl⟩
    exact .inl ⟨label, rfl⟩
  more := by
    intro fragments p ps m hawaits hne
    obtain ⟨d, hd, hsame⟩ := hawaits.cases hc
    have hreceive := (hsame []).2
    rw [List.append_nil] at hreceive
    rw [hreceive]
    obtain ⟨hnone, hnext⟩ := (receive_reassembles hc).more hd hne
    exact ⟨hnone, .inr hnext⟩
  done := by
    intro fragments p m hawaits
    obtain ⟨d, hd, hsame⟩ := hawaits.cases hc
    have hreceive := (hsame []).2
    rw [List.append_nil] at hreceive
    rw [hreceive]
    exact ⟨((receive_reassembles hc).done hd).1, trivial⟩

theorem decapsulator_restarts {c : Nat} (hc : 14 ≤ c ∧ c ≤ 4097) :
    PacketLaws decapsulator (segmentation c hc.1) (fun _ => True) (AwaitsFrom c) where
  vfrag := (decapsulator_packets hc).vfrag
  reassembles := by
    rw [decapsulator_receive]
    exact receive_restarts hc
  packet := by
    intro fragments p ps m n hawaits
    obtain ⟨d, hd, hsame⟩ := hawaits.cases hc
    have hpadded := (decapsulator_packets hc).packet n hd
    have hwhole := (hsame []).2
    rw [List.append_nil] at hwhole
    rw [decapsulator_receive] at hpadded ⊢
    intro window
    have hcall : decapsulator.deencap fragments window = decapsulator.deencap d window :=
      (hsame _).1
    rw [hcall, (hsame _).2, hwhole]
    exact hpadded
  padding := by
    intro fragments n hn
    obtain ⟨hstatus, -⟩ := (decapsulator_packets hc).padding fragments hn
    refine ⟨hstatus, fun _ => trivial, ?_⟩
    have hkeeps := ((decapsulator_packets hc).padding fragments hn).2.2
    rintro ps m (hpackets | hawaits)
    · exact .inl hpackets
    · exact .inr (hkeeps ps m hawaits)

theorem mem_tailPackets {c : Nat} {stream p : Bytes} (hp : p ∈ tailPackets c stream) :
    ∃ k extra body, k ≠ .complete ∧ extra.length = Kind.extra k ∧ p = encode k extra body := by
  induction stream using tailPackets.induct (c := c) with
  | case1 stream h =>
    rw [tailPackets, dif_pos h] at hp
    exact ⟨.last, [0], stream, fun h => Kind.noConfusion h, rfl, List.mem_singleton.mp hp⟩
  | case2 stream h ih =>
    rw [tailPackets, dif_neg h] at hp
    rcases List.mem_cons.mp hp with rfl | hmem
    · exact ⟨.middle, [0], _, fun h => Kind.noConfusion h, rfl, rfl⟩
    · exact ih hmem

/-- Only a frame of one packet has a complete packet. -/
theorem mem_packets {c : Nat} {label : Label} {m p : Bytes} (hp : p ∈ packets c label m) :
    ∃ k extra body, (k = .complete → packets c label m = [p]) ∧
      extra.length = Kind.extra k ∧ p = encode k extra body := by
  by_cases hwhole : m.length + 10 ≤ c
  · rw [packets, if_pos hwhole] at hp ⊢
    rw [List.mem_singleton] at hp
    exact ⟨.complete, address label, m, fun _ => hp ▸ rfl, length_address label, hp⟩
  · rw [packets, if_neg hwhole] at hp ⊢
    rcases List.mem_cons.mp hp with rfl | hmem
    · exact ⟨.first, firstExtra label m, _, fun h => Kind.noConfusion h,
        length_firstExtra label m, rfl⟩
    · obtain ⟨k, extra, body, hk, hextra, heq⟩ := mem_tailPackets hmem
      exact ⟨k, extra, body, fun h => absurd h hk, hextra, heq⟩

theorem isPacket_of_segmentation {c : Nat} (hc : 14 ≤ c ∧ c ≤ 4097) {p : Bytes}
    (hp : (segmentation c hc.1).IsPacket p) : IsPacket p := by
  obtain ⟨-, hle⟩ := hp.length_le
  obtain ⟨m, _, ⟨label, rfl⟩, hmem⟩ := hp
  obtain ⟨k, extra, body, -, hextra, rfl⟩ := mem_packets hmem
  refine ⟨k, extra, body, hextra, ?_, rfl⟩
  rw [length_encode] at hle
  change _ ≤ c at hle
  omega

theorem decapsulator_walks {c : Nat} (hc : 14 ≤ c ∧ c ≤ 4097) :
    WalkLaws decapsulator (segmentation c hc.1).IsPacket where
  vfrag := decapsulator_walk.vfrag
  length hp := decapsulator_walk.length (isPacket_of_segmentation hc hp)
  start hp := decapsulator_walk.start (isPacket_of_segmentation hc hp)
  gseLength hp := decapsulator_walk.gseLength (isPacket_of_segmentation hc hp)
  padding := decapsulator_walk.padding

/-! ### Single packets -/

theorem receive_padded {p : Bytes} (hp : IsPacket p) (fragments : Option Bytes) (tail : Bytes) :
    receive fragments (p ++ tail) = receive fragments p := by
  obtain ⟨k, extra, body, hextra, hlen, rfl⟩ := hp
  have hwhole := decode_encode hextra hlen []
  rw [List.append_nil] at hwhole
  rw [receive, receive, decode_encode hextra hlen tail, hwhole]

/-- Without fragments received before, a packet of a longer frame completes nothing. -/
theorem receive_fragment {c : Nat} (hc : 14 ≤ c ∧ c ≤ 4097) {m p : Bytes} {ps : List Bytes}
    (hcut : (segmentation c hc.1).Cut m ps) (hp : p ∈ ps) (hseveral : ps.length ≠ 1) :
    (receive none p).1 = none := by
  have hle := (segmentation c hc.1).sizes_le (Segmentation.mem_sizes hcut hp)
  obtain ⟨label, rfl⟩ := hcut
  obtain ⟨k, extra, body, hwhole, hextra, rfl⟩ := mem_packets hp
  have hlen : extra.length + body.length < 4096 := by
    rw [length_encode] at hle
    change _ ≤ c at hle
    omega
  have hdecode := decode_encode hextra hlen []
  rw [List.append_nil] at hdecode
  rw [receive, hdecode]
  cases k with
  | complete => exact absurd (congrArg List.length (hwhole rfl)) hseveral
  | first => rfl
  | middle => rfl
  | last => rfl

end DvbGseTunnel.Reference
