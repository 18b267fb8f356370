import DvbGseTunnel.DecapDelivery
import DvbGseTunnel.EncapDatagrams
import DvbGseTunnel.Reference.Packets

/-!
# A reference for libgse

An encapsulator and a deencapsulator that exchange the reference packets. The encapsulator
copies nothing: a header is written before the data it is for, over what was sent
already, and the CRC after the PDU. The deencapsulator keeps the fragments it has received.
-/

namespace DvbGseTunnel.Reference

open Lib

/-! ### Encapsulation -/

/-- The FIFO holds at most one PDU: a whole one with its label, or the `length` bytes from
    `next` on of one whose first packet was got. -/
inductive Fifo where
  | empty
  | whole (pdu : Vfrag) (label : Label)
  | rest (buf next length : Nat)
deriving DecidableEq, Repr

def place (heap : Heap) (buf start : Nat) (bytes : Bytes) : Heap :=
  Function.update heap buf
    ((heap buf).overlay start bytes.length fun i => bytes.getD i 0)

/-- The packet in place, as a fragment. -/
def placed (packet : Bytes) (buf start : Nat) (fifo : Fifo) (heap : Heap) : VfragResult Fifo :=
  ⟨.ok, ⟨buf, start, packet.length⟩, fifo, place heap buf start packet⟩

def getPacket (c : Nat) (heap : Heap) : Fifo → VfragResult Fifo
  | .empty => ⟨.fifoEmpty, ⟨0, 0, 0⟩, .empty, heap⟩
  | .whole pdu label =>
    let m := pdu.data heap
    if pdu.length + 10 ≤ c then
      placed (encode .complete (address label) m) pdu.buf (pdu.start - 10) .empty heap
    else
      placed (encode .first (firstExtra label m) ((m ++ crc m).take (c - 13))) pdu.buf
        (pdu.start - 13) (.rest pdu.buf (pdu.start + (c - 13)) (pdu.length + 4 - (c - 13)))
        (place heap pdu.buf pdu.start (m ++ crc m))
  | .rest buf next length =>
    let stream := (heap buf).read next length
    if length + 3 ≤ c then placed (encode .last [0] stream) buf (next - 3) .empty heap
    else placed (encode .middle [0] (stream.take (c - 3))) buf (next - 3)
      (.rest buf (next + (c - 3)) (length - (c - 3))) heap

/-- A new PDU gets a new buffer, since the last one is gone. -/
def encapsulator : Encapsulator Fifo where
  gseCreateVfrag fifo heap maxLength headOffset trailOffset :=
    ⟨.ok, ⟨0, headOffset, 0⟩, fifo,
      Function.update heap 0 ⟨headOffset + maxLength + trailOffset, fun _ => 0⟩⟩
  gseSetVfragLength _ v length := (.ok, { v with length := length })
  gseGetVfragLength _ v := v.length
  gseEncapReceivePdu _ pdu label := (.ok, .whole pdu label)
  gseEncapGetPacket fifo heap desiredLen := getPacket desiredLen.toNat heap fifo

theorem encapsulator_vfrag : VfragLaws encapsulator :=
  ⟨fun _ _ _ _ _ => rfl, fun _ _ _ _ _ => rfl, fun _ _ _ _ => rfl⟩

def Holds (c : Nat) (fifo : Fifo) (heap : Heap) (q : Queued) : Prop :=
  match fifo with
  | .empty => False
  | .whole pdu label => 13 ≤ pdu.start ∧
    q = ⟨pdu.buf, pdu.start + pdu.length + if pdu.length + 10 ≤ c then 0 else 4,
      packets c label (pdu.data heap)⟩
  | .rest buf next length => 3 ≤ next ∧
    q = ⟨buf, next + length, tailPackets c ((heap buf).read next length)⟩

section Place

variable (heap : Heap) (buf start : Nat) (bytes : Bytes)

theorem place_data :
    Vfrag.data ⟨buf, start, bytes.length⟩ (place heap buf start bytes) = bytes := by
  rw [Vfrag.data, place, Function.update_self]
  exact Buffer.read_write_same _ _ _

theorem place_size : (place heap buf start bytes buf).size = (heap buf).size := by
  rw [place, Function.update_self, Buffer.overlay_size]

theorem place_read {off length : Nat} (h : start + bytes.length ≤ off) :
    (place heap buf start bytes buf).read off length = (heap buf).read off length := by
  rw [place, Function.update_self]
  exact Buffer.read_overlay_disjoint _ _ (.inr h)

end Place

theorem trailer_eq {c : Nat} (hc : 14 ≤ c) (n : Nat) :
    (segmentation c hc).trailer 4 n = if n + 10 ≤ c then 0 else 4 := by
  change (if (sizes c n).length = 1 then 0 else 4) = _
  rw [sizes]
  by_cases h : n + 10 ≤ c
  · rw [if_pos h, if_pos h]
    rfl
  · rw [if_neg h, if_neg h, List.length_cons]
    refine if_neg fun hone => tailSizes_ne_nil c (n + 4 - (c - 13)) ?_
    exact List.length_eq_zero_iff.mp (Nat.succ.inj hone)

/-- The result is the next packet of a PDU, in place: it ends where the PDU, or its CRC,
    ends, or before the rest. -/
def Gives (c : Nat) (r : VfragResult Fifo) (heap : Heap) (buf stop : Nat) (p : Bytes)
    (ps : List Bytes) : Prop :=
  ∃ start next before, r = placed p buf start next before ∧
    (before buf).size = (heap buf).size ∧
    ((ps = [] ∧ start + p.length = stop ∧ next = .empty) ∨
      (ps ≠ [] ∧ start + p.length ≤ stop ∧
        Holds c next (place before buf start p) ⟨buf, stop, ps⟩))

/-- The first call for a PDU gives a complete packet, or a first one with the CRC stored
    after the PDU. -/
theorem getPacket_whole {c : Nat} (hc : 14 ≤ c) {heap : Heap} {pdu : Vfrag} {label : Label}
    (hstart : 13 ≤ pdu.start) {p : Bytes} {ps : List Bytes}
    (hpackets : packets c label (pdu.data heap) = p :: ps) :
    Gives c (getPacket c heap (.whole pdu label)) heap pdu.buf
      (pdu.start + pdu.length + if pdu.length + 10 ≤ c then 0 else 4) p ps := by
  have hlen : (pdu.data heap).length = pdu.length := Buffer.read_length _ _ _
  by_cases hwhole : pdu.length + 10 ≤ c
  · rw [packets, if_pos (hlen.symm ▸ hwhole)] at hpackets
    cases hpackets
    refine ⟨pdu.start - 10, .empty, heap, ?_, rfl, .inl ⟨rfl, ?_, rfl⟩⟩
    · simp only [getPacket, if_pos hwhole]
    · rw [length_encode, length_address, hlen, if_pos hwhole]
      omega
  · rw [packets, if_neg (hlen.symm ▸ hwhole)] at hpackets
    have hcount : c - 13 + (pdu.length + 4 - (c - 13)) =
        (pdu.data heap ++ crc (pdu.data heap)).length := by
      rw [List.length_append, length_crc, hlen]
      omega
    have hsent : (encode .first (firstExtra label (pdu.data heap))
        ((pdu.data heap ++ crc (pdu.data heap)).take (c - 13))).length = c := by
      rw [length_encode, length_firstExtra, List.length_take, ← hcount]
      omega
    -- the PDU and its CRC in the buffer, of which the first packet takes a part
    have hstream := place_data heap pdu.buf pdu.start (pdu.data heap ++ crc (pdu.data heap))
    have hrest := Buffer.drop_read (place heap pdu.buf pdu.start
      (pdu.data heap ++ crc (pdu.data heap)) pdu.buf) pdu.start (c - 13)
      (pdu.length + 4 - (c - 13))
    rw [hcount] at hrest
    rw [Vfrag.data] at hstream
    rw [hstream] at hrest
    have hstop : pdu.start + (c - 13) + (pdu.length + 4 - (c - 13)) =
        pdu.start + pdu.length + 4 := by omega
    cases hpackets
    refine ⟨pdu.start - 13, .rest pdu.buf (pdu.start + (c - 13)) (pdu.length + 4 - (c - 13)),
      place heap pdu.buf pdu.start (pdu.data heap ++ crc (pdu.data heap)), ?_,
      place_size _ _ _ _, .inr ⟨tailPackets_ne_nil _ _, ?_, ?_, ?_⟩⟩
    · simp only [getPacket, if_neg hwhole]
    · rw [hsent, if_neg hwhole]
      omega
    · omega
    · rw [if_neg hwhole, place_read _ _ _ _ (by rw [hsent]; omega), ← hrest, hstop]

/-- A later call gives a middle or the last packet. -/
theorem getPacket_rest {c : Nat} (hc : 14 ≤ c) {heap : Heap} {buf next length : Nat}
    (hnext : 3 ≤ next) {p : Bytes} {ps : List Bytes}
    (hpackets : tailPackets c ((heap buf).read next length) = p :: ps) :
    Gives c (getPacket c heap (.rest buf next length)) heap buf (next + length) p ps := by
  have hlen : ((heap buf).read next length).length = length := Buffer.read_length _ _ _
  by_cases hlast : length + 3 ≤ c
  · rw [tailPackets, dif_pos (.inr (by rw [hlen]; exact hlast))] at hpackets
    cases hpackets
    refine ⟨next - 3, .empty, heap, ?_, rfl, .inl ⟨rfl, ?_, rfl⟩⟩
    · simp only [getPacket, if_pos hlast]
    · rw [length_encode, List.length_singleton, hlen]
      omega
  · rw [tailPackets, dif_neg (by rw [hlen]; omega)] at hpackets
    have hcount : c - 3 + (length - (c - 3)) = length := by omega
    have hsent : (encode .middle [0] (((heap buf).read next length).take (c - 3))).length = c := by
      rw [length_encode, List.length_singleton, List.length_take, hlen]
      omega
    have hrest := Buffer.drop_read (heap buf) next (c - 3) (length - (c - 3))
    rw [hcount] at hrest
    have hstop : next + (c - 3) + (length - (c - 3)) = next + length := by omega
    cases hpackets
    refine ⟨next - 3, .rest buf (next + (c - 3)) (length - (c - 3)), heap, ?_, rfl,
      .inr ⟨tailPackets_ne_nil _ _, ?_, ?_, ?_⟩⟩
    · simp only [getPacket, if_neg hlast]
    · rw [hsent]
      omega
    · omega
    · rw [place_read _ _ _ _ (by rw [hsent]; omega), ← hrest, hstop]

theorem getPacket_gives {c : Nat} (hc : 14 ≤ c) {heap : Heap} {fifo : Fifo} {q : Queued}
    (h : Holds c fifo heap q) {p : Bytes} {ps : List Bytes} (hpackets : q.packets = p :: ps) :
    Gives c (encapsulator.gseEncapGetPacket fifo heap (segmentation c hc).capacity) heap q.buf
      q.stop p ps := by
  cases fifo with
  | empty => exact absurd h id
  | whole pdu label =>
    obtain ⟨hstart, rfl⟩ := h
    exact getPacket_whole hc hstart hpackets
  | rest buf next length =>
    obtain ⟨hnext, rfl⟩ := h
    exact getPacket_rest hc hnext hpackets

theorem encapsulator_fifo {c : Nat} (hc : 14 ≤ c) :
    SegmentingLaws encapsulator ⟨13, 4⟩ (segmentation c hc) 4 (· = .empty) (Holds c) where
  crc_le := Nat.le_refl 4
  create _ _ _ _ hempty := hempty
  receive := by
    intro fifo heap pdu label _ hstart _ _
    refine ⟨rfl, packets c label (pdu.data heap), ⟨label, rfl⟩, hstart, ?_⟩
    rw [trailer_eq]
  get_none := by
    rintro _ heap rfl
    exact ⟨rfl, rfl⟩
  get_some := by
    intro fifo heap q p ps h hpackets
    obtain ⟨start, next, before, hget, hsize, hcases⟩ := getPacket_gives hc h hpackets
    rw [hget]
    refine ⟨rfl, rfl, place_data _ _ _ _, ?_, (place_size _ _ _ _).trans hsize⟩
    rcases hcases with ⟨_, hstop, _⟩ | ⟨_, hstop, _⟩
    · exact Nat.le_of_eq hstop
    · exact hstop
  get_last := by
    intro fifo heap q p h hpackets
    obtain ⟨start, next, before, hget, _, ⟨_, hstop, hempty⟩ | ⟨hne, _⟩⟩ :=
      getPacket_gives hc h hpackets
    · rw [hget]
      exact ⟨hstop, hempty⟩
    · exact absurd rfl hne
  get_more := by
    intro fifo heap q p ps h hpackets hne
    obtain ⟨start, next, before, hget, _, ⟨hnil, _⟩ | ⟨_, _, hrest⟩⟩ :=
      getPacket_gives hc h hpackets
    · exact absurd hnil hne
    · rw [hget]
      exact hrest

/-! ### Deencapsulation -/

def deencapPacket (fragments : Option Bytes) (window : Bytes) : Deencap (Option Bytes) :=
  match decode window with
  | none =>
    -- a header without start bit, end bit and label type is padding
    if window.head?.any (· < 16) then ⟨.paddingDetected, none, [], fragments⟩
    else ⟨.other 1, none, [], fragments⟩
  | some p =>
    match absorb fragments p with
    | (some m, fragments) => ⟨.pduReceived, some (.ofNat p.size), m, fragments⟩
    | (none, fragments) => ⟨.ok, some (.ofNat p.size), [], fragments⟩

def decapsulator : Decapsulator (Option Bytes) where
  gseCreateVfragWithData fragments bytes := ⟨.ok, bytes, fragments⟩
  gseDeencapPacket := deencapPacket

theorem decapsulator_receive : decapsulator.receive = receive := by
  funext fragments window
  have hcall : decapsulator.deencap fragments window = deencapPacket fragments window := rfl
  rw [Decapsulator.receive, hcall, receive, deencapPacket]
  cases decode window with
  | none => dsimp only; split <;> rfl
  | some p =>
    rcases habsorb : absorb fragments p with ⟨_ | m, next⟩
    · simp only [habsorb]
      rfl
    · simp only [habsorb]
      rfl

theorem decapsulator_packets {c : Nat} (hc : 14 ≤ c ∧ c ≤ 4097) :
    PacketLaws decapsulator (segmentation c hc.1) (· = none) (Awaits c) where
  vfrag _ _ := ⟨rfl, rfl⟩
  reassembles := by
    rw [decapsulator_receive]
    exact receive_reassembles hc
  packet := by
    intro fragments p ps m n hawaits
    obtain ⟨pk, hdecode, hsize, habsorb⟩ := hawaits.decode hc
    have hwhole := hdecode []
    rw [List.append_nil] at hwhole
    have hcall : decapsulator.deencap fragments (p ++ List.replicate n 0) =
        deencapPacket fragments (p ++ List.replicate n 0) := rfl
    have hreceive : receive fragments (p ++ List.replicate n 0) = receive fragments p := by
      rw [receive, receive, hdecode, hwhole]
    rw [decapsulator_receive]
    intro window
    rw [hcall, deencapPacket, hdecode, ← hsize]
    rcases habsorb with ⟨_, habsorb⟩ | ⟨_, a, habsorb, _⟩
    · simp only [habsorb]
      exact ⟨by decide, trivial, hreceive⟩
    · simp only [habsorb]
      exact ⟨by decide, trivial, hreceive⟩
  padding := by
    intro fragments n hn
    obtain ⟨n, rfl⟩ := Nat.exists_eq_succ_of_ne_zero (Nat.ne_of_gt hn)
    have hdecode : decode (List.replicate (n + 1) 0) = none := by
      cases n <;> rfl
    have hcall : decapsulator.deencap fragments (List.replicate (n + 1) 0) =
        ⟨.paddingDetected, none, [], fragments⟩ := by
      change deencapPacket fragments (List.replicate (n + 1) 0) = _
      rw [deencapPacket, hdecode]
      rfl
    rw [hcall]
    exact ⟨rfl, .refl _ _ _⟩

end DvbGseTunnel.Reference
