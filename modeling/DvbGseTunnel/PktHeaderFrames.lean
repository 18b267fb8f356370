import DvbGseTunnel.PktHeader
import Mathlib.Data.List.Basic

/-!
# Header parsers and frames

`parse_mac_header` and `parse_ipv4_header` against the packets they parse: which
bytes they read, which bits of a tagged frame they take for its priority, and how
the addresses they extract are printed.
-/

namespace DvbGseTunnel

open Lib

/-! ### Reads -/

/-- A parser reads inside its buffer only, and leaves the header alone where it
    returns -1. -/
def ReadsPacketOnly (parse : List UInt8 → Nat → PktHeader → Option (Int × PktHeader))
    (buffer : List UInt8) : Prop :=
  ∀ pkth, ∃ ret pkth', parse buffer buffer.length pkth = some (ret, pkth') ∧
    (ret = -1 → pkth' = pkth)

theorem parseMacHeader_reads_iff (buffer : List UInt8) :
    ReadsPacketOnly parseMacHeader buffer ↔
      ¬(buffer.length = MIN_MAC_PKT_SIZE ∧ QinQ buffer) := by
  by_cases hshort : buffer.length < MIN_MAC_PKT_SIZE
  · refine iff_of_true ?_ fun hoverrun => Nat.ne_of_lt hshort hoverrun.1
    intro pkth
    exact ⟨-1, pkth, parseMacHeader_short hshort pkth, fun _ => rfl⟩
  · have hparse := parseMacHeader_frame (Nat.le_of_not_lt hshort)
    by_cases hoverrun : QinQ buffer ∧ buffer.length = MIN_MAC_PKT_SIZE
    · refine iff_of_false ?_ (not_not_intro hoverrun.symm)
      intro hreads
      obtain ⟨ret, pkth', hsome, -⟩ := hreads ⟨0, 0, 0⟩
      rw [hparse, if_pos hoverrun] at hsome
      cases hsome
    · refine iff_of_true ?_ fun hboth => hoverrun hboth.symm
      intro pkth
      refine ⟨0, macHeader buffer, ?_, fun hret => absurd hret (by decide)⟩
      rw [hparse, if_neg hoverrun]

theorem parseIpv4Header_reads_iff (buffer : List UInt8) :
    ReadsPacketOnly parseIpv4Header buffer ↔ buffer ≠ [] := by
  by_cases hnil : buffer = []
  · subst hnil
    refine iff_of_false ?_ (not_not_intro rfl)
    intro hreads
    obtain ⟨ret, pkth', hsome, -⟩ := hreads ⟨0, 0, 0⟩
    rw [parseIpv4Header_nil] at hsome
    cases hsome
  · refine iff_of_true ?_ hnil
    intro pkth
    have hparse := parseIpv4Header_of_ne_nil hnil pkth
    by_cases haccepted : Version4 buffer ∧ MIN_IP_PKT_SIZE ≤ buffer.length
    · rw [if_pos haccepted] at hparse
      exact ⟨0, _, hparse, fun hret => absurd hret (by decide)⟩
    · rw [if_neg haccepted] at hparse
      exact ⟨-1, pkth, hparse, fun _ => rfl⟩

/-- **When the parsers read the packet only.** On every buffer that is not empty and not
    a Q in Q frame of exactly the minimal length. -/
theorem headers_read_packet_iff (buffer : List UInt8) :
    ReadsPacketOnly parseMacHeader buffer ∧ ReadsPacketOnly parseIpv4Header buffer ↔
      buffer ≠ [] ∧ ¬(buffer.length = MIN_MAC_PKT_SIZE ∧ QinQ buffer) := by
  rw [parseMacHeader_reads_iff, parseIpv4Header_reads_iff, and_comm]

/-- Sixteen bytes with the ethertype 0x88A8. -/
def shortQinQ : List UInt8 := [0, 0, 0, 0, 0, 0, 0, 0, 0, 0, 0, 0, 0x88, 0xa8, 0, 0]

theorem short_frames_overrun :
    ¬ReadsPacketOnly parseMacHeader shortQinQ ∧ ¬ReadsPacketOnly parseIpv4Header [] := by
  rw [parseMacHeader_reads_iff, parseIpv4Header_reads_iff]
  decide

/-! ### Tags -/

/-- The Priority Code Point of the tag control information at byte `i`. -/
def pcpAt (buffer : List UInt8) (i : Nat) : Nat := (buffer.getD i 0).toNat / 32

/-- The ethertype after the outer tag is again one of a tag. -/
def InnerTagged (buffer : List UInt8) : Prop :=
  256 * (buffer.getD 16 0).toNat + (buffer.getD 17 0).toNat ∈ [0x8100, 0x88A8, 0x9100]

instance (buffer : List UInt8) : Decidable (InnerTagged buffer) :=
  inferInstanceAs (Decidable (_ ∈ _))

/-- The frame has the minimal length and holds its tags. -/
def LongEnough (buffer : List UInt8) : Prop :=
  MIN_MAC_PKT_SIZE ≤ buffer.length ∧
    (QinQ buffer → 18 ≤ buffer.length ∧ (InnerTagged buffer → 20 ≤ buffer.length))

instance (buffer : List UInt8) : Decidable (LongEnough buffer) :=
  inferInstanceAs (Decidable (_ ∧ _))

/-- The priority of a frame: that of its tag, of one of its two tags, or 0. -/
def IsPriority (buffer : List UInt8) (qos : Nat) : Prop :=
  if etherType buffer = 0x8100 then qos = pcpAt buffer 14
  else if QinQ buffer then qos = pcpAt buffer 14 ∨ (InnerTagged buffer ∧ qos = pcpAt buffer 18)
  else qos = 0

instance (buffer : List UInt8) (qos : Nat) : Decidable (IsPriority buffer qos) :=
  inferInstanceAs (Decidable (if etherType buffer = 0x8100 then qos = pcpAt buffer 14
    else if QinQ buffer then qos = pcpAt buffer 14 ∨ (InnerTagged buffer ∧ qos = pcpAt buffer 18)
    else qos = 0))

/-- The header holds the addresses of the frame in wire order and its priority. -/
structure HeaderOfFrame (buffer : List UInt8) (pkth : PktHeader) : Prop where
  dst : pkth.dst.toNat = bigEndian (buffer.take 6)
  src : pkth.src.toNat = bigEndian ((buffer.drop 6).take 6)
  qos : IsPriority buffer pkth.qos.toNat

/-- The bits 1 to 3 of the byte the code looks at are those of the tag. -/
def PriorityBitsAgree (buffer : List UInt8) : Prop :=
  (etherType buffer = 0x8100 → (buffer.getD 14 0).toNat / 2 % 8 = pcpAt buffer 14) ∧
  (QinQ buffer → (buffer.getD 16 0).toNat / 2 % 8 = pcpAt buffer 14 ∨
    (InnerTagged buffer ∧ (buffer.getD 16 0).toNat / 2 % 8 = pcpAt buffer 18))

instance (buffer : List UInt8) : Decidable (PriorityBitsAgree buffer) :=
  inferInstanceAs (Decidable ((_ → _) ∧ (_ → _)))

theorem qosAt_toNat (buffer : List UInt8) (i : Nat) :
    (qosAt buffer i).toNat = (buffer.getD i 0).toNat / 2 % 8 := by
  unfold qosAt
  rw [UInt8.toNat_and, UInt8.toNat_shiftRight, Nat.shiftRight_eq_div_pow,
    show (0x7 : UInt8).toNat = 2 ^ 3 - 1 from rfl, Nat.and_two_pow_sub_one_eq_mod]
  rfl

theorem macHeader_dst {buffer : List UInt8} (h : MIN_MAC_PKT_SIZE ≤ buffer.length) :
    (macHeader buffer).dst.toNat = bigEndian (buffer.take 6) := by
  unfold MIN_MAC_PKT_SIZE at h
  have hfits : 0 + 6 ≤ buffer.length := by omega
  rw [← List.drop_zero (l := buffer), bytes_eq hfits]
  exact compileMacAddress_toNat _ _ _ _ _ _

theorem macHeader_src {buffer : List UInt8} (h : MIN_MAC_PKT_SIZE ≤ buffer.length) :
    (macHeader buffer).src.toNat = bigEndian ((buffer.drop 6).take 6) := by
  unfold MIN_MAC_PKT_SIZE at h
  rw [bytes_eq (by omega)]
  exact compileMacAddress_toNat _ _ _ _ _ _

theorem macHeader_qos_iff (buffer : List UInt8) :
    IsPriority buffer (macHeader buffer).qos.toNat ↔ PriorityBitsAgree buffer := by
  unfold IsPriority PriorityBitsAgree macHeader
  by_cases htag : etherType buffer = 0x8100
  · have hnot : ¬QinQ buffer := by
      unfold QinQ
      omega
    simp only [htag, hnot, if_true, qosAt_toNat, true_implies, false_implies, and_true]
  · by_cases hqinq : QinQ buffer
    · simp only [htag, hqinq, if_true, if_false, qosAt_toNat, true_implies, false_implies,
        true_and]
    · simp only [htag, hqinq, if_false, false_implies, and_true, iff_true]
      rfl

/-- **When the priority is the one of the tag.** For every frame that holds its tags:
    `parse_mac_header` returns 0 with the addresses and the priority of the frame
    exactly if the bits 1 to 3 the code takes are the three most significant bits of
    the tag. -/
theorem parseMacHeader_tags_iff (buffer : List UInt8) (h : LongEnough buffer) :
    (∀ pkth, ∃ pkth', parseMacHeader buffer buffer.length pkth = some (0, pkth') ∧
        HeaderOfFrame buffer pkth') ↔ PriorityBitsAgree buffer := by
  obtain ⟨hlen, hqinq⟩ := h
  have hnot : ¬(QinQ buffer ∧ buffer.length = MIN_MAC_PKT_SIZE) := by
    rintro ⟨hq, heq⟩
    have hlong := (hqinq hq).1
    rw [heq] at hlong
    exact absurd hlong (by decide)
  have hparse : ∀ pkth, parseMacHeader buffer buffer.length pkth =
      some (0, macHeader buffer) := by
    intro pkth
    rw [parseMacHeader_frame hlen, if_neg hnot]
  rw [← macHeader_qos_iff]
  constructor
  · intro hall
    obtain ⟨pkth', hsome, hheader⟩ := hall ⟨0, 0, 0⟩
    rw [hparse] at hsome
    obtain rfl := (Prod.mk.inj (Option.some.inj hsome)).2
    exact hheader.qos
  · intro hqos pkth
    exact ⟨_, hparse pkth, macHeader_dst hlen, macHeader_src hlen, hqos⟩

/-- A frame with an 802.1Q tag whose control information starts with the byte `tci`. -/
def taggedFrame (tci : UInt8) : List UInt8 :=
  [1, 2, 3, 4, 5, 6, 7, 8, 9, 10, 11, 12, 0x81, 0, tci, 0]

theorem parseMacHeader_priority_zero :
    ∃ pkth', parseMacHeader (taggedFrame 0) 16 ⟨0, 0, 0⟩ = some (0, pkth') ∧
      HeaderOfFrame (taggedFrame 0) pkth' :=
  (parseMacHeader_tags_iff (taggedFrame 0) (by decide)).mpr (by decide) ⟨0, 0, 0⟩

/-- A frame of priority 7 and VLAN 0 gets the priority 0. -/
theorem priority_seven_lost :
    ¬∀ pkth, ∃ pkth', parseMacHeader (taggedFrame 0xe0) 16 pkth = some (0, pkth') ∧
      HeaderOfFrame (taggedFrame 0xe0) pkth' := by
  intro hall
  obtain ⟨pkth', hsome, hheader⟩ := hall ⟨0, 0, 0⟩
  have hqos := hheader.qos
  obtain rfl := (Prod.mk.inj (Option.some.inj hsome)).2
  exact absurd hqos (by decide)

/-! ### Printed addresses -/

theorem dottedDecimal_injective {bytes bytes' : List UInt8} (hne : bytes ≠ [])
    (hne' : bytes' ≠ []) (h : dottedDecimal bytes = dottedDecimal bytes') : bytes = bytes' := by
  have hmap := intercalate_injective (mt List.map_eq_nil_iff.mp hne)
    (mt List.map_eq_nil_iff.mp hne') (dot_not_mem_octets bytes) (dot_not_mem_octets bytes') h
  have hbyte : Function.Injective fun b : UInt8 => Nat.toDigits 10 b.toNat := by
    intro b b' heq
    exact UInt8.toNat_inj.mp (toDigits_injective heq)
  exact List.map_injective_iff.mpr hbyte hmap

/-- An extracted IPv4 address is printed byte by byte from its end. -/
theorem ipv4AddressStr_bytes {buffer : List UInt8} {i : Nat} (h : i + 4 ≤ buffer.length) :
    ipv4AddressStr (compileIpv4Address (buffer.getD i 0) (buffer.getD (i + 1) 0)
      (buffer.getD (i + 2) 0) (buffer.getD (i + 3) 0)) =
      dottedDecimal ((buffer.drop i).take 4).reverse := by
  rw [ipv4AddressStr_bigEndian (compileIpv4Address_toNat _ _ _ _), bytes_eq h]
  rfl

theorem ipv4AddressStr_correct_iff {buffer : List UInt8} {i : Nat} (h : i + 4 ≤ buffer.length) :
    ipv4AddressStr (compileIpv4Address (buffer.getD i 0) (buffer.getD (i + 1) 0)
        (buffer.getD (i + 2) 0) (buffer.getD (i + 3) 0)) =
        dottedDecimal ((buffer.drop i).take 4) ↔
      ((buffer.drop i).take 4).reverse = (buffer.drop i).take 4 := by
  have hlen : ((buffer.drop i).take 4).length = 4 := by
    rw [List.length_take, List.length_drop]
    omega
  have hne : (buffer.drop i).take 4 ≠ [] := List.length_pos_iff.mp (by omega)
  rw [ipv4AddressStr_bytes h]
  constructor
  · intro heq
    exact dottedDecimal_injective (mt List.reverse_eq_nil_iff.mp hne) hne heq
  · intro heq
    rw [heq]

/-- An extracted Ethernet address is printed as its bytes in wire order. -/
theorem macAddressStr_bytes {buffer : List UInt8} {i : Nat} (h : i + 6 ≤ buffer.length) :
    macAddressStr (compileMacAddress (buffer.getD i 0) (buffer.getD (i + 1) 0)
      (buffer.getD (i + 2) 0) (buffer.getD (i + 3) 0) (buffer.getD (i + 4) 0)
      (buffer.getD (i + 5) 0)) = colonHex ((buffer.drop i).take 6) := by
  rw [macAddressStr_compile, bytes_eq h]
  rfl

/-- **When a printed address is the one of the packet.** The addresses of every accepted
    frame are; those of an accepted IPv4 packet are exactly if both read the same
    backwards. -/
theorem printed_addresses_iff (buffer : List UInt8) (pkth pkth' : PktHeader) :
    (parseIpv4Header buffer buffer.length pkth = some (0, pkth') →
      (ipv4AddressStr pkth'.src.toUInt32 = dottedDecimal ((buffer.drop 12).take 4) ∧
          ipv4AddressStr pkth'.dst.toUInt32 = dottedDecimal ((buffer.drop 16).take 4) ↔
        ((buffer.drop 12).take 4).reverse = (buffer.drop 12).take 4 ∧
          ((buffer.drop 16).take 4).reverse = (buffer.drop 16).take 4)) ∧
    (parseMacHeader buffer buffer.length pkth = some (0, pkth') →
      macAddressStr pkth'.dst = colonHex (buffer.take 6) ∧
        macAddressStr pkth'.src = colonHex ((buffer.drop 6).take 6)) := by
  constructor
  · intro hparse
    obtain ⟨hlen, rfl⟩ := parseIpv4Header_accepted hparse
    unfold MIN_IP_PKT_SIZE at hlen
    unfold ipv4Header
    simp only [UInt32.toUInt32_toUInt64]
    rw [ipv4AddressStr_correct_iff (i := 12) (by omega),
      ipv4AddressStr_correct_iff (i := 16) (by omega)]
  · intro hparse
    obtain ⟨hlen, rfl⟩ := parseMacHeader_accepted hparse
    unfold MIN_MAC_PKT_SIZE at hlen
    have hfits : 0 + 6 ≤ buffer.length := by omega
    have hdst := macAddressStr_bytes hfits
    rw [List.drop_zero] at hdst
    exact ⟨hdst, macAddressStr_bytes (i := 6) (by omega)⟩

/-- The source 10.0.0.1 of an IPv4 header is printed as 1.0.0.10. -/
theorem ipv4_address_reversed :
    let packet : List UInt8 := [0x45, 0, 0, 20, 0, 0, 0, 0, 64, 17, 0, 0, 10, 0, 0, 1, 10, 0, 0, 2]
    ∃ pkth', parseIpv4Header packet 20 ⟨0, 0, 0⟩ = some (0, pkth') ∧
      dottedDecimal [10, 0, 0, 1] = ['1', '0', '.', '0', '.', '0', '.', '1'] ∧
      ipv4AddressStr pkth'.src.toUInt32 = ['1', '.', '0', '.', '0', '.', '1', '0'] := by
  exact ⟨_, rfl, by decide, by decide⟩

end DvbGseTunnel
