import DvbGseTunnel.Lib.Numerals
import Mathlib.Data.List.GetD

/-!
# Packet headers

`pkt_header.c`. A parser gets a buffer with its length and the previous contents
of the header it fills. It has no result where it reads past the end of the
buffer, otherwise its return value and the new header.
-/

namespace DvbGseTunnel

open Lib

def MIN_IP_PKT_SIZE : Nat := 20
def MIN_MAC_PKT_SIZE : Nat := 16

structure PktHeader where
  src : UInt64
  dst : UInt64
  qos : UInt8
deriving DecidableEq, Repr

/-! ### Ethernet -/

def compileMacAddress (byte0 byte1 byte2 byte3 byte4 byte5 : UInt8) : UInt64 :=
  let addr := byte0.toUInt64
  let addr := (addr <<< 8) + byte1.toUInt64
  let addr := (addr <<< 8) + byte2.toUInt64
  let addr := (addr <<< 8) + byte3.toUInt64
  let addr := (addr <<< 8) + byte4.toUInt64
  (addr <<< 8) + byte5.toUInt64

/-- `%02x`. -/
def hexByte (b : UInt8) : List Char := [Nat.digitChar (b.toNat / 16), Nat.digitChar (b.toNat % 16)]

/-- `%02x` for each byte, with colons between them. -/
def colonHex (bytes : List UInt8) : List Char := [':'].intercalate (bytes.map hexByte)

def macAddressStr (addr : UInt64) : List Char :=
  let b5 := (addr &&& 0xff).toUInt8
  let addr := addr >>> 8
  let b4 := (addr &&& 0xff).toUInt8
  let addr := addr >>> 8
  let b3 := (addr &&& 0xff).toUInt8
  let addr := addr >>> 8
  let b2 := (addr &&& 0xff).toUInt8
  let addr := addr >>> 8
  let b1 := (addr &&& 0xff).toUInt8
  let addr := addr >>> 8
  let b0 := (addr &&& 0xff).toUInt8
  colonHex [b0, b1, b2, b3, b4, b5]

def parseMacHeader (buffer : List UInt8) (len : Nat) (pkth : PktHeader) :
    Option (Int × PktHeader) :=
  if len < MIN_MAC_PKT_SIZE then some (-1, pkth)
  else do
    let type : UInt16 := ((← buffer[12]?).toUInt16 <<< 8) + (← buffer[13]?).toUInt16
    let dst := compileMacAddress (← buffer[0]?) (← buffer[1]?) (← buffer[2]?) (← buffer[3]?)
      (← buffer[4]?) (← buffer[5]?)
    let src := compileMacAddress (← buffer[6]?) (← buffer[7]?) (← buffer[8]?) (← buffer[9]?)
      (← buffer[10]?) (← buffer[11]?)
    if type = 0x8100 then -- 802.1Q
      let tag ← buffer[14]?
      some (0, ⟨src, dst, (tag >>> 1) &&& 0x7⟩)
    else if type = 0x88A8 ∨ type = 0x9100 then -- 802.1AD (Q in Q)
      let tag ← buffer[16]?
      some (0, ⟨src, dst, (tag >>> 1) &&& 0x7⟩)
    else some (0, ⟨src, dst, 0⟩)

/-! ### IPv4 -/

def compileIpv4Address (byte0 byte1 byte2 byte3 : UInt8) : UInt32 :=
  (byte0.toUInt32 <<< 24) + (byte1.toUInt32 <<< 16) + (byte2.toUInt32 <<< 8) + byte3.toUInt32

/-- `%u` for each byte, with dots between them. -/
def dottedDecimal (bytes : List UInt8) : List Char :=
  ['.'].intercalate (bytes.map fun b => Nat.toDigits 10 b.toNat)

def ipv4AddressStr (addr : UInt32) : List Char :=
  let b0 := (addr >>> 24).toUInt8
  -- `b0 << 24` is an `int`, negative from 128 on, and converted for the subtraction
  let b1 := ((addr - (b0.toUInt32 <<< 24)) >>> 16).toUInt8
  let b2 := ((addr - (b0.toUInt32 <<< 24) - (b1.toUInt32 <<< 16)) >>> 8).toUInt8
  let b3 :=
    (addr - (b0.toUInt32 <<< 24) - (b1.toUInt32 <<< 16) - (b2.toUInt32 <<< 8)).toUInt8
  dottedDecimal [b3, b2, b1, b0]

def parseIpv4Header (buffer : List UInt8) (len : Nat) (pkth : PktHeader) :
    Option (Int × PktHeader) := do
  let version := ((← buffer[0]?) &&& 0xf0) >>> 4
  if version ≠ 4 then some (-1, pkth)
  else if len < MIN_IP_PKT_SIZE then some (-1, pkth)
  else
    let src := compileIpv4Address (← buffer[12]?) (← buffer[13]?) (← buffer[14]?) (← buffer[15]?)
    let dst := compileIpv4Address (← buffer[16]?) (← buffer[17]?) (← buffer[18]?) (← buffer[19]?)
    let qos := (← buffer[1]?) >>> 2
    some (0, ⟨src.toUInt64, dst.toUInt64, qos⟩)

/-! ### Reads -/

theorem getElem?_of_lt {buffer : List UInt8} {i : Nat} (h : i < buffer.length) :
    buffer[i]? = some (buffer.getD i 0) := by
  rw [List.getElem?_eq_getElem h, List.getD_eq_getElem _ _ h]

/-- The ethertype of a frame. -/
def etherType (buffer : List UInt8) : Nat :=
  256 * (buffer.getD 12 0).toNat + (buffer.getD 13 0).toNat

theorem type_eq_iff {buffer : List UInt8} (type : UInt16) :
    ((buffer.getD 12 0).toUInt16 <<< 8) + (buffer.getD 13 0).toUInt16 = type ↔
      etherType buffer = type.toNat := by
  have h12 := (buffer.getD 12 0).toNat_lt
  have h13 := (buffer.getD 13 0).toNat_lt
  rw [← UInt16.toNat_inj]
  unfold etherType
  simp only [UInt16.toNat_add, UInt16.toNat_shiftLeft, UInt8.toNat_toUInt16, Nat.shiftLeft_eq]
  simp only [UInt16.reduceToNat, Nat.reduceMod, Nat.reducePow] at *
  omega

/-- The frame has the ethertype of 802.1ad. -/
def QinQ (buffer : List UInt8) : Prop :=
  etherType buffer = 0x88A8 ∨ etherType buffer = 0x9100

instance (buffer : List UInt8) : Decidable (QinQ buffer) :=
  inferInstanceAs (Decidable (_ ∨ _))

def qosAt (buffer : List UInt8) (i : Nat) : UInt8 := (buffer.getD i 0 >>> 1) &&& 0x7

/-- What `parse_mac_header` extracts. -/
def macHeader (buffer : List UInt8) : PktHeader where
  src := compileMacAddress (buffer.getD 6 0) (buffer.getD 7 0) (buffer.getD 8 0)
    (buffer.getD 9 0) (buffer.getD 10 0) (buffer.getD 11 0)
  dst := compileMacAddress (buffer.getD 0 0) (buffer.getD 1 0) (buffer.getD 2 0)
    (buffer.getD 3 0) (buffer.getD 4 0) (buffer.getD 5 0)
  qos :=
    if etherType buffer = 0x8100 then qosAt buffer 14
    else if QinQ buffer then qosAt buffer 16
    else 0

theorem parseMacHeader_short {buffer : List UInt8} (h : buffer.length < MIN_MAC_PKT_SIZE)
    (pkth : PktHeader) : parseMacHeader buffer buffer.length pkth = some (-1, pkth) := by
  unfold parseMacHeader
  rw [if_pos h]

/-- A frame of the minimal length is parsed, where its tag is not read past its end. -/
theorem parseMacHeader_frame {buffer : List UInt8} (h : MIN_MAC_PKT_SIZE ≤ buffer.length)
    (pkth : PktHeader) :
    parseMacHeader buffer buffer.length pkth =
      if QinQ buffer ∧ buffer.length = MIN_MAC_PKT_SIZE then none
      else some (0, macHeader buffer) := by
  unfold MIN_MAC_PKT_SIZE at h
  have hread : ∀ i, i < 16 → buffer[i]? = some (buffer.getD i 0) :=
    fun i hi => getElem?_of_lt (Nat.lt_of_lt_of_le hi h)
  unfold parseMacHeader macHeader MIN_MAC_PKT_SIZE
  rw [if_neg (Nat.not_lt.mpr h)]
  simp only [hread, Nat.reduceLT, Option.bind_eq_bind, Option.bind_some, type_eq_iff]
  change (if etherType buffer = 0x8100 then _ else if QinQ buffer then _ else _) = _
  by_cases htag : etherType buffer = 0x8100
  · have hnot : ¬QinQ buffer := by
      unfold QinQ
      omega
    rw [if_pos htag, if_pos htag, if_neg fun hboth => hnot hboth.1]
    rfl
  · rw [if_neg htag, if_neg htag]
    by_cases hqinq : QinQ buffer
    · rw [if_pos hqinq, if_pos hqinq]
      by_cases hlen : buffer.length = 16
      · rw [if_pos ⟨hqinq, hlen⟩, List.getElem?_eq_none (Nat.le_of_eq hlen), Option.bind_none]
      · rw [if_neg fun hboth => hlen hboth.2, getElem?_of_lt (by omega)]
        rfl
    · rw [if_neg hqinq, if_neg hqinq, if_neg fun hboth => hqinq hboth.1]

theorem parseMacHeader_accepted {buffer : List UInt8} {pkth pkth' : PktHeader}
    (h : parseMacHeader buffer buffer.length pkth = some (0, pkth')) :
    MIN_MAC_PKT_SIZE ≤ buffer.length ∧ pkth' = macHeader buffer := by
  have hlen : MIN_MAC_PKT_SIZE ≤ buffer.length := by
    by_contra hshort
    rw [parseMacHeader_short (Nat.lt_of_not_le hshort)] at h
    cases h
  refine ⟨hlen, ?_⟩
  rw [parseMacHeader_frame hlen] at h
  by_cases hoverrun : QinQ buffer ∧ buffer.length = MIN_MAC_PKT_SIZE
  · rw [if_pos hoverrun] at h
    cases h
  · rw [if_neg hoverrun] at h
    exact (Prod.mk.inj (Option.some.inj h)).2.symm

/-- The version of an IPv4 packet. -/
def Version4 (buffer : List UInt8) : Prop := (buffer.getD 0 0 &&& 0xf0) >>> 4 = 4

instance (buffer : List UInt8) : Decidable (Version4 buffer) :=
  inferInstanceAs (Decidable (_ = _))

/-- What `parse_ipv4_header` extracts. -/
def ipv4Header (buffer : List UInt8) : PktHeader where
  src := (compileIpv4Address (buffer.getD 12 0) (buffer.getD 13 0) (buffer.getD 14 0)
    (buffer.getD 15 0)).toUInt64
  dst := (compileIpv4Address (buffer.getD 16 0) (buffer.getD 17 0) (buffer.getD 18 0)
    (buffer.getD 19 0)).toUInt64
  qos := buffer.getD 1 0 >>> 2

theorem parseIpv4Header_nil (len : Nat) (pkth : PktHeader) :
    parseIpv4Header [] len pkth = none := rfl

theorem parseIpv4Header_of_ne_nil {buffer : List UInt8} (h : buffer ≠ []) (pkth : PktHeader) :
    parseIpv4Header buffer buffer.length pkth =
      if Version4 buffer ∧ MIN_IP_PKT_SIZE ≤ buffer.length then some (0, ipv4Header buffer)
      else some (-1, pkth) := by
  unfold parseIpv4Header
  rw [getElem?_of_lt (List.length_pos_iff.mpr h)]
  simp only [Option.bind_eq_bind, Option.bind_some]
  change (if ¬Version4 buffer then _ else _) = _
  by_cases hversion : Version4 buffer
  · rw [if_neg (not_not_intro hversion)]
    by_cases hlen : MIN_IP_PKT_SIZE ≤ buffer.length
    · have hread : ∀ i, i < 20 → buffer[i]? = some (buffer.getD i 0) :=
        fun i hi => getElem?_of_lt (Nat.lt_of_lt_of_le hi hlen)
      rw [if_neg (Nat.not_lt.mpr hlen), if_pos ⟨hversion, hlen⟩]
      simp only [hread, Nat.reduceLT, Option.bind_some]
      rfl
    · rw [if_pos (Nat.lt_of_not_le hlen), if_neg fun hboth => hlen hboth.2]
  · rw [if_pos hversion, if_neg fun hboth => hversion hboth.1]

theorem parseIpv4Header_accepted {buffer : List UInt8} {pkth pkth' : PktHeader}
    (h : parseIpv4Header buffer buffer.length pkth = some (0, pkth')) :
    MIN_IP_PKT_SIZE ≤ buffer.length ∧ pkth' = ipv4Header buffer := by
  have hne : buffer ≠ [] := by
    rintro rfl
    rw [parseIpv4Header_nil] at h
    cases h
  rw [parseIpv4Header_of_ne_nil hne] at h
  by_cases haccepted : Version4 buffer ∧ MIN_IP_PKT_SIZE ≤ buffer.length
  · rw [if_pos haccepted] at h
    exact ⟨haccepted.2, (Prod.mk.inj (Option.some.inj h)).2.symm⟩
  · rw [if_neg haccepted] at h
    cases h

/-! ### Addresses -/

theorem bytes_eq {buffer : List UInt8} {i n : Nat} (h : i + n ≤ buffer.length) :
    (buffer.drop i).take n = (List.range n).map fun k => buffer.getD (i + k) 0 := by
  apply List.ext_getElem
  · rw [List.length_take, List.length_drop, List.length_map, List.length_range]
    omega
  · intro k hk hk'
    rw [List.length_map, List.length_range] at hk'
    rw [List.getElem_take, List.getElem_drop, List.getElem_map, List.getElem_range,
      List.getD_eq_getElem]

/-- One step of `compile_mac_address` adds a byte. -/
theorem shiftIn_toNat {addr : UInt64} {bytes : List UInt8} (h : addr.toNat = bigEndian bytes)
    (hlen : bytes.length ≤ 7) (b : UInt8) :
    ((addr <<< 8) + b.toUInt64).toNat = bigEndian (bytes ++ [b]) := by
  have hb := b.toNat_lt
  have hlt := Nat.lt_of_lt_of_le (bigEndian_lt bytes) (Nat.pow_le_pow_right (by decide) hlen)
  rw [bigEndian_concat, UInt64.toNat_add, UInt64.toNat_shiftLeft, UInt8.toNat_toUInt64,
    Nat.shiftLeft_eq, h]
  simp only [UInt64.reduceToNat, Nat.reduceMod]
  omega

/-- One step of `mac_address_str` takes a byte off. -/
theorem shiftOut {addr : UInt64} (bytes : List UInt8) {b : UInt8}
    (h : addr.toNat = bigEndian (bytes ++ [b])) :
    (addr &&& 0xff).toUInt8 = b ∧ (addr >>> 8).toNat = bigEndian bytes := by
  have hb := b.toNat_lt
  rw [bigEndian_concat] at h
  constructor
  · rw [← UInt8.toNat_inj, UInt64.toNat_toUInt8, UInt64.toNat_and, h,
      show (0xff : UInt64).toNat = 2 ^ 8 - 1 from rfl, Nat.and_two_pow_sub_one_eq_mod]
    omega
  · rw [UInt64.toNat_shiftRight, h, Nat.shiftRight_eq_div_pow]
    simp only [UInt64.reduceToNat, Nat.reduceMod]
    omega

theorem compileMacAddress_toNat (b0 b1 b2 b3 b4 b5 : UInt8) :
    (compileMacAddress b0 b1 b2 b3 b4 b5).toNat = bigEndian [b0, b1, b2, b3, b4, b5] := by
  have h0 : b0.toUInt64.toNat = bigEndian [b0] := by
    rw [UInt8.toNat_toUInt64]
    exact (Nat.zero_add _).symm
  have h1 := shiftIn_toNat h0 (by simp) b1
  have h2 := shiftIn_toNat h1 (by simp) b2
  have h3 := shiftIn_toNat h2 (by simp) b3
  have h4 := shiftIn_toNat h3 (by simp) b4
  exact shiftIn_toNat h4 (by simp) b5

/-- Printing a compiled Ethernet address gives its bytes in wire order. -/
theorem macAddressStr_compile (b0 b1 b2 b3 b4 b5 : UInt8) :
    macAddressStr (compileMacAddress b0 b1 b2 b3 b4 b5) =
      colonHex [b0, b1, b2, b3, b4, b5] := by
  have h := compileMacAddress_toNat b0 b1 b2 b3 b4 b5
  obtain ⟨h5, h⟩ := shiftOut [b0, b1, b2, b3, b4] h
  obtain ⟨h4, h⟩ := shiftOut [b0, b1, b2, b3] h
  obtain ⟨h3, h⟩ := shiftOut [b0, b1, b2] h
  obtain ⟨h2, h⟩ := shiftOut [b0, b1] h
  obtain ⟨h1, h⟩ := shiftOut [b0] h
  obtain ⟨h0, -⟩ := shiftOut [] h
  unfold macAddressStr
  simp only [h5, h4, h3, h2, h1, h0]

theorem compileIpv4Address_toNat (b0 b1 b2 b3 : UInt8) :
    (compileIpv4Address b0 b1 b2 b3).toNat = bigEndian [b0, b1, b2, b3] := by
  have h0 := b0.toNat_lt
  have h1 := b1.toNat_lt
  have h2 := b2.toNat_lt
  have h3 := b3.toNat_lt
  unfold compileIpv4Address bigEndian
  simp only [UInt32.toNat_add, UInt32.toNat_shiftLeft, UInt8.toNat_toUInt32, Nat.shiftLeft_eq,
    UInt32.reduceToNat, List.foldl_cons, List.foldl_nil, Nat.reduceMod, Nat.reducePow] at *
  omega

theorem dot_not_mem_octets (bytes : List UInt8) :
    ∀ text ∈ bytes.map fun b => Nat.toDigits 10 b.toNat, '.' ∉ text := by
  intro text htext hmem
  obtain ⟨b, -, rfl⟩ := List.mem_map.mp htext
  exact absurd (isDigit_of_mem_decimal hmem) (by decide)

/-- One step of `ipv4_address_str` splits a byte off the top. -/
theorem splitOff {w : UInt32} {b : UInt8} {bytes : List UInt8}
    (h : w.toNat = bigEndian (b :: bytes)) (k : UInt32) (hk : k.toNat = 8 * bytes.length)
    (hlen : bytes.length ≤ 3) :
    (w >>> k).toUInt8 = b ∧ (w - (b.toUInt32 <<< k)).toNat = bigEndian bytes := by
  have hmod : k.toNat % 32 = k.toNat := Nat.mod_eq_of_lt (by omega)
  have hplace : 2 ^ k.toNat = 256 ^ bytes.length := by
    rw [hk, Nat.pow_mul]
  have hrest := bigEndian_lt bytes
  have hw := w.toNat_lt
  have hb := b.toNat_lt
  rw [bigEndian_cons] at h
  constructor
  · rw [← UInt8.toNat_inj, UInt32.toNat_toUInt8, UInt32.toNat_shiftRight, hmod,
      Nat.shiftRight_eq_div_pow, hplace, h, Nat.mul_add_div (Nat.pow_pos (by decide)),
      Nat.div_eq_of_lt hrest]
    omega
  · rw [UInt32.toNat_sub, UInt32.toNat_shiftLeft, UInt8.toNat_toUInt32, hmod, Nat.shiftLeft_eq,
      hplace, Nat.mul_comm, h]
    omega

/-- Printing an IPv4 address starts with its least significant byte. -/
theorem ipv4AddressStr_bigEndian {addr : UInt32} {b0 b1 b2 b3 : UInt8}
    (h : addr.toNat = bigEndian [b0, b1, b2, b3]) :
    ipv4AddressStr addr = dottedDecimal [b3, b2, b1, b0] := by
  obtain ⟨h0, h⟩ := splitOff h 24 rfl (by simp)
  obtain ⟨h1, h⟩ := splitOff h 16 rfl (by simp)
  obtain ⟨h2, h⟩ := splitOff h 8 rfl (by simp)
  have h3 : (addr - (b0.toUInt32 <<< 24) - (b1.toUInt32 <<< 16) -
      (b2.toUInt32 <<< 8)).toUInt8 = b3 := by
    have hb := b3.toNat_lt
    rw [← UInt8.toNat_inj, UInt32.toNat_toUInt8, h, bigEndian_cons]
    change (256 ^ 0 * b3.toNat + 0) % 2 ^ 8 = b3.toNat
    omega
  unfold ipv4AddressStr
  simp only [h0, h1, h2, h3]

end DvbGseTunnel
