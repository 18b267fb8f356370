import DvbGseTunnel.Gse
import DvbGseTunnel.Lib.Segmentation

/-!
# Reference packets

The two programs are verified for any library that obeys its documentation. This is one
such library, as far as the packets go: the packet formats of GSE with a six-byte label
(complete, first, middle and last packets with a 12-bit length field), the cutting of a
frame with its CRC-32 into full packets and a last one, and the reassembly.
-/

namespace DvbGseTunnel.Reference

open Lib

/-! ### Formats -/

inductive Kind where
  | complete
  | first
  | middle
  | last
deriving DecidableEq, Repr

/-- The start bit, the end bit and the two bits of the label type. -/
def Kind.bits : Kind → Nat
  | .complete => 12
  | .first => 8
  | .middle => 3
  | .last => 7

def Kind.ofBits : Nat → Option Kind
  | 12 => some .complete
  | 8 => some .first
  | 3 => some .middle
  | 7 => some .last
  | _ => none

/-- The bytes of the header after its first two. -/
def Kind.extra : Kind → Nat
  | .complete => 8
  | .first => 11
  | .middle => 1
  | .last => 1

def encode (k : Kind) (extra body : Bytes) : Bytes :=
  UInt8.ofNat (k.bits * 16 + (extra.length + body.length) / 256) ::
    UInt8.ofNat ((extra.length + body.length) % 256) :: (extra ++ body)

structure Packet where
  kind : Kind
  size : Nat
  body : Bytes
deriving DecidableEq, Repr

/-- The packet at the start of a window. -/
def decode : Bytes → Option Packet
  | t :: l :: rest =>
    match Kind.ofBits (t.toNat / 16) with
    | none => none
    | some k =>
      let n := t.toNat % 16 * 256 + l.toNat
      some ⟨k, n + 2, (rest.take n).drop k.extra⟩
  | _ => none

@[simp] theorem length_encode (k : Kind) (extra body : Bytes) :
    (encode k extra body).length = extra.length + body.length + 2 := by
  simp [encode]

theorem Kind.ofBits_bits (k : Kind) : Kind.ofBits k.bits = some k := by cases k <;> rfl

theorem decode_encode {k : Kind} {extra body : Bytes} (hextra : extra.length = k.extra)
    (hlen : extra.length + body.length < 4096) (tail : Bytes) :
    decode (encode k extra body ++ tail) = some ⟨k, (encode k extra body).length, body⟩ := by
  have hbits : k.bits < 16 := by cases k <;> decide
  have hfirst : (UInt8.ofNat (k.bits * 16 + (extra.length + body.length) / 256)).toNat =
      k.bits * 16 + (extra.length + body.length) / 256 := by
    rw [UInt8.toNat_ofNat']
    omega
  have hsecond : (UInt8.ofNat ((extra.length + body.length) % 256)).toNat =
      (extra.length + body.length) % 256 := by
    rw [UInt8.toNat_ofNat']
    omega
  have hkind : (k.bits * 16 + (extra.length + body.length) / 256) / 16 = k.bits := by omega
  have hcount : (k.bits * 16 + (extra.length + body.length) / 256) % 16 * 256 +
      (extra.length + body.length) % 256 = extra.length + body.length := by omega
  rw [length_encode]
  simp only [encode, List.cons_append, decode, hfirst, hsecond, hkind, hcount, Kind.ofBits_bits]
  rw [List.take_append_of_le_length (by simp), List.take_of_length_le (by simp), ← hextra,
    List.drop_left]

/-! ### Cutting -/

def crcRound (c : UInt32) : UInt32 :=
  if c &&& 0x80000000 ≠ 0 then (c <<< 1) ^^^ 0x04c11db7 else c <<< 1

def crc32 (m : Bytes) : UInt32 :=
  m.foldl (fun c b => Nat.repeat crcRound 8 (c ^^^ b.toUInt32 <<< (24 : UInt32))) 0xffffffff

/-- The four bytes of the CRC of a frame. -/
def crc (m : Bytes) : Bytes :=
  [(crc32 m >>> 24).toUInt8, (crc32 m >>> 16).toUInt8, (crc32 m >>> 8).toUInt8,
    (crc32 m).toUInt8]

@[simp] theorem length_crc (m : Bytes) : (crc m).length = 4 := rfl

/-- The packets after the first one, for the bytes that are left. -/
def tailPackets (c : Nat) (stream : Bytes) : List Bytes :=
  if h : c ≤ 3 ∨ stream.length + 3 ≤ c then [encode .last [0] stream]
  else encode .middle [0] (stream.take (c - 3)) :: tailPackets c (stream.drop (c - 3))
termination_by stream.length
decreasing_by
  rw [List.length_drop]
  omega

/-- The protocol type of the tunnel, 9029, and the label. -/
def address (label : Label) : Bytes := 0x23 :: 0x45 :: label.toList

@[simp] theorem length_address (label : Label) : (address label).length = 8 := by simp [address]

/-- The fragment identifier, the total length, the protocol type and the label. -/
def firstExtra (label : Label) (m : Bytes) : Bytes :=
  0 :: UInt8.ofNat ((m.length + 8) / 256) :: UInt8.ofNat ((m.length + 8) % 256) :: address label

@[simp] theorem length_firstExtra (label : Label) (m : Bytes) :
    (firstExtra label m).length = 11 := by simp [firstExtra]

/-- The packets of a frame, of at most `c` bytes each. -/
def packets (c : Nat) (label : Label) (m : Bytes) : List Bytes :=
  if m.length + 10 ≤ c then [encode .complete (address label) m]
  else encode .first (firstExtra label m) ((m ++ crc m).take (c - 13)) ::
    tailPackets c ((m ++ crc m).drop (c - 13))

def tailSizes (c k : Nat) : List Nat :=
  if h : c ≤ 3 ∨ k + 3 ≤ c then [k + 3] else c :: tailSizes c (k - (c - 3))
termination_by k
decreasing_by omega

def sizes (c n : Nat) : List Nat :=
  if n + 10 ≤ c then [n + 10] else c :: tailSizes c (n + 4 - (c - 13))

theorem tailPackets_sizes (c : Nat) (stream : Bytes) :
    (tailPackets c stream).map List.length = tailSizes c stream.length := by
  induction stream using tailPackets.induct (c := c) with
  | case1 stream h =>
    rw [tailPackets, tailSizes, dif_pos h, dif_pos h]
    simp only [List.map_cons, List.map_nil, length_encode, List.length_singleton]
    congr 1
    omega
  | case2 stream h ih =>
    rw [tailPackets, tailSizes, dif_neg h, dif_neg h, List.map_cons, ih, List.length_drop]
    simp only [length_encode, List.length_singleton, List.length_take]
    congr 1
    omega

theorem packets_sizes {c : Nat} (hc : 14 ≤ c) (label : Label) (m : Bytes) :
    (packets c label m).map List.length = sizes c m.length := by
  by_cases h : m.length + 10 ≤ c
  · rw [packets, sizes, if_pos h, if_pos h]
    simp only [List.map_cons, List.map_nil, length_encode, length_address]
    congr 1
    omega
  · rw [packets, sizes, if_neg h, if_neg h, List.map_cons, tailPackets_sizes]
    simp only [length_encode, length_firstExtra, List.length_take, List.length_drop,
      List.length_append, length_crc]
    congr 1
    omega

theorem tailSizes_ne_nil (c k : Nat) : tailSizes c k ≠ [] := by
  rw [tailSizes]
  split <;> exact List.cons_ne_nil _ _

theorem tailPackets_ne_nil (c : Nat) (stream : Bytes) : tailPackets c stream ≠ [] := by
  rw [tailPackets]
  split <;> exact List.cons_ne_nil _ _

theorem mem_tailSizes {c : Nat} (hc : 3 < c) (k : Nat) :
    ∀ n ∈ tailSizes c k, 0 < n ∧ n ≤ c := by
  induction k using tailSizes.induct (c := c) with
  | case1 k h =>
    rw [tailSizes, dif_pos h]
    intro n hn
    rw [List.mem_singleton.mp hn]
    omega
  | case2 k h ih =>
    rw [tailSizes, dif_neg h]
    intro n hn
    rcases List.mem_cons.mp hn with rfl | hn
    · omega
    · exact ih n hn

theorem tailSizes_full (c k : Nat) : ∀ n ∈ (tailSizes c k).dropLast, n = c := by
  induction k using tailSizes.induct (c := c) with
  | case1 k h =>
    rw [tailSizes, dif_pos h]
    nofun
  | case2 k h ih =>
    rw [tailSizes, dif_neg h, List.dropLast_cons_of_ne_nil (tailSizes_ne_nil _ _)]
    intro n hn
    rcases List.mem_cons.mp hn with rfl | hn
    · rfl
    · exact ih n hn

/-- The last of the packets for `k + 1` bytes holds what is left after full ones. -/
theorem tailSizes_last {c : Nat} (hc : 3 < c) (k : Nat) :
    (tailSizes c (k + 1)).getLast (tailSizes_ne_nil _ _) = k % (c - 3) + 4 := by
  induction k using Nat.strongRecOn with
  | ind k ih =>
    by_cases h : c ≤ 3 ∨ k + 1 + 3 ≤ c
    · have hlast : tailSizes c (k + 1) = [k + 1 + 3] := by rw [tailSizes, dif_pos h]
      simp only [hlast, List.getLast_singleton]
      rw [Nat.mod_eq_of_lt (by omega)]
    · have hcons : tailSizes c (k + 1) = c :: tailSizes c (k - (c - 3) + 1) := by
        rw [tailSizes, dif_neg h]
        congr 2
        omega
      simp only [hcons, List.getLast_cons (tailSizes_ne_nil _ _)]
      rw [ih _ (by omega), Nat.mod_eq_sub_mod (by omega : c - 3 ≤ k)]

/-- The cutting into packets of at most `c` bytes, with whatever label. -/
def segmentation (c : Nat) (hc : 14 ≤ c) : Segmentation where
  capacity := c
  sizes := sizes c
  Cut m ps := ∃ label, ps = packets c label m
  cut_sizes := by
    rintro m ps ⟨label, rfl⟩
    exact packets_sizes hc label m
  sizes_ne_nil n := by
    rw [sizes]
    split <;> exact List.cons_ne_nil _ _
  sizes_pos := by
    intro n k hk
    rw [sizes] at hk
    split at hk
    · rw [List.mem_singleton.mp hk]
      omega
    · rcases List.mem_cons.mp hk with rfl | hk
      · omega
      · exact (mem_tailSizes (by omega) _ k hk).1
  sizes_le := by
    intro n k hk
    rw [sizes] at hk
    split at hk
    · rw [List.mem_singleton.mp hk]
      assumption
    · rcases List.mem_cons.mp hk with rfl | hk
      · exact Nat.le_refl _
      · exact (mem_tailSizes (by omega) _ k hk).2
  sizes_full := by
    intro n k hk
    rw [sizes] at hk
    split at hk
    · cases hk
    · rw [List.dropLast_cons_of_ne_nil (tailSizes_ne_nil _ _)] at hk
      rcases List.mem_cons.mp hk with rfl | hk
      · rfl
      · exact tailSizes_full _ _ k hk

/-! ### Reassembly -/

/-- What a packet adds to the fragments received so far: a frame, or more fragments. -/
def absorb (fragments : Option Bytes) (p : Packet) : Option Bytes × Option Bytes :=
  match p.kind, fragments with
  | .complete, _ => (some p.body, none)
  | .first, _ => (none, some p.body)
  | .middle, some a => (none, some (a ++ p.body))
  | .last, some a =>
    let m := (a ++ p.body).take ((a ++ p.body).length - 4)
    if (a ++ p.body).drop ((a ++ p.body).length - 4) = crc m then (some m, none) else (none, none)
  | _, none => (none, none)

/-- The packets of a frame are still to come, or, after some fragments, those of the rest. -/
inductive Awaits (c : Nat) : Option Bytes → List Bytes → Bytes → Prop
  | whole (label : Label) (m : Bytes) : Awaits c none (packets c label m) m
  | rest {a stream m : Bytes} : a ++ stream = m ++ crc m →
      Awaits c (some a) (tailPackets c stream) m

/-- The packet that is awaited next is found at the start of any window, and taken for
    what it is. -/
theorem Awaits.decode {c : Nat} (hc : 14 ≤ c ∧ c ≤ 4097) {fragments : Option Bytes} {p : Bytes}
    {ps : List Bytes} {m : Bytes} (h : Awaits c fragments (p :: ps) m) :
    ∃ pk : Packet, (∀ tail, Reference.decode (p ++ tail) = some pk) ∧ pk.size = p.length ∧
      ((ps = [] ∧ absorb fragments pk = (some m, none)) ∨
        (ps ≠ [] ∧ ∃ a, absorb fragments pk = (none, some a) ∧ Awaits c (some a) ps m)) := by
  generalize hlist : p :: ps = l at h
  cases h with
  | whole label =>
    by_cases hwhole : m.length + 10 ≤ c
    · rw [packets, if_pos hwhole] at hlist
      cases hlist
      refine ⟨⟨.complete, _, m⟩, decode_encode (length_address label) ?_, rfl, .inl ⟨rfl, rfl⟩⟩
      rw [length_address]
      omega
    · rw [packets, if_neg hwhole] at hlist
      cases hlist
      refine ⟨⟨.first, _, _⟩, decode_encode (length_firstExtra label m) ?_, rfl, .inr ⟨?_, _, rfl,
        .rest (List.take_append_drop _ _)⟩⟩
      · rw [length_firstExtra, List.length_take]
        omega
      · exact tailPackets_ne_nil _ _
  | @rest a stream _ hstream =>
    by_cases hlast : c ≤ 3 ∨ stream.length + 3 ≤ c
    · rw [tailPackets, dif_pos hlast] at hlist
      cases hlist
      refine ⟨⟨.last, _, stream⟩, decode_encode (List.length_singleton) ?_, rfl, .inl ⟨rfl, ?_⟩⟩
      · rw [List.length_singleton]
        omega
      · have hcount : (m ++ crc m).length - 4 = m.length := by simp
        simp only [absorb, hstream, hcount, List.take_left, List.drop_left, if_true]
    · rw [tailPackets, dif_neg hlast] at hlist
      cases hlist
      refine ⟨⟨.middle, _, _⟩, decode_encode (List.length_singleton) ?_, rfl, .inr ⟨?_, _, rfl,
        .rest ?_⟩⟩
      · rw [List.length_singleton, List.length_take]
        omega
      · exact tailPackets_ne_nil _ _
      · rw [List.append_assoc, List.take_append_drop, hstream]

def receive (fragments : Option Bytes) (window : Bytes) : Option Bytes × Option Bytes :=
  match decode window with
  | none => (none, fragments)
  | some p => absorb fragments p

theorem receive_reassembles {c : Nat} (hc : 14 ≤ c ∧ c ≤ 4097) :
    Reassembles (segmentation c hc.1) receive (· = none) (Awaits c) where
  start := by
    rintro d m ps rfl ⟨label, rfl⟩
    exact .whole label m
  more := by
    intro d p ps m hawaits hne
    obtain ⟨pk, hdecode, _, ⟨hnil, _⟩ | ⟨_, a, habsorb, hnext⟩⟩ := hawaits.decode hc
    · exact absurd hnil hne
    · have hwindow := hdecode []
      rw [List.append_nil] at hwindow
      have hreceive : receive d p = (none, some a) := by rw [receive, hwindow]; exact habsorb
      rw [hreceive]
      exact ⟨rfl, hnext⟩
  done := by
    intro d p m hawaits
    obtain ⟨pk, hdecode, _, ⟨_, habsorb⟩ | ⟨hne, _⟩⟩ := hawaits.decode hc
    · have hwindow := hdecode []
      rw [List.append_nil] at hwindow
      have hreceive : receive d p = (some m, none) := by rw [receive, hwindow]; exact habsorb
      rw [hreceive]
      exact ⟨rfl, rfl⟩
    · exact absurd rfl hne

end DvbGseTunnel.Reference
