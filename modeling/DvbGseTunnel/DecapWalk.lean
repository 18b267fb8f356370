import DvbGseTunnel.Reference.Libgse

/-!
# The walk of a datagram

A datagram of any packets and then padding or nothing, whatever libgse makes of each
packet: the inner loop of `process_decap` stays aligned on the packets
(`walk_packets`), because the length it adds is the one of the packet also when the
packet is not good for anything.
-/

namespace DvbGseTunnel

open Lib

variable {δ : Type}

/-- The first four bits are zero. -/
def StartsPadding (window : Bytes) : Prop := ∃ b rest, window = b :: rest ∧ b < 16

/-- What libgse documents about the packets of a datagram: a packet says itself where it
    ends, in whatever state it is met, and padding is what starts with four zero bits. -/
structure WalkLaws (D : Decapsulator δ) (IsPacket : Bytes → Prop) : Prop where
  vfrag : D.CreatesVfrags
  length : ∀ {p}, IsPacket p → 1 ≤ p.length ∧ p.length ≤ 65535
  start : ∀ {p}, IsPacket p → ¬StartsPadding p
  gseLength : ∀ {p}, IsPacket p → ∀ d rest,
    (D.deencap d (p ++ rest)).gseLength = some (UInt16.ofNat p.length)
  padding : ∀ d {window}, window ≠ [] →
    ((D.deencap d window).status = .paddingDetected ↔ StartsPadding window)

/-- The windows that start at the packets, and at the padding if there is any. -/
def datagramWindows (padding : Bytes) : List Bytes → List Bytes
  | [] => if padding = [] then [] else [padding]
  | p :: packets => (p ++ (packets.flatten ++ padding)) :: datagramWindows padding packets

/-- What libgse answers to one window after the other. -/
def Decapsulator.answers (D : Decapsulator δ) (d : δ) : List Bytes → List (Deencap δ)
  | [] => []
  | window :: windows => D.deencap d window :: D.answers (D.deencap d window).lib windows

/-- The PDUs of the `GSE_STATUS_PDU_RECEIVED` answers. -/
def receivedPdus (answers : List (Deencap δ)) : List Bytes :=
  answers.filterMap fun r => if r.status = .pduReceived then some r.pdu else none

theorem receivedPdus_cons (r : Deencap δ) (answers : List (Deencap δ)) :
    receivedPdus (r :: answers) =
      (if r.status = .pduReceived then some r.pdu else none).toList ++ receivedPdus answers := by
  unfold receivedPdus
  by_cases hstatus : r.status = .pduReceived
  · simp only [List.filterMap_cons, if_pos hstatus]
    rfl
  · simp only [List.filterMap_cons, if_neg hstatus]
    rfl

/-! ### Windows -/

theorem datagramWindows_inside {padding : Bytes} {packets : List Bytes}
    (hne : ∀ p ∈ packets, p ≠ []) :
    ∀ window ∈ datagramWindows padding packets,
      window ≠ [] ∧ window <:+ packets.flatten ++ padding := by
  induction packets with
  | nil =>
    intro window hwindow
    unfold datagramWindows at hwindow
    split at hwindow
    · exact absurd hwindow List.not_mem_nil
    · rename_i hpadding
      obtain rfl := List.mem_singleton.mp hwindow
      exact ⟨hpadding, List.suffix_rfl⟩
  | cons p packets ih =>
    intro window hwindow
    rw [List.forall_mem_cons] at hne
    rw [List.flatten_cons, List.append_assoc]
    rcases List.mem_cons.mp hwindow with rfl | hrest
    · exact ⟨List.append_ne_nil_of_left_ne_nil hne.1 _, List.suffix_rfl⟩
    · obtain ⟨hnonempty, hsuffix⟩ := ih hne.2 window hrest
      exact ⟨hnonempty, hsuffix.trans (List.suffix_append _ _)⟩

/-! ### One pass -/

theorem Walk.windows_afterDeencap {D : Decapsulator δ} (hvfrag : D.CreatesVfrags)
    (w : Walk δ) : (w.afterDeencap D).env.windows = w.env.windows ++ [w.window] := by
  have hdata : (w.created D).data = w.window := (hvfrag w.env.lib w.window).2
  unfold Walk.afterDeencap
  rw [hdata]

theorem Walk.windows_advance {D : Decapsulator δ} (hvfrag : D.CreatesVfrags) (w : Walk δ) :
    (w.advance D).env.windows = w.env.windows ++ [w.window] := by
  obtain ⟨tap, hadvance⟩ := w.advance_eq D
  rw [hadvance]
  exact w.windows_afterDeencap hvfrag

section

variable {D : Decapsulator δ} {IsPacket : Bytes → Prop}

/-- A pass over a packet, whatever its status, comes to what follows the packet. -/
theorem walk_step (h : WalkLaws D IsPacket) {w : Walk δ} (halive : w.env.alive = 0)
    {p rest : Bytes} (hp : IsPacket p) (hwindow : w.window = p ++ rest) :
    decapBody D w = .next (w.advance D) ∧ (w.advance D).window = rest := by
  obtain ⟨hpos, hmax⟩ := h.length hp
  have hne : p ++ rest ≠ [] := List.append_ne_nil_of_left_ne_nil (List.length_pos_iff.mp hpos) _
  have hcall : w.deencap D = D.deencap w.env.lib (p ++ rest) := by
    rw [← hwindow]
    rfl
  have hnot : ¬StartsPadding (p ++ rest) := by
    rintro ⟨b, tail, heq, hb⟩
    obtain ⟨first, p', rfl⟩ := List.exists_cons_of_ne_nil (List.length_pos_iff.mp hpos)
    obtain ⟨rfl, -⟩ := List.cons.inj heq
    exact h.start hp ⟨first, p', rfl, hb⟩
  have hstatus : (w.deencap D).status ≠ .paddingDetected := by
    rw [hcall]
    exact mt (h.padding w.env.lib hne).mp hnot
  have hrun : w.running := (Walk.running_iff halive).mpr (hwindow ▸ hne)
  refine ⟨decapBody_advance hrun hstatus, ?_⟩
  apply Walk.window_advance h.vfrag hwindow (Nat.lt_succ_of_le hmax)
  rw [hcall]
  exact h.gseLength hp w.env.lib rest

/-- The end of a datagram, padding or nothing, ends its walk. -/
theorem walk_end (h : WalkLaws D IsPacket) {w : Walk δ} (halive : w.env.alive = 0)
    {padding : Bytes} (hpadding : padding = [] ∨ StartsPadding padding)
    (hwindow : w.window = padding) {bound : Nat} (hbound : 0 < bound) :
    ∃ u, loop (decapBody D) bound w = .stop u ∧ u.env.alive = 0 ∧
      u.env.windows = w.env.windows ++ datagramWindows padding [] ∧
      u.env.tap = w.env.tap ++
        receivedPdus (D.answers w.env.lib (datagramWindows padding [])) := by
  obtain ⟨bound, rfl⟩ := Nat.exists_eq_succ_of_ne_zero (Nat.ne_of_gt hbound)
  rw [loop_succ]
  by_cases hnil : padding = []
  · have hend : ¬w.running := by
      rw [Walk.running_iff halive, hwindow]
      exact not_not_intro hnil
    refine ⟨w, ?_, halive, ?_, ?_⟩
    · rw [decapBody, if_neg hend]
      rfl
    · rw [datagramWindows, if_pos hnil, List.append_nil]
    · rw [datagramWindows, if_pos hnil]
      exact (List.append_nil _).symm
  · have hrun : w.running := by
      rw [Walk.running_iff halive, hwindow]
      exact hnil
    have hcall : w.deencap D = D.deencap w.env.lib padding := by
      rw [← hwindow]
      rfl
    have hstatus : (D.deencap w.env.lib padding).status = .paddingDetected :=
      (h.padding w.env.lib hnil).mpr (hpadding.resolve_left hnil)
    refine ⟨w.afterDeencap D, ?_, ?_, ?_, ?_⟩
    · rw [decapBody, if_pos hrun, hcall, if_pos hstatus]
      rfl
    · exact (if_neg fun hfail => hfail (h.vfrag w.env.lib w.window).1).trans halive
    · rw [w.windows_afterDeencap h.vfrag, hwindow, datagramWindows, if_neg hnil]
    · rw [datagramWindows, if_neg hnil]
      have hpdus : receivedPdus (D.answers w.env.lib [padding]) = [] := by
        rw [Decapsulator.answers, receivedPdus_cons, hstatus]
        rfl
      rw [hpdus, List.append_nil]
      rfl

/-! ### The whole walk -/

theorem walk_packets (h : WalkLaws D IsPacket) {padding : Bytes}
    (hpadding : padding = [] ∨ StartsPadding padding) {packets : List Bytes}
    (hpackets : ∀ p ∈ packets, IsPacket p) {w : Walk δ} (halive : w.env.alive = 0)
    (hwindow : w.window = packets.flatten ++ padding) {bound : Nat}
    (hbound : packets.length < bound) :
    ∃ u, loop (decapBody D) bound w = .stop u ∧ u.env.alive = 0 ∧
      u.env.windows = w.env.windows ++ datagramWindows padding packets ∧
      u.env.tap = w.env.tap ++
        receivedPdus (D.answers w.env.lib (datagramWindows padding packets)) := by
  induction packets generalizing w bound with
  | nil => exact walk_end h halive hpadding hwindow hbound
  | cons p packets ih =>
    rw [List.forall_mem_cons] at hpackets
    rw [List.flatten_cons, List.append_assoc] at hwindow
    rw [List.length_cons] at hbound
    obtain ⟨bound, rfl⟩ := Nat.exists_eq_succ_of_ne_zero (Nat.ne_of_gt (Nat.zero_lt_of_lt hbound))
    obtain ⟨hbody, hnext⟩ := walk_step h halive hpackets.1 hwindow
    obtain ⟨hlib, htap, halive', -, -, -⟩ := w.advance_spec h.vfrag
    obtain ⟨u, hstop, haliveu, hwindows, htapu⟩ :=
      ih hpackets.2 (halive'.trans halive) hnext (Nat.lt_of_succ_lt_succ hbound)
    refine ⟨u, ?_, haliveu, ?_, ?_⟩
    · rw [loop_succ, hbody, Flow.next_andThen, hstop]
    · rw [hwindows, w.windows_advance h.vfrag, hwindow, List.append_assoc]
      rfl
    · rw [htapu, htap, hlib, hwindow, datagramWindows, Decapsulator.answers, receivedPdus_cons,
        List.append_assoc]
      rfl

/-- **The walk of a datagram.** In every state of libgse, the inner loop presents exactly
    the windows at the packets and at the padding, in order, none of them empty and each
    up to the end of the datagram, and writes exactly the PDUs received. -/
theorem processDecap_walk (h : WalkLaws D IsPacket) (env : DecapState δ) (halive : env.alive = 0)
    (packets : List Bytes) (hpackets : ∀ p ∈ packets, IsPacket p) (padding : Bytes)
    (hpadding : padding = [] ∨ StartsPadding padding)
    (hdatagram : env.dataReceived.read 0 env.lenReceived = packets.flatten ++ padding)
    (bound : Nat) (hbound : packets.length < bound) :
    (∃ u, loop (decapBody D) bound ⟨env, 0⟩ = .stop u ∧
      u.env.windows = env.windows ++ datagramWindows padding packets ∧
      u.env.tap = env.tap ++
        receivedPdus (D.answers env.lib (datagramWindows padding packets))) ∧
    ∀ window ∈ datagramWindows padding packets,
      window ≠ [] ∧ window <:+ env.dataReceived.read 0 env.lenReceived := by
  constructor
  · obtain ⟨u, hstop, -, hwindows, htap⟩ :=
      walk_packets h hpadding hpackets (w := ⟨env, 0⟩) halive hdatagram hbound
    exact ⟨u, hstop, hwindows, htap⟩
  · rw [hdatagram]
    apply datagramWindows_inside
    intro p hp
    exact List.length_pos_iff.mp (h.length (hpackets p hp)).1

end

namespace Reference

def IsPacket (p : Bytes) : Prop :=
  ∃ k extra body, extra.length = Kind.extra k ∧ extra.length + body.length < 4096 ∧
    p = encode k extra body

theorem deencapPacket_gseLength {fragments : Option Bytes} {window : Bytes} {p : Packet}
    (h : decode window = some p) :
    (deencapPacket fragments window).gseLength = some (UInt16.ofNat p.size) := by
  unfold deencapPacket
  rw [h]
  rcases habsorb : absorb fragments p with ⟨_ | m, next⟩ <;> simp only [habsorb]

/-- Padding is told by the bits of the kind, which are zero for no packet. -/
theorem deencapPacket_padding_iff (fragments : Option Bytes) (b : UInt8) (rest : Bytes) :
    (deencapPacket fragments (b :: rest)).status = .paddingDetected ↔ b < 16 := by
  unfold deencapPacket
  cases hdecode : decode (b :: rest) with
  | none =>
    by_cases hb : b < 16
    · simp [hb]
    · simp [hb]
  | some p =>
    have hb : ¬b < 16 := by
      intro hb
      rw [UInt8.lt_iff_toNat_lt] at hb
      have hzero : b.toNat / 16 = 0 := Nat.div_eq_of_lt hb
      unfold decode at hdecode
      cases rest with
      | nil => cases hdecode
      | cons l rest =>
        simp only [hzero] at hdecode
        cases hdecode
    rcases habsorb : absorb fragments p with ⟨_ | m, next⟩ <;> simp [habsorb, hb]

theorem decapsulator_walk : WalkLaws decapsulator IsPacket where
  vfrag _ _ := ⟨rfl, rfl⟩
  length := by
    rintro p ⟨k, extra, body, -, hlen, rfl⟩
    rw [length_encode]
    omega
  start := by
    rintro p ⟨k, extra, body, -, hlen, rfl⟩ ⟨b, rest, heq, hb⟩
    obtain ⟨rfl, -⟩ := List.cons.inj heq
    rw [UInt8.lt_iff_toNat_lt, UInt8.toNat_ofNat'] at hb
    have hbits : 1 ≤ k.bits ∧ k.bits < 16 := by cases k <;> decide
    have hsize : (extra.length + body.length) / 256 < 16 := by omega
    have hfits : k.bits * 16 + (extra.length + body.length) / 256 < 2 ^ 8 := by omega
    rw [Nat.mod_eq_of_lt hfits] at hb
    have hsixteen : (16 : UInt8).toNat = 16 := rfl
    omega
  gseLength := by
    rintro p ⟨k, extra, body, hextra, hlen, rfl⟩ fragments rest
    exact deencapPacket_gseLength (decode_encode hextra hlen rest)
  padding := by
    intro fragments window hne
    obtain ⟨b, rest, rfl⟩ := List.exists_cons_of_ne_nil hne
    have hpadding := deencapPacket_padding_iff fragments b rest
    constructor
    · intro hstatus
      exact ⟨b, rest, rfl, hpadding.mp hstatus⟩
    · rintro ⟨b', rest', heq, hb⟩
      obtain ⟨rfl, rfl⟩ := List.cons.inj heq
      exact hpadding.mpr hb

/-- The last packet of a frame whose first packet was lost, and a complete one. -/
def twoPackets : List Bytes :=
  [encode .last [0] [5], encode .complete [0x23, 0x45, 1, 2, 3, 4, 5, 6] [7]]

theorem twoPackets_packets : ∀ p ∈ twoPackets, IsPacket p := by
  intro p hp
  simp only [twoPackets, List.mem_cons, List.not_mem_nil, or_false] at hp
  rcases hp with rfl | rfl
  · exact ⟨.last, [0], [5], rfl, by decide, rfl⟩
  · exact ⟨.complete, [0x23, 0x45, 1, 2, 3, 4, 5, 6], [7], rfl, by decide, rfl⟩

/-- The state after `twoPackets` and two bytes of padding were received. -/
def twoPacketsReceived : DecapState (Option Bytes) where
  lib := none
  dataReceived := ⟨DATA_RECEIVED_SIZE, fun i => (twoPackets.flatten ++ [0, 0]).getD i 0⟩
  lenReceived := 17
  gseLength := 0
  alive := 0
  windows := []
  tap := []

theorem processDecap_walk_two_packets :
    ∃ u, loop (decapBody decapsulator) 3 ⟨twoPacketsReceived, 0⟩ = .stop u ∧
      u.env.windows = datagramWindows [0, 0] twoPackets ∧ u.env.tap = [[7]] := by
  obtain ⟨⟨u, hstop, hwindows, htap⟩, -⟩ := processDecap_walk decapsulator_walk twoPacketsReceived
    rfl twoPackets twoPackets_packets [0, 0] (Or.inr ⟨0, [0], rfl, by decide⟩) (by decide) 3
    (by decide)
  refine ⟨u, hstop, hwindows, htap.trans ?_⟩
  decide

end Reference

end DvbGseTunnel
