import DvbGseTunnel.Lib.Segmentation
import DvbGseTunnel.ProcessDecap

/-!
# The frames the receiver delivers

`process_decap` walks a datagram past its packet to the zeros that follow. What it relies
on is stated of libgse (`PacketLaws`). Then every datagram has the effect of its packet, so
the receiver delivers the frames whose packets arrive (`processDecap_delivers`).
-/

namespace DvbGseTunnel

open Lib

variable {δ : Type}

/-- The two calls for a window. -/
def Decapsulator.deencap (D : Decapsulator δ) (d : δ) (window : Bytes) : Deencap δ :=
  D.gseDeencapPacket (D.gseCreateVfragWithData d window).lib
    (D.gseCreateVfragWithData d window).data

/-- The PDU that a window completes, if any. -/
def Decapsulator.receive (D : Decapsulator δ) (d : δ) (window : Bytes) : Option Bytes × δ :=
  (if (D.deencap d window).status = .pduReceived then some (D.deencap d window).pdu else none,
    (D.deencap d window).lib)

/-- What libgse documents about reception: PDUs are reassembled from their packets, a
    packet says itself where it ends, and zeros are padding. -/
structure PacketLaws (D : Decapsulator δ) (S : Segmentation) (Ready : δ → Prop)
    (Awaits : δ → List Bytes → Bytes → Prop) : Prop where
  vfrag : D.CreatesVfrags
  reassembles : Reassembles S D.receive Ready Awaits
  packet : ∀ {d p ps m} n, Awaits d (p :: ps) m →
    let window := p ++ List.replicate n 0
    (D.deencap d window).status ≠ .paddingDetected ∧
      (D.deencap d window).gseLength = some (UInt16.ofNat p.length) ∧
      D.receive d window = D.receive d p
  padding : ∀ d {n}, 0 < n →
    (D.deencap d (List.replicate n 0)).status = .paddingDetected ∧
      Keeps Ready Awaits d (D.deencap d (List.replicate n 0)).lib

def datagramEvent (params : ProcessDecapParams) (datagram : Bytes) : DecapEvent :=
  .readable (some (params.remote, datagram))

section Receiver

variable {D : Decapsulator δ} {S : Segmentation} {Ready : δ → Prop}
  {Awaits : δ → List Bytes → Bytes → Prop}

theorem Walk.running_iff {w : Walk δ} (halive : w.env.alive = 0) :
    w.running ↔ w.window ≠ [] := by
  unfold Walk.running
  rw [← List.length_pos_iff, Walk.window, Buffer.read_length]
  omega

theorem decapBody_advance {w : Walk δ} (hrun : w.running)
    (hstatus : (w.deencap D).status ≠ .paddingDetected) :
    decapBody D w = .next (w.advance D) := by
  rcases decapBody_cases D w with ⟨hend, -⟩ | ⟨-, hpad, -⟩ | ⟨-, -, hbody⟩
  · exact absurd hrun hend
  · exact absurd hpad hstatus
  · exact hbody

/-- A pass of the inner loop hands out what its window completes. -/
theorem Walk.advance_spec (hvfrag : D.CreatesVfrags) (w : Walk δ) :
    (w.advance D).env.lib = (D.receive w.env.lib w.window).2 ∧
      (w.advance D).env.tap = w.env.tap ++ (D.receive w.env.lib w.window).1.toList ∧
      (w.advance D).env.alive = w.env.alive ∧
      (w.advance D).env.dataReceived = w.env.dataReceived ∧
      (w.advance D).env.lenReceived = w.env.lenReceived ∧
      (w.advance D).lenDecapsulated = (w.afterDeencap D).lenDecapsulated := by
  have halive : (w.afterDeencap D).env.alive = w.env.alive :=
    if_neg fun h => h (hvfrag w.env.lib w.window).1
  have hcall : w.deencap D = D.deencap w.env.lib w.window := rfl
  rw [Walk.advance, Decapsulator.receive, ← hcall]
  by_cases hpdu : (w.deencap D).status = .pduReceived
  · rw [if_pos hpdu, if_pos hpdu]
    exact ⟨rfl, rfl, halive, rfl, rfl, rfl⟩
  · rw [if_neg hpdu, if_neg hpdu]
    exact ⟨rfl, (List.append_nil _).symm, halive, rfl, rfl, rfl⟩

/-- With the length of its packet, a pass comes to what follows the packet. -/
theorem Walk.window_advance (hvfrag : D.CreatesVfrags) {w : Walk δ} {p rest : Bytes}
    (hwindow : w.window = p ++ rest) (hmax : p.length < 2 ^ 16)
    (hlength : (w.deencap D).gseLength = some (UInt16.ofNat p.length)) :
    (w.advance D).window = rest := by
  obtain ⟨-, -, -, hdata, hreceived, hdecapsulated⟩ := w.advance_spec hvfrag
  have hoffset : (w.advance D).lenDecapsulated = w.lenDecapsulated + p.length := by
    rw [hdecapsulated, Walk.afterDeencap, Walk.gseLength, hlength, Option.getD_some,
      UInt16.toNat_ofNat', Nat.mod_eq_of_lt hmax]
  have hleft : w.env.lenReceived - w.lenDecapsulated = p.length + rest.length := by
    rw [← List.length_append, ← hwindow, Walk.window, Buffer.read_length]
  rw [Walk.window, hleft] at hwindow
  rw [Walk.window, hdata, hreceived, hoffset, ← Nat.sub_sub, hleft, Nat.add_sub_cancel_left,
    ← Buffer.drop_read, hwindow, List.drop_left]

/-- The rest of a datagram, all zeros, ends its walk. -/
theorem walk_padding (h : PacketLaws D S Ready Awaits) {w : Walk δ} {n : Nat}
    (hwindow : w.window = List.replicate n 0)
    (halive : w.env.alive = 0) {bound : Nat} (hbound : 0 < bound) :
    ∃ u, loop (decapBody D) bound w = .stop u ∧ Keeps Ready Awaits w.env.lib u.env.lib ∧
      u.env.tap = w.env.tap ∧ u.env.alive = 0 ∧ u.env.dataReceived = w.env.dataReceived := by
  obtain ⟨bound, rfl⟩ := Nat.exists_eq_succ_of_ne_zero (Nat.ne_of_gt hbound)
  rw [loop_succ]
  by_cases hn : n = 0
  · have hend : ¬w.running := by
      rw [Walk.running_iff halive, hwindow, hn]
      exact not_not_intro rfl
    refine ⟨w, ?_, .refl _ _ _, rfl, halive, rfl⟩
    rw [decapBody, if_neg hend]
    rfl
  · have hrun : w.running := by
      rw [Walk.running_iff halive, hwindow]
      exact mt (List.replicate_eq_nil_iff _).mp hn
    have hcall : w.deencap D = D.deencap w.env.lib (List.replicate n 0) := by
      rw [← hwindow]
      rfl
    obtain ⟨hstatus, hkeeps⟩ := h.padding w.env.lib (Nat.pos_of_ne_zero hn)
    rw [← hcall] at hstatus hkeeps
    refine ⟨w.afterDeencap D, ?_, hkeeps, rfl, ?_, rfl⟩
    · rw [decapBody, if_pos hrun, if_pos hstatus]
      rfl
    · exact (if_neg fun hfail => hfail (h.vfrag w.env.lib w.window).1).trans halive

/-- The walk of a packet and its padding: the first pass handles the packet as libgse
    does without the padding, the second one, if there is padding, ends the walk. -/
theorem walk_packet (h : PacketLaws D S Ready Awaits) {w : Walk δ} {p : Bytes} {n : Nat}
    (hwindow : w.window = p ++ List.replicate n 0) (hpos : 0 < p.length)
    (hmax : p.length ≤ GSE_MAX_PACKET_LENGTH) (halive : w.env.alive = 0) {ps : List Bytes}
    {m : Bytes} (hawaits : Awaits w.env.lib (p :: ps) m) {bound : Nat} (hbound : 2 ≤ bound) :
    ∃ u, loop (decapBody D) bound w = .stop u ∧
      Keeps Ready Awaits (D.receive w.env.lib p).2 u.env.lib ∧
      u.env.tap = w.env.tap ++ (D.receive w.env.lib p).1.toList ∧ u.env.alive = 0 ∧
      u.env.dataReceived = w.env.dataReceived := by
  have hPacket : GSE_MAX_PACKET_LENGTH = 4097 := rfl
  obtain ⟨bound, rfl⟩ := Nat.exists_eq_add_of_le' hbound
  obtain ⟨hstatus, hlength, hreceive⟩ := h.packet n hawaits
  have hcall : w.deencap D = D.deencap w.env.lib (p ++ List.replicate n 0) := by
    rw [← hwindow]
    rfl
  rw [← hcall] at hstatus hlength
  have hrun : w.running := by
    rw [Walk.running_iff halive, hwindow]
    exact List.append_ne_nil_of_left_ne_nil (List.length_pos_iff.mp hpos) _
  have hbody := decapBody_advance hrun hstatus
  have hrest := Walk.window_advance h.vfrag hwindow (by omega) hlength
  obtain ⟨hlib, htap, halive', hdata, -, -⟩ := w.advance_spec h.vfrag
  rw [hwindow, hreceive] at hlib htap
  obtain ⟨u, hstop, hkeeps, htapu, haliveu, hdatau⟩ :=
    walk_padding h hrest (halive'.trans halive) (Nat.succ_pos bound)
  refine ⟨u, ?_, hlib ▸ hkeeps, htapu.trans htap, haliveu, hdatau.trans hdata⟩
  rw [loop_succ, hbody, Flow.next_andThen, hstop]

theorem decapStep_packet (h : PacketLaws D S Ready Awaits) {params : ProcessDecapParams}
    (hP : params.payloadLen = S.capacity) (hmax : S.capacity ≤ GSE_MAX_PACKET_LENGTH)
    {bound : Nat} (hbound : 2 ≤ bound) {s : DecapState δ} (hs : Waiting s) {p : Bytes}
    {ps : List Bytes} {m : Bytes} (hpos : 0 < p.length) (hle : p.length ≤ S.capacity)
    (hawaits : Awaits s.lib (p :: ps) m) :
    ∃ t, decapStep D params bound (datagramEvent params (padTo S.capacity p)) s = .next t ∧
      Waiting t ∧ Keeps Ready Awaits (D.receive s.lib p).2 t.lib ∧
      t.tap = s.tap ++ (D.receive s.lib p).1.toList := by
  obtain ⟨halive, hsize⟩ := hs
  have hPacket : GSE_MAX_PACKET_LENGTH = 4097 := rfl
  have hReceived : DATA_RECEIVED_SIZE = 4099 := rfl
  have hlength : (padTo S.capacity p).length = S.capacity := length_padTo hle
  have hcapa : sizeT params.payloadLen = S.capacity := by
    rw [hP, sizeT_of_nonneg (by omega) (by omega)]
    rfl
  have htake : (padTo S.capacity p).take (sizeT params.payloadLen) = padTo S.capacity p := by
    rw [hcapa]
    exact List.take_of_length_le (Nat.le_of_eq hlength)
  let w : Walk δ := ⟨{ s with
    dataReceived := s.dataReceived.overlay 0 (padTo S.capacity p).length
      fun i => (padTo S.capacity p).getD i 0
    lenReceived := (padTo S.capacity p).length }, 0⟩
  have hstep : decapStep D params bound (datagramEvent params (padTo S.capacity p)) s =
      (loop (decapBody D) bound w).leave Walk.env := by
    have hne : (padTo S.capacity p).take (sizeT params.payloadLen) ≠ [] := by
      rw [htake]
      exact List.ne_nil_of_length_pos (by omega)
    have hfits := decapStep_of_fits D params bound halive hne (by rw [htake]; omega)
    rw [htake] at hfits
    exact hfits
  have hwindow : w.window = p ++ List.replicate (S.capacity - p.length) 0 :=
    Buffer.read_write_same _ _ _
  obtain ⟨u, hstop, hkeeps, htap, halive', hdata⟩ :=
    walk_packet h hwindow hpos (by omega) halive hawaits hbound
  refine ⟨u.env, by rw [hstep, hstop]; rfl, ⟨halive', ?_⟩, hkeeps, htap⟩
  rw [hdata]
  exact hsize

theorem processDecap_delivers (h : PacketLaws D S Ready Awaits) {params : ProcessDecapParams}
    (hP : params.payloadLen = S.capacity) (hmax : S.capacity ≤ GSE_MAX_PACKET_LENGTH)
    {bound : Nat} (hbound : 2 ≤ bound) {frames : List Bytes} {pss : List (List Bytes)}
    (hcuts : List.Forall₂ S.Cut frames pss) {lib : δ} (hready : Ready lib) (bytes : Nat → UInt8)
    (gseLength : UInt16) :
    ∃ t, processDecap D params bound
        ((pss.flatten.map (padTo S.capacity)).map (datagramEvent params))
        (.init lib bytes gseLength) = .next t ∧ t.tap = frames := by
  obtain ⟨t, hrun, _, _, htap⟩ := h.reassembles.feed_messages
    (fun hpos hle hs hawaits => decapStep_packet h hP hmax hbound hs hpos hle hawaits) hcuts
    (s := .init lib bytes gseLength) ⟨rfl, rfl⟩ hready
  refine ⟨t, ?_, htap⟩
  rw [List.map_map]
  exact hrun

end Receiver

end DvbGseTunnel
