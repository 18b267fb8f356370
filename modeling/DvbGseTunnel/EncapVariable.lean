import DvbGseTunnel.TunnelNetwork

/-!
# Packets of variable length

Without a payload length `process_encap` asks for as much as the PDU and the longest header
take, and pads nothing. A frame that one packet has room for then leaves in one datagram of
its own length. So the frames come through as UDP brings the datagrams, if the receiver
stores datagrams of that length (`variable_length_delivered`). What a longer frame asks for
is not encodable, and is not treated here.
-/

namespace DvbGseTunnel

open Lib

variable {σ ω δ : Type}

/-- What libgse documents about a PDU that one packet has room for even with the longest
    header: the first call gives it as a complete packet. A call on an empty FIFO says so,
    whatever length it asks for. -/
structure WholeLaws (L : Encapsulator σ) (G : GseConstants) (S : Segmentation)
    (Empty : σ → Prop) (Holds : σ → Heap → Vfrag → Bytes → Prop) : Prop where
  whole : ∀ {n}, n + G.GSE_MAX_HEADER_LENGTH ≤ S.capacity → (S.sizes n).length = 1
  create : ∀ {d} heap maxLength headOffset trailOffset, Empty d →
    Empty (L.gseCreateVfrag d heap maxLength headOffset trailOffset).lib
  receive : ∀ {d} heap (pdu : Vfrag) label, Empty d → G.GSE_MAX_HEADER_LENGTH ≤ pdu.start →
    0 < pdu.length → pdu.length + G.GSE_MAX_HEADER_LENGTH ≤ S.capacity →
    let r := L.gseEncapReceivePdu d pdu label
    r.1 = .ok ∧ ∃ p, S.Cut (pdu.data heap) [p] ∧ Holds r.2 heap pdu p
  length : ∀ {d heap pdu p}, Holds d heap pdu p → L.gseGetVfragLength d pdu = pdu.length
  get : ∀ {d heap pdu p}, Holds d heap pdu p →
    let r := L.gseEncapGetPacket d heap (pdu.length + G.GSE_MAX_HEADER_LENGTH)
    r.status = .ok ∧ r.vfrag.data r.heap = p ∧ Empty r.lib
  get_none : ∀ {d} heap len, Empty d →
    let r := L.gseEncapGetPacket d heap len
    r.status = .fifoEmpty ∧ Empty r.lib

section

variable {E : EncapConf σ ω} {S : Segmentation} {Empty : σ → Prop}
  {Holds : σ → Heap → Vfrag → Bytes → Prop} {d : Drain σ ω} {p : Bytes}

/-! ### The drain loop -/

/-- The first pass sends the PDU as one packet. -/
theorem drainBody_whole (hlib : WholeLaws E.lib E.gse S Empty Holds) (hsends : E.Sends)
    (hmode : E.params.payloadLen = 0) (hrun : d.running)
    (h : Holds d.env.lib d.env.heap d.vfragPdu p) :
    ∃ d', drainBody E d = .next d' ∧ Empty d'.env.lib ∧ d'.running ∧
      d'.env.alive = d.env.alive ∧ datagrams d'.env.calls = datagrams d.env.calls ++ [p] := by
  have hdemand : d.demand E = d.vfragPdu.length + E.gse.GSE_MAX_HEADER_LENGTH := by
    rw [Drain.demand, if_pos hmode, hlib.length h]
  have hgot : d.got E = E.lib.gseEncapGetPacket d.env.lib d.env.heap
      (d.vfragPdu.length + E.gse.GSE_MAX_HEADER_LENGTH) := by
    rw [Drain.got, hdemand]
  obtain ⟨hok, hdata, hempty⟩ := hgot ▸ hlib.get h
  have hpad : padPacket E (d.got E).heap (d.got E).vfrag =
      some ((d.got E).heap, (d.got E).vfrag) := by
    rw [padPacket, if_neg (not_not_intro hmode)]
  have hbody : drainBody E d = .next ((d.afterGet E).send E (d.got E).heap (d.got E).vfrag) := by
    simp [drainBody, hrun, hok, hpad]
  refine ⟨_, hbody, hempty, ⟨Ret.int_ne_status _ _, hrun.2⟩, rfl, ?_⟩
  change datagrams ((d.afterGet E).env.calls ++ [.writeUdp _ (writeUdp E.sendto _ _).1]) = _
  rw [writeUdp_of_sent (hsends _ _), datagrams_writeUdp, hdata, Drain.afterGet_calls,
    datagrams_getPacket]

/-- The next pass finds the FIFO empty, and the loop is left. -/
theorem drain_finished (hlib : WholeLaws E.lib E.gse S Empty Holds) (hempty : Empty d.env.lib)
    (hrun : d.running) {bound : Nat} (hbound : 2 ≤ bound) :
    ∃ d', loop (drainBody E) bound d = .stop d' ∧ Empty d'.env.lib ∧
      d'.env.alive = d.env.alive ∧ datagrams d'.env.calls = datagrams d.env.calls := by
  obtain ⟨hstatus, hempty'⟩ : (d.got E).status = .fifoEmpty ∧ Empty (d.got E).lib :=
    hlib.get_none d.env.heap (d.demand E) hempty
  obtain ⟨n, rfl⟩ := Nat.exists_eq_add_of_le' hbound
  have hbody : drainBody E d = .next (d.afterGet E) := by simp [drainBody, hrun, hstatus]
  have hend : ¬(d.afterGet E).running := fun h => h.1 (congrArg Ret.status hstatus)
  refine ⟨d.afterGet E, ?_, hempty', rfl, ?_⟩
  · rw [loop_succ, hbody, Flow.next_andThen, loop_succ, drainBody, if_neg hend]
    rfl
  · rw [Drain.afterGet_calls, datagrams_getPacket]

/-! ### The frames -/

theorem encapStep_whole (hlib : WholeLaws E.lib E.gse S Empty Holds) (hvfrag : VfragLaws E.lib)
    (hsends : E.Sends) (hmode : E.params.payloadLen = 0)
    (hbuffer : E.params.bufferLen ≤ GSE_MAX_PDU_LENGTH) {frame : Bytes} (hread : E.Reads frame)
    (hroom : frame.length + E.gse.GSE_MAX_HEADER_LENGTH ≤ S.capacity) {bound : Nat}
    (hbound : 3 ≤ bound) {s : EncapState σ ω} (hempty : Empty s.lib) (halive : s.alive = 0) :
    ∃ t ps, encapStep E bound (frameEvent frame) s = .next t ∧ Empty t.lib ∧ t.alive = 0 ∧
      S.Cut frame ps ∧ datagrams t.calls = datagrams s.calls ++ ps.map (padTo 0) := by
  obtain ⟨hok, p, hcut, hholds⟩ := hlib.receive (s.stored E frame) (s.pdu E frame)
    (pduLabel (s.counter + 1)) (hlib.create _ _ _ _ hempty) (Nat.le_refl _)
    (List.length_pos_iff.mpr hread.1) hroom
  rw [data_stored] at hcut
  have hstep : encapStep E bound (frameEvent frame) s =
      (loop (drainBody E) bound (s.drainStart E frame)).leave Drain.env :=
    encapStep_of_admitted hvfrag bound halive hread.1 hread.2 hbuffer hok
  obtain ⟨d, hbody, hemptyd, hrun, halived, hcalls⟩ := drainBody_whole hlib hsends hmode
    (d := s.drainStart E frame) ⟨Ret.ok_ne_fifoEmpty, Nat.zero_lt_succ 4⟩ hholds
  obtain ⟨n, rfl⟩ := Nat.exists_eq_add_of_le' hbound
  obtain ⟨u, hstop, hemptyu, haliveu, hcallsu⟩ :=
    drain_finished hlib hemptyd hrun (show 2 ≤ n + 2 by omega)
  refine ⟨u.env, [p], ?_, hemptyu, haliveu.trans (halived.trans halive), hcut, ?_⟩
  · rw [hstep, loop_succ, hbody, Flow.next_andThen, hstop]
    rfl
  · rw [hcallsu, hcalls, List.map_singleton, padTo_of_le (Nat.zero_le _)]
    congr 1
    exact datagrams_receivePdu _ _ _ _

end

/-! ### The tunnel -/

/-- **The C tunnel with packets of variable length.** If one packet has room for each frame
    read, with the longest header, and the receiver stores datagrams of the longest packets,
    the sender hands each frame to its kernel in one datagram, without padding, and the frames
    delivered are those of the datagrams that arrive, in their order of arrival and as often
    as they arrive, whatever UDP does. -/
theorem variable_length_delivered (E : EncapConf σ ω) (S : Segmentation) (Empty : σ → Prop)
    (Holds : σ → Heap → Vfrag → Bytes → Prop) (hE : WholeLaws E.lib E.gse S Empty Holds)
    (hvfrag : VfragLaws E.lib) (hmode : E.params.payloadLen = 0)
    (hbuffer : 0 ≤ E.params.bufferLen ∧ E.params.bufferLen ≤ GSE_MAX_PDU_LENGTH)
    (D : Decapsulator δ) (Awaits : δ → List Bytes → Bytes → Prop)
    (hD : PacketLaws D S (fun _ => True) Awaits) (hwalk : WalkLaws D S.IsPacket)
    (params : ProcessDecapParams) (moves : TunnelMoves)
    (hundisturbed : Undisturbed params S.capacity moves)
    (hroom : ∀ frame ∈ framesOf E.params moves,
      frame.length + E.gse.GSE_MAX_HEADER_LENGTH ≤ S.capacity) (lib : σ)
    (hempty : Empty lib) (net : ω) (heap : Heap) (dlib : δ) (bytes : Nat → UInt8)
    (gseLength : UInt16) (bound : Nat) (hbound : 3 ≤ bound) :
    let run := tunnelRun E D params bound moves (.init lib net heap) (.init dlib bytes gseLength)
    List.Forall₂ (fun frame packet => S.Cut frame [packet]) (framesOf E.params moves)
        (offered run.sender.state.calls) ∧
      ∃ t, run.receiver = .next t ∧
        t.tap = run.arrivals.filterMap ((framesOf E.params moves)[·]?) := by
  intro run
  have hsends : SendsFrames (E.withKernel takesAll) S 0 Empty bound (framesOf E.params moves) := by
    refine ⟨hvfrag, hE.create, fun frame hmem hread s hs halive => ?_⟩
    exact encapStep_whole (E := E.withKernel takesAll) hE hvfrag (fun _ _ => rfl) hmode hbuffer.2
      hread (hroom frame hmem) hbound hs halive
  have hsingle : ∀ frame ∈ framesOf E.params moves, (S.sizes frame.length).length = 1 :=
    fun frame hframe => hE.whole (hroom frame hframe)
  obtain ⟨s, pss, hrun, hcuts, hoffered⟩ := hsends.emits hbuffer hempty net heap
  obtain ⟨-, hemits⟩ := emits_of_offered hcuts hoffered
  have hsender : run.sender = processEncap E bound (senderEvents moves) (.init lib net heap) :=
    (tunnelParties E D params bound).run_sender_start moves _ _
  have hhandles := decap_handles hwalk params 0 bound hundisturbed.stores
    (Int.le_trans (Int.natCast_nonneg _) hundisturbed.stores) hundisturbed.within
    (Nat.le_trans (Nat.le_succ 2) hbound)
  obtain ⟨t, hreceiver, -, htap⟩ := Parties.run_out (P := tunnelParties E D params bound)
    (tunnelParties_appends E D params bound) hhandles moves hundisturbed.foreign
    (s := .init lib net heap) (t := .init dlib bytes gseLength) ⟨rfl, rfl⟩
    (show Emits _ pss.flatten (attempts
      (processEncap E bound (senderEvents moves) (.init lib net heap)).state.calls) by
      rw [Flow.state_eq hrun]; exact hemits)
  refine ⟨?_, t, hreceiver, htap.trans ?_⟩
  · have hbare : pss.flatten.map (padTo 0) = pss.flatten :=
      List.map_id'' (fun p => padTo_of_le (Nat.zero_le p.length)) _
    rw [hsender, Flow.state_eq hrun, hoffered, hbare]
    exact Segmentation.single_packets hcuts hsingle
  · exact (handle_restarts hD 0).outputs_single hcuts hsingle dlib _

/-! ### The reference for libgse -/

namespace Reference

def HoldsWhole (fifo : Fifo) (heap : Heap) (pdu : Vfrag) (p : Bytes) : Prop :=
  ∃ label, fifo = .whole pdu label ∧ p = encode .complete (address label) (pdu.data heap)

theorem encapsulator_whole :
    WholeLaws encapsulator ⟨13, 4⟩ (segmentation 4097 (by decide)) (· = .empty) HoldsWhole where
  whole := by
    intro n hn
    change n + 13 ≤ 4097 at hn
    change (sizes 4097 n).length = 1
    rw [sizes, if_pos (by omega)]
    rfl
  create _ _ _ _ hempty := hempty
  receive := by
    intro fifo heap pdu label _ _ _ hroom
    refine ⟨rfl, encode .complete (address label) (pdu.data heap), ⟨label, ?_⟩, label, rfl, rfl⟩
    have hlen : (pdu.data heap).length = pdu.length := Buffer.read_length _ _ _
    change pdu.length + 13 ≤ 4097 at hroom
    rw [packets, if_pos (by omega)]
  length _ := rfl
  get := by
    rintro _ heap pdu _ ⟨label, rfl, rfl⟩
    have hget : encapsulator.gseEncapGetPacket (.whole pdu label) heap
        ((pdu.length : Int) + (13 : Nat)) = placed (encode .complete (address label)
          (pdu.data heap)) pdu.buf (pdu.start - 10) .empty heap := by
      change getPacket ((pdu.length : Int) + (13 : Nat)).toNat heap (.whole pdu label) = _
      rw [getPacket, if_pos (by omega)]
    intro r
    rw [show r = _ from hget]
    exact ⟨rfl, place_data _ _ _ _, rfl⟩
  get_none := by
    rintro _ heap len rfl
    exact ⟨rfl, rfl⟩

end Reference

/-- Two frames, in another order. -/
theorem variable_length_delivered_reordered :
    let run := tunnelRun (referenceConf 0) Reference.decapsulator ⟨referenceParams 4097⟩ 3
      smallMoves (.init .empty () fun _ => ⟨0, fun _ => 0⟩) (.init none (fun _ => 0) 0)
    List.Forall₂ (fun frame packet =>
        (Reference.segmentation 4097 (by decide)).Cut frame [packet]) [[5], [7]]
        (offered run.sender.state.calls) ∧
      ∃ t, run.receiver = .next t ∧ t.tap = run.arrivals.filterMap ([[5], [7]][·]?) := by
  have hframes : framesOf (referenceConf 0).params smallMoves = [[5], [7]] := by decide
  rw [← hframes]
  refine variable_length_delivered (referenceConf 0) _ _ _ Reference.encapsulator_whole
    Reference.encapsulator_vfrag rfl (by decide) Reference.decapsulator _
    (Reference.decapsulator_restarts (by decide)) (Reference.decapsulator_walks (by decide))
    ⟨referenceParams 4097⟩ smallMoves ⟨by decide, by decide, ?_⟩ ?_ .empty rfl ()
    (fun _ => ⟨0, fun _ => 0⟩) none (fun _ => 0) 0 3 (Nat.le_refl 3)
  · intro event hevent
    obtain rfl : event = .timeout := by simpa [smallMoves] using hevent
    exact ⟨trivial, rfl⟩
  · rw [hframes]
    intro frame hframe
    simp only [List.mem_cons, List.not_mem_nil, or_false] at hframe
    rcases hframe with rfl | rfl
    · decide
    · decide

end DvbGseTunnel
