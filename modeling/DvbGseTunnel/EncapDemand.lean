import DvbGseTunnel.ProcessEncap
import DvbGseTunnel.StartParameters

/-!
# The lengths asked of `gse_encap_get_packet`

`desired_len` is `payload_len` when that is not 0, else the remaining length of the PDU
plus the largest header, recomputed in each pass of the drain loop. A GSE packet has at
most `GSE_MAX_PACKET_LENGTH` bytes, but no check bounds either source from above:
`check_encap_params` only rejects small payload lengths, and a frame may be as long as
`buffer_len`. The demands of a frame are encodable exactly when its first one is
(`demands_encodable_iff`).
-/

namespace DvbGseTunnel

open Lib

variable {σ ω : Type}

/-- What libgse documents about the length of a PDU in its FIFO: the bytes not yet
    emitted, to which the CRC is added when a packet has no room for the rest. -/
structure RemainingLaws (G : GseConstants) (L : Encapsulator σ) : Prop where
  received : ∀ d (pdu : Vfrag) label, (L.gseEncapReceivePdu d pdu label).1 = .ok →
    L.gseGetVfragLength (L.gseEncapReceivePdu d pdu label).2 pdu = pdu.length
  whole : ∀ d heap (pdu : Vfrag) (len : Int),
    L.gseGetVfragLength d pdu + G.GSE_MAX_HEADER_LENGTH ≤ len →
      L.gseGetVfragLength (L.gseEncapGetPacket d heap len).lib pdu ≤ L.gseGetVfragLength d pdu

/-! ### The log of the drain loop -/

theorem drainBody_log (E : EncapConf σ ω) (d : Drain σ ω) :
    d.env.calls <+: (drainBody E d).state.env.calls := by
  have hget : d.env.calls <+: (d.afterGet E).env.calls := by
    rw [Drain.afterGet_calls]
    exact List.prefix_append _ _
  rcases drainBody_cases E d with ⟨_, hb⟩ | ⟨_, _, _, hb⟩ | ⟨_, _, hb⟩ | ⟨_, _, _, hb⟩ |
    ⟨_, _, heap, pkt, _, hb⟩
  · rw [hb]; exact List.prefix_rfl
  · rw [hb]; exact hget
  · rw [hb]; exact hget
  · rw [hb]; exact hget
  · rw [hb]
    obtain ⟨ret, hsend, _⟩ := (d.afterGet E).send_calls E heap pkt
    rw [Flow.state_next, hsend]
    exact hget.trans (List.prefix_append _ _)

theorem drainBody_demand (E : EncapConf σ ω) {d : Drain σ ω} (hrun : d.running) :
    ∃ status, d.env.calls ++ [.getPacket (d.demand E) status] <+:
      (drainBody E d).state.env.calls := by
  refine ⟨(d.got E).status, ?_⟩
  rw [← Drain.afterGet_calls]
  rcases drainBody_cases E d with ⟨hend, _⟩ | ⟨_, _, _, hb⟩ | ⟨_, _, hb⟩ | ⟨_, _, _, hb⟩ |
    ⟨_, _, heap, pkt, _, hb⟩
  · exact absurd hrun hend
  · rw [hb]; exact List.prefix_rfl
  · rw [hb]; exact List.prefix_rfl
  · rw [hb]; exact List.prefix_rfl
  · rw [hb]
    obtain ⟨ret, hsend, _⟩ := (d.afterGet E).send_calls E heap pkt
    rw [Flow.state_next, hsend]
    exact List.prefix_append _ _

theorem drain_first_demand (E : EncapConf σ ω) {d : Drain σ ω} (hrun : d.running) {bound : Nat}
    (hbound : 0 < bound) :
    ∃ status, d.env.calls ++ [.getPacket (d.demand E) status] <+:
      (loop (drainBody E) bound d).state.env.calls := by
  obtain ⟨n, rfl⟩ : ∃ n, bound = n + 1 := ⟨bound - 1, by omega⟩
  obtain ⟨status, hfirst⟩ := drainBody_demand E hrun
  have hrest : ∀ d' : Drain σ ω,
      d'.env.calls <+: (loop (drainBody E) n d').state.env.calls := by
    intro d'
    exact loop_inv (fun v : Drain σ ω => d'.env.calls <+: v.env.calls)
      (fun v hv => hv.trans (drainBody_log E v)) n List.prefix_rfl
  refine ⟨status, ?_⟩
  rw [loop_succ]
  cases hb : drainBody E d with
  | next d' => rw [hb] at hfirst; exact hfirst.trans (hrest d')
  | stop d' => rw [hb] at hfirst; exact hfirst
  | fault d' => rw [hb] at hfirst; exact hfirst
  | hang d' => rw [hb] at hfirst; exact hfirst

/-! ### The demands of a frame -/

/-- The demand of every later pass is at most that of this one. -/
structure Demanding (E : EncapConf σ ω) (base : List EncapCall) (top : Int) (d : Drain σ ω) :
    Prop where
  demand : d.demand E ≤ top
  constant : E.params.payloadLen ≠ 0 → d.desiredLen = E.params.payloadLen
  log : ∃ new, d.env.calls = base ++ new ∧
    ∀ len status, .getPacket len status ∈ new → len ≤ top

theorem Demanding.afterGet {E : EncapConf σ ω} (hlib : RemainingLaws E.gse E.lib)
    {base : List EncapCall} {top : Int} {d : Drain σ ω} (h : Demanding E base top d) :
    Demanding E base top (d.afterGet E) := by
  constructor
  · by_cases hmode : E.params.payloadLen = 0
    · have hdemand : d.demand E =
          E.lib.gseGetVfragLength d.env.lib d.vfragPdu + E.gse.GSE_MAX_HEADER_LENGTH :=
        if_pos hmode
      have hless := hlib.whole d.env.lib d.env.heap d.vfragPdu (d.demand E)
        (Int.le_of_eq hdemand.symm)
      have htop := h.demand
      change (if _ then _ else _) ≤ top
      rw [if_pos hmode]
      change (E.lib.gseGetVfragLength (d.got E).lib d.vfragPdu : Int) + _ ≤ top
      rw [hdemand] at htop
      rw [Drain.got]
      omega
    · have hkeep : (d.afterGet E).demand E = d.demand E := by
        rw [Drain.demand, if_neg hmode]
        rfl
      rw [hkeep]
      exact h.demand
  · intro hmode
    change d.demand E = _
    rw [Drain.demand, if_neg hmode]
    exact h.constant hmode
  · obtain ⟨new, hcalls, hnew⟩ := h.log
    refine ⟨new ++ [.getPacket (d.demand E) (d.got E).status], ?_, ?_⟩
    · rw [Drain.afterGet_calls, hcalls, List.append_assoc]
    · intro len status hmem
      rcases List.mem_append.mp hmem with hold | hlast
      · exact hnew len status hold
      · cases List.mem_singleton.mp hlast
        exact h.demand

theorem Demanding.body {E : EncapConf σ ω} (hlib : RemainingLaws E.gse E.lib)
    {base : List EncapCall} {top : Int} {d : Drain σ ω} (h : Demanding E base top d) :
    Demanding E base top (drainBody E d).state := by
  have hafter := h.afterGet hlib
  rcases drainBody_cases E d with ⟨_, hb⟩ | ⟨_, _, _, hb⟩ | ⟨_, _, hb⟩ | ⟨_, _, _, hb⟩ |
    ⟨_, _, heap, pkt, _, hb⟩
  · rw [hb]; exact h
  · rw [hb]; exact ⟨hafter.demand, hafter.constant, hafter.log⟩
  · rw [hb]; exact hafter
  · rw [hb]; exact hafter
  · rw [hb]
    obtain ⟨ret, hsend, _⟩ := (d.afterGet E).send_calls E heap pkt
    obtain ⟨new, hcalls, hnew⟩ := hafter.log
    refine ⟨hafter.demand, hafter.constant, new ++ [.writeUdp (pkt.data heap) ret], ?_, ?_⟩
    · rw [Flow.state_next, hsend, hcalls, List.append_assoc]
    · intro len status hmem
      rcases List.mem_append.mp hmem with hold | hlast
      · exact hnew len status hold
      · cases List.mem_singleton.mp hlast

/-- Every demand a pass of the outer loop adds to the log is at most `top`. -/
def DemandsAtMost (top : Int) (before after : List EncapCall) : Prop :=
  ∀ len status, EncapCall.getPacket len status ∈ after.drop before.length → len ≤ top

def firstDemand (E : EncapConf σ ω) (frame : List UInt8) : Int :=
  if E.params.payloadLen = 0 then frame.length + E.gse.GSE_MAX_HEADER_LENGTH
  else E.params.payloadLen

/-- The first demand of a PDU is its largest. -/
theorem demandsAtMost_iff {E : EncapConf σ ω} (hvfrag : VfragLaws E.lib)
    (hlib : RemainingLaws E.gse E.lib) {bound : Nat} (hbound : 0 < bound) {frame : List UInt8}
    (hne : frame ≠ []) (hlen : frame.length ≤ E.params.bufferLen)
    (hmax : E.params.bufferLen ≤ GSE_MAX_PDU_LENGTH) {s : EncapState σ ω} (halive : s.alive = 0)
    (limit : Int) :
    DemandsAtMost limit s.calls (encapStep E bound (.readable (some frame)) s).state.calls ↔
      (Admitted E frame s → firstDemand E frame ≤ limit) := by
  rcases encapStep_of_laws hvfrag bound halive hne hlen hmax with ⟨hno, hstep⟩ | ⟨hok, hstep⟩
  · -- a refused PDU is not asked for
    refine iff_of_true ?_ fun hadmitted => absurd hadmitted hno
    intro len status hmem
    rw [hstep] at hmem
    change _ ∈ (s.calls ++ [_]).drop s.calls.length at hmem
    rw [List.drop_left, List.mem_singleton] at hmem
    cases hmem
  · simp only [hok, true_implies]
    rw [hstep, Flow.state_leave]
    have hfirst : (s.drainStart E frame).demand E = firstDemand E frame := by
      have hreceived : E.lib.gseGetVfragLength (s.drainStart E frame).env.lib
          (s.drainStart E frame).vfragPdu = frame.length := hlib.received _ _ _ hok
      rw [Drain.demand, hreceived]
      rfl
    obtain ⟨status, hcalls⟩ : ∃ status, (s.drainStart E frame).env.calls = s.calls ++
        [.receivePdu (s.counter + 1) (pduLabel (s.counter + 1)) status] := ⟨_, rfl⟩
    constructor
    · intro hdemands
      obtain ⟨status', new, hnew⟩ := drain_first_demand E
        (d := s.drainStart E frame) ⟨Ret.ok_ne_fifoEmpty, Nat.zero_lt_succ 4⟩ hbound
      refine hfirst ▸ hdemands ((s.drainStart E frame).demand E) status' ?_
      rw [← hnew, hcalls, List.append_assoc, List.append_assoc, List.drop_left]
      simp
    · intro htop
      have hdemanding : Demanding E s.calls (firstDemand E frame) (s.drainStart E frame) :=
        ⟨Int.le_of_eq hfirst, fun _ => rfl, _, hcalls, by
          intro len status hmem
          cases List.mem_singleton.mp hmem⟩
      obtain ⟨new, hnew, hle⟩ := (loop_inv (Demanding E s.calls (firstDemand E frame))
        (fun _ h => h.body hlib) bound hdemanding).log
      intro len status hmem
      rw [hnew, List.drop_left] at hmem
      exact Int.le_trans (hle len status hmem) htop

/-- **When `satencap` asks for encodable packets only.** For every frame, from every
    state, in both modes and however the library calls end: no demand of the frame's PDU
    exceeds `GSE_MAX_PACKET_LENGTH` exactly if the PDU is refused, or `payload_len` does
    not exceed it, or, when that is 0, the frame with the largest header does not. -/
theorem demands_encodable_iff (E : EncapConf σ ω) (hvfrag : VfragLaws E.lib)
    (hlib : RemainingLaws E.gse E.lib) (bound : Nat) (hbound : 0 < bound) (frame : List UInt8)
    (hne : frame ≠ []) (hlen : frame.length ≤ E.params.bufferLen)
    (hmax : E.params.bufferLen ≤ GSE_MAX_PDU_LENGTH) (s : EncapState σ ω) (halive : s.alive = 0) :
    DemandsAtMost GSE_MAX_PACKET_LENGTH s.calls
        (encapStep E bound (.readable (some frame)) s).state.calls ↔
      (Admitted E frame s →
        (E.params.payloadLen = 0 →
          frame.length + E.gse.GSE_MAX_HEADER_LENGTH ≤ GSE_MAX_PACKET_LENGTH) ∧
        (E.params.payloadLen ≠ 0 → E.params.payloadLen ≤ GSE_MAX_PACKET_LENGTH)) := by
  rw [demandsAtMost_iff hvfrag hlib hbound hne hlen hmax halive]
  refine imp_congr_right fun _ => ?_
  by_cases hmode : E.params.payloadLen = 0
  · rw [firstDemand, if_pos hmode]
    constructor
    · intro h
      exact ⟨fun _ => by omega, fun hne => absurd hmode hne⟩
    · intro h
      have := h.1 hmode
      omega
  · rw [firstDemand, if_neg hmode]
    exact ⟨fun h => ⟨fun h0 => absurd h0 hmode, fun _ => h⟩, fun h => h.2 hmode⟩

/-- A libgse that emits a PDU as one packet with a complete header; its state is the
    number of bytes left of that PDU. -/
def wholePduLib : Encapsulator Nat where
  gseCreateVfrag n _ maxLength headOffset trailOffset :=
    ⟨.ok, ⟨0, headOffset, 0⟩, n, fun _ => ⟨headOffset + maxLength + trailOffset, fun _ => 0⟩⟩
  gseSetVfragLength _ v len := (.ok, { v with length := len })
  gseGetVfragLength n _ := n
  gseEncapReceivePdu n pdu _ := if n = 0 then (.ok, pdu.length) else (.other 0, n)
  gseEncapGetPacket n heap _ :=
    if n = 0 then ⟨.fifoEmpty, ⟨0, 0, 0⟩, 0, heap⟩ else ⟨.ok, ⟨0, 3, 10 + n⟩, 0, heap⟩

theorem wholePduLib_vfrag : VfragLaws wholePduLib :=
  ⟨fun _ _ _ _ _ => rfl, fun _ _ _ _ _ => rfl, fun _ _ _ _ => rfl⟩

theorem wholePduLib_remaining (G : GseConstants) : RemainingLaws G wholePduLib where
  received n pdu label hok := by
    by_cases hn : n = 0
    · simp [wholePduLib, hn]
    · simp [wholePduLib, hn] at hok
  whole n heap pdu len _ := by
    by_cases hn : n = 0 <;> simp [wholePduLib, hn]

def wholePduConf (params : ProcessEncapParams) : EncapConf Nat Unit where
  gse := ⟨13, 4⟩
  lib := wholePduLib
  sendto net data := (data.length, net)
  params := params

/-- `-i tap0 -l 127.0.0.1:1 -r 127.0.0.1:2 -p` and a payload length. -/
def optionEvents (payloadLen : List Char) : List OptionEvent :=
  requiredEvents ++ [⟨'p', payloadLen⟩]

def tunnelOf (payloadLen : Int) : ProcessEncapParams :=
  ⟨⟨['t', 'a', 'p', '0'], ⟨0x7f000001, 1⟩, ⟨0x7f000001, 2⟩, ⟨0, 100000000⟩, 8192, payloadLen⟩,
    ⟨0, 1⟩⟩

/-- A frame of one byte in the mode without a payload length: 14 bytes are asked for. -/
theorem demands_encodable_one_byte :
    DemandsAtMost GSE_MAX_PACKET_LENGTH []
      (encapStep (wholePduConf (tunnelOf 0)) 2 (.readable (some [7]))
        (.init 0 () fun _ => ⟨0, fun _ => 0⟩)).state.calls :=
  (demands_encodable_iff (wholePduConf (tunnelOf 0)) wholePduLib_vfrag
    (wholePduLib_remaining _) 2 (by decide) [7] (by decide) (by decide) (by decide)
    (.init 0 () fun _ => ⟨0, fun _ => 0⟩) rfl).mpr fun _ => ⟨by decide, by decide⟩

/-- `-p 5000` is accepted, and then 5000 bytes are asked for. -/
theorem long_payload_demanded :
    satencapParseArguments argumentsHost (optionEvents ['5', '0', '0', '0']) (tunnelOf 0) =
        (0, tunnelOf 5000) ∧
      checkEncapParams ⟨13, 4⟩ (tunnelOf 5000) = 0 ∧
      ¬DemandsAtMost GSE_MAX_PACKET_LENGTH []
        (encapStep (wholePduConf (tunnelOf 5000)) 1 (.readable (some [7]))
          (.init 0 () fun _ => ⟨0, fun _ => 0⟩)).state.calls := by
  refine ⟨by decide, by decide, fun hdemands => ?_⟩
  have hiff := demandsAtMost_iff (E := wholePduConf (tunnelOf 5000)) wholePduLib_vfrag
    (wholePduLib_remaining _) (Nat.zero_lt_one) (List.cons_ne_nil 7 []) (by decide) (by decide)
    (s := .init 0 () fun _ => ⟨0, fun _ => 0⟩) rfl GSE_MAX_PACKET_LENGTH
  exact absurd (hiff.mp hdemands rfl) (by decide)

end DvbGseTunnel
