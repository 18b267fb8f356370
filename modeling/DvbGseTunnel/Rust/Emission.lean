import DvbGseTunnel.Lib.Network
import DvbGseTunnel.Lib.Arrivals
import DvbGseTunnel.Rust.Cutting

/-!
# What the Rust sender hands to its kernel

The run of the Rust `satencap` over anything that `recv` gives, with any kernel. A failed
`recv` and a refused datagram end the program with a panic. Up to there the packets of the
frames leave in order, each in a datagram of its own (`runtimeEncap_emits`).
-/

namespace DvbGseTunnel.Rust

open Lib

variable {σ κ ω : Type}

/-- The frames that `recv` gives before it fails, cut to the size of the buffer. -/
def framesReceived (capa : Nat) : List (Option Bytes) → List Bytes
  | [] => []
  | none :: _ => []
  | some frame :: events => frame.take capa :: framesReceived capa events

section

variable {E : EncapConf σ κ ω} {S : Segmentation} {Accepts : Bytes → Prop}
  {Rest : κ → Bytes → List Bytes → Prop}

/-- With any kernel, the packets of a frame leave one by one, until one is refused. The
    induction is on the packets still to be written. -/
theorem sendLoop_prefix (hlib : CutLaws E.lib S Accepts Rest)
    (hlen : E.payloadLen ≤ GSE_MAX_PACKET_LENGTH) {bound : Nat} {d : Sending σ κ ω} {p : Bytes}
    {ps : List Bytes} (hbound : ps.length < bound) (h : Writes E Rest d p ps) :
    ∃ t, ((loop (sendBody E) bound d = .stop t ∧ t.env.payload.length = GSE_MAX_PACKET_LENGTH ∧
          t.env.sent = d.env.sent ++ (p :: ps).map (padTo E.payloadLen)) ∨
        (¬E.Sends ∧ loop (sendBody E) bound d = .fault t ∧
          t.env.sent <+: d.env.sent ++ (p :: ps).map (padTo E.payloadLen))) := by
  induction ps generalizing d p bound with
  | nil =>
    obtain ⟨n, rfl⟩ : ∃ n, bound = n + 1 := ⟨bound - 1, by omega⟩
    obtain ⟨t, hpayload, _, ⟨hno, hb, hsent, _⟩ | ⟨hsent, _, ⟨_, hb⟩ | ⟨_, _, heq, _⟩⟩⟩ :=
      sendBody_of_writes hlib hlen h
    · refine ⟨t, .inr ⟨hno, ?_, ?_⟩⟩
      · rw [loop_succ, hb, Flow.fault_andThen]
      · rw [hsent]
        exact List.prefix_append _ _
    · refine ⟨t, .inl ⟨?_, hpayload, hsent⟩⟩
      rw [loop_succ, hb, Flow.stop_andThen]
    · cases heq
  | cons q qs ih =>
    obtain ⟨n, rfl⟩ : ∃ n, bound = n + 1 := ⟨bound - 1, by omega⟩
    obtain ⟨u, _, _, ⟨hno, hb, hsent, _⟩ | ⟨hsent, _, ⟨heq, _⟩ | ⟨_, _, heq, hb, hnext⟩⟩⟩ :=
      sendBody_of_writes hlib hlen h
    · refine ⟨u, .inr ⟨hno, ?_, ?_⟩⟩
      · rw [loop_succ, hb, Flow.fault_andThen]
      · rw [hsent]
        exact List.prefix_append _ _
    · cases heq
    · cases heq
      rw [List.length_cons] at hbound
      obtain ⟨t, hrun⟩ := ih (Nat.lt_of_succ_lt_succ hbound) hnext
      rw [hsent, List.append_assoc] at hrun
      refine ⟨t, ?_⟩
      rw [loop_succ, hb, Flow.next_andThen]
      exact hrun

/-- One frame: all its packets are sent, or the program ends after some of them. -/
theorem encapStep_prefix (hlib : CutLaws E.lib S Accepts Rest)
    (hlen : E.payloadLen ≤ GSE_MAX_PACKET_LENGTH) {bound : Nat} {frame : Bytes}
    (haccepts : Accepts (frame.take GSE_MAX_PDU_LEN))
    (hbound : (S.sizes (frame.take GSE_MAX_PDU_LEN).length).length ≤ bound) {s : EncapState σ ω}
    (hpayload : s.payload.length = GSE_MAX_PACKET_LENGTH) :
    ∃ ps t, S.Cut (frame.take GSE_MAX_PDU_LEN) ps ∧
      ((encapStep E bound (some frame) s = .next t ∧ t.payload.length = GSE_MAX_PACKET_LENGTH ∧
          t.sent = s.sent ++ ps.map (padTo E.payloadLen)) ∨
        (¬E.Sends ∧ encapStep E bound (some frame) s = .fault t ∧
          t.sent <+: s.sent ++ ps.map (padTo E.payloadLen))) := by
  obtain ⟨p, ps, hcut, hwrites⟩ := Writes.start (E := E) hlib haccepts
    (List.length_take_le GSE_MAX_PDU_LEN frame) hpayload
  have hstart : Sending.start (frame.take GSE_MAX_PDU_LEN) s =
      (Sending.start frame s : Sending σ κ ω) := by
    simp only [Sending.start, List.take_take, Nat.min_self]
  have hpasses : ps.length < bound := by
    have hcount := Segmentation.cut_length hcut
    rw [List.length_cons] at hcount
    omega
  rw [hstart] at hwrites
  obtain ⟨t, hrun⟩ := sendLoop_prefix hlib hlen hpasses hwrites
  refine ⟨p :: ps, t.env, hcut, ?_⟩
  rcases hrun with ⟨hstop, hkeep, hsent⟩ | ⟨hno, hfault, hsent⟩
  · exact .inl ⟨by simp only [encapStep, hstop, Flow.leave_stop], hkeep, hsent⟩
  · exact .inr ⟨hno, by simp only [encapStep, hfault, Flow.leave_fault], hsent⟩

theorem exists_cuts {frames : List Bytes} (h : ∀ frame ∈ frames, ∃ ps, S.Cut frame ps) :
    ∃ pss, List.Forall₂ S.Cut frames pss := by
  induction frames with
  | nil => exact ⟨[], .nil⟩
  | cons frame frames ih =>
    rw [List.forall_mem_cons] at h
    obtain ⟨ps, hcut⟩ := h.1
    obtain ⟨pss, hcuts⟩ := ih h.2
    exact ⟨ps :: pss, .cons hcut hcuts⟩

theorem exists_cut (hlib : CutLaws E.lib S Accepts Rest) (d : σ) {frame : Bytes}
    (haccepts : Accepts frame) : ∃ ps, S.Cut frame ps := by
  obtain ⟨p, ps, _, hcut, _⟩ := hlib.encap d (pduLabel 0) haccepts
    (List.length_replicate (n := GSE_MAX_PACKET_LENGTH) (a := 0))
  exact ⟨p :: ps, hcut⟩

/-- The run over the events, from any state at `recv`. With a kernel that takes every
    datagram nothing is missing. -/
theorem runtimeEncap_sent (hlib : CutLaws E.lib S Accepts Rest)
    (hlen : E.payloadLen ≤ GSE_MAX_PACKET_LENGTH) (bound : Nat) {events : List (Option Bytes)}
    (haccepts : ∀ frame ∈ framesReceived GSE_MAX_PDU_LEN events,
      Accepts frame ∧ (S.sizes frame.length).length ≤ bound) {s : EncapState σ ω}
    (hpayload : s.payload.length = GSE_MAX_PACKET_LENGTH) :
    ∃ pss, List.Forall₂ S.Cut (framesReceived GSE_MAX_PDU_LEN events) pss ∧
      (runtimeEncap E bound events s).state.sent <+:
        s.sent ++ pss.flatten.map (padTo E.payloadLen) ∧
      (E.Sends → (runtimeEncap E bound events s).state.sent =
        s.sent ++ pss.flatten.map (padTo E.payloadLen)) := by
  induction events generalizing s with
  | nil => exact ⟨[], .nil, List.prefix_append _ _, fun _ => (List.append_nil _).symm⟩
  | cons event events ih =>
    cases event with
    | none => exact ⟨[], .nil, List.prefix_append _ _, fun _ => (List.append_nil _).symm⟩
    | some frame =>
      rw [framesReceived, List.forall_mem_cons] at haccepts
      obtain ⟨⟨haccept, hcount⟩, hrest⟩ := haccepts
      obtain ⟨ps, t, hcut, hstep⟩ := encapStep_prefix hlib hlen haccept hcount hpayload
      rw [runtimeEncap, feed_cons, framesReceived]
      rcases hstep with ⟨hnext, hkeep, hsent⟩ | ⟨hno, hfault, hsent⟩
      · obtain ⟨pss, hcuts, hprefix⟩ := ih hrest hkeep
        refine ⟨ps :: pss, .cons hcut hcuts, ?_⟩
        rw [hnext, Flow.next_andThen, List.flatten_cons, List.map_append, ← List.append_assoc,
          ← hsent]
        exact hprefix
      · -- the later frames are not read any more
        obtain ⟨pss, hcuts⟩ := exists_cuts fun frame hframe =>
          exists_cut hlib s.lib (hrest frame hframe).1
        refine ⟨ps :: pss, .cons hcut hcuts, ?_, fun hsends => absurd hsends hno⟩
        rw [hfault, Flow.fault_andThen, List.flatten_cons, List.map_append, ← List.append_assoc]
        exact hsent.trans (List.prefix_append _ _)

/-- With any kernel and whatever `recv` gives, the datagrams that were sent are those of the
    packets of the frames, in order, as far as the program came. -/
theorem runtimeEncap_emits (hlib : CutLaws E.lib S Accepts Rest)
    (hlen : E.payloadLen ≤ GSE_MAX_PACKET_LENGTH) (bound : Nat) {events : List (Option Bytes)}
    (haccepts : ∀ frame ∈ framesReceived GSE_MAX_PDU_LEN events,
      Accepts frame ∧ (S.sizes frame.length).length ≤ bound) (lib : σ) (net : ω) :
    ∃ pss, List.Forall₂ S.Cut (framesReceived GSE_MAX_PDU_LEN events) pss ∧
      Emits (S.CarriesPadded E.payloadLen) pss.flatten
        ((runtimeEncap E bound events (.init lib net)).state.sent.map some) := by
  obtain ⟨pss, hcuts, hfirst, -⟩ := runtimeEncap_sent hlib hlen bound haccepts
    (s := EncapState.init lib net) List.length_replicate
  refine ⟨pss, hcuts, fun n datagram hn => ?_⟩
  rw [List.getElem?_map, Option.map_eq_some_iff] at hn
  obtain ⟨_, hsent, heq⟩ := hn
  obtain rfl := Option.some.inj heq
  have hpadded := Parties.getElem?_of_prefix hfirst hsent
  change (pss.flatten.map (padTo E.payloadLen))[n]? = _ at hpadded
  rw [List.getElem?_map, Option.map_eq_some_iff] at hpadded
  obtain ⟨p, hp, rfl⟩ := hpadded
  exact ⟨p, hp, Segmentation.isPacket_of_getElem? hcuts hp, rfl⟩

theorem framesReceived_mono {capa : Nat} {events events' : List (Option Bytes)}
    (h : events <+: events') : framesReceived capa events <+: framesReceived capa events' := by
  induction events generalizing events' with
  | nil => exact List.nil_prefix
  | cons event events ih =>
    obtain ⟨rest, rfl⟩ := h
    cases event with
    | none => exact List.prefix_rfl
    | some frame => exact List.cons_prefix_cons.mpr ⟨rfl, ih (List.prefix_append events rest)⟩

theorem encapStep_sent (E : EncapConf σ κ ω) (bound : Nat) (event : Option Bytes)
    (s : EncapState σ ω) : s.sent <+: (encapStep E bound event s).state.sent := by
  cases event with
  | none => exact List.prefix_rfl
  | some frame =>
    simp only [encapStep, Flow.state_leave]
    refine loop_inv (fun d : Sending σ κ ω => s.sent <+: d.env.sent) ?_ bound List.prefix_rfl
    intro d hd
    rcases sendBody_cases E d with ⟨_, _, _, hb⟩ | ⟨_, _, _, _, _, _, _, _, ⟨_, hb⟩ | ⟨_, hb⟩⟩
    · rw [hb]
      exact hd
    · rw [hb]
      exact hd.trans (List.prefix_append _ _)
    · rw [hb]
      exact hd.trans (List.prefix_append _ _)

end

end DvbGseTunnel.Rust
