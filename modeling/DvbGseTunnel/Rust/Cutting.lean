import DvbGseTunnel.Rust.Satencap

/-!
# Frames cut by the Rust encapsulator

What `dvb_gse_rust` documents about `encap` and `encap_frag`, as a `Segmentation` with
the capacity of the payload buffer, and what the sending loop does with it: each packet
of a frame leaves in a datagram of its own, padded to the payload length
(`runtimeEncap_sends`).
-/

namespace DvbGseTunnel.Rust

open Lib

variable {σ κ ω : Type}

/-- The context after a packet is for the next one of the frame, if there is one. -/
def Continues (Rest : κ → Bytes → List Bytes → Prop) (context : Option κ) (frame : Bytes) :
    List Bytes → Prop
  | [] => context = none
  | p :: ps => ∃ c, context = some c ∧ Rest c frame (p :: ps)

/-- The encapsulator cuts accepted frames as `S` says; `Rest` tells the packets still to
    come from a context. -/
structure CutLaws (L : Encapsulator σ κ) (S : Segmentation) (Accepts : Bytes → Prop)
    (Rest : κ → Bytes → List Bytes → Prop) : Prop where
  capacity : S.capacity = GSE_MAX_PACKET_LENGTH
  encap : ∀ d {frame} label {buffer : Bytes}, Accepts frame →
    buffer.length = GSE_MAX_PACKET_LENGTH → ∃ p ps context, S.Cut frame (p :: ps) ∧
      Wrote (L.encap d frame FRAG_ID PROTOCOL label buffer) buffer p context ∧
      Continues Rest context frame ps
  encapFrag : ∀ d {frame c p ps} {buffer : Bytes}, Rest c frame (p :: ps) →
    buffer.length = GSE_MAX_PACKET_LENGTH → ∃ context,
      Wrote (L.encapFrag d frame c buffer) buffer p context ∧ Continues Rest context frame ps

/-- The next pass writes the packet `p`, and the passes after it `ps`. -/
def Writes (E : EncapConf σ κ ω) (Rest : κ → Bytes → List Bytes → Prop) (d : Sending σ κ ω)
    (p : Bytes) (ps : List Bytes) : Prop :=
  d.env.payload.length = GSE_MAX_PACKET_LENGTH ∧
    ∃ context, Wrote (d.call E) d.env.payload p context ∧ Continues Rest context d.buffer ps

theorem Writes.next {E : EncapConf σ κ ω} {S : Segmentation} {Accepts : Bytes → Prop}
    {Rest : κ → Bytes → List Bytes → Prop} (hlib : CutLaws E.lib S Accepts Rest)
    {d : Sending σ κ ω} {c : κ} {p : Bytes} {ps : List Bytes} (hcontext : d.context = some c)
    (hpayload : d.env.payload.length = GSE_MAX_PACKET_LENGTH)
    (hrest : Rest c d.buffer (p :: ps)) : Writes E Rest d p ps := by
  obtain ⟨context, hwrote, hcontinues⟩ := hlib.encapFrag d.env.lib hrest hpayload
  refine ⟨hpayload, context, ?_, hcontinues⟩
  rw [Sending.call, hcontext]
  exact hwrote

theorem Writes.start {E : EncapConf σ κ ω} {S : Segmentation} {Accepts : Bytes → Prop}
    {Rest : κ → Bytes → List Bytes → Prop} (hlib : CutLaws E.lib S Accepts Rest)
    {frame : Bytes} (haccepts : Accepts frame) (hframe : frame.length ≤ GSE_MAX_PDU_LEN)
    {s : EncapState σ ω} (hpayload : s.payload.length = GSE_MAX_PACKET_LENGTH) :
    ∃ p ps, S.Cut frame (p :: ps) ∧ Writes E Rest (Sending.start frame s) p ps := by
  obtain ⟨p, ps, context, hcut, hwrote, hcontinues⟩ :=
    hlib.encap s.lib (pduLabel s.counter) haccepts hpayload
  have hbuffer : frame.take GSE_MAX_PDU_LEN = frame := List.take_of_length_le hframe
  refine ⟨p, ps, hcut, hpayload, context, ?_, ?_⟩
  · change Wrote (E.lib.encap s.lib (frame.take GSE_MAX_PDU_LEN) _ _ _ s.payload) _ _ _
    rw [hbuffer]
    exact hwrote
  · change Continues Rest context (frame.take GSE_MAX_PDU_LEN) ps
    rw [hbuffer]
    exact hcontinues

/-! ### One pass -/

/-- The kernel takes every datagram. -/
def EncapConf.Sends (E : EncapConf σ κ ω) : Prop := ∀ net bytes, (E.send net bytes).1 = true

/-- A pass sends its packet, padded, and either ends the frame or leaves the next packet
    to be written; or it panics because the datagram could not be sent. -/
theorem sendBody_of_writes {E : EncapConf σ κ ω} {S : Segmentation} {Accepts : Bytes → Prop}
    {Rest : κ → Bytes → List Bytes → Prop} (hlib : CutLaws E.lib S Accepts Rest)
    (hlen : E.payloadLen ≤ GSE_MAX_PACKET_LENGTH) {d : Sending σ κ ω} {p : Bytes}
    {ps : List Bytes} (h : Writes E Rest d p ps) :
    ∃ d', d'.env.payload.length = GSE_MAX_PACKET_LENGTH ∧ d'.buffer = d.buffer ∧
      ((¬E.Sends ∧ sendBody E d = .fault d' ∧ d'.env.sent = d.env.sent ∧
          d'.env.panic = some .unwrap) ∨
        (d'.env.sent = d.env.sent ++ [padTo E.payloadLen p] ∧ d'.env.panic = d.env.panic ∧
          ((ps = [] ∧ sendBody E d = .stop d') ∨
            ∃ q qs, ps = q :: qs ∧ sendBody E d = .next d' ∧ Writes E Rest d' q qs))) := by
  obtain ⟨hpayload, context, hwrote, hcontinues⟩ := h
  obtain ⟨payload, hkeep, hbody⟩ := sendBody_of_wrote hwrote
    (by rw [hpayload]; decide) (by rw [hpayload]; exact hlen)
  have hlength : payload.length = GSE_MAX_PACKET_LENGTH := hkeep.trans hpayload
  let d₁ := (d.afterCall E).afterSend payload (E.send d.env.net (padTo E.payloadLen p)).2
  rcases hbody with ⟨hno, hb⟩ | ⟨_, hnone, hb⟩ | ⟨_, hsome, hb⟩
  · refine ⟨d₁.panicked .unwrap, hlength, rfl, .inl ⟨fun hsends => ?_, hb, rfl, rfl⟩⟩
    rw [hsends] at hno
    cases hno
  · refine ⟨d₁.sentDatagram (padTo E.payloadLen p) none, hlength, rfl,
      .inr ⟨rfl, rfl, .inl ⟨?_, hb⟩⟩⟩
    cases ps with
    | nil => rfl
    | cons q qs =>
      obtain ⟨c, hc, _⟩ := hcontinues
      rw [hnone] at hc
      cases hc
  · cases ps with
    | nil => exact absurd hcontinues hsome
    | cons q qs =>
      obtain ⟨c, hc, hrest⟩ := hcontinues
      refine ⟨d₁.sentDatagram (padTo E.payloadLen p) context, hlength, rfl,
        .inr ⟨rfl, rfl, .inr ⟨q, qs, rfl, hb, ?_⟩⟩⟩
      exact Writes.next hlib hc hlength hrest

/-! ### A frame, and a run -/

/-- The packets of a frame leave one by one. The induction is on the packets still to be
    written. -/
theorem sendLoop_of_writes {E : EncapConf σ κ ω} {S : Segmentation} {Accepts : Bytes → Prop}
    {Rest : κ → Bytes → List Bytes → Prop} (hlib : CutLaws E.lib S Accepts Rest)
    (hlen : E.payloadLen ≤ GSE_MAX_PACKET_LENGTH) (hsends : E.Sends) {bound : Nat}
    {d : Sending σ κ ω} {p : Bytes} {ps : List Bytes} (hbound : ps.length < bound)
    (h : Writes E Rest d p ps) :
    ∃ t, loop (sendBody E) bound d = .stop t ∧
      t.env.payload.length = GSE_MAX_PACKET_LENGTH ∧
      t.env.sent = d.env.sent ++ (p :: ps).map (padTo E.payloadLen) := by
  induction ps generalizing d p bound with
  | nil =>
    obtain ⟨n, rfl⟩ : ∃ n, bound = n + 1 := ⟨bound - 1, by omega⟩
    obtain ⟨t, hpayload, _, ⟨hno, _⟩ | ⟨hsent, _, ⟨_, hb⟩ | ⟨_, _, heq, _⟩⟩⟩ :=
      sendBody_of_writes hlib hlen h
    · exact absurd hsends hno
    · refine ⟨t, ?_, hpayload, hsent⟩
      rw [loop_succ, hb, Flow.stop_andThen]
    · cases heq
  | cons q qs ih =>
    obtain ⟨n, rfl⟩ : ∃ n, bound = n + 1 := ⟨bound - 1, by omega⟩
    obtain ⟨u, _, _, ⟨hno, _⟩ | ⟨hsent, _, ⟨heq, _⟩ | ⟨_, _, heq, hb, hnext⟩⟩⟩ :=
      sendBody_of_writes hlib hlen h
    · exact absurd hsends hno
    · cases heq
    · cases heq
      rw [List.length_cons] at hbound
      obtain ⟨t, hrun, hpayload, ht⟩ := ih (Nat.lt_of_succ_lt_succ hbound) hnext
      refine ⟨t, ?_, hpayload, ?_⟩
      · rw [loop_succ, hb, Flow.next_andThen, hrun]
      · rw [ht, hsent, List.append_assoc]
        rfl

/-- With the payload buffer as long as it is made, and enough passes for each frame, the
    run over accepted frames sends the packets of each, padded, in order. -/
theorem runtimeEncap_sends {E : EncapConf σ κ ω} {S : Segmentation} {Accepts : Bytes → Prop}
    {Rest : κ → Bytes → List Bytes → Prop} (hlib : CutLaws E.lib S Accepts Rest)
    (hlen : E.payloadLen ≤ GSE_MAX_PACKET_LENGTH) (hsends : E.Sends) {frames : List Bytes}
    (haccepts : ∀ frame ∈ frames, Accepts frame ∧ frame.length ≤ GSE_MAX_PDU_LEN) {bound : Nat}
    (hbound : ∀ frame ∈ frames, (S.sizes frame.length).length ≤ bound) (lib : σ) (net : ω) :
    ∃ s pss, runtimeEncap E bound (frames.map some) (.init lib net) = .next s ∧
      List.Forall₂ S.Cut frames pss ∧ s.sent = pss.flatten.map (padTo E.payloadLen) := by
  let J : List Bytes → EncapState σ ω → Prop := fun before s =>
    s.payload.length = GSE_MAX_PACKET_LENGTH ∧ ∃ pss, List.Forall₂ S.Cut before pss ∧
      s.sent = pss.flatten.map (padTo E.payloadLen)
  have hinit : J [] (EncapState.init lib net) :=
    ⟨List.length_replicate, [], .nil, rfl⟩
  have hstep : ∀ before, ∀ frame ∈ frames, ∀ s, J before s →
      ∃ t, encapStep E bound (some frame) s = .next t ∧ J (before ++ [frame]) t := by
    rintro before frame hmem s ⟨hpayload, pss, hcuts, hsent⟩
    obtain ⟨haccept, hframe⟩ := haccepts frame hmem
    obtain ⟨p, ps, hcut, hwrites⟩ := Writes.start hlib haccept hframe hpayload
    have hpasses : ps.length < bound := by
      have hcount := Segmentation.cut_length hcut
      have hmost := hbound frame hmem
      rw [List.length_cons] at hcount
      omega
    obtain ⟨t, hloop, ht, hout⟩ := sendLoop_of_writes hlib hlen hsends hpasses hwrites
    refine ⟨t.env, ?_, ht, pss ++ [p :: ps], List.rel_append hcuts (.cons hcut .nil), ?_⟩
    · simp only [encapStep, hloop, Flow.leave_stop]
    · rw [hout]
      change s.sent ++ _ = _
      rw [hsent]
      simp
  obtain ⟨s, hrun, _, pss, hcuts, hsent⟩ := feed_map some J frames hstep hinit
  exact ⟨s, pss, hrun, hcuts, hsent⟩

end DvbGseTunnel.Rust
