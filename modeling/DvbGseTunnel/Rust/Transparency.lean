import DvbGseTunnel.Rust.Testimonial
import DvbGseTunnel.Rust.TunnelNetwork

/-!
# The Rust tunnel is transparent for short frames

Frames of one packet come through the Rust tunnel as through the tunnel without GSE: on the
same events, with the same doings of UDP, the same datagrams arrive and the same frames are
delivered (`rust_tunnel_transparent`).
-/

namespace DvbGseTunnel.Rust

open Lib

variable {σ κ ω δ ω' ω₂ ω₃ : Type}

/-- Frames that are within both buffers are cut by neither. -/
theorem framesReceived_of_short {capa capa' : Nat} {events : List (Option Bytes)}
    (h : ∀ frame, some frame ∈ events → frame.length ≤ capa ∧ frame.length ≤ capa') :
    framesReceived capa events = framesReceived capa' events := by
  induction events with
  | nil => rfl
  | cons event events ih =>
    have hrest := ih fun frame hframe => h frame (List.mem_cons_of_mem event hframe)
    cases event with
    | none => rfl
    | some frame =>
      obtain ⟨hcapa, hcapa'⟩ := h frame List.mem_cons_self
      rw [framesReceived, framesReceived, hrest, List.take_of_length_le hcapa,
        List.take_of_length_le hcapa']

section

variable {E : EncapConf σ κ ω} {S : Segmentation} {Accepts : Bytes → Prop}
  {Rest : κ → Bytes → List Bytes → Prop}

/-- Of frames of one packet each, the Rust sender sends as many datagrams as the other. -/
theorem sent_same (hlib : CutLaws E.lib S Accepts Rest)
    (hlen : E.payloadLen ≤ GSE_MAX_PACKET_LENGTH) (hsends : E.Sends)
    {T : Testimonial.EncapConf ω₂} (hT : T.Sends) (hbuffer : T.bufferLen ≤ GSE_MAX_PDU_LEN)
    {events : List (Option Bytes)}
    (hcut : framesReceived T.bufferLen events = framesReceived GSE_MAX_PDU_LEN events)
    {bound : Nat} (hframes : ∀ frame ∈ framesReceived GSE_MAX_PDU_LEN events,
      Accepts frame ∧ (S.sizes frame.length).length = 1) (hbound : 1 ≤ bound)
    (lib : σ) (net : ω) (net₂ : ω₂) :
    ((runtimeEncap E bound events (.init lib net)).state.sent.map some).map Option.isSome =
      ((Testimonial.runtimeEncap T events (.init net₂)).state.sent.map some).map
        Option.isSome := by
  obtain ⟨pss, hcuts, -, hsent⟩ := runtimeEncap_sent hlib hlen bound
    (fun frame hframe => ⟨(hframes frame hframe).1,
      Nat.le_trans (Nat.le_of_eq (hframes frame hframe).2) hbound⟩)
    (s := .init lib net) List.length_replicate
  have hplain := (Testimonial.runtimeEncap_sent T hbuffer events
    (s := Testimonial.EncapState.init net₂) List.length_replicate).2 hT
  have hpackets := Segmentation.single_packets hcuts fun frame hframe => (hframes frame hframe).2
  have hall : ∀ sent : List Bytes,
      (sent.map some).map Option.isSome = List.replicate sent.length true := by
    intro sent
    rw [List.map_map]
    exact List.map_const'
  rw [hall, hall, hsent hsends, hplain, hcut]
  congr 1
  rw [List.length_append, List.length_append, List.length_map, hpackets.length_eq]
  rfl

/-- The arrivals are numbers of frames. -/
theorem whole_of_arrived (hlib : CutLaws E.lib S Accepts Rest)
    (hlen : E.payloadLen ≤ GSE_MAX_PACKET_LENGTH) {D : DecapConf δ ω'} {bound : Nat}
    {moves : List (Move (Option Bytes) (Option Bytes))}
    (hframes : ∀ frame ∈ framesReceived GSE_MAX_PDU_LEN (senderEvents moves),
      Accepts frame ∧ (S.sizes frame.length).length = 1) (hbound : 1 ≤ bound)
    {lib : σ} {net : ω} {t : DecapState δ ω'} {n : Nat}
    (hn : n ∈ ((rustParties E D bound).run moves (.start (.init lib net) t)).arrivals) :
    (framesReceived GSE_MAX_PDU_LEN (senderEvents moves))[n]? ≠ none := by
  obtain ⟨pss, hcuts, hemits⟩ := runtimeEncap_emits hlib hlen bound
    (fun frame hframe => ⟨(hframes frame hframe).1,
      Nat.le_trans (Nat.le_of_eq (hframes frame hframe).2) hbound⟩) lib net
  obtain ⟨d, hsent⟩ := Parties.arrivals_sent (P := rustParties E D bound)
    (rustParties_appends E D bound) moves _ _ n hn
  obtain ⟨p, hp, -⟩ := hemits n d hsent
  have hpackets := Segmentation.single_packets hcuts fun frame hframe => (hframes frame hframe).2
  rcases forall₂_getElem? hpackets n with ⟨-, hnone⟩ | ⟨frame, _, hframe, -, -⟩
  · rw [hp] at hnone
    cases hnone
  · rw [hframe]
    exact Option.some_ne_none frame

end

/-- **The Rust tunnel is transparent for frames of one packet.** On the same events, with the
    same moves of UDP and kernels that take every datagram, the same datagrams arrive as in
    the tunnel without GSE, and the same frames are delivered. -/
theorem rust_tunnel_transparent (E : EncapConf σ κ ω)
    (hlen : E.payloadLen ≤ GSE_MAX_PACKET_LENGTH) (hsends : E.Sends) (S : Segmentation)
    (Accepts : Bytes → Prop) (Rest : κ → Bytes → List Bytes → Prop)
    (hE : CutLaws E.lib S Accepts Rest) (D : DecapConf δ ω') (hD : D.Succeeds) (Ready : δ → Prop)
    (Awaits : δ → List Bytes → Bytes → Prop) (hlib : DecapLaws D.lib S Ready Awaits)
    (T : Testimonial.EncapConf ω₂) (hT : T.Sends) (hbuffer : T.bufferLen ≤ GSE_MAX_PDU_LEN)
    (U : Testimonial.DecapConf ω₃) (hU : U.Succeeds)
    (moves : List (Move (Option Bytes) (Option Bytes)))
    (hshort : ∀ frame, some frame ∈ senderEvents moves → frame.length ≤ T.bufferLen)
    (hframes : ∀ frame ∈ framesReceived GSE_MAX_PDU_LEN (senderEvents moves),
      Accepts frame ∧ (S.sizes frame.length).length = 1)
    (hown : ∀ event, Move.receiver event ∉ moves) (lib : σ) (net : ω) (dlib : δ) (host : ω')
    (hready : Ready dlib) (net₂ : ω₂) (host₃ : ω₃) (bound : Nat) (hbound : 1 ≤ bound) :
    let gse := (rustParties E D bound).run moves (.start (.init lib net) (.init dlib host))
    let plain := (Testimonial.parties T U).run moves (.start (.init net₂) (.init host₃))
    gse.arrivals = plain.arrivals ∧
      ∃ t u, gse.receiver = .next t ∧ plain.receiver = .next u ∧ t.tap = u.tap := by
  intro gse plain
  have hcuts : ∀ events, events <+: senderEvents moves →
      framesReceived T.bufferLen events = framesReceived GSE_MAX_PDU_LEN events := by
    intro events hfirst
    refine framesReceived_of_short fun frame hframe => ?_
    have hle := hshort frame (hfirst.subset hframe)
    exact ⟨hle, Nat.le_trans hle hbuffer⟩
  have harrivals : gse.arrivals = plain.arrivals := by
    refine Parties.arrivals_congr_of_sent (P := rustParties E D bound) (s := .init lib net)
      (Q := Testimonial.parties T U) (u := .init net₂) moves []
      (fun events hfirst => ?_) rfl rfl rfl
    exact sent_same hE hlen hsends hT hbuffer (hcuts events hfirst)
      (fun frame hframe => hframes frame ((framesReceived_mono hfirst).subset hframe)) hbound
      lib net net₂
  have hwhole : ∀ n ∈ gse.arrivals,
      S.whole (framesReceived GSE_MAX_PDU_LEN (senderEvents moves)) n ≠ none := by
    intro n hn
    rw [Segmentation.whole_eq_getElem? fun frame hframe => (hframes frame hframe).2]
    exact whole_of_arrived hE hlen hframes hbound hn
  obtain ⟨pss, hpackets, hemits⟩ := runtimeEncap_emits hE hlen bound
    (fun frame hframe => ⟨(hframes frame hframe).1,
      Nat.le_trans (Nat.le_of_eq (hframes frame hframe).2) hbound⟩) lib net
  obtain ⟨t, htap, hreceiver⟩ := Parties.run_answers (P := rustParties E D bound)
    (rustParties_appends E D bound) moves hown (s := .init lib net) (t := .init dlib host) hready
    (decapStep_answers hD hlib (Nat.le_of_eq hE.capacity) hlen rfl rfl hpackets hemits)
  obtain ⟨u, hplain, hplaintap⟩ := Testimonial.parties_tap T hU hown net₂ host₃
  refine ⟨harrivals, t, u, ?_, hplain, ?_⟩
  · rcases hreceiver with ⟨hnext, -⟩ | ⟨-, n, hn, hnone⟩
    · exact hnext
    · exact absurd hnone (hwhole n hn)
  · have htap' : t.tap = untilNone (gse.arrivals.map
        (S.whole (framesReceived GSE_MAX_PDU_LEN (senderEvents moves)))) := htap
    rw [htap', untilNone_map hwhole, hplaintap, hcuts _ List.prefix_rfl, harrivals]
    refine List.filterMap_congr fun n _ => ?_
    exact Segmentation.whole_eq_getElem? (fun frame hframe => (hframes frame hframe).2) n

theorem rust_tunnel_transparent_doubled :
    let gse := (rustParties (referenceEncapConf 0) referenceDecapConf 1).run
      Testimonial.doubledMoves (.start (.init () ()) (.init none ()))
    let plain := (Testimonial.parties Testimonial.okConf Testimonial.okDecapConf).run
      Testimonial.doubledMoves (.start (.init ()) (.init ()))
    gse.arrivals = plain.arrivals ∧
      ∃ t u, gse.receiver = .next t ∧ plain.receiver = .next u ∧ t.tap = u.tap := by
  have hevents : senderEvents Testimonial.doubledMoves = [some [5], some [7]] := rfl
  refine rust_tunnel_transparent (referenceEncapConf 0) (Nat.zero_le _)
    (referenceEncapConf_sends 0) rustSegmentation (fun _ => True) StreamRest referenceEncap_cuts
    referenceDecapConf referenceDecapConf_succeeds _ _ referenceDecap_laws Testimonial.okConf
    (fun _ _ => rfl) (Nat.le_refl _) Testimonial.okDecapConf (fun _ _ => rfl)
    Testimonial.doubledMoves ?_ ?_ (by simp [Testimonial.doubledMoves]) () () none () rfl () () 1
    (Nat.le_refl 1)
  · rw [hevents]
    intro frame hframe
    simp only [List.mem_cons, List.not_mem_nil, or_false, Option.some.injEq] at hframe
    rcases hframe with rfl | rfl
    · decide
    · decide
  · rw [hevents]
    have hread : framesReceived GSE_MAX_PDU_LEN [some [5], some [7]] = [[5], [7]] := rfl
    rw [hread]
    intro frame hframe
    simp only [List.mem_cons, List.not_mem_nil, or_false] at hframe
    rcases hframe with rfl | rfl
    · exact ⟨trivial, rfl⟩
    · exact ⟨trivial, rfl⟩

end DvbGseTunnel.Rust
