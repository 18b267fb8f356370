import DvbGseTunnel.EncapKernel
import DvbGseTunnel.Lib.Arrivals

/-!
# What the sender hands to its kernel

The run of `process_encap` over any events: timeouts, reads that fail or give nothing,
frames cut at `buffer_len`, and a `pselect` that fails and ends the loop. If the frames
read fit, the packets of each are handed to the kernel in order, padded, whatever becomes
of each datagram there (`processEncap_emits`).
-/

namespace DvbGseTunnel

open Lib

variable {σ ω : Type}

/-- The frames that the events bring, as `read_tap` stores them. -/
def framesRead (capa : Nat) : List EncapEvent → List Bytes
  | [] => []
  | .timeout :: events => framesRead capa events
  | .pselectFailed :: _ => []
  | .readable none :: events => framesRead capa events
  | .readable (some frame) :: events =>
    if frame.take capa = [] then framesRead capa events
    else frame.take capa :: framesRead capa events

/-! ### A kernel that takes every datagram -/

section Log

variable {E : EncapConf σ ω} {I : List EncapCall → Prop}

/-- A property of the log that every call keeps, with the results `write_udp` can have. -/
structure KeptByCalls (E : EncapConf σ ω) (I : List EncapCall → Prop) : Prop where
  receivePdu : ∀ {calls counter label status}, I calls →
    I (calls ++ [.receivePdu counter label status])
  getPacket : ∀ {calls len status}, I calls → I (calls ++ [.getPacket len status])
  writeUdp : ∀ {calls} net datagram, I calls →
    I (calls ++ [.writeUdp datagram (writeUdp E.sendto net datagram).1])

theorem KeptByCalls.drain (h : KeptByCalls E I) (bound : Nat) {d : Drain σ ω}
    (hd : I d.env.calls) : I (loop (drainBody E) bound d).state.env.calls := by
  refine loop_inv (fun d : Drain σ ω => I d.env.calls) ?_ bound hd
  intro d hd
  have hafter : I (d.afterGet E).env.calls := h.getPacket hd
  rcases drainBody_cases E d with ⟨_, hb⟩ | ⟨_, _, _, hb⟩ | ⟨_, _, hb⟩ | ⟨_, _, _, hb⟩ |
    ⟨_, _, heap, pkt, _, hb⟩
  · rw [hb]; exact hd
  · rw [hb]; exact hafter
  · rw [hb]; exact hafter
  · rw [hb]; exact hafter
  · rw [hb]; exact h.writeUdp _ _ hafter

theorem KeptByCalls.step (h : KeptByCalls E I) (bound : Nat) (event : EncapEvent)
    {s : EncapState σ ω} (hs : I s.calls) : I (encapStep E bound event s).state.calls := by
  unfold encapStep
  split
  · exact hs
  cases event with
  | timeout => exact hs
  | pselectFailed => exact hs
  | readable read =>
    rcases receiveFrame_cases E read s with ⟨heap, hr⟩ | ⟨heap, hr⟩ |
      ⟨heap, pdu, _, hr⟩ | ⟨heap, pdu, _, hr⟩
    · simp only [hr]
      exact hs
    · simp only [hr]
      exact hs
    · simp only [hr]
      exact h.receivePdu hs
    · simp only [hr, Flow.state_leave]
      exact h.drain bound (h.receivePdu hs)

end Log

/-- Such a kernel sends what it is handed. -/
theorem offered_of_sends {E : EncapConf σ ω} (hsends : E.Sends) (bound : Nat)
    (events : List EncapEvent) {s : EncapState σ ω} (hs : offered s.calls = datagrams s.calls) :
    offered (processEncap E bound events s).state.calls =
      datagrams (processEncap E bound events s).state.calls := by
  have hkept : KeptByCalls E fun calls => offered calls = datagrams calls := {
    receivePdu := by
      intro calls counter label status h
      rw [datagrams_receivePdu, ← h]
      simp [offered]
    getPacket := by
      intro calls len status h
      rw [datagrams_getPacket, ← h]
      simp [offered]
    writeUdp := by
      intro calls net datagram h
      rw [writeUdp_of_sent (hsends _ _), datagrams_writeUdp, ← h]
      simp [offered] }
  exact feed_inv (fun s : EncapState σ ω => offered s.calls = datagrams s.calls) events
    (fun event _ s hs => hkept.step bound event hs) hs

/-! ### All events -/

theorem encapStep_take (E : EncapConf σ ω) (bound : Nat) (frame : Bytes) (s : EncapState σ ω) :
    encapStep E bound (.readable (some frame)) s =
      encapStep E bound (frameEvent (frame.take (sizeT E.params.bufferLen))) s := by
  simp only [frameEvent, encapStep, receiveFrame, readTap, List.take_take, Nat.min_self]

/-- A read that fails or gives no byte costs a fragment and nothing else. -/
theorem encapStep_of_nothing {E : EncapConf σ ω} (hvfrag : VfragLaws E.lib) (bound : Nat)
    {read : Option Bytes}
    (hread : ∀ frame, read = some frame → frame.take (sizeT E.params.bufferLen) = [])
    {s : EncapState σ ω} (halive : s.alive = 0) :
    ∃ heap, encapStep E bound (.readable read) s = .next (s.afterRead E heap) := by
  let buffer := (s.created E).heap (s.created E).vfrag.buf
  have hresult : ∃ r : ReadResult, (r.ret < 0 ∨ r.len = 0) ∧
      readTap read (sizeT E.params.bufferLen) buffer (s.created E).vfrag.start = some r := by
    cases read with
    | none => exact ⟨⟨-1, buffer, 0⟩, .inl (by change (-1 : Int) < 0; decide), rfl⟩
    | some frame =>
      have hstart : (s.created E).vfrag.start = E.gse.GSE_MAX_HEADER_LENGTH :=
        hvfrag.create_start _ _ _ _ _
      have hsize : buffer.size = E.gse.GSE_MAX_HEADER_LENGTH + GSE_MAX_PDU_LENGTH +
          E.gse.GSE_MAX_TRAILER_LENGTH := hvfrag.create_size _ _ _ _ _
      obtain ⟨stored, hwrite⟩ : ∃ stored, buffer.write (s.created E).vfrag.start [] = some stored :=
        ⟨_, Buffer.write_eq_some (by rw [hstart, hsize, List.length_nil]; omega)⟩
      refine ⟨⟨1, stored, 0⟩, .inr rfl, ?_⟩
      simp only [readTap, hread frame rfl, hwrite]
      rfl
  obtain ⟨r, hnothing, hr⟩ := hresult
  refine ⟨Function.update (s.created E).heap (s.created E).vfrag.buf r.buffer, ?_⟩
  simp only [encapStep, if_neg (fun h : s.alive ≠ 0 => h halive), receiveFrame]
  rw [hr]
  dsimp only
  rcases hnothing with hret | hlen
  · rw [if_pos hret]
  · by_cases hret : r.ret < 0
    · rw [if_pos hret]
    · rw [if_neg hret, if_pos hlen]

/-- In the state after any run, each of these frames is sent at once: its packets, padded
    to `len` bytes, and nothing is left of it. -/
structure SendsFrames (E : EncapConf σ ω) (S : Segmentation) (len : Nat) (Empty : σ → Prop)
    (bound : Nat) (frames : List Bytes) : Prop where
  vfrag : VfragLaws E.lib
  create : ∀ {d} heap maxLength headOffset trailOffset, Empty d →
    Empty (E.lib.gseCreateVfrag d heap maxLength headOffset trailOffset).lib
  frame : ∀ frame ∈ frames, E.Reads frame → ∀ {s : EncapState σ ω}, Empty s.lib → s.alive = 0 →
    ∃ t ps, encapStep E bound (frameEvent frame) s = .next t ∧ Empty t.lib ∧ t.alive = 0 ∧
      S.Cut frame ps ∧ datagrams t.calls = datagrams s.calls ++ ps.map (padTo len)

section Sender

variable {E : EncapConf σ ω} {S : Segmentation} {len : Nat} {Empty : σ → Prop}

/-- The packets of the frames read so far are sent when the loop is at its test. The
    induction is on the events. -/
theorem processEncap_reads {bound : Nat} {events : List EncapEvent}
    (h : SendsFrames E S len Empty bound (framesRead (sizeT E.params.bufferLen) events))
    (hbuffer : 0 ≤ E.params.bufferLen ∧ E.params.bufferLen ≤ GSE_MAX_PDU_LENGTH)
    {s : EncapState σ ω} (hempty : Empty s.lib) (halive : s.alive = 0) :
    ∃ t pss, (processEncap E bound events s = .next t ∨ processEncap E bound events s = .stop t) ∧
      List.Forall₂ S.Cut (framesRead (sizeT E.params.bufferLen) events) pss ∧
      datagrams t.calls = datagrams s.calls ++ pss.flatten.map (padTo len) := by
  have hPDU : GSE_MAX_PDU_LENGTH = 65535 := rfl
  have hcapa : sizeT E.params.bufferLen = E.params.bufferLen.toNat :=
    sizeT_of_nonneg hbuffer.1 (by omega)
  induction events generalizing s with
  | nil => exact ⟨s, [], .inl rfl, .nil, (List.append_nil _).symm⟩
  | cons event events ih =>
    rw [processEncap, feed_cons]
    have hpass : ∀ read, (∀ frame, read = some frame → frame.take (sizeT E.params.bufferLen) = []) →
        ∃ u, encapStep E bound (.readable read) s = .next u ∧ Empty u.lib ∧ u.alive = 0 ∧
          u.calls = s.calls := by
      intro read hread
      obtain ⟨heap, hstep⟩ := encapStep_of_nothing h.vfrag bound hread halive
      exact ⟨_, hstep, h.create _ _ _ _ hempty, halive, rfl⟩
    match event with
    | .timeout =>
      obtain ⟨t, pss, hrun, hcuts, hcalls⟩ := ih h hempty halive
      have hstep : encapStep E bound .timeout s = .next s := by
        rw [encapStep, if_neg (fun h : s.alive ≠ 0 => h halive)]
      rw [hstep]
      exact ⟨t, pss, hrun, hcuts, hcalls⟩
    | .pselectFailed =>
      have hstep : encapStep E bound .pselectFailed s = .stop { s with alive := -1 } := by
        rw [encapStep, if_neg (fun h : s.alive ≠ 0 => h halive)]
      rw [hstep]
      exact ⟨_, [], .inr rfl, .nil, (List.append_nil _).symm⟩
    | .readable none =>
      obtain ⟨u, hstep, hemptyu, haliveu, hcallsu⟩ := hpass none
        fun frame h => absurd h.symm (Option.some_ne_none frame)
      obtain ⟨t, pss, hrun, hcuts, hcalls⟩ := ih h hemptyu haliveu
      rw [hstep]
      exact ⟨t, pss, hrun, hcuts, hcallsu ▸ hcalls⟩
    | .readable (some frame) =>
      by_cases hnil : frame.take (sizeT E.params.bufferLen) = []
      · rw [framesRead, if_pos hnil] at h ⊢
        obtain ⟨u, hstep, hemptyu, haliveu, hcallsu⟩ := hpass (some frame)
          (fun f hf => Option.some.inj hf ▸ hnil)
        obtain ⟨t, pss, hrun, hcuts, hcalls⟩ := ih h hemptyu haliveu
        rw [hstep]
        exact ⟨t, pss, hrun, hcuts, hcallsu ▸ hcalls⟩
      · rw [framesRead, if_neg hnil] at h ⊢
        have hread : E.Reads (frame.take (sizeT E.params.bufferLen)) := by
          refine ⟨hnil, ?_⟩
          rw [hcapa, List.length_take]
          omega
        obtain ⟨u, ps, hstep, hemptyu, haliveu, hcut, hcallsu⟩ :=
          h.frame _ List.mem_cons_self hread hempty halive
        obtain ⟨t, pss, hrun, hcuts, hcalls⟩ := ih
          ⟨h.vfrag, h.create, fun f hf => h.frame f (List.mem_cons_of_mem _ hf)⟩ hemptyu haliveu
        rw [encapStep_take, hstep]
        refine ⟨t, ps :: pss, hrun, .cons hcut hcuts, ?_⟩
        rw [hcalls, hcallsu, List.flatten_cons, List.map_append, List.append_assoc]

/-- A kernel that takes every datagram. -/
def takesAll (u : Unit) (bytes : List UInt8) : Int × Unit := (bytes.length, u)

/-- What is handed to the kernel carries the packets of the frames, whatever the kernel
    refuses. -/
theorem emits_of_offered {frames : List Bytes} {pss : List (List Bytes)} {calls : List EncapCall}
    (hcuts : List.Forall₂ S.Cut frames pss)
    (hoffered : offered calls = pss.flatten.map (padTo len)) :
    (attempts calls).length = pss.flatten.length ∧
      Emits (S.CarriesPadded len) pss.flatten (attempts calls) := by
  have hpackets := attempts_offered calls
  rw [hoffered] at hpackets
  constructor
  · rw [hpackets.length_eq, List.length_map]
  · intro n datagram hn
    rcases forall₂_getElem? hpackets n with ⟨hnone, _⟩ | ⟨attempt, padded, ha, hp, hsent⟩
    · rw [hnone] at hn
      cases hn
    · obtain rfl : attempt = some datagram := Option.some.inj (ha.symm.trans hn)
      obtain ⟨p, hpn, rfl⟩ := Option.map_eq_some_iff.mp (List.getElem?_map.symm.trans hp)
      refine ⟨p, hpn, Segmentation.isPacket_of_getElem? hcuts hpn, ?_⟩
      rcases hsent with hno | hyes
      · cases hno
      · exact Option.some.inj hyes

/-- With any kernel: each packet of each frame read is handed to the kernel, padded, in
    order, and the loop is at its test or left because `pselect` failed. -/
theorem SendsFrames.emits {bound : Nat} {events : List EncapEvent}
    (h : SendsFrames (E.withKernel takesAll) S len Empty bound
      (framesRead (sizeT E.params.bufferLen) events))
    (hbuffer : 0 ≤ E.params.bufferLen ∧ E.params.bufferLen ≤ GSE_MAX_PDU_LENGTH)
    {lib : σ} (hempty : Empty lib) (net : ω) (heap : Heap) :
    ∃ t pss, (processEncap E bound events (.init lib net heap) = .next t ∨
        processEncap E bound events (.init lib net heap) = .stop t) ∧
      List.Forall₂ S.Cut (framesRead (sizeT E.params.bufferLen) events) pss ∧
      offered t.calls = pss.flatten.map (padTo len) := by
  obtain ⟨u, pss, hrun, hcuts, hcalls⟩ :=
    processEncap_reads h hbuffer (s := .init lib () heap) hempty rfl
  have hoffered := offered_of_sends (E := E.withKernel takesAll) (fun _ _ => rfl) bound events
    (s := .init lib () heap) rfl
  rw [Flow.state_eq hrun, hcalls] at hoffered
  have hrel := processEncap_same E takesAll bound events lib heap net ()
  obtain ⟨t, hend, hsame⟩ : ∃ t, (processEncap E bound events (.init lib net heap) = .next t ∨
      processEncap E bound events (.init lib net heap) = .stop t) ∧ SameSender t u := by
    rcases hrun with hrun | hrun
    · rw [hrun] at hrel
      obtain ⟨t, ht, hsame⟩ := hrel.eq_next
      exact ⟨t, .inl ht, hsame⟩
    · rw [hrun] at hrel
      obtain ⟨t, ht, hsame⟩ := hrel.eq_stop
      exact ⟨t, .inr ht, hsame⟩
  exact ⟨t, pss, hend, hcuts, hsame.offered_eq.trans hoffered⟩

/-- In constant-length mode this holds of frames whose padding fits. -/
theorem processEncap_emits {crcLength : Nat} {Holds : σ → Heap → Queued → Prop}
    (hlib : SegmentingLaws E.lib E.gse S crcLength Empty Holds) (hvfrag : VfragLaws E.lib)
    (hP : E.params.payloadLen = S.capacity) (hmax : S.capacity < 2 ^ 64)
    (hbuffer : 0 ≤ E.params.bufferLen ∧ E.params.bufferLen ≤ GSE_MAX_PDU_LENGTH) {bound : Nat}
    (events : List EncapEvent)
    (hfits : ∀ frame ∈ framesRead (sizeT E.params.bufferLen) events,
      FrameFits E.gse S crcLength frame ∧ (S.sizes frame.length).length + 2 ≤ bound)
    {lib : σ} (hempty : Empty lib) (net : ω) (heap : Heap) :
    ∃ t pss, (processEncap E bound events (.init lib net heap) = .next t ∨
        processEncap E bound events (.init lib net heap) = .stop t) ∧
      List.Forall₂ S.Cut (framesRead (sizeT E.params.bufferLen) events) pss ∧
      offered t.calls = pss.flatten.map (padTo S.capacity) := by
  have hsends : SendsFrames (E.withKernel takesAll) S S.capacity Empty bound
      (framesRead (sizeT E.params.bufferLen) events) := by
    refine ⟨hvfrag, hlib.create, fun frame hmem hread s hs halive => ?_⟩
    obtain ⟨hframe, hcount⟩ := hfits frame hmem
    exact (encapStep_frame (E := E.withKernel takesAll) hlib hvfrag (fun _ _ => rfl) hP hmax
      hbuffer.2 hread hcount hs halive).1 hframe
  exact hsends.emits hbuffer hempty net heap

end Sender

end DvbGseTunnel
