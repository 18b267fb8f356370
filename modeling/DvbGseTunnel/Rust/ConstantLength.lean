import DvbGseTunnel.Rust.Reference

/-!
# Datagrams of constant length from the Rust `satencap`

With a payload length the sending loop ought to send datagrams of that length. It lends
the encapsulator its whole payload buffer all the same, so packets come as long as
`GSE_MAX_PACKET_LENGTH`, and only shorter ones are padded. A longer packet leaves as it
is, and a payload length beyond the buffer panics at the first packet. The datagrams are
constant exactly if the payload length lies between the longest packet and the buffer.
-/

namespace DvbGseTunnel.Rust

open Lib

variable {σ κ ω : Type}

/-- One packet of one of the frames, followed by zeros up to `len` bytes. -/
def PaddedPacket (S : Segmentation) (frames : List Bytes) (len : Nat) (datagram : Bytes) : Prop :=
  ∃ frame ∈ frames, ∃ ps, S.Cut frame ps ∧ ∃ p ∈ ps,
    datagram = p ++ List.replicate (len - p.length) 0 ∧ datagram.length = len

/-- What a run in constant length mode has done, as far as it came. -/
def ConstantSoFar (S : Segmentation) (frames : List Bytes) (len : Nat) (s : EncapState σ ω) :
    Prop :=
  s.panic ≠ some .index ∧ ∀ datagram ∈ s.sent, PaddedPacket S frames len datagram

/-- No slice is out of range, and every datagram is a packet with its padding, whatever
    the kernel answers and how far the run comes. -/
def ConstantLength (L : Encapsulator σ κ) (S : Segmentation) (len : Nat) (frames : List Bytes)
    (lib : σ) (net : ω) : Prop :=
  ∀ (send : ω → Bytes → Bool × ω) bound,
    ConstantSoFar S frames len
      (runtimeEncap ⟨L, send, len⟩ bound (frames.map some) (.init lib net)).state

/-! ### Short packets -/

/-- Within a frame: packets of one of its cuts are still to be written. -/
structure Cutting (E : EncapConf σ κ ω) (S : Segmentation) (Rest : κ → Bytes → List Bytes → Prop)
    (frames : List Bytes) (frame : Bytes) (d : Sending σ κ ω) : Prop where
  constant : ConstantSoFar S frames E.payloadLen d.env
  writes : ∃ before p ps, S.Cut frame (before ++ p :: ps) ∧ Writes E Rest d p ps

theorem Cutting.body {E : EncapConf σ κ ω} {S : Segmentation} {Accepts : Bytes → Prop}
    {Rest : κ → Bytes → List Bytes → Prop} (hlib : CutLaws E.lib S Accepts Rest)
    (hlen : E.payloadLen ≤ GSE_MAX_PACKET_LENGTH) {frames : List Bytes} {frame : Bytes}
    (hmem : frame ∈ frames) (hshort : ∀ n ∈ S.sizes frame.length, n ≤ E.payloadLen)
    {d : Sending σ κ ω} (h : Cutting E S Rest frames frame d) :
    (ConstantSoFar S frames E.payloadLen (sendBody E d).state.env ∧
      (sendBody E d).state.env.payload.length = GSE_MAX_PACKET_LENGTH) ∧
      ∀ d', sendBody E d = .next d' → Cutting E S Rest frames frame d' := by
  obtain ⟨⟨hpanic, hsent⟩, before, p, ps, hcut, hwrites⟩ := h
  have hp : p.length ≤ E.payloadLen := hshort _ (Segmentation.mem_sizes hcut (by simp))
  have hpadded : PaddedPacket S frames E.payloadLen (padTo E.payloadLen p) :=
    ⟨frame, hmem, _, hcut, p, by simp, rfl, length_padTo hp⟩
  obtain ⟨d', hpayload, _, ⟨_, hb, hsent', hpanic'⟩ | ⟨hsent', hpanic', hend⟩⟩ :=
    sendBody_of_writes hlib hlen hwrites
  · rw [hb]
    refine ⟨⟨⟨?_, ?_⟩, hpayload⟩, nofun⟩
    · rw [Flow.state_fault, hpanic']
      nofun
    · rw [Flow.state_fault, hsent']
      exact hsent
  · have hconstant : ConstantSoFar S frames E.payloadLen d'.env := by
      refine ⟨hpanic' ▸ hpanic, ?_⟩
      rw [hsent']
      intro datagram hdatagram
      rcases List.mem_append.mp hdatagram with hold | hnew
      · exact hsent datagram hold
      · rw [List.mem_singleton.mp hnew]
        exact hpadded
    rcases hend with ⟨_, hb⟩ | ⟨q, qs, rfl, hb, hnext⟩
    · rw [hb]
      exact ⟨⟨hconstant, hpayload⟩, nofun⟩
    · rw [hb]
      refine ⟨⟨hconstant, hpayload⟩, fun u hu => ?_⟩
      obtain rfl : d' = u := by simpa using hu
      exact ⟨hconstant, before ++ [p], q, qs, by rw [← List.append_cons]; exact hcut, hnext⟩

theorem constantLength_of_short {L : Encapsulator σ κ} {S : Segmentation}
    {Accepts : Bytes → Prop} {Rest : κ → Bytes → List Bytes → Prop}
    (hlib : CutLaws L S Accepts Rest) {len : Nat} {frames : List Bytes}
    (haccepts : ∀ frame ∈ frames, Accepts frame ∧ frame.length ≤ GSE_MAX_PDU_LEN)
    (hshort : ∀ frame ∈ frames, len ≤ GSE_MAX_PACKET_LENGTH ∧ ∀ n ∈ S.sizes frame.length, n ≤ len)
    (lib : σ) (net : ω) : ConstantLength L S len frames lib net := by
  intro send bound
  let E : EncapConf σ κ ω := ⟨L, send, len⟩
  let I : EncapState σ ω → Prop := fun s =>
    ConstantSoFar S frames len s ∧ s.payload.length = GSE_MAX_PACKET_LENGTH
  have hinit : I (EncapState.init lib net) :=
    ⟨⟨nofun, by simp [EncapState.init]⟩, List.length_replicate⟩
  have hstep : ∀ recv ∈ frames.map some, ∀ s, I s → I (encapStep E bound recv s).state := by
    intro recv hrecv s ⟨hconstant, hpayload⟩
    obtain ⟨frame, hmem, rfl⟩ := List.mem_map.mp hrecv
    obtain ⟨haccept, hframe⟩ := haccepts frame hmem
    obtain ⟨hlen, hsizes⟩ := hshort frame hmem
    obtain ⟨p, ps, hcut, hwrites⟩ := Writes.start (E := E) hlib haccept hframe hpayload
    have hstart : Cutting E S Rest frames frame (Sending.start frame s) :=
      ⟨hconstant, [], p, ps, hcut, hwrites⟩
    have hI : ∀ d, Cutting E S Rest frames frame d → I d.env := by
      intro d hd
      obtain ⟨_, _, _, _, hw⟩ := hd.writes
      exact ⟨hd.constant, hw.1⟩
    simp only [encapStep, Flow.state_leave]
    exact loop_state (Cutting E S Rest frames frame) (fun d => I d.env) hI
      (fun d d' hd => (hd.body hlib hlen hmem hsizes).2 d')
      (fun d hd => (hd.body hlib hlen hmem hsizes).1) bound hstart
  exact (feed_inv I (frames.map some) hstep hinit).1

/-! ### Long packets -/

theorem runtimeEncap_panics {E : EncapConf σ κ ω} {S : Segmentation} {Accepts : Bytes → Prop}
    {Rest : κ → Bytes → List Bytes → Prop} (hlib : CutLaws E.lib S Accepts Rest)
    (hlen : GSE_MAX_PACKET_LENGTH < E.payloadLen) {frame : Bytes} {frames : List Bytes}
    (haccept : Accepts frame) (hframe : frame.length ≤ GSE_MAX_PDU_LEN) (bound : Nat) (lib : σ)
    (net : ω) : (runtimeEncap E (bound + 1) ((frame :: frames).map some)
      (.init lib net)).state.panic = some .index := by
  obtain ⟨p, ps, _, hpayload, context, hwrote, _⟩ := Writes.start (E := E) hlib haccept hframe
    (s := EncapState.init lib net) List.length_replicate
  obtain ⟨t, hb, hpanic⟩ := sendBody_panics hwrote (by rw [hpayload]; decide)
    (by rw [hpayload]; exact hlen)
  have hstep : encapStep E (bound + 1) (some frame) (.init lib net) = .fault t.env := by
    simp only [encapStep]
    rw [loop_succ, hb]
    rfl
  rw [runtimeEncap, List.map_cons, feed_cons, hstep]
  exact hpanic

theorem short_of_constantLength {L : Encapsulator σ κ} {S : Segmentation}
    {Accepts : Bytes → Prop} {Rest : κ → Bytes → List Bytes → Prop}
    (hlib : CutLaws L S Accepts Rest) {len : Nat} {frames : List Bytes}
    (haccepts : ∀ frame ∈ frames, Accepts frame ∧ frame.length ≤ GSE_MAX_PDU_LEN) {lib : σ}
    {net : ω} (h : ConstantLength L S len frames lib net) :
    ∀ frame ∈ frames, len ≤ GSE_MAX_PACKET_LENGTH ∧ ∀ n ∈ S.sizes frame.length, n ≤ len := by
  intro frame hmem
  let E : EncapConf σ κ ω := ⟨L, fun net _ => (true, net), len⟩
  have hlen : len ≤ GSE_MAX_PACKET_LENGTH := by
    by_contra hlong
    cases frames with
    | nil => cases hmem
    | cons head frames =>
      obtain ⟨haccept, hframe⟩ := haccepts head List.mem_cons_self
      exact (h E.send 1).1
        (runtimeEncap_panics (E := E) hlib (Nat.lt_of_not_le hlong) haccept hframe 0 lib net)
  refine ⟨hlen, fun n hn => ?_⟩
  obtain ⟨bound, hbound⟩ := S.exists_packets_le frames
  obtain ⟨s, pss, hrun, hcuts, hsent⟩ :=
    runtimeEncap_sends (E := E) hlib hlen (fun _ _ => rfl) haccepts hbound lib net
  have hconstant := (h E.send bound).2
  rw [hrun, Flow.state_next, hsent] at hconstant
  obtain ⟨ps, hps, hcut⟩ := Segmentation.cut_of_mem hcuts hmem
  rw [← S.cut_sizes hcut] at hn
  obtain ⟨p, hp, rfl⟩ := List.mem_map.mp hn
  obtain ⟨_, _, _, _, _, _, _, hlength⟩ := hconstant (padTo len p)
    (List.mem_map_of_mem (List.mem_flatten.mpr ⟨ps, hps, hp⟩))
  by_contra hlong
  rw [padTo_of_le (by omega)] at hlength
  omega

/-- **When the Rust `satencap` sends datagrams of constant length.** For every payload
    length and every sequence of frames the encapsulator accepts: every datagram is one
    packet with zeros up to the payload length, and no slice is out of range, exactly if
    the payload length is within the payload buffer and no packet of a frame is longer. -/
theorem constantLength_iff (L : Encapsulator σ κ) (S : Segmentation) (Accepts : Bytes → Prop)
    (Rest : κ → Bytes → List Bytes → Prop) (hlib : CutLaws L S Accepts Rest) (len : Nat)
    (frames : List Bytes)
    (haccepts : ∀ frame ∈ frames, Accepts frame ∧ frame.length ≤ GSE_MAX_PDU_LEN) (lib : σ)
    (net : ω) :
    ConstantLength L S len frames lib net ↔
      ∀ frame ∈ frames, len ≤ GSE_MAX_PACKET_LENGTH ∧ ∀ n ∈ S.sizes frame.length, n ≤ len :=
  ⟨short_of_constantLength hlib haccepts, fun h => constantLength_of_short hlib haccepts h lib net⟩

/-- A frame of one byte in datagrams of 100 bytes. -/
theorem constantLength_one_byte :
    ConstantLength referenceEncap rustSegmentation 100 [[7]] () () :=
  (constantLength_iff referenceEncap rustSegmentation _ StreamRest referenceEncap_cuts 100 [[7]]
    (by simp [GSE_MAX_PDU_LEN]) () ()).mpr (by
      intro frame hframe
      rw [List.mem_singleton.mp hframe]
      refine ⟨by decide, fun n hn => ?_⟩
      obtain rfl : n = 11 := List.mem_singleton.mp hn
      decide)

/-- `-p 5000` is accepted, and the first packet of any frame panics. -/
theorem long_payload_panics :
    (parseArguments (⟨fun _ => some [()], fun _ => some ()⟩ : Host Unit Unit) 0
        [['s'], ['-', 'i'], ['t'], ['-', 'l'], ['a'], ['-', 'r'], ['b'], ['-', 'p'],
          ['5', '0', '0', '0']]).toOption.map Arguments.payloadLen = some 5000 ∧
      ¬ConstantLength referenceEncap rustSegmentation 5000 [[7]] () () := by
  refine ⟨by decide, fun h => ?_⟩
  have haccepts : ∀ frame ∈ [[(7 : UInt8)]], True ∧ frame.length ≤ GSE_MAX_PDU_LEN := by
    simp [GSE_MAX_PDU_LEN]
  have hshort := short_of_constantLength referenceEncap_cuts haccepts h [7] List.mem_cons_self
  exact absurd hshort.1 (by decide)

end DvbGseTunnel.Rust
