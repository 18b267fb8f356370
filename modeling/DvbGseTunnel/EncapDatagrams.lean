import DvbGseTunnel.Lib.Segmentation
import DvbGseTunnel.ProcessEncap

/-!
# The datagrams of the sender in constant-length mode

With a payload length, `process_encap` pads every packet in the buffer of its PDU before
it sends it. What it relies on is stated of libgse (`SegmentingLaws`): the packets of a PDU are
windows on its buffer, all full but the last one. So only the padding of the last packet
can leave the buffer. Where that never happens every packet is sent, padded
(`processEncap_sends`).
-/

namespace DvbGseTunnel

open Lib

variable {σ ω : Type}

/-! ### The FIFO -/

/-- The PDU in the FIFO: its buffer, the offset there at which its last packet will end,
    and the packets still to be got. -/
structure Queued where
  buf : Nat
  stop : Nat
  packets : List Bytes

/-- The bytes of CRC that a PDU of this length gets: none if one packet holds it. -/
def Lib.Segmentation.trailer (S : Segmentation) (crcLength n : Nat) : Nat :=
  if (S.sizes n).length = 1 then 0 else crcLength

theorem Lib.Segmentation.trailer_le (S : Segmentation) (crcLength n : Nat) :
    S.trailer crcLength n ≤ crcLength := by
  rw [Segmentation.trailer]
  split
  · exact Nat.zero_le _
  · exact Nat.le_refl _

/-- What libgse documents about its FIFO, for calls in the order of `process_encap`.
    Packets are windows on the buffer of the PDU: the last one ends where the PDU, or its
    CRC, ends, the others before. -/
structure SegmentingLaws (L : Encapsulator σ) (G : GseConstants) (S : Segmentation)
    (crcLength : Nat) (Empty : σ → Prop) (Holds : σ → Heap → Queued → Prop) : Prop where
  crc_le : crcLength ≤ G.GSE_MAX_TRAILER_LENGTH
  create : ∀ {d} heap maxLength headOffset trailOffset, Empty d →
    Empty (L.gseCreateVfrag d heap maxLength headOffset trailOffset).lib
  receive : ∀ {d} heap (pdu : Vfrag) label, Empty d → G.GSE_MAX_HEADER_LENGTH ≤ pdu.start →
    0 < pdu.length → pdu.length ≤ GSE_MAX_PDU_LENGTH →
    let r := L.gseEncapReceivePdu d pdu label
    r.1 = .ok ∧ ∃ ps, S.Cut (pdu.data heap) ps ∧
      Holds r.2 heap ⟨pdu.buf, pdu.start + pdu.length + S.trailer crcLength pdu.length, ps⟩
  get_none : ∀ {d} heap, Empty d →
    let r := L.gseEncapGetPacket d heap S.capacity
    r.status = .fifoEmpty ∧ Empty r.lib
  get_some : ∀ {d heap q p rest}, Holds d heap q → q.packets = p :: rest →
    let r := L.gseEncapGetPacket d heap S.capacity
    r.status = .ok ∧ r.vfrag.buf = q.buf ∧ r.vfrag.data r.heap = p ∧
      r.vfrag.start + r.vfrag.length ≤ q.stop ∧ (r.heap q.buf).size = (heap q.buf).size
  get_last : ∀ {d heap q p}, Holds d heap q → q.packets = [p] →
    let r := L.gseEncapGetPacket d heap S.capacity
    r.vfrag.start + r.vfrag.length = q.stop ∧ Empty r.lib
  get_more : ∀ {d heap q p rest}, Holds d heap q → q.packets = p :: rest → rest ≠ [] →
    let r := L.gseEncapGetPacket d heap S.capacity
    Holds r.lib r.heap { q with packets := rest }

def datagrams (calls : List EncapCall) : List Bytes :=
  calls.filterMap fun
    | .writeUdp datagram ret => if ret = 0 then some datagram else none
    | _ => none

/-- The kernel sends every datagram whole. -/
def EncapConf.Sends (E : EncapConf σ ω) : Prop :=
  ∀ net bytes, (E.sendto net bytes).1 = (bytes.length : Int)

theorem datagrams_getPacket (calls : List EncapCall) (len : Int) (status : Status) :
    datagrams (calls ++ [.getPacket len status]) = datagrams calls := by
  simp [datagrams]

theorem datagrams_receivePdu (calls : List EncapCall) (counter : UInt64) (label : Label)
    (status : Status) :
    datagrams (calls ++ [.receivePdu counter label status]) = datagrams calls := by
  simp [datagrams]

theorem datagrams_writeUdp (calls : List EncapCall) (datagram : Bytes) :
    datagrams (calls ++ [.writeUdp datagram 0]) = datagrams calls ++ [datagram] := by
  simp [datagrams]

/-- When the padding of a packet ends in the buffer, it follows the packet there. -/
theorem padPacket_of_fits {E : EncapConf σ ω} (hvfrag : VfragLaws E.lib) {P : Nat}
    (hP : E.params.payloadLen = P) (hpos : 0 < P) (hmax : P < 2 ^ 64) {heap : Heap} {pkt : Vfrag}
    (hlen : pkt.length ≤ P) (hfits : pkt.start + P ≤ (heap pkt.buf).size) :
    ∃ heap' pkt', padPacket E heap pkt = some (heap', pkt') ∧
      pkt'.data heap' = padTo P (pkt.data heap) ∧ (pkt.length = P → heap' = heap) := by
  obtain ⟨n, rfl⟩ := Nat.exists_eq_add_of_le hlen
  have hfill : (heap pkt.buf).fill (pkt.start + pkt.length) n 0 = some _ :=
    Buffer.fill_eq_some (by omega)
  let heap' := Function.update heap pkt.buf
    ((heap pkt.buf).overlay (pkt.start + pkt.length) n fun _ => 0)
  have hset := hvfrag.setLength heap' pkt (pkt.length + n)
    (by simp only [heap', Function.update_self]; exact hfits)
  refine ⟨heap', { pkt with length := pkt.length + n }, ?_, ?_, fun hfull => ?_⟩
  · rw [padPacket_eq hP hpos hmax heap hlen, Nat.add_sub_cancel_left, hfill, Option.map_some]
    exact congrArg (fun pkt' => some (heap', pkt')) hset
  · simp only [Vfrag.data, heap', Function.update_self]
    rw [Buffer.read_fill_after, padTo, Buffer.read_length, Nat.add_sub_cancel_left]
  · obtain rfl : n = 0 := by omega
    simp only [heap', Buffer.overlay_zero, Function.update_eq_self]

/-- Padding past the end of the buffer is undefined behaviour. -/
theorem padPacket_of_overflow {E : EncapConf σ ω} {P : Nat} (hP : E.params.payloadLen = P)
    (hpos : 0 < P) (hmax : P < 2 ^ 64) {heap : Heap} {pkt : Vfrag} (hlen : pkt.length ≤ P)
    (hover : (heap pkt.buf).size < pkt.start + P) : padPacket E heap pkt = none := by
  rw [padPacket_eq hP hpos hmax heap hlen, Buffer.fill_eq_none (by omega), Option.map_none]

/-! ### The drain loop -/

/-- The drain loop before a pass that gets a packet of `q`, the rest of a PDU. -/
structure Sending (E : EncapConf σ ω) (S : Segmentation) (Holds : σ → Heap → Queued → Prop)
    (d : Drain σ ω) (q : Queued) : Prop where
  holds : Holds d.env.lib d.env.heap q
  cut : ∃ m before, S.Cut m (before ++ q.packets)
  desired : d.desiredLen = E.params.payloadLen
  running : d.running
  room : q.stop ≤ (d.env.heap q.buf).size

section Drain

variable {E : EncapConf σ ω} {S : Segmentation} {crcLength : Nat} {Empty : σ → Prop}
  {Holds : σ → Heap → Queued → Prop} {d : Drain σ ω} {q : Queued} {p : Bytes}
  {rest : List Bytes}

theorem Drain.got_eq (hP : E.params.payloadLen = S.capacity)
    (hdesired : d.desiredLen = E.params.payloadLen) :
    d.demand E = S.capacity ∧
      d.got E = E.lib.gseEncapGetPacket d.env.lib d.env.heap S.capacity := by
  have hpos := S.capacity_pos
  have hdemand : d.demand E = S.capacity := by
    rw [Drain.demand, if_neg (by omega), hdesired, hP]
  exact ⟨hdemand, by rw [Drain.got, hdemand]⟩

/-- A pass whose padding ends in the buffer sends the padded packet. -/
theorem drainBody_sends (hvfrag : VfragLaws E.lib) (hsends : E.Sends)
    (hP : E.params.payloadLen = S.capacity) (hmax : S.capacity < 2 ^ 64) (hrun : d.running)
    (hok : (d.got E).status = .ok) (hlen : (d.got E).vfrag.length ≤ S.capacity)
    (hfits : (d.got E).vfrag.start + S.capacity ≤
      ((d.got E).heap (d.got E).vfrag.buf).size) :
    ∃ d', drainBody E d = .next d' ∧ d'.env.lib = (d.got E).lib ∧
      ((d.got E).vfrag.length = S.capacity → d'.env.heap = (d.got E).heap) ∧
      d'.desiredLen = d.demand E ∧ d'.running ∧ d'.env.alive = d.env.alive ∧
      datagrams d'.env.calls =
        datagrams d.env.calls ++ [padTo S.capacity ((d.got E).vfrag.data (d.got E).heap)] := by
  obtain ⟨heap, pkt, hpad, hdata, hfull⟩ :=
    padPacket_of_fits hvfrag hP S.capacity_pos hmax hlen hfits
  have hbody : drainBody E d = .next ((d.afterGet E).send E heap pkt) := by
    simp [drainBody, hrun, hok, hpad]
  refine ⟨_, hbody, rfl, hfull, rfl, ⟨Ret.int_ne_status _ _, hrun.2⟩, rfl, ?_⟩
  change datagrams ((d.afterGet E).env.calls ++ [.writeUdp _ (writeUdp E.sendto _ _).1]) = _
  rw [writeUdp_of_sent (hsends _ _), datagrams_writeUdp, hdata, Drain.afterGet_calls,
    datagrams_getPacket]

/-- A packet of `q` that is not the last one is full: nothing is padded, and the pass
    leaves the rest of `q`. -/
theorem Sending.next (hlib : SegmentingLaws E.lib E.gse S crcLength Empty Holds)
    (hvfrag : VfragLaws E.lib) (hsends : E.Sends) (hP : E.params.payloadLen = S.capacity)
    (hmax : S.capacity < 2 ^ 64) (h : Sending E S Holds d q) (hpackets : q.packets = p :: rest)
    (hne : rest ≠ []) :
    ∃ d', drainBody E d = .next d' ∧ Sending E S Holds d' { q with packets := rest } ∧
      (d'.env.heap q.buf).size = (d.env.heap q.buf).size ∧ d'.env.alive = d.env.alive ∧
      datagrams d'.env.calls = datagrams d.env.calls ++ [padTo S.capacity p] := by
  obtain ⟨hdemand, hgot⟩ := Drain.got_eq hP h.desired
  obtain ⟨hok, hbuf, hdata, hstop, hsize⟩ := hgot ▸ hlib.get_some h.holds hpackets
  have hholds := hgot ▸ hlib.get_more h.holds hpackets hne
  obtain ⟨m, before, hcut⟩ := h.cut
  rw [hpackets] at hcut
  have hfull := Segmentation.cut_full hcut hne
  have hlen : (d.got E).vfrag.length = S.capacity := by
    rw [← hfull, ← hdata, Vfrag.data, Buffer.read_length]
  have hroom := h.room
  obtain ⟨d', hbody, hlibd, hheap, hdesired, hrun, halive, hcalls⟩ :=
    drainBody_sends hvfrag hsends hP hmax h.running hok (Nat.le_of_eq hlen)
      (by rw [hbuf, hsize]; omega)
  have hsame := hheap hlen
  refine ⟨d', hbody, ?_, by rw [hsame, hsize], halive, by rw [hcalls, hdata]⟩
  exact {
    holds := by rw [hlibd, hsame]; exact hholds
    cut := ⟨m, before ++ [p], by rw [List.append_assoc]; exact hcut⟩
    desired := by rw [hdesired, hdemand, hP]
    running := hrun
    room := by rw [hsame]; exact hsize ▸ hroom }

/-- The last packet of `q` is sent and the FIFO is empty, if its padding ends in the
    buffer. -/
theorem Sending.last (hlib : SegmentingLaws E.lib E.gse S crcLength Empty Holds)
    (hvfrag : VfragLaws E.lib) (hsends : E.Sends) (hP : E.params.payloadLen = S.capacity)
    (hmax : S.capacity < 2 ^ 64) (h : Sending E S Holds d q) (hpackets : q.packets = [p])
    (hle : p.length ≤ S.capacity) :
    (q.stop + (S.capacity - p.length) ≤ (d.env.heap q.buf).size →
      ∃ d', drainBody E d = .next d' ∧ Empty d'.env.lib ∧ d'.running ∧
        d'.desiredLen = E.params.payloadLen ∧ d'.env.alive = d.env.alive ∧
        datagrams d'.env.calls = datagrams d.env.calls ++ [padTo S.capacity p]) ∧
    ((d.env.heap q.buf).size < q.stop + (S.capacity - p.length) →
      drainBody E d = .fault (d.afterGet E)) := by
  obtain ⟨hdemand, hgot⟩ := Drain.got_eq hP h.desired
  obtain ⟨hok, hbuf, hdata, _, hsize⟩ := hgot ▸ hlib.get_some h.holds hpackets
  obtain ⟨hstop, hempty⟩ := hgot ▸ hlib.get_last h.holds hpackets
  have hlen : (d.got E).vfrag.length = p.length := by
    rw [← hdata, Vfrag.data, Buffer.read_length]
  constructor
  · intro hfits
    obtain ⟨d', hbody, hlibd, _, hdesired, hrun, halive, hcalls⟩ :=
      drainBody_sends hvfrag hsends hP hmax h.running hok (by omega) (by rw [hbuf, hsize]; omega)
    refine ⟨d', hbody, hlibd ▸ hempty, hrun, ?_, halive, by rw [hcalls, hdata]⟩
    rw [hdesired, hdemand, hP]
  · intro hover
    have hpad : padPacket E (d.got E).heap (d.got E).vfrag = none :=
      padPacket_of_overflow hP S.capacity_pos hmax (by omega) (by rw [hbuf, hsize]; omega)
    simp [drainBody, h.running, hok, hpad]

theorem drain_empty (hlib : SegmentingLaws E.lib E.gse S crcLength Empty Holds)
    (hP : E.params.payloadLen = S.capacity) (hempty : Empty d.env.lib) (hrun : d.running)
    (hdesired : d.desiredLen = E.params.payloadLen) {bound : Nat} (hbound : 2 ≤ bound) :
    ∃ d', loop (drainBody E) bound d = .stop d' ∧ Empty d'.env.lib ∧
      d'.env.alive = d.env.alive ∧ datagrams d'.env.calls = datagrams d.env.calls := by
  obtain ⟨_, hgot⟩ := Drain.got_eq hP hdesired
  obtain ⟨hstatus, hempty'⟩ := hgot ▸ hlib.get_none d.env.heap hempty
  obtain ⟨n, rfl⟩ := Nat.exists_eq_add_of_le' hbound
  have hbody : drainBody E d = .next (d.afterGet E) := by simp [drainBody, hrun, hstatus]
  have hend : ¬(d.afterGet E).running := fun h => h.1 (congrArg Ret.status hstatus)
  refine ⟨d.afterGet E, ?_, hempty', rfl, ?_⟩
  · rw [loop_succ, hbody, Flow.next_andThen, loop_succ, drainBody, if_neg hend]
    rfl
  · rw [Drain.afterGet_calls, datagrams_getPacket]

/-- The drain loop for the packets of a PDU. The induction is on the packets; only the
    last one needs padding. -/
theorem Sending.drain (hlib : SegmentingLaws E.lib E.gse S crcLength Empty Holds)
    (hvfrag : VfragLaws E.lib) (hsends : E.Sends) (hP : E.params.payloadLen = S.capacity)
    (hmax : S.capacity < 2 ^ 64) {ps : List Bytes} (hne : ps ≠ [])
    (hle : (ps.getLast hne).length ≤ S.capacity) (h : Sending E S Holds d q)
    (hpackets : q.packets = ps) {bound : Nat} (hbound : ps.length + 2 ≤ bound) :
    (q.stop + (S.capacity - (ps.getLast hne).length) ≤ (d.env.heap q.buf).size →
      ∃ d', loop (drainBody E) bound d = .stop d' ∧ Empty d'.env.lib ∧
        d'.env.alive = d.env.alive ∧
        datagrams d'.env.calls = datagrams d.env.calls ++ ps.map (padTo S.capacity)) ∧
    ((d.env.heap q.buf).size < q.stop + (S.capacity - (ps.getLast hne).length) →
      ∃ d', loop (drainBody E) bound d = .fault d') := by
  induction ps generalizing d q bound with
  | nil => exact absurd rfl hne
  | cons p rest ih =>
    obtain ⟨n, rfl⟩ := Nat.exists_eq_add_of_le' (Nat.le_trans (Nat.le_add_left 1 _) hbound)
    rw [List.length_cons] at hbound
    rw [loop_succ]
    by_cases hrest : rest = []
    · subst hrest
      rw [List.getLast_singleton] at hle ⊢
      obtain ⟨hgood, hbad⟩ := h.last hlib hvfrag hsends hP hmax hpackets hle
      refine ⟨fun hfits => ?_, fun hover => ⟨_, by rw [hbad hover]; rfl⟩⟩
      obtain ⟨d', hbody, hempty, hrun, hdesired, halive, hcalls⟩ := hgood hfits
      obtain ⟨u, hstop, hemptyu, haliveu, hcallsu⟩ :=
        drain_empty hlib hP hempty hrun hdesired (show 2 ≤ n by omega)
      refine ⟨u, ?_, hemptyu, haliveu.trans halive, hcallsu.trans hcalls⟩
      rw [hbody, Flow.next_andThen, hstop]
    · obtain ⟨d', hbody, hnext, hsize, halive, hcalls⟩ :=
        h.next hlib hvfrag hsends hP hmax hpackets hrest
      rw [List.getLast_cons hrest] at hle ⊢
      obtain ⟨hgood, hbad⟩ := ih hrest hle hnext rfl (show rest.length + 2 ≤ n by omega)
      rw [hsize] at hgood hbad
      rw [hbody, Flow.next_andThen]
      refine ⟨fun hfits => ?_, hbad⟩
      obtain ⟨u, hstop, hempty, haliveu, hcallsu⟩ := hgood hfits
      refine ⟨u, hstop, hempty, haliveu.trans halive, ?_⟩
      rw [hcallsu, hcalls, List.map_cons, List.append_assoc]
      rfl

end Drain

/-! ### The frames -/

/-- The padding of the last packet of the frame ends in the buffer of its PDU. -/
def FrameFits (G : GseConstants) (S : Segmentation) (crcLength : Nat) (frame : Bytes) : Prop :=
  frame.length + S.trailer crcLength frame.length + (S.capacity - S.lastSize frame.length) ≤
    GSE_MAX_PDU_LENGTH + G.GSE_MAX_TRAILER_LENGTH

/-- All but the longest frames fit. -/
theorem frameFits_of_short {G : GseConstants} {S : Segmentation} {crcLength : Nat}
    {frame : Bytes} (h : frame.length + crcLength + S.capacity ≤
      GSE_MAX_PDU_LENGTH + G.GSE_MAX_TRAILER_LENGTH) : FrameFits G S crcLength frame := by
  have htrailer : S.trailer crcLength frame.length ≤ crcLength := S.trailer_le crcLength _
  rw [FrameFits]
  omega

def frameEvent (frame : Bytes) : EncapEvent := .readable (some frame)

def EncapConf.Reads (E : EncapConf σ ω) (frame : Bytes) : Prop :=
  frame ≠ [] ∧ frame.length ≤ E.params.bufferLen

section Sender

variable {E : EncapConf σ ω} {S : Segmentation} {crcLength : Nat} {Empty : σ → Prop}
  {Holds : σ → Heap → Queued → Prop}

/-- The drain loop for a frame starts with its packets in the FIFO. -/
theorem drainStart_sending (hlib : SegmentingLaws E.lib E.gse S crcLength Empty Holds)
    (hvfrag : VfragLaws E.lib) (hbuffer : E.params.bufferLen ≤ GSE_MAX_PDU_LENGTH)
    {frame : Bytes} (hread : E.Reads frame) {s : EncapState σ ω} (hempty : Empty s.lib) :
    Admitted E frame s ∧ ∃ ps, S.Cut frame ps ∧
      Sending E S Holds (s.drainStart E frame) ⟨(s.pdu E frame).buf,
        E.gse.GSE_MAX_HEADER_LENGTH + frame.length + S.trailer crcLength frame.length, ps⟩ := by
  obtain ⟨hne, hlen⟩ := hread
  have hcreated : Empty (s.created E).lib := hlib.create _ _ _ _ hempty
  obtain ⟨hok, ps, hcut, hholds⟩ := hlib.receive (s.stored E frame) (s.pdu E frame)
    (pduLabel (s.counter + 1)) hcreated (Nat.le_refl _) (List.length_pos_iff.mpr hne)
    (by simp only [EncapState.pdu]; omega)
  rw [data_stored] at hcut
  refine ⟨hok, ps, hcut, ?_⟩
  exact {
    holds := hholds
    cut := ⟨frame, [], hcut⟩
    desired := rfl
    running := ⟨Ret.ok_ne_fifoEmpty, Nat.zero_lt_succ 4⟩
    room := by
      have hcrc := hlib.crc_le
      have htrailer : S.trailer crcLength frame.length ≤ crcLength := S.trailer_le crcLength _
      change _ ≤ ((s.stored E frame) (s.pdu E frame).buf).size
      rw [stored_size hvfrag]
      dsimp only
      omega }

theorem encapStep_frame (hlib : SegmentingLaws E.lib E.gse S crcLength Empty Holds)
    (hvfrag : VfragLaws E.lib) (hsends : E.Sends) (hP : E.params.payloadLen = S.capacity)
    (hmax : S.capacity < 2 ^ 64) (hbuffer : E.params.bufferLen ≤ GSE_MAX_PDU_LENGTH)
    {frame : Bytes} (hread : E.Reads frame) {bound : Nat}
    (hbound : (S.sizes frame.length).length + 2 ≤ bound) {s : EncapState σ ω}
    (hempty : Empty s.lib) (halive : s.alive = 0) :
    (FrameFits E.gse S crcLength frame → ∃ t ps,
      encapStep E bound (frameEvent frame) s = .next t ∧ Empty t.lib ∧ t.alive = 0 ∧
        S.Cut frame ps ∧ datagrams t.calls = datagrams s.calls ++ ps.map (padTo S.capacity)) ∧
    (¬FrameFits E.gse S crcLength frame →
      ∃ t, encapStep E bound (frameEvent frame) s = .fault t) := by
  obtain ⟨hadmitted, ps, hcut, hsending⟩ := drainStart_sending hlib hvfrag hbuffer hread hempty
  have hstep : encapStep E bound (frameEvent frame) s =
      (loop (drainBody E) bound (s.drainStart E frame)).leave Drain.env :=
    encapStep_of_admitted hvfrag bound halive hread.1 hread.2 hbuffer hadmitted
  have hlast := Segmentation.cut_last hcut
  have hle : (ps.getLast (Segmentation.cut_ne_nil hcut)).length ≤ S.capacity :=
    S.sizes_le (Segmentation.mem_sizes hcut (List.getLast_mem _))
  obtain ⟨hgood, hbad⟩ := hsending.drain hlib hvfrag hsends hP hmax
    (Segmentation.cut_ne_nil hcut) hle rfl
    (show ps.length + 2 ≤ bound by rw [Segmentation.cut_length hcut]; exact hbound)
  have hsize : ((s.drainStart E frame).env.heap (s.pdu E frame).buf).size =
      E.gse.GSE_MAX_HEADER_LENGTH + GSE_MAX_PDU_LENGTH + E.gse.GSE_MAX_TRAILER_LENGTH :=
    stored_size hvfrag frame s
  rw [hsize, hlast] at hgood hbad
  dsimp only at hgood hbad
  rw [hstep]
  constructor
  · intro hfits
    rw [FrameFits] at hfits
    obtain ⟨d, hstop, hemptyd, halived, hcalls⟩ := hgood (by omega)
    refine ⟨d.env, ps, by rw [hstop]; rfl, hemptyd, halived.trans halive, hcut, ?_⟩
    rw [hcalls]
    congr 1
    exact datagrams_receivePdu _ _ _ _
  · intro hover
    rw [FrameFits] at hover
    obtain ⟨d, hfault⟩ := hbad (by omega)
    exact ⟨d.env, by rw [hfault]; rfl⟩

/-- The run over the frames: it comes back to its test after the last one exactly if they
    all fit, and then every packet has been sent, padded. -/
theorem processEncap_sends (hlib : SegmentingLaws E.lib E.gse S crcLength Empty Holds)
    (hvfrag : VfragLaws E.lib) (hsends : E.Sends) (hP : E.params.payloadLen = S.capacity)
    (hmax : S.capacity < 2 ^ 64) (hbuffer : E.params.bufferLen ≤ GSE_MAX_PDU_LENGTH)
    {frames : List Bytes} (hread : ∀ frame ∈ frames, E.Reads frame) {bound : Nat}
    (hbound : ∀ frame ∈ frames, (S.sizes frame.length).length + 2 ≤ bound) {lib : σ}
    (hempty : Empty lib) (net : ω) (heap : Heap) :
    ((∀ frame ∈ frames, FrameFits E.gse S crcLength frame) → ∃ s pss,
      processEncap E bound (frames.map frameEvent) (.init lib net heap) = .next s ∧
        List.Forall₂ S.Cut frames pss ∧
        datagrams s.calls = pss.flatten.map (padTo S.capacity)) ∧
    ∀ s, processEncap E bound (frames.map frameEvent) (.init lib net heap) = .next s →
      ∀ frame ∈ frames, FrameFits E.gse S crcLength frame := by
  have hstep {frame : Bytes} (hmem : frame ∈ frames) {s : EncapState σ ω} (hs : Empty s.lib)
      (halive : s.alive = 0) := encapStep_frame hlib hvfrag hsends hP hmax hbuffer
    (hread frame hmem) (hbound frame hmem) hs halive
  constructor
  · intro hfits
    let J (before : List Bytes) (s : EncapState σ ω) : Prop := Empty s.lib ∧ s.alive = 0 ∧
      ∃ pss, List.Forall₂ S.Cut before pss ∧
        datagrams s.calls = pss.flatten.map (padTo S.capacity)
    have hpass : ∀ before, ∀ frame ∈ frames, ∀ s, J before s →
        ∃ t, encapStep E bound (frameEvent frame) s = .next t ∧ J (before ++ [frame]) t := by
      rintro before frame hmem s ⟨hs, halive, pss, hcuts, hcalls⟩
      obtain ⟨t, ps, hnext, ht, halivet, hcut, hcallst⟩ :=
        (hstep hmem hs halive).1 (hfits frame hmem)
      refine ⟨t, hnext, ht, halivet, pss ++ [ps], ?_, ?_⟩
      · exact List.rel_append hcuts (.cons hcut .nil)
      · rw [hcallst, hcalls, List.flatten_append, List.map_append]
        simp
    have hinit : J [] (.init lib net heap) := ⟨hempty, rfl, [], .nil, rfl⟩
    obtain ⟨s, hrun, _, _, pss, hcuts, hcalls⟩ := feed_map frameEvent J frames hpass hinit
    exact ⟨s, pss, hrun, hcuts, hcalls⟩
  · intro s hrun
    refine feed_map_forall frameEvent (fun s : EncapState σ ω => Empty s.lib ∧ s.alive = 0) _
      frames ?_ ⟨hempty, rfl⟩ hrun
    rintro frame hmem s t ⟨hs, halive⟩ hnext
    by_cases hfits : FrameFits E.gse S crcLength frame
    · obtain ⟨u, _, hu, hemptyu, haliveu, _⟩ := (hstep hmem hs halive).1 hfits
      rw [hu] at hnext
      cases hnext
      exact ⟨⟨hemptyu, haliveu⟩, hfits⟩
    · obtain ⟨u, hu⟩ := (hstep hmem hs halive).2 hfits
      rw [hu] at hnext
      cases hnext

end Sender

end DvbGseTunnel
