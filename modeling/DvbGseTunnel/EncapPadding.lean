import DvbGseTunnel.ProcessEncap
import Mathlib.Logic.Relation

/-!
# What the padding of a packet overwrites

`gse_encap_get_packet` copies nothing: a packet is a window on the buffer of its PDU, its
data the next bytes of the PDU, and the rest of the PDU follows it in the same buffer.
The `memset` after the packet therefore starts where the bytes still to be sent start.
For the last packet, or one of exactly `payload_len` bytes, there are none to hit. A
shorter packet before the last one has its successor zeroed, and near the end of a long
PDU the padding leaves the buffer.

The way libgse cuts a PDU is a list of pieces, each with a length of header and of data.
For any list the padding is harmless exactly if no piece meets one of the two cases
(`padding_harmless_iff`).
-/

namespace DvbGseTunnel

open Lib

variable {σ ω : Type}

/-! ### The layout of a PDU -/

/-- A packet: the lengths of its header and of its data. -/
structure Piece where
  header : Nat
  data : Nat
deriving DecidableEq, Repr

def Piece.size (p : Piece) : Nat := p.header + p.data

def dataLength (pieces : List Piece) : Nat := (pieces.map Piece.data).sum

@[simp] theorem dataLength_nil : dataLength [] = 0 := rfl

@[simp] theorem dataLength_cons (p : Piece) (pieces : List Piece) :
    dataLength (p :: pieces) = p.data + dataLength pieces := by simp [dataLength]

/-- The PDU in the FIFO: its buffer, the offset of the next byte to be sent, how many of
    the bytes from there on are in the buffer already (all but the CRC at first, then
    all), and the pieces still to be sent. -/
structure Pending where
  buf : Nat
  next : Nat
  held : Nat
  pieces : List Piece
deriving DecidableEq, Repr

/-- The bytes still to be sent; `check` gives the CRC of the bytes of a PDU. -/
def Pending.stream (p : Pending) (check : Bytes → Bytes) (heap : Heap) : Bytes :=
  (heap p.buf).read p.next p.held ++
    if dataLength p.pieces = p.held then [] else check ((heap p.buf).read p.next p.held)

/-- What libgse documents about the packets of the PDU in its FIFO: they are windows on
    its buffer, in which their data lie one after another. -/
structure ZeroCopyLaws (L : Encapsulator σ) (check : Bytes → Bytes)
    (pending : σ → Option Pending) : Prop where
  get_none : ∀ d heap len, pending d = none →
    (L.gseEncapGetPacket d heap len).status = .fifoEmpty
  get_some : ∀ d heap (len : Int) p piece rest, pending d = some p → p.pieces = piece :: rest →
    piece.size ≤ len → (p.stream check heap).length = dataLength p.pieces →
    let r := L.gseEncapGetPacket d heap len
    r.status = .ok ∧ r.vfrag = ⟨p.buf, p.next - piece.header, piece.size⟩ ∧
      (r.heap p.buf).size = (heap p.buf).size ∧
      (r.heap p.buf).read p.next (dataLength p.pieces) = p.stream check heap ∧
      pending r.lib = if rest = [] then none
        else some ⟨p.buf, p.next + piece.data, dataLength rest, rest⟩

/-! ### One pass -/

/-- The padding of the packet got in this pass writes inside the buffer, and leaves the
    bytes of the PDU that are still to be sent as they are. -/
def PaddingHarmless (E : EncapConf σ ω) (pending : σ → Option Pending) (d : Drain σ ω) : Prop :=
  ∃ heap pkt, padPacket E (d.got E).heap (d.got E).vfrag = some (heap, pkt) ∧
    ∀ p, pending (d.got E).lib = some p → ∀ i, p.next ≤ i → i < p.next + dataLength p.pieces →
      (heap p.buf).byte i = ((d.got E).heap p.buf).byte i

/-- The drain loop before the pass for the first of these pieces; `stream` is what they
    carry. -/
structure AtPiece (E : EncapConf σ ω) (check : Bytes → Bytes) (pending : σ → Option Pending)
    (d : Drain σ ω) (p : Pending) (stream : Bytes) : Prop where
  pending : pending d.env.lib = some p
  bytes : p.stream check d.env.heap = stream
  length : stream.length = dataLength p.pieces
  desired : d.desiredLen = E.params.payloadLen
  running : d.running

/-- `len` bytes of padding after a piece that ends at `stop`, with `stream` still to be
    sent, in a buffer of `size` bytes. -/
def PieceFits (size stop len : Nat) (stream : Bytes) : Prop :=
  stop + len ≤ size ∧ ∀ b ∈ stream.take len, b = 0

section Pass

variable {E : EncapConf σ ω} {check : Bytes → Bytes} {pending : σ → Option Pending}
  {P : Nat} {d : Drain σ ω} {p : Pending} {piece : Piece} {rest : List Piece} {stream : Bytes}

theorem AtPiece.demand (h : AtPiece E check pending d p stream) (hP : E.params.payloadLen = P)
    (hpos : 0 < P) : d.demand E = P := by
  have hmode : E.params.payloadLen ≠ 0 := by omega
  rw [Drain.demand, if_neg hmode, h.desired, hP]

theorem AtPiece.got (hlib : ZeroCopyLaws E.lib check pending)
    (h : AtPiece E check pending d p stream) (hP : E.params.payloadLen = P) (hpos : 0 < P)
    (hpieces : p.pieces = piece :: rest) (hsize : piece.size ≤ P) :
    (d.got E).status = .ok ∧ (d.got E).vfrag = ⟨p.buf, p.next - piece.header, piece.size⟩ ∧
      ((d.got E).heap p.buf).size = (d.env.heap p.buf).size ∧
      ((d.got E).heap p.buf).read p.next (dataLength p.pieces) = stream ∧
      pending (d.got E).lib = if rest = [] then none
        else some ⟨p.buf, p.next + piece.data, dataLength rest, rest⟩ := by
  have hdemand := h.demand hP hpos
  have hlaw := hlib.get_some d.env.lib d.env.heap (d.demand E) p piece rest h.pending hpieces
    (by rw [hdemand]; exact_mod_cast hsize) (by rw [h.bytes]; exact h.length)
  rw [h.bytes] at hlaw
  exact hlaw

theorem AtPiece.harmless_iff (hlib : ZeroCopyLaws E.lib check pending)
    (h : AtPiece E check pending d p stream) (hP : E.params.payloadLen = P) (hpos : 0 < P)
    (hmax : P < 2 ^ 64) (hpieces : p.pieces = piece :: rest) (hsize : piece.size ≤ P)
    (hheader : piece.header ≤ p.next) :
    PaddingHarmless E pending d ↔ PieceFits (d.env.heap p.buf).size (p.next + piece.data)
      (P - piece.size) (stream.drop piece.data) := by
  obtain ⟨_, hvfrag, hkeep, hread, hnext⟩ := h.got hlib hP hpos hpieces hsize
  have hstop : p.next - piece.header + piece.size = p.next + piece.data := by
    rw [Piece.size]
    omega
  have hrest : stream.drop piece.data =
      ((d.got E).heap p.buf).read (p.next + piece.data) (dataLength rest) := by
    rw [← hread, hpieces, dataLength_cons, Buffer.drop_read]
  have hpad : padPacket E (d.got E).heap (d.got E).vfrag =
      (((d.got E).heap p.buf).fill (p.next + piece.data) (P - piece.size) 0).map fun buffer =>
        let heap := Function.update (d.got E).heap p.buf buffer
        (heap, (E.lib.gseSetVfragLength heap (d.got E).vfrag P).2) := by
    rw [padPacket_eq hP hpos hmax _ (by rw [hvfrag]; exact hsize), hvfrag]
    simp only [hstop]
  rw [PieceFits, hrest, ← Buffer.fill_invisible_iff, ← hkeep]
  by_cases hfits : p.next + piece.data + (P - piece.size) ≤ ((d.got E).heap p.buf).size
  · rw [Buffer.fill_eq_some hfits] at hpad
    simp only [hfits, true_and]
    constructor
    · rintro ⟨heap, pkt, hsome, hunsent⟩ i hlow hhigh
      rw [hpad] at hsome
      obtain rfl := (Prod.mk.inj (Option.some.inj hsome)).1
      by_cases hlast : rest = []
      · subst hlast
        exact absurd hhigh (Nat.not_lt.mpr hlow)
      · rw [if_neg hlast] at hnext
        have hbyte := hunsent _ hnext i hlow hhigh
        rwa [Function.update_self] at hbyte
    · intro hunsent
      refine ⟨_, _, hpad, fun q hq => ?_⟩
      by_cases hlast : rest = []
      · rw [hnext, if_pos hlast] at hq
        cases hq
      · rw [hnext, if_neg hlast] at hq
        cases hq
        rw [Function.update_self]
        exact hunsent
  · rw [Buffer.fill_eq_none (Nat.lt_of_not_le hfits)] at hpad
    refine iff_of_false ?_ fun h => hfits h.1
    rintro ⟨heap, pkt, hsome, _⟩
    rw [hpad] at hsome
    cases hsome

/-- After a harmless padding the loop is at the next piece, with the same bytes still to
    be sent, or through. -/
theorem AtPiece.next (hlib : ZeroCopyLaws E.lib check pending)
    (h : AtPiece E check pending d p stream) (hP : E.params.payloadLen = P) (hpos : 0 < P)
    (hmax : P < 2 ^ 64) (hpieces : p.pieces = piece :: rest) (hsize : piece.size ≤ P)
    (hharmless : PaddingHarmless E pending d) :
    ∃ d', drainBody E d = .next d' ∧ (d'.env.heap p.buf).size = (d.env.heap p.buf).size ∧
      (rest = [] → pending d'.env.lib = none) ∧
      (rest ≠ [] → AtPiece E check pending d'
        ⟨p.buf, p.next + piece.data, dataLength rest, rest⟩ (stream.drop piece.data)) := by
  obtain ⟨hok, hvfrag, hkeep, hread, hnext⟩ := h.got hlib hP hpos hpieces hsize
  obtain ⟨heap, pkt, hpad, hunsent⟩ := hharmless
  have hbody : drainBody E d = .next ((d.afterGet E).send E heap pkt) := by
    simp [drainBody, h.running, hok, hpad]
  have hbuffer : (heap p.buf).size = ((d.got E).heap p.buf).size := by
    rw [padPacket_eq hP hpos hmax _ (by rw [hvfrag]; exact hsize), hvfrag] at hpad
    obtain ⟨buffer, hfill, heq⟩ := Option.map_eq_some_iff.mp hpad
    obtain rfl := (Prod.mk.inj heq).1
    rw [Function.update_self]
    exact Buffer.fill_size hfill
  have hdrop : stream.drop piece.data =
      ((d.got E).heap p.buf).read (p.next + piece.data) (dataLength rest) := by
    rw [← hread, hpieces, dataLength_cons, Buffer.drop_read]
  refine ⟨_, hbody, hbuffer.trans hkeep, fun hlast => ?_, fun hmore => ?_⟩
  · rw [Drain.send_lib]
    exact hnext.trans (if_pos hlast)
  · have hpending : pending (d.got E).lib =
        some ⟨p.buf, p.next + piece.data, dataLength rest, rest⟩ := hnext.trans (if_neg hmore)
    have hkept : (heap p.buf).read (p.next + piece.data) (dataLength rest) =
        stream.drop piece.data := by
      rw [hdrop]
      exact Buffer.read_congr (hunsent _ hpending)
    exact {
      pending := hpending
      bytes := by
        rw [Pending.stream, if_pos rfl, List.append_nil]
        exact hkept
      length := by rw [hdrop, Buffer.read_length]
      desired := (h.demand hP hpos).trans hP.symm
      running := ⟨Ret.int_ne_status _ _, h.running.2⟩ }

end Pass

/-! ### The passes for a PDU -/

/-- The drain loop comes from the first state to the second. -/
def PassReached (E : EncapConf σ ω) : Drain σ ω → Drain σ ω → Prop :=
  Relation.ReflTransGen fun d d' => drainBody E d = .next d'

/-- The padding is harmless in every pass from here on that gets a packet. -/
def HarmlessFrom (E : EncapConf σ ω) (pending : σ → Option Pending) (d : Drain σ ω) : Prop :=
  ∀ d', PassReached E d d' → d'.running → (d'.got E).status = .ok →
    PaddingHarmless E pending d'

theorem harmlessFrom_next {E : EncapConf σ ω} {pending : σ → Option Pending} {d d' : Drain σ ω}
    (hnext : drainBody E d = .next d') :
    HarmlessFrom E pending d ↔
      (d.running → (d.got E).status = .ok → PaddingHarmless E pending d) ∧
        HarmlessFrom E pending d' := by
  constructor
  · intro h
    exact ⟨h d .refl, fun u hu => h u (hu.head hnext)⟩
  · rintro ⟨hhere, hlater⟩ u hu
    rcases hu.cases_head with rfl | ⟨v, hv, huv⟩
    · exact hhere
    · rw [hnext] at hv
      cases hv
      exact hlater u huv

theorem harmlessFrom_of_none {E : EncapConf σ ω} {check : Bytes → Bytes}
    {pending : σ → Option Pending} (hlib : ZeroCopyLaws E.lib check pending) {d : Drain σ ω}
    (hnone : pending d.env.lib = none) : HarmlessFrom E pending d := by
  have hempty : (d.got E).status = .fifoEmpty := hlib.get_none _ _ _ hnone
  have hend : ∀ v, drainBody E d = .next v → ¬v.running := by
    intro v hv
    rcases drainBody_cases E d with ⟨_, hb⟩ | ⟨_, _, hne, _⟩ | ⟨_, _, hb⟩ | ⟨_, hok, _⟩ |
      ⟨_, hok, _⟩
    · rw [hb] at hv; cases hv
    · exact absurd hempty hne
    · rw [hb] at hv
      cases hv
      exact fun hrunning => hrunning.1 (congrArg Ret.status hempty)
    · rw [hempty] at hok; cases hok
    · rw [hempty] at hok; cases hok
  intro u hu hrun hok
  rcases hu.cases_head with rfl | ⟨v, hv, hvu⟩
  · rw [hempty] at hok
    cases hok
  · rcases hvu.cases_head with rfl | ⟨w, hw, _⟩
    · exact absurd hrun (hend v hv)
    · rw [drainBody, if_neg (hend v hv)] at hw
      cases hw

theorem forall_split_cons {α : Type} {Q : List α → α → Prop} {x : α} {xs : List α} :
    (∀ before q after, x :: xs = before ++ q :: after → Q before q) ↔
      Q [] x ∧ ∀ before q after, xs = before ++ q :: after → Q (x :: before) q := by
  constructor
  · intro h
    exact ⟨h [] x xs rfl, fun before q after heq => h (x :: before) q after (by rw [heq]; rfl)⟩
  · rintro ⟨hhead, htail⟩ before q after heq
    cases before with
    | nil => cases heq; exact hhead
    | cons y before => cases heq; exact htail before q after rfl

/-- From a piece on, the padding is harmless exactly if each piece fits. The induction is
    on the pieces; what a harmless padding keeps is what the next pass starts from. -/
theorem AtPiece.harmlessFrom_iff {E : EncapConf σ ω} {check : Bytes → Bytes}
    {pending : σ → Option Pending} (hlib : ZeroCopyLaws E.lib check pending) {P : Nat}
    (hP : E.params.payloadLen = P) (hpos : 0 < P) (hmax : P < 2 ^ 64) {pieces : List Piece}
    (hne : pieces ≠ []) {d : Drain σ ω} {p : Pending} {stream : Bytes}
    (h : AtPiece E check pending d p stream) (hpieces : p.pieces = pieces)
    (hvalid : ∀ q ∈ pieces, q.size ≤ P ∧ q.header ≤ p.next) :
    HarmlessFrom E pending d ↔ ∀ before q after, pieces = before ++ q :: after →
      PieceFits (d.env.heap p.buf).size (p.next + dataLength (before ++ [q])) (P - q.size)
        (stream.drop (dataLength (before ++ [q]))) := by
  induction pieces generalizing d p stream with
  | nil => exact absurd rfl hne
  | cons piece rest ih =>
    obtain ⟨hsize, hheader⟩ := hvalid piece List.mem_cons_self
    have hhead := h.harmless_iff hlib hP hpos hmax hpieces hsize hheader
    have hok := (h.got hlib hP hpos hpieces hsize).1
    rw [forall_split_cons (Q := fun before q =>
      PieceFits (d.env.heap p.buf).size (p.next + dataLength (before ++ [q])) (P - q.size)
        (stream.drop (dataLength (before ++ [q]))))]
    rw [List.nil_append, dataLength_cons, dataLength_nil, Nat.add_zero, ← hhead]
    by_cases hharmless : PaddingHarmless E pending d
    · obtain ⟨d', hnext, hbuffer, hlast, hmore⟩ := h.next hlib hP hpos hmax hpieces hsize hharmless
      rw [harmlessFrom_next hnext]
      simp only [hharmless, implies_true, true_and]
      by_cases hrest : rest = []
      · subst hrest
        refine iff_of_true (harmlessFrom_of_none hlib (hlast rfl)) ?_
        intro before q after heq
        cases before <;> cases heq
      · rw [ih hrest (hmore hrest) rfl (fun q hq => ⟨(hvalid q (by simp [hq])).1,
          Nat.le_trans (hvalid q (by simp [hq])).2 (Nat.le_add_right _ _)⟩)]
        simp only [hbuffer, List.drop_drop, List.cons_append, dataLength_cons, Nat.add_assoc]
    · refine iff_of_false (fun hall => hharmless (hall d .refl h.running hok)) fun hall => ?_
      exact hharmless hall.1

/-- A way to cut a frame that libgse may choose: packets of at most `P` bytes, which carry
    the frame, and its CRC if there are several. -/
structure ValidCut (G : GseConstants) (P : Nat) (check : Bytes → Bytes) (frame : Bytes)
    (pieces : List Piece) : Prop where
  ne_nil : pieces ≠ []
  size_le : ∀ q ∈ pieces, q.size ≤ P
  header_le : ∀ q ∈ pieces, q.header ≤ G.GSE_MAX_HEADER_LENGTH
  data : dataLength pieces =
    (frame ++ if pieces.length = 1 then [] else check frame).length

theorem AtPiece.start {E : EncapConf σ ω} {check : Bytes → Bytes} {pending : σ → Option Pending}
    {P : Nat} {frame : Bytes} {s : EncapState σ ω} {pieces : List Piece}
    (hcut : ValidCut E.gse P check frame pieces)
    (hpending : pending (s.submitted E frame).lib =
      some ⟨(s.pdu E frame).buf, E.gse.GSE_MAX_HEADER_LENGTH, frame.length, pieces⟩) :
    AtPiece E check pending (s.drainStart E frame)
      ⟨(s.pdu E frame).buf, E.gse.GSE_MAX_HEADER_LENGTH, frame.length, pieces⟩
      (frame ++ if pieces.length = 1 then [] else check frame) := by
  have hbytes : ((s.stored E frame) (s.pdu E frame).buf).read E.gse.GSE_MAX_HEADER_LENGTH
      frame.length = frame := data_stored frame s
  exact {
  pending := hpending
  bytes := by
    have hdata := hcut.data
    change ((s.stored E frame) (s.pdu E frame).buf).read _ _ ++ (if _ then _ else check
      (((s.stored E frame) (s.pdu E frame).buf).read _ _)) = _
    rw [hbytes]
    congr 1
    rw [List.length_append] at hdata
    by_cases hone : pieces.length = 1
    · rw [if_pos hone, List.length_nil] at hdata
      rw [if_pos hone]
      exact if_pos hdata
    · rw [if_neg hone] at hdata ⊢
      by_cases hheld : dataLength pieces = frame.length
      · have hnil : check frame = [] := List.length_eq_zero_iff.mp (by omega)
        rw [hnil]
        exact ite_self _
      · exact if_neg hheld
  length := hcut.data.symm
  desired := rfl
  running := ⟨Ret.ok_ne_fifoEmpty, Nat.zero_lt_succ 4⟩ }

/-- **When padding damages nothing.** For every frame and every way libgse may cut it: in
    all passes of the drain loop the padding stays in the buffer of the PDU and leaves the
    bytes still to be sent as they are, exactly if for each packet the padding ends
    within the buffer and the bytes it covers, if any are still to be sent, are zeros. -/
theorem padding_harmless_iff (E : EncapConf σ ω) (check : Bytes → Bytes)
    (pending : σ → Option Pending) (hvfrag : VfragLaws E.lib)
    (hlib : ZeroCopyLaws E.lib check pending) (P : Nat) (hP : E.params.payloadLen = P)
    (hpos : 0 < P) (hmax : P ≤ GSE_MAX_PACKET_LENGTH) (frame : Bytes) (hne : frame ≠ [])
    (hlen : frame.length ≤ E.params.bufferLen) (hbuffer : E.params.bufferLen ≤ GSE_MAX_PDU_LENGTH)
    (s : EncapState σ ω) (halive : s.alive = 0) (hadmitted : Admitted E frame s)
    (pieces : List Piece) (hcut : ValidCut E.gse P check frame pieces)
    (hpending : pending (s.submitted E frame).lib =
      some ⟨(s.pdu E frame).buf, E.gse.GSE_MAX_HEADER_LENGTH, frame.length, pieces⟩) :
    (∀ bound, encapStep E bound (.readable (some frame)) s =
      (loop (drainBody E) bound (s.drainStart E frame)).leave Drain.env) ∧
    (HarmlessFrom E pending (s.drainStart E frame) ↔
      ∀ before q after, pieces = before ++ q :: after →
        PieceFits (E.gse.GSE_MAX_HEADER_LENGTH + GSE_MAX_PDU_LENGTH + E.gse.GSE_MAX_TRAILER_LENGTH)
          (E.gse.GSE_MAX_HEADER_LENGTH + dataLength (before ++ [q])) (P - q.size)
          ((frame ++ if pieces.length = 1 then [] else check frame).drop
            (dataLength (before ++ [q])))) := by
  constructor
  · intro bound
    exact encapStep_of_admitted hvfrag bound halive hne hlen hbuffer hadmitted
  · have hPDU : GSE_MAX_PACKET_LENGTH = 4097 := rfl
    have hiff := (AtPiece.start hcut hpending).harmlessFrom_iff hlib hP hpos (by omega)
      hcut.ne_nil rfl (fun q hq => ⟨hcut.size_le q hq, hcut.header_le q hq⟩)
    exact stored_size hvfrag frame s ▸ hiff

/-- A libgse that cuts every PDU into the same pieces, with a CRC of `check`; its state is
    the PDU in the FIFO. -/
def piecesLib (check : Bytes → Bytes) (pieces : List Piece) : Encapsulator (Option Pending) where
  gseCreateVfrag d heap maxLength headOffset trailOffset :=
    ⟨.ok, ⟨0, headOffset, 0⟩, d,
      Function.update heap 0 ⟨headOffset + maxLength + trailOffset, fun _ => 0⟩⟩
  gseSetVfragLength _ v len := (.ok, { v with length := len })
  gseGetVfragLength _ v := v.length
  gseEncapReceivePdu _ pdu _ := (.ok, some ⟨pdu.buf, pdu.start, pdu.length, pieces⟩)
  gseEncapGetPacket d heap _ :=
    match d with
    | none => ⟨.fifoEmpty, ⟨0, 0, 0⟩, none, heap⟩
    | some p =>
      match p.pieces with
      | [] => ⟨.fifoEmpty, ⟨0, 0, 0⟩, none, heap⟩
      | piece :: rest =>
        ⟨.ok, ⟨p.buf, p.next - piece.header, piece.size⟩,
          if rest = [] then none else some ⟨p.buf, p.next + piece.data, dataLength rest, rest⟩,
          Function.update heap p.buf ((heap p.buf).overlay p.next (dataLength p.pieces)
            fun i => (p.stream check heap).getD i 0)⟩

theorem piecesLib_vfrag (check : Bytes → Bytes) (pieces : List Piece) :
    VfragLaws (piecesLib check pieces) :=
  ⟨fun _ _ _ _ _ => rfl, fun _ _ _ _ _ => rfl, fun _ _ _ _ => rfl⟩

theorem piecesLib_zeroCopy (check : Bytes → Bytes) (pieces : List Piece) :
    ZeroCopyLaws (piecesLib check pieces) check id where
  get_none := by
    intro d heap len hnone
    obtain rfl : d = none := hnone
    rfl
  get_some := by
    intro d heap len p piece rest hpending hpieces _ hlength
    obtain rfl : d = some p := hpending
    have hread : ((heap p.buf).overlay p.next (dataLength p.pieces) fun i =>
        (p.stream check heap).getD i 0).read p.next (dataLength p.pieces) =
        p.stream check heap := by
      rw [← hlength]
      exact Buffer.read_write_same _ _ _
    simp only [piecesLib, hpieces, id] at hread ⊢
    rw [Function.update_self]
    exact ⟨trivial, trivial, Buffer.overlay_size _ _ _ _, hread, trivial⟩

def piecesConf (pieces : List Piece) : EncapConf (Option Pending) Unit where
  gse := ⟨13, 4⟩
  lib := piecesLib (fun _ => [1, 2, 3, 4]) pieces
  sendto net data := (data.length, net)
  params := ⟨⟨[], ⟨0, 0⟩, ⟨0, 0⟩, ⟨0, 1⟩, 8192, 34⟩, ⟨0, 1⟩⟩

/-- A frame of one byte in one packet, padded from 11 to 34 bytes. -/
theorem padding_harmless_one_byte :
    HarmlessFrom (piecesConf [⟨10, 1⟩]) id
      ((EncapState.init none () fun _ => ⟨0, fun _ => 0⟩).drainStart (piecesConf [⟨10, 1⟩]) [7]) :=
  (padding_harmless_iff (piecesConf [⟨10, 1⟩]) (fun _ => [1, 2, 3, 4]) id
    (piecesLib_vfrag _ _) (piecesLib_zeroCopy _ _) 34 rfl (by decide) (by decide) [7] (by decide)
    (by decide) (by decide) (.init none () fun _ => ⟨0, fun _ => 0⟩) rfl rfl [⟨10, 1⟩]
    ⟨by decide, by decide, by decide, by decide⟩ rfl).2.mpr (by
      intro before q after heq
      cases before with
      | nil =>
        cases heq
        exact ⟨by decide, List.forall_mem_nil _⟩
      | cons p before => cases before <;> cases heq)

/-- The pieces of 51 bytes and their CRC: the second packet is short, since the CRC is not
    split. -/
def shortMiddle : List Piece := [⟨13, 21⟩, ⟨3, 30⟩, ⟨3, 4⟩]

/-- The padding of the second packet zeroes the first byte of the CRC. -/
theorem padding_damages_crc :
    ValidCut ⟨13, 4⟩ 34 (fun _ => [1, 2, 3, 4]) (List.replicate 51 7) shortMiddle ∧
      ¬HarmlessFrom (piecesConf shortMiddle) id ((EncapState.init none ()
        fun _ => ⟨0, fun _ => 0⟩).drainStart (piecesConf shortMiddle) (List.replicate 51 7)) := by
  have hcut : ValidCut (piecesConf shortMiddle).gse 34 (fun _ => [1, 2, 3, 4])
      (List.replicate 51 7) shortMiddle := ⟨by decide, by decide, by decide, by decide⟩
  refine ⟨hcut, fun hharmless => ?_⟩
  have hstart : AtPiece (piecesConf shortMiddle) (fun _ => [1, 2, 3, 4]) id
      ((EncapState.init none () fun _ => ⟨0, fun _ => 0⟩).drainStart (piecesConf shortMiddle)
        (List.replicate 51 7)) ⟨0, 13, 51, shortMiddle⟩ _ := AtPiece.start hcut rfl
  obtain ⟨_, hzero⟩ := (hstart.harmlessFrom_iff (piecesLib_zeroCopy _ _) (P := 34) rfl (by decide)
    (by decide) (by decide) rfl (by decide)).mp hharmless [⟨13, 21⟩] ⟨3, 30⟩ [⟨3, 4⟩] rfl
  exact absurd (hzero 1 (by decide)) (by decide)

end DvbGseTunnel
