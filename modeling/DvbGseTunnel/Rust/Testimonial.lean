import DvbGseTunnel.Rust.Emission

/-!
# The tunnel without GSE

The programs of `rust_testimonial` have the interfaces of the Rust tunnel and no
encapsulation: each frame is sent as it is read. So the frames come through as UDP brings
the datagrams, cut to the `buffer_len` of the sender, which must be within its buffer
(`testimonial_delivers`).
-/

namespace DvbGseTunnel.Rust.Testimonial

open Lib

variable {ω ω' : Type}

def GSE_MAX_PDU_LEN : Nat := 65535

/-! ### `satencap.rs` -/

/-- What stays from one frame to the next; `sent` logs the datagrams. -/
structure EncapState (ω : Type) where
  net : ω
  buffer : Bytes
  sent : List Bytes
  panic : Option Panic

/-- What `runtime` runs with: the kernel's answers to `send`, and `buffer_len` of the
    arguments. -/
structure EncapConf (ω : Type) where
  send : ω → Bytes → Bool × ω
  bufferLen : Nat

/-- One pass of the loop. The slice of the buffer is taken before `recv` is called. -/
def encapStep (E : EncapConf ω) (recv : Option Bytes) (s : EncapState ω) : Flow (EncapState ω) :=
  match slice s.buffer E.bufferLen with
  | none => .fault { s with panic := some .index }
  | some window =>
    match recv with
    | none => .fault { s with panic := some .unwrap }
    | some frame =>
      let len := (frame.take window.length).length
      let s := { s with buffer := frame.take window.length ++ s.buffer.drop len }
      match slice s.buffer len with
      | none => .fault { s with panic := some .index }
      | some datagram =>
        let (sent, net) := E.send s.net datagram
        let s := { s with net := net }
        if sent = false then .fault { s with panic := some .unwrap }
        else .next { s with sent := s.sent ++ [datagram] }

def runtimeEncap (E : EncapConf ω) (frames : List (Option Bytes)) (s : EncapState ω) :
    Flow (EncapState ω) :=
  feed (encapStep E) frames s

def EncapState.init (net : ω) : EncapState ω := ⟨net, List.replicate GSE_MAX_PDU_LEN 0, [], none⟩

/-! ### `satdecap.rs` -/

/-- `tap` logs the frames sent to the TAP interface. -/
structure DecapState (ω : Type) where
  host : ω
  buffer : Bytes
  tap : List Bytes
  panic : Option Panic

structure DecapConf (ω : Type) where
  tapSend : ω → Bytes → Bool × ω

/-- One pass of the loop. -/
def decapStep (D : DecapConf ω) (recv : Option Bytes) (s : DecapState ω) : Flow (DecapState ω) :=
  match recv with
  | none => .fault { s with panic := some .unwrap }
  | some datagram =>
    let len := (datagram.take s.buffer.length).length
    let s := { s with buffer := datagram.take s.buffer.length ++ s.buffer.drop len }
    match slice s.buffer len with
    | none => .fault { s with panic := some .index }
    | some frame =>
      let (sent, host) := D.tapSend s.host frame
      let s := { s with host := host }
      if sent = false then .fault { s with panic := some .unwrap }
      else .next { s with tap := s.tap ++ [frame] }

def DecapState.init (host : ω) : DecapState ω := ⟨host, List.replicate GSE_MAX_PDU_LEN 0, [], none⟩

/-- The TAP interface takes every frame. -/
def DecapConf.Succeeds (D : DecapConf ω) : Prop := ∀ host frame, (D.tapSend host frame).1 = true

/-! ### The sender -/

/-- What is read back from the start of a buffer after bytes were stored there. -/
theorem slice_stored (stored rest : Bytes) :
    slice (stored ++ rest) stored.length = some stored := by
  rw [slice_eq_some (by rw [List.length_append]; omega), List.take_left]

/-- Everything a pass can do while `buffer_len` is within the buffer: the frame, cut to
    `buffer_len`, is sent, or the program panics. -/
theorem encapStep_cases (E : EncapConf ω) {s : EncapState ω}
    (hbuffer : s.buffer.length = GSE_MAX_PDU_LEN) (hlen : E.bufferLen ≤ GSE_MAX_PDU_LEN)
    (recv : Option Bytes) :
    (∃ frame t, recv = some frame ∧ (E.send s.net (frame.take E.bufferLen)).1 = true ∧
      encapStep E recv s = .next t ∧ t.buffer.length = GSE_MAX_PDU_LEN ∧
        t.net = (E.send s.net (frame.take E.bufferLen)).2 ∧
        t.sent = s.sent ++ [frame.take E.bufferLen]) ∨
    ((∀ frame, recv = some frame → (E.send s.net (frame.take E.bufferLen)).1 = false) ∧
      ∃ t, encapStep E recv s = .fault t ∧ t.sent = s.sent ∧ t.panic = some .unwrap) := by
  have hwindow : slice s.buffer E.bufferLen = some (s.buffer.take E.bufferLen) :=
    slice_eq_some (by omega)
  have hcapa : (s.buffer.take E.bufferLen).length = E.bufferLen := by
    rw [List.length_take]
    omega
  cases recv with
  | none =>
    refine .inr ⟨nofun, { s with panic := some .unwrap }, ?_, rfl, rfl⟩
    simp only [encapStep, hwindow]
  | some frame =>
    let stored := frame.take E.bufferLen ++ s.buffer.drop (frame.take E.bufferLen).length
    have hstored : slice stored (frame.take E.bufferLen).length = some (frame.take E.bufferLen) :=
      slice_stored _ _
    cases hsent : (E.send s.net (frame.take E.bufferLen)).1 with
    | true =>
      refine .inl ⟨frame, ⟨(E.send s.net (frame.take E.bufferLen)).2, stored,
        s.sent ++ [frame.take E.bufferLen], s.panic⟩, rfl, hsent, ?_, ?_, rfl, rfl⟩
      · simp only [encapStep, hwindow, hcapa]
        rw [show slice (frame.take E.bufferLen ++ _) _ = _ from hstored]
        dsimp only
        rw [if_neg (by rw [hsent]; nofun)]
      · have htake : (frame.take E.bufferLen).length ≤ E.bufferLen := List.length_take_le _ _
        change (frame.take E.bufferLen ++ s.buffer.drop _).length = _
        rw [List.length_append, List.length_drop]
        omega
    | false =>
      refine .inr ⟨fun f hf => Option.some.inj hf ▸ hsent,
        ⟨(E.send s.net (frame.take E.bufferLen)).2, stored, s.sent, some .unwrap⟩, ?_, rfl, rfl⟩
      simp only [encapStep, hwindow, hcapa]
      rw [show slice (frame.take E.bufferLen ++ _) _ = _ from hstored]
      dsimp only
      rw [if_pos hsent]

/-- A `buffer_len` beyond the buffer panics before anything is read. -/
theorem encapStep_of_long (E : EncapConf ω) {s : EncapState ω}
    (hbuffer : s.buffer.length = GSE_MAX_PDU_LEN) (hlen : GSE_MAX_PDU_LEN < E.bufferLen)
    (recv : Option Bytes) : encapStep E recv s = .fault { s with panic := some .index } := by
  simp only [encapStep, slice_eq_none (show s.buffer.length < E.bufferLen by omega)]

theorem encapStep_sent (E : EncapConf ω) (recv : Option Bytes) (s : EncapState ω) :
    s.sent <+: (encapStep E recv s).state.sent := by
  unfold encapStep
  split
  · exact List.prefix_rfl
  · split
    · exact List.prefix_rfl
    · dsimp only
      split
      · exact List.prefix_rfl
      · split
        · exact List.prefix_rfl
        · exact List.prefix_append _ _

/-- The kernel takes every datagram. -/
def EncapConf.Sends (E : EncapConf ω) : Prop := ∀ net bytes, (E.send net bytes).1 = true

/-- The datagrams are the frames, as far as the program came. -/
theorem runtimeEncap_sent (E : EncapConf ω) (hlen : E.bufferLen ≤ GSE_MAX_PDU_LEN)
    (events : List (Option Bytes)) {s : EncapState ω}
    (hbuffer : s.buffer.length = GSE_MAX_PDU_LEN) :
    (runtimeEncap E events s).state.sent <+: s.sent ++ framesReceived E.bufferLen events ∧
      (E.Sends → (runtimeEncap E events s).state.sent =
        s.sent ++ framesReceived E.bufferLen events) := by
  induction events generalizing s with
  | nil => exact ⟨List.prefix_append _ _, fun _ => (List.append_nil _).symm⟩
  | cons recv events ih =>
    rw [runtimeEncap, feed_cons]
    rcases encapStep_cases E hbuffer hlen recv with
      ⟨frame, t, rfl, -, hstep, hkeep, -, hsent⟩ | ⟨hrefused, t, hstep, hsent, -⟩
    · rw [hstep, Flow.next_andThen, framesReceived, List.append_cons, ← hsent]
      exact ih hkeep
    · rw [hstep, Flow.fault_andThen, Flow.state_fault, hsent]
      refine ⟨List.prefix_append _ _, fun hsends => ?_⟩
      cases recv with
      | none => exact (List.append_nil _).symm
      | some frame =>
        have hno := hrefused frame rfl
        rw [hsends] at hno
        cases hno

/-- Within the buffer, a panic is that of `recv` or of `send`. -/
theorem runtimeEncap_panic (E : EncapConf ω) (hlen : E.bufferLen ≤ GSE_MAX_PDU_LEN)
    (events : List (Option Bytes)) {s t : EncapState ω}
    (hbuffer : s.buffer.length = GSE_MAX_PDU_LEN) (hfault : runtimeEncap E events s = .fault t) :
    t.panic = some .unwrap := by
  induction events generalizing s with
  | nil => cases hfault
  | cons recv events ih =>
    rw [runtimeEncap, feed_cons] at hfault
    rcases encapStep_cases E hbuffer hlen recv with
      ⟨frame, u, rfl, -, hstep, hkeep, -, -⟩ | ⟨-, u, hstep, -, hpanic⟩
    · rw [hstep, Flow.next_andThen] at hfault
      exact ih hkeep hfault
    · rw [hstep, Flow.fault_andThen] at hfault
      cases hfault
      exact hpanic

theorem runtimeEncap_of_long (E : EncapConf ω) (hlen : GSE_MAX_PDU_LEN < E.bufferLen)
    {events : List (Option Bytes)} (hne : events ≠ []) (net : ω) :
    runtimeEncap E events (.init net) =
      .fault { EncapState.init net with panic := some .index } := by
  obtain ⟨recv, rest, rfl⟩ := List.exists_cons_of_ne_nil hne
  rw [runtimeEncap, feed_cons, encapStep_of_long E List.length_replicate hlen]
  rfl

/-! ### The tunnel -/

/-- A datagram that is a frame within the buffers. -/
def CarriesFrame (frame datagram : Bytes) : Prop :=
  datagram = frame ∧ frame.length ≤ GSE_MAX_PDU_LEN

theorem length_le_of_mem_framesReceived {capa : Nat} {events : List (Option Bytes)}
    {frame : Bytes} (h : frame ∈ framesReceived capa events) : frame.length ≤ capa := by
  induction events with
  | nil => cases h
  | cons recv events ih =>
    cases recv with
    | none => cases h
    | some read =>
      rcases List.mem_cons.mp h with rfl | hmem
      · exact List.length_take_le _ _
      · exact ih hmem

theorem runtimeEncap_emits (E : EncapConf ω) (events : List (Option Bytes)) (net : ω) :
    Emits CarriesFrame (framesReceived E.bufferLen events)
      ((runtimeEncap E events (.init net)).state.sent.map some) := by
  intro n datagram hn
  rw [List.getElem?_map, Option.map_eq_some_iff] at hn
  obtain ⟨d, hsent, heq⟩ := hn
  obtain rfl : d = datagram := Option.some.inj heq
  by_cases hlen : E.bufferLen ≤ GSE_MAX_PDU_LEN
  · have hframe : (framesReceived E.bufferLen events)[n]? = some d :=
      Parties.getElem?_of_prefix (runtimeEncap_sent E hlen events List.length_replicate).1 hsent
    have hshort := length_le_of_mem_framesReceived (List.mem_of_getElem? hframe)
    exact ⟨d, hframe, rfl, Nat.le_trans hshort hlen⟩
  · -- nothing is sent
    by_cases hne : events = []
    · subst hne
      cases hsent
    · rw [runtimeEncap_of_long E (Nat.lt_of_not_le hlen) hne] at hsent
      cases hsent

theorem decapStep_frame {D : DecapConf ω} (hD : D.Succeeds) {s : DecapState ω}
    (hbuffer : s.buffer.length = GSE_MAX_PDU_LEN) {frame : Bytes}
    (hlen : frame.length ≤ GSE_MAX_PDU_LEN) :
    ∃ t, decapStep D (some frame) s = .next t ∧ t.buffer.length = GSE_MAX_PDU_LEN ∧
      t.tap = s.tap ++ [frame] := by
  have htake : frame.take s.buffer.length = frame := List.take_of_length_le (by omega)
  refine ⟨⟨(D.tapSend s.host frame).2, frame ++ s.buffer.drop frame.length, s.tap ++ [frame],
    s.panic⟩, ?_, ?_, rfl⟩
  · simp only [decapStep, htake, slice_stored]
    rw [if_neg (by rw [hD]; nofun)]
  · change (frame ++ s.buffer.drop frame.length).length = _
    rw [List.length_append, List.length_drop]
    omega

theorem decap_handles {D : DecapConf ω} (hD : D.Succeeds) :
    Handles (decapStep D) some CarriesFrame (fun (d : Unit) frame => (some frame, d))
      (fun _ => False) (fun s => s.buffer.length = GSE_MAX_PDU_LEN) (fun _ => ())
      DecapState.tap where
  datagram := by
    rintro s frame _ hbuffer ⟨rfl, hlen⟩
    obtain ⟨t, hstep, hkeep, htap⟩ := decapStep_frame hD hbuffer hlen
    exact ⟨t, hstep, hkeep, rfl, htap⟩
  own := fun _ hfalse => absurd hfalse id

theorem outputs_frames (frames : List Bytes) :
    outputs (fun (d : Unit) (frame : Bytes) => (some frame, d)) () frames = frames := by
  induction frames with
  | nil => rfl
  | cons frame frames ih =>
    rw [outputs, ih]
    rfl

def parties (E : EncapConf ω) (D : DecapConf ω') :
    Parties (Option Bytes) (EncapState ω) (Option Bytes) (DecapState ω') Bytes where
  send := encapStep E
  sent s := s.sent.map some
  recv := decapStep D
  event := some

theorem parties_appends (E : EncapConf ω) (D : DecapConf ω') : (parties E D).Appends :=
  fun event s => (encapStep_sent E event s).map some

theorem parties_tap (E : EncapConf ω) {D : DecapConf ω'} (hD : D.Succeeds)
    {moves : List (Move (Option Bytes) (Option Bytes))}
    (hown : ∀ event, Move.receiver event ∉ moves) (net : ω) (host : ω') :
    let run := (parties E D).run moves (.start (.init net) (.init host))
    ∃ t, run.receiver = .next t ∧
      t.tap = run.arrivals.filterMap ((framesReceived E.bufferLen (senderEvents moves))[·]?) := by
  obtain ⟨t, hreceiver, -, htap⟩ := Parties.run_out (P := parties E D) (parties_appends E D)
    (decap_handles hD) moves hown (s := .init net) (t := .init host) List.length_replicate
    (runtimeEncap_emits E (senderEvents moves) net)
  exact ⟨t, hreceiver, htap.trans (outputs_frames _)⟩

/-- **The tunnel without GSE.** Whatever UDP does and the sender's kernel answers, the frames
    delivered are those of the datagrams that arrive, cut to `buffer_len`, in their order of
    arrival and as often as they arrive. The sender panics on a slice exactly if it comes to
    `recv` with a `buffer_len` beyond its buffer. -/
theorem testimonial_delivers (E : EncapConf ω) (D : DecapConf ω') (hD : D.Succeeds)
    (moves : List (Move (Option Bytes) (Option Bytes)))
    (hown : ∀ event, Move.receiver event ∉ moves) (net : ω) (host : ω') :
    let run := (parties E D).run moves (.start (.init net) (.init host))
    (∃ t, run.receiver = .next t ∧
      t.tap = run.arrivals.filterMap ((framesReceived E.bufferLen (senderEvents moves))[·]?)) ∧
    ((∃ s, run.sender = .fault s ∧ s.panic = some .index) ↔
      GSE_MAX_PDU_LEN < E.bufferLen ∧ senderEvents moves ≠ []) := by
  intro run
  refine ⟨parties_tap E hD hown net host, ?_⟩
  rw [show run.sender = runtimeEncap E (senderEvents moves) (.init net) from
    (parties E D).run_sender_start moves _ _]
  constructor
  · rintro ⟨s, hfault, hpanic⟩
    refine ⟨Nat.lt_of_not_le fun hlen => ?_, fun hnil => ?_⟩
    · have hunwrap := runtimeEncap_panic E hlen _ List.length_replicate hfault
      rw [hpanic] at hunwrap
      cases hunwrap
    · rw [hnil] at hfault
      cases hfault
  · rintro ⟨hlong, hne⟩
    exact ⟨_, runtimeEncap_of_long E hlong hne net, rfl⟩

def okConf : EncapConf Unit := ⟨fun net _ => (true, net), GSE_MAX_PDU_LEN⟩

def okDecapConf : DecapConf Unit := ⟨fun host _ => (true, host)⟩

/-- The second frame arrives twice, before the first. -/
def doubledMoves : List (Move (Option Bytes) (Option Bytes)) :=
  [.sender (some [5]), .sender (some [7]), .arrive 1, .arrive 1, .arrive 0]

theorem testimonial_delivers_doubled :
    let run := (parties okConf okDecapConf).run doubledMoves (.start (.init ()) (.init ()))
    (∃ t, run.receiver = .next t ∧ t.tap = run.arrivals.filterMap
      ((framesReceived GSE_MAX_PDU_LEN (senderEvents doubledMoves))[·]?)) ∧
    ((∃ s, run.sender = .fault s ∧ s.panic = some .index) ↔
      GSE_MAX_PDU_LEN < GSE_MAX_PDU_LEN ∧ senderEvents doubledMoves ≠ []) :=
  testimonial_delivers okConf okDecapConf (fun _ _ => rfl) doubledMoves (by simp [doubledMoves])
    () ()

end DvbGseTunnel.Rust.Testimonial
