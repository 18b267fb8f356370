import DvbGseTunnel.Rust.Satdecap

/-!
# One datagram and the next in the Rust `satdecap`

What the loop ought to deliver is a property of the decapsulator alone: call `decap` on
the datagrams one after another, give the storage of each completed packet back, and
take the completed frames out of the sequence of statuses (`statuses`). The loop agrees
with that for as long as every status is `CompletedPkt`; the `break` of the other two
arms leaves the receiving loop itself, so the first datagram that is a fragment or
malformed ends the run (`runtimeDecap_eq`).
-/

namespace DvbGseTunnel.Rust

open Lib

variable {δ ω : Type}

def DecapStatus.frame? : DecapStatus → Option (List UInt8)
  | .completedPkt pkt => some pkt.frame
  | .fragmentedPkt => none
  | .error => none

theorem DecapStatus.frame?_eq_some {status : DecapStatus} {frame : List UInt8}
    (h : status.frame? = some frame) : ∃ pkt, status = .completedPkt pkt ∧ pkt.frame = frame := by
  cases status with
  | completedPkt pkt => exact ⟨pkt, rfl, Option.some.inj h⟩
  | fragmentedPkt => cases h
  | error => cases h

/-- The decapsulator once the storage of a completed packet is given back. -/
def Decapsulator.recycle (L : Decapsulator δ) : DecapStatus × δ → δ
  | (.completedPkt pkt, d) => (L.provisionStorage d pkt.buffer).getD d
  | (.fragmentedPkt, d) => d
  | (.error, d) => d

/-- What becomes of a datagram: a frame to deliver, and the next state. -/
def Decapsulator.receive (L : Decapsulator δ) (d : δ) (datagram : List UInt8) :
    Option (List UInt8) × δ :=
  ((L.decap d datagram).1.frame?, L.recycle (L.decap d datagram))

/-- The statuses `decap` returns for the datagrams, one after another. -/
def statuses (L : Decapsulator δ) : List (List UInt8) → δ → List DecapStatus
  | [], _ => []
  | datagram :: datagrams, d =>
    let result := L.decap d (datagram.take GSE_MAX_PACKET_LENGTH)
    result.1 :: statuses L datagrams (L.recycle result)

theorem statuses_cons (L : Decapsulator δ) (datagram : List UInt8)
    (datagrams : List (List UInt8)) (d : δ) :
    statuses L (datagram :: datagrams) d =
      (L.decap d (datagram.take GSE_MAX_PACKET_LENGTH)).1 ::
        statuses L datagrams (L.recycle (L.decap d (datagram.take GSE_MAX_PACKET_LENGTH))) := rfl

theorem statuses_take (L : Decapsulator δ) (datagrams : List (List UInt8)) (n : Nat) (d : δ) :
    statuses L (datagrams.take n) d = (statuses L datagrams d).take n := by
  induction datagrams generalizing n d with
  | nil => simp [statuses]
  | cons datagram datagrams ih =>
    cases n with
    | zero => rfl
    | succ n => rw [List.take_succ_cons, statuses_cons, statuses_cons, List.take_succ_cons, ih]

/-- The TAP interface takes every frame and `provision_storage` every buffer. -/
structure DecapConf.Succeeds (D : DecapConf δ ω) : Prop where
  tapSend : ∀ host frame, (D.tapSend host frame).1 = true
  provisionStorage : ∀ d buffer, D.lib.provisionStorage d buffer ≠ none

/-! ### One datagram -/

theorem decapStep_of_completed {D : DecapConf δ ω} (h : D.Succeeds) {s : DecapState δ ω}
    {datagram : List UInt8} {pkt : CompletedPkt}
    (hstatus : (D.lib.decap s.lib (datagram.take GSE_MAX_PACKET_LENGTH)).1 = .completedPkt pkt) :
    ∃ host, decapStep D (some datagram) s =
      .next { s with
        lib := D.lib.recycle (D.lib.decap s.lib (datagram.take GSE_MAX_PACKET_LENGTH))
        host := host
        tap := s.tap ++ [pkt.frame] } := by
  rcases hcall : D.lib.decap s.lib (datagram.take GSE_MAX_PACKET_LENGTH) with ⟨status, d⟩
  rw [hcall] at hstatus
  obtain rfl : status = .completedPkt pkt := hstatus
  have hsend : ¬(D.tapSend s.host pkt.frame).1 = false := by simp [h.tapSend]
  obtain ⟨d', hstore⟩ := Option.ne_none_iff_exists'.mp (h.provisionStorage d pkt.buffer)
  refine ⟨(D.tapSend s.host pkt.frame).2, ?_⟩
  simp only [decapStep, hcall, if_neg hsend, hstore, Decapsulator.recycle, Option.getD_some]

/-- Both other arms leave the receiving loop. -/
theorem decapStep_of_not_completed {D : DecapConf δ ω} {s : DecapState δ ω}
    {datagram : List UInt8}
    (hstatus : (D.lib.decap s.lib (datagram.take GSE_MAX_PACKET_LENGTH)).1.frame? = none) :
    ∃ lib, decapStep D (some datagram) s = .stop { s with lib := lib } := by
  refine ⟨(D.lib.decap s.lib (datagram.take GSE_MAX_PACKET_LENGTH)).2, ?_⟩
  cases hcall : (D.lib.decap s.lib (datagram.take GSE_MAX_PACKET_LENGTH)).1 with
  | completedPkt pkt => rw [hcall] at hstatus; cases hstatus
  | fragmentedPkt => simp only [decapStep, hcall]
  | error => simp only [decapStep, hcall]

/-! ### A run -/

/-- The frames that reach the TAP interface are those before the first datagram that
    completes none, and the loop is left there. -/
theorem runtimeDecap_eq {D : DecapConf δ ω} (h : D.Succeeds) (datagrams : List (List UInt8))
    (s : DecapState δ ω) :
    ((∀ status ∈ statuses D.lib datagrams s.lib, status.frame? ≠ none) ∧
      ∃ t, runtimeDecap D (datagrams.map some) s = .next t ∧
        t.tap = s.tap ++ (statuses D.lib datagrams s.lib).filterMap DecapStatus.frame?) ∨
    (¬(∀ status ∈ statuses D.lib datagrams s.lib, status.frame? ≠ none) ∧
      ∃ t, runtimeDecap D (datagrams.map some) s = .stop t) := by
  induction datagrams generalizing s with
  | nil => exact .inl ⟨by simp [statuses], s, rfl, by simp [statuses]⟩
  | cons datagram datagrams ih =>
    rw [statuses_cons, List.map_cons, List.forall_mem_cons, runtimeDecap, feed_cons]
    cases hstatus : (D.lib.decap s.lib (datagram.take GSE_MAX_PACKET_LENGTH)).1.frame? with
    | none =>
      obtain ⟨lib, hstep⟩ := decapStep_of_not_completed hstatus
      exact .inr ⟨fun hall => hall.1 rfl, { s with lib := lib }, by rw [hstep]; rfl⟩
    | some frame =>
      obtain ⟨pkt, hpkt, rfl⟩ := DecapStatus.frame?_eq_some hstatus
      obtain ⟨host, hstep⟩ := decapStep_of_completed h hpkt
      rw [hstep, Flow.next_andThen]
      rcases ih { s with
          lib := D.lib.recycle (D.lib.decap s.lib (datagram.take GSE_MAX_PACKET_LENGTH))
          host := host
          tap := s.tap ++ [pkt.frame] } with ⟨hall, t, hrun, htap⟩ | ⟨hnot, t, hrun⟩
      · refine .inl ⟨⟨nofun, hall⟩, t, hrun, ?_⟩
        rw [htap, List.filterMap_cons, hstatus, List.append_assoc]
        rfl
      · exact .inr ⟨fun hall => hnot hall.2, t, hrun⟩

/-- After each datagram the loop is back at `recv`, and the TAP interface was sent the
    completed frames so far. -/
def Delivers (D : DecapConf δ ω) (datagrams : List (List UInt8)) (s : DecapState δ ω) : Prop :=
  ∀ n, ∃ t, runtimeDecap D ((datagrams.take n).map some) s = .next t ∧
    t.tap = s.tap ++ ((statuses D.lib datagrams s.lib).take n).filterMap DecapStatus.frame?

/-- **When the Rust `satdecap` isolates datagrams from each other.** For every
    decapsulator and every sequence of datagrams: exactly the completed frames are
    delivered, with a return to `recv` after each datagram, when every datagram
    completes a packet, and not otherwise. -/
theorem delivers_iff (D : DecapConf δ ω) (h : D.Succeeds) (datagrams : List (List UInt8))
    (s : DecapState δ ω) :
    Delivers D datagrams s ↔
      ∀ status ∈ statuses D.lib datagrams s.lib, ∃ pkt, status = .completedPkt pkt := by
  have hcompleted : ∀ status : DecapStatus,
      status.frame? ≠ none ↔ ∃ pkt, status = .completedPkt pkt := by
    intro status
    cases status <;> simp [DecapStatus.frame?]
  simp only [← hcompleted]
  constructor
  · intro hdelivers
    obtain ⟨t, hrun, _⟩ := hdelivers datagrams.length
    rw [List.take_length] at hrun
    rcases runtimeDecap_eq h datagrams s with ⟨hall, _⟩ | ⟨_, u, hstop⟩
    · exact hall
    · rw [hstop] at hrun
      cases hrun
  · intro hall n
    rw [← statuses_take]
    rcases runtimeDecap_eq h (datagrams.take n) s with ⟨_, ht⟩ | ⟨hnot, _⟩
    · exact ht
    · rw [statuses_take] at hnot
      exact absurd (fun status hmem => hall status (List.mem_of_mem_take hmem)) hnot

/-- A decapsulator that answers from a script, whatever the datagrams. -/
def scriptedConf : DecapConf (List DecapStatus) Unit where
  lib :=
    { decap := fun script _ => (script.headD .error, script.tail)
      provisionStorage := fun script _ => some script }
  tapSend host _ := (true, host)

theorem scriptedConf_succeeds : scriptedConf.Succeeds :=
  ⟨fun _ _ => rfl, fun _ _ => nofun⟩

theorem delivers_one_packet :
    Delivers scriptedConf [[0xc0]] (.init [.completedPkt ⟨[7], 1, by decide⟩] ()) :=
  (delivers_iff scriptedConf scriptedConf_succeeds [[0xc0]]
    (.init [.completedPkt ⟨[7], 1, by decide⟩] ())).mpr (by
      intro status hstatus
      obtain rfl := List.mem_singleton.mp hstatus
      exact ⟨_, rfl⟩)

/-- A fragment, then a complete packet: its frame is not delivered. -/
theorem fragment_stops_delivery :
    ¬Delivers scriptedConf [[0x80], [0xc0]]
      (.init [.fragmentedPkt, .completedPkt ⟨[7], 1, by decide⟩] ()) := by
  intro hdelivers
  obtain ⟨t, hrun, _⟩ := hdelivers 2
  cases hrun

end DvbGseTunnel.Rust
