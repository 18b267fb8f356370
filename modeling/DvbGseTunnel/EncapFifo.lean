import DvbGseTunnel.ProcessEncap

/-!
# What the drain loop leaves in the FIFO

The drain loop of `process_encap` has two exits. After `GSE_STATUS_FIFO_EMPTY` the FIFO
is empty; after the fifth error it is not, since a failing `gse_encap_get_packet` leaves
the PDU it failed on at the head of the FIFO. Nothing discards that PDU, unlike the one
`gse_encap_receive_pdu` refuses, so it is met again when the next frame is drained.

Which exit was taken can be read off the outcomes of the library calls: the number of
failures since a PDU was last admitted decides it, in every run (`fifo_empty_iff`).
-/

namespace DvbGseTunnel

open Lib

variable {σ ω π : Type}

/-- What libgse documents about its FIFO, of which `fifo` is the content. -/
structure FifoLaws (L : Encapsulator σ) (fifo : σ → List π) : Prop where
  create : ∀ d heap maxLength headOffset trailOffset,
    fifo (L.gseCreateVfrag d heap maxLength headOffset trailOffset).lib = fifo d
  receive_ok : ∀ d pdu label, (L.gseEncapReceivePdu d pdu label).1 = .ok →
    ∃ p, fifo (L.gseEncapReceivePdu d pdu label).2 = fifo d ++ [p]
  receive_error : ∀ d pdu label, (L.gseEncapReceivePdu d pdu label).1 ≠ .ok →
    fifo (L.gseEncapReceivePdu d pdu label).2 = fifo d
  get_empty : ∀ d heap len,
    (L.gseEncapGetPacket d heap len).status = .fifoEmpty ↔ fifo d = []
  get_ok : ∀ d heap len, (L.gseEncapGetPacket d heap len).status = .ok →
    ∃ p p' rest, fifo d = p :: rest ∧
      (fifo (L.gseEncapGetPacket d heap len).lib = p' :: rest ∨
        fifo (L.gseEncapGetPacket d heap len).lib = rest)
  get_error : ∀ d heap len, (L.gseEncapGetPacket d heap len).status ≠ .ok →
    fifo (L.gseEncapGetPacket d heap len).lib = fifo d

/-! ### Failures since the last admitted PDU -/

def countFailure (n : Nat) : EncapCall → Nat
  | .receivePdu _ _ status => if status = .ok then 0 else n
  | .getPacket _ status => if status ≠ .ok ∧ status ≠ .fifoEmpty then n + 1 else n
  | .writeUdp _ _ => n

/-- The failing calls of `gse_encap_get_packet` since a PDU was last admitted. -/
def failures (calls : List EncapCall) : Nat := calls.foldl countFailure 0

theorem failures_append (calls : List EncapCall) (call : EncapCall) :
    failures (calls ++ [call]) = countFailure (failures calls) call := by
  rw [failures, List.foldl_append]
  rfl

/-! ### The drain loop -/

/-- The invariant of the drain loop: `err` counts the failures, and each of its exits
    says what is in the FIFO. -/
structure Draining (fifo : σ → List π) (d : Drain σ ω) : Prop where
  err : d.env.err = failures d.env.calls
  full : 5 ≤ d.env.err → fifo d.env.lib ≠ []
  empty : d.ret = .status .fifoEmpty → fifo d.env.lib = []

theorem Draining.next {E : EncapConf σ ω} {fifo : σ → List π} (hlib : FifoLaws E.lib fifo)
    {d d' : Drain σ ω} (h : Draining fifo d) (hb : drainBody E d = .next d') :
    Draining fifo d' := by
  have hcalls : failures (d.afterGet E).env.calls =
      countFailure d.env.err (.getPacket (d.demand E) (d.got E).status) := by
    rw [Drain.afterGet_calls, failures_append, h.err]
  rcases drainBody_cases E d with ⟨_, hstop⟩ | ⟨_, hok, hne, hnext⟩ | ⟨hrun, hempty, hnext⟩ |
    ⟨_, _, _, hfault⟩ | ⟨hrun, hok, heap, pkt, _, hnext⟩
  · rw [hstop] at hb; cases hb
  · -- an error is only reported for a FIFO with something in it
    obtain rfl : (d.afterGet E).countError = d' := by simpa [hnext] using hb
    have hkeep : fifo (d.got E).lib = fifo d.env.lib := hlib.get_error _ _ _ hok
    have hsome : fifo d.env.lib ≠ [] := fun he => hne ((hlib.get_empty _ _ _).mpr he)
    constructor
    · change d.env.err + 1 = failures (d.afterGet E).env.calls
      rw [hcalls, countFailure, if_pos ⟨hok, hne⟩]
    · intro _ hnil
      exact hsome (hkeep ▸ hnil)
    · intro hret
      exact absurd (Ret.status.inj hret) hne
  · obtain rfl : d.afterGet E = d' := by simpa [hnext] using hb
    have hnot : (d.got E).status ≠ .ok := by simp [hempty]
    have hnil : fifo d.env.lib = [] := (hlib.get_empty _ _ _).mp hempty
    constructor
    · change d.env.err = failures (d.afterGet E).env.calls
      rw [hcalls, countFailure, if_neg (fun hc => hc.2 hempty)]
    · intro hfive
      exact absurd hrun.2 (Nat.not_lt.mpr hfive)
    · intro _
      exact (hlib.get_error _ _ _ hnot).trans hnil
  · rw [hfault] at hb; cases hb
  · obtain rfl : (d.afterGet E).send E heap pkt = d' := by simpa [hnext] using hb
    obtain ⟨ret, hsend, hret⟩ := (d.afterGet E).send_calls E heap pkt
    constructor
    · rw [hsend, failures_append, hcalls, countFailure, countFailure,
        if_neg (fun hc => hc.1 hok)]
      rfl
    · intro hfive
      exact absurd hrun.2 (Nat.not_lt.mpr hfive)
    · intro hempty
      rw [hret] at hempty
      cases hempty

/-- However the drain loop is left, the failures tell what it leaves behind. -/
theorem Draining.stop {E : EncapConf σ ω} {fifo : σ → List π} {d d' : Drain σ ω}
    (h : Draining fifo d) (hb : drainBody E d = .stop d') :
    fifo d'.env.lib = [] ↔ failures d'.env.calls < 5 := by
  rcases drainBody_cases E d with ⟨hrun, hstop⟩ | ⟨_, _, _, hnext⟩ | ⟨_, _, hnext⟩ |
    ⟨_, _, _, hfault⟩ | ⟨_, _, _, _, _, hnext⟩
  · obtain rfl : d = d' := by simpa [hstop] using hb
    rw [← h.err]
    constructor
    · intro hnil
      exact Nat.lt_of_not_le fun hfive => h.full hfive hnil
    · intro hfive
      by_cases hret : d.ret = .status .fifoEmpty
      · exact h.empty hret
      · exact absurd ⟨hret, hfive⟩ hrun
  · rw [hnext] at hb; cases hb
  · rw [hnext] at hb; cases hb
  · rw [hfault] at hb; cases hb
  · rw [hnext] at hb; cases hb

/-! ### Runs -/

theorem encapStep_fifo {E : EncapConf σ ω} {fifo : σ → List π} (hlib : FifoLaws E.lib fifo)
    {bound : Nat} {event : EncapEvent} {s t : EncapState σ ω}
    (h : fifo s.lib = [] ↔ failures s.calls < 5) (hstep : encapStep E bound event s = .next t) :
    fifo t.lib = [] ↔ failures t.calls < 5 := by
  by_cases halive : s.alive ≠ 0
  · simp only [encapStep, if_pos halive] at hstep
    cases hstep
  simp only [encapStep, if_neg halive] at hstep
  have hcreated : ∀ heap, fifo (s.afterRead E heap).lib = fifo s.lib :=
    fun _ => hlib.create _ _ _ _ _
  cases event with
  | timeout =>
    obtain rfl : s = t := by simpa using hstep
    exact h
  | pselectFailed => cases hstep
  | readable read =>
    rcases receiveFrame_cases E read s with ⟨heap, hr⟩ | ⟨heap, hr⟩ | ⟨heap, pdu, hno, hr⟩ |
      ⟨heap, pdu, hok, hr⟩
    · simp only [hr] at hstep
      cases hstep
    · obtain rfl : s.afterRead E heap = t := by simpa [hr] using hstep
      rw [hcreated]
      exact h
    · obtain rfl : (s.afterRead E heap).afterReceive E pdu = t := by simpa [hr] using hstep
      have hkeep : fifo ((s.afterRead E heap).received E pdu).2 = fifo s.lib :=
        (hlib.receive_error _ _ _ hno).trans (hcreated heap)
      change fifo ((s.afterRead E heap).received E pdu).2 = [] ↔ failures (s.calls ++ [_]) < 5
      rw [hkeep, failures_append, countFailure, if_neg hno]
      exact h
    · simp only [hr] at hstep
      cases hloop : loop (drainBody E) bound
          ⟨{ (s.afterRead E heap).afterReceive E pdu with err := 0 }, pdu,
            .status ((s.afterRead E heap).received E pdu).1, E.params.payloadLen⟩ with
      | next d => exact absurd hloop (loop_ne_next _ _ _ _)
      | stop d =>
        obtain rfl : d.env = t := by simpa [hloop] using hstep
        -- the counter of errors starts again with each admitted PDU
        refine loop_stop (Draining fifo) (fun d => fifo d.env.lib = [] ↔
          failures d.env.calls < 5) (fun _ _ => Draining.next hlib) (fun _ _ => Draining.stop)
          ⟨?_, fun hfive => absurd hfive (Nat.not_succ_le_zero 4), ?_⟩ hloop
        · change 0 = failures (s.calls ++ [_])
          rw [failures_append, countFailure, if_pos hok]
        · intro hempty
          rw [hok] at hempty
          cases hempty
      | fault d => rw [hloop] at hstep; cases hstep
      | hang d => rw [hloop] at hstep; cases hstep

/-- **When `satencap` leaves no PDU behind.** In every run, whatever frames arrive and
    whatever the library calls and `write_udp` answer: back at `pselect` the FIFO is empty
    exactly if fewer than five packets failed since a PDU was last admitted. -/
theorem fifo_empty_iff (E : EncapConf σ ω) {fifo : σ → List π} (hlib : FifoLaws E.lib fifo)
    (bound : Nat) (events : List EncapEvent) (lib : σ) (net : ω) (heap : Heap)
    (hinit : fifo lib = []) (s : EncapState σ ω)
    (hrun : processEncap E bound events (.init lib net heap) = .next s) :
    fifo s.lib = [] ↔ failures s.calls < 5 := by
  refine feed_next (fun s : EncapState σ ω => fifo s.lib = [] ↔ failures s.calls < 5) events
    (fun _ _ _ _ => encapStep_fifo hlib) ?_ hrun
  simp [EncapState.init, hinit, failures]

/-- A libgse that only counts the PDUs in its FIFO and takes each for one packet, or
    fails on it. -/
def countingLib (fails : Bool) : Encapsulator Nat where
  gseCreateVfrag n _ maxLength headOffset trailOffset :=
    ⟨.ok, ⟨0, headOffset, 0⟩, n, fun _ => ⟨headOffset + maxLength + trailOffset, fun _ => 0⟩⟩
  gseSetVfragLength _ v len := (.ok, { v with length := len })
  gseGetVfragLength _ v := v.length
  gseEncapReceivePdu n _ _ := (.ok, n + 1)
  gseEncapGetPacket n heap _ :=
    if n = 0 then ⟨.fifoEmpty, ⟨0, 0, 0⟩, n, heap⟩
    else if fails then ⟨.other 0, ⟨0, 0, 0⟩, n, heap⟩
    else ⟨.ok, ⟨0, 13, 1⟩, n - 1, heap⟩

def countingConf (fails : Bool) : EncapConf Nat Unit where
  gse := ⟨13, 4⟩
  lib := countingLib fails
  sendto net data := (data.length, net)
  params := ⟨⟨[], ⟨0, 0⟩, ⟨0, 0⟩, ⟨0, 1⟩, 8192, 0⟩, ⟨0, 1⟩⟩

theorem countingLib_fifo (fails : Bool) :
    FifoLaws (countingLib fails) fun n => List.replicate n () where
  create _ _ _ _ _ := rfl
  receive_ok n _ _ _ := ⟨(), List.replicate_succ'⟩
  receive_error _ _ _ h := absurd rfl h
  get_empty n heap len := by
    cases n <;> cases fails <;> simp [countingLib]
  get_ok n heap len := by
    cases n <;> cases fails <;> simp [countingLib, List.replicate_succ]
  get_error n heap len := by
    cases n <;> cases fails <;> simp [countingLib]

/-- One frame, emitted as one packet. -/
theorem fifo_empty_after_packet : ∃ s,
    processEncap (countingConf false) 3 [.readable (some [7])]
      (.init 0 () fun _ => ⟨0, fun _ => 0⟩) = .next s ∧
      (List.replicate s.lib () = [] ↔ failures s.calls < 5) :=
  ⟨_, rfl, fifo_empty_iff (countingConf false) (countingLib_fifo false) 3
    [.readable (some [7])] 0 () (fun _ => ⟨0, fun _ => 0⟩) rfl _ rfl⟩

/-- One frame whose PDU cannot be encapsulated: it is still in the FIFO when the next
    frame is waited for. -/
theorem failing_pdu_stays : FifoLaws (countingConf true).lib (fun n => List.replicate n ()) ∧
    ∃ s, processEncap (countingConf true) 6 [.readable (some [7])]
        (.init 0 () fun _ => ⟨0, fun _ => 0⟩) = .next s ∧ List.replicate s.lib () ≠ [] :=
  ⟨countingLib_fifo true, _, rfl, by decide⟩

end DvbGseTunnel
