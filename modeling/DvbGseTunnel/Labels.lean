import DvbGseTunnel.ProcessEncap
import DvbGseTunnel.Rust.Satencap

/-!
# Labels of PDUs

Both encapsulators derive the label of a PDU from a 64-bit counter. The six shifts
skip the bits 24 to 31 and 40 to 47 of the counter, so two PDUs whose counters
differ in these bits only get one label (`pduLabel_eq_iff`). In C, where the counter
is the number of the PDU, labels are therefore distinct for as long as there are at
most 2^24 PDUs, and no longer. In Rust it is one more than the number of datagrams sent
before the PDU, so there it depends on the packets that the frames before take.
-/

namespace DvbGseTunnel

open Lib

/-! ### The bits a label keeps -/

/-- Two counters agree on the bits that go into a label. -/
def SameLabelBits (c c' : UInt64) : Prop :=
  c.toNat % 2 ^ 24 = c'.toNat % 2 ^ 24 ∧
    c.toNat / 2 ^ 32 % 2 ^ 8 = c'.toNat / 2 ^ 32 % 2 ^ 8 ∧
    c.toNat / 2 ^ 48 = c'.toNat / 2 ^ 48

instance (c c' : UInt64) : Decidable (SameLabelBits c c') :=
  inferInstanceAs (Decidable (_ ∧ _ ∧ _))

/-- A byte of a label is eight bits of the counter. -/
theorem shifted_byte_eq_iff (c c' k : UInt64) (hk : k.toNat < 64) :
    ((c >>> k) &&& 0xff).toUInt8 = ((c' >>> k) &&& 0xff).toUInt8 ↔
      c.toNat / 2 ^ k.toNat % 256 = c'.toNat / 2 ^ k.toNat % 256 := by
  have hbyte : ∀ c : UInt64,
      ((c >>> k) &&& 0xff).toUInt8.toNat = c.toNat / 2 ^ k.toNat % 256 := by
    intro c
    rw [UInt64.toNat_toUInt8, UInt64.toNat_and, UInt64.toNat_shiftRight, Nat.mod_eq_of_lt hk,
      show (255 : UInt64).toNat = 2 ^ 8 - 1 from rfl, Nat.and_two_pow_sub_one_eq_mod,
      Nat.shiftRight_eq_div_pow, Nat.mod_mod]
  rw [← UInt8.toNat_inj, hbyte, hbyte]

/-- Of 64-bit numbers, the bytes at the bits 0, 8, 16, 32, 48 and 56 are three
    ranges of bits. -/
theorem kept_bytes_eq_iff {n m : Nat} (hn : n < 2 ^ 64) (hm : m < 2 ^ 64) :
    (n % 256 = m % 256 ∧ n / 2 ^ 8 % 256 = m / 2 ^ 8 % 256 ∧
      n / 2 ^ 16 % 256 = m / 2 ^ 16 % 256 ∧ n / 2 ^ 32 % 256 = m / 2 ^ 32 % 256 ∧
      n / 2 ^ 48 % 256 = m / 2 ^ 48 % 256 ∧ n / 2 ^ 56 % 256 = m / 2 ^ 56 % 256) ↔
    n % 2 ^ 24 = m % 2 ^ 24 ∧ n / 2 ^ 32 % 2 ^ 8 = m / 2 ^ 32 % 2 ^ 8 ∧
      n / 2 ^ 48 = m / 2 ^ 48 := by
  constructor
  · rintro ⟨h0, h8, h16, h32, h48, h56⟩
    refine ⟨?_, h32, ?_⟩
    · clear h32 h48 h56 hn hm
      omega
    · clear h0 h8 h16 h32
      omega
  · rintro ⟨hlow, hmid, hhigh⟩
    refine ⟨?_, ?_, ?_, hmid, ?_, ?_⟩
    · clear hmid hhigh; omega
    · clear hmid hhigh; omega
    · clear hmid hhigh; omega
    · rw [hhigh]
    · clear hmid hlow; omega

theorem label_bytes_eq_iff (c c' : UInt64) :
    (∀ k ∈ [(0 : UInt64), 8, 16, 32, 48, 56],
      ((c >>> k) &&& 0xff).toUInt8 = ((c' >>> k) &&& 0xff).toUInt8) ↔ SameLabelBits c c' := by
  rw [SameLabelBits, ← kept_bytes_eq_iff c.toNat_lt c'.toNat_lt]
  simp only [List.forall_mem_cons, List.not_mem_nil, false_implies, implies_true, and_true]
  rw [shifted_byte_eq_iff c c' 0 (by decide), shifted_byte_eq_iff c c' 8 (by decide),
    shifted_byte_eq_iff c c' 16 (by decide), shifted_byte_eq_iff c c' 32 (by decide),
    shifted_byte_eq_iff c c' 48 (by decide), shifted_byte_eq_iff c c' 56 (by decide)]
  simp only [UInt64.reduceToNat, Nat.pow_zero, Nat.div_one]

theorem pduLabel_eq_iff (c c' : UInt64) : pduLabel c = pduLabel c' ↔ SameLabelBits c c' := by
  rw [← label_bytes_eq_iff, pduLabel, pduLabel]
  simp only [Vector.mk.injEq, Array.mk.injEq, List.cons.injEq, List.forall_mem_cons,
    List.not_mem_nil, false_implies, implies_true, and_true, UInt64.shiftRight_zero]

/-- The Rust label has the bytes of the C label in the opposite order. -/
theorem Rust.pduLabel_eq_iff (c c' : UInt64) :
    Rust.pduLabel c = Rust.pduLabel c' ↔ SameLabelBits c c' := by
  rw [← label_bytes_eq_iff, Rust.pduLabel, Rust.pduLabel]
  simp only [Vector.mk.injEq, Array.mk.injEq, List.cons.injEq, List.forall_mem_cons,
    List.not_mem_nil, false_implies, implies_true, and_true, UInt64.shiftRight_zero]
  exact ⟨fun ⟨h56, h48, h32, h16, h8, h0⟩ => ⟨h0, h8, h16, h32, h48, h56⟩,
    fun ⟨h0, h8, h16, h32, h48, h56⟩ => ⟨h56, h48, h32, h16, h8, h0⟩⟩

/-! ### Runs -/

/-- The PDUs that reach the encapsulation step with a counter below 2^48, given by
    their counters and labels, have different labels. -/
def LabelsDiffer (pdus : List (UInt64 × Label)) : Prop :=
  pdus.Pairwise fun p q => p.1.toNat < 2 ^ 48 → q.1.toNat < 2 ^ 48 → p.2 ≠ q.2

def encapPdus (calls : List EncapCall) : List (UInt64 × Label) :=
  calls.filterMap fun
    | .receivePdu counter label _ => some (counter, label)
    | _ => none

@[simp] theorem encapPdus_append (calls calls' : List EncapCall) :
    encapPdus (calls ++ calls') = encapPdus calls ++ encapPdus calls' :=
  List.filterMap_append

/-- The first `n` PDUs of a run of `process_encap`: the counter is the number of the
    PDU. -/
def numberedPdus (n : Nat) : List (UInt64 × Label) :=
  (List.range n).map fun i => (UInt64.ofNat (i + 1), pduLabel (UInt64.ofNat (i + 1)))

theorem numberedPdus_succ (n : Nat) :
    numberedPdus (n + 1) =
      numberedPdus n ++ [(UInt64.ofNat n + 1, pduLabel (UInt64.ofNat n + 1))] := by
  rw [numberedPdus, List.range_succ, List.map_append]
  simp [numberedPdus]

/-- In every run, whatever libgse and the kernel do, the PDUs are labelled from
    their numbers. -/
theorem processEncap_pdus {σ ω : Type} (E : EncapConf σ ω) (bound : Nat)
    (events : List EncapEvent) (lib : σ) (net : ω) (heap : Heap) :
    ∃ n, encapPdus (processEncap E bound events (.init lib net heap)).state.calls =
      numberedPdus n := by
  let I : UInt64 → List EncapCall → Prop := fun c calls =>
    ∃ n, c = UInt64.ofNat n ∧ encapPdus calls = numberedPdus n
  have hrun : I (processEncap E bound events (.init lib net heap)).state.counter
      (processEncap E bound events (.init lib net heap)).state.calls := by
    refine processEncap_log ?_ ?_ ?_ bound events ⟨0, rfl, rfl⟩
    · rintro c calls status ⟨n, rfl, hn⟩
      refine ⟨n + 1, by simp, ?_⟩
      rw [encapPdus_append, hn, numberedPdus_succ]
      rfl
    · rintro c calls len status ⟨n, hc, hn⟩
      exact ⟨n, hc, by rw [encapPdus_append, hn]; exact List.append_nil _⟩
    · rintro c calls data ret ⟨n, hc, hn⟩
      exact ⟨n, hc, by rw [encapPdus_append, hn]; exact List.append_nil _⟩
  obtain ⟨n, _, hn⟩ := hrun
  exact ⟨n, hn⟩

/-- Numbered PDUs have different labels exactly as long as there are at most 2^24
    of them. -/
theorem numberedPdus_differ_iff (n : Nat) :
    LabelsDiffer (numberedPdus n) ↔ (numberedPdus n).length ≤ 2 ^ 24 := by
  have hlen : (numberedPdus n).length = n := by simp [numberedPdus]
  have hget : ∀ i (hi : i < (numberedPdus n).length), (numberedPdus n)[i] =
      (UInt64.ofNat (i + 1), pduLabel (UInt64.ofNat (i + 1))) := by
    intro i hi
    simp [numberedPdus]
  rw [LabelsDiffer, List.pairwise_iff_getElem]
  constructor
  · intro hdiffer
    -- the PDU after the first 2^24 has the label of the first
    by_contra hmany
    have hne := hdiffer 0 (2 ^ 24) (by omega) (by omega) (by omega)
    rw [hget, hget] at hne
    exact hne (by decide) (by decide) ((pduLabel_eq_iff _ _).mpr (by decide))
  · intro hn i j hi hj hij
    rw [hget, hget]
    intro _ _ heq
    have hbits := ((pduLabel_eq_iff _ _).mp heq).1
    rw [UInt64.toNat_ofNat_of_lt' (by simp [UInt64.size]; omega),
      UInt64.toNat_ofNat_of_lt' (by simp [UInt64.size]; omega)] at hbits
    omega

namespace Rust

variable {σ κ ω : Type}

/-- The number of datagrams sent when each PDU reaches the encapsulation. -/
def sentBefore (E : EncapConf σ κ ω) (bound : Nat) :
    List (Option (List UInt8)) → EncapState σ ω → List Nat
  | [], _ => []
  | none :: _, _ => []
  | some frame :: frames, s =>
    s.sent.length :: match encapStep E bound (some frame) s with
      | .next t => sentBefore E bound frames t
      | .stop _ => []
      | .fault _ => []
      | .hang _ => []

/-- The PDUs before which so many datagrams were sent: the counter is one more. -/
def countedPdus (sent : List Nat) : List (UInt64 × Label) :=
  sent.map fun n => (UInt64.ofNat (n + 1), pduLabel (UInt64.ofNat (n + 1)))

/-- The counter is one more than the number of datagrams sent. -/
def CountsSent (s : EncapState σ ω) : Prop := s.counter = UInt64.ofNat (s.sent.length + 1)

/-- A pass of the inner loop that goes on or ends it counts the datagram it sends. -/
theorem sendBody_counts (E : EncapConf σ κ ω) {d d' : Sending σ κ ω} (h : CountsSent d.env)
    (hbody : sendBody E d = .next d' ∨ sendBody E d = .stop d') : CountsSent d'.env := by
  have hsent : ∀ payload net datagram context,
      CountsSent (((d.afterCall E).afterSend payload net).sentDatagram datagram context).env := by
    intro payload net datagram context
    change d.env.counter + 1 = UInt64.ofNat ((d.env.sent ++ [datagram]).length + 1)
    rw [h, List.length_append, List.length_singleton]
    exact (UInt64.ofNat_add _ 1).symm
  rcases sendBody_cases E d with ⟨payload, net, panic, hb⟩ |
    ⟨status, payload, len, datagram, net, _, _, _, ⟨_, hb⟩ | ⟨_, hb⟩⟩
  · rw [hb] at hbody
    rcases hbody with hnext | hstop
    · cases hnext
    · cases hstop
  · rw [hb] at hbody
    rcases hbody with hnext | hstop
    · cases hnext
    · obtain rfl := Flow.stop.inj hstop
      exact hsent payload net datagram none
  · rw [hb] at hbody
    rcases hbody with hnext | hstop
    · obtain rfl := Flow.next.inj hnext
      exact hsent payload net datagram status.split.2
    · cases hstop

theorem sendBody_pdus (E : EncapConf σ κ ω) (d : Sending σ κ ω) :
    (sendBody E d).state.env.pdus = d.env.pdus := by
  rcases sendBody_cases E d with ⟨payload, net, panic, hb⟩ |
    ⟨status, payload, len, datagram, net, _, _, _, ⟨_, hb⟩ | ⟨_, hb⟩⟩
  · rw [hb]; rfl
  · rw [hb]; rfl
  · rw [hb]; rfl

/-- A frame is one PDU, labelled from the counter; the counter is right again when the
    loop is back at `recv`. -/
theorem encapStep_counts (E : EncapConf σ κ ω) (bound : Nat) (frame : List UInt8)
    {s : EncapState σ ω} (h : CountsSent s) :
    (encapStep E bound (some frame) s).state.pdus = s.pdus ++ countedPdus [s.sent.length] ∧
      (∀ t, encapStep E bound (some frame) s ≠ .stop t) ∧
      ∀ t, encapStep E bound (some frame) s = .next t → CountsSent t := by
  have hpdus : (loop (sendBody E) bound (Sending.start frame s)).state.env.pdus =
      s.pdus ++ countedPdus [s.sent.length] := by
    refine loop_inv (fun d : Sending σ κ ω => d.env.pdus = s.pdus ++ countedPdus [s.sent.length])
      (fun d hd => (sendBody_pdus E d).trans hd) bound ?_
    change s.pdus ++ [(s.counter, pduLabel s.counter)] = _
    rw [h]
    rfl
  have hcounts : ∀ d, loop (sendBody E) bound (Sending.start frame s) = .stop d →
      CountsSent d.env := by
    intro d hstop
    exact loop_stop (fun d : Sending σ κ ω => CountsSent d.env) (fun d => CountsSent d.env)
      (fun u v hu hv => sendBody_counts E hu (.inl hv))
      (fun u v hu hv => sendBody_counts E hu (.inr hv))
      (show CountsSent (Sending.start (κ := κ) frame s).env from h) hstop
  simp only [encapStep, Flow.state_leave]
  refine ⟨hpdus, ?_⟩
  cases hloop : loop (sendBody E) bound (Sending.start frame s) with
  | next d => exact absurd hloop (loop_ne_next _ _ _ _)
  | stop d =>
    refine ⟨nofun, fun t ht => ?_⟩
    obtain rfl := Flow.next.inj ht
    exact hcounts d hloop
  | fault d => exact ⟨nofun, nofun⟩
  | hang d => exact ⟨nofun, nofun⟩

/-- In every run, whatever the encapsulator and the kernel do, a PDU is labelled from the
    number of datagrams sent before it. -/
theorem runtimeEncap_pdus (E : EncapConf σ κ ω) (bound : Nat)
    (frames : List (Option (List UInt8))) {s : EncapState σ ω} (h : CountsSent s) :
    (runtimeEncap E bound frames s).state.pdus =
      s.pdus ++ countedPdus (sentBefore E bound frames s) := by
  unfold runtimeEncap
  induction frames generalizing s with
  | nil => exact (List.append_nil _).symm
  | cons recv frames ih =>
    rw [feed_cons]
    cases recv with
    | none => exact (List.append_nil _).symm
    | some frame =>
      obtain ⟨hpdus, hstop, hnext⟩ := encapStep_counts E bound frame h
      have hcounted : countedPdus (sentBefore E bound (some frame :: frames) s) =
          countedPdus [s.sent.length] ++
            countedPdus (sentBefore E bound (some frame :: frames) s).tail := rfl
      rw [hcounted, ← List.append_assoc]
      cases hstep : encapStep E bound (some frame) s with
      | next t =>
        rw [hstep] at hpdus
        have htail : (sentBefore E bound (some frame :: frames) s).tail =
            sentBefore E bound frames t := by
          simp only [sentBefore, hstep, List.tail_cons]
        rw [htail, ← hpdus]
        exact ih (hnext t hstep)
      | stop t => exact absurd hstep (hstop t)
      | fault t =>
        rw [hstep] at hpdus
        simp only [sentBefore, hstep, List.tail_cons]
        exact hpdus.trans (List.append_nil _).symm
      | hang t =>
        rw [hstep] at hpdus
        simp only [sentBefore, hstep, List.tail_cons]
        exact hpdus.trans (List.append_nil _).symm

theorem countedPdus_differ_iff (sent : List Nat) :
    LabelsDiffer (countedPdus sent) ↔ sent.Pairwise fun n m =>
      (UInt64.ofNat (n + 1)).toNat < 2 ^ 48 → (UInt64.ofNat (m + 1)).toNat < 2 ^ 48 →
        ¬SameLabelBits (UInt64.ofNat (n + 1)) (UInt64.ofNat (m + 1)) := by
  rw [LabelsDiffer, countedPdus, List.pairwise_map]
  simp only [Ne, pduLabel_eq_iff]

end Rust

/-- **When labels identify PDUs.** In a run of the C `satencap` exactly when at most
    2^24 PDUs reach the encapsulation step; in a run of the Rust `satencap` exactly when
    no two PDUs that reach it have numbers of datagrams sent before them that, each plus
    one, agree on the bits a label keeps. -/
theorem labels_differ_iff {σ ω σ' κ ω' : Type} (bound : Nat)
    (E : EncapConf σ ω) (events : List EncapEvent) (lib : σ) (net : ω) (heap : Heap)
    (R : Rust.EncapConf σ' κ ω') (frames : List (Option (List UInt8))) (lib' : σ') (net' : ω') :
    let pdus := encapPdus (processEncap E bound events (.init lib net heap)).state.calls
    let pdus' := (Rust.runtimeEncap R bound frames (.init lib' net')).state.pdus
    (LabelsDiffer pdus ↔ pdus.length ≤ 2 ^ 24) ∧
      (LabelsDiffer pdus' ↔
        (Rust.sentBefore R bound frames (.init lib' net')).Pairwise fun n m =>
          (UInt64.ofNat (n + 1)).toNat < 2 ^ 48 → (UInt64.ofNat (m + 1)).toNat < 2 ^ 48 →
            ¬SameLabelBits (UInt64.ofNat (n + 1)) (UInt64.ofNat (m + 1))) := by
  intro pdus pdus'
  constructor
  · obtain ⟨n, hn⟩ := processEncap_pdus E bound events lib net heap
    simp only [pdus, hn]
    exact numberedPdus_differ_iff n
  · have hpdus := Rust.runtimeEncap_pdus R bound frames (s := .init lib' net') rfl
    simp only [pdus', hpdus]
    exact Rust.countedPdus_differ_iff _

/-- A libgse whose FIFO is always full: it makes fragments and refuses every PDU. -/
def refusingLib : Encapsulator Unit where
  gseCreateVfrag _ _ maxLength headOffset trailOffset :=
    ⟨.ok, ⟨0, headOffset, 0⟩, (), fun _ => ⟨headOffset + maxLength + trailOffset, fun _ => 0⟩⟩
  gseSetVfragLength _ v len := (.ok, { v with length := len })
  gseGetVfragLength _ v := v.length
  gseEncapReceivePdu _ _ _ := (.other 0, ())
  gseEncapGetPacket _ heap _ := ⟨.fifoEmpty, ⟨0, 0, 0⟩, (), heap⟩

def refusingConf : EncapConf Unit Unit where
  gse := ⟨13, 4⟩
  lib := refusingLib
  sendto net data := (data.length, net)
  params := ⟨⟨[], ⟨0, 0⟩, ⟨0, 0⟩, ⟨0, 1⟩, 8192, 1500⟩, ⟨0, 1⟩⟩

theorem refusingConf_run (n : Nat) {s : EncapState Unit Unit} (hs : s.alive = 0) :
    (encapPdus (processEncap refusingConf 0
      (List.replicate n (.readable (some [0]))) s).state.calls).length =
      (encapPdus s.calls).length + n := by
  induction n generalizing s with
  | zero => rfl
  | succ n ih =>
    have hframe : receiveFrame refusingConf (some [0]) s = _ :=
      receiveFrame_of_fits refusingConf s (by decide)
        (show 13 + 1 ≤ 13 + GSE_MAX_PDU_LENGTH + 4 by decide)
    have hstep : ∃ t, encapStep refusingConf 0 (.readable (some [0])) s = .next t ∧
        t.alive = 0 ∧ (encapPdus t.calls).length = (encapPdus s.calls).length + 1 := by
      simp only [encapStep, if_neg (fun h : s.alive ≠ 0 => h hs), hframe, submitPdu]
      refine ⟨_, rfl, hs, ?_⟩
      simp only [EncapState.afterReceive, encapPdus_append, List.length_append]
      rfl
    obtain ⟨t, ht, halive, hlen⟩ := hstep
    rw [processEncap, List.replicate_succ, feed_cons, ht]
    exact (ih halive).trans (by rw [hlen]; omega)

namespace Rust

/-- An encapsulator that makes one packet of one byte of every PDU. -/
def oneByteLib : Encapsulator Unit Unit where
  encap _ _ _ _ _ buffer := ⟨some (.completedPkt 1), buffer, ()⟩
  encapFrag _ _ _ buffer := ⟨some (.completedPkt 1), buffer, ()⟩

def oneByteConf : EncapConf Unit Unit Unit := ⟨oneByteLib, fun net _ => (true, net), 0⟩

theorem oneByteConf_step {s : EncapState Unit Unit}
    (hs : 0 < s.payload.length ∧ s.payload.length < 2 ^ 16) :
    ∃ t, encapStep oneByteConf 1 (some [0]) s = .next t ∧
      t.payload.length = s.payload.length ∧ t.sent.length = s.sent.length + 1 := by
  have hlength : (s.payload.take 1).length = 1 := by
    rw [List.length_take]
    omega
  have hwrote : Wrote ((Sending.start [0] s).call oneByteConf) s.payload (s.payload.take 1) none :=
    ⟨by rw [hlength]; rfl, by rw [hlength]; exact (List.take_append_drop 1 _).symm,
      by rw [hlength]; exact hs.1⟩
  obtain ⟨payload, hkeep, ⟨hfailed, _⟩ | ⟨_, _, hbody⟩ | ⟨_, hcontext, _⟩⟩ :=
    sendBody_of_wrote hwrote hs.2 (Nat.zero_le _)
  · cases hfailed
  · obtain ⟨d, hstop, hpayload, hsent⟩ : ∃ d, sendBody oneByteConf (Sending.start [0] s) = .stop d ∧
        d.env.payload.length = s.payload.length ∧ d.env.sent.length = s.sent.length + 1 :=
      ⟨_, hbody, hkeep, List.length_append⟩
    refine ⟨d.env, ?_, hpayload, hsent⟩
    rw [encapStep, loop_succ, hstop]
    rfl
  · exact absurd rfl hcontext

theorem oneByteConf_sentBefore (n : Nat) {s : EncapState Unit Unit}
    (hs : 0 < s.payload.length ∧ s.payload.length < 2 ^ 16) :
    sentBefore oneByteConf 1 (List.replicate n (some [0])) s = List.range' s.sent.length n := by
  induction n generalizing s with
  | zero => rfl
  | succ n ih =>
    obtain ⟨t, ht, hpayload, hsent⟩ := oneByteConf_step hs
    rw [← hpayload] at hs
    rw [List.replicate_succ, sentBefore, ht, List.range'_succ, ← hsent]
    exact congrArg (List.cons s.sent.length) (ih hs)

end Rust

/-- In C the PDU after the first 2^24 gets the label of the first one, and in Rust the PDU
    before which 2^24 datagrams were sent. -/
theorem labels_collide :
    ¬LabelsDiffer (encapPdus (processEncap refusingConf 0
      (List.replicate (2 ^ 24 + 1) (.readable (some [0])))
      (.init () () fun _ => ⟨0, fun _ => 0⟩)).state.calls) ∧
    ¬LabelsDiffer (Rust.runtimeEncap Rust.oneByteConf 1
      (List.replicate (2 ^ 24 + 1) (some [0])) (.init () ())).state.pdus := by
  constructor
  · obtain ⟨n, hn⟩ := processEncap_pdus refusingConf 0
      (List.replicate (2 ^ 24 + 1) (.readable (some [0]))) () () fun _ => ⟨0, fun _ => 0⟩
    have hlen := refusingConf_run (2 ^ 24 + 1)
      (s := .init () () fun _ => ⟨0, fun _ => 0⟩) rfl
    rw [hn] at hlen ⊢
    rw [numberedPdus_differ_iff, hlen]
    simp [EncapState.init, encapPdus]
  · have hpayload : (Rust.EncapState.init () ()).payload.length = 4097 := List.length_replicate
    rw [Rust.runtimeEncap_pdus Rust.oneByteConf 1 _ (s := .init () ()) rfl,
      Rust.oneByteConf_sentBefore (2 ^ 24 + 1) (by rw [hpayload]; decide)]
    change ¬LabelsDiffer (Rust.countedPdus (List.range' 0 (2 ^ 24 + 1)))
    rw [Rust.countedPdus_differ_iff, List.pairwise_iff_getElem]
    intro hdiffer
    have hlast := hdiffer 0 (2 ^ 24) (by rw [List.length_range']; omega)
      (by rw [List.length_range']; omega) (by omega)
    rw [List.getElem_range', List.getElem_range'] at hlast
    exact hlast (by decide) (by decide) (by decide)

end DvbGseTunnel
