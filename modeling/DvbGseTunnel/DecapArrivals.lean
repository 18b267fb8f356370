import DvbGseTunnel.DecapIsolation
import DvbGseTunnel.DecapWalk
import DvbGseTunnel.Lib.Arrivals

/-!
# The receiver on whatever arrives

`process_decap` on the padded packets of a sender, in whatever order and number they
arrive, between timeouts and datagrams from elsewhere. Each datagram has one effect on
libgse and one result (`Decapsulator.handle`), which depend on the state of libgse alone
(`decap_handles`). With a libgse that starts afresh at each first packet the receiver is
one that restarts (`handle_restarts`).
-/

namespace DvbGseTunnel

open Lib

variable {δ : Type}

/-- What the walk of a packet and the zeros after it hands out, and the next state of
    libgse. -/
def Decapsulator.handle (D : Decapsulator δ) (len : Nat) (d : δ) (p : Bytes) :
    Option Bytes × δ :=
  ((D.receive d (padTo len p)).1,
    if p.length < len then
      (D.deencap (D.receive d (padTo len p)).2 (List.replicate (len - p.length) 0)).lib
    else (D.receive d (padTo len p)).2)

section

variable {D : Decapsulator δ} {S : Segmentation} {Awaits : δ → List Bytes → Bytes → Prop}

theorem handle_keeps (h : PacketLaws D S (fun _ => True) Awaits) (len : Nat) {d : δ} {p : Bytes}
    {ps : List Bytes} {m : Bytes} (hawaits : Awaits d (p :: ps) m) :
    (D.handle len d p).1 = (D.receive d p).1 ∧
      Keeps (fun _ => True) Awaits (D.receive d p).2 (D.handle len d p).2 := by
  obtain ⟨-, -, hreceive⟩ := h.packet (len - p.length) hawaits
  have hsame : D.receive d (padTo len p) = D.receive d p := hreceive
  rw [Decapsulator.handle, hsame]
  refine ⟨rfl, ?_⟩
  by_cases hpad : p.length < len
  · rw [if_pos hpad]
    exact (h.padding _ (Nat.sub_pos_of_lt hpad)).2
  · rw [if_neg hpad]
    exact .refl _ _ _

theorem handle_restarts (h : PacketLaws D S (fun _ => True) Awaits) (len : Nat) :
    Restarts S (D.handle len) Awaits where
  start := h.reassembles.start
  more := by
    intro d p ps m hawaits hne
    obtain ⟨hnone, hnext⟩ := h.reassembles.more hawaits hne
    obtain ⟨hout, hkeeps⟩ := handle_keeps h len hawaits
    exact ⟨hout.trans hnone, hkeeps.2 ps m hnext⟩
  done := by
    intro d p m hawaits
    obtain ⟨hmessage, -⟩ := h.reassembles.done hawaits
    obtain ⟨hout, -⟩ := handle_keeps h len hawaits
    exact ⟨hout.trans hmessage, trivial⟩

/-! ### One datagram -/

/-- The walk of a packet and its padding, from every state of libgse. -/
theorem walk_handles (h : WalkLaws D S.IsPacket) {w : Walk δ} {p : Bytes} (hp : S.IsPacket p)
    {len : Nat} (hwindow : w.window = padTo len p) (halive : w.env.alive = 0) {bound : Nat}
    (hbound : 2 ≤ bound) :
    ∃ u, loop (decapBody D) bound w = .stop u ∧
      u.env.lib = (D.handle len w.env.lib p).2 ∧
      u.env.tap = w.env.tap ++ (D.handle len w.env.lib p).1.toList ∧ u.env.alive = 0 ∧
      u.env.dataReceived = w.env.dataReceived := by
  obtain ⟨n, rfl⟩ := Nat.exists_eq_add_of_le' hbound
  obtain ⟨hbody, hrest⟩ := walk_step h halive hp hwindow
  obtain ⟨hlib, htap, halive', hdata, -, -⟩ := w.advance_spec h.vfrag
  rw [hwindow] at hlib htap
  rw [loop_succ, hbody, Flow.next_andThen, loop_succ]
  have hadvanced : (w.advance D).env.alive = 0 := halive'.trans halive
  rw [Decapsulator.handle]
  by_cases hpad : p.length < len
  · -- the second pass finds the padding
    obtain ⟨k, hk⟩ := Nat.exists_eq_succ_of_ne_zero (Nat.ne_of_gt (Nat.sub_pos_of_lt hpad))
    have hne : List.replicate (len - p.length) (0 : UInt8) ≠ [] := by
      rw [hk]
      exact List.cons_ne_nil _ _
    have hrun : (w.advance D).running := by
      rw [Walk.running_iff hadvanced, hrest]
      exact hne
    have hcall : (w.advance D).deencap D =
        D.deencap (D.receive w.env.lib (padTo len p)).2 (List.replicate (len - p.length) 0) := by
      rw [← hlib, ← hrest]
      rfl
    have hstatus : ((w.advance D).deencap D).status = .paddingDetected := by
      rw [hcall, h.padding _ hne, hk]
      exact ⟨0, List.replicate k 0, rfl, by decide⟩
    refine ⟨(w.advance D).afterDeencap D, ?_, ?_, htap, ?_, hdata⟩
    · rw [decapBody, if_pos hrun, if_pos hstatus]
      rfl
    · rw [if_pos hpad, ← hcall]
      rfl
    · exact (if_neg fun hfail => hfail (h.vfrag _ _).1).trans hadvanced
  · have hend : ¬(w.advance D).running := by
      rw [Walk.running_iff hadvanced, hrest, Nat.sub_eq_zero_of_le (Nat.le_of_not_lt hpad)]
      exact not_not_intro rfl
    refine ⟨w.advance D, ?_, ?_, htap, hadvanced, hdata⟩
    · rw [decapBody, if_neg hend]
      rfl
    · rw [if_neg hpad]
      exact hlib

/-- Events of the receiver that are no datagrams of the remote: timeouts, empty datagrams
    and those from elsewhere. Neither `pselect` nor `recvfrom` fails. -/
def DecapEvent.Foreign (params : ProcessDecapParams) (event : DecapEvent) : Prop :=
  event.Succeeds ∧ fromRemote params event = false

/-- What is assumed of the receiver in a network: it was started with a `payload_len` that is
    at least `len`, the length of the datagrams sent, and within its buffer, and nothing it
    meets besides them ends it. -/
structure Undisturbed {ι : Type} (params : ProcessDecapParams) (len : Nat)
    (moves : List (Move ι DecapEvent)) : Prop where
  stores : len ≤ params.payloadLen
  within : params.payloadLen ≤ DATA_RECEIVED_SIZE
  foreign : ∀ event, Move.receiver event ∈ moves → event.Foreign params

/-- The receiver handles each padded packet in one way, if what `read_udp` may store holds
    the packet and its padding and fits the buffer. -/
theorem decap_handles (h : WalkLaws D S.IsPacket) (params : ProcessDecapParams) (len bound : Nat)
    (hcapacity : S.capacity ≤ params.payloadLen) (hlen : len ≤ params.payloadLen)
    (hmax : params.payloadLen ≤ DATA_RECEIVED_SIZE) (hbound : 2 ≤ bound) :
    Handles (decapStep D params bound) (datagramEvent params) (S.CarriesPadded len)
      (D.handle len) (DecapEvent.Foreign params) Waiting DecapState.lib DecapState.tap where
  datagram := by
    rintro s p _ ⟨halive, hsize⟩ ⟨hp, rfl⟩
    have hReceived : DATA_RECEIVED_SIZE = 4099 := rfl
    obtain ⟨hpos, hle⟩ := hp.length_le
    have hlength : (padTo len p).length = max len p.length := by
      rw [padTo, List.length_append, List.length_replicate]
      omega
    have hcapa : sizeT params.payloadLen = params.payloadLen.toNat :=
      sizeT_of_nonneg (by omega) (by omega)
    have htake : (padTo len p).take (sizeT params.payloadLen) = padTo len p := by
      rw [hcapa]
      exact List.take_of_length_le (by omega)
    let w : Walk δ := ⟨{ s with
      dataReceived := s.dataReceived.overlay 0 (padTo len p).length
        fun i => (padTo len p).getD i 0
      lenReceived := (padTo len p).length }, 0⟩
    have hstep : decapStep D params bound (datagramEvent params (padTo len p)) s =
        (loop (decapBody D) bound w).leave Walk.env := by
      have hne : (padTo len p).take (sizeT params.payloadLen) ≠ [] := by
        rw [htake]
        exact List.ne_nil_of_length_pos (by omega)
      have hfits := decapStep_of_fits D params bound halive hne (by rw [htake]; omega)
      rw [htake] at hfits
      exact hfits
    have hwindow : w.window = padTo len p := Buffer.read_write_same _ _ _
    obtain ⟨u, hstop, hlib, htap, halive', hdata⟩ := walk_handles h hp hwindow halive hbound
    refine ⟨u.env, by rw [hstep, hstop]; rfl, ⟨halive', ?_⟩, hlib, htap⟩
    rw [hdata]
    exact hsize
  own := by
    rintro s event hs ⟨hsucceeds, hskip⟩
    have hReceived : DATA_RECEIVED_SIZE = 4099 := rfl
    have hcapa : sizeT params.payloadLen = params.payloadLen.toNat :=
      sizeT_of_nonneg (by omega) (by omega)
    have hfits : event.Fits params := DecapEvent.fits_of_le (by omega) event
    obtain ⟨buffer, len', hsize, hstep⟩ := decapStep_skipped params bound hsucceeds hfits hskip hs
    exact ⟨_, hstep, ⟨hs.1, hsize⟩, rfl, rfl⟩

end

end DvbGseTunnel
