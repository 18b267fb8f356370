import DvbGseTunnel.ProcessDecap

/-!
# What other events do to the datagrams of the remote

A datagram from elsewhere is stored in `data_received` before its address is looked at,
so two runs that differ in such datagrams differ in the buffer. They differ in nothing
else: the walk of a datagram reads the buffer below `len_received` only, where the read
that delivered it has just written (`decapBody_withBuffer`). The run over all events and
the run over the datagrams of the remote therefore go in lockstep, but for the events
only one of them sees (`isolated_iff`).

What breaks the isolation is the store itself. `data_received` has
`GSE_MAX_PACKET_LENGTH + 2` bytes, `read_udp` is told it may fill `payload_len`, and
`check_decap_params` sets no upper bound on that.
-/

namespace DvbGseTunnel

open Lib

variable {δ : Type}

/-! ### The walk does not see the rest of the buffer -/

def Walk.withBuffer (w : Walk δ) (buffer : Buffer) : Walk δ :=
  { w with env := { w.env with dataReceived := buffer } }

def SameDatagram (w : Walk δ) (buffer : Buffer) : Prop :=
  ∀ i < w.env.lenReceived, w.env.dataReceived.byte i = buffer.byte i

theorem Walk.window_withBuffer {w : Walk δ} {buffer : Buffer} (h : SameDatagram w buffer) :
    (w.withBuffer buffer).window = w.window := by
  refine (Buffer.read_congr fun i hlow hhigh => h i ?_).symm
  change w.lenDecapsulated ≤ i at hlow
  change i < w.lenDecapsulated + (w.env.lenReceived - w.lenDecapsulated) at hhigh
  omega

theorem decapBody_withBuffer (D : Decapsulator δ) {w : Walk δ} {buffer : Buffer}
    (h : SameDatagram w buffer) :
    Flow.Rel (fun v v' => v' = v.withBuffer buffer ∧ SameDatagram v buffer)
      (decapBody D w) (decapBody D (w.withBuffer buffer)) := by
  have hcreated : (w.withBuffer buffer).created D = w.created D := by
    rw [Walk.created, Walk.window_withBuffer h]
    rfl
  have hdeencap : (w.withBuffer buffer).deencap D = w.deencap D := by
    rw [Walk.deencap, hcreated]
    rfl
  have hafter : (w.withBuffer buffer).afterDeencap D = (w.afterDeencap D).withBuffer buffer := by
    rw [Walk.afterDeencap, Walk.gseLength, hcreated, hdeencap]
    rfl
  have hrunning : (w.withBuffer buffer).running ↔ w.running := Iff.rfl
  unfold decapBody
  rw [hdeencap, hafter]
  by_cases hrun : w.running
  · rw [if_pos hrun, if_pos (hrunning.mpr hrun)]
    split
    · exact .stop ⟨rfl, h⟩
    · split
      · exact .next ⟨rfl, h⟩
      · exact .next ⟨rfl, h⟩
  · rw [if_neg hrun, if_neg (mt hrunning.mp hrun)]
    exact .stop ⟨rfl, h⟩

/-- The walk keeps the buffer, its datagram and `alive`. -/
theorem decapBody_env {D : Decapsulator δ} (hD : D.CreatesVfrags) (w : Walk δ) :
    (decapBody D w).state.env.dataReceived = w.env.dataReceived ∧
      (decapBody D w).state.env.alive = w.env.alive := by
  have hafter : (w.afterDeencap D).env.alive = w.env.alive := by
    change (if (w.created D).status ≠ .ok then -1 else w.env.alive) = w.env.alive
    exact if_neg fun h => h (hD w.env.lib w.window).1
  rcases decapBody_cases D w with ⟨_, hb⟩ | ⟨_, _, hb⟩ | ⟨_, _, hb⟩
  · rw [hb]
    exact ⟨rfl, rfl⟩
  · rw [hb]
    exact ⟨rfl, hafter⟩
  · obtain ⟨tap, htap⟩ := w.advance_eq D
    rw [hb, htap]
    exact ⟨rfl, hafter⟩

theorem decapBody_next_or_stop (D : Decapsulator δ) (w : Walk δ) :
    (∃ v, decapBody D w = .next v) ∨ ∃ v, decapBody D w = .stop v := by
  rcases decapBody_cases D w with ⟨_, hb⟩ | ⟨_, _, hb⟩ | ⟨_, _, hb⟩
  · exact .inr ⟨_, hb⟩
  · exact .inr ⟨_, hb⟩
  · exact .inl ⟨_, hb⟩

theorem decapLoop_env {D : Decapsulator δ} (hD : D.CreatesVfrags) (bound : Nat) (w : Walk δ) :
    (loop (decapBody D) bound w).state.env.dataReceived = w.env.dataReceived ∧
      (loop (decapBody D) bound w).state.env.alive = w.env.alive := by
  refine loop_inv (fun v : Walk δ => v.env.dataReceived = w.env.dataReceived ∧
    v.env.alive = w.env.alive) ?_ bound ⟨rfl, rfl⟩
  intro v hv
  have hbody := decapBody_env hD v
  exact ⟨hbody.1.trans hv.1, hbody.2.trans hv.2⟩

/-! ### One event -/

/-- The events the remote alone causes: its non-empty datagrams. -/
def fromRemote (params : ProcessDecapParams) : DecapEvent → Bool
  | .readable (some (addr, datagram)) => addr = params.remote ∧ datagram ≠ []
  | .readable none => false
  | .timeout => false
  | .pselectFailed => false

theorem fromRemote_eq {params : ProcessDecapParams} {event : DecapEvent}
    (h : fromRemote params event = true) :
    ∃ datagram, event = .readable (some (params.remote, datagram)) := by
  match event, h with
  | .readable (some (addr, datagram)), h =>
    have haddr : addr = params.remote ∧ datagram ≠ [] := by simpa [fromRemote] using h
    exact ⟨datagram, by rw [haddr.1]⟩

def DecapEvent.Succeeds : DecapEvent → Prop
  | .readable recvfrom => recvfrom ≠ none
  | .timeout => True
  | .pselectFailed => False

/-- What the read stores of the event's datagram fits `data_received`. -/
def DecapEvent.Fits (params : ProcessDecapParams) : DecapEvent → Prop
  | .readable (some (_, datagram)) =>
    (datagram.take (sizeT params.payloadLen)).length ≤ DATA_RECEIVED_SIZE
  | .readable none => True
  | .timeout => True
  | .pselectFailed => True

theorem DecapEvent.fits_of_le {params : ProcessDecapParams}
    (h : sizeT params.payloadLen ≤ DATA_RECEIVED_SIZE) (event : DecapEvent) :
    event.Fits params := by
  match event with
  | .timeout => exact trivial
  | .pselectFailed => exact trivial
  | .readable none => exact trivial
  | .readable (some (addr, datagram)) => exact Nat.le_trans (List.length_take_le _ _) h

/-- Two waiting states that differ in the receive buffer and the length of its datagram
    only. -/
def SameBut (s t : DecapState δ) : Prop :=
  Waiting s ∧ Waiting t ∧ ∃ buffer len, t = { s with dataReceived := buffer, lenReceived := len }

/-- A datagram of the remote makes two such states go through the same walk. -/
theorem decapStep_kept {D : Decapsulator δ} (hD : D.CreatesVfrags) (params : ProcessDecapParams)
    (bound : Nat) {event : DecapEvent} (hfits : event.Fits params)
    (hkeep : fromRemote params event = true) {s t : DecapState δ} (h : SameBut s t) :
    Flow.Rel SameBut (decapStep D params bound event s) (decapStep D params bound event t) := by
  obtain ⟨⟨halive, hsize⟩, ⟨halive', hsize'⟩, buffer, len, rfl⟩ := h
  obtain ⟨datagram, rfl⟩ := fromRemote_eq hkeep
  have hfits_s : (datagram.take (sizeT params.payloadLen)).length ≤ s.dataReceived.size := by
    rw [hsize]; exact hfits
  have hfits_t : (datagram.take (sizeT params.payloadLen)).length ≤ buffer.size :=
    Nat.le_trans hfits (Nat.le_of_eq hsize'.symm)
  by_cases hempty : datagram.take (sizeT params.payloadLen) = []
  · obtain ⟨b, hb, hs⟩ := decapStep_of_dropped D params bound halive
      (Or.inr hempty : params.remote ≠ params.remote ∨ _) hfits_s
    obtain ⟨b', hb', ht⟩ := decapStep_of_dropped D params bound halive'
      (Or.inr hempty : params.remote ≠ params.remote ∨ _) hfits_t
    rw [hs, ht]
    exact .next ⟨⟨halive, hb.trans hsize⟩, ⟨halive', hb'.trans hsize'⟩, b', 0, rfl⟩
  · rw [decapStep_of_fits D params bound halive hempty hfits_s,
      decapStep_of_fits D params bound halive' hempty hfits_t]
    let data := datagram.take (sizeT params.payloadLen)
    let w : Walk δ := ⟨{ s with
      dataReceived := s.dataReceived.overlay 0 data.length fun i => data.getD i 0
      lenReceived := data.length }, 0⟩
    let b := buffer.overlay 0 data.length fun i => data.getD i 0
    have hsame : SameDatagram w b := by
      intro i hi
      have hin : 0 ≤ i ∧ i < 0 + data.length := ⟨Nat.zero_le i, by rw [Nat.zero_add]; exact hi⟩
      change (s.dataReceived.overlay 0 data.length fun i => data.getD i 0).byte i =
        (buffer.overlay 0 data.length fun i => data.getD i 0).byte i
      rw [Buffer.overlay_byte_of_mem _ _ hin, Buffer.overlay_byte_of_mem _ _ hin]
    have hloops := loop_rel (fun v v' : Walk δ => v' = v.withBuffer b ∧ SameDatagram v b)
      (fun v v' hv => by rw [hv.1]; exact decapBody_withBuffer D hv.2) bound
      (⟨rfl, hsame⟩ : w.withBuffer b = w.withBuffer b ∧ SameDatagram w b)
    refine hloops.leave fun v v' hv hvv' => ?_
    obtain ⟨hbuffer, hvalive⟩ := decapLoop_env hD bound w
    rw [hv] at hbuffer hvalive
    rw [hvv'.1]
    have hwaiting : v.env.alive = 0 := hvalive.trans halive
    exact ⟨⟨hwaiting, by rw [hbuffer]; exact hsize⟩, ⟨hwaiting, hsize'⟩, b, v.env.lenReceived, rfl⟩

/-- Any other event changes nothing but the buffer and the length. -/
theorem decapStep_skipped {D : Decapsulator δ} (params : ProcessDecapParams) (bound : Nat)
    {event : DecapEvent} (hsucceeds : event.Succeeds) (hfits : event.Fits params)
    (hskip : fromRemote params event = false) {s : DecapState δ} (h : Waiting s) :
    ∃ buffer len, buffer.size = DATA_RECEIVED_SIZE ∧ decapStep D params bound event s =
      .next { s with dataReceived := buffer, lenReceived := len } := by
  match event with
  | .timeout =>
    refine ⟨s.dataReceived, s.lenReceived, h.2, ?_⟩
    simp only [decapStep, if_neg (fun hs : s.alive ≠ 0 => hs h.1)]
  | .pselectFailed => exact absurd hsucceeds id
  | .readable none => exact absurd rfl hsucceeds
  | .readable (some (addr, datagram)) =>
    have hdrop : addr ≠ params.remote ∨ datagram.take (sizeT params.payloadLen) = [] := by
      have hnot : addr = params.remote → datagram = [] := by simpa [fromRemote] using hskip
      by_cases haddr : addr = params.remote
      · rw [hnot haddr]
        exact .inr List.take_nil
      · exact .inl haddr
    obtain ⟨buffer, hsize, hstep⟩ := decapStep_of_dropped D params bound h.1 hdrop
      (Nat.le_trans hfits (Nat.le_of_eq h.2.symm))
    exact ⟨buffer, 0, hsize.trans h.2, hstep⟩

/-- A step on an event that fits does not end the run, unless its walk hangs. -/
theorem decapStep_waiting {D : Decapsulator δ} (hD : D.CreatesVfrags)
    (params : ProcessDecapParams) (bound : Nat) {event : DecapEvent}
    (hsucceeds : event.Succeeds) (hfits : event.Fits params) {s : DecapState δ}
    (h : Waiting s) :
    (∃ t, decapStep D params bound event s = .next t ∧ Waiting t) ∨
      ∃ t, decapStep D params bound event s = .hang t := by
  cases hkeep : fromRemote params event with
  | false =>
    obtain ⟨buffer, len, hsize, hstep⟩ := decapStep_skipped params bound hsucceeds hfits hkeep h
    exact .inl ⟨_, hstep, h.1, hsize⟩
  | true =>
    have hrel := decapStep_kept hD params bound hfits hkeep
      (⟨h, h, s.dataReceived, s.lenReceived, rfl⟩ : SameBut s s)
    obtain ⟨datagram, rfl⟩ := fromRemote_eq hkeep
    have hfits_s : (datagram.take (sizeT params.payloadLen)).length ≤ s.dataReceived.size :=
      Nat.le_trans hfits (Nat.le_of_eq h.2.symm)
    have hkind : (∃ t, decapStep D params bound (.readable (some (params.remote, datagram))) s =
        .next t) ∨ ∃ t, decapStep D params bound
          (.readable (some (params.remote, datagram))) s = .hang t := by
      by_cases hempty : datagram.take (sizeT params.payloadLen) = []
      · obtain ⟨_, _, hstep⟩ := decapStep_of_dropped D params bound h.1
          (Or.inr hempty : params.remote ≠ params.remote ∨ _) hfits_s
        exact .inl ⟨_, hstep⟩
      · rw [decapStep_of_fits D params bound h.1 hempty hfits_s]
        rcases loop_stop_or_hang (decapBody_next_or_stop D) bound _ with ⟨v, hv⟩ | ⟨v, hv⟩
        · exact .inl ⟨v.env, by rw [hv]; rfl⟩
        · exact .inr ⟨v.env, by rw [hv]; rfl⟩
    rcases hkind with ⟨t, ht⟩ | ⟨t, ht⟩
    · rw [ht] at hrel
      cases hrel with
      | next hsame => exact .inl ⟨t, ht, hsame.1⟩
    · exact .inr ⟨t, ht⟩

/-! ### Runs -/

/-- A run that goes on met no event that does not fit. -/
theorem processDecap_fits {D : Decapsulator δ} (hD : D.CreatesVfrags)
    (params : ProcessDecapParams) (bound : Nat) {events : List DecapEvent}
    (hsucceed : ∀ event ∈ events, event.Succeeds) {s t : DecapState δ} (h : Waiting s)
    (hrun : processDecap D params bound events s = .next t) :
    ∀ event ∈ events, event.Fits params := by
  induction events generalizing s with
  | nil => simp
  | cons event events ih =>
    rw [processDecap, feed_cons] at hrun
    have hfits : event.Fits params := by
      match event with
      | .timeout => trivial
      | .pselectFailed => trivial
      | .readable none => trivial
      | .readable (some (addr, datagram)) =>
        by_contra hover
        rw [decapStep_of_overflow D params bound h.1
          (by rw [h.2]; exact Nat.lt_of_not_le hover)] at hrun
        cases hrun
    rcases decapStep_waiting hD params bound (hsucceed event (by simp)) hfits h with
      ⟨u, hu, hwaiting⟩ | ⟨u, hu⟩
    · rw [hu] at hrun
      have htail := ih (fun e he => hsucceed e (by simp [he])) hwaiting hrun
      exact List.forall_mem_cons.mpr ⟨hfits, htail⟩
    · rw [hu] at hrun
      cases hrun

/-- After each event the loop waits for the next one, and the TAP interface was written
    the frames it is written in a run over the datagrams of the remote alone. -/
def Isolated (D : Decapsulator δ) (params : ProcessDecapParams) (bound : Nat)
    (events : List DecapEvent) (init : DecapState δ) : Prop :=
  ∀ n, ∃ s t, processDecap D params bound (events.take n) init = .next s ∧ s.alive = 0 ∧
    processDecap D params bound ((events.take n).filter (fromRemote params)) init = .next t ∧
    s.tap = t.tap

/-- **When `satdecap` isolates the remote.** For every libgse that creates fragments and
    whose walks of the remote's datagrams end, and every sequence of events: what is
    written to the TAP interface depends on the remote's datagrams alone exactly if the
    reads of all datagrams, from wherever they come, fit `data_received`. -/
theorem isolated_iff (D : Decapsulator δ) (hD : D.CreatesVfrags) (params : ProcessDecapParams)
    (bound : Nat) (events : List DecapEvent) (hsucceed : ∀ event ∈ events, event.Succeeds)
    (lib : δ) (bytes : Nat → UInt8) (gseLength : UInt16)
    (hends : ∀ s, processDecap D params bound (events.filter (fromRemote params))
      (.init lib bytes gseLength) ≠ .hang s) :
    Isolated D params bound events (.init lib bytes gseLength) ↔
      ∀ event ∈ events, event.Fits params := by
  have hinit : Waiting (DecapState.init lib bytes gseLength) := ⟨rfl, rfl⟩
  constructor
  · intro hisolated
    obtain ⟨s, t, hrun, _⟩ := hisolated events.length
    rw [List.take_length] at hrun
    exact processDecap_fits hD params bound hsucceed hinit hrun
  · intro hfit n
    have hmem : ∀ event ∈ events.take n, event ∈ events := fun _ => List.mem_of_mem_take
    have hrel := feed_filter SameBut (fromRemote params) (events.take n)
      (fun event he hkeep s t hst =>
        decapStep_kept hD params bound (hfit event (hmem event he)) hkeep hst)
      (fun event he hskip s t hst => by
        obtain ⟨buffer, len, hsize, hstep⟩ := decapStep_skipped params bound
          (hsucceed event (hmem event he)) (hfit event (hmem event he)) hskip hst.1
        obtain ⟨hs, ht, b, m, rfl⟩ := hst
        exact ⟨_, hstep, ⟨hs.1, hsize⟩, ht, b, m, rfl⟩)
      (⟨hinit, hinit, _, _, rfl⟩ : SameBut (DecapState.init lib bytes gseLength)
        (DecapState.init lib bytes gseLength))
    -- the run over the remote's datagrams goes on, as it does not hang
    have hremote := feed_next_or_hang Waiting ((events.take n).filter (fromRemote params))
      (fun event he s hs => by
        have hevent := hmem event (List.mem_filter.mp he |>.1)
        exact decapStep_waiting hD params bound (hsucceed event hevent) (hfit event hevent) hs)
      hinit
    rcases hremote with ⟨t, ht, _⟩ | ⟨t, ht⟩
    · rw [ht] at hrel
      obtain ⟨s, hs, hsame⟩ := hrel.eq_next
      refine ⟨s, t, hs, hsame.1.1, ht, ?_⟩
      obtain ⟨_, _, _, _, rfl⟩ := hsame
      rfl
    · refine absurd ?_ (hends t)
      rw [← List.take_append_drop n events, List.filter_append, processDecap, feed_append, ht]
      rfl

def longParams : ProcessDecapParams := ⟨⟨[], ⟨0, 0⟩, ⟨0, 0⟩, ⟨0, 1⟩, 8192, 5000⟩⟩

/-- A libgse that takes every window for one packet. -/
def wholeLib : Decapsulator Unit where
  gseCreateVfragWithData _ bytes := ⟨.ok, bytes, ()⟩
  gseDeencapPacket _ window := ⟨.pduReceived, some (UInt16.ofNat window.length), window, ()⟩

/-- A short datagram from elsewhere, then one from the remote. -/
theorem isolated_short_datagrams :
    Isolated wholeLib longParams 2
      [.readable (some (⟨1, 1⟩, [7, 7])), .readable (some (⟨0, 0⟩, [9]))]
      (.init () (fun _ => 0) 0) :=
  (isolated_iff wholeLib (fun _ _ => ⟨rfl, rfl⟩) longParams 2
    [.readable (some (⟨1, 1⟩, [7, 7])), .readable (some (⟨0, 0⟩, [9]))]
    (by simp [DecapEvent.Succeeds]) () (fun _ => 0) 0 nofun).mpr
    (by simp [DecapEvent.Fits, longParams, sizeT, DATA_RECEIVED_SIZE, GSE_MAX_PACKET_LENGTH])

/-- A datagram from elsewhere that is longer than `data_received`, with a payload length
    that `check_decap_params` accepts: the receiver does not survive it. -/
theorem foreign_datagram_overflows :
    checkDecapParams ⟨13, 4⟩ longParams = 0 ∧
      ¬Isolated wholeLib longParams 2 [.readable (some (⟨1, 1⟩, List.replicate 5000 0))]
        (.init () (fun _ => 0) 0) := by
  refine ⟨by decide, fun hisolated => ?_⟩
  obtain ⟨s, t, hrun, _⟩ := hisolated 1
  have hsucceed : ∀ event ∈ [DecapEvent.readable (some (⟨1, 1⟩, List.replicate 5000 0))],
      event.Succeeds := List.forall_mem_singleton.mpr nofun
  have hfits : (List.take 5000 (List.replicate 5000 (0 : UInt8))).length ≤ DATA_RECEIVED_SIZE :=
    processDecap_fits (fun _ _ => ⟨rfl, rfl⟩) longParams 2 hsucceed ⟨rfl, rfl⟩ hrun _
      (List.mem_singleton_self _)
  rw [List.length_take, List.length_replicate] at hfits
  exact absurd hfits (by decide)

end DvbGseTunnel
