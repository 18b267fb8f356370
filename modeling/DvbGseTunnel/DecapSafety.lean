import DvbGseTunnel.DecapIsolation
import DvbGseTunnel.DecapTermination
import DvbGseTunnel.DecapWalk

/-!
# What `process_decap` stores and shows

The only store of the loop is that of `recvfrom`. So for any libgse and whatever comes, the
run is undefined exactly from the first datagram on, from whatever address, of which
`recvfrom` stores more bytes than `data_received` has (`processDecap_fault_iff`). And libgse
is only ever shown the end of the datagram that is handled, one of the remote, whatever it
leaves in `gse_length` (`processDecap_windows`).
-/

namespace DvbGseTunnel

open Lib

variable {δ : Type}

/-! ### One event -/

/-- The walk of a stored datagram. -/
def DecapState.walk (s : DecapState δ) (data : Bytes) : Walk δ :=
  ⟨{ s with
      dataReceived := s.dataReceived.overlay 0 data.length fun i => data.getD i 0
      lenReceived := data.length }, 0⟩

/-- Everything a pass can do: a store past the end of the buffer, no walk, or the walk of a
    datagram of the remote. -/
theorem decapStep_cases (D : Decapsulator δ) (params : ProcessDecapParams) (bound : Nat)
    (event : DecapEvent) {s : DecapState δ} (hsize : s.dataReceived.size = DATA_RECEIVED_SIZE) :
    (s.alive = 0 ∧ ¬event.Fits params ∧ decapStep D params bound event s = .fault s) ∨
    (s.alive = 0 → event.Fits params) ∧
      ((∃ t, (decapStep D params bound event s = .next t ∨
          decapStep D params bound event s = .stop t) ∧ t.windows = s.windows ∧
          t.dataReceived.size = DATA_RECEIVED_SIZE) ∨
        ∃ datagram, event = .readable (some (params.remote, datagram)) ∧
          decapStep D params bound event s =
            (loop (decapBody D) bound (s.walk (datagram.take (sizeT params.payloadLen)))).leave
              Walk.env) := by
  by_cases halive : s.alive = 0
  · match event with
    | .timeout =>
      refine .inr ⟨fun _ => trivial, .inl ⟨s, .inl ?_, rfl, hsize⟩⟩
      rw [decapStep, if_neg (not_not_intro halive)]
    | .pselectFailed =>
      refine .inr ⟨fun _ => trivial, .inl ⟨{ s with alive := -1 }, .inr ?_, rfl, hsize⟩⟩
      rw [decapStep, if_neg (not_not_intro halive)]
    | .readable none =>
      refine .inr ⟨fun _ => trivial, .inl ⟨{ s with alive := -1 }, .inr ?_, rfl, hsize⟩⟩
      rw [decapStep, if_neg (not_not_intro halive)]
      rfl
    | .readable (some (addr, datagram)) =>
      by_cases hfits : (datagram.take (sizeT params.payloadLen)).length ≤ DATA_RECEIVED_SIZE
      · refine .inr ⟨fun _ => hfits, ?_⟩
        rw [← hsize] at hfits
        by_cases hdrop : addr ≠ params.remote ∨ datagram.take (sizeT params.payloadLen) = []
        · obtain ⟨buffer, hkeep, hstep⟩ :=
            decapStep_of_dropped D params bound halive hdrop hfits
          exact .inl ⟨_, .inl hstep, rfl, hkeep.trans hsize⟩
        · rw [not_or, not_not] at hdrop
          obtain ⟨rfl, hne⟩ := hdrop
          exact .inr ⟨datagram, rfl, decapStep_of_fits D params bound halive hne hfits⟩
      · refine .inl ⟨halive, hfits, decapStep_of_overflow D params bound halive ?_⟩
        rw [hsize]
        exact Nat.lt_of_not_le hfits
  · refine .inr ⟨fun h => absurd h halive, .inl ⟨s, .inr ?_, rfl, hsize⟩⟩
    unfold decapStep
    rw [if_pos halive]

/-! ### Stores -/

theorem decapBody_dataReceived (D : Decapsulator δ) (w : Walk δ) :
    (decapBody D w).state.env.dataReceived = w.env.dataReceived := by
  rcases decapBody_cases D w with ⟨_, hb⟩ | ⟨_, _, hb⟩ | ⟨_, _, hb⟩
  · rw [hb]
    rfl
  · rw [hb]
    rfl
  · obtain ⟨tap, htap⟩ := w.advance_eq D
    rw [hb, htap]
    rfl

/-- A walk stores nothing and is always defined. -/
theorem walk_stores (D : Decapsulator δ) (bound : Nat) (w : Walk δ) :
    (loop (decapBody D) bound w).state.env.dataReceived = w.env.dataReceived ∧
      ∀ v, loop (decapBody D) bound w ≠ .fault v := by
  constructor
  · exact loop_inv (fun v : Walk δ => v.env.dataReceived = w.env.dataReceived)
      (fun v hv => (decapBody_dataReceived D v).trans hv) bound rfl
  · intro v hv
    rcases loop_stop_or_hang (decapBody_next_or_stop D) bound w with ⟨u, hu⟩ | ⟨u, hu⟩
    · rw [hu] at hv
      cases hv
    · rw [hu] at hv
      cases hv

theorem decapStep_size (D : Decapsulator δ) (params : ProcessDecapParams) (bound : Nat)
    (event : DecapEvent) {s : DecapState δ} (hsize : s.dataReceived.size = DATA_RECEIVED_SIZE) :
    (decapStep D params bound event s).state.dataReceived.size = DATA_RECEIVED_SIZE := by
  rcases decapStep_cases D params bound event hsize with
    ⟨_, _, hstep⟩ | ⟨_, ⟨t, hstep | hstep, _, hkeep⟩ | ⟨datagram, _, hstep⟩⟩
  · rw [hstep]
    exact hsize
  · rw [hstep]
    exact hkeep
  · rw [hstep]
    exact hkeep
  · rw [hstep, Flow.state_leave, (walk_stores D bound _).1]
    exact hsize

theorem decapStep_fault_iff (D : Decapsulator δ) (params : ProcessDecapParams) (bound : Nat)
    (event : DecapEvent) {s : DecapState δ} (hsize : s.dataReceived.size = DATA_RECEIVED_SIZE) :
    (∃ t, decapStep D params bound event s = .fault t) ↔ s.alive = 0 ∧ ¬event.Fits params := by
  rcases decapStep_cases D params bound event hsize with
    ⟨halive, hfits, hstep⟩ | ⟨hfits, hdefined⟩
  · exact iff_of_true ⟨s, hstep⟩ ⟨halive, hfits⟩
  · refine iff_of_false ?_ fun h => h.2 (hfits h.1)
    rintro ⟨u, hfault⟩
    rcases hdefined with ⟨t, hstep | hstep, -⟩ | ⟨datagram, -, hstep⟩
    · rw [hstep] at hfault
      cases hfault
    · rw [hstep] at hfault
      cases hfault
    · rw [hstep] at hfault
      cases hloop : loop (decapBody D) bound
          (s.walk (datagram.take (sizeT params.payloadLen))) with
      | next v => rw [hloop] at hfault; cases hfault
      | stop v => rw [hloop] at hfault; cases hfault
      | fault v => exact (walk_stores D bound _).2 v hloop
      | hang v => rw [hloop] at hfault; cases hfault

theorem processDecap_size {D : Decapsulator δ} {params : ProcessDecapParams} {bound : Nat}
    {events : List DecapEvent} {s t : DecapState δ}
    (hsize : s.dataReceived.size = DATA_RECEIVED_SIZE)
    (hrun : processDecap D params bound events s = .next t) :
    t.dataReceived.size = DATA_RECEIVED_SIZE := by
  refine feed_next (fun s : DecapState δ => s.dataReceived.size = DATA_RECEIVED_SIZE) events ?_
    hsize hrun
  intro event _ u v hu hstep
  have hkeep := decapStep_size D params bound event hu
  rw [hstep] at hkeep
  exact hkeep

theorem processDecap_faults (D : Decapsulator δ) (params : ProcessDecapParams) (bound : Nat)
    (events : List DecapEvent) {s : DecapState δ}
    (hsize : s.dataReceived.size = DATA_RECEIVED_SIZE) :
    (∃ t, processDecap D params bound events s = .fault t) ↔
      ∃ before event after u, events = before ++ event :: after ∧
        processDecap D params bound before s = .next u ∧ u.alive = 0 ∧ ¬event.Fits params := by
  constructor
  · rintro ⟨t, hfault⟩
    obtain ⟨before, event, after, u, hevents, hbefore, hstep⟩ :=
      (feed_eq_iff (r := .fault t) nofun).mp hfault
    refine ⟨before, event, after, u, hevents, hbefore, ?_⟩
    apply (decapStep_fault_iff D params bound event (processDecap_size hsize hbefore)).mp
    exact ⟨t, hstep⟩
  · rintro ⟨before, event, after, u, hevents, hbefore, hover⟩
    obtain ⟨t, hstep⟩ :=
      (decapStep_fault_iff D params bound event (processDecap_size hsize hbefore)).mpr hover
    refine ⟨t, ?_⟩
    apply (feed_eq_iff (r := .fault t) nofun).mpr
    exact ⟨before, event, after, u, hevents, hbefore, hstep⟩

/-- **Where the run of `process_decap` is undefined.** For every libgse, whatever it answers,
    and all events: exactly if an event that does not fit `data_received` meets the loop while
    it still waits for one. So no run is undefined if `payload_len`, as a `size_t`, is within
    the buffer, and otherwise one datagram, from any address, is enough. -/
theorem processDecap_fault_iff (D : Decapsulator δ) (params : ProcessDecapParams) (lib : δ)
    (bytes : Nat → UInt8) (gseLength : UInt16) :
    (∀ bound events,
      (∃ t, processDecap D params bound events (.init lib bytes gseLength) = .fault t) ↔
        ∃ before event after s, events = before ++ event :: after ∧
          processDecap D params bound before (.init lib bytes gseLength) = .next s ∧
          s.alive = 0 ∧ ¬event.Fits params) ∧
    ((∀ bound events t,
        processDecap D params bound events (.init lib bytes gseLength) ≠ .fault t) ↔
      sizeT params.payloadLen ≤ DATA_RECEIVED_SIZE) := by
  have hfaults := fun bound events => processDecap_faults D params bound events
    (s := .init lib bytes gseLength) rfl
  refine ⟨hfaults, ?_, ?_⟩
  · intro hsafe
    by_contra hlong
    let datagram : Bytes := List.replicate (sizeT params.payloadLen) 0
    have hover : ¬DecapEvent.Fits params (.readable (some (params.remote, datagram))) := by
      intro hfits
      change (datagram.take (sizeT params.payloadLen)).length ≤ DATA_RECEIVED_SIZE at hfits
      rw [List.length_take, List.length_replicate, Nat.min_self] at hfits
      exact hlong hfits
    obtain ⟨t, hfault⟩ := (hfaults 0 [.readable (some (params.remote, datagram))]).mpr
      ⟨[], _, [], _, rfl, rfl, rfl, hover⟩
    exact hsafe _ _ t hfault
  · intro hwithin bound events t hfault
    obtain ⟨_, event, _, _, _, _, _, hover⟩ := (hfaults bound events).mp ⟨t, hfault⟩
    exact hover (DecapEvent.fits_of_le hwithin event)

/-! ### Windows -/

/-- A non-empty end of what `recvfrom` stores of the event's datagram, one of the remote. -/
def EndsDatagram (params : ProcessDecapParams) (event : DecapEvent) (window : Bytes) : Prop :=
  window ≠ [] ∧ ∃ datagram, event = .readable (some (params.remote, datagram)) ∧
    window <:+ datagram.take (sizeT params.payloadLen)

theorem window_of_walk {s : DecapState δ} {data : Bytes} {w : Walk δ}
    (hlen : w.env.lenReceived = data.length)
    (hdata : w.env.dataReceived = (s.walk data).env.dataReceived) (hrunning : w.running) :
    w.window ≠ [] ∧ w.window <:+ data := by
  have hlt : w.lenDecapsulated < data.length := hlen ▸ hrunning.1
  have hread : data = (s.walk data).env.dataReceived.read 0
      (w.lenDecapsulated + (data.length - w.lenDecapsulated)) := by
    rw [Nat.add_sub_cancel' (Nat.le_of_lt hlt)]
    exact (Buffer.read_write_same _ _ _).symm
  have hdrop : w.window = data.drop w.lenDecapsulated := by
    rw [Walk.window, hlen, hdata, ← Nat.zero_add w.lenDecapsulated, ← Buffer.drop_read,
      Nat.zero_add, ← hread]
  rw [hdrop]
  refine ⟨fun hnil => ?_, List.drop_suffix _ _⟩
  have hle := List.drop_eq_nil_iff.mp hnil
  omega

/-- The windows that a walk adds are ends of its datagram. -/
theorem walk_windows {D : Decapsulator δ} (hD : D.CreatesVfrags) (bound : Nat)
    (s : DecapState δ) (data : Bytes) :
    ∃ new, (loop (decapBody D) bound (s.walk data)).state.env.windows = s.windows ++ new ∧
      ∀ window ∈ new, window ≠ [] ∧ window <:+ data := by
  let I : Walk δ → Prop := fun w => w.env.lenReceived = data.length ∧
    w.env.dataReceived = (s.walk data).env.dataReceived ∧
    ∃ new, w.env.windows = s.windows ++ new ∧ ∀ window ∈ new, window ≠ [] ∧ window <:+ data
  have hbody : ∀ w, I w → I (decapBody D w).state := by
    rintro w ⟨hlen, hdata, new, hnew, hends⟩
    have hshown : w.running → ∃ new, w.env.windows ++ [w.window] = s.windows ++ new ∧
        ∀ window ∈ new, window ≠ [] ∧ window <:+ data := by
      intro hrunning
      refine ⟨new ++ [w.window], by rw [hnew, List.append_assoc], fun window hwindow => ?_⟩
      rcases List.mem_append.mp hwindow with hold | hlast
      · exact hends window hold
      · obtain rfl := List.mem_singleton.mp hlast
        exact window_of_walk hlen hdata hrunning
    rcases decapBody_cases D w with ⟨_, hb⟩ | ⟨hrunning, _, hb⟩ | ⟨hrunning, _, hb⟩
    · rw [hb]
      exact ⟨hlen, hdata, new, hnew, hends⟩
    · rw [hb]
      refine ⟨hlen, hdata, ?_⟩
      rw [Flow.state_stop, w.windows_afterDeencap hD]
      exact hshown hrunning
    · rw [hb]
      obtain ⟨tap, htap⟩ := w.advance_eq D
      refine ⟨by rw [htap]; exact hlen, by rw [htap]; exact hdata, ?_⟩
      rw [Flow.state_next, w.windows_advance hD]
      exact hshown hrunning
  exact (loop_inv I hbody bound ⟨rfl, rfl, [], (List.append_nil _).symm, nofun⟩).2.2

/-- The windows that one event adds. -/
theorem decapStep_windows {D : Decapsulator δ} (hD : D.CreatesVfrags)
    (params : ProcessDecapParams) (bound : Nat) (event : DecapEvent) {s : DecapState δ}
    (hsize : s.dataReceived.size = DATA_RECEIVED_SIZE) :
    ∃ new, (decapStep D params bound event s).state.windows = s.windows ++ new ∧
      ∀ window ∈ new, EndsDatagram params event window := by
  rcases decapStep_cases D params bound event hsize with
    ⟨_, _, hstep⟩ | ⟨_, ⟨t, hstep | hstep, hkeep, _⟩ | ⟨datagram, rfl, hstep⟩⟩
  · rw [hstep]
    exact ⟨[], (List.append_nil _).symm, nofun⟩
  · rw [hstep]
    exact ⟨[], hkeep.trans (List.append_nil _).symm, nofun⟩
  · rw [hstep]
    exact ⟨[], hkeep.trans (List.append_nil _).symm, nofun⟩
  · obtain ⟨new, hnew, hends⟩ := walk_windows hD bound s (datagram.take (sizeT params.payloadLen))
    rw [hstep, Flow.state_leave]
    refine ⟨new, hnew, fun window hwindow => ?_⟩
    obtain ⟨hne, hend⟩ := hends window hwindow
    exact ⟨hne, datagram, rfl, hend⟩

/-- **What libgse is shown.** For every libgse that creates its fragments, whatever it
    answers, and in every run: the windows given to `gse_deencap_packet` while an event is
    handled are non-empty ends of what was received of the datagram of that event, one of
    the remote, never of bytes behind it, of an earlier datagram or of one from elsewhere. -/
theorem processDecap_windows (D : Decapsulator δ) (hD : D.CreatesVfrags)
    (params : ProcessDecapParams) (bound : Nat) (events : List DecapEvent) (lib : δ)
    (bytes : Nat → UInt8) (gseLength : UInt16) :
    ∃ shown, (processDecap D params bound events (.init lib bytes gseLength)).state.windows =
        shown.flatten ∧
      List.Forall₂ (fun event windows => ∀ window ∈ windows, EndsDatagram params event window)
        (events.take shown.length) shown :=
  feed_log DecapState.windows (fun s => s.dataReceived.size = DATA_RECEIVED_SIZE)
    (EndsDatagram params)
    (fun event _ hsize => ⟨decapStep_size D params bound event hsize,
      decapStep_windows hD params bound event hsize⟩)
    events (s := .init lib bytes gseLength) rfl

/-- An error that leaves 2 in `gse_length`, after a datagram from elsewhere. -/
theorem processDecap_windows_of_three_bytes :
    let events := [.readable (some (⟨1, 1⟩, [9, 9, 9, 9])), .readable (some (⟨0, 0⟩, [1, 2, 3]))]
    let t := (processDecap (scriptedLib fun _ => ⟨.invalidDataLength, some 2, []⟩) longParams 3
      events (.init 0 (fun _ => 0) 0)).state
    t.windows = [[1, 2, 3], [3]] ∧ ∃ shown, t.windows = shown.flatten ∧
      List.Forall₂ (fun event windows => ∀ window ∈ windows, EndsDatagram longParams event window)
        (events.take shown.length) shown :=
  ⟨by decide, processDecap_windows _ (fun _ _ => ⟨rfl, rfl⟩) longParams 3 _ 0 (fun _ => 0) 0⟩

end DvbGseTunnel
