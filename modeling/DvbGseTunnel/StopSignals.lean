import DvbGseTunnel.Lib.Signals
import DvbGseTunnel.ProcessDecap
import DvbGseTunnel.ProcessEncap

/-!
# The stop signals

SIGTERM and SIGINT run `sighandler`, which sets `alive`. The two programs look at `alive` in
the tests of their loops and once more in their `return`. So a signal is one that arrives
before a test, of the outer loop of `process_encap` or of either loop of `process_decap`,
which may so leave a datagram half-way, or one that arrives after the loop (`StopSignals`).
An `alive = -1` of the program may overwrite what a handler has set before it; such a signal
is as good as none.

A program that is stopped has put out a prefix of what it would have put out
(`decap_stopped`), and its `return` says success exactly if a signal was handled last
(`encapLoop_alive_iff`, `decapLoop_alive_iff`).
-/

namespace DvbGseTunnel

open Lib

variable {σ ω δ : Type}

/-- `sighandler` of `process_encap.c`. -/
def EncapState.sighandler (s : EncapState σ ω) : EncapState σ ω := { s with alive := 1 }

/-- `sighandler` of `process_decap.c`. -/
def DecapState.sighandler (s : DecapState δ) : DecapState δ := { s with alive := 1 }

def Walk.sighandler (w : Walk δ) : Walk δ := { w with env := w.env.sighandler }

/-- A signal before a test of a loop, and one between the loop and the `return`. -/
structure StopSignals where
  atTest : SignalAt
  afterLoop : Bool
deriving DecidableEq

/-! ### `process_encap` -/

def encapStepSignalled (E : EncapConf σ ω) (bound : Nat) (event : EncapEvent)
    (s : EncapState σ ω × SignalAt) : Flow (EncapState σ ω × SignalAt) :=
  withSignal EncapState.sighandler (encapStep E bound event) s

def processEncapSignalled (E : EncapConf σ ω) (bound : Nat) (events : List EncapEvent)
    (s : EncapState σ ω) (p : SignalAt) : Flow (EncapState σ ω × SignalAt) :=
  feed (encapStepSignalled E bound) events (s, p)

/-- A pass of the outer loop. -/
def decapStepSignalled (D : Decapsulator δ) (params : ProcessDecapParams) (bound : Nat)
    (event : DecapEvent) (s : DecapState δ × SignalAt) : Flow (DecapState δ × SignalAt) :=
  let (s, p) := signalled DecapState.sighandler s.1 s.2
  if s.alive ≠ 0 then .stop (s, p)
  else match event with
    | .timeout => .next (s, p)
    | .pselectFailed => .stop ({ s with alive := -1 }, p)
    | .readable recvfrom =>
      match readUdp recvfrom params.remote (sizeT params.payloadLen) s.dataReceived
          s.lenReceived with
      | none => .fault (s, p)
      | some r =>
        let s := { s with dataReceived := r.buffer, lenReceived := r.len }
        if r.ret < 0 then .stop ({ s with alive := -1 }, p)
        else if 0 < r.ret ∨ r.len = 0 then .next (s, p)
        else (loop (withSignal Walk.sighandler (decapBody D)) bound (⟨s, 0⟩, p)).leave
          fun w => (w.1.env, w.2)

def processDecapSignalled (D : Decapsulator δ) (params : ProcessDecapParams) (bound : Nat)
    (events : List DecapEvent) (s : DecapState δ) (p : SignalAt) :
    Flow (DecapState δ × SignalAt) :=
  feed (decapStepSignalled D params bound) events (s, p)

theorem decapBody_tap (D : Decapsulator δ) (w : Walk δ) :
    w.env.tap <+: (decapBody D w).state.env.tap := by
  rcases decapBody_cases D w with ⟨_, hb⟩ | ⟨_, _, hb⟩ | ⟨_, _, hb⟩
  · rw [hb]
    exact List.prefix_rfl
  · rw [hb]
    exact List.prefix_rfl
  · rw [hb, Flow.state_next, Walk.advance]
    split
    · exact List.prefix_append _ _
    · exact List.prefix_rfl

/-- A pass of the outer loop that the signal does not meet at its start leaves the TAP
    interface alone, or is the inner loop. -/
theorem decapStepSignalled_cases (D : Decapsulator δ) (params : ProcessDecapParams)
    (bound : Nat) (event : DecapEvent) (s : DecapState δ) {p q : SignalAt}
    (hpass : signalled DecapState.sighandler s p = (s, q)) :
    ((decapStep D params bound event s).state.tap = s.tap ∧
      decapStepSignalled D params bound event (s, p) =
        (decapStep D params bound event s).map fun u => (u, q)) ∨
    ∃ w : Walk δ, w.env.tap = s.tap ∧
      decapStep D params bound event s = (loop (decapBody D) bound w).leave Walk.env ∧
      decapStepSignalled D params bound event (s, p) =
        (loop (withSignal Walk.sighandler (decapBody D)) bound (w, q)).leave
          fun w => (w.1.env, w.2) := by
  unfold decapStep decapStepSignalled
  simp only [hpass]
  by_cases halive : s.alive ≠ 0
  · simp only [if_pos halive]
    exact .inl ⟨rfl, rfl⟩
  simp only [if_neg halive]
  cases event with
  | timeout => exact .inl ⟨rfl, rfl⟩
  | pselectFailed => exact .inl ⟨rfl, rfl⟩
  | readable recvfrom =>
    cases hread : readUdp recvfrom params.remote (sizeT params.payloadLen) s.dataReceived
        s.lenReceived with
    | none =>
      simp only [hread]
      exact .inl ⟨rfl, rfl⟩
    | some r =>
      simp only [hread]
      by_cases hret : r.ret < 0
      · simp only [if_pos hret]
        exact .inl ⟨rfl, rfl⟩
      simp only [if_neg hret]
      by_cases hdrop : 0 < r.ret ∨ r.len = 0
      · simp only [if_pos hdrop]
        exact .inl ⟨rfl, rfl⟩
      simp only [if_neg hdrop]
      exact .inr ⟨_, rfl, rfl, rfl⟩

/-- The frames written are not taken back. -/
theorem decapStep_tap (D : Decapsulator δ) (params : ProcessDecapParams) (bound : Nat)
    (event : DecapEvent) (s : DecapState δ) :
    s.tap <+: (decapStep D params bound event s).state.tap := by
  rcases decapStepSignalled_cases D params bound event s (p := none) rfl with
    ⟨htap, _⟩ | ⟨w, htap, hstep, _⟩
  · exact htap ▸ List.prefix_rfl
  · rw [hstep, Flow.state_leave]
    exact loop_inv (fun u : Walk δ => s.tap <+: u.env.tap)
      (fun u hu => hu.trans (decapBody_tap D u)) bound (htap ▸ List.prefix_rfl)

/-- A pass that the signal does not meet, or after which `alive` is 1. -/
theorem decapStepSignalled_prefix (D : Decapsulator δ) (params : ProcessDecapParams)
    (bound : Nat) (event : DecapEvent) (s : DecapState δ) (p : SignalAt) :
    (∃ q, decapStepSignalled D params bound event (s, p) =
        ((decapStep D params bound event s).map fun u => (u, q)) ∧ After 1 p q) ∨
    ∃ t : DecapState δ, p ≠ none ∧ t.alive = 1 ∧
      t.tap <+: (decapStep D params bound event s).state.tap ∧
      (decapStepSignalled D params bound event (s, p) = .next (t, none) ∨
        decapStepSignalled D params bound event (s, p) = .stop (t, none)) := by
  rcases signalled_cases DecapState.sighandler s p with ⟨q, hpass, hafter⟩ | ⟨hp, hhandled⟩
  · rcases decapStepSignalled_cases D params bound event s hpass with
      ⟨_, hsame⟩ | ⟨w, _, hstep, hsignalled⟩
    · exact .inl ⟨q, hsame, hafter⟩
    · have hend : ∀ u : Walk δ, decapBody D u.sighandler = .stop u.sighandler := fun u =>
        if_neg fun hrun => Int.one_ne_zero hrun.2
      rw [hstep, hsignalled]
      rcases loop_withSignal (fun u : Walk δ => u.env.tap) hend (decapBody_tap D) bound w q
        with ⟨r, hloop, hr⟩ | ⟨u, hq, hloop, hwritten⟩
      · refine .inl ⟨r, ?_, hafter.trans hr⟩
        rw [hloop]
        cases loop (decapBody D) bound w <;> rfl
      · refine .inr ⟨u.sighandler.env, fun hp => hq (hafter.none hp), rfl, ?_,
          .inl (by rw [hloop]; rfl)⟩
        rw [Flow.state_leave]
        exact hwritten
  · refine .inr ⟨s.sighandler, hp, rfl, decapStep_tap D params bound event s, .inr ?_⟩
    have halive : s.sighandler.alive ≠ 0 := Int.one_ne_zero
    simp only [decapStepSignalled, hhandled, if_pos halive]

/-- Over events: a run that the signal does not meet, or one that ends with `alive` 1. -/
theorem processDecapSignalled_prefix (D : Decapsulator δ) (params : ProcessDecapParams)
    (bound : Nat)
    (events : List DecapEvent) (s : DecapState δ) (p : SignalAt) :
    (∃ q, processDecapSignalled D params bound events s p =
        ((processDecap D params bound events s).map fun u => (u, q)) ∧ After 0 p q ∧
      ∀ t, processDecap D params bound events s = .next t → After events.length p q) ∨
    ∃ t : DecapState δ, p ≠ none ∧ t.alive = 1 ∧
      t.tap <+: (processDecap D params bound events s).state.tap ∧
      (processDecapSignalled D params bound events s p = .next (t, none) ∨
        processDecapSignalled D params bound events s p = .stop (t, none)) := by
  have hmono : ∀ (events : List DecapEvent) (u : DecapState δ),
      u.tap <+: (feed (decapStep D params bound) events u).state.tap := fun events u =>
    feed_inv (fun v : DecapState δ => u.tap <+: v.tap) events
      (fun event _ v hv => hv.trans (decapStep_tap D params bound event v)) List.prefix_rfl
  unfold processDecap processDecapSignalled
  induction events generalizing s p with
  | nil => exact .inl ⟨p, rfl, .refl p, fun _ _ => .refl p⟩
  | cons event events ih =>
    rw [feed_cons, feed_cons]
    rcases decapStepSignalled_prefix D params bound event s p with
      ⟨q, hsame, hafter⟩ | ⟨t, hp, halive, hwritten, hend⟩
    · rw [hsame]
      have hq : After 0 p q := hafter.mono (Nat.zero_le 1)
      cases hstep : decapStep D params bound event s with
      | next u =>
        rcases ih u q with ⟨r, hrest, hr, hpassed⟩ | ⟨t, hpending, hstopped⟩
        · refine .inl ⟨r, hrest, hq.trans hr, fun t ht => ?_⟩
          rw [List.length_cons]
          exact (hafter.trans (hpassed t ht)).mono (by omega)
        · exact .inr ⟨t, fun hp => hpending (hq.none hp), hstopped⟩
      | stop u => exact .inl ⟨q, rfl, hq, nofun⟩
      | fault u => exact .inl ⟨q, rfl, hq, nofun⟩
      | hang u => exact .inl ⟨q, rfl, hq, nofun⟩
    · refine .inr ⟨t, hp, halive, hwritten.trans ?_, ?_⟩
      · cases decapStep D params bound event s with
        | next u => exact hmono events u
        | stop u => exact List.prefix_rfl
        | fault u => exact List.prefix_rfl
        | hang u => exact List.prefix_rfl
      · rcases hend with hend | hend
        · rw [hend, Flow.next_andThen]
          cases events with
          | nil => exact .inl rfl
          | cons event' events =>
            refine .inr ?_
            have hstop : decapStepSignalled D params bound event' (t, none) = .stop (t, none) :=
              if_pos (halive ▸ Int.one_ne_zero : t.alive ≠ 0)
            rw [feed_cons, hstop]
            rfl
        · rw [hend]
          exact .inr rfl

/-- The frames are a prefix of those of the plain run, which it is if it was not stopped. -/
theorem processDecapSignalled_writes (D : Decapsulator δ) (params : ProcessDecapParams)
    (bound : Nat) (events : List DecapEvent) (s : DecapState δ) (p : SignalAt) :
    let run := processDecapSignalled D params bound events s p
    run.state.1.tap <+: (processDecap D params bound events s).state.tap ∧
      (run.state.1.alive ≠ 1 → run.map Prod.fst = processDecap D params bound events s) := by
  intro run
  rcases processDecapSignalled_prefix D params bound events s p with
    ⟨q, hsame, _⟩ | ⟨t, _, halive, hwritten, hend⟩
  · have hrun : run = (processDecap D params bound events s).map fun u => (u, q) := hsame
    rw [hrun]
    constructor
    · simp only [Flow.state_map]
      exact List.prefix_rfl
    · intro _
      cases processDecap D params bound events s <;> rfl
  · have hstate : run.state.1 = t := by
      rcases hend with hend | hend
      · exact congrArg (·.state.1) hend
      · exact congrArg (·.state.1) hend
    rw [hstate]
    exact ⟨hwritten, fun hne => absurd halive hne⟩

/-- **A stop signal at any time.** Whatever libgse answers and whatever arrives: a receiver
    that is stopped has written a prefix of the frames it would have written, and one that
    was not stopped just these. Back at its outer test it has `alive` 1 once the handler
    has run, which it has if there were more events than tests before the signal. -/
theorem decap_stopped (D : Decapsulator δ) (params : ProcessDecapParams) (bound : Nat)
    (events : List DecapEvent) (s : DecapState δ) (p : SignalAt) :
    let run := processDecapSignalled D params bound events s p
    run.state.1.tap <+: (processDecap D params bound events s).state.tap ∧
      (run.state.1.alive ≠ 1 →
        run.map Prod.fst = processDecap D params bound events s) ∧
      ∀ n t q, p = some n → run = .next (t, q) →
        (q = none → t.alive = 1) ∧ (n < events.length → q = none) := by
  intro run
  obtain ⟨hwrites, hplain⟩ := processDecapSignalled_writes D params bound events s p
  refine ⟨hwrites, hplain, ?_⟩
  intro n t q hp hnext
  rcases processDecapSignalled_prefix D params bound events s p with
    ⟨r, hsame, hafter, hpassed⟩ | ⟨u, _, halive, -, hend | hend⟩
  · have hrun : run = (processDecap D params bound events s).map fun u => (u, r) := hsame
    rw [hrun] at hnext
    cases hdecap : processDecap D params bound events s with
    | next u =>
      rw [hdecap] at hnext
      obtain ⟨rfl, rfl⟩ := Prod.mk.inj (Flow.next.inj hnext)
      obtain ⟨m, hm, hle⟩ := (hpassed u hdecap).some n hp
      refine ⟨fun hnone => ?_, fun hn => absurd hn (by omega)⟩
      rw [hnone] at hm
      cases hm
    | stop u => rw [hdecap] at hnext; cases hnext
    | fault u => rw [hdecap] at hnext; cases hnext
    | hang u => rw [hdecap] at hnext; cases hnext
  · obtain ⟨rfl, rfl⟩ := Prod.mk.inj (Flow.next.inj (hend.symm.trans hnext))
    exact ⟨fun _ => halive, fun _ => rfl⟩
  · cases hend.symm.trans hnext

/-! ### `alive` -/

theorem drainBody_alive (E : EncapConf σ ω) (d : Drain σ ω) :
    (drainBody E d).state.env.alive = d.env.alive := by
  rcases drainBody_cases E d with ⟨_, hb⟩ | ⟨_, _, _, hb⟩ | ⟨_, _, hb⟩ | ⟨_, _, _, hb⟩ |
    ⟨_, _, heap, pkt, _, hb⟩
  · rw [hb]
    rfl
  · rw [hb]
    rfl
  · rw [hb]
    rfl
  · rw [hb]
    rfl
  · rw [hb]
    rfl

/-- Only a failed `pselect` ends the loop without a signal. -/
theorem encapStep_alive (E : EncapConf σ ω) (bound : Nat) (event : EncapEvent)
    {s t : EncapState σ ω} (hs : s.alive = 0) :
    (encapStep E bound event s = .next t → t.alive = 0) ∧
      (encapStep E bound event s = .stop t → t.alive = -1) := by
  unfold encapStep
  rw [if_neg (fun h : s.alive ≠ 0 => h hs)]
  cases event with
  | timeout =>
    refine ⟨fun h => ?_, nofun⟩
    cases h
    exact hs
  | pselectFailed =>
    refine ⟨nofun, fun h => ?_⟩
    cases h
    rfl
  | readable read =>
    rcases receiveFrame_cases E read s with ⟨heap, hr⟩ | ⟨heap, hr⟩ |
      ⟨heap, pdu, _, hr⟩ | ⟨heap, pdu, _, hr⟩
    · simp only [hr]
      exact ⟨nofun, nofun⟩
    · simp only [hr]
      refine ⟨fun h => ?_, nofun⟩
      cases h
      exact hs
    · simp only [hr]
      refine ⟨fun h => ?_, nofun⟩
      cases h
      exact hs
    · simp only [hr]
      generalize hd : (⟨_, pdu, _, _⟩ : Drain σ ω) = d
      have halive : (loop (drainBody E) bound d).state.env.alive = 0 := by
        refine loop_inv (fun d : Drain σ ω => d.env.alive = 0)
          (fun d h => (drainBody_alive E d).trans h) bound ?_
        rw [← hd]
        exact hs
      cases hloop : loop (drainBody E) bound d with
      | next u => exact absurd hloop (loop_ne_next _ _ _ _)
      | stop u =>
        rw [hloop] at halive
        refine ⟨fun h => ?_, nofun⟩
        cases h
        exact halive
      | fault u => exact ⟨nofun, nofun⟩
      | hang u => exact ⟨nofun, nofun⟩

theorem processEncap_alive (E : EncapConf σ ω) (bound : Nat) (events : List EncapEvent)
    {s t : EncapState σ ω} (hs : s.alive = 0) :
    (processEncap E bound events s = .next t → t.alive = 0) ∧
      (processEncap E bound events s = .stop t → t.alive = -1) := by
  constructor
  · exact feed_next (fun s : EncapState σ ω => s.alive = 0) events
      (fun event _ s t h => (encapStep_alive E bound event h).1) hs
  · exact feed_stop (fun s : EncapState σ ω => s.alive = 0) (fun s => s.alive = -1) events
      (fun event s t h => (encapStep_alive E bound event h).1)
      (fun event s t h => (encapStep_alive E bound event h).2) hs

theorem decapBody_alive (D : Decapsulator δ) {w : Walk δ}
    (hw : w.env.alive = 0 ∨ w.env.alive = -1) :
    (decapBody D w).state.env.alive = 0 ∨ (decapBody D w).state.env.alive = -1 := by
  have hafter : (w.afterDeencap D).env.alive = 0 ∨ (w.afterDeencap D).env.alive = -1 := by
    by_cases hcreated : (w.created D).status ≠ .ok
    · exact .inr (if_pos hcreated)
    · rw [show (w.afterDeencap D).env.alive = w.env.alive from if_neg hcreated]
      exact hw
  rcases decapBody_cases D w with ⟨_, hb⟩ | ⟨_, _, hb⟩ | ⟨_, _, hb⟩
  · rw [hb]
    exact hw
  · rw [hb]
    exact hafter
  · obtain ⟨tap, htap⟩ := w.advance_eq D
    rw [hb, htap]
    exact hafter

/-- A failed `gse_create_vfrag_with_data` ends the loop as well, at its next test. -/
theorem decapStep_alive (D : Decapsulator δ) (params : ProcessDecapParams) (bound : Nat)
    (event : DecapEvent) {s t : DecapState δ} (hs : s.alive = 0 ∨ s.alive = -1) :
    (decapStep D params bound event s = .next t → t.alive = 0 ∨ t.alive = -1) ∧
      (decapStep D params bound event s = .stop t → t.alive = -1) := by
  unfold decapStep
  by_cases halive : s.alive ≠ 0
  · rw [if_pos halive]
    refine ⟨nofun, fun h => ?_⟩
    cases h
    exact hs.resolve_left halive
  rw [if_neg halive]
  cases event with
  | timeout =>
    refine ⟨fun h => ?_, nofun⟩
    cases h
    exact hs
  | pselectFailed =>
    refine ⟨nofun, fun h => ?_⟩
    cases h
    rfl
  | readable recvfrom =>
    cases hread : readUdp recvfrom params.remote (sizeT params.payloadLen) s.dataReceived
        s.lenReceived with
    | none =>
      simp only [hread]
      exact ⟨nofun, nofun⟩
    | some r =>
      simp only [hread]
      by_cases hret : r.ret < 0
      · rw [if_pos hret]
        refine ⟨nofun, fun h => ?_⟩
        cases h
        rfl
      rw [if_neg hret]
      by_cases hdrop : 0 < r.ret ∨ r.len = 0
      · rw [if_pos hdrop]
        refine ⟨fun h => ?_, nofun⟩
        cases h
        exact hs
      rw [if_neg hdrop]
      generalize hw : (⟨_, 0⟩ : Walk δ) = w
      have hend : (loop (decapBody D) bound w).state.env.alive = 0 ∨
          (loop (decapBody D) bound w).state.env.alive = -1 := by
        refine loop_inv (fun w : Walk δ => w.env.alive = 0 ∨ w.env.alive = -1)
          (fun w h => decapBody_alive D h) bound ?_
        rw [← hw]
        exact hs
      cases hloop : loop (decapBody D) bound w with
      | next u => exact absurd hloop (loop_ne_next _ _ _ _)
      | stop u =>
        rw [hloop] at hend
        refine ⟨fun h => ?_, nofun⟩
        cases h
        exact hend
      | fault u => exact ⟨nofun, nofun⟩
      | hang u => exact ⟨nofun, nofun⟩

theorem processDecap_alive (D : Decapsulator δ) (params : ProcessDecapParams) (bound : Nat)
    (events : List DecapEvent) {s t : DecapState δ} (hs : s.alive = 0 ∨ s.alive = -1) :
    (processDecap D params bound events s = .next t → t.alive = 0 ∨ t.alive = -1) ∧
      (processDecap D params bound events s = .stop t → t.alive = -1) := by
  constructor
  · exact feed_next (fun s : DecapState δ => s.alive = 0 ∨ s.alive = -1) events
      (fun event _ s t h => (decapStep_alive D params bound event h).1) hs
  · exact feed_stop (fun s : DecapState δ => s.alive = 0 ∨ s.alive = -1)
      (fun s => s.alive = -1) events
      (fun event s t h => (decapStep_alive D params bound event h).1)
      (fun event s t h => (decapStep_alive D params bound event h).2) hs

/-! ### The end of a loop -/

/-- The loop up to the test after the last event: it is left, or waits for another event. -/
def encapLoop (E : EncapConf σ ω) (bound : Nat) (events : List EncapEvent) (s : EncapState σ ω)
    (p : SignalAt) : Flow (EncapState σ ω × SignalAt) :=
  (processEncapSignalled E bound events s p).andThen
    (withSignal EncapState.sighandler (test fun s => s.alive = 0))

def decapLoop (D : Decapsulator δ) (params : ProcessDecapParams) (bound : Nat)
    (events : List DecapEvent) (s : DecapState δ) (p : SignalAt) :
    Flow (DecapState δ × SignalAt) :=
  (processDecapSignalled D params bound events s p).andThen
    (withSignal DecapState.sighandler (test fun s => s.alive = 0))

/-- The value of `alive` that the `return` looks at, if the loop has been left. -/
def loopEnd {σ : Type} (alive : σ → Int) (sighandler : σ → σ) (afterLoop : Bool) :
    Flow (σ × SignalAt) → Option Int
  | .stop (s, _) => some (alive (if afterLoop then sighandler s else s))
  | .next _ => none
  | .fault _ => none
  | .hang _ => none

/-- A signal before a test that the loop comes to, or one after the loop. -/
def EncapStopped (E : EncapConf σ ω) (bound : Nat) (events : List EncapEvent)
    (s : EncapState σ ω) (signals : StopSignals) : Prop :=
  signals.afterLoop = true ∨ ∃ n, signals.atTest = some n ∧ n ≤ events.length ∧
    ∃ t, processEncap E bound (events.take n) s = .next t

/-- The same; how many tests an event takes is up to libgse, so the handler is looked at in
    the loop itself. -/
def DecapStopped (D : Decapsulator δ) (params : ProcessDecapParams) (bound : Nat)
    (events : List DecapEvent) (s : DecapState δ) (signals : StopSignals) : Prop :=
  signals.afterLoop = true ∨ ∃ t q, decapLoop D params bound events s signals.atTest =
    .stop (t, q) ∧ Handled signals.atTest q

/-- A loop that is left with `alive` 1 or -1, with 1 exactly if it was stopped, returns
    success exactly if it was stopped or a signal came behind it. -/
theorem loopEnd_nonneg_iff {σ : Type} {alive : σ → Int} {sighandler : σ → σ}
    {afterLoop : Bool} {flow : Flow (σ × SignalAt)} {a : Int} {Stopped : Prop}
    (hend : loopEnd alive sighandler afterLoop flow = some a)
    (hhandler : ∀ s, alive (sighandler s) = 1)
    (hstop : ∀ s q, flow = .stop (s, q) → Stopped ∧ alive s = 1 ∨ ¬Stopped ∧ alive s = -1) :
    a ≥ 0 ↔ afterLoop = true ∨ Stopped := by
  cases flow with
  | next u => cases hend
  | fault u => cases hend
  | hang u => cases hend
  | stop u =>
    have ha : alive (if afterLoop then sighandler u.1 else u.1) = a := Option.some.inj hend
    cases afterLoop with
    | true =>
      have ha : alive (sighandler u.1) = a := ha
      rw [← ha, hhandler]
      exact iff_of_true (by decide) (.inl rfl)
    | false =>
      have ha : alive u.1 = a := ha
      rcases hstop u.1 u.2 rfl with ⟨hstopped, halive⟩ | ⟨hno, halive⟩
      · rw [← ha, halive]
        exact iff_of_true (by decide) (.inr hstopped)
      · rw [← ha, halive]
        exact iff_of_false (by decide) (by simp [hno])

/-- The sender is left with `alive` 1 if the handler ran before a test, else with -1. -/
theorem encapLoop_stop (E : EncapConf σ ω) (bound : Nat) (events : List EncapEvent)
    {s t : EncapState σ ω} (hs : s.alive = 0) {p q : SignalAt}
    (hloop : encapLoop E bound events s p = .stop (t, q)) :
    let Stopped := ∃ n, p = some n ∧ n ≤ events.length ∧
      ∃ u, processEncap E bound (events.take n) s = .next u
    Stopped ∧ t.alive = 1 ∨ ¬Stopped ∧ t.alive = -1 := by
  have hends : ∀ event (s : EncapState σ ω),
      encapStep E bound event s.sighandler = .stop s.sighandler :=
    fun _ s => if_pos (Int.one_ne_zero : s.sighandler.alive ≠ 0)
  have htest : (encapLoop E bound events s p).map Prod.fst =
      (processEncap E bound (events.take (p.getD events.length)) s).andThen fun t =>
        if p.getD (events.length + 1) ≤ events.length then .stop t.sighandler
        else test (fun s : EncapState σ ω => s.alive = 0) t :=
    feed_withSignal_test hends (fun s => (Int.one_ne_zero : s.sighandler.alive ≠ 0)) events s p
  rw [hloop, Flow.map_stop] at htest
  cases hrun : processEncap E bound (events.take (p.getD events.length)) s with
  | next u =>
    have halive := (processEncap_alive E bound _ hs).1 hrun
    rw [hrun, Flow.next_andThen] at htest
    by_cases hmet : p.getD (events.length + 1) ≤ events.length
    · obtain ⟨n, rfl⟩ : ∃ n, p = some n := by
        refine Option.ne_none_iff_exists'.mp fun hp => ?_
        rw [hp, Option.getD_none] at hmet
        omega
      rw [if_pos hmet] at htest
      obtain rfl : t = u.sighandler := Flow.stop.inj htest
      exact .inl ⟨⟨n, rfl, hmet, u, hrun⟩, rfl⟩
    · rw [if_neg hmet, test, if_pos halive] at htest
      cases htest
  | stop u =>
    rw [hrun] at htest
    obtain rfl : t = u := Flow.stop.inj htest
    refine .inr ⟨?_, (processEncap_alive E bound _ hs).2 hrun⟩
    rintro ⟨n, rfl, hn, u, hnext⟩
    cases hrun.symm.trans hnext
  | fault u => rw [hrun] at htest; cases htest
  | hang u => rw [hrun] at htest; cases htest

theorem encapLoop_alive_iff (E : EncapConf σ ω) (bound : Nat) (events : List EncapEvent)
    {s : EncapState σ ω} (hs : s.alive = 0) (signals : StopSignals) {a : Int}
    (hend : loopEnd EncapState.alive EncapState.sighandler signals.afterLoop
      (encapLoop E bound events s signals.atTest) = some a) :
    a ≥ 0 ↔ EncapStopped E bound events s signals :=
  loopEnd_nonneg_iff hend (fun _ => rfl) (fun _ _ => encapLoop_stop E bound events hs)

/-- The receiver is left with `alive` 1 if the handler was the last to set it. -/
theorem decapLoop_stop (D : Decapsulator δ) (params : ProcessDecapParams) (bound : Nat)
    (events : List DecapEvent) {s t : DecapState δ} (hs : s.alive = 0) {p q : SignalAt}
    (hloop : decapLoop D params bound events s p = .stop (t, q)) :
    Handled p q ∧ t.alive = 1 ∨ ¬Handled p q ∧ t.alive = -1 := by
  unfold decapLoop at hloop
  obtain ⟨hnext, hstop⟩ := processDecap_alive D params bound events (s := s) (t := t) (.inl hs)
  rcases processDecapSignalled_prefix D params bound events s p with
    ⟨r, hsame, hafter, -⟩ | ⟨u, hp, halive, -, hend | hend⟩
  · rw [hsame] at hloop
    cases hdecap : processDecap D params bound events s with
    | next u =>
      rw [hdecap, Flow.map_next, Flow.next_andThen] at hloop
      rcases signalled_cases DecapState.sighandler u r with ⟨r', hpass, hr⟩ | ⟨hr, hhandled⟩
      · rw [withSignal_test hpass] at hloop
        by_cases hu : u.alive = 0
        · rw [if_pos hu] at hloop
          cases hloop
        · rw [if_neg hu] at hloop
          obtain ⟨rfl, rfl⟩ := Prod.mk.inj (Flow.stop.inj hloop)
          refine .inr ⟨(hafter.trans hr).not_handled, ?_⟩
          exact (hnext hdecap).resolve_left hu
      · have hone : u.sighandler.alive ≠ 0 := Int.one_ne_zero
        rw [withSignal_test hhandled, if_neg hone] at hloop
        obtain ⟨rfl, rfl⟩ := Prod.mk.inj (Flow.stop.inj hloop)
        exact .inl ⟨⟨fun hp => hr (hafter.none hp), rfl⟩, rfl⟩
    | stop u =>
      rw [hdecap] at hloop
      obtain ⟨rfl, rfl⟩ := Prod.mk.inj (Flow.stop.inj hloop)
      exact .inr ⟨hafter.not_handled, hstop hdecap⟩
    | fault u => rw [hdecap] at hloop; cases hloop
    | hang u => rw [hdecap] at hloop; cases hloop
  · have hne : ¬u.alive = 0 := by
      rw [halive]
      decide
    rw [hend, Flow.next_andThen, withSignal_test (t := u) (q := none) rfl, if_neg hne] at hloop
    obtain ⟨rfl, rfl⟩ := Prod.mk.inj (Flow.stop.inj hloop)
    exact .inl ⟨⟨hp, rfl⟩, halive⟩
  · rw [hend] at hloop
    obtain ⟨rfl, rfl⟩ := Prod.mk.inj (Flow.stop.inj hloop)
    exact .inl ⟨⟨hp, rfl⟩, halive⟩

theorem decapLoop_alive_iff (D : Decapsulator δ) (params : ProcessDecapParams) (bound : Nat)
    (events : List DecapEvent) {s : DecapState δ} (hs : s.alive = 0) (signals : StopSignals)
    {a : Int} (hend : loopEnd DecapState.alive DecapState.sighandler signals.afterLoop
      (decapLoop D params bound events s signals.atTest) = some a) :
    a ≥ 0 ↔ DecapStopped D params bound events s signals := by
  refine loopEnd_nonneg_iff hend (fun _ => rfl) (fun t q hloop => ?_)
  have hhandled : (∃ u r, decapLoop D params bound events s signals.atTest = .stop (u, r) ∧
      Handled signals.atTest r) ↔ Handled signals.atTest q := by
    constructor
    · rintro ⟨u, r, heq, h⟩
      obtain ⟨rfl, rfl⟩ := Prod.mk.inj (Flow.stop.inj (hloop.symm.trans heq))
      exact h
    · intro h
      exact ⟨t, q, hloop, h⟩
  rw [hhandled]
  exact decapLoop_stop D params bound events hs hloop

end DvbGseTunnel
