import DvbGseTunnel.Lib.Loop

/-!
# Loops that a signal ends

A signal handler may run between any two passes of a loop and changes the state so that the
test of the loop fails. A run with a signal is the run without it, cut off at a pass: it has
put out a prefix of what the other puts out (`loop_withSignal`), and, over events, it has
handled the first of them and not begun the next (`feed_withSignal`). The handler may also
run before the test that follows the last event (`feed_withSignal_test`).
-/

namespace DvbGseTunnel.Lib

variable {σ τ ι β : Type}

namespace Flow

def map (f : σ → τ) : Flow σ → Flow τ
  | .next s => .next (f s)
  | .stop s => .stop (f s)
  | .fault s => .fault (f s)
  | .hang s => .hang (f s)

@[simp] theorem map_next (f : σ → τ) (s : σ) : (Flow.next s).map f = .next (f s) := rfl
@[simp] theorem map_stop (f : σ → τ) (s : σ) : (Flow.stop s).map f = .stop (f s) := rfl
@[simp] theorem map_fault (f : σ → τ) (s : σ) : (Flow.fault s).map f = .fault (f s) := rfl
@[simp] theorem map_hang (f : σ → τ) (s : σ) : (Flow.hang s).map f = .hang (f s) := rfl

@[simp] theorem state_map (f : σ → τ) (r : Flow σ) : (r.map f).state = f r.state := by
  cases r <;> rfl

end Flow

/-- The number of tests before the one that the handler runs before; `none` if it does not
    run, or has run. -/
abbrev SignalAt := Option Nat

/-- What the handler leaves of the state at a test. -/
def signalled (handler : σ → σ) (s : σ) : SignalAt → σ × SignalAt
  | none => (s, none)
  | some 0 => (handler s, none)
  | some (n + 1) => (s, some n)

/-- A pass before which the handler may run. -/
def withSignal (handler : σ → σ) (body : σ → Flow σ) (s : σ × SignalAt) : Flow (σ × SignalAt) :=
  let t := signalled handler s.1 s.2
  (body t.1).map fun u => (u, t.2)

/-- `q` is what is pending after at least `k` more tests than at `p`; the handler has not
    run in between. -/
structure After (k : Nat) (p q : SignalAt) : Prop where
  none : p = none → q = none
  some : ∀ n, p = some n → ∃ m, q = some m ∧ m + k ≤ n

/-- The handler has run between `p` and `q`. -/
def Handled (p q : SignalAt) : Prop := p ≠ none ∧ q = none

instance (p q : SignalAt) : Decidable (Handled p q) := inferInstanceAs (Decidable (_ ∧ _))

theorem After.refl (p : SignalAt) : After 0 p p := ⟨id, fun n hn => ⟨n, hn, Nat.le_refl n⟩⟩

theorem After.trans {k l : Nat} {p q r : SignalAt} (h : After k p q) (h' : After l q r) :
    After (k + l) p r := by
  refine ⟨fun hp => h'.none (h.none hp), fun n hn => ?_⟩
  obtain ⟨m, hm, hle⟩ := h.some n hn
  obtain ⟨i, hi, hle'⟩ := h'.some m hm
  exact ⟨i, hi, by omega⟩

theorem After.mono {k l : Nat} {p q : SignalAt} (h : After l p q) (hle : k ≤ l) : After k p q := by
  refine ⟨h.none, fun n hn => ?_⟩
  obtain ⟨m, hm, hmn⟩ := h.some n hn
  exact ⟨m, hm, by omega⟩

theorem After.not_handled {k : Nat} {p q : SignalAt} (h : After k p q) : ¬Handled p q := by
  rintro ⟨hp, rfl⟩
  obtain ⟨n, rfl⟩ := Option.ne_none_iff_exists'.mp hp
  obtain ⟨m, hm, -⟩ := h.some n rfl
  cases hm

theorem signalled_cases (handler : σ → σ) (s : σ) (p : SignalAt) :
    (∃ q, signalled handler s p = (s, q) ∧ After 1 p q) ∨
      p ≠ none ∧ signalled handler s p = (handler s, none) := by
  match p with
  | none => exact .inl ⟨none, rfl, fun _ => rfl, nofun⟩
  | some 0 => exact .inr ⟨Option.some_ne_none 0, rfl⟩
  | some (n + 1) =>
    refine .inl ⟨some n, rfl, fun h => absurd h (Option.some_ne_none _), fun m hm => ⟨n, rfl, ?_⟩⟩
    exact Nat.le_of_eq (Option.some.inj hm)

/-- A pass without the handler, or the end of the loop. -/
theorem withSignal_cases {handler : σ → σ} {body : σ → Flow σ}
    (hend : ∀ s, body (handler s) = .stop (handler s)) (s : σ) (p : SignalAt) :
    (∃ q, withSignal handler body (s, p) = ((body s).map fun u => (u, q)) ∧ After 1 p q) ∨
      p ≠ none ∧ withSignal handler body (s, p) = .stop (handler s, none) := by
  rcases signalled_cases handler s p with ⟨q, hq, hafter⟩ | ⟨hp, hhandled⟩
  · refine .inl ⟨q, ?_, hafter⟩
    rw [withSignal]
    simp only [hq]
  · refine .inr ⟨hp, ?_⟩
    rw [withSignal]
    simp only [hhandled, hend]
    rfl

section

variable {handler : σ → σ} {body : σ → Flow σ}

/-- The loop with a signal is the same, or ends with a prefix of what the other puts out. -/
theorem loop_withSignal (out : σ → List β) (hend : ∀ s, body (handler s) = .stop (handler s))
    (hout : ∀ s, out s <+: out (body s).state) (bound : Nat) (s : σ) (p : SignalAt) :
    (∃ q, loop (withSignal handler body) bound (s, p) =
      ((loop body bound s).map fun u => (u, q)) ∧ After 0 p q) ∨
    ∃ t, p ≠ none ∧ loop (withSignal handler body) bound (s, p) = .stop (handler t, none) ∧
      out t <+: out (loop body bound s).state := by
  have hmono : ∀ n t, out t <+: out (loop body n t).state := fun n t =>
    loop_inv (fun u => out t <+: out u) (fun u hu => hu.trans (hout u)) n List.prefix_rfl
  induction bound generalizing s p with
  | zero => exact .inl ⟨p, rfl, .refl p⟩
  | succ n ih =>
    rcases withSignal_cases hend s p with ⟨q, hbody, hafter⟩ | ⟨hp, hbody⟩
    · have hq : After 0 p q := hafter.mono (Nat.zero_le 1)
      rw [loop_succ, loop_succ, hbody]
      cases hb : body s with
      | next u =>
        rcases ih u q with ⟨r, hsame, hr⟩ | ⟨t, hpending, hstop, hwritten⟩
        · exact .inl ⟨r, hsame, hq.trans hr⟩
        · exact .inr ⟨t, fun hp => hpending (hq.none hp), hstop, hwritten⟩
      | stop u => exact .inl ⟨q, rfl, hq⟩
      | fault u => exact .inl ⟨q, rfl, hq⟩
      | hang u => exact .inl ⟨q, rfl, hq⟩
    · refine .inr ⟨s, hp, ?_, hmono (n + 1) s⟩
      rw [loop_succ, hbody]
      rfl

end

/-- Over events, those before the handler runs are handled as without it. -/
theorem feed_withSignal {handler : σ → σ} {step : ι → σ → Flow σ}
    (hend : ∀ i s, step i (handler s) = .stop (handler s)) (events : List ι) (s : σ)
    (p : SignalAt) :
    (feed (fun i => withSignal handler (step i)) events (s, p)).map Prod.fst =
      (feed step (events.take (p.getD events.length)) s).andThen fun t =>
        if p.getD events.length < events.length then .stop (handler t) else .next t := by
  induction events generalizing s p with
  | nil =>
    rw [List.take_nil, feed_nil, feed_nil, Flow.next_andThen, List.length_nil,
      if_neg (Nat.not_lt_zero _)]
    rfl
  | cons i events ih =>
    have hpass : ∀ q : SignalAt, withSignal handler (step i) (s, p) =
        ((step i s).map fun u => (u, q)) →
        p.getD (events.length + 1) = q.getD events.length + 1 →
        (feed (fun i => withSignal handler (step i)) (i :: events) (s, p)).map Prod.fst =
          (feed step ((i :: events).take (p.getD (events.length + 1))) s).andThen fun t =>
            if p.getD (events.length + 1) < events.length + 1 then .stop (handler t)
            else .next t := by
      intro q hbody hq
      rw [feed_cons, hbody, hq, List.take_succ_cons, feed_cons]
      cases step i s with
      | next u =>
        rw [Flow.map_next, Flow.next_andThen, Flow.next_andThen, ih]
        simp only [Nat.add_lt_add_iff_right]
      | stop u => rfl
      | fault u => rfl
      | hang u => rfl
    match p with
    | none => exact hpass none rfl rfl
    | some (n + 1) => exact hpass (some n) rfl rfl
    | some 0 =>
      have hbody : withSignal handler (step i) (s, some 0) = .stop (handler s, none) := by
        rw [withSignal, signalled, hend]
        rfl
      rw [feed_cons, hbody, Option.getD_some, List.take_zero, feed_nil, Flow.next_andThen,
        List.length_cons, if_pos (Nat.zero_lt_succ _)]
      rfl

/-- The test of a loop by itself. -/
def test (running : σ → Prop) [DecidablePred running] (s : σ) : Flow σ :=
  if running s then .next s else .stop s

theorem withSignal_test {handler : σ → σ} {running : σ → Prop} [DecidablePred running] {s t : σ}
    {p q : SignalAt} (h : signalled handler s p = (t, q)) :
    withSignal handler (test running) (s, p) =
      if running t then .next (t, q) else .stop (t, q) := by
  rw [withSignal]
  simp only [h, test]
  split
  · rfl
  · rfl

/-- Up to the test after the last event, which the handler may also run before. The test
    counts as one event more, that of an empty pass. -/
theorem feed_withSignal_test {handler : σ → σ} {step : ι → σ → Flow σ} {running : σ → Prop}
    [DecidablePred running] (hend : ∀ i s, step i (handler s) = .stop (handler s))
    (hleft : ∀ s, ¬running (handler s)) (events : List ι) (s : σ) (p : SignalAt) :
    ((feed (fun i => withSignal handler (step i)) events (s, p)).andThen
        (withSignal handler (test running))).map Prod.fst =
      (feed step (events.take (p.getD events.length)) s).andThen fun t =>
        if p.getD (events.length + 1) ≤ events.length then .stop (handler t)
        else test running t := by
  let pass : Option ι → σ → Flow σ := fun i => i.elim (test running) step
  have hpass : ∀ i s, pass i (handler s) = .stop (handler s) := by
    intro i s
    cases i with
    | none => exact if_neg (hleft s)
    | some i => exact hend i s
  have hsome : ∀ (events : List ι) s, feed pass (events.map some) s = feed step events s :=
    fun events s => feed_map_event pass some events s
  have hrun := feed_withSignal hpass (events.map some ++ [none]) s p
  rw [feed_append, feed_map_event, List.length_append, List.length_map, List.length_singleton]
    at hrun
  have hlast : feed (fun i => withSignal handler (pass i)) [none] =
      withSignal handler (test running) := funext fun s => feed_singleton _ _ s
  rw [hlast] at hrun
  refine hrun.trans ?_
  by_cases hmet : p.getD (events.length + 1) ≤ events.length
  · -- the handler runs before one of the events, or before the test
    obtain ⟨n, rfl⟩ : ∃ n, p = some n := by
      refine Option.ne_none_iff_exists'.mp fun hp => ?_
      rw [hp, Option.getD_none] at hmet
      omega
    rw [Option.getD_some] at hmet
    simp only [Option.getD_some]
    rw [List.take_append_of_le_length (by rw [List.length_map]; exact hmet), ← List.map_take, hsome]
    simp only [if_pos (Nat.lt_succ_of_le hmet), if_pos hmet]
  · have hall : (events.map some ++ [none]).take (p.getD (events.length + 1)) =
        events.map some ++ [none] := by
      refine List.take_of_length_le ?_
      rw [List.length_append, List.length_map, List.length_singleton]
      omega
    have hevents : events.take (p.getD events.length) = events := by
      refine List.take_of_length_le ?_
      cases p with
      | none => exact Nat.le_refl _
      | some n => exact Nat.le_of_lt (Nat.lt_of_not_le hmet)
    rw [hall, hevents, feed_append, hsome]
    cases feed step events s with
    | next t =>
      have hpassed : ¬p.getD (events.length + 1) < events.length + 1 := by omega
      simp only [Flow.next_andThen, if_neg hmet, if_neg hpassed, feed_singleton]
      change (test running t).andThen _ = test running t
      cases test running t <;> rfl
    | stop t => rfl
    | fault t => rfl
    | hang t => rfl

end DvbGseTunnel.Lib
