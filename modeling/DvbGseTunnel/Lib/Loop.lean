import Mathlib.Algebra.Order.Ring.Nat
import Mathlib.Data.List.Forall2

/-!
# Loops that may stop, fault or hang

A program whose main function is `while (running) { ... while (...) { ... } }`
is modelled by two iterators: `loop`, a `while` loop whose body may run at most
a given number of times, and `feed`, an outer loop that handles one event of its
environment a pass. Both share one type of outcomes, `Flow`, which keeps the
state reached also when the run ends badly, so that what the program did up to
that point can still be talked about.

The rules are those of partial and total correctness: an invariant for the
states reached (`loop_inv`, `feed_inv`), what the steps of a run over a list of
items build up (`feed_map`), a lockstep relation between two runs (`loop_rel`) and
its stuttering form, in which one run skips events the other handles without
effect (`feed_filter`).
-/

namespace DvbGseTunnel.Lib

/-- How a pass of a loop body, or a whole loop, ends. -/
inductive Flow (σ : Type) where
  /-- back to the test of the loop -/
  | next (s : σ)
  /-- out of the loop: the test failed, or a `break` -/
  | stop (s : σ)
  /-- undefined behaviour or a panic; `s` is the state in which it happened -/
  | fault (s : σ)
  /-- the bound on the number of passes of an inner loop was reached -/
  | hang (s : σ)
deriving Repr

variable {σ τ ι : Type}

namespace Flow

def state : Flow σ → σ
  | .next s | .stop s | .fault s | .hang s => s

def andThen : Flow σ → (σ → Flow σ) → Flow σ
  | .next s, f => f s
  | .stop s, _ => .stop s
  | .fault s, _ => .fault s
  | .hang s, _ => .hang s

/-- What follows an inner loop: once it is left, the outer pass goes back to
    its own test with the state `f` makes of the inner one. -/
def leave (f : σ → τ) : Flow σ → Flow τ
  | .next s => .next (f s)
  | .stop s => .next (f s)
  | .fault s => .fault (f s)
  | .hang s => .hang (f s)

@[simp] theorem state_next (s : σ) : (Flow.next s).state = s := rfl
@[simp] theorem state_stop (s : σ) : (Flow.stop s).state = s := rfl
@[simp] theorem state_fault (s : σ) : (Flow.fault s).state = s := rfl
@[simp] theorem state_hang (s : σ) : (Flow.hang s).state = s := rfl

@[simp] theorem next_andThen (s : σ) (f : σ → Flow σ) : (Flow.next s).andThen f = f s := rfl
@[simp] theorem stop_andThen (s : σ) (f : σ → Flow σ) : (Flow.stop s).andThen f = .stop s := rfl
@[simp] theorem fault_andThen (s : σ) (f : σ → Flow σ) :
    (Flow.fault s).andThen f = .fault s := rfl
@[simp] theorem hang_andThen (s : σ) (f : σ → Flow σ) : (Flow.hang s).andThen f = .hang s := rfl

theorem andThen_assoc (r : Flow σ) (f g : σ → Flow σ) :
    (r.andThen f).andThen g = r.andThen fun s => (f s).andThen g := by
  cases r <;> rfl

@[simp] theorem leave_next (f : σ → τ) (s : σ) : (Flow.next s).leave f = .next (f s) := rfl
@[simp] theorem leave_stop (f : σ → τ) (s : σ) : (Flow.stop s).leave f = .next (f s) := rfl
@[simp] theorem leave_fault (f : σ → τ) (s : σ) : (Flow.fault s).leave f = .fault (f s) := rfl
@[simp] theorem leave_hang (f : σ → τ) (s : σ) : (Flow.hang s).leave f = .hang (f s) := rfl

@[simp] theorem state_leave (f : σ → τ) (r : Flow σ) : (r.leave f).state = f r.state := by
  cases r <;> rfl

/-- A loop that was left, or is at its test. -/
theorem state_eq {r : Flow σ} {s : σ} (h : r = .next s ∨ r = .stop s) : r.state = s := by
  rcases h with rfl | rfl
  · rfl
  · rfl

/-- Two outcomes of the same kind whose states are related. -/
inductive Rel (R : σ → τ → Prop) : Flow σ → Flow τ → Prop
  | next {s t} : R s t → Rel R (.next s) (.next t)
  | stop {s t} : R s t → Rel R (.stop s) (.stop t)
  | fault {s t} : R s t → Rel R (.fault s) (.fault t)
  | hang {s t} : R s t → Rel R (.hang s) (.hang t)

theorem Rel.andThen {R : σ → τ → Prop} {r : Flow σ} {q : Flow τ} {f : σ → Flow σ}
    {g : τ → Flow τ} (h : Rel R r q) (hfg : ∀ s t, R s t → Rel R (f s) (g t)) :
    Rel R (r.andThen f) (q.andThen g) := by
  cases h with
  | next hr => exact hfg _ _ hr
  | stop hr => exact .stop hr
  | fault hr => exact .fault hr
  | hang hr => exact .hang hr

theorem Rel.eq_next {R : σ → τ → Prop} {r : Flow σ} {t : τ} (h : Rel R r (.next t)) :
    ∃ s, r = .next s ∧ R s t := by
  cases h with
  | next hr => exact ⟨_, rfl, hr⟩

theorem Rel.eq_stop {R : σ → τ → Prop} {r : Flow σ} {t : τ} (h : Rel R r (.stop t)) :
    ∃ s, r = .stop s ∧ R s t := by
  cases h with
  | stop hr => exact ⟨_, rfl, hr⟩

theorem Rel.leave {σ' τ' : Type} {R : σ → τ → Prop} {Q : σ' → τ' → Prop} {r : Flow σ}
    {q : Flow τ} {f : σ → σ'} {g : τ → τ'} (h : Rel R r q)
    (hfg : ∀ s t, r.state = s → R s t → Q (f s) (g t)) :
    Rel Q (r.leave f) (q.leave g) := by
  cases h with
  | next hr => exact .next (hfg _ _ rfl hr)
  | stop hr => exact .next (hfg _ _ rfl hr)
  | fault hr => exact .fault (hfg _ _ rfl hr)
  | hang hr => exact .hang (hfg _ _ rfl hr)

end Flow

/-! ### The inner loop -/

/-- `while` with a bound: the body is run until it stops, at most `n` times. The
    test of the loop is the first thing the body does. -/
def loop (body : σ → Flow σ) : Nat → σ → Flow σ
  | 0, s => .hang s
  | n + 1, s => (body s).andThen (loop body n)

theorem loop_succ (body : σ → Flow σ) (n : Nat) (s : σ) :
    loop body (n + 1) s = (body s).andThen (loop body n) := rfl

theorem loop_ne_next (body : σ → Flow σ) (n : Nat) (s t : σ) : loop body n s ≠ .next t := by
  induction n generalizing s with
  | zero => simp [loop]
  | succ n ih =>
    rw [loop_succ]
    cases h : body s with
    | next u => exact ih u
    | stop u => simp
    | fault u => simp
    | hang u => simp

/-- An invariant of the body holds in the state the loop ends in, however it
    ends. -/
theorem loop_inv {body : σ → Flow σ} (I : σ → Prop)
    (hbody : ∀ s, I s → I (body s).state) (n : Nat) {s : σ} (hs : I s) :
    I (loop body n s).state := by
  induction n generalizing s with
  | zero => exact hs
  | succ n ih =>
    rw [loop_succ]
    have hI := hbody s hs
    cases h : body s with
    | next u => rw [h] at hI; exact ih hI
    | stop u => rw [h] at hI; exact hI
    | fault u => rw [h] at hI; exact hI
    | hang u => rw [h] at hI; exact hI

/-- What an invariant of the passes that go on implies, and each pass establishes from
    it, holds in the state the loop ends in, however it ends. -/
theorem loop_state {body : σ → Flow σ} (I Q : σ → Prop) (hI : ∀ s, I s → Q s)
    (hnext : ∀ s t, I s → body s = .next t → I t) (hbody : ∀ s, I s → Q (body s).state)
    (n : Nat) {s : σ} (hs : I s) : Q (loop body n s).state := by
  induction n generalizing s with
  | zero => exact hI s hs
  | succ n ih =>
    rw [loop_succ]
    have hQ := hbody s hs
    cases h : body s with
    | next u => exact ih (hnext s u hs h)
    | stop u => rw [h] at hQ; exact hQ
    | fault u => rw [h] at hQ; exact hQ
    | hang u => rw [h] at hQ; exact hQ

/-- Partial correctness: a loop that is left establishes what its last pass
    establishes from the invariant. -/
theorem loop_stop {body : σ → Flow σ} (I Q : σ → Prop)
    (hnext : ∀ s t, I s → body s = .next t → I t)
    (hstop : ∀ s t, I s → body s = .stop t → Q t)
    {n : Nat} {s t : σ} (hs : I s) (hrun : loop body n s = .stop t) : Q t := by
  induction n generalizing s with
  | zero => simp [loop] at hrun
  | succ n ih =>
    rw [loop_succ] at hrun
    cases h : body s with
    | next u => rw [h] at hrun; exact ih (hnext s u hs h) hrun
    | stop u =>
      rw [h] at hrun
      obtain rfl : u = t := by simpa using hrun
      exact hstop s u hs h
    | fault u => rw [h] at hrun; simp at hrun
    | hang u => rw [h] at hrun; simp at hrun

theorem loop_stop_or_hang {body : σ → Flow σ}
    (hbody : ∀ s, (∃ t, body s = .next t) ∨ ∃ t, body s = .stop t) (n : Nat) (s : σ) :
    (∃ t, loop body n s = .stop t) ∨ ∃ t, loop body n s = .hang t := by
  induction n generalizing s with
  | zero => exact .inr ⟨s, rfl⟩
  | succ n ih =>
    rw [loop_succ]
    rcases hbody s with ⟨t, ht⟩ | ⟨t, ht⟩
    · rw [ht]
      exact ih t
    · rw [ht]
      exact .inl ⟨t, rfl⟩

theorem loop_rel {f : σ → Flow σ} {g : τ → Flow τ} (R : σ → τ → Prop)
    (hbody : ∀ s t, R s t → Flow.Rel R (f s) (g t)) (n : Nat) {s : σ} {t : τ} (h : R s t) :
    Flow.Rel R (loop f n s) (loop g n t) := by
  induction n generalizing s t with
  | zero => exact .hang h
  | succ n ih =>
    rw [loop_succ, loop_succ]
    exact (hbody s t h).andThen fun _ _ hr => ih hr

/-! ### The outer loop -/

/-- The outer loop over a finite list of events; `next` at the end means that
    it is back at its test, ready for another event. -/
def feed (step : ι → σ → Flow σ) : List ι → σ → Flow σ
  | [], s => .next s
  | i :: is, s => (step i s).andThen (feed step is)

@[simp] theorem feed_nil (step : ι → σ → Flow σ) (s : σ) : feed step [] s = .next s := rfl

theorem feed_cons (step : ι → σ → Flow σ) (i : ι) (is : List ι) (s : σ) :
    feed step (i :: is) s = (step i s).andThen (feed step is) := rfl

theorem feed_singleton (step : ι → σ → Flow σ) (i : ι) (s : σ) : feed step [i] s = step i s := by
  rw [feed_cons]
  cases step i s <;> rfl

theorem feed_append (step : ι → σ → Flow σ) (is js : List ι) (s : σ) :
    feed step (is ++ js) s = (feed step is s).andThen (feed step js) := by
  induction is generalizing s with
  | nil => rfl
  | cons i is ih =>
    rw [List.cons_append, feed_cons, feed_cons]
    cases step i s with
    | next t => exact ih t
    | stop t => rfl
    | fault t => rfl
    | hang t => rfl

theorem feed_map_event {μ : Type} (step : ι → σ → Flow σ) (event : μ → ι) (ms : List μ) (s : σ) :
    feed step (ms.map event) s = feed (fun m => step (event m)) ms s := by
  induction ms generalizing s with
  | nil => rfl
  | cons m ms ih =>
    rw [List.map_cons, feed_cons, feed_cons]
    exact congrArg _ (funext ih)

/-- An invariant of the step holds in the state the run ends in, however it
    ends. -/
theorem feed_inv {step : ι → σ → Flow σ} (I : σ → Prop) (is : List ι)
    (hstep : ∀ i ∈ is, ∀ s, I s → I (step i s).state) {s : σ} (hs : I s) :
    I (feed step is s).state := by
  induction is generalizing s with
  | nil => exact hs
  | cons i is ih =>
    have hI := hstep i (by simp) s hs
    rw [feed_cons]
    cases h : step i s with
    | next t =>
      rw [h] at hI
      exact ih (fun j hj => hstep j (by simp [hj])) hI
    | stop t => rw [h] at hI; exact hI
    | fault t => rw [h] at hI; exact hI
    | hang t => rw [h] at hI; exact hI

/-- An invariant of the steps that come back to the test holds at every return
    to the test. -/
theorem feed_next {step : ι → σ → Flow σ} (I : σ → Prop) (is : List ι)
    (hstep : ∀ i ∈ is, ∀ s t, I s → step i s = .next t → I t) {s t : σ} (hs : I s)
    (hrun : feed step is s = .next t) : I t := by
  induction is generalizing s with
  | nil =>
    obtain rfl : s = t := by simpa using hrun
    exact hs
  | cons i is ih =>
    rw [feed_cons] at hrun
    cases h : step i s with
    | next u =>
      rw [h] at hrun
      exact ih (fun j hj => hstep j (by simp [hj])) (hstep i (by simp) s u hs h) hrun
    | stop u => rw [h] at hrun; simp at hrun
    | fault u => rw [h] at hrun; simp at hrun
    | hang u => rw [h] at hrun; simp at hrun

/-- A run that is left establishes what its last step establishes from the invariant. -/
theorem feed_stop {step : ι → σ → Flow σ} (I Q : σ → Prop) (is : List ι)
    (hnext : ∀ i s t, I s → step i s = .next t → I t)
    (hstop : ∀ i s t, I s → step i s = .stop t → Q t) {s t : σ} (hs : I s)
    (hrun : feed step is s = .stop t) : Q t := by
  induction is generalizing s with
  | nil => simp at hrun
  | cons i is ih =>
    rw [feed_cons] at hrun
    cases h : step i s with
    | next u => rw [h] at hrun; exact ih (hnext i s u hs h) hrun
    | stop u =>
      rw [h] at hrun
      obtain rfl : u = t := by simpa using hrun
      exact hstop i s u hs h
    | fault u => rw [h] at hrun; simp at hrun
    | hang u => rw [h] at hrun; simp at hrun

/-- A run that does not come back to its test ends as its last event does. -/
theorem feed_eq_iff {step : ι → σ → Flow σ} {is : List ι} {s : σ} {r : Flow σ}
    (hr : ∀ t, r ≠ .next t) :
    feed step is s = r ↔ ∃ before i after u, is = before ++ i :: after ∧
      feed step before s = .next u ∧ step i u = r := by
  constructor
  · intro hrun
    induction is generalizing s with
    | nil => exact absurd hrun.symm (hr s)
    | cons i is ih =>
      rw [feed_cons] at hrun
      cases hstep : step i s with
      | next u =>
        rw [hstep] at hrun
        obtain ⟨before, j, after, v, rfl, hbefore, hj⟩ := ih hrun
        refine ⟨i :: before, j, after, v, rfl, ?_, hj⟩
        rw [feed_cons, hstep]
        exact hbefore
      | stop u =>
        rw [hstep] at hrun
        exact ⟨[], i, is, s, rfl, rfl, hstep.trans hrun⟩
      | fault u =>
        rw [hstep] at hrun
        exact ⟨[], i, is, s, rfl, rfl, hstep.trans hrun⟩
      | hang u =>
        rw [hstep] at hrun
        exact ⟨[], i, is, s, rfl, rfl, hstep.trans hrun⟩
  · rintro ⟨before, i, after, u, rfl, hbefore, hstep⟩
    rw [feed_append, hbefore, Flow.next_andThen, feed_cons, hstep]
    cases r with
    | next t => exact absurd rfl (hr t)
    | stop t => rfl
    | fault t => rfl
    | hang t => rfl

theorem feed_ne_stop {step : ι → σ → Flow σ} (h : ∀ i s t, step i s ≠ .stop t)
    (is : List ι) (s t : σ) : feed step is s ≠ .stop t := by
  intro hrun
  obtain ⟨_, i, _, u, _, _, hstop⟩ := (feed_eq_iff (r := .stop t) nofun).mp hrun
  exact h i u t hstop

/-- What each step adds to a log shows something of its event: the log of a run is that of
    the events handled, one after another. -/
theorem feed_log {β : Type} {step : ι → σ → Flow σ} (log : σ → List β) (I : σ → Prop)
    (P : ι → β → Prop)
    (hstep : ∀ i s, I s → I (step i s).state ∧
      ∃ new, log (step i s).state = log s ++ new ∧ ∀ b ∈ new, P i b)
    (is : List ι) {s : σ} (hs : I s) :
    ∃ news, log (feed step is s).state = log s ++ news.flatten ∧
      List.Forall₂ (fun i new => ∀ b ∈ new, P i b) (is.take news.length) news := by
  induction is generalizing s with
  | nil => exact ⟨[], (List.append_nil _).symm, .nil⟩
  | cons i is ih =>
    obtain ⟨hI, new, hlog, hnew⟩ := hstep i s hs
    have hone : List.Forall₂ (fun i new => ∀ b ∈ new, P i b) ((i :: is).take [new].length) [new] :=
      .cons hnew .nil
    rw [feed_cons]
    cases h : step i s with
    | next t =>
      rw [h] at hI hlog
      obtain ⟨news, hrest, hnews⟩ := ih (s := t) hI
      refine ⟨new :: news, ?_, .cons hnew hnews⟩
      rw [Flow.next_andThen, hrest, List.flatten_cons, ← List.append_assoc]
      exact congrArg (· ++ news.flatten) hlog
    | stop t =>
      rw [h] at hlog
      exact ⟨[new], hlog.trans (congrArg (log s ++ ·) (List.append_nil new).symm), hone⟩
    | fault t =>
      rw [h] at hlog
      exact ⟨[new], hlog.trans (congrArg (log s ++ ·) (List.append_nil new).symm), hone⟩
    | hang t =>
      rw [h] at hlog
      exact ⟨[new], hlog.trans (congrArg (log s ++ ·) (List.append_nil new).symm), hone⟩

/-- A run over one event for each item of a list: what each step keeps, given the items
    before it, the whole run keeps. -/
theorem feed_map {μ : Type} {step : ι → σ → Flow σ} (event : μ → ι) (J : List μ → σ → Prop)
    (ms : List μ)
    (hstep : ∀ before, ∀ m ∈ ms, ∀ s, J before s →
      ∃ t, step (event m) s = .next t ∧ J (before ++ [m]) t) {before : List μ} {s : σ}
    (hs : J before s) : ∃ t, feed step (ms.map event) s = .next t ∧ J (before ++ ms) t := by
  induction ms generalizing before s with
  | nil => exact ⟨s, rfl, by rw [List.append_nil]; exact hs⟩
  | cons m ms ih =>
    obtain ⟨t, ht, hJ⟩ := hstep before m (by simp) s hs
    obtain ⟨u, hu, hJu⟩ := ih (fun b n hn => hstep b n (by simp [hn])) hJ
    refine ⟨u, ?_, by rw [List.append_cons]; exact hJu⟩
    rw [List.map_cons, feed_cons, ht, Flow.next_andThen, hu]

/-- What the steps of such a run show of their items, if each comes back to the test, the
    run shows of all items. -/
theorem feed_map_forall {μ : Type} {step : ι → σ → Flow σ} (event : μ → ι) (I : σ → Prop)
    (P : μ → Prop) (ms : List μ)
    (hstep : ∀ m ∈ ms, ∀ s t, I s → step (event m) s = .next t → I t ∧ P m) {s t : σ} (hs : I s)
    (hrun : feed step (ms.map event) s = .next t) : ∀ m ∈ ms, P m := by
  induction ms generalizing s with
  | nil => nofun
  | cons m ms ih =>
    rw [List.map_cons, feed_cons] at hrun
    cases h : step (event m) s with
    | next u =>
      rw [h] at hrun
      obtain ⟨hu, hm⟩ := hstep m (by simp) s u hs h
      exact List.forall_mem_cons.mpr ⟨hm, ih (fun n hn => hstep n (by simp [hn])) hu hrun⟩
    | stop u => rw [h] at hrun; simp at hrun
    | fault u => rw [h] at hrun; simp at hrun
    | hang u => rw [h] at hrun; simp at hrun

/-- A run whose every step goes on, unless an inner loop hangs, goes on, unless an
    inner loop hangs. -/
theorem feed_next_or_hang {step : ι → σ → Flow σ} (I : σ → Prop) (is : List ι)
    (hstep : ∀ i ∈ is, ∀ s, I s →
      (∃ t, step i s = .next t ∧ I t) ∨ ∃ t, step i s = .hang t) {s : σ} (hs : I s) :
    (∃ t, feed step is s = .next t ∧ I t) ∨ ∃ t, feed step is s = .hang t := by
  induction is generalizing s with
  | nil => exact .inl ⟨s, rfl, hs⟩
  | cons i is ih =>
    rw [feed_cons]
    rcases hstep i (by simp) s hs with ⟨t, ht, hI⟩ | ⟨t, ht⟩
    · rw [ht]
      exact ih (fun j hj => hstep j (by simp [hj])) hI
    · rw [ht]
      exact .inr ⟨t, rfl⟩

theorem feed_rel {f : ι → σ → Flow σ} {g : ι → τ → Flow τ} (R : σ → τ → Prop)
    (hstep : ∀ i s t, R s t → Flow.Rel R (f i s) (g i t)) (is : List ι) {s : σ} {t : τ}
    (h : R s t) : Flow.Rel R (feed f is s) (feed g is t) := by
  induction is generalizing s t with
  | nil => exact .next h
  | cons i is ih =>
    rw [feed_cons, feed_cons]
    exact (hstep i s t h).andThen fun _ _ hr => ih hr

/-- Stuttering simulation: the second run sees only the events that `keep`
    selects. Selected events keep the relation in lockstep; the others bring the
    first run back to its test without leaving the relation. -/
theorem feed_filter {f : ι → σ → Flow σ} {g : ι → τ → Flow τ} (R : σ → τ → Prop)
    (keep : ι → Bool) (is : List ι)
    (hkeep : ∀ i ∈ is, keep i = true → ∀ s t, R s t → Flow.Rel R (f i s) (g i t))
    (hskip : ∀ i ∈ is, keep i = false → ∀ s t, R s t → ∃ s', f i s = .next s' ∧ R s' t)
    {s : σ} {t : τ} (h : R s t) :
    Flow.Rel R (feed f is s) (feed g (is.filter keep) t) := by
  induction is generalizing s t with
  | nil => exact .next h
  | cons i is ih =>
    have ih' := @ih (fun j hj => hkeep j (by simp [hj])) (fun j hj => hskip j (by simp [hj]))
    rw [feed_cons]
    cases hk : keep i with
    | true =>
      rw [List.filter_cons_of_pos hk, feed_cons]
      exact (hkeep i (by simp) hk s t h).andThen fun _ _ hr => ih' hr
    | false =>
      rw [List.filter_cons_of_neg (by simp [hk])]
      obtain ⟨s', hs', hr⟩ := hskip i (by simp) hk s t h
      rw [hs']
      exact ih' hr

end DvbGseTunnel.Lib
