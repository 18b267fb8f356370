import Mathlib.Data.List.Induction

/-!
# Folds over a sequence of events

What a fold over events leaves in a part of its state: a part that some events
overwrite holds the value of the last one of them, a word that events set bits in
holds the bits of all of them.
-/

namespace DvbGseTunnel.Lib

variable {σ ε α : Type*}

/-- The last element of a list that satisfies `p`. -/
def lastOccurrence (p : ε → Bool) (events : List ε) : Option ε := (events.filter p).getLast?

theorem lastOccurrence_concat (p : ε → Bool) (events : List ε) (e : ε) :
    lastOccurrence p (events ++ [e]) = if p e then some e else lastOccurrence p events := by
  unfold lastOccurrence
  rw [List.filter_append]
  by_cases he : p e
  · rw [List.filter_cons_of_pos he, List.filter_nil, List.getLast?_concat, if_pos he]
  · rw [List.filter_cons_of_neg he, List.filter_nil, List.append_nil, if_neg he]

theorem lastOccurrence_mem {p : ε → Bool} {events : List ε} {e : ε}
    (h : lastOccurrence p events = some e) : e ∈ events ∧ p e := by
  have hmem := List.mem_of_getLast? h
  exact List.mem_filter.mp hmem

theorem lastOccurrence_eq_none {p : ε → Bool} {events : List ε} :
    lastOccurrence p events = none ↔ ∀ e ∈ events, ¬p e := by
  unfold lastOccurrence
  rw [List.getLast?_eq_none_iff, List.filter_eq_nil_iff]

/-- Where `p` holds of at most one element, which one it is does not depend on the
    order. -/
theorem lastOccurrence_perm {p : ε → Bool} {events events' : List ε}
    (hperm : events.Perm events')
    (hone : ∀ e ∈ events, ∀ e' ∈ events, p e → p e' → e = e') :
    lastOccurrence p events = lastOccurrence p events' := by
  cases h : lastOccurrence p events with
  | none =>
    have hnone := lastOccurrence_eq_none.mp h
    symm
    apply lastOccurrence_eq_none.mpr
    intro e he
    exact hnone e (hperm.mem_iff.mpr he)
  | some e =>
    obtain ⟨he, hpe⟩ := lastOccurrence_mem h
    cases h' : lastOccurrence p events' with
    | none => exact absurd hpe (lastOccurrence_eq_none.mp h' e (hperm.mem_iff.mp he))
    | some e' =>
      obtain ⟨he', hpe'⟩ := lastOccurrence_mem h'
      rw [hone e he e' (hperm.mem_iff.mpr he') hpe hpe']

/-- **Last writer.** -/
theorem foldl_lastWriter (step : σ → ε → σ) (get : σ → α) (p : ε → Bool) (value : ε → α)
    (events : List ε)
    (hstep : ∀ e ∈ events, ∀ s, get (step s e) = if p e then value e else get s) (s : σ) :
    get (events.foldl step s) = (lastOccurrence p events).elim (get s) value := by
  induction events using List.reverseRecOn with
  | nil => rfl
  | append_singleton events e ih =>
    have hrest := ih fun e' he' => hstep e' (List.mem_append_left _ he')
    have hlast := hstep e (by simp) (events.foldl step s)
    rw [List.foldl_append, List.foldl_cons, List.foldl_nil, hlast, lastOccurrence_concat]
    by_cases he : p e
    · rw [if_pos he, if_pos he, Option.elim_some]
    · rw [if_neg he, if_neg he, hrest]

theorem or_and_eq_zero {w : Nat} (a b c : BitVec w) :
    (a ||| b) &&& c = 0 ↔ a &&& c = 0 ∧ b &&& c = 0 := by
  have hdistrib : (a ||| b) &&& c = (a &&& c) ||| (b &&& c) := by
    ext i hi
    simp only [BitVec.getElem_and, BitVec.getElem_or]
    exact Bool.and_or_distrib_right _ _ _
  rw [hdistrib]
  exact BitVec.or_eq_zero_iff

/-- **Accumulated flags.** A bit is clear after the fold exactly when it was clear
    and no event sets it. -/
theorem foldl_flags {w : Nat} (step : σ → ε → σ) (flags : σ → BitVec w)
    (bit : ε → BitVec w) (hstep : ∀ s e, flags (step s e) = flags s ||| bit e)
    (events : List ε) (s : σ) (mask : BitVec w) :
    flags (events.foldl step s) &&& mask = 0 ↔
      flags s &&& mask = 0 ∧ ∀ e ∈ events, bit e &&& mask = 0 := by
  induction events generalizing s with
  | nil => simp
  | cons e events ih =>
    rw [List.foldl_cons, ih, hstep, or_and_eq_zero, List.forall_mem_cons, and_assoc]

end DvbGseTunnel.Lib
