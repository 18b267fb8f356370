import DvbGseTunnel.Lib.Buffer
import DvbGseTunnel.Lib.Loop

/-!
# Messages cut into packets of bounded size

A sender with packets of at most `capacity` bytes cuts a message into packets that are
all full but the last one. A `Segmentation` gives the rule for the sizes, which depends
on the length of the message alone, and a relation for the content, which may depend on
what the sender adds (a label, a checksum).

At the other end a receiver takes one packet after another and hands out a message with
the last packet of each. `Reassembles` says so of a receiver through two predicates on
its states, between messages (`Ready`) and within one (`Awaits`). From it follows that
any program which handles each packet as the receiver does hands out the messages in
order, none lost or doubled (`Reassembles.feed_message`).
-/

namespace DvbGseTunnel.Lib

def padTo (len : Nat) (p : Bytes) : Bytes := p ++ List.replicate (len - p.length) 0

theorem length_padTo {len : Nat} {p : Bytes} (h : p.length ≤ len) : (padTo len p).length = len := by
  rw [padTo, List.length_append, List.length_replicate]
  omega

theorem padTo_of_le {len : Nat} {p : Bytes} (h : len ≤ p.length) : padTo len p = p := by
  rw [padTo, Nat.sub_eq_zero_of_le h, List.replicate_zero, List.append_nil]

structure Segmentation where
  capacity : Nat
  /-- the sizes of the packets of a message, by its length -/
  sizes : Nat → List Nat
  /-- these are the packets of this message -/
  Cut : Bytes → List Bytes → Prop
  cut_sizes : ∀ {m ps}, Cut m ps → ps.map List.length = sizes m.length
  sizes_ne_nil : ∀ n, sizes n ≠ []
  sizes_pos : ∀ {n k}, k ∈ sizes n → 0 < k
  sizes_le : ∀ {n k}, k ∈ sizes n → k ≤ capacity
  sizes_full : ∀ {n k}, k ∈ (sizes n).dropLast → k = capacity

namespace Segmentation

variable {S : Segmentation} {m : Bytes} {ps : List Bytes}

theorem cut_ne_nil (h : S.Cut m ps) : ps ≠ [] := by
  intro hnil
  have hsizes := S.cut_sizes h
  rw [hnil] at hsizes
  exact S.sizes_ne_nil m.length hsizes.symm

theorem cut_length (h : S.Cut m ps) : ps.length = (S.sizes m.length).length := by
  rw [← S.cut_sizes h, List.length_map]

theorem mem_sizes (h : S.Cut m ps) {p : Bytes} (hp : p ∈ ps) : p.length ∈ S.sizes m.length := by
  rw [← S.cut_sizes h]
  exact List.mem_map_of_mem hp

theorem exists_packets_le (S : Segmentation) (ms : List Bytes) :
    ∃ n, ∀ m ∈ ms, (S.sizes m.length).length ≤ n := by
  induction ms with
  | nil => exact ⟨0, by simp⟩
  | cons m ms ih =>
    obtain ⟨n, hn⟩ := ih
    refine ⟨max (S.sizes m.length).length n, List.forall_mem_cons.mpr ⟨Nat.le_max_left _ _, ?_⟩⟩
    exact fun k hk => Nat.le_trans (hn k hk) (Nat.le_max_right _ _)

theorem cut_of_mem {ms : List Bytes} {pss : List (List Bytes)} (h : List.Forall₂ S.Cut ms pss)
    {m : Bytes} (hm : m ∈ ms) : ∃ ps ∈ pss, S.Cut m ps := by
  induction h with
  | nil => cases hm
  | cons hcut _ ih =>
    rcases List.mem_cons.mp hm with rfl | hmem
    · exact ⟨_, List.mem_cons_self, hcut⟩
    · obtain ⟨ps, hps, hcut'⟩ := ih hmem
      exact ⟨ps, List.mem_cons_of_mem _ hps, hcut'⟩

theorem exists_cut_of_mem {ms : List Bytes} {pss : List (List Bytes)}
    (h : List.Forall₂ S.Cut ms pss) (hps : ps ∈ pss) : ∃ m ∈ ms, S.Cut m ps := by
  induction h with
  | nil => cases hps
  | cons hcut _ ih =>
    rcases List.mem_cons.mp hps with rfl | hmem
    · exact ⟨_, List.mem_cons_self, hcut⟩
    · obtain ⟨m, hm, hcut'⟩ := ih hmem
      exact ⟨m, List.mem_cons_of_mem _ hm, hcut'⟩

/-- Every packet before the last is full. -/
theorem cut_full {before after : List Bytes} {p : Bytes} (h : S.Cut m (before ++ p :: after))
    (hne : after ≠ []) : p.length = S.capacity := by
  apply S.sizes_full
  rw [← S.cut_sizes h, ← List.map_dropLast]
  apply List.mem_map_of_mem
  rw [List.dropLast_append_of_ne_nil (List.cons_ne_nil p after)]
  rw [List.dropLast_cons_of_ne_nil hne]
  simp

theorem capacity_pos (S : Segmentation) : 0 < S.capacity := by
  obtain ⟨k, hk⟩ := List.exists_mem_of_ne_nil _ (S.sizes_ne_nil 0)
  exact Nat.lt_of_lt_of_le (S.sizes_pos hk) (S.sizes_le hk)

/-- The size of the last packet of a message of `n` bytes. -/
def lastSize (S : Segmentation) (n : Nat) : Nat := (S.sizes n).getLast (S.sizes_ne_nil n)

theorem cut_last (h : S.Cut m ps) : (ps.getLast (cut_ne_nil h)).length = S.lastSize m.length := by
  simp only [lastSize, ← S.cut_sizes h, List.getLast_map]

end Segmentation

/-- The packets of the messages that arrive from a state in which the receiver is ready
    make it hand out these messages, each with its last packet. -/
structure Reassembles {δ : Type} (S : Segmentation) (receive : δ → Bytes → Option Bytes × δ)
    (Ready : δ → Prop) (Awaits : δ → List Bytes → Bytes → Prop) : Prop where
  start : ∀ {d m ps}, Ready d → S.Cut m ps → Awaits d ps m
  more : ∀ {d p ps m}, Awaits d (p :: ps) m → ps ≠ [] →
    (receive d p).1 = none ∧ Awaits (receive d p).2 ps m
  done : ∀ {d p m}, Awaits d [p] m → (receive d p).1 = some m ∧ Ready (receive d p).2

/-- A change of the receiver's state after which it still waits for what it waited for. -/
def Keeps {δ : Type} (Ready : δ → Prop) (Awaits : δ → List Bytes → Bytes → Prop) (d e : δ) :
    Prop :=
  (Ready d → Ready e) ∧ ∀ ps m, Awaits d ps m → Awaits e ps m

theorem Keeps.refl {δ : Type} (Ready : δ → Prop) (Awaits : δ → List Bytes → Bytes → Prop)
    (d : δ) : Keeps Ready Awaits d d := ⟨id, fun _ _ => id⟩

namespace Reassembles

variable {δ ι τ : Type} {S : Segmentation} {receive : δ → Bytes → Option Bytes × δ}
  {Ready : δ → Prop} {Awaits : δ → List Bytes → Bytes → Prop}
  {step : ι → τ → Flow τ} {event : Bytes → ι} {lib : τ → δ} {out : τ → List Bytes}
  {I : τ → Prop}

/-- A program that handles each awaited packet as the receiver does, with states `lib`
    and outputs `out`, hands out the message of the packets. The induction is on the
    packets still awaited. -/
theorem feed_message (h : Reassembles S receive Ready Awaits) {ps : List Bytes} {m : Bytes}
    (hstep : ∀ {s p rest}, p ∈ ps → I s → Awaits (lib s) (p :: rest) m →
      ∃ t, step (event p) s = .next t ∧ I t ∧
        Keeps Ready Awaits (receive (lib s) p).2 (lib t) ∧
        out t = out s ++ (receive (lib s) p).1.toList)
    (hne : ps ≠ []) {s : τ} (hs : I s) (hawaits : Awaits (lib s) ps m) :
    ∃ t, feed step (ps.map event) s = .next t ∧ I t ∧ Ready (lib t) ∧ out t = out s ++ [m] := by
  induction ps generalizing s with
  | nil => exact absurd rfl hne
  | cons p ps ih =>
    obtain ⟨t, hrun, ht, hkeeps, hout⟩ := hstep List.mem_cons_self hs hawaits
    rw [List.map_cons, feed_cons, hrun, Flow.next_andThen]
    by_cases hlast : ps = []
    · subst hlast
      obtain ⟨hmessage, hready⟩ := h.done hawaits
      refine ⟨t, rfl, ht, hkeeps.1 hready, ?_⟩
      rw [hout, hmessage]
      rfl
    · obtain ⟨hnone, hnext⟩ := h.more hawaits hlast
      obtain ⟨u, hu, hI, hready, houtu⟩ :=
        ih (fun hp => hstep (List.mem_cons_of_mem p hp)) hlast ht (hkeeps.2 ps m hnext)
      refine ⟨u, hu, hI, hready, ?_⟩
      rw [houtu, hout, hnone]
      simp

/-- Such a program hands out all messages whose packets arrive one after another. -/
theorem feed_messages (h : Reassembles S receive Ready Awaits)
    (hstep : ∀ {s p ps m}, 0 < p.length → p.length ≤ S.capacity → I s →
      Awaits (lib s) (p :: ps) m →
      ∃ t, step (event p) s = .next t ∧ I t ∧
        Keeps Ready Awaits (receive (lib s) p).2 (lib t) ∧
        out t = out s ++ (receive (lib s) p).1.toList)
    {ms : List Bytes} {pss : List (List Bytes)} (hcuts : List.Forall₂ S.Cut ms pss) {s : τ}
    (hs : I s) (hready : Ready (lib s)) :
    ∃ t, feed step (pss.flatten.map event) s = .next t ∧ I t ∧ Ready (lib t) ∧
      out t = out s ++ ms := by
  induction hcuts generalizing s with
  | nil => exact ⟨s, rfl, hs, hready, (List.append_nil _).symm⟩
  | @cons m ps ms pss hcut _ ih =>
    obtain ⟨t, ht, hI, hreadyt, hout⟩ : ∃ t, feed step (ps.map event) s = .next t ∧ I t ∧
        Ready (lib t) ∧ out t = out s ++ [m] := by
      refine h.feed_message (fun hp => ?_) (Segmentation.cut_ne_nil hcut) hs (h.start hready hcut)
      have hsize := Segmentation.mem_sizes hcut hp
      exact hstep (S.sizes_pos hsize) (S.sizes_le hsize)
    obtain ⟨u, hu, hIu, hreadyu, houtu⟩ := ih hI hreadyt
    refine ⟨u, ?_, hIu, hreadyu, by rw [houtu, hout, List.append_assoc]; rfl⟩
    rw [List.flatten_cons, List.map_append, feed_append, ht, Flow.next_andThen, hu]

end Reassembles

end DvbGseTunnel.Lib
