import DvbGseTunnel.ProcessDecap

/-!
# Does the walk of a datagram end?

The inner loop of `process_decap` adds `gse_length` to `len_decapsulated` on every
path, also after an error, when `gse_deencap_packet` may leave in it what it likes.
Here libgse is a script of answers, so every sequence of results is covered, and the
walk of an `n`-byte datagram ends within `n` calls exactly when one of the first `n`
answers is `GSE_STATUS_PADDING_DETECTED` or the values of `gse_length` after these
calls add up to at least `n` (`walk_ends_iff`). Answers that always advance by a byte
are enough; an error that leaves 0 in `gse_length` may stop all progress.
-/

namespace DvbGseTunnel

open Lib

/-! ### A script of answers -/

structure DeencapAnswer where
  status : Status
  gseLength : Option UInt16
  pdu : List UInt8
deriving DecidableEq, Repr

/-- libgse whose `k`-th call of `gse_deencap_packet` answers `answers k`, whatever it
    is given, and whose fragments are always created. -/
def scriptedLib (answers : Nat → DeencapAnswer) : Decapsulator Nat where
  gseCreateVfragWithData k bytes := ⟨.ok, bytes, k⟩
  gseDeencapPacket k _ := ⟨(answers k).status, (answers k).gseLength, (answers k).pdu, k + 1⟩

def gseLengthAfter (answers : Nat → DeencapAnswer) (gseLength : UInt16) : Nat → UInt16
  | 0 => gseLength
  | k + 1 => (answers k).gseLength.getD (gseLengthAfter answers gseLength k)

/-- The value of `len_decapsulated` after the first `k` calls. -/
def lenAfter (answers : Nat → DeencapAnswer) (gseLength : UInt16) (k : Nat) : Nat :=
  ((List.range k).map fun i => (gseLengthAfter answers gseLength (i + 1)).toNat).sum

theorem lenAfter_succ (answers : Nat → DeencapAnswer) (gseLength : UInt16) (k : Nat) :
    lenAfter answers gseLength (k + 1) =
      lenAfter answers gseLength k + (gseLengthAfter answers gseLength (k + 1)).toNat := by
  simp [lenAfter, List.range_succ]

theorem lenAfter_mono (answers : Nat → DeencapAnswer) (gseLength : UInt16) {k n : Nat}
    (h : k ≤ n) : lenAfter answers gseLength k ≤ lenAfter answers gseLength n := by
  induction h with
  | refl => exact Nat.le_refl _
  | step _ ih => rw [lenAfter_succ]; omega

variable {answers : Nat → DeencapAnswer} {g : UInt16} {n base : Nat}

/-- The walk of an `n`-byte datagram after `k` calls none of which found padding;
    `base` calls were made before this datagram. -/
structure AtCall (answers : Nat → DeencapAnswer) (g : UInt16) (n base k : Nat)
    (w : Walk Nat) : Prop where
  lib : w.env.lib = k
  alive : w.env.alive = 0
  lenReceived : w.env.lenReceived = n
  gseLength : w.env.gseLength = gseLengthAfter answers g k
  lenDecapsulated : w.lenDecapsulated = lenAfter answers g k
  windows : w.env.windows.length = base + k

theorem AtCall.running_iff {k : Nat} {w : Walk Nat} (h : AtCall answers g n base k w) :
    w.running ↔ lenAfter answers g k < n := by
  simp [Walk.running, h.alive, h.lenReceived, h.lenDecapsulated]

theorem AtCall.status {k : Nat} {w : Walk Nat} (h : AtCall answers g n base k w) :
    (w.deencap (scriptedLib answers)).status = (answers k).status := by
  simp [Walk.deencap, Walk.created, scriptedLib, h.lib]

theorem AtCall.windows_afterDeencap {k : Nat} {w : Walk Nat}
    (h : AtCall answers g n base k w) :
    (w.afterDeencap (scriptedLib answers)).env.windows.length = base + (k + 1) := by
  simp [Walk.afterDeencap, h.windows]
  omega

theorem AtCall.advance {k : Nat} {w : Walk Nat} (h : AtCall answers g n base k w) :
    AtCall answers g n base (k + 1) (w.advance (scriptedLib answers)) := by
  have hg : w.gseLength (scriptedLib answers) = gseLengthAfter answers g (k + 1) := by
    simp [Walk.gseLength, Walk.deencap, Walk.created, scriptedLib, h.lib, h.gseLength,
      gseLengthAfter]
  obtain ⟨tap, htap⟩ := w.advance_eq (scriptedLib answers)
  rw [htap]
  exact {
    lib := by simp [Walk.afterDeencap, Walk.deencap, Walk.created, scriptedLib, h.lib]
    alive := by simp [Walk.afterDeencap, Walk.created, scriptedLib, h.alive]
    lenReceived := h.lenReceived
    gseLength := hg
    lenDecapsulated := by
      rw [lenAfter_succ, ← hg, ← h.lenDecapsulated]
      rfl
    windows := h.windows_afterDeencap }

/-! ### The walk -/

/-- Padding is found, or the end reached, within the first `n` calls. -/
def Advances (answers : Nat → DeencapAnswer) (g : UInt16) (n : Nat) : Prop :=
  (∃ k < n, (answers k).status = .paddingDetected) ∨ n ≤ lenAfter answers g n

/-- From any of the first `n` calls on, if padding or the end lies ahead the loop is
    left before call `n`. The induction is on the calls that are left. -/
theorem AtCall.ends {k : Nat} {w : Walk Nat} (h : AtCall answers g n base k w) (hk : k ≤ n)
    (hahead : (∃ i < n, k ≤ i ∧ (answers i).status = .paddingDetected) ∨
      n ≤ lenAfter answers g n) :
    ∃ t, loop (decapBody (scriptedLib answers)) (n - k + 1) w = .stop t ∧
      t.env.windows.length ≤ base + n := by
  induction hm : n - k generalizing k w with
  | zero =>
    obtain rfl : k = n := by omega
    have hend : ¬w.running := by
      rw [h.running_iff]
      rcases hahead with ⟨i, hi, hki, _⟩ | hlen <;> omega
    refine ⟨w, ?_, Nat.le_of_eq h.windows⟩
    rw [loop_succ, decapBody, if_neg hend]
    rfl
  | succ m ih =>
    rw [loop_succ]
    rcases decapBody_cases (scriptedLib answers) w with ⟨_, hb⟩ | ⟨_, hpad, hb⟩ | ⟨_, hpad, hb⟩
    · exact ⟨w, by rw [hb]; rfl, by rw [h.windows]; omega⟩
    · exact ⟨_, by rw [hb]; rfl, by rw [h.windows_afterDeencap]; omega⟩
    · rw [hb]
      rw [h.status] at hpad
      refine ih h.advance (by omega) ?_ (by omega)
      rcases hahead with ⟨i, hi, hki, hpadi⟩ | hlen
      · have hne : i ≠ k := fun e => hpad (e ▸ hpadi)
        exact .inl ⟨i, hi, by omega, hpadi⟩
      · exact .inr hlen

/-- Conversely a loop left within `n` calls has met padding or the end. -/
theorem AtCall.advances_of_ends {k bound : Nat} {w t : Walk Nat}
    (h : AtCall answers g n base k w)
    (hrun : loop (decapBody (scriptedLib answers)) bound w = .stop t)
    (hcalls : t.env.windows.length ≤ base + n) : Advances answers g n := by
  induction bound generalizing k w with
  | zero => simp [loop] at hrun
  | succ bound ih =>
    rw [loop_succ] at hrun
    rcases decapBody_cases (scriptedLib answers) w with ⟨hend, hb⟩ | ⟨_, hpad, hb⟩ | ⟨_, _, hb⟩
    · rw [hb] at hrun
      obtain rfl : w = t := by simpa using hrun
      rw [h.running_iff] at hend
      rw [h.windows] at hcalls
      exact .inr (Nat.le_trans (Nat.le_of_not_lt hend) (lenAfter_mono answers g (by omega)))
    · rw [hb] at hrun
      obtain rfl : w.afterDeencap (scriptedLib answers) = t := by simpa using hrun
      rw [h.windows_afterDeencap] at hcalls
      exact .inl ⟨k, by omega, h.status ▸ hpad⟩
    · rw [hb] at hrun
      exact ih h.advance hrun

/-! ### The outer pass -/

/-- After the datagram the outer loop is back at its test, and `gse_deencap_packet`
    was called at most `n` times. -/
def EndsWithin (params : ProcessDecapParams) (answers : Nat → DeencapAnswer)
    (datagram : List UInt8) (n : Nat) (s : DecapState Nat) : Prop :=
  ∃ bound t, decapStep (scriptedLib answers) params bound
      (.readable (some (params.remote, datagram))) s = .next t ∧
    t.windows.length ≤ s.windows.length + n

theorem endsWithin_iff {params : ProcessDecapParams} {datagram : List UInt8}
    {s : DecapState Nat} (halive : s.alive = 0) (hlib : s.lib = 0)
    (hn : (datagram.take (sizeT params.payloadLen)).length = n) (hpos : 1 ≤ n)
    (hfits : n ≤ s.dataReceived.size) :
    EndsWithin params answers datagram n s ↔ Advances answers s.gseLength n := by
  have hne : datagram.take (sizeT params.payloadLen) ≠ [] := by
    intro h
    rw [h] at hn
    simp at hn
    omega
  have hstep := fun bound => decapStep_of_fits (scriptedLib answers) params bound halive hne
    (by rw [hn]; exact hfits)
  simp only [hn] at hstep
  let w : Walk Nat := ⟨{ s with
    dataReceived := s.dataReceived.overlay 0 n fun i =>
      (datagram.take (sizeT params.payloadLen)).getD i 0
    lenReceived := n }, 0⟩
  have hstart : AtCall answers s.gseLength n s.windows.length 0 w :=
    ⟨hlib, halive, rfl, rfl, rfl, rfl⟩
  constructor
  · rintro ⟨bound, t, hrun, hcalls⟩
    rw [hstep] at hrun
    cases hloop : loop (decapBody (scriptedLib answers)) bound w with
    | next v => exact absurd hloop (loop_ne_next _ _ _ _)
    | stop v =>
      rw [hloop] at hrun
      obtain rfl : v.env = t := by simpa using hrun
      exact hstart.advances_of_ends hloop hcalls
    | fault v => rw [hloop] at hrun; simp at hrun
    | hang v => rw [hloop] at hrun; simp at hrun
  · intro hadvances
    have hahead : (∃ i < n, 0 ≤ i ∧ (answers i).status = .paddingDetected) ∨
        n ≤ lenAfter answers s.gseLength n := by
      rcases hadvances with ⟨k, hk, hpad⟩ | hlen
      · exact .inl ⟨k, hk, Nat.zero_le k, hpad⟩
      · exact .inr hlen
    obtain ⟨t, hrun, hcalls⟩ := hstart.ends (Nat.zero_le n) hahead
    refine ⟨n - 0 + 1, t.env, ?_, hcalls⟩
    rw [hstep, hrun]
    rfl

/-- **When `satdecap` returns from a datagram.** For every datagram from the remote and
    every sequence of answers of `gse_deencap_packet`: the outer loop is reached again
    after at most as many calls as the datagram has bytes exactly when the datagram
    fits the buffer and the first calls find padding or advance to its end. -/
theorem walk_ends_iff (params : ProcessDecapParams) (answers : Nat → DeencapAnswer)
    (datagram : List UInt8) (s : DecapState Nat) (halive : s.alive = 0) (hlib : s.lib = 0)
    (hne : datagram.take (sizeT params.payloadLen) ≠ []) :
    EndsWithin params answers datagram (datagram.take (sizeT params.payloadLen)).length s ↔
      (datagram.take (sizeT params.payloadLen)).length ≤ s.dataReceived.size ∧
        Advances answers s.gseLength (datagram.take (sizeT params.payloadLen)).length := by
  have hpos := List.length_pos_iff.mpr hne
  by_cases hfits : (datagram.take (sizeT params.payloadLen)).length ≤ s.dataReceived.size
  · rw [endsWithin_iff halive hlib rfl hpos hfits]
    exact ⟨fun h => ⟨hfits, h⟩, fun h => h.2⟩
  · refine iff_of_false ?_ fun h => hfits h.1
    rintro ⟨bound, t, hrun, _⟩
    rw [decapStep_of_overflow _ params bound halive (Nat.lt_of_not_le hfits)] at hrun
    cases hrun

def shortParams : ProcessDecapParams := ⟨⟨[], ⟨0, 0⟩, ⟨0, 0⟩, ⟨0, 1⟩, 8192, 1500⟩⟩

/-- A one-byte datagram that libgse finds complete. -/
theorem walk_ends_one_byte :
    EndsWithin shortParams (fun _ => ⟨.ok, some 1, []⟩) [0xc0] 1
      (.init 0 (fun _ => 0) 0) :=
  (walk_ends_iff shortParams (fun _ => ⟨.ok, some 1, []⟩) [0xc0] (.init 0 (fun _ => 0) 0)
    rfl rfl (by decide)).mpr ⟨by decide, .inr (by decide)⟩

/-- A one-byte datagram on which every call fails and leaves 0 in `gse_length`: the walk
    never comes to its end. -/
theorem walk_hangs :
    ¬EndsWithin shortParams (fun _ => ⟨.other 1, some 0, []⟩) [0xc0] 1
      (.init 0 (fun _ => 0) 0) := by
  have hiff : EndsWithin shortParams (fun _ => ⟨.other 1, some 0, []⟩) [0xc0] 1
      (.init 0 (fun _ => 0) 0) ↔ Advances (fun _ => ⟨.other 1, some 0, []⟩) 0 1 :=
    endsWithin_iff rfl rfl rfl (by decide) (by decide)
  rw [hiff]
  rintro (⟨k, _, hpad⟩ | hlen)
  · cases hpad
  · exact absurd hlen (by decide)

end DvbGseTunnel
