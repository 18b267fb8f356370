import DvbGseTunnel.ArgumentOptions
import DvbGseTunnel.ProcessDecap

/-!
# The parameters the programs start with

`main` of `satencap` declares its parameters without initialising them. What its
start depends on, and how large the capacities are that the two loops pass on to
`read_tap` and `read_udp`.
-/

namespace DvbGseTunnel

open Lib

/-! ### The start decision -/

/-- What `main` of `satencap` makes of its arguments; `usage` comes with the exit
    code. -/
inductive StartOutcome where
  | usage (code : Int)
  | rejected
  | started (params : ProcessEncapParams)
deriving DecidableEq

def satencapStart (G : GseConstants) (host : ArgumentsHost) (events : List OptionEvent)
    (params : ProcessEncapParams) : StartOutcome :=
  let (ret, params) := satencapParseArguments host events params
  if ret ≠ 0 then .usage (if ret > 0 then 0 else -1)
  else if checkEncapParams G params ≠ 0 then .rejected
  else .started params

def Accepted (host : ArgumentsHost) (events : List OptionEvent) : Prop :=
  decidingEvent host events = none ∧ Occurs 'i' events ∧ Occurs 'l' events ∧ Occurs 'r' events

/-- The payload length the arguments ask for. -/
def payloadLenOf (events : List OptionEvent) : Int :=
  (lastValue 'p' events).elim DEFAULT_PAYLOAD_LENGTH fun value => toInt (parseUnsignedLong value).2

/-- The arguments are refused whatever `sched_period` is: they are not accepted, the
    reading timeout is 0 ms or the payload length too small. -/
def RefusedByArguments (G : GseConstants) (host : ArgumentsHost) (events : List OptionEvent) :
    Prop :=
  ¬Accepted host events ∨
  (∃ value, lastValue 't' events = some value ∧ (parseUnsignedLong value).2 = 0) ∨
  (payloadLenOf events ≠ 0 ∧ payloadLenOf events < G.MIN_ENCAP_FRAME_SIZE)

theorem setTime_eq_zero {ms : Nat} :
    (setTime ms).tv_sec = 0 ∧ (setTime ms).tv_nsec = 0 ↔ ms = 0 := by
  unfold setTime
  simp only
  omega

theorem satencapParseArguments_eq_zero_iff {host : ArgumentsHost} {events : List OptionEvent}
    (params : ProcessEncapParams) :
    (satencapParseArguments host events params).1 = 0 ↔ Accepted host events :=
  (satencapParseArguments_outcome host events params).eq_zero_iff

/-- What accepted arguments make of any initial contents: they fill the six fields and
    leave `sched_period`. -/
theorem satencapParseArguments_accepted {host : ArgumentsHost} {events : List OptionEvent}
    (h : Accepted host events) :
    ∃ tunnel, FromEvents host events tunnel ∧ ∀ params : ProcessEncapParams,
      satencapParseArguments host events params = (0, ⟨tunnel, params.schedPeriod⟩) := by
  have hret := fun params : ProcessEncapParams =>
    (satencapParseArguments_eq_zero_iff params).mpr h
  have hfrom := fun params : ProcessEncapParams =>
    (satencapParseArguments_outcome host events params).fromEvents (hret params)
  have start : ProcessEncapParams := ⟨⟨[], ⟨0, 0⟩, ⟨0, 0⟩, ⟨0, 0⟩, 0, 0⟩, ⟨0, 0⟩⟩
  refine ⟨_, hfrom start, ?_⟩
  intro params
  have hsame := (hfrom params).unique (hfrom start)
  apply Prod.ext
  · exact hret params
  · exact congrArg (fun tunnel => (⟨tunnel, params.schedPeriod⟩ : ProcessEncapParams)) hsame

theorem FromEvents.readTimeout_eq_zero {host : ArgumentsHost} {events : List OptionEvent}
    {params : TunnelParams} (h : FromEvents host events params) :
    params.readTimeout.tv_sec = 0 ∧ params.readTimeout.tv_nsec = 0 ↔
      ∃ value, lastValue 't' events = some value ∧ (parseUnsignedLong value).2 = 0 := by
  rw [h.readTimeout]
  cases lastValue 't' events with
  | none => simp [setTime_eq_zero, DEFAULT_READ_TIMEOUT]
  | some value => simp [setTime_eq_zero]

theorem satencapStart_accepted {G : GseConstants} {host : ArgumentsHost}
    {events : List OptionEvent} (h : ¬RefusedByArguments G host events) :
    ∃ tunnel, ∀ params : ProcessEncapParams, satencapStart G host events params =
      if params.schedPeriod = ⟨0, 0⟩ then .rejected else .started ⟨tunnel, params.schedPeriod⟩ := by
  unfold RefusedByArguments at h
  rw [not_or, not_or, not_not] at h
  obtain ⟨haccepted, htimeout, hpayload⟩ := h
  obtain ⟨tunnel, hfrom, hparse⟩ := satencapParseArguments_accepted haccepted
  refine ⟨tunnel, ?_⟩
  intro params
  rw [← hfrom.readTimeout_eq_zero] at htimeout
  rw [payloadLenOf, ← hfrom.payloadLen] at hpayload
  have hcheck : checkEncapParams G ⟨tunnel, params.schedPeriod⟩ =
      if params.schedPeriod = ⟨0, 0⟩ then -1 else 0 := by
    obtain ⟨sec, nsec⟩ := params.schedPeriod
    unfold checkEncapParams
    rw [if_neg htimeout, if_neg hpayload]
    simp only [Timespec.mk.injEq]
  unfold satencapStart
  rw [hparse]
  simp only [hcheck]
  by_cases hsched : params.schedPeriod = ⟨0, 0⟩
  · rw [if_pos hsched, if_pos hsched]
    rfl
  · rw [if_neg hsched, if_neg hsched]
    rfl

/-- Refused arguments are refused in the same way whatever the initial contents. -/
theorem satencapStart_refused {G : GseConstants} {host : ArgumentsHost}
    {events : List OptionEvent} (h : RefusedByArguments G host events)
    (params params' : ProcessEncapParams) :
    satencapStart G host events params = satencapStart G host events params' := by
  unfold satencapStart
  by_cases haccepted : Accepted host events
  · obtain ⟨tunnel, hfrom, hparse⟩ := satencapParseArguments_accepted haccepted
    have hcheck : ∀ sched, checkEncapParams G ⟨tunnel, sched⟩ ≠ 0 := by
      intro sched
      unfold checkEncapParams
      rcases h with hnot | htimeout | hpayload
      · exact absurd haccepted hnot
      · rw [if_pos (hfrom.readTimeout_eq_zero.mpr htimeout)]
        decide
      · rw [payloadLenOf, ← hfrom.payloadLen] at hpayload
        rw [if_pos hpayload]
        split
        · decide
        · split <;> decide
    simp only [hparse, if_pos (hcheck _)]
  · have hret := fun params : ProcessEncapParams =>
      mt (satencapParseArguments_eq_zero_iff params).mp haccepted
    have hsame : (satencapParseArguments host events params).1 =
        (satencapParseArguments host events params').1 :=
      (satencapParseArguments_outcome host events params).ret_eq
        (satencapParseArguments_outcome host events params')
    simp only [if_pos (hret _), hsame]

/-- **What the start of `satencap` depends on.** The same arguments start from two
    initial contents in the same way exactly if they are refused anyway or the two
    agree on `sched_period`, which is checked but never assigned. -/
theorem satencapStart_eq_iff (G : GseConstants) (host : ArgumentsHost)
    (events : List OptionEvent) (params params' : ProcessEncapParams) :
    satencapStart G host events params = satencapStart G host events params' ↔
      RefusedByArguments G host events ∨ params.schedPeriod = params'.schedPeriod := by
  by_cases h : RefusedByArguments G host events
  · exact iff_of_true (satencapStart_refused h params params') (Or.inl h)
  · obtain ⟨tunnel, hstart⟩ := satencapStart_accepted h
    rw [hstart, hstart, or_iff_right h]
    constructor
    · intro heq
      by_cases h0 : params.schedPeriod = ⟨0, 0⟩
      · by_cases h0' : params'.schedPeriod = ⟨0, 0⟩
        · rw [h0, h0']
        · rw [if_pos h0, if_neg h0'] at heq
          cases heq
      · by_cases h0' : params'.schedPeriod = ⟨0, 0⟩
        · rw [if_neg h0, if_pos h0'] at heq
          cases heq
        · rw [if_neg h0, if_neg h0'] at heq
          injection heq with hparams
          injection hparams
    · intro heq
      rw [heq]

/-- A host with the one interface `tap0`, where every address is the loopback. -/
def argumentsHost : ArgumentsHost where
  ifNametoindex name := if name = ['t', 'a', 'p', '0'] then 1 else 0
  inetAton _ := some 0x7f000001
  ifNametoindex_length name h := by
    by_cases hname : name = ['t', 'a', 'p', '0']
    · rw [hname]
      decide
    · exact absurd (if_neg hname) h

/-- `-i tap0 -l 127.0.0.1:1 -r 127.0.0.1:2`. -/
def requiredEvents : List OptionEvent :=
  [⟨'i', ['t', 'a', 'p', '0']⟩, ⟨'l', ['1', '2', '7', '.', '0', '.', '0', '.', '1', ':', '1']⟩,
    ⟨'r', ['1', '2', '7', '.', '0', '.', '0', '.', '1', ':', '2']⟩]

def requiredParams (schedPeriod : Timespec) : ProcessEncapParams :=
  ⟨⟨['t', 'a', 'p', '0'], ⟨0x7f000001, 1⟩, ⟨0x7f000001, 2⟩, ⟨0, 100000000⟩, 8192, 1500⟩,
    schedPeriod⟩

/-- The same arguments are rejected or not with what the stack holds. -/
theorem start_depends_on_stack :
    satencapStart ⟨13, 4⟩ argumentsHost requiredEvents (requiredParams ⟨0, 0⟩) = .rejected ∧
      satencapStart ⟨13, 4⟩ argumentsHost requiredEvents (requiredParams ⟨0, 1⟩) =
        .started (requiredParams ⟨0, 1⟩) := by
  decide

/-! ### The capacities -/

/-- The `int` a value becomes: the values from 2^31 on wrap to negative ones. -/
theorem toInt_eq {val : Nat} (h : val ≤ UINT_MAX) :
    toInt val = if val < 2 ^ 31 then (val : Int) else val - 2 ^ 32 := by
  unfold UINT_MAX at h
  unfold toInt
  rw [Int.bmod_def]
  have hmod : (val : Int) % ((2 ^ 32 : Nat) : Int) = val := by omega
  rw [hmod]
  split <;> split <;> omega

/-- The capacity a value becomes: a `size_t` takes a negative `int` for a huge number. -/
theorem sizeT_toInt {val : Nat} (h : val ≤ UINT_MAX) :
    sizeT (toInt val) = if val < 2 ^ 31 then val else 2 ^ 64 - 2 ^ 32 + val := by
  rw [toInt_eq h]
  unfold UINT_MAX at h
  unfold sizeT
  split <;> omega

/-- An accepted length option has a value that is an `unsigned int`. -/
theorem Accepted.value_le {host : ArgumentsHost} {events : List OptionEvent}
    (h : Accepted host events) {letter : Char} (hletter : letter = 'p' ∨ letter = 'b')
    {value : List Char} (hvalue : lastValue letter events = some value) :
    (parseUnsignedLong value).2 ≤ UINT_MAX := by
  obtain ⟨e, hlast, rfl⟩ := Option.map_eq_some_iff.mp hvalue
  obtain ⟨he, heq⟩ := lastOccurrence_mem hlast
  have heq := of_decide_eq_true heq
  have hgood := List.find?_eq_none.mp h.1 e he
  simp only [decide_eq_true_eq, not_or] at hgood
  by_contra hlarge
  apply hgood.2
  rw [← heq] at hletter
  exact Or.inr (Or.inr (Or.inr (Or.inl ⟨hletter, Or.inr (Nat.lt_of_not_le hlarge)⟩)))

/-- The capacity a length option gives is within a bound exactly if its last value is. -/
theorem capacity_le_iff {host : ArgumentsHost} {events : List OptionEvent}
    (h : Accepted host events) {letter : Char} (hletter : letter = 'p' ∨ letter = 'b')
    {default : Int} {capacity : Nat} (hdefault : sizeT default ≤ capacity)
    (hint : capacity < 2 ^ 31) :
    sizeT ((lastValue letter events).elim default fun value =>
        toInt (parseUnsignedLong value).2) ≤ capacity ↔
      ∀ value, lastValue letter events = some value →
        (parseUnsignedLong value).2 ≤ capacity := by
  cases hvalue : lastValue letter events with
  | none =>
    rw [Option.elim_none]
    refine iff_of_true hdefault ?_
    intro value hsome
    cases hsome
  | some value =>
    have hle := Accepted.value_le h hletter hvalue
    rw [Option.elim_some, sizeT_toInt hle]
    simp only [Option.some.injEq, forall_eq']
    split <;> omega

/-- **When the capacities fit.** For all accepted and checked arguments, from any initial
    contents: the capacity of `read_tap` is at most the room after the start of the
    fragment exactly if the value of the last `-b` is, and the capacity of `read_udp`
    at most the size of `data_received` exactly if the value of the last `-p` is. -/
theorem capacities_fit_iff (G : GseConstants)
    (hint : GSE_MAX_PDU_LENGTH + G.GSE_MAX_TRAILER_LENGTH < 2 ^ 31) (host : ArgumentsHost)
    (events : List OptionEvent) :
    (∀ params : ProcessEncapParams, (satencapParseArguments host events params).1 = 0 →
      checkEncapParams G (satencapParseArguments host events params).2 = 0 →
      (sizeT (satencapParseArguments host events params).2.bufferLen ≤
          GSE_MAX_PDU_LENGTH + G.GSE_MAX_TRAILER_LENGTH ↔
        ∀ value, lastValue 'b' events = some value →
          (parseUnsignedLong value).2 ≤ GSE_MAX_PDU_LENGTH + G.GSE_MAX_TRAILER_LENGTH)) ∧
    (∀ params : ProcessDecapParams, (satdecapParseArguments host events params).1 = 0 →
      checkDecapParams G (satdecapParseArguments host events params).2 = 0 →
      (sizeT (satdecapParseArguments host events params).2.payloadLen ≤ DATA_RECEIVED_SIZE ↔
        ∀ value, lastValue 'p' events = some value →
          (parseUnsignedLong value).2 ≤ DATA_RECEIVED_SIZE)) := by
  constructor
  · intro params hret _
    have houtcome := satencapParseArguments_outcome host events params
    have haccepted := houtcome.eq_zero_iff.mp hret
    have hbuffer := (houtcome.fromEvents hret).bufferLen
    have hdefault : sizeT DEFAULT_BUFFER_LENGTH ≤ GSE_MAX_PDU_LENGTH := by decide
    simp only at hbuffer
    rw [hbuffer]
    exact capacity_le_iff haccepted (Or.inr rfl) (Nat.le_add_right_of_le hdefault) hint
  · intro params hret _
    have houtcome := satdecapParseArguments_outcome host events params
    have haccepted := houtcome.eq_zero_iff.mp hret
    have hpayload := (houtcome.fromEvents hret).payloadLen
    have hdefault : sizeT DEFAULT_PAYLOAD_LENGTH ≤ DATA_RECEIVED_SIZE := by decide
    simp only at hpayload
    rw [hpayload]
    exact capacity_le_iff haccepted (Or.inl rfl) hdefault (by decide)

theorem capacities_fit_without_options :
    sizeT (satencapParseArguments argumentsHost requiredEvents
        (requiredParams ⟨0, 1⟩)).2.bufferLen ≤ 65539 ∧
      sizeT (satdecapParseArguments argumentsHost requiredEvents
        ⟨(requiredParams ⟨0, 0⟩).toTunnelParams⟩).2.payloadLen ≤ DATA_RECEIVED_SIZE := by
  have hfit := capacities_fit_iff ⟨13, 4⟩ (by decide) argumentsHost requiredEvents
  constructor
  · apply (hfit.1 (requiredParams ⟨0, 1⟩) (by decide) (by decide)).mpr
    intro value hvalue
    rw [show lastValue 'b' requiredEvents = none from by decide] at hvalue
    cases hvalue
  · apply (hfit.2 ⟨(requiredParams ⟨0, 0⟩).toTunnelParams⟩ (by decide) (by decide)).mpr
    intro value hvalue
    rw [show lastValue 'p' requiredEvents = none from by decide] at hvalue
    cases hvalue

/-- `-b 100000` and `-p 5000` are accepted. -/
theorem large_capacities_accepted :
    let encap := satencapParseArguments argumentsHost
      (requiredEvents ++ [⟨'b', ['1', '0', '0', '0', '0', '0']⟩]) (requiredParams ⟨0, 1⟩)
    let decap := satdecapParseArguments argumentsHost
      (requiredEvents ++ [⟨'p', ['5', '0', '0', '0']⟩]) ⟨(requiredParams ⟨0, 0⟩).toTunnelParams⟩
    (encap.1 = 0 ∧ checkEncapParams ⟨13, 4⟩ encap.2 = 0 ∧ ¬sizeT encap.2.bufferLen ≤ 65539) ∧
      (decap.1 = 0 ∧ checkDecapParams ⟨13, 4⟩ decap.2 = 0 ∧
        ¬sizeT decap.2.payloadLen ≤ DATA_RECEIVED_SIZE) := by
  decide

end DvbGseTunnel
