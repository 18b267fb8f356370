import DvbGseTunnel.Arguments
import DvbGseTunnel.Lib.Events
import Mathlib.Data.List.Nodup

/-!
# Option parsing as a whole

`parse_arguments` of both programs against its purpose: the first event that is
`-h` or bad decides; without one the three required options are looked for, and
each parameter comes from the last occurrence of its option or from its default.
-/

namespace DvbGseTunnel

open Lib

/-! ### What the events ask for -/

/-- The option is unknown or unsupported, or its value is rejected by its checks. -/
def OptionEvent.Bad (host : ArgumentsHost) (e : OptionEvent) : Prop :=
  e.letter ∉ ['h', 'i', 'l', 'r', 'p', 'b', 't'] ∨
  (e.letter = 'i' ∧ host.ifNametoindex e.optarg = 0) ∨
  ((e.letter = 'l' ∨ e.letter = 'r') ∧ (parseUdpArguments host e.optarg ⟨0, 0⟩).1 ≠ 0) ∨
  ((e.letter = 'p' ∨ e.letter = 'b') ∧
    ((parseUnsignedLong e.optarg).1 ≠ 0 ∨ (parseUnsignedLong e.optarg).2 > UINT_MAX)) ∨
  (e.letter = 't' ∧ (parseUnsignedLong e.optarg).1 ≠ 0)

instance (host : ArgumentsHost) (e : OptionEvent) : Decidable (e.Bad host) := by
  unfold OptionEvent.Bad
  infer_instance

/-- The first event that is `-h` or bad. -/
def decidingEvent (host : ArgumentsHost) (events : List OptionEvent) : Option OptionEvent :=
  events.find? fun e => decide (e.letter = 'h' ∨ e.Bad host)

def Occurs (letter : Char) (events : List OptionEvent) : Prop :=
  ∃ e ∈ events, e.letter = letter

/-- The value of the last occurrence of an option. -/
def lastValue (letter : Char) (events : List OptionEvent) : Option (List Char) :=
  (lastOccurrence (fun e => decide (e.letter = letter)) events).map (·.optarg)

/-- The parameters come from the last occurrences and the defaults. -/
structure FromEvents (host : ArgumentsHost) (events : List OptionEvent)
    (params : TunnelParams) : Prop where
  tapIface : lastValue 'i' events = some params.tapIface
  localAddr : ∃ value, lastValue 'l' events = some value ∧
    ∀ previous, parseUdpArguments host value previous = (0, params.localAddr)
  remote : ∃ value, lastValue 'r' events = some value ∧
    ∀ previous, parseUdpArguments host value previous = (0, params.remote)
  readTimeout : params.readTimeout = (lastValue 't' events).elim (setTime DEFAULT_READ_TIMEOUT)
    fun value => setTime (parseUnsignedLong value).2
  payloadLen : params.payloadLen = (lastValue 'p' events).elim DEFAULT_PAYLOAD_LENGTH
    fun value => toInt (parseUnsignedLong value).2
  bufferLen : params.bufferLen = (lastValue 'b' events).elim DEFAULT_BUFFER_LENGTH
    fun value => toInt (parseUnsignedLong value).2

structure OptionsOutcome (host : ArgumentsHost) (events : List OptionEvent)
    (result : Int × TunnelParams) : Prop where
  decided : ∀ e, decidingEvent host events = some e →
    result.1 = if e.letter = 'h' then 1 else -1
  missing : decidingEvent host events = none →
    ¬(Occurs 'i' events ∧ Occurs 'l' events ∧ Occurs 'r' events) → result.1 = -1
  accepted : decidingEvent host events = none →
    Occurs 'i' events → Occurs 'l' events → Occurs 'r' events →
    result.1 = 0 ∧ FromEvents host events result.2

/-! ### One event -/

/-- The return value of `parse_udp_arguments`, and the address it stores where that
    is 0, do not depend on the previous contents. -/
theorem parseUdpArguments_previous (host : ArgumentsHost) (s : List Char) (a b : UdpAddr) :
    (parseUdpArguments host s a).1 = (parseUdpArguments host s b).1 ∧
      ((parseUdpArguments host s a).1 = 0 →
        (parseUdpArguments host s a).2 = (parseUdpArguments host s b).2) := by
  unfold parseUdpArguments
  rcases strtok ':' s with _ | ⟨token, rest⟩
  · simp
  rcases haddr : host.inetAton token with _ | inAddr
  · simp [haddr]
  rcases hport : strtok ':' rest with _ | ⟨token', rest'⟩
  · simp [haddr, hport]
  simp only [haddr, hport]
  split <;> simp

/-- The bit of a letter; the letters without one are errors. -/
def OptionFlags.bit (F : OptionFlags) (letter : Char) : BitVec 32 :=
  if letter = 'h' then F.help
  else if letter = 'i' then F.tapIface
  else if letter = 'l' then F.localAddr
  else if letter = 'r' then F.remote
  else if letter = 'p' then F.payloadLen
  else if letter = 'b' then F.bufferLen
  else if letter = 't' then F.readTimeout
  else F.error

/-- What an event that is not bad stores. -/
def OptionEvent.stored (host : ArgumentsHost) (e : OptionEvent) (params : TunnelParams) :
    TunnelParams where
  tapIface := if e.letter = 'i' then e.optarg else params.tapIface
  localAddr :=
    if e.letter = 'l' then (parseUdpArguments host e.optarg ⟨0, 0⟩).2 else params.localAddr
  remote := if e.letter = 'r' then (parseUdpArguments host e.optarg ⟨0, 0⟩).2 else params.remote
  readTimeout :=
    if e.letter = 't' then setTime (parseUnsignedLong e.optarg).2 else params.readTimeout
  bufferLen := if e.letter = 'b' then toInt (parseUnsignedLong e.optarg).2 else params.bufferLen
  payloadLen := if e.letter = 'p' then toInt (parseUnsignedLong e.optarg).2 else params.payloadLen

theorem OptionEvent.letter_mem_of_not_bad {host : ArgumentsHost} {e : OptionEvent}
    (h : ¬e.Bad host) : e.letter ∈ ['h', 'i', 'l', 'r', 'p', 'b', 't'] := by
  by_contra hletter
  exact h (Or.inl hletter)

theorem parseOption_bad {host : ArgumentsHost} {e : OptionEvent} (h : e.Bad host)
    (F : OptionFlags) (s : OptionState) :
    (parseOption host F e s).flags = s.flags ||| F.error := by
  obtain ⟨letter, optarg⟩ := e
  have hl := (parseUdpArguments_previous host optarg s.params.localAddr ⟨0, 0⟩).1
  have hr := (parseUdpArguments_previous host optarg s.params.remote ⟨0, 0⟩).1
  rcases h with hletter | ⟨rfl, h⟩ | ⟨rfl | rfl, h⟩ | ⟨rfl | rfl, h⟩ | ⟨rfl, h⟩
  · simp only [List.mem_cons, List.not_mem_nil, or_false, not_or] at hletter
    simp [parseOption, hletter]
  · simp only at h
    simp [parseOption, h]
  · rw [← hl] at h
    simp [parseOption, h]
  · rw [← hr] at h
    simp [parseOption, h]
  · simp only at h
    simp [parseOption, h]
  · simp only at h
    simp [parseOption, h]
  · simp only at h
    simp [parseOption, h]

theorem parseOption_good {host : ArgumentsHost} {e : OptionEvent} (h : ¬e.Bad host)
    (F : OptionFlags) (s : OptionState) :
    parseOption host F e s = ⟨s.flags ||| F.bit e.letter,
      e.stored host s.params⟩ := by
  have hletter := OptionEvent.letter_mem_of_not_bad h
  obtain ⟨letter, optarg⟩ := e
  have hl := parseUdpArguments_previous host optarg s.params.localAddr ⟨0, 0⟩
  have hr := parseUdpArguments_previous host optarg s.params.remote ⟨0, 0⟩
  unfold OptionEvent.Bad at h
  simp only [not_or] at h
  obtain ⟨-, hindex, hudp, hlength, htime⟩ := h
  simp only [List.mem_cons, List.not_mem_nil, or_false] at hletter
  rcases hletter with rfl | rfl | rfl | rfl | rfl | rfl | rfl
  · simp [parseOption, OptionFlags.bit, OptionEvent.stored]
  · have hexists : host.ifNametoindex optarg ≠ 0 := fun hzero => hindex ⟨rfl, hzero⟩
    simp [parseOption, OptionFlags.bit, OptionEvent.stored, hexists]
  · have hret := not_not.mp (not_and.mp hudp (Or.inl rfl))
    simp [parseOption, OptionFlags.bit, OptionEvent.stored, hret, hl]
  · have hret := not_not.mp (not_and.mp hudp (Or.inr rfl))
    simp [parseOption, OptionFlags.bit, OptionEvent.stored, hret, hr]
  · obtain ⟨hret, hfits⟩ := not_or.mp (not_and.mp hlength (Or.inl rfl))
    simp only [ne_eq, not_not] at hret hfits
    simp [parseOption, OptionFlags.bit, OptionEvent.stored, hret, hfits]
  · obtain ⟨hret, hfits⟩ := not_or.mp (not_and.mp hlength (Or.inr rfl))
    simp only [ne_eq, not_not] at hret hfits
    simp [parseOption, OptionFlags.bit, OptionEvent.stored, hret, hfits]
  · have hret := not_not.mp (not_and.mp htime rfl)
    simp [parseOption, OptionFlags.bit, OptionEvent.stored, hret]

/-- What the loop makes of an event: a bad one counts as `'?'`. -/
def OptionEvent.effect (host : ArgumentsHost) (e : OptionEvent) : Char :=
  if e.Bad host then '?' else e.letter

theorem parseOption_flags (host : ArgumentsHost) (F : OptionFlags) (s : OptionState)
    (e : OptionEvent) :
    (parseOption host F e s).flags = s.flags ||| F.bit (e.effect host) := by
  unfold OptionEvent.effect
  by_cases h : e.Bad host
  · rw [parseOption_bad h, if_pos h]
    rfl
  · rw [parseOption_good h, if_neg h]

def optionLetters : List Char := ['?', 'h', 'i', 'l', 'r', 'p', 'b', 't']

theorem OptionEvent.effect_mem (host : ArgumentsHost) (e : OptionEvent) :
    e.effect host ∈ optionLetters := by
  unfold OptionEvent.effect optionLetters
  by_cases h : e.Bad host
  · rw [if_pos h]
    exact List.mem_cons_self
  · rw [if_neg h]
    exact List.mem_cons_of_mem _ (OptionEvent.letter_mem_of_not_bad h)

theorem OptionEvent.effect_eq_error {host : ArgumentsHost} {e : OptionEvent} :
    e.effect host = '?' ↔ e.Bad host := by
  unfold OptionEvent.effect
  by_cases h : e.Bad host
  · rw [if_pos h]
    exact ⟨fun _ => h, fun _ => rfl⟩
  · rw [if_neg h]
    have hletter := OptionEvent.letter_mem_of_not_bad h
    constructor
    · intro heq
      rw [heq] at hletter
      exact absurd hletter (by decide)
    · intro hbad
      exact absurd hbad h

theorem OptionEvent.not_bad_of_help {host : ArgumentsHost} {e : OptionEvent}
    (h : e.letter = 'h') : ¬e.Bad host := by
  unfold OptionEvent.Bad
  simp [h]

theorem OptionEvent.effect_eq_help {host : ArgumentsHost} {e : OptionEvent} :
    e.effect host = 'h' ↔ e.letter = 'h' := by
  unfold OptionEvent.effect
  by_cases h : e.Bad host
  · rw [if_pos h]
    constructor
    · intro heq
      exact absurd heq (by decide)
    · intro hletter
      exact absurd h (OptionEvent.not_bad_of_help hletter)
  · rw [if_neg h]

/-! ### The name of the interface -/

/-- An event leaves `tap_iface` alone or copies the name of an interface to it. -/
theorem parseOption_tapIface (host : ArgumentsHost) (F : OptionFlags) (e : OptionEvent)
    (s : OptionState) :
    (parseOption host F e s).params.tapIface = s.params.tapIface ∨
      (parseOption host F e s).params.tapIface.length < IFNAMSIZ := by
  obtain ⟨letter, optarg⟩ := e
  by_cases hi : letter = 'i'
  · subst hi
    by_cases hindex : host.ifNametoindex optarg = 0
    · left
      simp [parseOption, hindex]
    · right
      simpa [parseOption, hindex] using host.ifNametoindex_length optarg hindex
  · left
    unfold parseOption
    rw [if_neg hi]
    simp only [apply_ite OptionState.params, apply_ite TunnelParams.tapIface, ite_self]

theorem parseOptions_tapIface (host : ArgumentsHost) (F : OptionFlags)
    (events : List OptionEvent) (s : OptionState)
    (hs : s.params.tapIface.length < TAP_IFACE_SIZE) :
    (parseOptions host F events s).params.tapIface.length < TAP_IFACE_SIZE := by
  induction events generalizing s with
  | nil => exact hs
  | cons e events ih =>
    unfold parseOptions
    split
    · apply ih
      rcases parseOption_tapIface host F e s with hsame | hname
      · rwa [hsame]
      · exact Nat.lt_trans hname (by decide)
    · exact hs

/-- The name and its null stay within `tap_iface`. -/
theorem parseTunnelArguments_tapIface (host : ArgumentsHost) (F : OptionFlags)
    (events : List OptionEvent) (params : TunnelParams)
    (hparams : params.tapIface.length < TAP_IFACE_SIZE) :
    (parseTunnelArguments host F events params).2.tapIface.length < TAP_IFACE_SIZE := by
  have hloop := parseOptions_tapIface host F events ⟨0, params⟩ hparams
  have hkept : ∀ s : OptionState, (finishOptions F s).2.tapIface = s.params.tapIface := by
    intro s
    unfold finishOptions
    split_ifs <;> rfl
  unfold parseTunnelArguments
  rwa [hkept]

/-! ### The loop -/

/-- The bits are told apart. -/
def OptionFlags.Distinct (F : OptionFlags) : Prop :=
  ∀ a ∈ optionLetters, ∀ b ∈ optionLetters, F.bit a &&& F.bit b = 0 ↔ a ≠ b

theorem OptionFlags.distinct_of_all {F : OptionFlags}
    (h : optionLetters.all fun a => optionLetters.all fun b =>
      decide (F.bit a &&& F.bit b = 0 ↔ a ≠ b)) : F.Distinct := by
  intro a ha b hb
  have hrow := List.all_eq_true.mp h a ha
  exact of_decide_eq_true (List.all_eq_true.mp hrow b hb)

theorem satencapFlags_distinct : satencapFlags.Distinct :=
  OptionFlags.distinct_of_all (by decide)

theorem satdecapFlags_distinct : satdecapFlags.Distinct :=
  OptionFlags.distinct_of_all (by decide)

/-- The condition of the option loop. -/
def OptionState.Running (F : OptionFlags) (s : OptionState) : Prop :=
  s.flags &&& F.error = 0 ∧ s.flags &&& F.help = 0

section

variable {host : ArgumentsHost} {F : OptionFlags}

theorem OptionFlags.Distinct.clear_iff (hF : F.Distinct) (s : OptionState) (e : OptionEvent)
    (letter : Char) (hletter : letter ∈ optionLetters) :
    (parseOption host F e s).flags &&& F.bit letter = 0 ↔
      s.flags &&& F.bit letter = 0 ∧ e.effect host ≠ letter := by
  rw [parseOption_flags, or_and_eq_zero, hF _ (e.effect_mem host) letter hletter]

theorem OptionFlags.Distinct.error_clear_iff (hF : F.Distinct) (s : OptionState)
    (e : OptionEvent) :
    (parseOption host F e s).flags &&& F.error = 0 ↔ s.flags &&& F.error = 0 ∧ ¬e.Bad host := by
  have hclear := @OptionFlags.Distinct.clear_iff host F hF s e '?' (by decide)
  rw [ne_eq, OptionEvent.effect_eq_error] at hclear
  exact hclear

theorem OptionFlags.Distinct.help_clear_iff (hF : F.Distinct) (s : OptionState)
    (e : OptionEvent) :
    (parseOption host F e s).flags &&& F.help = 0 ↔ s.flags &&& F.help = 0 ∧ ¬e.letter = 'h' := by
  have hclear := @OptionFlags.Distinct.clear_iff host F hF s e 'h' (by decide)
  rw [ne_eq, OptionEvent.effect_eq_help] at hclear
  exact hclear

/-- An event ends the loop where it is `-h` or bad. -/
theorem OptionFlags.Distinct.running_iff (hF : F.Distinct) {s : OptionState}
    (h : s.Running F) (e : OptionEvent) :
    (parseOption host F e s).Running F ↔ ¬(e.letter = 'h' ∨ e.Bad host) := by
  constructor
  · rintro ⟨herror, hhelp⟩ (hletter | hbad)
    · exact ((hF.help_clear_iff s e).mp hhelp).2 hletter
    · exact ((hF.error_clear_iff s e).mp herror).2 hbad
  · intro he
    rw [not_or] at he
    constructor
    · exact (hF.error_clear_iff s e).mpr ⟨h.1, he.2⟩
    · exact (hF.help_clear_iff s e).mpr ⟨h.2, he.1⟩

theorem parseOptions_stopped {s : OptionState} (h : ¬s.Running F) (events : List OptionEvent) :
    parseOptions host F events s = s := by
  cases events with
  | nil => rfl
  | cons e events =>
    unfold parseOptions
    exact if_neg h

theorem parseOptions_cons {s : OptionState} (h : s.Running F) (e : OptionEvent)
    (events : List OptionEvent) :
    parseOptions host F (e :: events) s = parseOptions host F events (parseOption host F e s) := by
  rw [parseOptions]
  exact if_pos h

theorem parseOptions_append (hF : F.Distinct) {events : List OptionEvent}
    (hevents : ∀ e ∈ events, ¬(e.letter = 'h' ∨ e.Bad host)) (rest : List OptionEvent)
    {s : OptionState} (h : s.Running F) :
    parseOptions host F (events ++ rest) s =
        parseOptions host F rest (events.foldl (fun s e => parseOption host F e s) s) ∧
      (events.foldl (fun s e => parseOption host F e s) s).Running F := by
  induction events generalizing s with
  | nil => exact ⟨rfl, h⟩
  | cons e events ih =>
    rw [List.forall_mem_cons] at hevents
    have hnext := (hF.running_iff h e).mpr hevents.1
    rw [List.cons_append, parseOptions_cons h, List.foldl_cons]
    exact ih hevents.2 hnext

/-! ### After the loop -/

theorem finishOptions_stopped (hF : F.Distinct) {s : OptionState} {e : OptionEvent}
    (h : s.Running F) (he : e.letter = 'h' ∨ e.Bad host) :
    (finishOptions F (parseOption host F e s)).1 = if e.letter = 'h' then 1 else -1 := by
  unfold finishOptions
  by_cases hletter : e.letter = 'h'
  · have hset : (parseOption host F e s).flags &&& F.help ≠ 0 := by
      intro hclear
      exact ((hF.help_clear_iff s e).mp hclear).2 hletter
    rw [if_pos hset, if_pos hletter]
  · have hbad := he.resolve_left hletter
    have hclear : (parseOption host F e s).flags &&& F.help = 0 :=
      (hF.help_clear_iff s e).mpr ⟨h.2, hletter⟩
    have hset : (parseOption host F e s).flags &&& F.error ≠ 0 := by
      intro hclear
      exact ((hF.error_clear_iff s e).mp hclear).2 hbad
    rw [if_neg (not_not_intro hclear), if_pos hset, if_neg hletter]

/-- After events that are not bad, a flag is clear where its option does not occur. -/
theorem foldl_clear_iff (hF : F.Distinct) {events : List OptionEvent}
    (hevents : ∀ e ∈ events, ¬(e.letter = 'h' ∨ e.Bad host)) (params : TunnelParams)
    (letter : Char) (hletter : letter ∈ optionLetters) :
    (events.foldl (fun s e => parseOption host F e s) ⟨0, params⟩).flags &&& F.bit letter = 0 ↔
      ¬Occurs letter events := by
  rw [foldl_flags (fun s e => parseOption host F e s) OptionState.flags
    (fun e => F.bit (e.effect host)) (parseOption_flags host F)]
  unfold Occurs
  push Not
  constructor
  · rintro ⟨-, hclear⟩ e he
    have hne := (hF _ (e.effect_mem host) _ hletter).mp (hclear e he)
    have hbad := (not_or.mp (hevents e he)).2
    unfold OptionEvent.effect at hne
    rwa [if_neg hbad] at hne
  · intro hne
    constructor
    · exact BitVec.zero_and
    · intro e he
      apply (hF _ (e.effect_mem host) _ hletter).mpr
      have hbad := (not_or.mp (hevents e he)).2
      unfold OptionEvent.effect
      rw [if_neg hbad]
      exact hne e he

theorem Occurs.lastValue {letter : Char} {events : List OptionEvent}
    (h : Occurs letter events) :
    ∃ e ∈ events, e.letter = letter ∧ lastValue letter events = some e.optarg := by
  unfold DvbGseTunnel.lastValue
  cases hlast : lastOccurrence (fun e => decide (e.letter = letter)) events with
  | none =>
    obtain ⟨e, he, hletter⟩ := h
    have hnone := lastOccurrence_eq_none.mp hlast e he
    exact absurd (decide_eq_true hletter) hnone
  | some e =>
    obtain ⟨he, hletter⟩ := lastOccurrence_mem hlast
    exact ⟨e, he, of_decide_eq_true hletter, rfl⟩

theorem lastValue_of_not_occurs {letter : Char} {events : List OptionEvent}
    (h : ¬Occurs letter events) : lastValue letter events = none := by
  unfold lastValue
  rw [lastOccurrence_eq_none.mpr, Option.map_none]
  intro e he hletter
  exact h ⟨e, he, of_decide_eq_true hletter⟩

/-- After events that are not bad, a parameter has the value of the last event of its
    letter, if there is one. -/
theorem foldl_params {α : Type*} {events : List OptionEvent}
    (hevents : ∀ e ∈ events, ¬(e.letter = 'h' ∨ e.Bad host)) (get : TunnelParams → α)
    (letter : Char) (value : List Char → α)
    (hstored : ∀ (e : OptionEvent) (params : TunnelParams),
      get (e.stored host params) = if e.letter = letter then value e.optarg else get params)
    (s : OptionState) :
    get (events.foldl (fun s e => parseOption host F e s) s).params =
      (lastValue letter events).elim (get s.params) value := by
  rw [foldl_lastWriter (fun s e => parseOption host F e s) (fun s => get s.params)
    (fun e => decide (e.letter = letter)) (fun e => value e.optarg)]
  · unfold lastValue
    rw [Option.elim_map]
    rfl
  · intro e he s
    have hbad := (not_or.mp (hevents e he)).2
    simp only [parseOption_good hbad, hstored, decide_eq_true_eq]

theorem finishOptions_of_clear {s : OptionState} (h : s.Running F) :
    finishOptions F s =
      if s.flags &&& F.tapIface = 0 ∨ s.flags &&& F.localAddr = 0 ∨ s.flags &&& F.remote = 0 then
        (-1, s.params)
      else
        (0, { s.params with
          readTimeout :=
            if s.flags &&& F.readTimeout = 0 then setTime DEFAULT_READ_TIMEOUT
            else s.params.readTimeout
          payloadLen :=
            if s.flags &&& F.payloadLen = 0 then DEFAULT_PAYLOAD_LENGTH else s.params.payloadLen
          bufferLen :=
            if s.flags &&& F.bufferLen = 0 then DEFAULT_BUFFER_LENGTH
            else s.params.bufferLen }) := by
  unfold finishOptions
  rw [if_neg (not_not_intro h.2), if_neg (not_not_intro h.1)]
  by_cases hi : s.flags &&& F.tapIface = 0
  · rw [if_pos hi, if_pos (Or.inl hi)]
  by_cases hl : s.flags &&& F.localAddr = 0
  · rw [if_neg hi, if_pos hl, if_pos (Or.inr (Or.inl hl))]
  by_cases hr : s.flags &&& F.remote = 0
  · rw [if_neg hi, if_neg hl, if_pos hr, if_pos (Or.inr (Or.inr hr))]
  have hset : ¬(s.flags &&& F.tapIface = 0 ∨ s.flags &&& F.localAddr = 0 ∨
      s.flags &&& F.remote = 0) := by
    simp only [hi, hl, hr, or_self, not_false_eq_true]
  rw [if_neg hi, if_neg hl, if_neg hr, if_neg hset]
  simp only
  split <;> split <;> split <;> rfl

theorem parseUdpArguments_accepted {value : List Char}
    (h : (parseUdpArguments host value ⟨0, 0⟩).1 = 0) (previous : UdpAddr) :
    parseUdpArguments host value previous = (0, (parseUdpArguments host value ⟨0, 0⟩).2) := by
  obtain ⟨hret, haddr⟩ := parseUdpArguments_previous host value previous ⟨0, 0⟩
  rw [h] at hret
  exact Prod.ext hret (haddr hret)

/-- An address parameter, with the option it belongs to. -/
theorem foldl_address {events : List OptionEvent}
    (hevents : ∀ e ∈ events, ¬(e.letter = 'h' ∨ e.Bad host)) (get : TunnelParams → UdpAddr)
    {letter : Char} (hletter : letter = 'l' ∨ letter = 'r')
    (hstored : ∀ (e : OptionEvent) (params : TunnelParams), get (e.stored host params) =
      if e.letter = letter then (parseUdpArguments host e.optarg ⟨0, 0⟩).2 else get params)
    (hoccurs : Occurs letter events) (s : OptionState) :
    ∃ value, lastValue letter events = some value ∧ ∀ previous,
      parseUdpArguments host value previous =
        (0, get (events.foldl (fun s e => parseOption host F e s) s).params) := by
  obtain ⟨e, he, heq, hvalue⟩ := hoccurs.lastValue
  refine ⟨e.optarg, hvalue, ?_⟩
  have haccepted : (parseUdpArguments host e.optarg ⟨0, 0⟩).1 = 0 := by
    by_contra hret
    apply (not_or.mp (hevents e he)).2
    rw [← heq] at hletter
    exact Or.inr (Or.inr (Or.inl ⟨hletter, hret⟩))
  have hparams := foldl_params (F := F) hevents get letter
    (fun value => (parseUdpArguments host value ⟨0, 0⟩).2) hstored s
  rw [hvalue, Option.elim_some] at hparams
  rw [hparams]
  exact parseUdpArguments_accepted haccepted

/-- A parameter with a default, with the option it belongs to. -/
theorem foldl_default {α : Type*} (hF : F.Distinct) {events : List OptionEvent}
    (hevents : ∀ e ∈ events, ¬(e.letter = 'h' ∨ e.Bad host)) (get : TunnelParams → α)
    (letter : Char) (hletter : letter ∈ optionLetters) (value : List Char → α)
    (hstored : ∀ (e : OptionEvent) (params : TunnelParams),
      get (e.stored host params) = if e.letter = letter then value e.optarg else get params)
    (default : α) (params : TunnelParams) :
    (if (events.foldl (fun s e => parseOption host F e s) ⟨0, params⟩).flags &&&
        F.bit letter = 0 then default
      else get (events.foldl (fun s e => parseOption host F e s) ⟨0, params⟩).params) =
      (lastValue letter events).elim default value := by
  have hclear := foldl_clear_iff hF hevents params letter hletter
  by_cases hoccurs : Occurs letter events
  · have hset := mt hclear.mp (not_not_intro hoccurs)
    obtain ⟨e, -, -, hvalue⟩ := hoccurs.lastValue
    have hparams := foldl_params (F := F) hevents get letter value hstored ⟨0, params⟩
    rw [if_neg hset, hparams, hvalue, Option.elim_some, Option.elim_some]
  · rw [if_pos (hclear.mpr hoccurs), lastValue_of_not_occurs hoccurs, Option.elim_none]

/-- The deciding event ends the loop, and gives the return value. -/
theorem parseTunnelArguments_decided (hF : F.Distinct) {events : List OptionEvent}
    {e : OptionEvent} (hdecide : decidingEvent host events = some e) (params : TunnelParams) :
    (parseTunnelArguments host F events params).1 = if e.letter = 'h' then 1 else -1 := by
  have hstart : OptionState.Running F ⟨0, params⟩ := ⟨BitVec.zero_and, BitVec.zero_and⟩
  obtain ⟨he, before, after, rfl, hbefore⟩ := List.find?_eq_some_iff_append.mp hdecide
  have he := of_decide_eq_true he
  have hbefore : ∀ e ∈ before, ¬(e.letter = 'h' ∨ e.Bad host) := by
    intro e he
    simpa using hbefore e he
  obtain ⟨hloop, hrunning⟩ := parseOptions_append hF hbefore (e :: after) hstart
  have hstop := mt (hF.running_iff hrunning e).mp (not_not_intro he)
  unfold parseTunnelArguments
  rw [hloop, parseOptions_cons hrunning, parseOptions_stopped hstop]
  exact finishOptions_stopped hF hrunning he

/-- Without a deciding event the loop sees every event. -/
theorem parseTunnelArguments_undecided (hF : F.Distinct) {events : List OptionEvent}
    (hevents : ∀ e ∈ events, ¬(e.letter = 'h' ∨ e.Bad host)) (params : TunnelParams) :
    parseTunnelArguments host F events params =
        finishOptions F (events.foldl (fun s e => parseOption host F e s) ⟨0, params⟩) ∧
      (events.foldl (fun s e => parseOption host F e s) ⟨0, params⟩).Running F := by
  have hstart : OptionState.Running F ⟨0, params⟩ := ⟨BitVec.zero_and, BitVec.zero_and⟩
  obtain ⟨hloop, hrunning⟩ := parseOptions_append hF hevents [] hstart
  rw [List.append_nil] at hloop
  refine ⟨?_, hrunning⟩
  unfold parseTunnelArguments
  rw [hloop, parseOptions]

theorem parseTunnelArguments_missing (hF : F.Distinct) {events : List OptionEvent}
    (hevents : ∀ e ∈ events, ¬(e.letter = 'h' ∨ e.Bad host)) (params : TunnelParams)
    (hmissing : ¬(Occurs 'i' events ∧ Occurs 'l' events ∧ Occurs 'r' events)) :
    (parseTunnelArguments host F events params).1 = -1 := by
  obtain ⟨hparse, hrunning⟩ := parseTunnelArguments_undecided hF hevents params
  have hi := foldl_clear_iff hF hevents params 'i' (by decide)
  have hl := foldl_clear_iff hF hevents params 'l' (by decide)
  have hr := foldl_clear_iff hF hevents params 'r' (by decide)
  rw [not_and_or, not_and_or, ← hi, ← hl, ← hr] at hmissing
  rw [hparse, finishOptions_of_clear hrunning, if_pos]
  exact hmissing

theorem parseTunnelArguments_accepted (hF : F.Distinct) {events : List OptionEvent}
    (hevents : ∀ e ∈ events, ¬(e.letter = 'h' ∨ e.Bad host)) (params : TunnelParams)
    (hi : Occurs 'i' events) (hl : Occurs 'l' events) (hr : Occurs 'r' events) :
    (parseTunnelArguments host F events params).1 = 0 ∧
      FromEvents host events (parseTunnelArguments host F events params).2 := by
  obtain ⟨hparse, hrunning⟩ := parseTunnelArguments_undecided hF hevents params
  rw [hparse, finishOptions_of_clear hrunning, if_neg]
  · refine ⟨rfl, ?_, ?_, ?_, ?_, ?_, ?_⟩
    · obtain ⟨e, -, -, hvalue⟩ := hi.lastValue
      have hparams := foldl_params (F := F) hevents TunnelParams.tapIface 'i' id
        (fun _ _ => rfl) ⟨0, params⟩
      rw [hvalue, Option.elim_some] at hparams
      rw [hvalue]
      exact congrArg some hparams.symm
    · exact foldl_address hevents TunnelParams.localAddr (Or.inl rfl) (fun _ _ => rfl) hl _
    · exact foldl_address hevents TunnelParams.remote (Or.inr rfl) (fun _ _ => rfl) hr _
    · exact foldl_default hF hevents TunnelParams.readTimeout 't' (by decide)
        (fun value => setTime (parseUnsignedLong value).2) (fun _ _ => rfl)
        (setTime DEFAULT_READ_TIMEOUT) params
    · exact foldl_default hF hevents TunnelParams.payloadLen 'p' (by decide)
        (fun value => toInt (parseUnsignedLong value).2) (fun _ _ => rfl)
        DEFAULT_PAYLOAD_LENGTH params
    · exact foldl_default hF hevents TunnelParams.bufferLen 'b' (by decide)
        (fun value => toInt (parseUnsignedLong value).2) (fun _ _ => rfl)
        DEFAULT_BUFFER_LENGTH params
  · rintro (hclear | hclear | hclear)
    · exact (foldl_clear_iff hF hevents params 'i' (by decide)).mp hclear hi
    · exact (foldl_clear_iff hF hevents params 'l' (by decide)).mp hclear hl
    · exact (foldl_clear_iff hF hevents params 'r' (by decide)).mp hclear hr

theorem parseTunnelArguments_outcome (hF : F.Distinct) (events : List OptionEvent)
    (params : TunnelParams) :
    OptionsOutcome host events (parseTunnelArguments host F events params) := by
  have hnone : decidingEvent host events = none →
      ∀ e ∈ events, ¬(e.letter = 'h' ∨ e.Bad host) := by
    intro hdecide e he
    simpa using List.find?_eq_none.mp hdecide e he
  constructor
  · intro e hdecide
    exact parseTunnelArguments_decided hF hdecide params
  · intro hdecide hmissing
    exact parseTunnelArguments_missing hF (hnone hdecide) params hmissing
  · intro hdecide hi hl hr
    exact parseTunnelArguments_accepted hF (hnone hdecide) params hi hl hr

end

/-! ### Both programs -/

theorem satencapParseArguments_outcome (host : ArgumentsHost) (events : List OptionEvent)
    (params : ProcessEncapParams) :
    OptionsOutcome host events ((satencapParseArguments host events params).1,
      (satencapParseArguments host events params).2.toTunnelParams) :=
  parseTunnelArguments_outcome satencapFlags_distinct events params.toTunnelParams

theorem satdecapParseArguments_outcome (host : ArgumentsHost) (events : List OptionEvent)
    (params : ProcessDecapParams) :
    OptionsOutcome host events ((satdecapParseArguments host events params).1,
      (satdecapParseArguments host events params).2.toTunnelParams) :=
  parseTunnelArguments_outcome satdecapFlags_distinct events params.toTunnelParams

/-- Accepted arguments have no deciding event, and the three required options. -/
theorem OptionsOutcome.eq_zero_iff {host : ArgumentsHost} {events : List OptionEvent}
    {result : Int × TunnelParams} (h : OptionsOutcome host events result) :
    result.1 = 0 ↔ decidingEvent host events = none ∧
      Occurs 'i' events ∧ Occurs 'l' events ∧ Occurs 'r' events := by
  constructor
  · intro hret
    have hdecide : decidingEvent host events = none := by
      cases hdecide : decidingEvent host events with
      | none => rfl
      | some e =>
        have hdecided := h.decided e hdecide
        rw [hret] at hdecided
        split at hdecided <;> cases hdecided
    refine ⟨hdecide, ?_⟩
    by_contra hmissing
    have hret' := h.missing hdecide hmissing
    rw [hret] at hret'
    cases hret'
  · rintro ⟨hdecide, hi, hl, hr⟩
    exact (h.accepted hdecide hi hl hr).1

theorem OptionsOutcome.fromEvents {host : ArgumentsHost} {events : List OptionEvent}
    {result : Int × TunnelParams} (h : OptionsOutcome host events result)
    (hret : result.1 = 0) : FromEvents host events result.2 := by
  obtain ⟨hdecide, hi, hl, hr⟩ := h.eq_zero_iff.mp hret
  exact (h.accepted hdecide hi hl hr).2

theorem lastValue_perm {events events' : List OptionEvent} (hperm : events.Perm events')
    (hletters : (events.map (·.letter)).Nodup) (letter : Char) :
    lastValue letter events = lastValue letter events' := by
  unfold lastValue
  rw [lastOccurrence_perm hperm]
  intro e he e' he' hletter hletter'
  apply List.inj_on_of_nodup_map hletters he he'
  rw [of_decide_eq_true hletter, of_decide_eq_true hletter']

/-- The events determine the parameters. -/
theorem FromEvents.unique {host : ArgumentsHost} {events : List OptionEvent}
    {params params' : TunnelParams} (h : FromEvents host events params)
    (h' : FromEvents host events params') : params = params' := by
  obtain ⟨value, hvalue, hlocal⟩ := h.localAddr
  obtain ⟨value', hvalue', hlocal'⟩ := h'.localAddr
  obtain ⟨remote, hremote, hparsed⟩ := h.remote
  obtain ⟨remote', hremote', hparsed'⟩ := h'.remote
  obtain rfl := Option.some.inj (hvalue.symm.trans hvalue')
  obtain rfl := Option.some.inj (hremote.symm.trans hremote')
  have htap := Option.some.inj (h.tapIface.symm.trans h'.tapIface)
  have hlocalEq := (hlocal ⟨0, 0⟩).symm.trans (hlocal' ⟨0, 0⟩)
  have hremoteEq := (hparsed ⟨0, 0⟩).symm.trans (hparsed' ⟨0, 0⟩)
  have htime := h.readTimeout.trans h'.readTimeout.symm
  have hpayload := h.payloadLen.trans h'.payloadLen.symm
  have hbuffer := h.bufferLen.trans h'.bufferLen.symm
  obtain ⟨tapIface, localAddr, remoteAddr, readTimeout, bufferLen, payloadLen⟩ := params
  rw [TunnelParams.mk.injEq]
  exact ⟨htap, congrArg Prod.snd hlocalEq, congrArg Prod.snd hremoteEq, htime, hbuffer, hpayload⟩

theorem FromEvents.congr {host : ArgumentsHost} {events events' : List OptionEvent}
    (hlast : ∀ letter, lastValue letter events = lastValue letter events')
    {params : TunnelParams} (h : FromEvents host events params) :
    FromEvents host events' params := by
  obtain ⟨htap, hlocal, hremote, htime, hpayload, hbuffer⟩ := h
  simp only [hlast] at htap hlocal hremote htime hpayload hbuffer
  exact ⟨htap, hlocal, hremote, htime, hpayload, hbuffer⟩

/-- The return value depends on the events only. -/
theorem OptionsOutcome.ret_eq {host : ArgumentsHost} {events : List OptionEvent}
    {result result' : Int × TunnelParams} (h : OptionsOutcome host events result)
    (h' : OptionsOutcome host events result') : result.1 = result'.1 := by
  cases hdecide : decidingEvent host events with
  | some e => rw [h.decided e hdecide, h'.decided e hdecide]
  | none =>
    by_cases hrequired : Occurs 'i' events ∧ Occurs 'l' events ∧ Occurs 'r' events
    · rw [h.eq_zero_iff.mpr ⟨hdecide, hrequired⟩, h'.eq_zero_iff.mpr ⟨hdecide, hrequired⟩]
    · rw [h.missing hdecide hrequired, h'.missing hdecide hrequired]

/-- **Option parsing.** The outcome of `parse_arguments` of both programs, for every
    sequence of events, and its independence of the order of distinct options. -/
theorem parseArguments_outcome (host : ArgumentsHost) :
    (∀ events params, OptionsOutcome host events ((satencapParseArguments host events params).1,
      (satencapParseArguments host events params).2.toTunnelParams)) ∧
    (∀ events params, OptionsOutcome host events ((satdecapParseArguments host events params).1,
      (satdecapParseArguments host events params).2.toTunnelParams)) ∧
    (∀ events events' : List OptionEvent, events.Perm events' →
      (events.map (·.letter)).Nodup →
      (∀ params params', (satencapParseArguments host events params).1 = 0 →
        (satencapParseArguments host events' params').1 = 0 →
        (satencapParseArguments host events params).2.toTunnelParams =
          (satencapParseArguments host events' params').2.toTunnelParams) ∧
      (∀ params params', (satdecapParseArguments host events params).1 = 0 →
        (satdecapParseArguments host events' params').1 = 0 →
        (satdecapParseArguments host events params).2.toTunnelParams =
          (satdecapParseArguments host events' params').2.toTunnelParams)) := by
  refine ⟨satencapParseArguments_outcome host, satdecapParseArguments_outcome host, ?_⟩
  intro events events' hperm hletters
  constructor
  · intro params params' hret hret'
    have h := (satencapParseArguments_outcome host events params).fromEvents hret
    have h' := (satencapParseArguments_outcome host events' params').fromEvents hret'
    exact (h.congr (lastValue_perm hperm hletters)).unique h'
  · intro params params' hret hret'
    have h := (satdecapParseArguments_outcome host events params).fromEvents hret
    have h' := (satdecapParseArguments_outcome host events' params').fromEvents hret'
    exact (h.congr (lastValue_perm hperm hletters)).unique h'

end DvbGseTunnel
