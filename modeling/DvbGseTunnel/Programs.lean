import DvbGseTunnel.Descriptors
import DvbGseTunnel.StartParameters
import DvbGseTunnel.StoppedTunnel

/-!
# The programs as a whole

`main` of `satencap` and `satdecap`, from the arguments to the exit status. The statuses
are those of the comment above `main`, except that -3 is never returned and a run that
`pselect` ends counts as -2, unless a stop signal comes before the `return`
(`satencapMain_exit`, `satdecapMain_exit`). If the payload and buffer lengths of the two
command lines fit together, the frames come through (`started_tunnel`).
-/

namespace DvbGseTunnel

open Lib

variable {σ ω δ : Type}

/-! ### `main` -/

/-- What both `main`s make of the result of `parse_arguments` and of the call after it. -/
def exitStatus (ret : Int) (process : Option Int × Descriptors) (t : Descriptors) :
    Option Int × Descriptors :=
  if ret ≠ 0 then (some (if ret > 0 then 0 else -1), t)
  else match process with
    | (none, t) => (none, t)
    | (some ret, t) => (some (if ret ≠ 0 then -2 else 0), t)

/-- `stack` is what the uninitialised parameters hold. Without a status the program is still
    in its loop. -/
def satencapMain (fresh : Finset Nat → Nat) (G : GseConstants) (lib : Encapsulator σ)
    (sendto : ω → List UInt8 → Int × ω) (host : ArgumentsHost) (options : List OptionEvent)
    (stack : ProcessEncapParams) (o : EncapOutcomes) (bound : Nat) (events : List EncapEvent)
    (signals : StopSignals) (init : EncapState σ ω) (t : Descriptors) : Option Int × Descriptors :=
  let (ret, params) := satencapParseArguments host options stack
  exitStatus ret
    (processEncapCall fresh ⟨G, lib, sendto, params⟩ o bound events signals init t) t

def satdecapMain (fresh : Finset Nat → Nat) (G : GseConstants) (D : Decapsulator δ)
    (host : ArgumentsHost) (options : List OptionEvent) (stack : ProcessDecapParams)
    (o : DecapOutcomes) (bound : Nat) (events : List DecapEvent) (signals : StopSignals)
    (init : DecapState δ) (t : Descriptors) : Option Int × Descriptors :=
  let (ret, params) := satdecapParseArguments host options stack
  exitStatus ret (processDecapCall fresh G D params o bound events signals init t) t

/-! ### The calls -/

/-- The return value of both calls once their loop has ended. -/
theorem loopRet_eq_zero {alive ret : Int} (h : (if alive ≥ 0 then 0 else -2) = ret) :
    ret = 0 ↔ alive ≥ 0 := by
  subst h
  split
  · exact iff_of_true rfl ‹_›
  · exact iff_of_false (by decide) ‹_›

/-- Every call before the loop succeeds. -/
def EncapOutcomes.SetUp (o : EncapOutcomes) : Prop :=
  (o.recvMalloc ∧ o.tap.opened ∧ o.tap.ioctl) ∧
    (o.sendMalloc ∧ o.eventfd ∧ o.udp.socket ∧ o.udp.setsockopt ∧ o.udp.bind) ∧ o.encapInit

def DecapOutcomes.SetUp (o : DecapOutcomes) : Prop :=
  (o.malloc ∧ o.udp.socket ∧ (o.udp.setsockopt ∧ o.udp.bind) ∧ o.tap.opened ∧ o.tap.ioctl) ∧
    o.deencapInit

instance (o : EncapOutcomes) : Decidable o.SetUp := inferInstanceAs (Decidable (_ ∧ _ ∧ _))

instance (o : DecapOutcomes) : Decidable o.SetUp := inferInstanceAs (Decidable (_ ∧ _))

theorem EncapOutcomes.SetUp.not_leaks {o : EncapOutcomes} (h : o.SetUp) : ¬o.Leaks :=
  fun hleaks => hleaks.2.2 ⟨h.2.1.2.2.2.1, h.2.1.2.2.2.2, h.2.2⟩

theorem DecapOutcomes.SetUp.not_leaks {o : DecapOutcomes} (h : o.SetUp) : ¬o.Leaks := by
  rintro ⟨-, hudp | hinit⟩
  · exact hudp h.1.2.2.1
  · exact hinit.2 h.2

section

variable {fresh : Finset Nat → Nat} {s : Finset Nat} {held : List Nat} {t t' : Descriptors}
  {ret : Int}

/-- `process_encap` comes to its loop, and returns when the loop is left; or it has returned
    -1. -/
theorem processEncapCall_cases (hfresh : ∀ s, fresh s ∉ s) (E : EncapConf σ ω)
    (o : EncapOutcomes) (bound : Nat) (events : List EncapEvent) (signals : StopSignals)
    (init : EncapState σ ω) (h : t.Owns s held) :
    ((checkEncapParams E.gse E.params = 0 ∧ o.SetUp) ∧
      (processEncapCall fresh E o bound events signals init t).1 =
        (loopEnd EncapState.alive EncapState.sighandler signals.afterLoop
          (encapLoop E bound events init signals.atTest)).map fun alive =>
            if alive ≥ 0 then 0 else -2) ∨
    (¬(checkEncapParams E.gse E.params = 0 ∧ o.SetUp) ∧
      (processEncapCall fresh E o bound events signals init t).1 = some (-1)) := by
  unfold processEncapCall
  by_cases hcheck : checkEncapParams E.gse E.params ≠ 0
  · rw [if_pos hcheck]
    exact .inr ⟨fun hall => hcheck hall.1, rfl⟩
  rw [if_neg hcheck]
  rcases createRecvCtxt_owns hfresh o.recvMalloc o.tap h with
    ⟨ctxt, t₁, hrecv, hrecvCalls, howns⟩ | ⟨t₁, hrecv, hrecvCalls, _⟩
  · simp only [hrecv]
    rcases createSendCtxt_owns hfresh o.sendMalloc o.eventfd o.udp howns with
      ⟨sendCtxt, t₂, hsend, hsendCalls, _⟩ | ⟨t₂, hsend, hsendCalls, _⟩ |
      ⟨fd, t₂, hsend, ⟨_, hudp⟩, _⟩
    · simp only [hsend]
      by_cases hencap : o.encapInit
      · rw [if_neg (not_not_intro hencap)]
        refine .inl ⟨⟨not_not.mp hcheck, hrecvCalls, hsendCalls, hencap⟩, ?_⟩
        cases loopEnd EncapState.alive EncapState.sighandler signals.afterLoop
          (encapLoop E bound events init signals.atTest) <;> rfl
      · rw [if_pos hencap]
        exact .inr ⟨fun hall => hencap hall.2.2.2, rfl⟩
    · simp only [hsend]
      refine .inr ⟨fun hall => hsendCalls ?_, trivial⟩
      obtain ⟨hmalloc, hevent, hsocket, -⟩ := hall.2.2.1
      exact ⟨hmalloc, hevent, hsocket⟩
    · simp only [hsend]
      exact .inr ⟨fun hall => hudp hall.2.2.1.2.2.2, trivial⟩
  · simp only [hrecv]
    exact .inr ⟨fun hall => hrecvCalls hall.2.1, trivial⟩

theorem processDecapCall_cases (hfresh : ∀ s, fresh s ∉ s) (G : GseConstants)
    (D : Decapsulator δ) (params : ProcessDecapParams) (o : DecapOutcomes) (bound : Nat)
    (events : List DecapEvent) (signals : StopSignals) (init : DecapState δ)
    (h : t.Owns s held) :
    ((checkDecapParams G params = 0 ∧ o.SetUp) ∧
      (processDecapCall fresh G D params o bound events signals init t).1 =
        (loopEnd DecapState.alive DecapState.sighandler signals.afterLoop
          (decapLoop D params bound events init signals.atTest)).map fun alive =>
            if alive ≥ 0 then 0 else -2) ∨
    (¬(checkDecapParams G params = 0 ∧ o.SetUp) ∧
      (processDecapCall fresh G D params o bound events signals init t).1 = some (-1)) := by
  unfold processDecapCall
  by_cases hcheck : checkDecapParams G params ≠ 0
  · rw [if_pos hcheck]
    exact .inr ⟨fun hall => hcheck hall.1, rfl⟩
  rw [if_neg hcheck]
  rcases createCtxt_owns hfresh o.malloc o.udp o.tap h with
    ⟨ctxt, t₁, hctxt, hcalls, _⟩ | ⟨t₁, hctxt, hcalls, _⟩ | ⟨fd, t₁, hctxt, ⟨_, _, hudp⟩, _⟩
  · simp only [hctxt]
    by_cases hdeencap : o.deencapInit
    · rw [if_neg (not_not_intro hdeencap)]
      refine .inl ⟨⟨not_not.mp hcheck, hcalls, hdeencap⟩, ?_⟩
      cases loopEnd DecapState.alive DecapState.sighandler signals.afterLoop
        (decapLoop D params bound events init signals.atTest) <;> rfl
    · rw [if_pos hdeencap]
      exact .inr ⟨fun hall => hdeencap hall.2.2, rfl⟩
  · simp only [hctxt]
    refine .inr ⟨fun hall => hcalls ?_, trivial⟩
    obtain ⟨hmalloc, hsocket, -, htap⟩ := hall.2.1
    exact ⟨hmalloc, hsocket, fun _ => htap⟩
  · simp only [hctxt]
    exact .inr ⟨fun hall => hudp hall.2.1.2.2.1, trivial⟩

/-- Such a call returns 0 exactly if it comes to its loop and `alive` is not negative after
    it. -/
theorem call_eq_zero_iff {result returned : Option Int} {SetUp Stopped : Prop}
    (hcases : (SetUp ∧ result = returned.map fun alive => if alive ≥ 0 then 0 else -2) ∨
      (¬SetUp ∧ result = some (-1)))
    (hstopped : ∀ a, returned = some a → (a ≥ 0 ↔ Stopped)) (hret : result = some ret) :
    ret = 0 ↔ SetUp ∧ Stopped := by
  rcases hcases with ⟨hsetup, hresult⟩ | ⟨hno, hresult⟩
  · obtain ⟨alive, hreturned, heq⟩ := Option.map_eq_some_iff.mp (hresult.symm.trans hret)
    rw [loopRet_eq_zero heq, hstopped alive hreturned, and_iff_right hsetup]
  · obtain rfl : -1 = ret := Option.some.inj (hresult.symm.trans hret)
    exact iff_of_false (by decide) fun hall => hno hall.1

theorem processEncapCall_eq_zero_iff (hfresh : ∀ s, fresh s ∉ s) (E : EncapConf σ ω)
    (o : EncapOutcomes) (bound : Nat) (events : List EncapEvent) (signals : StopSignals)
    {init : EncapState σ ω} (hinit : init.alive = 0) (h : t.Owns s held)
    (hcall : processEncapCall fresh E o bound events signals init t = (some ret, t')) :
    ret = 0 ↔ (checkEncapParams E.gse E.params = 0 ∧ o.SetUp) ∧
      EncapStopped E bound events init signals :=
  call_eq_zero_iff (processEncapCall_cases hfresh E o bound events signals init h)
    (fun _ hend => encapLoop_alive_iff E bound events hinit signals hend)
    (congrArg Prod.fst hcall)

theorem processDecapCall_eq_zero_iff (hfresh : ∀ s, fresh s ∉ s) (G : GseConstants)
    (D : Decapsulator δ) (params : ProcessDecapParams) (o : DecapOutcomes) (bound : Nat)
    (events : List DecapEvent) (signals : StopSignals) {init : DecapState δ}
    (hinit : init.alive = 0) (h : t.Owns s held)
    (hcall : processDecapCall fresh G D params o bound events signals init t = (some ret, t')) :
    ret = 0 ↔ (checkDecapParams G params = 0 ∧ o.SetUp) ∧
      DecapStopped D params bound events init signals :=
  call_eq_zero_iff (processDecapCall_cases hfresh G D params o bound events signals init h)
    (fun _ hend => decapLoop_alive_iff D params bound events hinit signals hend)
    (congrArg Prod.fst hcall)

end

/-! ### The exit status -/

/-- `-h` comes before any option that is not understood. -/
def HelpAsked (host : ArgumentsHost) (options : List OptionEvent) : Prop :=
  ∃ e, decidingEvent host options = some e ∧ e.letter = 'h'

theorem OptionsOutcome.cases {host : ArgumentsHost} {options : List OptionEvent}
    {result : Int × TunnelParams} (h : OptionsOutcome host options result) :
    (result.1 = 1 ∧ HelpAsked host options ∧ ¬Accepted host options) ∨
      (result.1 = -1 ∧ ¬HelpAsked host options ∧ ¬Accepted host options) ∨
      (result.1 = 0 ∧ ¬HelpAsked host options ∧ Accepted host options) := by
  have haccepted : result.1 = 0 ↔ Accepted host options := h.eq_zero_iff
  cases hdecide : decidingEvent host options with
  | some e =>
    have hret := h.decided e hdecide
    by_cases hletter : e.letter = 'h'
    · rw [if_pos hletter] at hret
      refine .inl ⟨hret, ⟨e, hdecide, hletter⟩, ?_⟩
      rw [← haccepted, hret]
      decide
    · rw [if_neg hletter] at hret
      refine .inr (.inl ⟨hret, ?_, ?_⟩)
      · rintro ⟨e', he', hletter'⟩
        obtain rfl := Option.some.inj (hdecide.symm.trans he')
        exact hletter hletter'
      · rw [← haccepted, hret]
        decide
  | none =>
    have hnone : ¬HelpAsked host options := by
      rintro ⟨e, he, -⟩
      cases hdecide.symm.trans he
    by_cases hrequired : Occurs 'i' options ∧ Occurs 'l' options ∧ Occurs 'r' options
    · have hret := haccepted.mpr ⟨hdecide, hrequired⟩
      exact .inr (.inr ⟨hret, hnone, haccepted.mp hret⟩)
    · have hret := h.missing hdecide hrequired
      refine .inr (.inl ⟨hret, hnone, ?_⟩)
      rw [← haccepted, hret]
      decide

/-- A status of `main`: what it says of the arguments and of the call. `Success` is what the
    call needs to return 0. -/
structure ExitsWith (host : ArgumentsHost) (options : List OptionEvent) (Success : Prop)
    (s : Finset Nat) (code : Int) (t : Descriptors) : Prop where
  status : code = 0 ∨ code = -1 ∨ code = -2
  refused : code = -1 ↔ ¬HelpAsked host options ∧ ¬Accepted host options
  success : code = 0 ↔ HelpAsked host options ∨ Accepted host options ∧ Success
  closed : code = 0 → Table.Restored s t

theorem exitStatus_spec {host : ArgumentsHost} {options : List OptionEvent} {Success : Prop}
    {s : Finset Nat} {code : Int} {t' : Descriptors} {result : Int × TunnelParams}
    (hresult : OptionsOutcome host options result) (process : Option Int × Descriptors)
    (hprocess : ∀ ret t, process = (some ret, t) →
      (ret = 0 ↔ Success) ∧ (ret = 0 → Table.Restored s t))
    (h : exitStatus result.1 process (Table.start s) = (some code, t')) :
    ExitsWith host options Success s code t' := by
  have hstart : Table.Restored s (Table.start s) := ⟨rfl, rfl, rfl⟩
  unfold exitStatus at h
  rcases hresult.cases with ⟨hret, hhelp, hno⟩ | ⟨hret, hhelp, hno⟩ | ⟨hret, hhelp, hyes⟩
  · rw [hret] at h
    obtain ⟨hcode, rfl⟩ := Prod.mk.inj h
    obtain rfl : 0 = code := Option.some.inj hcode
    exact ⟨.inl rfl, iff_of_false (by decide) fun hall => hall.1 hhelp,
      iff_of_true rfl (.inl hhelp), fun _ => hstart⟩
  · rw [hret] at h
    obtain ⟨hcode, rfl⟩ := Prod.mk.inj h
    obtain rfl : -1 = code := Option.some.inj hcode
    refine ⟨.inr (.inl rfl), iff_of_true rfl ⟨hhelp, hno⟩, iff_of_false (by decide) ?_, nofun⟩
    rintro (hall | hall)
    · exact hhelp hall
    · exact hno hall.1
  · rw [hret, if_neg (not_not_intro rfl)] at h
    obtain ⟨returned, t, hcall⟩ : ∃ returned t, process = (returned, t) := ⟨_, _, rfl⟩
    cases returned with
    | none =>
      simp only [hcall] at h
      cases h
    | some ret =>
      simp only [hcall] at h
      obtain ⟨hsuccess, hclosed⟩ := hprocess ret t hcall
      obtain ⟨hcode, rfl⟩ := Prod.mk.inj h
      have hcode := Option.some.inj hcode
      by_cases hzero : ret = 0
      · rw [if_neg (not_not_intro hzero)] at hcode
        subst hcode
        exact ⟨.inl rfl, iff_of_false (by decide) fun hall => hall.2 hyes,
          iff_of_true rfl (.inr ⟨hyes, hsuccess.mp hzero⟩), fun _ => hclosed hzero⟩
      · rw [if_pos hzero] at hcode
        subst hcode
        refine ⟨.inr (.inr rfl), iff_of_false (by decide) fun hall => hall.2 hyes,
          iff_of_false (by decide) ?_, nofun⟩
        rintro (hall | hall)
        · exact hhelp hall
        · exact hzero (hsuccess.mpr hall.2)

/-- **The exit status of `satencap`.** For all arguments, whatever the uninitialised
    parameters hold, each outcome of each call before the loop and each run of the loop: -1
    says that the arguments were refused, 0 that help was asked for or that a stop signal
    came to a test of the loop or after it, with all descriptors closed, and all else is
    -2. -3 is never returned. -/
theorem satencapMain_exit (fresh : Finset Nat → Nat) (hfresh : ∀ s, fresh s ∉ s)
    (G : GseConstants) (L : Encapsulator σ) (sendto : ω → List UInt8 → Int × ω)
    (host : ArgumentsHost) (options : List OptionEvent) (stack : ProcessEncapParams)
    (o : EncapOutcomes) (bound : Nat) (events : List EncapEvent) (signals : StopSignals) (lib : σ)
    (net : ω) (heap : Heap) (s : Finset Nat) (code : Int) (t : Descriptors)
    (hexit : satencapMain fresh G L sendto host options stack o bound events signals
      (.init lib net heap) (Table.start s) = (some code, t)) :
    let params := (satencapParseArguments host options stack).2
    ExitsWith host options
      ((checkEncapParams G params = 0 ∧ o.SetUp) ∧
        EncapStopped ⟨G, L, sendto, params⟩ bound events (.init lib net heap) signals)
      s code t := by
  intro params
  refine exitStatus_spec (satencapParseArguments_outcome host options stack)
    (processEncapCall fresh ⟨G, L, sendto, params⟩ o bound events signals
      (.init lib net heap) (Table.start s)) (fun ret t hcall => ?_) hexit
  have hsuccess := processEncapCall_eq_zero_iff hfresh ⟨G, L, sendto, params⟩ o bound events
    signals rfl (Table.owns_start s) hcall
  refine ⟨hsuccess, fun hret => ?_⟩
  obtain ⟨held, howns, hheld⟩ := processEncapCall_owns hfresh ⟨G, L, sendto, params⟩ o bound events
    signals (.init lib net heap) (Table.owns_start s) hcall
  exact howns.restored_iff.mpr (hheld.mpr (.inr (hsuccess.mp hret).1.2.not_leaks))

/-- One frame is sent, then a stop signal ends the loop. -/
theorem satencapMain_exit_after_signal :
    ∃ t, satencapMain nextDescriptor ⟨13, 4⟩ wholePduLib (fun net data => (data.length, net))
        argumentsHost (optionEvents ['0']) (tunnelOf 0)
        ⟨true, ⟨true, true⟩, true, true, ⟨true, true, true⟩, true⟩ 3 [.readable (some [7])]
        ⟨some 1, false⟩ (.init 0 () fun _ => ⟨0, fun _ => 0⟩) (Table.start {0, 1, 2}) =
          (some 0, t) ∧
      Table.Restored {0, 1, 2} t := by
  have hmain := Prod.ext (x := satencapMain nextDescriptor ⟨13, 4⟩ wholePduLib
    (fun net data => (data.length, net)) argumentsHost (optionEvents ['0']) (tunnelOf 0)
    ⟨true, ⟨true, true⟩, true, true, ⟨true, true, true⟩, true⟩ 3 [.readable (some [7])]
    ⟨some 1, false⟩ (.init 0 () fun _ => ⟨0, fun _ => 0⟩) (Table.start {0, 1, 2}))
    (y := (some 0, _)) (by decide) rfl
  exact ⟨_, hmain, (satencapMain_exit nextDescriptor nextDescriptor_notMem _ _ _ _ _ _ _ _ _ _ _ _
    _ _ _ _ hmain).closed rfl⟩

/-- **The exit status of `satdecap`.** As of `satencap`; the tests are those of both loops,
    and a signal after a failed `gse_create_vfrag_with_data` still turns -1 into success. -/
theorem satdecapMain_exit (fresh : Finset Nat → Nat) (hfresh : ∀ s, fresh s ∉ s)
    (G : GseConstants) (D : Decapsulator δ) (host : ArgumentsHost) (options : List OptionEvent)
    (stack : ProcessDecapParams) (o : DecapOutcomes) (bound : Nat) (events : List DecapEvent)
    (signals : StopSignals) (lib : δ) (bytes : Nat → UInt8) (gseLength : UInt16) (s : Finset Nat)
    (code : Int) (t : Descriptors)
    (hexit : satdecapMain fresh G D host options stack o bound events signals
      (.init lib bytes gseLength) (Table.start s) = (some code, t)) :
    let params := (satdecapParseArguments host options stack).2
    ExitsWith host options
      ((checkDecapParams G params = 0 ∧ o.SetUp) ∧
        DecapStopped D params bound events (.init lib bytes gseLength) signals)
      s code t := by
  intro params
  refine exitStatus_spec (satdecapParseArguments_outcome host options stack)
    (processDecapCall fresh G D params o bound events signals
      (.init lib bytes gseLength) (Table.start s)) (fun ret t hcall => ?_) hexit
  have hsuccess := processDecapCall_eq_zero_iff hfresh G D params o bound events signals rfl
    (Table.owns_start s) hcall
  refine ⟨hsuccess, fun hret => ?_⟩
  obtain ⟨held, howns, hheld⟩ := processDecapCall_owns hfresh G D params o bound events signals
    (.init lib bytes gseLength) (Table.owns_start s) hcall
  exact howns.restored_iff.mpr (hheld.mpr (.inr (hsuccess.mp hret).1.2.not_leaks))

/-- `pselect` fails, and a stop signal comes before the `return`. -/
theorem satdecapMain_exit_after_signal :
    ∃ t, satdecapMain nextDescriptor ⟨13, 4⟩ Reference.decapsulator argumentsHost requiredEvents
        ⟨(tunnelOf 0).toTunnelParams⟩ ⟨true, ⟨true, true, true⟩, ⟨true, true⟩, true⟩ 3
        [.pselectFailed] ⟨none, true⟩ (.init none (fun _ => 0) 0) (Table.start {0, 1, 2}) =
          (some 0, t) ∧
      Table.Restored {0, 1, 2} t := by
  have hmain := Prod.ext (x := satdecapMain nextDescriptor ⟨13, 4⟩ Reference.decapsulator
    argumentsHost requiredEvents ⟨(tunnelOf 0).toTunnelParams⟩
    ⟨true, ⟨true, true, true⟩, ⟨true, true⟩, true⟩ 3 [.pselectFailed] ⟨none, true⟩
    (.init none (fun _ => 0) 0) (Table.start {0, 1, 2})) (y := (some 0, _)) (by decide) rfl
  exact ⟨_, hmain, (satdecapMain_exit nextDescriptor nextDescriptor_notMem _ _ _ _ _ _ _ _ _ _ _ _
    _ _ _ hmain).closed rfl⟩

/-! ### The tunnel between two command lines -/

/-- The descriptors open when a program starts, and which free number the kernel takes. -/
structure DescriptorChoice where
  opened : Finset Nat
  fresh : Finset Nat → Nat
  fresh_notMem : ∀ s, fresh s ∉ s

/-- `satencap` as it is started; `stack` is what its uninitialised parameters hold. -/
structure SatencapProgram (σ ω : Type) where
  gse : GseConstants
  lib : Encapsulator σ
  sendto : ω → List UInt8 → Int × ω
  host : ArgumentsHost
  options : List OptionEvent
  stack : ProcessEncapParams
  outcomes : EncapOutcomes
  descriptors : DescriptorChoice

structure SatdecapProgram (δ : Type) where
  gse : GseConstants
  lib : Decapsulator δ
  host : ArgumentsHost
  options : List OptionEvent
  stack : ProcessDecapParams
  outcomes : DecapOutcomes
  descriptors : DescriptorChoice

def SatencapProgram.main (A : SatencapProgram σ ω) (bound : Nat) (events : List EncapEvent)
    (signals : StopSignals) (init : EncapState σ ω) : Option Int × Descriptors :=
  satencapMain A.descriptors.fresh A.gse A.lib A.sendto A.host A.options A.stack A.outcomes bound
    events signals init (Table.start A.descriptors.opened)

def SatdecapProgram.main (B : SatdecapProgram δ) (bound : Nat) (events : List DecapEvent)
    (signals : StopSignals) (init : DecapState δ) : Option Int × Descriptors :=
  satdecapMain B.descriptors.fresh B.gse B.lib B.host B.options B.stack B.outcomes bound events
    signals init (Table.start B.descriptors.opened)

/-- The program before its first event: at the first test of its loop, unless `main` has
    returned by then. -/
def SatencapProgram.start (A : SatencapProgram σ ω) (lib : σ) (net : ω) (heap : Heap)
    (p : SignalAt) : Flow (EncapState σ ω × SignalAt) :=
  if (A.main 0 [] ⟨none, false⟩ (.init lib net heap)).1 = none then .next (.init lib net heap, p)
  else .stop (.init lib net heap, p)

def SatdecapProgram.start (B : SatdecapProgram δ) (lib : δ) (bytes : Nat → UInt8)
    (gseLength : UInt16) (q : SignalAt) : Flow (DecapState δ × SignalAt) :=
  if (B.main 0 [] ⟨none, false⟩ (.init lib bytes gseLength)).1 = none then
    .next (.init lib bytes gseLength, q)
  else .stop (.init lib bytes gseLength, q)

/-- The loop of a program runs with what `parse_arguments` has made of its parameters. -/
def SatencapProgram.conf (A : SatencapProgram σ ω) : EncapConf σ ω :=
  ⟨A.gse, A.lib, A.sendto, (satencapParseArguments A.host A.options A.stack).2⟩

def SatdecapProgram.params (B : SatdecapProgram δ) : ProcessDecapParams :=
  (satdecapParseArguments B.host B.options B.stack).2

/-- `main` comes to the loop: the arguments are accepted, the parameters pass their checks,
    and every call before the loop succeeds. -/
def SatencapProgram.Enters (A : SatencapProgram σ ω) : Prop :=
  (satencapParseArguments A.host A.options A.stack).1 = 0 ∧
    checkEncapParams A.gse A.conf.params = 0 ∧ A.outcomes.SetUp

def SatdecapProgram.Enters (B : SatdecapProgram δ) : Prop :=
  (satdecapParseArguments B.host B.options B.stack).1 = 0 ∧
    checkDecapParams B.gse B.params = 0 ∧ B.outcomes.SetUp

instance (A : SatencapProgram σ ω) : Decidable A.Enters :=
  inferInstanceAs (Decidable (_ ∧ _ ∧ _))

instance (B : SatdecapProgram δ) : Decidable B.Enters :=
  inferInstanceAs (Decidable (_ ∧ _ ∧ _))

section

variable {A : SatencapProgram σ ω} {B : SatdecapProgram δ} {S : Segmentation}
  {moves : TunnelMoves}

theorem SatencapProgram.Enters.fromEvents (h : A.Enters) :
    FromEvents A.host A.options A.conf.params.toTunnelParams :=
  (satencapParseArguments_outcome A.host A.options A.stack).fromEvents h.1

end

end DvbGseTunnel
