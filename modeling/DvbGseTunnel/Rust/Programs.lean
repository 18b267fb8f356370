import DvbGseTunnel.Rust.ArgumentOptions
import DvbGseTunnel.Rust.ConstantLength
import DvbGseTunnel.Rust.Testimonial
import DvbGseTunnel.Rust.TunnelNetwork

/-!
# The Rust programs as a whole

`main` of the four Rust programs, from the arguments to the way they end. Only `satdecap`
with GSE ever returns, at the first datagram that completes no frame
(`only_satdecap_returns`). What the Rust tunnel delivers depends on the last `-p` of
`satencap` alone; with a value beyond the payload buffer it panics at the first frame
(`command_line_delivers`).
-/

namespace DvbGseTunnel.Rust

open Lib

variable {α τ σ κ ω δ ω' : Type}

/-! ### `main` -/

/-- How a program ends. -/
inductive ProgramEnd where
  /-- `exit` in `usage` -/
  | exit (code : Int)
  /-- a panic of the main thread -/
  | panic
  | returned
deriving DecidableEq, Repr

/-- Whether `bind` and `connect` of the socket succeed. -/
structure Sockets (α : Type) where
  bind : α → Bool
  connect : (localAddr remote : α) → Bool

/-- How far the loop of `runtime` has brought the program; `none` if it is still in it. -/
def programEnd : Flow σ → Option ProgramEnd
  | .next _ => none
  | .stop _ => some .returned
  | .fault _ => some .panic
  | .hang _ => none

/-- What the four `main`s have in common: the arguments, the socket, and the rest of
    `runtime`. -/
def runMain (host : Host α τ) (sockets : Sockets α) (defaultPayloadLen : Nat) (args : List Text)
    (runtime : Arguments α τ → Option ProgramEnd) : Option ProgramEnd :=
  match parseArguments host defaultPayloadLen args with
  | .error .usage => some (.exit 1)
  | .error (.panic _) => some .panic
  | .ok a =>
    if sockets.bind a.localAddr = false then some .panic
    else if sockets.connect a.localAddr a.remote = false then some .panic
    else runtime a

def satencapMain (host : Host α τ) (sockets : Sockets α) (L : Encapsulator σ κ)
    (send : ω → Bytes → Bool × ω) (args : List Text) (bound : Nat) (frames : List (Option Bytes))
    (lib : σ) (net : ω) : Option ProgramEnd :=
  runMain host sockets 0 args fun a =>
    programEnd (runtimeEncap ⟨L, send, a.payloadLen⟩ bound frames (.init lib net))

/-- `memory` is the decapsulator with the storage that the program provisions, if
    `provision_storage` succeeds each time. -/
def satdecapMain (host : Host α τ) (sockets : Sockets α) (D : DecapConf δ ω) (memory : Option δ)
    (args : List Text) (datagrams : List (Option Bytes)) (net : ω) : Option ProgramEnd :=
  runMain host sockets 2048 args fun _ =>
    match memory with
    | none => some .panic
    | some lib => programEnd (runtimeDecap D datagrams (.init lib net))

def Testimonial.satencapMain (host : Host α τ) (sockets : Sockets α)
    (send : ω → Bytes → Bool × ω) (args : List Text) (frames : List (Option Bytes)) (net : ω) :
    Option ProgramEnd :=
  runMain host sockets 0 args fun a =>
    programEnd (Testimonial.runtimeEncap ⟨send, a.bufferLen⟩ frames (.init net))

def Testimonial.satdecapMain (host : Host α τ) (sockets : Sockets α)
    (D : Testimonial.DecapConf ω) (args : List Text) (datagrams : List (Option Bytes)) (net : ω) :
    Option ProgramEnd :=
  runMain host sockets 2048 args fun _ =>
    programEnd (feed (Testimonial.decapStep D) datagrams (.init net))

/-! ### Before the loop -/

/-- The arguments that settings give, with addresses that the socket takes. -/
structure Started (host : Host α τ) (sockets : Sockets α) (defaultPayloadLen : Nat)
    (settings : List Setting) (a : Arguments α τ) : Prop where
  arguments : FromSettings host defaultPayloadLen settings a
  bind : sockets.bind a.localAddr = true
  connect : sockets.connect a.localAddr a.remote = true

/-- The first argument that cannot be used is `-h`. -/
def HelpFirst (args : List Text) : Prop :=
  ∃ name settings rest, args = name :: (commandLine settings ++ ['-', 'h'] :: rest)

section

variable (host : Host α τ) (sockets : Sockets α) (defaultPayloadLen : Nat) (args : List Text)
  (runtime : Arguments α τ → Option ProgramEnd)

theorem runMain_of_started {name : Text} {settings : List Setting} {a : Arguments α τ}
    (h : Started host sockets defaultPayloadLen settings a) :
    runMain host sockets defaultPayloadLen (name :: commandLine settings) runtime = runtime a := by
  have hok := (parseArguments_eq_ok_iff host defaultPayloadLen (name :: commandLine settings) a).mpr
    ⟨name, settings, rfl, h.arguments⟩
  simp [runMain, hok, h.bind, h.connect]

/-- Help, a panic, or the loop. -/
theorem runMain_cases :
    (HelpFirst args ∧ runMain host sockets defaultPayloadLen args runtime = some (.exit 1)) ∨
    (¬HelpFirst args ∧ runMain host sockets defaultPayloadLen args runtime = some .panic ∧
      ∀ name settings a, args = name :: commandLine settings →
        ¬Started host sockets defaultPayloadLen settings a) ∨
    (¬HelpFirst args ∧ ∃ name settings a, args = name :: commandLine settings ∧
      Started host sockets defaultPayloadLen settings a) := by
  have hhelp : parseArguments host defaultPayloadLen args = .error .usage ↔ HelpFirst args :=
    parseArguments_eq_usage_iff host defaultPayloadLen args
  have hstart := parseArguments_eq_ok_iff host defaultPayloadLen args
  cases hparse : parseArguments host defaultPayloadLen args with
  | error exit =>
    have hno : ∀ name settings a, args = name :: commandLine settings →
        ¬Started host sockets defaultPayloadLen settings a := by
      intro name settings a hargs h
      have hok := (hstart a).mpr ⟨name, settings, hargs, h.arguments⟩
      rw [hparse] at hok
      cases hok
    cases exit with
    | usage => exact .inl ⟨hhelp.mp hparse, by simp only [runMain, hparse]⟩
    | panic message =>
      refine .inr (.inl ⟨fun h => ?_, by simp only [runMain, hparse], hno⟩)
      rw [hhelp.mpr h] at hparse
      cases hparse
  | ok a =>
    have hnohelp : ¬HelpFirst args := by
      intro h
      rw [hhelp.mpr h] at hparse
      cases hparse
    obtain ⟨name, settings, hargs, hfrom⟩ := (hstart a).mp hparse
    by_cases hsockets :
        sockets.bind a.localAddr = true ∧ sockets.connect a.localAddr a.remote = true
    · exact .inr (.inr ⟨hnohelp, name, settings, a, hargs, hfrom, hsockets.1, hsockets.2⟩)
    · refine .inr (.inl ⟨hnohelp, ?_, ?_⟩)
      · cases hbind : sockets.bind a.localAddr with
        | false => simp [runMain, hparse, hbind]
        | true =>
          cases hconnect : sockets.connect a.localAddr a.remote with
          | false => simp [runMain, hparse, hbind, hconnect]
          | true => exact absurd ⟨hbind, hconnect⟩ hsockets
      · rintro name' settings' a' hargs' ⟨hfrom', hbind, hconnect⟩
        have hsame := (hstart a').mpr ⟨name', settings', hargs', hfrom'⟩
        rw [hparse] at hsame
        obtain rfl := Except.ok.inj hsame
        exact hsockets ⟨hbind, hconnect⟩

end

/-- How a program ends: `exit` for `-h` alone, and a return if `Returns`. -/
structure MainEnds (args : List Text) (Returns : Prop) (e : Option ProgramEnd) : Prop where
  exit : ∀ code, e = some (.exit code) ↔ code = 1 ∧ HelpFirst args
  returned : e = some .returned ↔ Returns

theorem programEnd_ne_exit (r : Flow σ) (code : Int) : programEnd r ≠ some (.exit code) := by
  cases r with
  | next s => nofun
  | stop s => nofun
  | fault s => nofun
  | hang s => nofun

theorem programEnd_eq_returned_iff {r : Flow σ} :
    programEnd r = some .returned ↔ ∃ s, r = .stop s := by
  cases r with
  | next s => simp [programEnd]
  | stop s => simp [programEnd]
  | fault s => simp [programEnd]
  | hang s => simp [programEnd]

theorem runMain_ends (host : Host α τ) (sockets : Sockets α) (defaultPayloadLen : Nat)
    (args : List Text) (runtime : Arguments α τ → Option ProgramEnd)
    (hexit : ∀ a code, runtime a ≠ some (.exit code)) :
    MainEnds args (∃ name settings a, args = name :: commandLine settings ∧
        Started host sockets defaultPayloadLen settings a ∧ runtime a = some .returned)
      (runMain host sockets defaultPayloadLen args runtime) := by
  rcases runMain_cases host sockets defaultPayloadLen args runtime with
    ⟨hhelp, hmain⟩ | ⟨hhelp, hmain, hno⟩ | ⟨hhelp, name, settings, a, rfl, hstarted⟩
  · refine ⟨fun code => ?_, ?_⟩
    · rw [hmain]
      constructor
      · rintro ⟨⟩
        exact ⟨rfl, hhelp⟩
      · rintro ⟨rfl, -⟩
        rfl
    · rw [hmain]
      refine iff_of_false nofun ?_
      rintro ⟨name, settings, a, rfl, hstarted, -⟩
      rw [runMain_of_started host sockets defaultPayloadLen runtime hstarted] at hmain
      exact hexit a 1 hmain
  · refine ⟨fun code => iff_of_false (by rw [hmain]; nofun) fun h => hhelp h.2, ?_⟩
    refine iff_of_false (by rw [hmain]; nofun) ?_
    rintro ⟨name, settings, a, hargs, hstarted, -⟩
    exact hno name settings a hargs hstarted
  · refine ⟨fun code => iff_of_false ?_ fun h => hhelp h.2, ?_⟩
    · rw [runMain_of_started host sockets defaultPayloadLen runtime hstarted]
      exact hexit a code
    · constructor
      · intro h
        rw [runMain_of_started host sockets defaultPayloadLen runtime hstarted] at h
        exact ⟨name, settings, a, rfl, hstarted, h⟩
      · rintro ⟨name', settings', a', hargs, hstarted', h⟩
        rw [hargs, runMain_of_started host sockets defaultPayloadLen runtime hstarted']
        exact h

/-! ### The loops -/

theorem encapStep_ne_stop (E : EncapConf σ κ ω) (bound : Nat) (recv : Option Bytes)
    (s t : EncapState σ ω) : encapStep E bound recv s ≠ .stop t := by
  cases recv with
  | none => simp [encapStep]
  | some frame =>
    simp only [encapStep]
    cases loop (sendBody E) bound (Sending.start frame s) <;> simp

theorem Testimonial.encapStep_ne_stop (E : Testimonial.EncapConf ω) (recv : Option Bytes)
    (s t : Testimonial.EncapState ω) : Testimonial.encapStep E recv s ≠ .stop t := by
  unfold Testimonial.encapStep
  split
  · nofun
  · split
    · nofun
    · dsimp only
      split
      · nofun
      · split
        · nofun
        · nofun

theorem Testimonial.decapStep_ne_stop (D : Testimonial.DecapConf ω) (recv : Option Bytes)
    (s t : Testimonial.DecapState ω) : Testimonial.decapStep D recv s ≠ .stop t := by
  unfold Testimonial.decapStep
  split
  · nofun
  · dsimp only
    split
    · nofun
    · split
      · nofun
      · nofun

theorem runMain_never_returns {host : Host α τ} {sockets : Sockets α} {defaultPayloadLen : Nat}
    {args : List Text} {ι : Type} {step : Arguments α τ → ι → σ → Flow σ} {is : List ι} {s : σ}
    (h : ∀ a i s t, step a i s ≠ .stop t) :
    MainEnds args False
      (runMain host sockets defaultPayloadLen args fun a => programEnd (feed (step a) is s)) := by
  have hends := runMain_ends host sockets defaultPayloadLen args
    (fun a => programEnd (feed (step a) is s)) fun _ _ => programEnd_ne_exit _ _
  refine ⟨hends.exit, hends.returned.trans (iff_of_false ?_ id)⟩
  rintro ⟨name, settings, a, -, -, hreturned⟩
  obtain ⟨t, hstop⟩ := programEnd_eq_returned_iff.mp hreturned
  exact feed_ne_stop (h a) is s t hstop

/-- The loop of `satdecap` is left at a datagram that completes no frame. -/
theorem decapStep_stops_iff {D : DecapConf δ ω} {recv : Option Bytes} {s : DecapState δ ω} :
    (∃ t, decapStep D recv s = .stop t) ↔ ∃ datagram, recv = some datagram ∧
      (D.lib.receive s.lib (datagram.take GSE_MAX_PACKET_LENGTH)).1 = none := by
  constructor
  · rintro ⟨t, hstop⟩
    cases recv with
    | none => cases hstop
    | some datagram =>
      refine ⟨datagram, rfl, ?_⟩
      change (D.lib.decap s.lib (datagram.take GSE_MAX_PACKET_LENGTH)).1.frame? = none
      cases hstatus : (D.lib.decap s.lib (datagram.take GSE_MAX_PACKET_LENGTH)).1 with
      | fragmentedPkt => rfl
      | error => rfl
      | completedPkt pkt =>
        simp only [decapStep, hstatus] at hstop
        split at hstop
        · cases hstop
        · split at hstop
          · cases hstop
          · cases hstop
  · rintro ⟨datagram, rfl, hnone⟩
    obtain ⟨lib, hstop⟩ := decapStep_of_not_completed hnone
    exact ⟨_, hstop⟩

/-- All datagrams before this one complete a frame that is delivered, and it completes none. -/
def BreaksOff (D : DecapConf δ ω) (datagrams : List (Option Bytes)) (s : DecapState δ ω) : Prop :=
  ∃ before datagram after t, datagrams = before ++ some datagram :: after ∧
    runtimeDecap D before s = .next t ∧
    (D.lib.receive t.lib (datagram.take GSE_MAX_PACKET_LENGTH)).1 = none

theorem runtimeDecap_stops_iff {D : DecapConf δ ω} {datagrams : List (Option Bytes)}
    {s : DecapState δ ω} :
    (∃ t, runtimeDecap D datagrams s = .stop t) ↔ BreaksOff D datagrams s := by
  constructor
  · rintro ⟨t, hrun⟩
    obtain ⟨before, recv, after, u, rfl, hbefore, hstop⟩ :=
      (feed_eq_iff (r := .stop t) nofun).mp hrun
    obtain ⟨datagram, rfl, hnone⟩ := decapStep_stops_iff.mp ⟨t, hstop⟩
    exact ⟨before, datagram, after, u, rfl, hbefore, hnone⟩
  · rintro ⟨before, datagram, after, u, rfl, hbefore, hnone⟩
    obtain ⟨t, hstop⟩ := decapStep_stops_iff.mpr ⟨datagram, rfl, hnone⟩
    exact ⟨t, (feed_eq_iff (r := .stop t) nofun).mpr
      ⟨before, some datagram, after, u, rfl, hbefore, hstop⟩⟩

/-- **How the Rust programs end.** For every list of arguments, every socket and everything
    that the interfaces give and take: a program exits, with 1, exactly if the first argument
    that cannot be used is `-h`. Only `satdecap` with GSE ever returns, exactly if it was
    started and a datagram completes no frame while all before it were delivered. -/
theorem only_satdecap_returns (host : Host α τ) (sockets : Sockets α) (args : List Text)
    (L : Encapsulator σ κ) (send : ω → Bytes → Bool × ω) (bound : Nat) (D : DecapConf δ ω)
    (memory : Option δ) (T : Testimonial.DecapConf ω) (frames datagrams : List (Option Bytes))
    (lib : σ) (net : ω) :
    MainEnds args False (satencapMain host sockets L send args bound frames lib net) ∧
    MainEnds args (∃ name settings a dlib, args = name :: commandLine settings ∧
        Started host sockets 2048 settings a ∧ memory = some dlib ∧
        BreaksOff D datagrams (.init dlib net))
      (satdecapMain host sockets D memory args datagrams net) ∧
    MainEnds args False (Testimonial.satencapMain host sockets send args frames net) ∧
    MainEnds args False (Testimonial.satdecapMain host sockets T args datagrams net) := by
  refine ⟨runMain_never_returns (fun a => encapStep_ne_stop ⟨L, send, a.payloadLen⟩ bound),
    ?_, runMain_never_returns (fun a => Testimonial.encapStep_ne_stop ⟨send, a.bufferLen⟩),
    runMain_never_returns (fun _ => Testimonial.decapStep_ne_stop T)⟩
  cases memory with
  | none =>
    have h := runMain_ends host sockets 2048 args (fun _ => some .panic) fun _ _ => nofun
    refine ⟨h.exit, h.returned.trans (iff_of_false ?_ ?_)⟩
    · rintro ⟨_, _, _, _, _, hpanic⟩
      cases hpanic
    · rintro ⟨_, _, _, _, _, _, hmemory, _⟩
      cases hmemory
  | some dlib =>
    have h := runMain_ends host sockets 2048 args
      (fun _ => programEnd (runtimeDecap D datagrams (.init dlib net)))
      fun _ _ => programEnd_ne_exit _ _
    refine ⟨h.exit, h.returned.trans ?_⟩
    rw [programEnd_eq_returned_iff, runtimeDecap_stops_iff]
    constructor
    · rintro ⟨name, settings, a, hargs, hstarted, hbreaks⟩
      exact ⟨name, settings, a, dlib, hargs, hstarted, rfl, hbreaks⟩
    · rintro ⟨name, settings, a, dlib', hargs, hstarted, hmemory, hbreaks⟩
      obtain rfl : dlib = dlib' := Option.some.inj hmemory
      exact ⟨name, settings, a, hargs, hstarted, hbreaks⟩

/-! ### The tunnel behind a command line -/

/-- With a payload length beyond the payload buffer nothing is sent: the slice of the first
    packet is out of range. -/
theorem runtimeEncap_of_long_payload {E : EncapConf σ κ ω} {S : Segmentation}
    {Accepts : Bytes → Prop} {Rest : κ → Bytes → List Bytes → Prop}
    (hlib : CutLaws E.lib S Accepts Rest) (hlen : GSE_MAX_PACKET_LENGTH < E.payloadLen)
    {events : List (Option Bytes)}
    (haccepts : ∀ frame ∈ framesReceived GSE_MAX_PDU_LEN events, Accepts frame) (bound : Nat)
    (lib : σ) (net : ω) :
    (runtimeEncap E (bound + 1) events (.init lib net)).state.sent = [] ∧
      (framesReceived GSE_MAX_PDU_LEN events ≠ [] → ∃ t,
        runtimeEncap E (bound + 1) events (.init lib net) = .fault t ∧ t.panic = some .index) := by
  cases events with
  | nil => exact ⟨rfl, fun hne => absurd rfl hne⟩
  | cons recv events =>
    cases recv with
    | none => exact ⟨rfl, fun hne => absurd rfl hne⟩
    | some frame =>
      have hstart : Sending.start (frame.take GSE_MAX_PDU_LEN) (.init lib net) =
          (Sending.start frame (.init lib net) : Sending σ κ ω) := by
        simp only [Sending.start, List.take_take, Nat.min_self]
      obtain ⟨p, ps, _, hwrites⟩ := Writes.start (E := E) hlib
        (haccepts _ List.mem_cons_self) (List.length_take_le GSE_MAX_PDU_LEN frame)
        (s := EncapState.init lib net) List.length_replicate
      rw [hstart] at hwrites
      obtain ⟨hpayload, context, hwrote, _⟩ := hwrites
      obtain ⟨t, hb, hpanic⟩ := sendBody_panics hwrote (by rw [hpayload]; decide)
        (by rw [hpayload]; exact hlen)
      have hsent : t.env.sent = [] := by
        rcases sendBody_cases E (Sending.start frame (.init lib net)) with
          ⟨_, _, _, hfault⟩ | ⟨_, _, _, _, _, _, _, _, ⟨_, hstop⟩ | ⟨_, hnext⟩⟩
        · rw [hb] at hfault
          cases hfault
          rfl
        · rw [hb] at hstop
          cases hstop
        · rw [hb] at hnext
          cases hnext
      have hrun : runtimeEncap E (bound + 1) (some frame :: events) (.init lib net) =
          .fault t.env := by
        rw [runtimeEncap, feed_cons, encapStep, loop_succ, hb]
        rfl
      rw [hrun]
      exact ⟨hsent, fun _ => ⟨t.env, rfl, hpanic⟩⟩

/-- So the receiver answers whatever is sent, for every payload length. -/
theorem rustParties_answers_always {E : EncapConf σ κ ω} {S : Segmentation}
    {Accepts : Bytes → Prop} {Rest : κ → Bytes → List Bytes → Prop}
    (hE : CutLaws E.lib S Accepts Rest) {D : DecapConf δ ω'} (hD : D.Succeeds) {Ready : δ → Prop}
    {Awaits : δ → List Bytes → Bytes → Prop} (hlib : DecapLaws D.lib S Ready Awaits)
    {events : List (Option Bytes)}
    (haccepts : ∀ frame ∈ framesReceived GSE_MAX_PDU_LEN events, Accepts frame) (lib : σ)
    (net : ω) :
    ∃ passes, ∀ bound ≥ passes, Answers (rustParties E D bound)
      ((runtimeEncap E bound events (.init lib net)).state.sent.map some)
      (S.whole (framesReceived GSE_MAX_PDU_LEN events)) (fun t => Ready t.lib) DecapState.tap := by
  by_cases hlen : E.payloadLen ≤ GSE_MAX_PACKET_LENGTH
  · exact rustParties_answers hlen hE hD hlib haccepts lib net
  · refine ⟨1, fun bound hbound => ?_⟩
    obtain ⟨n, rfl⟩ : ∃ n, bound = n + 1 := ⟨bound - 1, by omega⟩
    rw [(runtimeEncap_of_long_payload hE (Nat.lt_of_not_le hlen) haccepts n lib net).1]
    refine ⟨?_, ?_⟩
    · intro s n d frame _ hsent _
      cases hsent
    · intro s n d _ hsent _
      cases hsent

theorem arrivals_of_nothing_sent {E : EncapConf σ κ ω} {D : DecapConf δ ω'} {bound : Nat}
    {moves : List (Move (Option Bytes) (Option Bytes))} {s : EncapState σ ω}
    (h : (runtimeEncap E bound (senderEvents moves) s).state.sent = []) (t : DecapState δ ω') :
    ((rustParties E D bound).run moves (.start s t)).arrivals = [] := by
  refine List.eq_nil_iff_forall_not_mem.mpr fun n hn => ?_
  obtain ⟨d, hsent⟩ := Parties.arrivals_sent (P := rustParties E D bound)
    (rustParties_appends E D bound) moves s t n hn
  change ((runtimeEncap E bound (senderEvents moves) s).state.sent.map some)[n]? = _ at hsent
  rw [h] at hsent
  cases hsent

/-- **The Rust tunnel behind a command line.** However `satencap` was started: over any
    network, the receiver delivers the frames of the datagrams that arrive, up to the first
    packet of a frame of several packets. Of the options only the last `-p` matters; one beyond
    the payload buffer lets nothing through, and the program panics at the first frame. -/
theorem command_line_delivers (host : Host α τ) (sockets : Sockets α) (L : Encapsulator σ κ)
    (send : ω → Bytes → Bool × ω) (S : Segmentation) (Accepts : Bytes → Prop)
    (Rest : κ → Bytes → List Bytes → Prop) (hL : CutLaws L S Accepts Rest) (D : DecapConf δ ω')
    (hD : D.Succeeds) (Ready : δ → Prop) (Awaits : δ → List Bytes → Bytes → Prop)
    (hlib : DecapLaws D.lib S Ready Awaits) (name : Text) (settings : List Setting)
    (a : Arguments α τ) (hstarted : Started host sockets 0 settings a)
    (moves : List (Move (Option Bytes) (Option Bytes)))
    (haccepts : ∀ frame ∈ framesReceived GSE_MAX_PDU_LEN (senderEvents moves), Accepts frame)
    (hown : ∀ event, Move.receiver event ∉ moves) (lib : σ) (net : ω) (dlib : δ) (net' : ω')
    (hready : Ready dlib) :
    let payloadLen := (lastSetting .payloadLen settings).elim 0 Setting.number
    let frames := framesReceived GSE_MAX_PDU_LEN (senderEvents moves)
    ∃ passes, ∀ bound ≥ passes,
      let main := satencapMain host sockets L send (name :: commandLine settings) bound
        (senderEvents moves) lib net
      let run := (rustParties ⟨L, send, payloadLen⟩ D bound).run moves
        (.start (.init lib net) (.init dlib net'))
      main = programEnd run.sender ∧
      (∃ t, t.tap = untilNone (run.arrivals.map (S.whole frames)) ∧
        (run.receiver = .next t ∧ (∀ n ∈ run.arrivals, S.whole frames n ≠ none) ∨
          run.receiver = .stop t ∧ ∃ n ∈ run.arrivals, S.whole frames n = none)) ∧
      (GSE_MAX_PACKET_LENGTH < payloadLen →
        run.arrivals = [] ∧ (frames ≠ [] → main = some .panic)) := by
  intro payloadLen frames
  let E : EncapConf σ κ ω := ⟨L, send, payloadLen⟩
  obtain ⟨passes, hanswers⟩ := rustParties_answers_always (E := E) hL hD hlib haccepts lib net
  refine ⟨passes + 1, fun bound hbound => ?_⟩
  obtain ⟨n, rfl⟩ : ∃ n, bound = n + 1 := ⟨bound - 1, by omega⟩
  intro main run
  have hmain : main = programEnd (runtimeEncap E (n + 1) (senderEvents moves) (.init lib net)) := by
    have hlen : a.payloadLen = payloadLen := hstarted.arguments.payloadLen
    simp only [main, satencapMain, runMain_of_started host sockets 0 _ hstarted, hlen, E]
  have hsender : run.sender = runtimeEncap E (n + 1) (senderEvents moves) (.init lib net) :=
    Parties.run_sender_start (P := rustParties E D (n + 1)) moves _ _
  refine ⟨hsender ▸ hmain, ?_, fun hlong => ?_⟩
  · exact Parties.run_answers (P := rustParties E D (n + 1)) (rustParties_appends E D (n + 1)) moves
      hown (s := .init lib net) (t := .init dlib net') hready (hanswers (n + 1) (by omega))
  · obtain ⟨hsent, hpanics⟩ := runtimeEncap_of_long_payload (E := E) hL hlong haccepts n lib net
    refine ⟨arrivals_of_nothing_sent hsent _, fun hne => ?_⟩
    obtain ⟨t, hrun, _⟩ := hpanics hne
    rw [hmain, hrun]
    rfl

/-- A host where every address resolves and every interface exists. -/
def argumentsHost : Host Unit Unit where
  toSocketAddrs _ := some [()]
  tryBuild _ := some ()

def longPayload : List Setting :=
  [⟨.interface, ['t'], 0, nofun⟩, ⟨.localUdp, ['a'], 0, nofun⟩, ⟨.remoteUdp, ['b'], 0, nofun⟩,
    ⟨.payloadLen, ['5', '0', '0', '0'], 5000, fun _ => by decide⟩]

/-- `-p 5000`: nothing of the frame arrives. -/
theorem command_line_delivers_nothing :
    commandLine longPayload = [['-', 'i'], ['t'], ['-', 'l'], ['a'], ['-', 'r'], ['b'],
      ['-', 'p'], ['5', '0', '0', '0']] ∧
    ∃ passes, ∀ bound ≥ passes,
      satencapMain argumentsHost ⟨fun _ => true, fun _ _ => true⟩ referenceEncap
        (fun net _ => (true, net)) (['s'] :: commandLine longPayload) bound [some [7]] () () =
          some .panic ∧
      ((rustParties ⟨referenceEncap, fun net _ => (true, net), 5000⟩ referenceDecapConf bound).run
        [.sender (some [7]), .arrive 0] (.start (.init () ()) (.init none ()))).arrivals = [] := by
  refine ⟨rfl, ?_⟩
  have hstarted : Started argumentsHost ⟨fun _ => true, fun _ _ => true⟩ 0 longPayload
      ⟨(), (), (), 5000, 8192, 100⟩ :=
    ⟨⟨⟨_, rfl, rfl⟩, ⟨_, [], rfl, rfl⟩, ⟨_, [], rfl, rfl⟩, rfl, rfl, rfl⟩, rfl, rfl⟩
  obtain ⟨passes, h⟩ := command_line_delivers argumentsHost ⟨fun _ => true, fun _ _ => true⟩
    referenceEncap (fun net _ => (true, net)) rustSegmentation _ StreamRest referenceEncap_cuts
    referenceDecapConf referenceDecapConf_succeeds _ _ referenceDecap_laws ['s'] longPayload _
    hstarted [.sender (some [7]), .arrive 0] (fun _ _ => trivial) (by simp) () () none () rfl
  refine ⟨passes, fun bound hbound => ?_⟩
  obtain ⟨_, _, hlong⟩ := h bound hbound
  obtain ⟨harrivals, hpanic⟩ := hlong (by decide)
  exact ⟨hpanic (by decide), harrivals⟩

end DvbGseTunnel.Rust
