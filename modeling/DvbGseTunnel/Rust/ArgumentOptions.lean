import DvbGseTunnel.Lib.Events
import DvbGseTunnel.Rust.Common

/-!
# Option parsing of the Rust programs as a whole

`parse_arguments` of the Rust programs against its grammar: the arguments are options with
a value, up to the end or to the first argument that cannot be used (`exists_settings`),
which decides how the program ends. Without one, each parameter comes from the last option
that gives it, or from its default (`parseArguments_iff`).
-/

namespace DvbGseTunnel.Rust

open Lib

/-! ### The grammar -/

/-- The options that take a value. -/
inductive Flag where
  | interface
  | localUdp
  | remoteUdp
  | payloadLen
  | bufferLen
  | readTimeout
deriving DecidableEq, Repr

namespace Flag

def text : Flag → Text
  | interface => ['-', 'i']
  | localUdp => ['-', 'l']
  | remoteUdp => ['-', 'r']
  | payloadLen => ['-', 'p']
  | bufferLen => ['-', 'b']
  | readTimeout => ['-', 't']

def takesNumber : Flag → Bool
  | interface | localUdp | remoteUdp => false
  | payloadLen | bufferLen | readTimeout => true

/-- What the program panics with if the value is missing; two of the texts are those of
    another option. -/
def missing : Flag → String
  | interface => "-i must be followed by an interface name"
  | localUdp | remoteUdp => "-l must be followed by ADDRESS:PORT"
  | payloadLen => "-p must be followed by a usize in bytes"
  | bufferLen => "-b must be followed by a usize in bytes"
  | readTimeout => "-b must be followed by a usize in ms"

/-- What it panics with if the value is no number; the first three take any text. -/
def invalid : Flag → String
  | interface | localUdp | remoteUdp => ""
  | payloadLen => "Invalid payload length: the value must be an usize in bytes"
  | bufferLen => "Invalid buffer length: the value must be an usize in bytes"
  | readTimeout => "Invalid reading timeout: the value must be an usize in ms"

end Flag

/-- An option with a value that it takes. -/
structure Setting where
  flag : Flag
  value : Text
  number : Nat
  parsed : flag.takesNumber = true → parseUsize value = some number

def Setting.args (setting : Setting) : List Text := [setting.flag.text, setting.value]

def Setting.apply (s : ParseState) (setting : Setting) : ParseState :=
  match setting.flag with
  | .interface => { s with interface := some setting.value }
  | .localUdp => { s with localUdp := some setting.value }
  | .remoteUdp => { s with remoteUdp := some setting.value }
  | .payloadLen => { s with payloadLen := setting.number }
  | .bufferLen => { s with bufferLen := setting.number }
  | .readTimeout => { s with readTimeout := setting.number }

def commandLine (settings : List Setting) : List Text := settings.flatMap Setting.args

theorem commandLine_cons (setting : Setting) (settings : List Setting) (rest : List Text) :
    commandLine (setting :: settings) ++ rest =
      setting.args ++ (commandLine settings ++ rest) := by
  rw [commandLine, List.flatMap_cons, List.append_assoc]
  rfl

/-- Arguments that start with one that cannot be used, and what the program does there. -/
inductive Refused : List Text → ArgumentsExit → Prop
  | help (rest : List Text) : Refused (['-', 'h'] :: rest) .usage
  | missing (flag : Flag) : Refused [flag.text] (.panic flag.missing)
  | invalid (flag : Flag) (value : Text) (rest : List Text) :
      flag.takesNumber = true → parseUsize value = none →
      Refused (flag.text :: value :: rest) (.panic flag.invalid)
  | unknown (arg : Text) (rest : List Text) :
      arg ≠ ['-', 'h'] → (∀ flag : Flag, arg ≠ flag.text) →
      Refused (arg :: rest) (.panic ("unknown argument " ++ String.ofList arg))

/-! ### The loop -/

theorem parseLoop_setting (setting : Setting) (rest : List Text) (s : ParseState) :
    parseLoop (setting.args ++ rest) s = parseLoop rest (setting.apply s) := by
  obtain ⟨flag, value, number, hparsed⟩ := setting
  cases flag with
  | interface => rfl
  | localUdp => rfl
  | remoteUdp => rfl
  | payloadLen =>
    have hnumber : parseUsize value = some number := hparsed rfl
    simp [Setting.args, Setting.apply, Flag.text, parseLoop, hnumber]
  | bufferLen =>
    have hnumber : parseUsize value = some number := hparsed rfl
    simp [Setting.args, Setting.apply, Flag.text, parseLoop, hnumber]
  | readTimeout =>
    have hnumber : parseUsize value = some number := hparsed rfl
    simp [Setting.args, Setting.apply, Flag.text, parseLoop, hnumber]

theorem parseLoop_commandLine (settings : List Setting) (rest : List Text) (s : ParseState) :
    parseLoop (commandLine settings ++ rest) s =
      parseLoop rest (settings.foldl Setting.apply s) := by
  induction settings generalizing s with
  | nil => rfl
  | cons setting settings ih =>
    rw [commandLine_cons, parseLoop_setting, List.foldl_cons]
    exact ih (setting.apply s)

theorem parseLoop_refused {args : List Text} {exit : ArgumentsExit} (h : Refused args exit)
    (s : ParseState) : parseLoop args s = .error exit := by
  cases h with
  | help rest =>
    rw [parseLoop.eq_def]
    exact if_pos rfl
  | missing flag => cases flag <;> rfl
  | invalid flag value rest hnumber hparse =>
    cases flag with
    | interface => cases hnumber
    | localUdp => cases hnumber
    | remoteUdp => cases hnumber
    | payloadLen => simp [Flag.text, Flag.invalid, parseLoop, hparse]
    | bufferLen => simp [Flag.text, Flag.invalid, parseLoop, hparse]
    | readTimeout => simp [Flag.text, Flag.invalid, parseLoop, hparse]
  | unknown arg rest hhelp hflags =>
    have hi := hflags .interface
    have hl := hflags .localUdp
    have hr := hflags .remoteUdp
    have hp := hflags .payloadLen
    have hb := hflags .bufferLen
    have ht := hflags .readTimeout
    simp only [Flag.text] at hi hl hr hp hb ht
    rw [parseLoop.eq_def]
    simp only [if_neg hhelp, if_neg hi, if_neg hl, if_neg hr, if_neg hp, if_neg hb, if_neg ht]

/-- All arguments are options with values, up to their end or to one that is refused. The
    induction takes an option with its value at a time. -/
theorem exists_settings (args : List Text) : ∃ settings rest,
    args = commandLine settings ++ rest ∧ (rest = [] ∨ ∃ exit, Refused rest exit) := by
  induction hlength : args.length using Nat.strong_induction_on generalizing args with
  | _ n ih =>
    cases args with
    | nil => exact ⟨[], [], rfl, .inl rfl⟩
    | cons arg tail =>
      by_cases hhelp : arg = ['-', 'h']
      · exact ⟨[], arg :: tail, rfl, .inr ⟨.usage, hhelp ▸ .help tail⟩⟩
      by_cases hflag : ∃ flag : Flag, arg = flag.text
      · obtain ⟨flag, rfl⟩ := hflag
        cases tail with
        | nil => exact ⟨[], _, rfl, .inr ⟨_, .missing flag⟩⟩
        | cons value tail =>
          have hsetting : (∃ setting : Setting, setting.args = [flag.text, value]) ∨
              flag.takesNumber = true ∧ parseUsize value = none := by
            cases hparse : parseUsize value with
            | some number => exact .inl ⟨⟨flag, value, number, fun _ => hparse⟩, rfl⟩
            | none =>
              cases hnumber : flag.takesNumber with
              | true => exact .inr ⟨rfl, rfl⟩
              | false =>
                refine .inl ⟨⟨flag, value, 0, fun h => ?_⟩, rfl⟩
                rw [hnumber] at h
                cases h
          rcases hsetting with ⟨setting, hargs⟩ | ⟨hnumber, hparse⟩
          · have hshort : tail.length < n := by
              rw [List.length_cons, List.length_cons] at hlength
              omega
            obtain ⟨settings, rest, rfl, hrest⟩ := ih _ hshort tail rfl
            refine ⟨setting :: settings, rest, ?_, hrest⟩
            rw [commandLine_cons, hargs]
            rfl
          · exact ⟨[], _, rfl, .inr ⟨_, .invalid flag value tail hnumber hparse⟩⟩
      · refine ⟨[], arg :: tail, rfl, .inr ⟨_, .unknown arg tail hhelp fun flag heq => ?_⟩⟩
        exact hflag ⟨flag, heq⟩

/-! ### The parameters -/

/-- The last option of a kind. -/
def lastSetting (flag : Flag) (settings : List Setting) : Option Setting :=
  lastOccurrence (fun setting => decide (setting.flag = flag)) settings

theorem foldl_setting {α : Type} (get : ParseState → α) (flag : Flag) (value : Setting → α)
    (hstored : ∀ (s : ParseState) (setting : Setting),
      get (setting.apply s) = if setting.flag = flag then value setting else get s)
    (settings : List Setting) (s : ParseState) :
    get (settings.foldl Setting.apply s) = (lastSetting flag settings).elim (get s) value :=
  foldl_lastWriter Setting.apply get (fun setting => decide (setting.flag = flag)) value settings
    (fun setting _ s => by simp only [hstored, decide_eq_true_eq]) s

/-- What the loop makes of settings: each parameter is that of the last option of its kind. -/
def parsed (defaultPayloadLen : Nat) (settings : List Setting) : ParseState where
  interface := (lastSetting .interface settings).map Setting.value
  localUdp := (lastSetting .localUdp settings).map Setting.value
  remoteUdp := (lastSetting .remoteUdp settings).map Setting.value
  payloadLen := (lastSetting .payloadLen settings).elim defaultPayloadLen Setting.number
  bufferLen := (lastSetting .bufferLen settings).elim DEFAULT_BUFFER_LENGTH Setting.number
  readTimeout := (lastSetting .readTimeout settings).elim DEFAULT_READ_TIMEOUT Setting.number

theorem Setting.apply_eq (s : ParseState) (setting : Setting) : setting.apply s =
    ⟨if setting.flag = .interface then some setting.value else s.interface,
      if setting.flag = .localUdp then some setting.value else s.localUdp,
      if setting.flag = .remoteUdp then some setting.value else s.remoteUdp,
      if setting.flag = .payloadLen then setting.number else s.payloadLen,
      if setting.flag = .bufferLen then setting.number else s.bufferLen,
      if setting.flag = .readTimeout then setting.number else s.readTimeout⟩ := by
  obtain ⟨flag, value, number, hparsed⟩ := setting
  cases flag <;> rfl

theorem foldl_settings (defaultPayloadLen : Nat) (settings : List Setting) :
    settings.foldl Setting.apply ⟨none, none, none, defaultPayloadLen, DEFAULT_BUFFER_LENGTH,
      DEFAULT_READ_TIMEOUT⟩ = parsed defaultPayloadLen settings := by
  have htext : ∀ o : Option Setting, o.elim none (fun setting => some setting.value) =
      o.map Setting.value := by
    intro o
    cases o <;> rfl
  have hinterface := foldl_setting ParseState.interface .interface _
    (fun s setting => congrArg ParseState.interface (setting.apply_eq s)) settings
  have hlocal := foldl_setting ParseState.localUdp .localUdp _
    (fun s setting => congrArg ParseState.localUdp (setting.apply_eq s)) settings
  have hremote := foldl_setting ParseState.remoteUdp .remoteUdp _
    (fun s setting => congrArg ParseState.remoteUdp (setting.apply_eq s)) settings
  have hpayload := foldl_setting ParseState.payloadLen .payloadLen _
    (fun s setting => congrArg ParseState.payloadLen (setting.apply_eq s)) settings
  have hbuffer := foldl_setting ParseState.bufferLen .bufferLen _
    (fun s setting => congrArg ParseState.bufferLen (setting.apply_eq s)) settings
  have htimeout := foldl_setting ParseState.readTimeout .readTimeout _
    (fun s setting => congrArg ParseState.readTimeout (setting.apply_eq s)) settings
  let start : ParseState :=
    ⟨none, none, none, defaultPayloadLen, DEFAULT_BUFFER_LENGTH, DEFAULT_READ_TIMEOUT⟩
  have hend : settings.foldl Setting.apply start = parsed defaultPayloadLen settings := by
    have heta : settings.foldl Setting.apply start =
        ⟨(settings.foldl Setting.apply start).interface,
          (settings.foldl Setting.apply start).localUdp,
          (settings.foldl Setting.apply start).remoteUdp,
          (settings.foldl Setting.apply start).payloadLen,
          (settings.foldl Setting.apply start).bufferLen,
          (settings.foldl Setting.apply start).readTimeout⟩ := rfl
    rw [heta, hinterface, hlocal, hremote, hpayload, hbuffer, htimeout, htext, htext, htext]
    rfl
  exact hend

/-! ### `parse_arguments` -/

/-- What follows the loop. -/
def requiredArguments {α τ : Type} (host : Host α τ) (s : ParseState) :
    Except ArgumentsExit (Arguments α τ) := do
  let localAddr ← requiredAddr host s.localUdp
    "the local address must be provided" "the local address is wrong"
  let remote ← requiredAddr host s.remoteUdp
    "the remote address must be provided" "the remote adresse is wrong"
  match s.interface with
  | none => .error (.panic "the tap interface must be provided")
  | some name =>
    match host.tryBuild name with
    | none => .error (.panic "Failed to open TUN interface")
    | some tapIface => .ok ⟨tapIface, localAddr, remote, s.payloadLen, s.bufferLen, s.readTimeout⟩

theorem parseArguments_eq {α τ : Type} (host : Host α τ) (defaultPayloadLen : Nat) (name : Text)
    (args : List Text) : parseArguments host defaultPayloadLen (name :: args) =
      (parseLoop args ⟨none, none, none, defaultPayloadLen, DEFAULT_BUFFER_LENGTH,
        DEFAULT_READ_TIMEOUT⟩).bind (requiredArguments host) := rfl

/-- The first address that a required argument resolves to. -/
def Resolves {α τ : Type} (host : Host α τ) (text : Option Text) (addr : α) : Prop :=
  ∃ value others, text = some value ∧ host.toSocketAddrs value = some (addr :: others)

section

variable {α τ : Type} {host : Host α τ}

/-- An address, or a panic. -/
theorem requiredAddr_cases (host : Host α τ) (text : Option Text) (missing wrong : String) :
    (∃ addr, requiredAddr host text missing wrong = .ok addr ∧ Resolves host text addr) ∨
      ∃ message, requiredAddr host text missing wrong = .error (.panic message) ∧
        ∀ addr, ¬Resolves host text addr := by
  unfold requiredAddr Resolves
  cases text with
  | none =>
    refine .inr ⟨missing, rfl, ?_⟩
    rintro addr ⟨value, others, hvalue, -⟩
    cases hvalue
  | some value =>
    rcases hresolve : host.toSocketAddrs value with _ | ⟨_ | ⟨addr, others⟩⟩
    · refine .inr ⟨wrong, by simp only [hresolve], ?_⟩
      rintro addr ⟨value', others, hvalue, hfound⟩
      cases hvalue
      cases hresolve.symm.trans hfound
    · refine .inr ⟨"called unwrap on a None value", by simp only [hresolve], ?_⟩
      rintro addr ⟨value', others, hvalue, hfound⟩
      cases hvalue
      cases hresolve.symm.trans hfound
    · exact .inl ⟨addr, by simp only [hresolve], value, others, rfl, hresolve⟩

theorem Resolves.unique {text : Option Text} {addr addr' : α} (h : Resolves host text addr)
    (h' : Resolves host text addr') : addr = addr' := by
  obtain ⟨value, others, htext, hfound⟩ := h
  obtain ⟨value', others', htext', hfound'⟩ := h'
  obtain rfl := Option.some.inj (htext.symm.trans htext')
  exact (List.cons.inj (Option.some.inj (hfound.symm.trans hfound'))).1

/-- What is required is looked for in the order of the source; nothing of it asks for the
    usage. -/
theorem requiredArguments_cases (host : Host α τ) (s : ParseState) :
    (∃ name tapIface localAddr remote, requiredArguments host s =
        .ok ⟨tapIface, localAddr, remote, s.payloadLen, s.bufferLen, s.readTimeout⟩ ∧
      s.interface = some name ∧ host.tryBuild name = some tapIface ∧
      Resolves host s.localUdp localAddr ∧ Resolves host s.remoteUdp remote) ∨
    ∃ message, requiredArguments host s = .error (.panic message) ∧
      ¬∃ name tapIface localAddr remote, s.interface = some name ∧
        host.tryBuild name = some tapIface ∧ Resolves host s.localUdp localAddr ∧
        Resolves host s.remoteUdp remote := by
  rcases requiredAddr_cases host s.localUdp "the local address must be provided"
    "the local address is wrong" with ⟨localAddr, hlocal, hresolved⟩ | ⟨message, hlocal, hno⟩
  · rcases requiredAddr_cases host s.remoteUdp "the remote address must be provided"
      "the remote adresse is wrong" with ⟨remote, hremote, hresolved'⟩ | ⟨message, hremote, hno⟩
    · have hrest : requiredArguments host s = match s.interface with
          | none => .error (.panic "the tap interface must be provided")
          | some name =>
            match host.tryBuild name with
            | none => .error (.panic "Failed to open TUN interface")
            | some tapIface =>
              .ok ⟨tapIface, localAddr, remote, s.payloadLen, s.bufferLen, s.readTimeout⟩ := by
        rw [requiredArguments, hlocal]
        change (requiredAddr host s.remoteUdp _ _).bind _ = _
        rw [hremote]
        rfl
      rw [hrest]
      cases hinterface : s.interface with
      | none =>
        refine .inr ⟨_, rfl, ?_⟩
        rintro ⟨name, _, _, _, hname, -⟩
        cases hname
      | some name =>
        cases hbuild : host.tryBuild name with
        | none =>
          refine .inr ⟨_, by simp only [hbuild]; rfl, ?_⟩
          rintro ⟨name', _, _, _, hname, hbuilt, -⟩
          cases hname
          cases hbuild.symm.trans hbuilt
        | some tapIface =>
          exact .inl ⟨name, tapIface, localAddr, remote, by simp only [hbuild], rfl, hbuild,
            hresolved, hresolved'⟩
    · refine .inr ⟨message, ?_, ?_⟩
      · rw [requiredArguments, hlocal]
        change (requiredAddr host s.remoteUdp _ _).bind _ = _
        rw [hremote]
        rfl
      · rintro ⟨_, _, _, remote, -, -, -, hremote'⟩
        exact hno remote hremote'
  · refine .inr ⟨message, ?_, ?_⟩
    · rw [requiredArguments, hlocal]
      rfl
    · rintro ⟨_, _, localAddr, _, -, -, hlocal', -⟩
      exact hno localAddr hlocal'

end

/-- The arguments that settings give. -/
structure FromSettings {α τ : Type} (host : Host α τ) (defaultPayloadLen : Nat)
    (settings : List Setting) (a : Arguments α τ) : Prop where
  tapIface : ∃ setting, lastSetting .interface settings = some setting ∧
    host.tryBuild setting.value = some a.tapIface
  localAddr : Resolves host ((lastSetting .localUdp settings).map Setting.value) a.localAddr
  remote : Resolves host ((lastSetting .remoteUdp settings).map Setting.value) a.remote
  payloadLen : a.payloadLen =
    (lastSetting .payloadLen settings).elim defaultPayloadLen Setting.number
  bufferLen : a.bufferLen =
    (lastSetting .bufferLen settings).elim DEFAULT_BUFFER_LENGTH Setting.number
  readTimeout : a.readTimeout =
    (lastSetting .readTimeout settings).elim DEFAULT_READ_TIMEOUT Setting.number

section

variable {α τ : Type} (host : Host α τ) (defaultPayloadLen : Nat)

theorem parseArguments_refused (name : Text) (settings : List Setting) {rest : List Text}
    {exit : ArgumentsExit} (h : Refused rest exit) :
    parseArguments host defaultPayloadLen (name :: (commandLine settings ++ rest)) =
      .error exit := by
  rw [parseArguments_eq, parseLoop_commandLine, parseLoop_refused h]
  rfl

/-- The loop has read all arguments. -/
theorem parseArguments_settings (name : Text) (settings : List Setting) :
    (∀ a, parseArguments host defaultPayloadLen (name :: commandLine settings) = .ok a ↔
      FromSettings host defaultPayloadLen settings a) ∧
    parseArguments host defaultPayloadLen (name :: commandLine settings) ≠ .error .usage := by
  have hparse : parseArguments host defaultPayloadLen (name :: commandLine settings) =
      requiredArguments host (parsed defaultPayloadLen settings) := by
    have hloop := parseLoop_commandLine settings [] ⟨none, none, none, defaultPayloadLen,
      DEFAULT_BUFFER_LENGTH, DEFAULT_READ_TIMEOUT⟩
    rw [List.append_nil, foldl_settings] at hloop
    rw [parseArguments_eq, hloop]
    rfl
  have hinterface : ∀ {iface : Text}, (parsed defaultPayloadLen settings).interface = some iface →
      ∃ setting, lastSetting .interface settings = some setting ∧ setting.value = iface :=
    fun h => Option.map_eq_some_iff.mp h
  rw [hparse]
  rcases requiredArguments_cases host (parsed defaultPayloadLen settings) with
    ⟨iface, tapIface, localAddr, remote, hok, hiface, hbuild, hlocal, hremote⟩ |
    ⟨message, herror, hno⟩
  · refine ⟨fun a => ?_, by rw [hok]; nofun⟩
    obtain ⟨setting, hlast, rfl⟩ := hinterface hiface
    rw [hok]
    constructor
    · rintro ⟨⟩
      exact ⟨⟨setting, hlast, hbuild⟩, hlocal, hremote, rfl, rfl, rfl⟩
    · rintro ⟨⟨setting', hlast', hbuild'⟩, hlocal', hremote', hpayload, hbuffer, htimeout⟩
      obtain rfl := Option.some.inj (hlast.symm.trans hlast')
      obtain ⟨tapIface', localAddr', remote', payloadLen, bufferLen, readTimeout⟩ := a
      obtain rfl := Option.some.inj (hbuild.symm.trans hbuild')
      obtain rfl := hlocal.unique hlocal'
      obtain rfl := hremote.unique hremote'
      obtain rfl : payloadLen = _ := hpayload
      obtain rfl : bufferLen = _ := hbuffer
      obtain rfl : readTimeout = _ := htimeout
      rfl
  · refine ⟨fun a => iff_of_false (by rw [herror]; nofun) fun h => hno ?_, by rw [herror]; nofun⟩
    obtain ⟨setting, hlast, hbuild⟩ := h.tapIface
    exact ⟨setting.value, a.tapIface, a.localAddr, a.remote,
      congrArg (Option.map Setting.value) hlast, hbuild, h.localAddr, h.remote⟩

theorem parseArguments_eq_ok_iff (args : List Text) (a : Arguments α τ) :
    parseArguments host defaultPayloadLen args = .ok a ↔ ∃ name settings,
      args = name :: commandLine settings ∧ FromSettings host defaultPayloadLen settings a := by
  constructor
  · intro h
    cases args with
    | nil => cases h
    | cons name args =>
      obtain ⟨settings, rest, rfl, rfl | ⟨exit, hexit⟩⟩ := exists_settings args
      · rw [List.append_nil] at h ⊢
        exact ⟨name, settings, rfl,
          ((parseArguments_settings host defaultPayloadLen name settings).1 a).mp h⟩
      · rw [parseArguments_refused host defaultPayloadLen name settings hexit] at h
        cases h
  · rintro ⟨name, settings, rfl, h⟩
    exact ((parseArguments_settings host defaultPayloadLen name settings).1 a).mpr h

theorem parseArguments_eq_usage_iff (args : List Text) :
    parseArguments host defaultPayloadLen args = .error .usage ↔ ∃ name settings rest,
      args = name :: (commandLine settings ++ ['-', 'h'] :: rest) := by
  constructor
  · intro h
    cases args with
    | nil => cases h
    | cons name args =>
      obtain ⟨settings, rest, rfl, rfl | ⟨exit, hexit⟩⟩ := exists_settings args
      · rw [List.append_nil] at h
        exact absurd h (parseArguments_settings host defaultPayloadLen name settings).2
      · rw [parseArguments_refused host defaultPayloadLen name settings hexit] at h
        obtain rfl := Except.error.inj h
        cases hexit with
        | help rest => exact ⟨name, settings, rest, rfl⟩
  · rintro ⟨name, settings, rest, rfl⟩
    exact parseArguments_refused host defaultPayloadLen name settings (.help rest)

end

/-- **Option parsing of the Rust programs.** For every list of arguments: it is accepted
    exactly if it is the name of the program and options with values, the required ones
    among them and to be had, and each parameter is then that of the last option of its
    kind or the default. The usage is printed exactly if the first argument that cannot be
    used is `-h`, and any other first one decides the message. -/
theorem parseArguments_iff {α τ : Type} (host : Host α τ) (defaultPayloadLen : Nat)
    (args : List Text) :
    (∀ a, parseArguments host defaultPayloadLen args = .ok a ↔ ∃ name settings,
      args = name :: commandLine settings ∧ FromSettings host defaultPayloadLen settings a) ∧
    (parseArguments host defaultPayloadLen args = .error .usage ↔ ∃ name settings rest,
      args = name :: (commandLine settings ++ ['-', 'h'] :: rest)) ∧
    ∀ name settings rest exit, args = name :: (commandLine settings ++ rest) →
      Refused rest exit → parseArguments host defaultPayloadLen args = .error exit := by
  refine ⟨parseArguments_eq_ok_iff host defaultPayloadLen args,
    parseArguments_eq_usage_iff host defaultPayloadLen args, ?_⟩
  rintro name settings rest exit rfl h
  exact parseArguments_refused host defaultPayloadLen name settings h

end DvbGseTunnel.Rust
