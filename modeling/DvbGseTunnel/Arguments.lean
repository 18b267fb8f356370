import DvbGseTunnel.Lib.CString
import DvbGseTunnel.Params

/-!
# Arguments of the C programs

`utils.c` and `parse_arguments` of `satencap.c` and `satdecap.c`. What `getopt`
delivers is a list of events, a letter with its value; strings are lists of
characters without the terminating null. A parsing function takes the previous
contents of what it fills and gives back its return value and the new contents.
-/

namespace DvbGseTunnel

open Lib

def UINT_MAX : Nat := 2 ^ 32 - 1
def USHRT_MAX : Nat := 2 ^ 16 - 1

/-- The size of an interface name, its null included. -/
def IFNAMSIZ : Nat := 16

/-- The size of the `tap_iface` of both parameter structures. -/
def TAP_IFACE_SIZE : Nat := 256

/-- The lookups of the C library the arguments go through: `if_nametoindex` and
    `inet_aton`. No interface has a name of `IFNAMSIZ` characters or more, and
    nothing else keeps the `memcpy` of the name within `tap_iface`. -/
structure ArgumentsHost where
  ifNametoindex : List Char → Nat
  inetAton : List Char → Option UInt32
  ifNametoindex_length : ∀ name, ifNametoindex name ≠ 0 → name.length < IFNAMSIZ

/-! ### `utils.c` -/

def parseUdpArguments (host : ArgumentsHost) (addrPort : List Char) (addr : UdpAddr) :
    Int × UdpAddr :=
  match strtok ':' addrPort with
  | none => (-1, addr)
  | some (buffer, str) =>
    match host.inetAton buffer with
    | none => (-1, addr)
    | some inAddr =>
      let addr := { addr with addr := inAddr }
      match strtok ':' str with
      | none => (-1, addr)
      | some (buffer, str) =>
        let tmp := strtoul buffer
        if tmp.rest.length > 0 ∨ tmp.value = 0 ∨ tmp.value > USHRT_MAX then (-1, addr)
        else
          let addr := { addr with port := UInt16.ofNat tmp.value }
          (if strtok ':' str = none then 0 else -1, addr)

/-- `parse_unsigned_long`: the return value and `*val`. -/
def parseUnsignedLong (str : List Char) : Int × Nat :=
  if str = ['0'] then (0, 0)
  else
    let r := strtoul str
    (if r.rest.length ≤ 0 ∧ r.value ≠ 0 then 0 else -1, r.value)

def setTime (ms : Nat) : Timespec := ⟨(ms / 1000 : Nat), (ms % 1000 * 1000000 : Nat)⟩

/-- The conversion of an `unsigned long` to an `int`. -/
def toInt (val : Nat) : Int := Int.bmod val (2 ^ 32)

/-! ### `parse_arguments` -/

def DEFAULT_PAYLOAD_LENGTH : Int := 1500
def DEFAULT_BUFFER_LENGTH : Int := 8192
def DEFAULT_READ_TIMEOUT : Nat := 100

/-- The flag bits of a `parse_arguments` that its code tests. -/
structure OptionFlags where
  error : BitVec 32
  help : BitVec 32
  tapIface : BitVec 32
  readTimeout : BitVec 32
  localAddr : BitVec 32
  remote : BitVec 32
  payloadLen : BitVec 32
  bufferLen : BitVec 32

/-- An event of `getopt`: the letter it returns (`'?'` for an unknown option or a
    missing value) and `optarg`. -/
structure OptionEvent where
  letter : Char
  optarg : List Char
deriving DecidableEq, Repr

structure OptionState where
  flags : BitVec 32
  params : TunnelParams
deriving DecidableEq

/-- The body of the option loop: the `switch` on the letter. -/
def parseOption (host : ArgumentsHost) (F : OptionFlags) (event : OptionEvent)
    (s : OptionState) : OptionState :=
  if event.letter = 'h' then { s with flags := s.flags ||| F.help }
  else if event.letter = 'i' then
    if host.ifNametoindex event.optarg = 0 then { s with flags := s.flags ||| F.error }
    else ⟨s.flags ||| F.tapIface, { s.params with tapIface := event.optarg }⟩
  else if event.letter = 'l' then
    let (ret, addr) := parseUdpArguments host event.optarg s.params.localAddr
    let params := { s.params with localAddr := addr }
    if ret ≠ 0 then ⟨s.flags ||| F.error, params⟩ else ⟨s.flags ||| F.localAddr, params⟩
  else if event.letter = 'r' then
    let (ret, addr) := parseUdpArguments host event.optarg s.params.remote
    let params := { s.params with remote := addr }
    if ret ≠ 0 then ⟨s.flags ||| F.error, params⟩ else ⟨s.flags ||| F.remote, params⟩
  else if event.letter = 'p' then
    let (ret, val) := parseUnsignedLong event.optarg
    if ret ≠ 0 ∨ val > UINT_MAX then { s with flags := s.flags ||| F.error }
    else ⟨s.flags ||| F.payloadLen, { s.params with payloadLen := toInt val }⟩
  else if event.letter = 'b' then
    let (ret, val) := parseUnsignedLong event.optarg
    if ret ≠ 0 ∨ val > UINT_MAX then { s with flags := s.flags ||| F.error }
    else ⟨s.flags ||| F.bufferLen, { s.params with bufferLen := toInt val }⟩
  else if event.letter = 't' then
    let (ret, val) := parseUnsignedLong event.optarg
    if ret ≠ 0 then { s with flags := s.flags ||| F.error }
    else ⟨s.flags ||| F.readTimeout, { s.params with readTimeout := setTime val }⟩
  -- `'?'` and the letters only the option string knows
  else { s with flags := s.flags ||| F.error }

def parseOptions (host : ArgumentsHost) (F : OptionFlags) :
    List OptionEvent → OptionState → OptionState
  | [], s => s
  | event :: events, s =>
    if s.flags &&& F.error = 0 ∧ s.flags &&& F.help = 0 then
      parseOptions host F events (parseOption host F event s)
    else s

/-- What follows the option loop: help, errors, required arguments, defaults. -/
def finishOptions (F : OptionFlags) (s : OptionState) : Int × TunnelParams :=
  if s.flags &&& F.help ≠ 0 then (1, s.params)
  else if s.flags &&& F.error ≠ 0 then (-1, s.params)
  else if s.flags &&& F.tapIface = 0 then (-1, s.params)
  else if s.flags &&& F.localAddr = 0 then (-1, s.params)
  else if s.flags &&& F.remote = 0 then (-1, s.params)
  else
    let params := s.params
    let params :=
      if s.flags &&& F.readTimeout = 0 then
        { params with readTimeout := setTime DEFAULT_READ_TIMEOUT }
      else params
    let params :=
      if s.flags &&& F.payloadLen = 0 then { params with payloadLen := DEFAULT_PAYLOAD_LENGTH }
      else params
    let params :=
      if s.flags &&& F.bufferLen = 0 then { params with bufferLen := DEFAULT_BUFFER_LENGTH }
      else params
    (0, params)

/-- The two `parse_arguments` up to their flags. -/
def parseTunnelArguments (host : ArgumentsHost) (F : OptionFlags) (events : List OptionEvent)
    (params : TunnelParams) : Int × TunnelParams :=
  finishOptions F (parseOptions host F events ⟨0, params⟩)

/-- The flags of `satencap.c`; the seventh and the ninth bit are the unused
    `sched_period_flag` and `frames_count_flag`. -/
def satencapFlags : OptionFlags where
  error := 1 <<< 1
  help := 1 <<< 2
  tapIface := 1 <<< 3
  readTimeout := 1 <<< 4
  localAddr := 1 <<< 5
  remote := 1 <<< 6
  payloadLen := 1 <<< 8
  bufferLen := 1 <<< 10

def satdecapFlags : OptionFlags where
  error := 1 <<< 1
  help := 1 <<< 2
  tapIface := 1 <<< 3
  readTimeout := 1 <<< 4
  localAddr := 1 <<< 5
  remote := 1 <<< 6
  payloadLen := 1 <<< 7
  bufferLen := 1 <<< 8

def satencapParseArguments (host : ArgumentsHost) (events : List OptionEvent)
    (params : ProcessEncapParams) : Int × ProcessEncapParams :=
  let (ret, tunnel) := parseTunnelArguments host satencapFlags events params.toTunnelParams
  (ret, { params with toTunnelParams := tunnel })

def satdecapParseArguments (host : ArgumentsHost) (events : List OptionEvent)
    (params : ProcessDecapParams) : Int × ProcessDecapParams :=
  let (ret, tunnel) := parseTunnelArguments host satdecapFlags events params.toTunnelParams
  (ret, { params with toTunnelParams := tunnel })

end DvbGseTunnel
