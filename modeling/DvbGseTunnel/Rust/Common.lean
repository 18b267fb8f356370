import DvbGseTunnel.Gse
import DvbGseTunnel.Lib.CString

/-!
# `common.rs`: constants and arguments of the Rust programs

`parse_arguments` takes the arguments of the process one after the other and
panics on what it cannot use. Resolving an address and opening the TAP interface
are the host's. Texts are lists of characters, so that they can be computed with.
-/

namespace DvbGseTunnel.Rust

open Lib

def DEFAULT_PAYLOAD_LENGTH : Nat := 2048
def DEFAULT_BUFFER_LENGTH : Nat := 8192
def DEFAULT_READ_TIMEOUT : Nat := 100
def GSE_MAX_PDU_LEN : Nat := 65535
def GSE_MAX_PACKET_LENGTH : Nat := 4097

/-- How a thread of the program panics. -/
inductive Panic where
  /-- an `unwrap` or `expect` of an error -/
  | unwrap
  /-- a slice index out of range -/
  | index
deriving DecidableEq, Repr

/-- `&buffer[..len]`. -/
def slice (buffer : List UInt8) (len : Nat) : Option (List UInt8) :=
  if len ≤ buffer.length then some (buffer.take len) else none

theorem slice_eq_some {buffer : List UInt8} {len : Nat} (h : len ≤ buffer.length) :
    slice buffer len = some (buffer.take len) := if_pos h

theorem slice_eq_none {buffer : List UInt8} {len : Nat} (h : buffer.length < len) :
    slice buffer len = none := if_neg (Nat.not_le.mpr h)

abbrev Text := List Char

/-! ### Arguments -/

/-- The outside of `parse_arguments`: `to_socket_addrs` and `try_build`. -/
structure Host (α τ : Type) where
  toSocketAddrs : Text → Option (List α)
  tryBuild : Text → Option τ

structure Arguments (α τ : Type) where
  tapIface : τ
  localAddr : α
  remote : α
  payloadLen : Nat
  bufferLen : Nat
  readTimeout : Nat

/-- How `parse_arguments` ends without arguments. -/
inductive ArgumentsExit where
  | usage
  | panic (message : String)
deriving DecidableEq, Repr

/-- `str::parse::<usize>`, also the one for `u64`: an optional plus sign and at
    least one decimal digit, with a value that fits. -/
def parseUsize (text : Text) : Option Nat :=
  let digits := match text with
    | '+' :: digits => digits
    | digits => digits
  if digits = [] ∨ ¬digits.all Char.isDigit then none
  else
    let value := decimalValue digits
    if value < 2 ^ 64 then some value else none

structure ParseState where
  interface : Option Text
  localUdp : Option Text
  remoteUdp : Option Text
  payloadLen : Nat
  bufferLen : Nat
  readTimeout : Nat

def parseLoop : List Text → ParseState → Except ArgumentsExit ParseState
  | [], s => .ok s
  | arg :: rest, s =>
    if arg = ['-', 'h'] then .error .usage
    else if arg = ['-', 'i'] then
      match rest with
      | [] => .error (.panic "-i must be followed by an interface name")
      | value :: rest => parseLoop rest { s with interface := some value }
    else if arg = ['-', 'l'] then
      match rest with
      | [] => .error (.panic "-l must be followed by ADDRESS:PORT")
      | value :: rest => parseLoop rest { s with localUdp := some value }
    else if arg = ['-', 'r'] then
      match rest with
      | [] => .error (.panic "-l must be followed by ADDRESS:PORT")
      | value :: rest => parseLoop rest { s with remoteUdp := some value }
    else if arg = ['-', 'p'] then
      match rest with
      | [] => .error (.panic "-p must be followed by a usize in bytes")
      | value :: rest =>
        match parseUsize value with
        | none =>
          .error (.panic "Invalid payload length: the value must be an usize in bytes")
        | some n => parseLoop rest { s with payloadLen := n }
    else if arg = ['-', 'b'] then
      match rest with
      | [] => .error (.panic "-b must be followed by a usize in bytes")
      | value :: rest =>
        match parseUsize value with
        | none => .error (.panic "Invalid buffer length: the value must be an usize in bytes")
        | some n => parseLoop rest { s with bufferLen := n }
    else if arg = ['-', 't'] then
      match rest with
      | [] => .error (.panic "-b must be followed by a usize in ms")
      | value :: rest =>
        match parseUsize value with
        | none => .error (.panic "Invalid reading timeout: the value must be an usize in ms")
        | some n => parseLoop rest { s with readTimeout := n }
    else .error (.panic ("unknown argument " ++ String.ofList arg))

/-- The first address a required `ADDRESS:PORT` argument resolves to. -/
def requiredAddr {α τ : Type} (host : Host α τ) (text : Option Text)
    (missing wrong : String) : Except ArgumentsExit α :=
  match text with
  | none => .error (.panic missing)
  | some text =>
    match host.toSocketAddrs text with
    | none => .error (.panic wrong)
    | some [] => .error (.panic "called unwrap on a None value")
    | some (addr :: _) => .ok addr

/-- `parse_arguments`; `defaultPayloadLen` is the constant of the `Binary`, and
    the first argument is the name of the program. -/
def parseArguments {α τ : Type} (host : Host α τ) (defaultPayloadLen : Nat)
    (args : List Text) : Except ArgumentsExit (Arguments α τ) :=
  match args with
  | [] => .error (.panic "called unwrap on a None value")
  | _ :: args => do
    let s ← parseLoop args
      ⟨none, none, none, defaultPayloadLen, DEFAULT_BUFFER_LENGTH, DEFAULT_READ_TIMEOUT⟩
    let localAddr ← requiredAddr host s.localUdp
      "the local address must be provided" "the local address is wrong"
    let remote ← requiredAddr host s.remoteUdp
      "the remote address must be provided" "the remote adresse is wrong"
    match s.interface with
    | none => .error (.panic "the tap interface must be provided")
    | some name =>
      match host.tryBuild name with
      | none => .error (.panic "Failed to open TUN interface")
      | some tapIface =>
        .ok ⟨tapIface, localAddr, remote, s.payloadLen, s.bufferLen, s.readTimeout⟩

end DvbGseTunnel.Rust
