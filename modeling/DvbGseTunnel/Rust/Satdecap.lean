import DvbGseTunnel.Lib.Loop
import DvbGseTunnel.Rust.Common

/-!
# `satdecap.rs`: the receiving loop

`runtime` of the Rust `satdecap`. The decapsulator of `dvb_gse_rust`, with the
memory the program provisions, is a parameter of the model.
-/

namespace DvbGseTunnel.Rust

open Lib

/-- A reassembled frame: the storage it is in and the length its metadata gives,
    which the storage holds. -/
structure CompletedPkt where
  buffer : List UInt8
  pduLen : Nat
  pduLen_le : pduLen ≤ buffer.length

/-- `&buffer[..buffer_len]`. -/
def CompletedPkt.frame (pkt : CompletedPkt) : List UInt8 := pkt.buffer.take pkt.pduLen

/-- The statuses of `decap` that the loop tells apart. -/
inductive DecapStatus where
  | completedPkt (pkt : CompletedPkt)
  | fragmentedPkt
  | error

/-- `gse_decap::Decapsulator`; `provisionStorage` fails with `none`. -/
structure Decapsulator (δ : Type) where
  decap : δ → List UInt8 → DecapStatus × δ
  provisionStorage : δ → List UInt8 → Option δ

/-- What stays from one datagram to the next; `tap` logs the frames sent to the
    TAP interface. -/
structure DecapState (δ ω : Type) where
  lib : δ
  host : ω
  tap : List (List UInt8)
  panic : Option Panic

/-- What `runtime` runs with: the decapsulator and the kernel's answers to the
    TAP interface's `send`. -/
structure DecapConf (δ ω : Type) where
  lib : Decapsulator δ
  tapSend : ω → List UInt8 → Bool × ω

variable {δ ω : Type}

/-- One pass of the loop: `recv` gives a datagram, cut to the size of the payload
    buffer, or fails. -/
def decapStep (D : DecapConf δ ω) (recv : Option (List UInt8)) (s : DecapState δ ω) :
    Flow (DecapState δ ω) :=
  match recv with
  | none => .fault { s with panic := some .unwrap }
  | some datagram =>
    let (status, lib) := D.lib.decap s.lib (datagram.take GSE_MAX_PACKET_LENGTH)
    let s := { s with lib := lib }
    match status with
    | .fragmentedPkt => .stop s
    | .error => .stop s
    | .completedPkt pkt =>
      let (sent, host) := D.tapSend s.host pkt.frame
      let s := { s with host := host }
      if sent = false then .fault { s with panic := some .unwrap }
      else
        let s := { s with tap := s.tap ++ [pkt.frame] }
        match D.lib.provisionStorage s.lib pkt.buffer with
        | none => .fault { s with panic := some .unwrap }
        | some lib => .next { s with lib := lib }

def runtimeDecap (D : DecapConf δ ω) (datagrams : List (Option (List UInt8)))
    (s : DecapState δ ω) : Flow (DecapState δ ω) :=
  feed (decapStep D) datagrams s

def DecapState.init (lib : δ) (host : ω) : DecapState δ ω := ⟨lib, host, [], none⟩

end DvbGseTunnel.Rust
