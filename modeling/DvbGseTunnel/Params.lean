import DvbGseTunnel.Gse
import DvbGseTunnel.Interfaces

/-!
# Parameters of the C programs and their checks

`struct process_encap_params` and `struct process_decap_params` have six fields
in common, which both programs fill from their arguments.
-/

namespace DvbGseTunnel

structure Timespec where
  tv_sec : Int
  tv_nsec : Int
deriving DecidableEq, Repr

/-- The fields common to the parameters of both programs; the two lengths are
    `int`s. -/
structure TunnelParams where
  tapIface : List Char
  localAddr : UdpAddr
  remote : UdpAddr
  readTimeout : Timespec
  bufferLen : Int
  payloadLen : Int
deriving DecidableEq, Repr

structure ProcessEncapParams extends TunnelParams where
  schedPeriod : Timespec
deriving DecidableEq, Repr

structure ProcessDecapParams extends TunnelParams
deriving DecidableEq, Repr

def checkEncapParams (G : GseConstants) (params : ProcessEncapParams) : Int :=
  if params.readTimeout.tv_sec = 0 ∧ params.readTimeout.tv_nsec = 0 then -1
  else if params.schedPeriod.tv_sec = 0 ∧ params.schedPeriod.tv_nsec = 0 then -1
  else if params.payloadLen ≠ 0 ∧ params.payloadLen < G.MIN_ENCAP_FRAME_SIZE then -1
  else 0

def checkDecapParams (G : GseConstants) (params : ProcessDecapParams) : Int :=
  if params.readTimeout.tv_sec = 0 ∧ params.readTimeout.tv_nsec = 0 then -1
  else if params.payloadLen < G.MIN_ENCAP_FRAME_SIZE then -1
  else 0

end DvbGseTunnel
