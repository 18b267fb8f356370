import DvbGseTunnel.AddressRoundTrip
import DvbGseTunnel.ArgumentStrings
import DvbGseTunnel.Arguments
import DvbGseTunnel.DecapSafety
import DvbGseTunnel.Descriptors
import DvbGseTunnel.EncapDemand
import DvbGseTunnel.EncapFifo
import DvbGseTunnel.EncapKernel
import DvbGseTunnel.EncapPadding
import DvbGseTunnel.EncapVariable
import DvbGseTunnel.Labels
import DvbGseTunnel.PktHeaderFrames
import DvbGseTunnel.Programs
import DvbGseTunnel.Rust.ConstantLength
import DvbGseTunnel.Rust.Programs
import DvbGseTunnel.Rust.Testimonial
import DvbGseTunnel.Rust.Transparency
import DvbGseTunnel.Rust.Tunnel
import DvbGseTunnel.Rust.TunnelNetwork
import DvbGseTunnel.StartParameters
import DvbGseTunnel.StoppedTunnel
import DvbGseTunnel.Tunnel
import DvbGseTunnel.TunnelNetwork
