import DvbGseTunnel.Lib.Buffer

/-!
# The UDP socket and the TAP interface

`udp.c` and `tap.c`. A system call that reads is given by its outcome, a system
call that writes by what the kernel answers to the bytes. A read that would store
past the end of the caller's buffer has no result.
-/

namespace DvbGseTunnel

open Lib

structure UdpAddr where
  addr : UInt32
  port : UInt16
deriving DecidableEq, Repr

/-- The value of an `int` passed as a `size_t`. -/
def sizeT (n : Int) : Nat := (n % 2 ^ 64).toNat

theorem sizeT_of_nonneg {n : Int} (h0 : 0 ≤ n) (h : n < 2 ^ 64) : sizeT n = n.toNat := by
  rw [sizeT, Int.emod_eq_of_lt h0 h]

/-- What `read_udp` and `read_tap` give back: the return value, the buffer and
    `*len`. -/
structure ReadResult where
  ret : Int
  buffer : Buffer
  len : Nat

/-- `read_udp`. `recvfrom` fails (`none`) or stores the part of a datagram that
    fits `capa`; a datagram from another address or port is only then told
    apart. On failure `*len` is left alone. -/
def readUdp (recvfrom : Option (UdpAddr × List UInt8)) (remote : UdpAddr) (capa : Nat)
    (buffer : Buffer) (len : Nat) : Option ReadResult :=
  match recvfrom with
  | none => some ⟨-1, buffer, len⟩
  | some (addr, datagram) =>
    match buffer.write 0 (datagram.take capa) with
    | none => none
    | some buffer =>
      if addr.addr ≠ remote.addr ∨ addr.port ≠ remote.port then some ⟨1, buffer, 0⟩
      else some ⟨0, buffer, (datagram.take capa).length⟩

/-- `write_udp`; `sendto` is the answer of the kernel and its next state. -/
def writeUdp {ω : Type} (sendto : ω → List UInt8 → Int × ω) (net : ω) (bytes : List UInt8) :
    Int × ω :=
  let (ret, net) := sendto net bytes
  if ret < 0 then (-1, net)
  else if ret ≠ bytes.length then (-1, net)
  else (0, net)

theorem writeUdp_of_sent {ω : Type} {sendto : ω → List UInt8 → Int × ω} {net : ω}
    {bytes : List UInt8} (hsent : (sendto net bytes).1 = bytes.length) :
    (writeUdp sendto net bytes).1 = 0 := by
  have hlen : ¬(bytes.length : Int) < 0 := by omega
  simp only [writeUdp, hsent, if_neg hlen, ne_eq, not_true_eq_false, if_false]

/-- `read_tap` into the buffer from `start` on. `read` fails (`none`) or stores
    the part of the frame that fits `capa`. -/
def readTap (read : Option (List UInt8)) (capa : Nat) (buffer : Buffer) (start : Nat) :
    Option ReadResult :=
  match read with
  | none => some ⟨-1, buffer, 0⟩
  | some frame =>
    match buffer.write start (frame.take capa) with
    | none => none
    | some buffer =>
      let len := (frame.take capa).length
      some ⟨if len ≠ 0 then 0 else 1, buffer, len⟩

/-- A datagram that overflows the buffer, from whatever address, is undefined
    behaviour; no other is. -/
theorem readUdp_eq_none {addr remote : UdpAddr} {datagram : List UInt8} {capa len : Nat}
    {buffer : Buffer} :
    readUdp (some (addr, datagram)) remote capa buffer len = none ↔
      buffer.size < min capa datagram.length := by
  by_cases h : min capa datagram.length ≤ buffer.size
  · have hw : buffer.write 0 (datagram.take capa) = some _ :=
      Buffer.write_eq_some (by simpa using h)
    simp only [readUdp, hw]
    split <;> simp [Nat.not_lt.mpr h]
  · have hw : buffer.write 0 (datagram.take capa) = none :=
      Buffer.write_eq_none (by simpa using h)
    simp only [readUdp, hw, true_iff]
    omega

theorem readTap_of_fits {frame : List UInt8} {capa start : Nat} {buffer : Buffer}
    (hne : frame.take capa ≠ []) (hfits : start + (frame.take capa).length ≤ buffer.size) :
    readTap (some frame) capa buffer start =
      some ⟨0, buffer.overlay start (frame.take capa).length fun i => (frame.take capa).getD i 0,
        (frame.take capa).length⟩ := by
  have hlen : (frame.take capa).length ≠ 0 := fun h => hne (List.length_eq_zero_iff.mp h)
  rw [readTap, Buffer.write_eq_some hfits]
  simp only [if_pos hlen]

end DvbGseTunnel
