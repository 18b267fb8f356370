import DvbGseTunnel.Lib.Buffer

/-!
# What the C programs call of libgse

libgse is not part of the repository. Its encapsulator and deencapsulator are
therefore parameters of the model: a record of the functions that `satencap`
and `satdecap` call, over an arbitrary type of library states, with no assumption
about what they do. What a result relies on is stated where the result is, as a
property of such a record.

Calls return the status together with the out-parameters and the new state, so
one record stands for a library that may answer the same call differently each
time: its state can hold a script of answers.
-/

namespace DvbGseTunnel

open Lib

/-! ### Constants and statuses -/

def GSE_MAX_PDU_LENGTH : Nat := 65535
def GSE_MAX_PACKET_LENGTH : Nat := 4097

/-- The two constants of libgse whose values the repository does not rely on. -/
structure GseConstants where
  GSE_MAX_HEADER_LENGTH : Nat
  GSE_MAX_TRAILER_LENGTH : Nat

/-- `MIN_ENCAP_FRAME_SIZE` of `process_encap.h` and `process_decap.h`. -/
def GseConstants.MIN_ENCAP_FRAME_SIZE (G : GseConstants) : Nat :=
  2 * G.GSE_MAX_HEADER_LENGTH + 2 * G.GSE_MAX_TRAILER_LENGTH

/-- The statuses the tunnel names, and the others. `GSE_STATUS_OK` is the least
    one, so that the test `ret > GSE_STATUS_OK` of the source is `ret ≠ .ok`. -/
inductive Status where
  | ok
  | fifoEmpty
  | pduReceived
  | dataOverwritten
  | paddingDetected
  | invalidDataLength
  | other (code : Nat)
deriving DecidableEq, Repr

/-- An `int ret` that holds a status of libgse or the result of one of the
    tunnel's own functions. These return 0 or -1, which is never the code of
    `GSE_STATUS_FIFO_EMPTY`, a status above `GSE_STATUS_OK`. -/
inductive Ret where
  | status (s : Status)
  | int (n : Int)
deriving DecidableEq, Repr

theorem Ret.int_ne_status (n : Int) (s : Status) : Ret.int n ≠ .status s := by
  intro h
  cases h

theorem Ret.ok_ne_fifoEmpty : Ret.status .ok ≠ .status .fifoEmpty := by decide

abbrev Label := Vector UInt8 6

/-! ### Virtual fragments and the encapsulator -/

/-- A virtual fragment: a window on a buffer. Its start is
    `gse_get_vfrag_start`, its length `gse_get_vfrag_length`. -/
structure Vfrag where
  buf : Nat
  start : Nat
  length : Nat
deriving DecidableEq, Repr

def Vfrag.data (v : Vfrag) (heap : Heap) : List UInt8 := (heap v.buf).read v.start v.length

structure VfragResult (σ : Type) where
  status : Status
  vfrag : Vfrag
  lib : σ
  heap : Heap

/-- The functions of libgse that `process_encap` calls. A fragment that was given
    to the encapsulator belongs to it, so its length is a function of the state
    (`gseGetVfragLength`). `gse_free_vfrag` only gives memory back and has no
    counterpart here: buffers are never reused. -/
structure Encapsulator (σ : Type) where
  gseCreateVfrag : σ → Heap → (maxLength headOffset trailOffset : Nat) → VfragResult σ
  gseSetVfragLength : Heap → Vfrag → Nat → Status × Vfrag
  gseGetVfragLength : σ → Vfrag → Nat
  gseEncapReceivePdu : σ → Vfrag → Label → Status × σ
  gseEncapGetPacket : σ → Heap → (desiredLen : Int) → VfragResult σ

/-- What libgse documents about making fragments and setting their length. -/
structure VfragLaws {σ : Type} (L : Encapsulator σ) : Prop where
  create_start : ∀ d heap maxLength headOffset trailOffset,
    (L.gseCreateVfrag d heap maxLength headOffset trailOffset).vfrag.start = headOffset
  create_size : ∀ d heap maxLength headOffset trailOffset,
    let r := L.gseCreateVfrag d heap maxLength headOffset trailOffset
    (r.heap r.vfrag.buf).size = headOffset + maxLength + trailOffset
  setLength : ∀ heap (v : Vfrag) len, v.start + len ≤ (heap v.buf).size →
    (L.gseSetVfragLength heap v len).2 = { v with length := len }

/-! ### The deencapsulator -/

/-- The results of `gse_deencap_packet`. A call may leave `*gse_length` alone
    (`none`). -/
structure Deencap (δ : Type) where
  status : Status
  gseLength : Option UInt16
  pdu : List UInt8
  lib : δ

/-- `gse_create_vfrag_with_data`: the data of the fragment the caller is left
    with is a copy of the bytes given when the call succeeds. -/
structure CreatedWithData (δ : Type) where
  status : Status
  data : List UInt8
  lib : δ

structure Decapsulator (δ : Type) where
  gseCreateVfragWithData : δ → List UInt8 → CreatedWithData δ
  gseDeencapPacket : δ → List UInt8 → Deencap δ

/-- Creating a fragment from data never fails. -/
def Decapsulator.CreatesVfrags {δ : Type} (D : Decapsulator δ) : Prop :=
  ∀ d bytes, (D.gseCreateVfragWithData d bytes).status = .ok ∧
    (D.gseCreateVfragWithData d bytes).data = bytes

end DvbGseTunnel
