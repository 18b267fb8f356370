import DvbGseTunnel.EncapDatagrams
import DvbGseTunnel.EncapDemand

/-!
# The sender and its kernel

`process_encap` prints a message when `sendto` fails and goes on. So the results of
`sendto` reach nothing but the log: with two kernels that answer as they like, two runs
on the same events go in lockstep and hand the same datagrams to their kernels
(`processEncap_unanswered`). The log itself only grows (`encapStep_log`).
-/

namespace DvbGseTunnel

open Lib

variable {σ ω ω' : Type}

/-! ### Two kernels -/

def EncapConf.withKernel (E : EncapConf σ ω) (sendto : ω' → List UInt8 → Int × ω') :
    EncapConf σ ω' := ⟨E.gse, E.lib, sendto, E.params⟩

/-- A call without what the kernel answered. -/
def EncapCall.unanswered : EncapCall → EncapCall
  | .receivePdu counter label status => .receivePdu counter label status
  | .getPacket desiredLen status => .getPacket desiredLen status
  | .writeUdp datagram _ => .writeUdp datagram 0

def EncapState.withKernel (s : EncapState σ ω) (net : ω') (calls : List EncapCall) :
    EncapState σ ω' := ⟨s.lib, net, s.heap, s.counter, s.err, s.alive, calls⟩

/-- The same but for the kernel and its answers in the log. -/
def SameSender (s : EncapState σ ω) (t : EncapState σ ω') : Prop :=
  ∃ net calls, t = s.withKernel net calls ∧
    s.calls.map EncapCall.unanswered = calls.map EncapCall.unanswered

/-- In the drain loop, `ret` may also hold two different results of `write_udp`. -/
def SameDrain (d : Drain σ ω) (e : Drain σ ω') : Prop :=
  ∃ net calls ret, e = ⟨d.env.withKernel net calls, d.vfragPdu, ret, d.desiredLen⟩ ∧
    d.env.calls.map EncapCall.unanswered = calls.map EncapCall.unanswered ∧
    (ret = d.ret ∨ ∃ n m, d.ret = .int n ∧ ret = .int m)

theorem SameDrain.env {d : Drain σ ω} {e : Drain σ ω'} (h : SameDrain d e) :
    SameSender d.env e.env := by
  obtain ⟨net, calls, ret, rfl, hcalls, -⟩ := h
  exact ⟨net, calls, rfl, hcalls⟩

theorem SameDrain.running_iff {d : Drain σ ω} {e : Drain σ ω'} (h : SameDrain d e) :
    d.running ↔ e.running := by
  obtain ⟨net, calls, ret, rfl, -, hret⟩ := h
  rcases hret with rfl | ⟨n, m, hn, rfl⟩
  · exact Iff.rfl
  · constructor
    · intro hrun
      exact ⟨Ret.int_ne_status m _, hrun.2⟩
    · intro hrun
      exact ⟨hn ▸ Ret.int_ne_status n _, hrun.2⟩

theorem map_unanswered_snoc {calls calls' : List EncapCall} {call call' : EncapCall}
    (h : calls.map EncapCall.unanswered = calls'.map EncapCall.unanswered)
    (hcall : call.unanswered = call'.unanswered) :
    (calls ++ [call]).map EncapCall.unanswered = (calls' ++ [call']).map EncapCall.unanswered := by
  rw [List.map_append, List.map_append, h, List.map_singleton, List.map_singleton, hcall]

theorem SameDrain.body (E : EncapConf σ ω) (sendto : ω' → List UInt8 → Int × ω')
    {d : Drain σ ω} {e : Drain σ ω'} (h : SameDrain d e) :
    Flow.Rel SameDrain (drainBody E d) (drainBody (E.withKernel sendto) e) := by
  have hrun := h.running_iff
  obtain ⟨net, calls, ret, rfl, hcalls, hret⟩ := h
  have hget : SameDrain (d.afterGet E) (Drain.afterGet (E.withKernel sendto)
      ⟨d.env.withKernel net calls, d.vfragPdu, ret, d.desiredLen⟩) :=
    ⟨net, _, _, rfl, map_unanswered_snoc hcalls rfl, .inl rfl⟩
  have hgot : Drain.got (E.withKernel sendto)
      ⟨d.env.withKernel net calls, d.vfragPdu, ret, d.desiredLen⟩ = d.got E := rfl
  have hpad : padPacket (E.withKernel sendto) = padPacket E := rfl
  unfold drainBody
  by_cases hrunning : d.running
  · rw [if_pos hrunning, if_pos (hrun.mp hrunning), hgot, hpad]
    split
    · obtain ⟨net', calls', ret', heq, hcalls', hret'⟩ := hget
      rw [heq]
      exact .next ⟨net', calls', ret', rfl, hcalls', hret'⟩
    · split
      · cases padPacket E (d.got E).heap (d.got E).vfrag with
        | none => exact .fault hget
        | some p =>
          obtain ⟨net', calls', ret', heq, hcalls', -⟩ := hget
          rw [heq]
          exact .next ⟨_, _, _, rfl, map_unanswered_snoc hcalls' rfl, .inr ⟨_, _, rfl, rfl⟩⟩
      · exact .next hget
  · rw [if_neg hrunning, if_neg (mt hrun.mpr hrunning)]
    exact .stop ⟨net, calls, ret, rfl, hcalls, hret⟩

/-- The same reception of a frame. -/
inductive SameReception : Reception σ ω → Reception σ ω' → Prop
  | fault {s t} : SameSender s t → SameReception (.fault s) (.fault t)
  | ignored {s t} : SameSender s t → SameReception (.ignored s) (.ignored t)
  | admitted {d e} : SameDrain d e → SameReception (.admitted d) (.admitted e)

/-- A PDU is given to the same library, which refuses or admits it. -/
theorem SameSender.submit (E : EncapConf σ ω) (sendto : ω' → List UInt8 → Int × ω')
    (pdu : Vfrag) {s : EncapState σ ω} {t : EncapState σ ω'} (h : SameSender s t) :
    SameReception (submitPdu E pdu s) (submitPdu (E.withKernel sendto) pdu t) := by
  obtain ⟨net, calls, rfl, hcalls⟩ := h
  have hreceived : (s.withKernel net calls).received (E.withKernel sendto) pdu =
      s.received E pdu := rfl
  have hlog := map_unanswered_snoc hcalls (rfl : (EncapCall.receivePdu (s.counter + 1)
    (pduLabel (s.counter + 1)) (s.received E pdu).1).unanswered = _)
  unfold submitPdu
  rw [hreceived]
  by_cases hok : (s.received E pdu).1 ≠ .ok
  · rw [if_pos hok, if_pos hok]
    exact .ignored ⟨net, _, rfl, hlog⟩
  · rw [if_neg hok, if_neg hok]
    exact .admitted ⟨net, _, _, rfl, hlog, .inl rfl⟩

theorem SameSender.receive (E : EncapConf σ ω) (sendto : ω' → List UInt8 → Int × ω')
    (read : Option (List UInt8)) {s : EncapState σ ω} {t : EncapState σ ω'} (h : SameSender s t) :
    SameReception (receiveFrame E read s) (receiveFrame (E.withKernel sendto) read t) := by
  obtain ⟨net, calls, rfl, hcalls⟩ := h
  have hread : ∀ heap, SameSender (s.afterRead E heap)
      (EncapState.afterRead (E.withKernel sendto) (s.withKernel net calls) heap) :=
    fun heap => ⟨net, calls, rfl, hcalls⟩
  have hcreated : (s.withKernel net calls).created (E.withKernel sendto) = s.created E := rfl
  have hcapa : (E.withKernel sendto).params.bufferLen = E.params.bufferLen := rfl
  cases hresult : readTap read (sizeT E.params.bufferLen)
      ((s.created E).heap (s.created E).vfrag.buf) (s.created E).vfrag.start with
  | none =>
    simp only [receiveFrame, hcreated, hcapa, hresult]
    exact .fault (hread _)
  | some r =>
    simp only [receiveFrame, hcreated, hcapa, hresult]
    by_cases hret : r.ret < 0
    · rw [if_pos hret, if_pos hret]
      exact .ignored (hread _)
    by_cases hlen : r.len = 0
    · rw [if_neg hret, if_neg hret, if_pos hlen, if_pos hlen]
      exact .ignored (hread _)
    rw [if_neg hret, if_neg hret, if_neg hlen, if_neg hlen]
    exact SameSender.submit E sendto _ (hread _)

theorem SameSender.step (E : EncapConf σ ω) (sendto : ω' → List UInt8 → Int × ω') (bound : Nat)
    (event : EncapEvent) {s : EncapState σ ω} {t : EncapState σ ω'} (h : SameSender s t) :
    Flow.Rel SameSender (encapStep E bound event s)
      (encapStep (E.withKernel sendto) bound event t) := by
  have hsame : t.alive = s.alive := by
    obtain ⟨net, calls, rfl, -⟩ := h
    rfl
  unfold encapStep
  rw [hsame]
  by_cases halive : s.alive ≠ 0
  · rw [if_pos halive, if_pos halive]
    exact .stop h
  rw [if_neg halive, if_neg halive]
  cases event with
  | timeout => exact .next h
  | pselectFailed =>
    obtain ⟨net, calls, rfl, hcalls⟩ := h
    exact .stop ⟨net, calls, rfl, hcalls⟩
  | readable read =>
    have hreceive := h.receive E sendto read
    dsimp only
    generalize receiveFrame E read s = r at hreceive
    generalize receiveFrame (E.withKernel sendto) read t = r' at hreceive
    cases hreceive with
    | fault hst => exact .fault hst
    | ignored hst => exact .next hst
    | admitted hde =>
      have hloop := loop_rel SameDrain (fun d e hde => hde.body E sendto) bound hde
      exact hloop.leave fun d e _ hrel => hrel.env

theorem processEncap_same (E : EncapConf σ ω) (sendto : ω' → List UInt8 → Int × ω')
    (bound : Nat) (events : List EncapEvent) (lib : σ) (heap : Heap) (net : ω) (net' : ω') :
    Flow.Rel SameSender (processEncap E bound events (.init lib net heap))
      (processEncap (E.withKernel sendto) bound events (.init lib net' heap)) :=
  feed_rel SameSender (fun event _ _ h => h.step E sendto bound event) events
    ⟨net', [], rfl, rfl⟩

/-! ### The log -/

theorem encapStep_log (E : EncapConf σ ω) (bound : Nat) (event : EncapEvent)
    (s : EncapState σ ω) : s.calls <+: (encapStep E bound event s).state.calls := by
  unfold encapStep
  split
  · exact List.prefix_rfl
  cases event with
  | timeout => exact List.prefix_rfl
  | pselectFailed => exact List.prefix_rfl
  | readable read =>
    rcases receiveFrame_cases E read s with ⟨heap, hr⟩ | ⟨heap, hr⟩ |
      ⟨heap, pdu, _, hr⟩ | ⟨heap, pdu, _, hr⟩
    · simp only [hr]
      exact List.prefix_rfl
    · simp only [hr]
      exact List.prefix_rfl
    · simp only [hr]
      exact List.prefix_append _ _
    · simp only [hr, Flow.state_leave]
      refine loop_inv (fun d : Drain σ ω => s.calls <+: d.env.calls) ?_ bound
        (List.prefix_append _ _)
      exact fun d hd => hd.trans (drainBody_log E d)

/-- The datagrams the sender has handed to its kernel. -/
def offered (calls : List EncapCall) : List Bytes :=
  calls.filterMap fun
    | .writeUdp datagram _ => some datagram
    | .receivePdu _ _ _ => none
    | .getPacket _ _ => none

/-- The same with `none` where `write_udp` failed. -/
def attempts (calls : List EncapCall) : List (Option Bytes) :=
  calls.filterMap fun
    | .writeUdp datagram ret => some (if ret = 0 then some datagram else none)
    | .receivePdu _ _ _ => none
    | .getPacket _ _ => none

theorem attempts_log (E : EncapConf σ ω) (bound : Nat) (event : EncapEvent)
    (s : EncapState σ ω) : attempts s.calls <+: attempts (encapStep E bound event s).state.calls :=
  (encapStep_log E bound event s).filterMap _

theorem offered_congr {calls calls' : List EncapCall}
    (h : calls.map EncapCall.unanswered = calls'.map EncapCall.unanswered) :
    offered calls = offered calls' := by
  have hunanswered : ∀ calls : List EncapCall,
      offered (calls.map EncapCall.unanswered) = offered calls := by
    intro calls
    rw [offered, List.filterMap_map, offered]
    congr 1
    funext call
    cases call <;> rfl
  rw [← hunanswered calls, h, hunanswered]

theorem attempts_offered (calls : List EncapCall) :
    List.Forall₂ (fun attempt datagram => attempt = none ∨ attempt = some datagram)
      (attempts calls) (offered calls) := by
  induction calls with
  | nil => exact .nil
  | cons call calls ih =>
    cases call with
    | receivePdu counter label status => exact ih
    | getPacket desiredLen status => exact ih
    | writeUdp datagram ret =>
      refine .cons ?_ ih
      split
      · exact .inr rfl
      · exact .inl rfl

theorem SameSender.offered_eq {s : EncapState σ ω} {t : EncapState σ ω'} (h : SameSender s t) :
    offered s.calls = offered t.calls := by
  obtain ⟨net, calls, rfl, hcalls⟩ := h
  exact offered_congr hcalls

/-- **The kernel's answers reach nothing but the log.** Whatever two kernels answer to
    `sendto`, two runs on the same events end in the same way and in the same state of
    libgse, of the memory and of the counters, after the same calls with the same
    arguments; so both kernels were handed the same datagrams. -/
theorem processEncap_unanswered (E : EncapConf σ ω) (sendto : ω' → List UInt8 → Int × ω')
    (bound : Nat) (events : List EncapEvent) (lib : σ) (heap : Heap) (net : ω) (net' : ω') :
    Flow.Rel (fun s t => SameSender s t ∧ offered s.calls = offered t.calls)
      (processEncap E bound events (.init lib net heap))
      (processEncap (E.withKernel sendto) bound events (.init lib net' heap)) := by
  have hsame := processEncap_same E sendto bound events lib heap net net'
  generalize processEncap E bound events (.init lib net heap) = r at hsame
  generalize processEncap (E.withKernel sendto) bound events (.init lib net' heap) = r' at hsame
  cases hsame with
  | next h => exact .next ⟨h, h.offered_eq⟩
  | stop h => exact .stop ⟨h, h.offered_eq⟩
  | fault h => exact .fault ⟨h, h.offered_eq⟩
  | hang h => exact .hang ⟨h, h.offered_eq⟩

end DvbGseTunnel
