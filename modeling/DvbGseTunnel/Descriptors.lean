import DvbGseTunnel.EncapDemand
import DvbGseTunnel.Lib.Ownership
import DvbGseTunnel.Reference.Libgse
import DvbGseTunnel.StopSignals
import Mathlib.Data.Finset.Lattice.Fold
import Mathlib.Order.Lattice.Nat

/-!
# The descriptors of a run

`open_tap`, `open_udp` and the contexts of `process_encap` and `process_decap`, as far
as descriptors are concerned. A call is given by its outcomes; which number a new
descriptor gets is up to the kernel. The loops are those of the other modules: they use
the descriptors and neither open nor close one.
-/

namespace DvbGseTunnel

open Lib

abbrev Descriptors := Table Nat

/-! ### `open_tap` and `open_udp` -/

/-- The outcomes of `open` and `ioctl`. -/
structure TapCalls where
  opened : Bool
  ioctl : Bool
deriving DecidableEq

/-- The outcomes of `socket`, `setsockopt` and `bind`. -/
structure UdpCalls where
  socket : Bool
  setsockopt : Bool
  bind : Bool
deriving DecidableEq

/-- In either mode. -/
def openTap (fresh : Finset Nat → Nat) (calls : TapCalls) (t : Descriptors) :
    Option Nat × Descriptors :=
  if calls.opened then
    let (fd, t) := t.acquire fresh
    if calls.ioctl then (some fd, t) else (none, t.release fd)
  else (none, t)

def openUdp (fresh : Finset Nat → Nat) (calls : UdpCalls) (t : Descriptors) :
    Option Nat × Descriptors :=
  if calls.socket then
    let (fd, t) := t.acquire fresh
    -- the two ways out that leave the socket open
    if ¬calls.setsockopt then (none, t)
    else if ¬calls.bind then (none, t)
    else (some fd, t)
  else (none, t)

/-! ### Contexts -/

structure EncapRecvCtxt where
  tapFd : Nat

structure EncapSendCtxt where
  udpFd : Nat
  evtFd : Nat

structure DecapCtxt where
  udpFd : Nat
  tapFd : Nat

def createRecvCtxt (fresh : Finset Nat → Nat) (malloc : Bool) (tap : TapCalls)
    (t : Descriptors) : Option EncapRecvCtxt × Descriptors :=
  if malloc then
    match openTap fresh tap t with
    | (some tapFd, t) => (some ⟨tapFd⟩, t)
    | (none, t) => (none, t)
  else (none, t)

def deleteRecvCtxt (ctxt : EncapRecvCtxt) (t : Descriptors) : Descriptors :=
  t.release ctxt.tapFd

def createSendCtxt (fresh : Finset Nat → Nat) (malloc eventfd : Bool) (udp : UdpCalls)
    (t : Descriptors) : Option EncapSendCtxt × Descriptors :=
  if malloc then
    if eventfd then
      let (evtFd, t) := t.acquire fresh
      match openUdp fresh udp t with
      | (some udpFd, t) => (some ⟨udpFd, evtFd⟩, t)
      | (none, t) => (none, t.release evtFd)
    else (none, t)
  else (none, t)

def deleteSendCtxt (ctxt : EncapSendCtxt) (t : Descriptors) : Descriptors :=
  (t.release ctxt.udpFd).release ctxt.evtFd

/-- `create_ctxt` of `process_decap.c`. -/
def createCtxt (fresh : Finset Nat → Nat) (malloc : Bool) (udp : UdpCalls) (tap : TapCalls)
    (t : Descriptors) : Option DecapCtxt × Descriptors :=
  if malloc then
    match openUdp fresh udp t with
    | (some udpFd, t) =>
      match openTap fresh tap t with
      | (some tapFd, t) => (some ⟨udpFd, tapFd⟩, t)
      | (none, t) => (none, t.release udpFd)
    | (none, t) => (none, t)
  else (none, t)

def deleteCtxt (ctxt : DecapCtxt) (t : Descriptors) : Descriptors :=
  (t.release ctxt.udpFd).release ctxt.tapFd

/-! ### The whole calls -/

structure EncapOutcomes where
  recvMalloc : Bool
  tap : TapCalls
  sendMalloc : Bool
  eventfd : Bool
  udp : UdpCalls
  encapInit : Bool
deriving DecidableEq

/-- `process_encap` from its first line to its return, with its return value; without one
    it is still in its loop after the events. -/
def processEncapCall {σ ω : Type} (fresh : Finset Nat → Nat) (E : EncapConf σ ω)
    (o : EncapOutcomes) (bound : Nat) (events : List EncapEvent) (signals : StopSignals)
    (init : EncapState σ ω) (t : Descriptors) : Option Int × Descriptors :=
  if checkEncapParams E.gse E.params ≠ 0 then (some (-1), t)
  else match createRecvCtxt fresh o.recvMalloc o.tap t with
    | (none, t) => (some (-1), t)
    | (some ctxt, t) =>
      match createSendCtxt fresh o.sendMalloc o.eventfd o.udp t with
      | (none, t) => (some (-1), deleteRecvCtxt ctxt t)
      | (some sendCtxt, t) =>
        if ¬o.encapInit then (some (-1), t)
        else match loopEnd EncapState.alive EncapState.sighandler signals.afterLoop
            (encapLoop E bound events init signals.atTest) with
          | none => (none, t)
          | some alive =>
            (some (if alive ≥ 0 then 0 else -2), deleteRecvCtxt ctxt (deleteSendCtxt sendCtxt t))

structure DecapOutcomes where
  malloc : Bool
  udp : UdpCalls
  tap : TapCalls
  deencapInit : Bool
deriving DecidableEq

/-- `process_decap` from its first line to its return. If the `malloc` of `data_received`
    fails, every read that meets a byte fails, which is a run with other events. -/
def processDecapCall {δ : Type} (fresh : Finset Nat → Nat) (G : GseConstants)
    (D : Decapsulator δ) (params : ProcessDecapParams) (o : DecapOutcomes) (bound : Nat)
    (events : List DecapEvent) (signals : StopSignals) (init : DecapState δ) (t : Descriptors) :
    Option Int × Descriptors :=
  if checkDecapParams G params ≠ 0 then (some (-1), t)
  else match createCtxt fresh o.malloc o.udp o.tap t with
    | (none, t) => (some (-1), t)
    | (some ctxt, t) =>
      if ¬o.deencapInit then (some (-1), t)
      else match loopEnd DecapState.alive DecapState.sighandler signals.afterLoop
          (decapLoop D params bound events init signals.atTest) with
        | none => (none, t)
        | some alive => (some (if alive ≥ 0 then 0 else -2), deleteCtxt ctxt t)

/-! ### What each function leaves its caller with -/

section

variable {fresh : Finset Nat → Nat} {s : Finset Nat} {held : List Nat} {t : Descriptors}

theorem openTap_owns (hfresh : ∀ s, fresh s ∉ s) (calls : TapCalls) (h : t.Owns s held) :
    (∃ fd t', openTap fresh calls t = (some fd, t') ∧ (calls.opened ∧ calls.ioctl) ∧
      t'.Owns s (fd :: held)) ∨
    (∃ t', openTap fresh calls t = (none, t') ∧ ¬(calls.opened ∧ calls.ioctl) ∧
      t'.Owns s held) := by
  have hacquired := h.acquire (hfresh t.used)
  obtain ⟨fd, t', hfd⟩ : ∃ fd t', t.acquire fresh = (fd, t') := ⟨_, _, rfl⟩
  rw [hfd] at hacquired
  unfold openTap
  by_cases hopened : calls.opened
  · by_cases hioctl : calls.ioctl
    · left
      refine ⟨fd, t', ?_, ⟨hopened, hioctl⟩, hacquired⟩
      simp only [if_pos hopened, hfd, if_pos hioctl]
    · right
      refine ⟨t'.release fd, ?_, fun hboth => hioctl hboth.2, hacquired.release⟩
      simp only [if_pos hopened, hfd, if_neg hioctl]
  · right
    refine ⟨t, ?_, fun hboth => hopened hboth.1, h⟩
    rw [if_neg hopened]

/-- A socket that cannot be set up stays open and nobody knows it. -/
theorem openUdp_owns (hfresh : ∀ s, fresh s ∉ s) (calls : UdpCalls) (h : t.Owns s held) :
    (∃ fd t', openUdp fresh calls t = (some fd, t') ∧
      (calls.socket ∧ calls.setsockopt ∧ calls.bind) ∧ t'.Owns s (fd :: held)) ∨
    (∃ t', openUdp fresh calls t = (none, t') ∧ ¬calls.socket ∧ t'.Owns s held) ∨
    (∃ fd t', openUdp fresh calls t = (none, t') ∧
      (calls.socket ∧ ¬(calls.setsockopt ∧ calls.bind)) ∧ t'.Owns s (fd :: held)) := by
  have hacquired := h.acquire (hfresh t.used)
  obtain ⟨fd, t', hfd⟩ : ∃ fd t', t.acquire fresh = (fd, t') := ⟨_, _, rfl⟩
  rw [hfd] at hacquired
  unfold openUdp
  by_cases hsocket : calls.socket
  · simp only [if_pos hsocket, hfd]
    by_cases hset : calls.setsockopt
    · rw [if_neg (not_not_intro hset)]
      by_cases hbind : calls.bind
      · left
        refine ⟨fd, t', ?_, ⟨hsocket, hset, hbind⟩, hacquired⟩
        rw [if_neg (not_not_intro hbind)]
      · right
        right
        refine ⟨fd, t', ?_, ⟨hsocket, fun hboth => hbind hboth.2⟩, hacquired⟩
        rw [if_pos hbind]
    · right
      right
      refine ⟨fd, t', ?_, ⟨hsocket, fun hboth => hset hboth.1⟩, hacquired⟩
      rw [if_pos hset]
  · right
    left
    refine ⟨t, ?_, hsocket, h⟩
    rw [if_neg hsocket]

theorem createRecvCtxt_owns (hfresh : ∀ s, fresh s ∉ s) (malloc : Bool) (tap : TapCalls)
    (h : t.Owns s held) :
    (∃ ctxt t', createRecvCtxt fresh malloc tap t = (some ctxt, t') ∧
      (malloc ∧ tap.opened ∧ tap.ioctl) ∧ t'.Owns s (ctxt.tapFd :: held)) ∨
    (∃ t', createRecvCtxt fresh malloc tap t = (none, t') ∧
      ¬(malloc ∧ tap.opened ∧ tap.ioctl) ∧ t'.Owns s held) := by
  unfold createRecvCtxt
  by_cases hmalloc : malloc
  · rw [if_pos hmalloc]
    rcases openTap_owns hfresh tap h with ⟨fd, t', htap, hcalls, howns⟩ | ⟨t', htap, hcalls, howns⟩
    · left
      rw [htap]
      exact ⟨⟨fd⟩, t', rfl, ⟨hmalloc, hcalls⟩, howns⟩
    · right
      rw [htap]
      exact ⟨t', rfl, fun hall => hcalls hall.2, howns⟩
  · right
    rw [if_neg hmalloc]
    exact ⟨t, rfl, fun hall => hmalloc hall.1, h⟩

theorem createSendCtxt_owns (hfresh : ∀ s, fresh s ∉ s) (malloc eventfd : Bool) (udp : UdpCalls)
    (h : t.Owns s held) :
    (∃ ctxt t', createSendCtxt fresh malloc eventfd udp t = (some ctxt, t') ∧
      (malloc ∧ eventfd ∧ udp.socket ∧ udp.setsockopt ∧ udp.bind) ∧
      t'.Owns s (ctxt.udpFd :: ctxt.evtFd :: held)) ∨
    (∃ t', createSendCtxt fresh malloc eventfd udp t = (none, t') ∧
      ¬(malloc ∧ eventfd ∧ udp.socket) ∧ t'.Owns s held) ∨
    (∃ fd t', createSendCtxt fresh malloc eventfd udp t = (none, t') ∧
      ((malloc ∧ eventfd ∧ udp.socket) ∧ ¬(udp.setsockopt ∧ udp.bind)) ∧
      t'.Owns s (fd :: held)) := by
  unfold createSendCtxt
  by_cases hmalloc : malloc
  · by_cases hevent : eventfd
    · rw [if_pos hmalloc, if_pos hevent]
      have hacquired := h.acquire (hfresh t.used)
      rcases openUdp_owns hfresh udp hacquired with
        ⟨fd, t', hudp, hcalls, howns⟩ | ⟨t', hudp, hsocket, howns⟩ | ⟨fd, t', hudp, hcalls, howns⟩
      · left
        simp only [hudp]
        exact ⟨_, t', rfl, ⟨hmalloc, hevent, hcalls⟩, howns⟩
      · right
        left
        simp only [hudp]
        exact ⟨_, rfl, fun hall => hsocket hall.2.2, howns.release⟩
      · right
        right
        simp only [hudp]
        exact ⟨fd, _, rfl, ⟨⟨hmalloc, hevent, hcalls.1⟩, hcalls.2⟩, howns.release_second⟩
    · right
      left
      rw [if_pos hmalloc, if_neg hevent]
      exact ⟨t, rfl, fun hall => hevent hall.2.1, h⟩
  · right
    left
    rw [if_neg hmalloc]
    exact ⟨t, rfl, fun hall => hmalloc hall.1, h⟩

theorem createCtxt_owns (hfresh : ∀ s, fresh s ∉ s) (malloc : Bool) (udp : UdpCalls)
    (tap : TapCalls) (h : t.Owns s held) :
    (∃ ctxt t', createCtxt fresh malloc udp tap t = (some ctxt, t') ∧
      (malloc ∧ udp.socket ∧ (udp.setsockopt ∧ udp.bind) ∧ tap.opened ∧ tap.ioctl) ∧
      t'.Owns s (ctxt.tapFd :: ctxt.udpFd :: held)) ∨
    (∃ t', createCtxt fresh malloc udp tap t = (none, t') ∧
      ¬(malloc ∧ udp.socket ∧ (udp.setsockopt ∧ udp.bind → tap.opened ∧ tap.ioctl)) ∧
      t'.Owns s held) ∨
    (∃ fd t', createCtxt fresh malloc udp tap t = (none, t') ∧
      (malloc ∧ udp.socket ∧ ¬(udp.setsockopt ∧ udp.bind)) ∧ t'.Owns s (fd :: held)) := by
  unfold createCtxt
  by_cases hmalloc : malloc
  · rw [if_pos hmalloc]
    rcases openUdp_owns hfresh udp h with
      ⟨fd, t', hudp, hcalls, howns⟩ | ⟨t', hudp, hsocket, howns⟩ | ⟨fd, t', hudp, hcalls, howns⟩
    · rw [hudp]
      rcases openTap_owns hfresh tap howns with
        ⟨fd', t'', htap, hcalls', howns'⟩ | ⟨t'', htap, hcalls', howns'⟩
      · left
        simp only [htap]
        exact ⟨_, t'', rfl, ⟨hmalloc, hcalls.1, hcalls.2, hcalls'⟩, howns'⟩
      · right
        left
        simp only [htap]
        exact ⟨_, rfl, fun hall => hcalls' (hall.2.2 hcalls.2), howns'.release⟩
    · right
      left
      rw [hudp]
      exact ⟨t', rfl, fun hall => hsocket hall.2.1, howns⟩
    · right
      right
      rw [hudp]
      exact ⟨fd, t', rfl, ⟨hmalloc, hcalls⟩, howns⟩
  · right
    left
    rw [if_neg hmalloc]
    exact ⟨t, rfl, fun hall => hmalloc hall.1, h⟩

end

/-! ### When the descriptors are those of the start -/

/-- The ways out of `process_encap` that forget a descriptor: the two of `open_udp`, and the
    return after `gse_encap_init`. -/
def EncapOutcomes.Leaks (o : EncapOutcomes) : Prop :=
  (o.recvMalloc ∧ o.tap.opened ∧ o.tap.ioctl) ∧ (o.sendMalloc ∧ o.eventfd ∧ o.udp.socket) ∧
    ¬(o.udp.setsockopt ∧ o.udp.bind ∧ o.encapInit)

def DecapOutcomes.Leaks (o : DecapOutcomes) : Prop :=
  (o.malloc ∧ o.udp.socket) ∧
    (¬(o.udp.setsockopt ∧ o.udp.bind) ∨ ((o.tap.opened ∧ o.tap.ioctl) ∧ ¬o.deencapInit))

section

variable {fresh : Finset Nat → Nat} {s : Finset Nat} {t t' : Descriptors} {ret : Int}

/-- The two ends of an accepted call: nothing is held, or the outcomes leak. -/
theorem settled_iff {refused leaks : Prop} (h : ¬leaks) :
    ([] : List Nat) = [] ↔ refused ∨ ¬leaks :=
  iff_of_true rfl (Or.inr h)

theorem owing_iff {refused leaks : Prop} (hrefused : ¬refused) (h : leaks) (fd : Nat)
    (held : List Nat) : fd :: held = [] ↔ refused ∨ ¬leaks :=
  iff_of_false (List.cons_ne_nil _ _) (not_or.mpr ⟨hrefused, not_not_intro h⟩)

theorem processEncapCall_owns {σ ω : Type} (hfresh : ∀ s, fresh s ∉ s) (E : EncapConf σ ω)
    (o : EncapOutcomes) (bound : Nat) (events : List EncapEvent) (signals : StopSignals)
    (init : EncapState σ ω) (h : t.Owns s [])
    (hcall : processEncapCall fresh E o bound events signals init t = (some ret, t')) :
    ∃ held, t'.Owns s held ∧ (held = [] ↔ checkEncapParams E.gse E.params ≠ 0 ∨ ¬o.Leaks) := by
  unfold processEncapCall at hcall
  by_cases hcheck : checkEncapParams E.gse E.params ≠ 0
  · rw [if_pos hcheck] at hcall
    cases hcall
    exact ⟨[], h, iff_of_true rfl (.inl hcheck)⟩
  rw [if_neg hcheck] at hcall
  rcases createRecvCtxt_owns hfresh o.recvMalloc o.tap h with
    ⟨ctxt, t₁, hrecv, hrecvCalls, howns⟩ | ⟨t₁, hrecv, hrecvCalls, howns⟩
  · simp only [hrecv] at hcall
    rcases createSendCtxt_owns hfresh o.sendMalloc o.eventfd o.udp howns with
      ⟨sendCtxt, t₂, hsend, ⟨hmalloc, hevent, hsocket, hset, hbind⟩, howns₂⟩ |
      ⟨t₂, hsend, hsendCalls, howns₂⟩ | ⟨fd, t₂, hsend, ⟨hsendCalls, hudp⟩, howns₂⟩
    · simp only [hsend] at hcall
      by_cases hinit : o.encapInit
      · -- the loop runs, and after it both contexts are deleted
        rw [if_neg (not_not_intro hinit)] at hcall
        rcases hend : loopEnd EncapState.alive EncapState.sighandler signals.afterLoop
          (encapLoop E bound events init signals.atTest) with _ | alive
        · rw [hend] at hcall
          cases hcall
        · rw [hend] at hcall
          cases hcall
          refine ⟨[], howns₂.release.release.release, settled_iff fun hleaks => ?_⟩
          exact hleaks.2.2 ⟨hset, hbind, hinit⟩
      · rw [if_pos hinit] at hcall
        cases hcall
        refine ⟨_, howns₂, owing_iff hcheck ?_ _ _⟩
        exact ⟨hrecvCalls, ⟨hmalloc, hevent, hsocket⟩, fun hall => hinit hall.2.2⟩
    · simp only [hsend] at hcall
      cases hcall
      refine ⟨[], howns₂.release, settled_iff fun hleaks => ?_⟩
      exact hsendCalls hleaks.2.1
    · simp only [hsend] at hcall
      cases hcall
      refine ⟨[fd], howns₂.release_second, owing_iff hcheck ?_ _ _⟩
      exact ⟨hrecvCalls, hsendCalls, fun hall => hudp ⟨hall.1, hall.2.1⟩⟩
  · simp only [hrecv] at hcall
    cases hcall
    refine ⟨[], howns, settled_iff fun hleaks => ?_⟩
    exact hrecvCalls hleaks.1

theorem processDecapCall_owns {δ : Type} (hfresh : ∀ s, fresh s ∉ s) (G : GseConstants)
    (D : Decapsulator δ) (params : ProcessDecapParams) (o : DecapOutcomes) (bound : Nat)
    (events : List DecapEvent) (signals : StopSignals) (init : DecapState δ) (h : t.Owns s [])
    (hcall : processDecapCall fresh G D params o bound events signals init t = (some ret, t')) :
    ∃ held, t'.Owns s held ∧ (held = [] ↔ checkDecapParams G params ≠ 0 ∨ ¬o.Leaks) := by
  unfold processDecapCall at hcall
  by_cases hcheck : checkDecapParams G params ≠ 0
  · rw [if_pos hcheck] at hcall
    cases hcall
    exact ⟨[], h, iff_of_true rfl (.inl hcheck)⟩
  rw [if_neg hcheck] at hcall
  rcases createCtxt_owns hfresh o.malloc o.udp o.tap h with
    ⟨ctxt, t₁, hctxt, ⟨hmalloc, hsocket, hudp, htap⟩, howns⟩ | ⟨t₁, hctxt, hcalls, howns⟩ |
    ⟨fd, t₁, hctxt, ⟨hmalloc, hsocket, hudp⟩, howns⟩
  · simp only [hctxt] at hcall
    by_cases hinit : o.deencapInit
    · rw [if_neg (not_not_intro hinit)] at hcall
      rcases hend : loopEnd DecapState.alive DecapState.sighandler signals.afterLoop
        (decapLoop D params bound events init signals.atTest) with _ | alive
      · rw [hend] at hcall
        cases hcall
      · rw [hend] at hcall
        cases hcall
        refine ⟨[], howns.release_second.release, settled_iff fun hleaks => ?_⟩
        rcases hleaks.2 with hbad | hbad
        · exact hbad hudp
        · exact hbad.2 hinit
    · rw [if_pos hinit] at hcall
      cases hcall
      refine ⟨_, howns, owing_iff hcheck ?_ _ _⟩
      exact ⟨⟨hmalloc, hsocket⟩, .inr ⟨htap, hinit⟩⟩
  · simp only [hctxt] at hcall
    cases hcall
    refine ⟨[], howns, settled_iff fun hleaks => hcalls ?_⟩
    refine ⟨hleaks.1.1, hleaks.1.2, fun hudp => ?_⟩
    rcases hleaks.2 with hbad | hbad
    · exact absurd hudp hbad
    · exact hbad.1
  · simp only [hctxt] at hcall
    cases hcall
    refine ⟨[fd], howns, owing_iff hcheck ?_ _ _⟩
    exact ⟨⟨hmalloc, hsocket⟩, .inl hudp⟩

end

/-- A call that returns has restored the descriptors, unless its outcomes are of the kinds
    above. -/
theorem descriptors_restored_iff {fresh : Finset Nat → Nat} (hfresh : ∀ s, fresh s ∉ s)
    (s : Finset Nat) :
    (∀ {σ ω : Type} (E : EncapConf σ ω) (o : EncapOutcomes) (bound : Nat)
      (events : List EncapEvent) (signals : StopSignals) (init : EncapState σ ω) (ret : Int)
      (t : Descriptors),
      processEncapCall fresh E o bound events signals init (Table.start s) = (some ret, t) →
        (Table.Restored s t ↔ checkEncapParams E.gse E.params ≠ 0 ∨ ¬o.Leaks)) ∧
    ∀ {δ : Type} (G : GseConstants) (D : Decapsulator δ) (params : ProcessDecapParams)
      (o : DecapOutcomes) (bound : Nat) (events : List DecapEvent) (signals : StopSignals)
      (init : DecapState δ) (ret : Int) (t : Descriptors),
      processDecapCall fresh G D params o bound events signals init (Table.start s) =
          (some ret, t) →
        (Table.Restored s t ↔ checkDecapParams G params ≠ 0 ∨ ¬o.Leaks) := by
  refine ⟨?_, ?_⟩
  · intro σ ω E o bound events signals init ret t hcall
    obtain ⟨held, howns, hheld⟩ :=
      processEncapCall_owns hfresh E o bound events signals init (Table.owns_start s) hcall
    exact howns.restored_iff.trans hheld
  · intro δ G D params o bound events signals init ret t hcall
    obtain ⟨held, howns, hheld⟩ :=
      processDecapCall_owns hfresh G D params o bound events signals init (Table.owns_start s) hcall
    exact howns.restored_iff.trans hheld

/-- Without gaps below it, the lowest number that is free. -/
def nextDescriptor (s : Finset Nat) : Nat := s.sup id + 1

theorem nextDescriptor_notMem (s : Finset Nat) : nextDescriptor s ∉ s := by
  intro hmem
  have hle : id (s.sup id + 1) ≤ s.sup id := Finset.le_sup hmem
  exact Nat.not_succ_le_self _ hle

/-- One frame is sent, then a stop signal ends the loop. -/
theorem descriptors_restored_after_signal :
    ∃ t, processEncapCall nextDescriptor (wholePduConf (tunnelOf 0))
        ⟨true, ⟨true, true⟩, true, true, ⟨true, true, true⟩, true⟩ 3
        [.readable (some [7])] ⟨some 1, false⟩ (.init 0 () fun _ => ⟨0, fun _ => 0⟩)
        (Table.start {0, 1, 2}) = (some 0, t) ∧
      Table.Restored {0, 1, 2} t := by
  have hcall := Prod.ext (x := processEncapCall nextDescriptor (wholePduConf (tunnelOf 0))
    ⟨true, ⟨true, true⟩, true, true, ⟨true, true, true⟩, true⟩ 3
    [.readable (some [7])] ⟨some 1, false⟩ (.init 0 () fun _ => ⟨0, fun _ => 0⟩)
    (Table.start {0, 1, 2})) (y := (some 0, _)) (by decide) rfl
  refine ⟨_, hcall, ?_⟩
  apply ((descriptors_restored_iff nextDescriptor_notMem {0, 1, 2}).1 _ _ _ _ _ _ _ _ hcall).mpr
  exact .inr fun hleaks => hleaks.2.2 ⟨rfl, rfl, rfl⟩

/-- `setsockopt` fails in the encapsulating program, and `gse_deencap_init` in the other. -/
theorem failed_setup_leaks :
    (∃ t, processEncapCall nextDescriptor (wholePduConf (tunnelOf 0))
        ⟨true, ⟨true, true⟩, true, true, ⟨true, false, true⟩, true⟩ 0 [] ⟨none, false⟩
        (.init 0 () fun _ => ⟨0, fun _ => 0⟩) (Table.start {0, 1, 2}) = (some (-1), t) ∧
      t.outstanding = [5] ∧ ¬Table.Restored {0, 1, 2} t) ∧
    ∃ t, processDecapCall nextDescriptor ⟨13, 4⟩ Reference.decapsulator
        ⟨[], ⟨0, 1⟩, ⟨0, 2⟩, ⟨0, 1⟩, 8192, 4099⟩
        ⟨true, ⟨true, true, true⟩, ⟨true, true⟩, false⟩ 0 [] ⟨none, false⟩
        (.init none (fun _ => 0) 0) (Table.start {0, 1, 2}) = (some (-1), t) ∧
      t.outstanding = [4, 3] ∧ ¬Table.Restored {0, 1, 2} t := by
  constructor
  · refine ⟨_, Prod.ext (by decide) rfl, by decide, fun hrestored => ?_⟩
    exact absurd hrestored.2.1 (by decide)
  · refine ⟨_, Prod.ext (by decide) rfl, by decide, fun hrestored => ?_⟩
    exact absurd hrestored.2.1 (by decide)

end DvbGseTunnel
