import DvbGseTunnel.Lib.Loop

/-!
# Two programs and a network between them

A sender and a receiver, each a step on its events as in `Loop`, and a network that
carries the datagrams of the sender. The network may lose, double, delay and reorder:
any datagram sent so far may reach the receiver at any time and any number of times. A
run is a list of moves, in which the events of the two programs and the arrivals are
interleaved in any order.

The programs share nothing but the datagrams. So whatever the interleaving, the sender
does what it does alone (`run_sender`), and the receiver what it does on a list of its
own events and of datagrams in their order of arrival (`run_receiver`). For a receiver
that handles each datagram in one way, what it puts out is then a matter of that order
only (`run_out`).
-/

namespace DvbGseTunnel.Lib

inductive Move (ι κ : Type) where
  /-- the sender handles an event -/
  | sender (i : ι)
  /-- the datagram of this number reaches the receiver -/
  | arrive (n : Nat)
  /-- the receiver handles an event that is no datagram of the sender -/
  | receiver (k : κ)
deriving DecidableEq, Repr

/-- The two programs. `sent` lists the datagrams the sender has handed to its kernel,
    `none` for one that the kernel refused; `event` is the arrival of a datagram. -/
structure Parties (ι σ κ τ μ : Type) where
  send : ι → σ → Flow σ
  sent : σ → List (Option μ)
  recv : κ → τ → Flow τ
  event : μ → κ

/-- `arrivals` logs the numbers of the datagrams that reached the receiver. -/
structure Net (σ τ : Type) where
  sender : Flow σ
  receiver : Flow τ
  arrivals : List Nat

variable {ι σ κ τ μ : Type}

def Net.start (s : σ) (t : τ) : Net σ τ := ⟨.next s, .next t, []⟩

/-- One move. A program that has left its loop does not move any more, and a datagram
    that was not sent does not arrive. -/
def Parties.move (P : Parties ι σ κ τ μ) (net : Net σ τ) : Move ι κ → Net σ τ
  | .sender i => { net with sender := net.sender.andThen (P.send i) }
  | .arrive n =>
    match (P.sent net.sender.state)[n]? with
    | some (some d) =>
      { net with
        receiver := net.receiver.andThen (P.recv (P.event d))
        arrivals := net.arrivals ++ [n] }
    | some none => net
    | none => net
  | .receiver k => { net with receiver := net.receiver.andThen (P.recv k) }

def Parties.run (P : Parties ι σ κ τ μ) (moves : List (Move ι κ)) (net : Net σ τ) : Net σ τ :=
  moves.foldl P.move net

def senderEvents (moves : List (Move ι κ)) : List ι :=
  moves.filterMap fun
    | .sender i => some i
    | .arrive _ => none
    | .receiver _ => none

/-- The numbers of the datagrams that the network tries to bring. -/
def brought (moves : List (Move ι κ)) : List Nat :=
  moves.filterMap fun
    | .arrive n => some n
    | .sender _ => none
    | .receiver _ => none

/-- The sender only adds to what it has sent. -/
def Parties.Appends (P : Parties ι σ κ τ μ) : Prop :=
  ∀ i s, P.sent s <+: P.sent (P.send i s).state

/-- An event of the receiver is one of its own, or the arrival of a datagram that was
    sent. -/
def Parties.Meets (P : Parties ι σ κ τ μ) (log : List (Option μ)) : κ ⊕ Nat → κ → Prop
  | .inl k, event => event = k
  | .inr n, event => ∃ d, log[n]? = some (some d) ∧ event = P.event d

namespace Parties

variable {P : Parties ι σ κ τ μ}

theorem run_cons (m : Move ι κ) (moves : List (Move ι κ)) (net : Net σ τ) :
    P.run (m :: moves) net = P.run moves (P.move net m) := rfl

/-! ### Each program alone -/

theorem getElem?_of_prefix {α : Type} {xs ys : List α} (h : xs <+: ys) {n : Nat} {x : α}
    (hx : xs[n]? = some x) : ys[n]? = some x := by
  obtain ⟨zs, rfl⟩ := h
  obtain ⟨hn, -⟩ := List.getElem?_eq_some_iff.mp hx
  rw [List.getElem?_append_left hn, hx]

/-- A move of the network is an arrival of a datagram that was sent, or nothing. -/
theorem move_arrive (net : Net σ τ) (n : Nat) :
    (∃ d, (P.sent net.sender.state)[n]? = some (some d) ∧ P.move net (.arrive n) =
      { net with
        receiver := net.receiver.andThen (P.recv (P.event d))
        arrivals := net.arrivals ++ [n] }) ∨
    P.move net (.arrive n) = net := by
  cases hsent : (P.sent net.sender.state)[n]? with
  | none => exact .inr (by simp only [move, hsent])
  | some o =>
    cases o with
    | none => exact .inr (by simp only [move, hsent])
    | some d => exact .inl ⟨d, rfl, by simp only [move, hsent]⟩

theorem run_sender (moves : List (Move ι κ)) (net : Net σ τ) :
    (P.run moves net).sender = net.sender.andThen (feed P.send (senderEvents moves)) := by
  induction moves generalizing net with
  | nil =>
    rcases net with ⟨s, t, arrivals⟩
    cases s <;> rfl
  | cons m moves ih =>
    rw [run_cons, ih]
    cases m with
    | sender i => exact Flow.andThen_assoc _ _ _
    | arrive n =>
      rcases P.move_arrive net n with ⟨d, -, hmove⟩ | hmove
      · rw [hmove]
        rfl
      · rw [hmove]
        rfl
    | receiver k => rfl

theorem run_sender_start (moves : List (Move ι κ)) (s : σ) (t : τ) :
    (P.run moves (.start s t)).sender = feed P.send (senderEvents moves) s :=
  P.run_sender moves _

theorem sent_run (happends : P.Appends) (moves : List (Move ι κ)) (net : Net σ τ) :
    P.sent net.sender.state <+: P.sent (P.run moves net).sender.state := by
  induction moves generalizing net with
  | nil => exact List.prefix_rfl
  | cons m moves ih =>
    rw [run_cons]
    refine List.IsPrefix.trans ?_ (ih (P.move net m))
    cases m with
    | sender i =>
      change P.sent net.sender.state <+: P.sent (net.sender.andThen (P.send i)).state
      cases hs : net.sender with
      | next s => exact happends i s
      | stop s => exact List.prefix_rfl
      | fault s => exact List.prefix_rfl
      | hang s => exact List.prefix_rfl
    | arrive n =>
      have hsame : (P.move net (.arrive n)).sender = net.sender := by
        rcases P.move_arrive net n with ⟨d, -, hmove⟩ | hmove
        · rw [hmove]
        · rw [hmove]
      exact hsame ▸ List.prefix_rfl
    | receiver k => exact List.prefix_rfl

/-- The receiver meets its own events and the arrivals, in the order of the run. -/
theorem run_receiver (happends : P.Appends) (moves : List (Move ι κ)) (net : Net σ τ) :
    ∃ items events,
      List.Forall₂ (P.Meets (P.sent (P.run moves net).sender.state)) items events ∧
      (P.run moves net).receiver = net.receiver.andThen (feed P.recv events) ∧
      (P.run moves net).arrivals = net.arrivals ++ items.filterMap Sum.getRight? ∧
      ∀ k, Sum.inl k ∈ items → Move.receiver k ∈ moves := by
  induction moves generalizing net with
  | nil =>
    refine ⟨[], [], .nil, ?_, (List.append_nil _).symm, nofun⟩
    rcases net with ⟨s, t, arrivals⟩
    cases t <;> rfl
  | cons m moves ih =>
    obtain ⟨items, events, hmeets, hreceiver, harrivals, hown⟩ := ih (P.move net m)
    have hkeep : ∀ k, Sum.inl k ∈ items → Move.receiver k ∈ m :: moves :=
      fun k hk => List.mem_cons_of_mem m (hown k hk)
    rw [run_cons, hreceiver, harrivals]
    cases m with
    | sender i => exact ⟨items, events, hmeets, rfl, rfl, hkeep⟩
    | arrive n =>
      rcases P.move_arrive net n with ⟨d, hsent, hmove⟩ | hmove
      · -- what was sent when the datagram arrived is still there at the end
        have hend : (P.sent (P.run moves (P.move net (.arrive n))).sender.state)[n]? =
            some (some d) := by
          apply getElem?_of_prefix (P.sent_run happends moves _)
          rw [hmove]
          exact hsent
        refine ⟨.inr n :: items, P.event d :: events, .cons ⟨d, hend, rfl⟩ hmeets, ?_, ?_, ?_⟩
        · rw [hmove]
          exact Flow.andThen_assoc _ _ _
        · rw [hmove, List.append_assoc]
          rfl
        · intro k hk
          rcases List.mem_cons.mp hk with heq | hmem
          · cases heq
          · exact hkeep k hmem
      · rw [hmove]
        exact ⟨items, events, hmove ▸ hmeets, rfl, rfl, hkeep⟩
    | receiver k =>
      refine ⟨.inl k :: items, k :: events, .cons rfl hmeets, ?_, rfl, ?_⟩
      · exact Flow.andThen_assoc _ _ _
      · intro k' hk'
        rcases List.mem_cons.mp hk' with heq | hmem
        · cases heq
          exact List.mem_cons_self
        · exact hkeep k' hmem

/-- A datagram that arrives was brought. -/
theorem arrivals_sublist_brought (moves : List (Move ι κ)) (net : Net σ τ) :
    (P.run moves net).arrivals.Sublist (net.arrivals ++ brought moves) := by
  induction moves generalizing net with
  | nil => exact List.sublist_append_left _ _
  | cons m moves ih =>
    rw [run_cons]
    refine (ih (P.move net m)).trans ?_
    cases m with
    | sender i => exact List.Sublist.refl _
    | receiver k => exact List.Sublist.refl _
    | arrive n =>
      have hbrought : brought (.arrive n :: moves) = n :: brought moves := rfl
      rw [hbrought]
      rcases P.move_arrive net n with ⟨d, -, hmove⟩ | hmove
      · rw [hmove, List.append_assoc]
        exact List.Sublist.refl _
      · rw [hmove]
        exact (List.Sublist.refl net.arrivals).append (List.sublist_cons_self n (brought moves))

/-- The arrivals are the same in two networks whose senders have sent as many datagrams,
    with the same ones refused, after the same events. -/
theorem arrivals_congr_of_sent {σ' τ' μ' : Type} {Q : Parties ι σ' κ τ' μ'} {s : σ} {u : σ'}
    (moves : List (Move ι κ)) (before : List ι)
    (h : ∀ events, events <+: before ++ senderEvents moves →
      (P.sent (feed P.send events s).state).map Option.isSome =
        (Q.sent (feed Q.send events u).state).map Option.isSome)
    {net : Net σ τ} {net' : Net σ' τ'} (hsender : net.sender = feed P.send before s)
    (hsender' : net'.sender = feed Q.send before u) (harrivals : net.arrivals = net'.arrivals) :
    (P.run moves net).arrivals = (Q.run moves net').arrivals := by
  induction moves generalizing before net net' with
  | nil => exact harrivals
  | cons m moves ih =>
    rw [run_cons, run_cons]
    cases m with
    | sender i =>
      refine ih (before ++ [i]) (fun events hfirst => h events ?_) ?_ ?_ harrivals
      · rw [List.append_assoc] at hfirst
        exact hfirst
      · rw [feed_append, ← hsender]
        exact congrArg net.sender.andThen (funext fun s => (feed_singleton P.send i s).symm)
      · rw [feed_append, ← hsender']
        exact congrArg net'.sender.andThen (funext fun s => (feed_singleton Q.send i s).symm)
    | receiver k => exact ih before h hsender hsender' harrivals
    | arrive n =>
      have hlog := congrArg (·[n]?) (h before (List.prefix_append _ _))
      simp only [List.getElem?_map, ← hsender, ← hsender'] at hlog
      have hrest : ∀ {x : Net σ τ} {y : Net σ' τ'}, P.move net (.arrive n) = x →
          Q.move net' (.arrive n) = y → x.sender = net.sender → y.sender = net'.sender →
          x.arrivals = y.arrivals →
          (P.run moves (P.move net (.arrive n))).arrivals =
            (Q.run moves (Q.move net' (.arrive n))).arrivals := by
        rintro x y rfl rfl hx hy harrived
        exact ih before h (hx.trans hsender) (hy.trans hsender') harrived
      cases hP : (P.sent net.sender.state)[n]? with
      | none =>
        rw [hP] at hlog
        have hQ : (Q.sent net'.sender.state)[n]? = none := Option.map_eq_none_iff.mp hlog.symm
        refine hrest ?_ ?_ rfl rfl harrivals
        · simp only [move, hP]
        · simp only [move, hQ]
      | some o =>
        rw [hP] at hlog
        obtain ⟨o', hQ, hsome⟩ := Option.map_eq_some_iff.mp hlog.symm
        cases o with
        | none =>
          obtain rfl : o' = none := Option.not_isSome_iff_eq_none.mp (by rw [hsome]; nofun)
          refine hrest ?_ ?_ rfl rfl harrivals
          · simp only [move, hP]
          · simp only [move, hQ]
        | some d =>
          obtain ⟨d', rfl⟩ := Option.isSome_iff_exists.mp hsome
          refine hrest (x := ⟨net.sender, net.receiver.andThen (P.recv (P.event d)),
            net.arrivals ++ [n]⟩) (y := ⟨net'.sender, net'.receiver.andThen (Q.recv (Q.event d')),
            net'.arrivals ++ [n]⟩) ?_ ?_ rfl rfl (congrArg (· ++ [n]) harrivals)
          · simp only [move, hP]
          · simp only [move, hQ]

end Parties

/-! ### What the receiver puts out -/

/-- What a receiver puts out for some items, one after another. -/
def outputs {δ α β : Type} (handle : δ → α → Option β × δ) : δ → List α → List β
  | _, [] => []
  | d, a :: as => (handle d a).1.toList ++ outputs handle (handle d a).2 as

theorem forall₂_getElem? {α β : Type} {R : α → β → Prop} {as : List α} {bs : List β}
    (h : List.Forall₂ R as bs) (n : Nat) :
    (as[n]? = none ∧ bs[n]? = none) ∨ ∃ a b, as[n]? = some a ∧ bs[n]? = some b ∧ R a b := by
  induction h generalizing n with
  | nil => exact .inl ⟨rfl, rfl⟩
  | @cons a b as bs hab _ ih =>
    cases n with
    | zero => exact .inr ⟨a, b, rfl, rfl, hab⟩
    | succ n => exact ih n

/-- A receiver that handles what a datagram carries in one way, whatever else it has met,
    and to which its own events mean nothing. `lib` is the part of its state on which the
    handling depends, and `out` logs what it puts out. -/
structure Handles {δ α β : Type} (recv : κ → τ → Flow τ) (event : μ → κ)
    (Carries : α → μ → Prop) (handle : δ → α → Option β × δ) (Own : κ → Prop) (I : τ → Prop)
    (lib : τ → δ) (out : τ → List β) : Prop where
  datagram : ∀ {s a d}, I s → Carries a d → ∃ t, recv (event d) s = .next t ∧ I t ∧
    lib t = (handle (lib s) a).2 ∧ out t = out s ++ (handle (lib s) a).1.toList
  own : ∀ {s k}, I s → Own k → ∃ t, recv k s = .next t ∧ I t ∧ lib t = lib s ∧ out t = out s

/-- The datagrams of a log carry these items, in order; some may have been refused, and
    items at the end may still be to come. -/
def Emits {α : Type} (Carries : α → μ → Prop) (items : List α) (log : List (Option μ)) : Prop :=
  ∀ (n : Nat) (d : μ), log[n]? = some (some d) → ∃ a, items[n]? = some a ∧ Carries a d

section

variable {δ α β : Type} {P : Parties ι σ κ τ μ} {Carries : α → μ → Prop}
  {handle : δ → α → Option β × δ} {Own : κ → Prop} {I : τ → Prop} {lib : τ → δ}
  {out : τ → List β}

theorem Handles.feed (h : Handles P.recv P.event Carries handle Own I lib out)
    {contents : List α}
    {log : List (Option μ)} (hemits : Emits Carries contents log) {items : List (κ ⊕ Nat)}
    {events : List κ} (hmeets : List.Forall₂ (P.Meets log) items events)
    (hown : ∀ k, Sum.inl k ∈ items → Own k) {s : τ} (hs : I s) :
    ∃ t, feed P.recv events s = .next t ∧ I t ∧ out t = out s ++
      outputs handle (lib s) ((items.filterMap Sum.getRight?).filterMap (contents[·]?)) := by
  induction hmeets generalizing s with
  | nil => exact ⟨s, rfl, hs, (List.append_nil _).symm⟩
  | @cons item event items events hitem _ ih =>
    have hrest : ∀ k, Sum.inl k ∈ items → Own k :=
      fun k hk => hown k (List.mem_cons_of_mem item hk)
    rw [feed_cons]
    cases item with
    | inl k =>
      obtain ⟨u, hstep, hu, hlib, hout⟩ := h.own hs (hown k List.mem_cons_self)
      obtain ⟨t, hrun, ht, houtt⟩ := ih hrest hu
      refine ⟨t, ?_, ht, ?_⟩
      · rw [show event = k from hitem, hstep, Flow.next_andThen, hrun]
      · rw [houtt, hout, hlib]
        rfl
    | inr n =>
      obtain ⟨d, hsent, rfl⟩ := hitem
      obtain ⟨a, hcontent, hcarries⟩ := hemits n d hsent
      obtain ⟨u, hstep, hu, hlib, hout⟩ := h.datagram hs hcarries
      obtain ⟨t, hrun, ht, houtt⟩ := ih hrest hu
      refine ⟨t, ?_, ht, ?_⟩
      · rw [hstep, Flow.next_andThen, hrun]
      · have hfirst : ((Sum.inr n :: items).filterMap Sum.getRight?).filterMap (contents[·]?) =
            a :: (items.filterMap Sum.getRight?).filterMap (contents[·]?) := by
          change (n :: items.filterMap Sum.getRight?).filterMap (contents[·]?) = _
          rw [List.filterMap_cons, hcontent]
        rw [houtt, hout, hlib, hfirst, outputs, List.append_assoc]

/-- In every run, whatever is lost, doubled or reordered, and however the moves of the two
    programs are interleaved, the receiver goes on and puts out what it makes of the items
    that arrived, in their order of arrival. -/
theorem Parties.run_out (happends : P.Appends)
    (h : Handles P.recv P.event Carries handle Own I lib out)
    (moves : List (Move ι κ)) (hown : ∀ k, Move.receiver k ∈ moves → Own k) {s : σ} {t : τ}
    (ht : I t) {contents : List α}
    (hemits : Emits Carries contents (P.sent (feed P.send (senderEvents moves) s).state)) :
    ∃ u, (P.run moves (.start s t)).receiver = .next u ∧ I u ∧ out u = out t ++
      outputs handle (lib t)
        ((P.run moves (.start s t)).arrivals.filterMap (contents[·]?)) := by
  obtain ⟨items, events, hmeets, hreceiver, harrivals, hitems⟩ :=
    P.run_receiver happends moves (.start s t)
  rw [P.run_sender_start] at hmeets
  obtain ⟨u, hrun, hu, hout⟩ := h.feed hemits hmeets (fun k hk => hown k (hitems k hk)) ht
  refine ⟨u, ?_, hu, ?_⟩
  · rw [hreceiver]
    exact hrun
  · rw [harrivals]
    exact hout

/-- What has arrived was sent. -/
theorem Parties.arrivals_sent (happends : P.Appends) (moves : List (Move ι κ)) (s : σ) (t : τ) :
    ∀ n ∈ (P.run moves (.start s t)).arrivals,
      ∃ d, (P.sent (feed P.send (senderEvents moves) s).state)[n]? = some (some d) := by
  obtain ⟨items, events, hmeets, -, harrivals, -⟩ := P.run_receiver happends moves (.start s t)
  rw [P.run_sender_start] at hmeets
  intro n hn
  rw [harrivals] at hn
  obtain ⟨item, hitem, hright⟩ := List.mem_filterMap.mp hn
  obtain rfl : item = .inr n := Sum.getRight?_eq_some_iff.mp hright
  clear harrivals hn hright
  induction hmeets with
  | nil => cases hitem
  | cons hfirst _ ih =>
    rcases List.mem_cons.mp hitem with rfl | hmem
    · obtain ⟨d, hsent, -⟩ := hfirst
      exact ⟨d, hsent⟩
    · exact ih hmem

end

/-! ### A receiver that may leave its loop -/

/-- The answers before the first that is missing. -/
def untilNone {β : Type} : List (Option β) → List β
  | [] => []
  | none :: _ => []
  | some b :: answers => b :: untilNone answers

/-- A receiver that puts out the answer to each datagram, a matter of its number in the log
    of the sender, and leaves its loop at the first that has none. -/
structure Answers {β : Type} (P : Parties ι σ κ τ μ) (log : List (Option μ))
    (answer : Nat → Option β) (I : τ → Prop) (out : τ → List β) : Prop where
  answered : ∀ {s n d b}, I s → log[n]? = some (some d) → answer n = some b →
    ∃ t, P.recv (P.event d) s = .next t ∧ I t ∧ out t = out s ++ [b]
  unanswered : ∀ {s n d}, I s → log[n]? = some (some d) → answer n = none →
    ∃ t, P.recv (P.event d) s = .stop t ∧ out t = out s

theorem untilNone_map {α β : Type} {f : α → Option β} {as : List α} (h : ∀ a ∈ as, f a ≠ none) :
    untilNone (as.map f) = as.filterMap f := by
  induction as with
  | nil => rfl
  | cons a as ih =>
    rw [List.forall_mem_cons] at h
    obtain ⟨b, hb⟩ := Option.ne_none_iff_exists'.mp h.1
    rw [List.map_cons, List.filterMap_cons, hb, untilNone, ih h.2]

section

variable {β : Type} {P : Parties ι σ κ τ μ} {log : List (Option μ)} {answer : Nat → Option β}
  {I : τ → Prop} {out : τ → List β}

theorem Answers.feed (h : Answers P log answer I out) {items : List (κ ⊕ Nat)} {events : List κ}
    (hmeets : List.Forall₂ (P.Meets log) items events) (hown : ∀ k, Sum.inl k ∉ items) {s : τ}
    (hs : I s) :
    ∃ t, out t = out s ++ untilNone ((items.filterMap Sum.getRight?).map answer) ∧
      (feed P.recv events s = .next t ∧
          (∀ n ∈ items.filterMap Sum.getRight?, answer n ≠ none) ∨
        feed P.recv events s = .stop t ∧
          ∃ n ∈ items.filterMap Sum.getRight?, answer n = none) := by
  induction hmeets generalizing s with
  | nil => exact ⟨s, (List.append_nil _).symm, .inl ⟨rfl, nofun⟩⟩
  | @cons item event items events hitem _ ih =>
    have hrest : ∀ k, Sum.inl k ∉ items := fun k hk => hown k (List.mem_cons_of_mem item hk)
    rw [feed_cons]
    cases item with
    | inl k => exact absurd List.mem_cons_self (hown k)
    | inr n =>
      have hnumbers : (Sum.inr n :: items).filterMap Sum.getRight? =
          n :: items.filterMap Sum.getRight? := rfl
      obtain ⟨d, hsent, rfl⟩ := hitem
      rw [hnumbers, List.map_cons]
      cases hanswer : answer n with
      | none =>
        obtain ⟨t, hstep, hout⟩ := h.unanswered hs hsent hanswer
        refine ⟨t, hout.trans (List.append_nil _).symm, .inr ⟨?_, n, List.mem_cons_self, hanswer⟩⟩
        rw [hstep]
        rfl
      | some b =>
        obtain ⟨u, hstep, hu, houtu⟩ := h.answered hs hsent hanswer
        obtain ⟨t, hout, hrun⟩ := ih hrest hu
        rw [hstep, Flow.next_andThen]
        refine ⟨t, ?_, ?_⟩
        · rw [hout, houtu, untilNone, List.append_assoc]
          rfl
        · rcases hrun with ⟨hnext, hall⟩ | ⟨hstop, n', hn', hnone⟩
          · refine .inl ⟨hnext, List.forall_mem_cons.mpr ⟨?_, hall⟩⟩
            rw [hanswer]
            exact Option.some_ne_none b
          · exact .inr ⟨hstop, n', List.mem_cons_of_mem n hn', hnone⟩

/-- In every run such a receiver puts out the answers to the datagrams in their order of
    arrival, up to the first that has none; if there is one, it has left its loop. -/
theorem Parties.run_answers (happends : P.Appends) (moves : List (Move ι κ))
    (hown : ∀ k, Move.receiver k ∉ moves) {s : σ} {t : τ} (ht : I t)
    (h : Answers P (P.sent (Lib.feed P.send (senderEvents moves) s).state) answer I out) :
    ∃ u, out u = out t ++ untilNone ((P.run moves (.start s t)).arrivals.map answer) ∧
      ((P.run moves (.start s t)).receiver = .next u ∧
          (∀ n ∈ (P.run moves (.start s t)).arrivals, answer n ≠ none) ∨
        (P.run moves (.start s t)).receiver = .stop u ∧
          ∃ n ∈ (P.run moves (.start s t)).arrivals, answer n = none) := by
  obtain ⟨items, events, hmeets, hreceiver, harrivals, hitems⟩ :=
    P.run_receiver happends moves (.start s t)
  rw [P.run_sender_start] at hmeets
  rw [hreceiver, harrivals]
  exact h.feed hmeets (fun k hk => hown k (hitems k hk)) ht

end

end DvbGseTunnel.Lib
