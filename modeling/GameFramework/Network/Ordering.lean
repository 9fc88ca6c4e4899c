import GameFramework.Network.Handshake

/-!
# The order of messages

Messages travel from one program to another on two websockets with a handler of the relay in
between.  If the websockets keep the order of their messages, these are neither reordered nor
doubled on their way: what has come out of the receiver's websocket, and what is still in it,
is a part of what the sender has written, in the same order.

Main results:

- Theorem {lit}`Deployment.arrived_append_pending_eq_map`: messages of one connection to another
  one stay in order.
- Theorem {lit}`Deployment.appliedBy_sublist`: a client applies what the game server's peer
  connection has produced for it, in this order.
- Theorem {lit}`Deployment.appliedFrom_sublist`: a game server applies, for messages of a client,
  what that client's peer connection has produced, in this order.
-/

namespace GameFramework

/-- The message in a frame. -/
def Packet.messageOf : Packet → Option Message
  | .frame msg => msg
  | .dial _ | .text _ _ => none

/-- The message that an event writes. -/
def PeerEvent.messageOf (e : PeerEvent) : Option Message :=
  e.packet.bind Packet.messageOf

/-- The data in a message of some sender. -/
def Packet.textOf (s : Conn) : Packet → Option Json
  | .text sender data => if sender = s then some data else none
  | .dial _ | .frame _ => none

namespace Relay

/-- A handler that takes a frame records it. -/
theorem out_of_frame {t v : Relay} {c : Conn} {msg : Option Message} {out : List RelayEvent}
    (hstep : t.step (.handler c (.frame msg)) = some (v, out)) :
    readOf c out = msg.toList ∧ ∀ s, s ≠ c → readOf s out = [] := by
  simp only [step] at hstep
  split at hstep
  · contradiction
  · unfold handle at hstep
    split at hstep
    all_goals first
      | contradiction
      | skip
    · rename_i heq
      cases heq
      cases hstep
      exact ⟨rfl, fun s _ => rfl⟩
    · rename_i msg' heq
      cases heq
      cases hstep
      refine ⟨by simp [readOf], fun s hs => ?_⟩
      simp [readOf, Ne.symm hs]

end Relay

namespace Deployment

open Labelled

variable {maxConns : Int} {programs : Conn → Program} {labels : List Label} {u : State}
  {h : List Event} {c s d g : Conn}

/-- The messages that a program has written. -/
def written (c : Conn) (h : List Event) : List Message :=
  (peerHistory c h).filterMap PeerEvent.messageOf

/-- What was taken from a websocket. -/
def takenFrom (k : Socket) (h : List Event) : List Packet :=
  h.filterMap (WiredEvent.takenOf k)

/-- The messages of one connection that have come out of the websocket of another one. -/
def arrived (s d : Conn) (h : List Event) : List Json :=
  (takenFrom (.toPeer d) h).filterMap (Packet.textOf s)

/-- The messages of one connection that are still in the websocket of another one. -/
def pending (s d : Conn) (u : State) : List Json :=
  (u.2 (.toPeer d)).filterMap (Packet.textOf s)

/-! ## The two websockets -/

/-- The events of the parties take nothing. -/
theorem takenFrom_map {ε : Type*} (k : Socket) (f : ε → PartyEvent) (out : List ε) :
    takenFrom k (out.map fun e => .own (f e)) = [] := by
  rw [takenFrom, List.filterMap_map]
  exact List.filterMap_eq_nil_iff.mpr fun _ _ => rfl

/-- What was put on a websocket to the relay are the messages that its program has written. -/
theorem sentOn_toRelay (c : Conn) (h : List Event) :
    (wiring.sentOn (.toRelay c) (h.filterMap WiredEvent.ownOf)).filterMap Packet.messageOf =
      written c h := by
  simp only [Wiring.sentOn, written, peerHistory, List.filterMap_filterMap]
  refine List.filterMap_congr fun e _ => ?_
  rcases e with (e | ⟨c', e⟩) | ⟨k, p⟩
  · cases e <;> rfl
  · cases hpacket : e.packet <;> by_cases hc : c' = c <;>
      simp [WiredEvent.ownOf, wiring, System.ofMember, PeerEvent.messageOf, hpacket, hc]
  · rfl

/-- What was put on a websocket to a program is what the relay has handed over. -/
theorem sentOn_toPeer (s d : Conn) (h : List Event) :
    (wiring.sentOn (.toPeer d) (h.filterMap WiredEvent.ownOf)).filterMap (Packet.textOf s) =
      Relay.handed s d (relayHistory h) := by
  simp only [Wiring.sentOn, Relay.handed, relayHistory, List.filterMap_filterMap]
  refine List.filterMap_congr fun e _ => ?_
  rcases e with (e | ⟨c', e⟩) | ⟨k, p⟩
  · cases e with
    | delivered s' d' data =>
        by_cases hd : d' = d <;> by_cases hs : s' = s <;>
          simp [WiredEvent.ownOf, wiring, Packet.textOf, hd, hs]
    | _ => rfl
  · cases hpacket : e.packet <;> simp [WiredEvent.ownOf, wiring, hpacket]
  · rfl

theorem takenFrom_cons (k k' : Socket) (p : Packet) (out : List Event) :
    takenFrom k (.taken k' p :: out) = (if k' = k then [p] else []) ++ takenFrom k out := by
  by_cases hk : k' = k <;> simp [takenFrom, WiredEvent.takenOf, hk]

/-- What has come out of a websocket, followed by what is still in it, is what the relay has
handed over. -/
theorem arrived_append_pending (hfifo : FirstInFirstOut labels)
    (hrun : system.run (start maxConns programs) labels = some (u, h)) (s d : Conn) :
    arrived s d h ++ pending s d u = Relay.handed s d (relayHistory h) := by
  have hsent : takenFrom (.toPeer d) h ++ u.2 (.toPeer d) =
      wiring.sentOn (.toPeer d) (h.filterMap WiredEvent.ownOf) :=
    (System.takenOn_append_queue (Socket.toPeer d) hfifo hrun).trans (List.nil_append _)
  rw [← sentOn_toPeer, ← hsent, List.filterMap_append]
  rfl

/-- The relay reads what it takes from a websocket. -/
theorem readOf_eq_takenFrom (hrun : system.run (start maxConns programs) labels = some (u, h))
    (c : Conn) :
    Relay.readOf c (relayHistory h) = (takenFrom (.toRelay c) h).filterMap Packet.messageOf := by
  refine system.run_invariant (fun _ h => Relay.readOf c (relayHistory h) =
    (takenFrom (.toRelay c) h).filterMap Packet.messageOf) rfl ?_ hrun
  intro t h label v out hbefore hstep
  have hown : Relay.readOf c (relayHistory out) =
      (takenFrom (.toRelay c) out).filterMap Packet.messageOf := by
    have hcase : StepCase t v out := step_cases hstep
    cases hcase with
    | relay label out hfree hrelay =>
        rw [relayHistory_map_ofRelay, takenFrom_map]
        refine List.filterMap_eq_nil_iff.mpr fun e he => ?_
        have hcause := Relay.cause_of_mem hrelay he
        cases e with
        | received c' msg =>
            rw [hcause] at hfree
            cases hfree
        | _ => rfl
    | accepted c' path out hhead hrelay =>
        have hread : Relay.readOf c out = [] := by
          refine List.filterMap_eq_nil_iff.mpr fun e he => ?_
          have hcause := Relay.cause_of_mem hrelay he
          cases e with
          | received c' msg => cases hcause
          | _ => rfl
        have hhistory : relayHistory (.taken (.toRelay c') (.dial path) :: out.map ofRelay) = out :=
          relayHistory_map_ofRelay out
        rw [hhistory, takenFrom_cons, takenFrom_map, hread]
        split <;> rfl
    | framed c' msg out hhead hrelay =>
        have hhistory : relayHistory (.taken (.toRelay c') (.frame msg) :: out.map ofRelay) = out :=
          relayHistory_map_ofRelay out
        rw [hhistory, takenFrom_cons, takenFrom_map]
        rcases Relay.out_of_frame hrelay with ⟨hsame, hother⟩
        by_cases hc : c' = c
        · subst hc
          rw [hsame]
          cases msg <;> simp [Packet.messageOf]
        · rw [hother c (Ne.symm hc)]
          simp [hc]
    | peer c' label out hfree hpeer =>
        rw [relayHistory_map_ofPeer, takenFrom_map]
        rfl
    | arrived c' s data taken out hhead hpeer =>
        rw [takenFrom_cons, takenFrom_map]
        exact congrArg (Relay.readOf c) (relayHistory_map_ofPeer c' out)
    | lost c' s data hhead => rfl
  rw [relayHistory_append, Relay.readOf, List.filterMap_append, takenFrom, List.filterMap_append,
    List.filterMap_append]
  exact congrArg₂ _ hbefore hown

/-- What the relay has read of a program, this program has written before everything else. -/
theorem readOf_prefix_written (hfifo : FirstInFirstOut labels)
    (hrun : system.run (start maxConns programs) labels = some (u, h)) (c : Conn) :
    (Relay.readOf c (relayHistory h)).IsPrefix (written c h) := by
  have hsent : takenFrom (.toRelay c) h ++ u.2 (.toRelay c) =
      wiring.sentOn (.toRelay c) (h.filterMap WiredEvent.ownOf) :=
    (System.takenOn_append_queue (Socket.toRelay c) hfifo hrun).trans (List.nil_append _)
  rw [readOf_eq_takenFrom hrun, ← sentOn_toRelay, ← hsent, List.filterMap_append]
  exact List.prefix_append _ _

/-- What the relay hands from one connection to another one, the program of the first has
written, in this order. -/
theorem handed_eq_map (hfifo : FirstInFirstOut labels)
    (hrun : system.run (start maxConns programs) labels = some (u, h)) (s d : Conn) :
    ∃ id msgs, List.Sublist msgs (written s h) ∧
      Relay.handed s d (relayHistory h) = msgs.map (Relay.relayAs id) ∧
      ∀ msg ∈ msgs, ofRelay (.opened s id) ∈ h ∧ Relay.Targets (relayHistory h) id d msg := by
  rcases exists_relay_run hrun with ⟨ls, hrelay⟩
  rcases Relay.handed_eq_map hrelay s d with ⟨id, msgs, hsublist, hhanded, htargets⟩
  refine ⟨id, msgs, hsublist.trans (readOf_prefix_written hfifo hrun s).sublist, hhanded, ?_⟩
  intro msg hmsg
  exact ⟨mem_relayHistory.mp (htargets msg hmsg).1, (htargets msg hmsg).2⟩

/-- If the websockets keep the order of their messages, what one connection has got through to
another one, and what is on its way there, was written by the program of the first, in this order
and each at most once, and was for the second one. -/
theorem arrived_append_pending_eq_map (hfifo : FirstInFirstOut labels)
    (hrun : system.run (start maxConns programs) labels = some (u, h)) (s d : Conn) :
    ∃ id msgs, List.Sublist msgs (written s h) ∧
      arrived s d h ++ pending s d u = msgs.map (Relay.relayAs id) ∧
      ∀ msg ∈ msgs, ofRelay (.opened s id) ∈ h ∧ Relay.Targets (relayHistory h) id d msg := by
  rw [arrived_append_pending hfifo hrun]
  exact handed_eq_map hfifo hrun s d

/-- The messages of the offer are taken from the head of their websockets. -/
theorem firstInFirstOut_offerLabels : FirstInFirstOut offerLabels := by
  intro k i x htake
  simp only [offerLabels, joinLabels, read, advance, List.cons_append, List.nil_append,
    List.mem_cons, List.not_mem_nil, WiredLabel.take.injEq, reduceCtorEq, or_false,
    false_or] at htake
  rcases htake with h | h | h | h | h | h | h | h <;> exact h.2.1

/-- The offer has arrived at the client. -/
theorem arrived_append_pending_eq_map_offer :
    ∃ u h, system.run (start 0 meeting) offerLabels = some (u, h) ∧
      arrived 0 1 h = [NetworkClient.offerData (goString "12345")] ∧
      ∃ id msgs, List.Sublist msgs (written 0 h) ∧
        arrived 0 1 h ++ pending 0 1 u = msgs.map (Relay.relayAs id) := by
  rcases run_offerLabels with ⟨u, hrun⟩
  rcases arrived_append_pending_eq_map firstInFirstOut_offerLabels hrun 0 1 with
    ⟨id, msgs, hsublist, harrived, _⟩
  exact ⟨u, _, hrun, rfl, id, msgs, hsublist, harrived⟩

/-! ## What is applied -/

/-- A program applies at most what it takes from its websocket, in this order. -/
theorem applied_sublist_taken (hrun : system.run (start maxConns programs) labels = some (u, h))
    (s c : Conn) :
    List.Sublist ((peerHistory c h).filterMap Peer.appliedByClient)
        ((takenFrom (.toPeer c) h).filterMap Peer.broughtToClient) ∧
      List.Sublist ((peerHistory c h).filterMap (Peer.appliedFrom s))
        ((takenFrom (.toPeer c) h).filterMap (Peer.broughtFrom s)) := by
  have happend : ∀ (φ : PeerEvent → Option Remote) (ψ : Packet → Option Remote),
      (∀ (t v : Peer) label out, t.step label = some (v, out) →
        List.Sublist (out.filterMap φ) ((Peer.received label).bind ψ).toList) →
      List.Sublist ((peerHistory c h).filterMap φ) ((takenFrom (.toPeer c) h).filterMap ψ) := by
    intro φ ψ hone
    refine system.run_invariant (fun _ h => List.Sublist ((peerHistory c h).filterMap φ)
      ((takenFrom (.toPeer c) h).filterMap ψ)) (List.Sublist.refl []) ?_ hrun
    intro t h label v out hbefore hstep
    have hown : List.Sublist ((peerHistory c out).filterMap φ)
        ((takenFrom (.toPeer c) out).filterMap ψ) := by
      have hcase : StepCase t v out := step_cases hstep
      cases hcase with
      | relay label out hfree hrelay =>
          rw [peerHistory_map_ofRelay]
          exact List.nil_sublist _
      | accepted c' path out hhead hrelay =>
          have hquiet : peerHistory c (.taken (.toRelay c') (.dial path) :: out.map ofRelay) = [] :=
            peerHistory_map_ofRelay c out
          rw [hquiet]
          exact List.nil_sublist _
      | framed c' msg out hhead hrelay =>
          have hquiet : peerHistory c (.taken (.toRelay c') (.frame msg) :: out.map ofRelay) = [] :=
            peerHistory_map_ofRelay c out
          rw [hquiet]
          exact List.nil_sublist _
      | peer c' label out hfree hpeer =>
          rw [peerHistory_map_ofPeer, takenFrom_map]
          have hreceived : Peer.received label = none := by
            cases label with
            | receive s data taken => cases hfree
            | _ => rfl
          have happlied := hone _ _ label out hpeer
          rw [hreceived] at happlied
          split
          · exact happlied
          · exact List.nil_sublist _
      | arrived c' s data taken out hhead hpeer =>
          have hhistory : peerHistory c (.taken (.toPeer c') (.text s data) ::
              out.map (ofPeer c')) = if c' = c then out else [] := peerHistory_map_ofPeer c c' out
          rw [hhistory, takenFrom_cons, takenFrom_map, List.append_nil]
          by_cases hc : c' = c
          · have happlied := hone _ _ (.receive s data taken) out hpeer
            cases hbrought : ψ (.text s data) <;>
              simpa [hc, Peer.received, hbrought] using happlied
          · simp [hc]
      | lost c' s data hhead => exact List.nil_sublist _
    rw [peerHistory_append, List.filterMap_append, takenFrom, List.filterMap_append,
      List.filterMap_append]
    exact hbefore.append hown
  exact ⟨happend _ _ fun t v label out hstep => (Peer.applied_of_step hstep s).1,
    happend _ _ fun t v label out hstep => (Peer.applied_of_step hstep s).2⟩

/-! ## What is produced -/

/-- What the peer connection of an entry of a game server has produced. -/
def producedFor (s : Conn) (key : PeerID) (h : List Event) : List Json :=
  (peerHistory s h).filterMap fun
    | .server (.sent key' data) => if key' = key then some data else none
    | _ => none

/-- What the peer connection of a client has produced. -/
def producedBy (s : Conn) (h : List Event) : List Json :=
  (peerHistory s h).filterMap fun
    | .client (.sent data) => some data
    | _ => none

/-- An event that writes a message writes a frame with it. -/
theorem packet_of_messageOf {e : PeerEvent} {msg : Message}
    (hframe : e.messageOf = some msg) : e.packet = some (.frame (some msg)) := by
  rcases Option.bind_eq_some_iff.mp hframe with ⟨p, hp, hmsg⟩
  cases p with
  | frame msg' =>
      rw [Packet.messageOf] at hmsg
      rw [hp, hmsg]
  | _ => cases hmsg

/-- What was applied is part of what was produced under some key, each at most once and in the
same order. -/
def InOrder (key : PeerID) (produced : List Json) (applied : List Remote) : Prop :=
  ∃ negotiations : List Negotiation, (∀ n ∈ negotiations, n.WellFormed) ∧
    List.Sublist (negotiations.map (Negotiation.message key)) produced ∧
    List.Sublist applied (negotiations.map fun n => n.remote.2)

/-- More may be produced, and less applied. -/
theorem InOrder.of_sublist {key : PeerID} {produced produced' : List Json}
    {applied applied' : List Remote} (horder : InOrder key produced applied)
    (hproduced : List.Sublist produced produced') (happlied : List.Sublist applied' applied) :
    InOrder key produced' applied' := by
  rcases horder with ⟨ns, hwell, hns, happlied'⟩
  exact ⟨ns, hwell, hns.trans hproduced, happlied.trans happlied'⟩

/-- One more message, of which nothing or all is applied. -/
theorem InOrder.cons {key : PeerID} {negotiation : Negotiation} {produced : List Json}
    {applied : List Remote} {remote : Option Remote} (hwell : negotiation.WellFormed)
    (hremote : List.Sublist remote.toList [negotiation.remote.2])
    (horder : InOrder key produced applied) :
    InOrder key (negotiation.message key :: produced) (remote.toList ++ applied) := by
  rcases horder with ⟨ns, hwell', hns, happlied⟩
  exact ⟨negotiation :: ns, List.forall_mem_cons.mpr ⟨hwell, hwell'⟩, hns.cons_cons _,
    hremote.append happlied⟩

/-- A relayed negotiation brings what was produced, or nothing that can be read. -/
theorem remoteOf_relayed {negotiation : Negotiation} (hwell : negotiation.WellFormed)
    (localID id : PeerID) :
    List.Sublist (remoteOf (negotiation.relayed localID id)).toList [negotiation.remote.2] := by
  rw [remoteOf, Negotiation.readHeader_relayed hwell]
  dsimp only
  split
  · exact List.nil_sublist _
  · rename_i remote hremote
    cases remote with
    | none => exact List.nil_sublist _
    | some remote =>
        rw [Negotiation.remote_of_readRemote hwell hremote]
        exact List.Sublist.refl _

/-- Messages among the frames of a program that bring nothing but what a peer connection has
produced bring it in the order in which it was produced. -/
theorem inOrder_of_sublist {es : List PeerEvent} {φ : PeerEvent → Option Json}
    {msgs : List Message} {localID key : PeerID}
    (hmsgs : List.Sublist msgs (es.filterMap PeerEvent.messageOf))
    (hcause : ∀ e ∈ es, ∀ msg ∈ msgs, e.packet = some (.frame (some msg)) →
      remoteOf (Relay.relayAs (Decimal.toString localID) msg) = none ∨
        ∃ negotiation : Negotiation, negotiation.WellFormed ∧
          φ e = some (negotiation.message key) ∧ msg = negotiation.decoded key) :
    InOrder key (es.filterMap φ)
      ((msgs.map (Relay.relayAs (Decimal.toString localID))).filterMap remoteOf) := by
  induction es generalizing msgs with
  | nil =>
      cases List.sublist_nil.mp hmsgs
      exact ⟨[], by simp, List.nil_sublist _, List.nil_sublist _⟩
  | cons e es ih =>
      have hskip : List.Sublist (es.filterMap φ) ((e :: es).filterMap φ) :=
        (List.sublist_cons_self e es).filterMap φ
      have hcause' : ∀ e' ∈ es, ∀ msg ∈ msgs, e'.packet = some (.frame (some msg)) →
          remoteOf (Relay.relayAs (Decimal.toString localID) msg) = none ∨
            ∃ negotiation : Negotiation, negotiation.WellFormed ∧
              φ e' = some (negotiation.message key) ∧ msg = negotiation.decoded key :=
        fun e' he' => hcause e' (List.mem_cons_of_mem e he')
      cases hframe : e.messageOf with
      | none =>
          rw [List.filterMap_cons_none hframe] at hmsgs
          exact (ih hmsgs hcause').of_sublist hskip (List.Sublist.refl _)
      | some msg =>
          rw [List.filterMap_cons_some hframe] at hmsgs
          cases hmsgs with
          | cons _ hmsgs => exact (ih hmsgs hcause').of_sublist hskip (List.Sublist.refl _)
          | @cons_cons msgs _ _ hmsgs =>
              have hrest := ih hmsgs fun e' he' msg' hmsg' =>
                hcause' e' he' msg' (List.mem_cons_of_mem msg hmsg')
              rcases hcause e List.mem_cons_self msg List.mem_cons_self
                (packet_of_messageOf hframe) with hnone | ⟨n, hn, hφ, rfl⟩
              · rw [List.map_cons, List.filterMap_cons_none hnone]
                exact hrest.of_sublist hskip (List.Sublist.refl _)
              · have hsplit : ∀ (data : Json) (rest : List Json),
                    (data :: rest).filterMap remoteOf =
                      (remoteOf data).toList ++ rest.filterMap remoteOf := by
                  intro data rest
                  cases hdata : remoteOf data <;> simp [hdata]
                rw [List.filterMap_cons_some hφ, List.map_cons, hsplit]
                exact hrest.cons hn (remoteOf_relayed hn localID key)

/-! ## From peer connection to peer connection -/

/-- What a client applies. -/
def appliedBy (c : Conn) (h : List Event) : List Remote :=
  (peerHistory c h).filterMap Peer.appliedByClient

/-- What a game server applies for messages of a client. -/
def appliedFrom (s g : Conn) (h : List Event) : List Remote :=
  (peerHistory g h).filterMap (Peer.appliedFrom s)

/-- A message of some sender that has come out of a websocket was handed over by the relay. -/
theorem delivered_of_takenFrom {data : Json}
    (hrun : system.run (start maxConns programs) labels = some (u, h))
    (htaken : .text s data ∈ takenFrom (.toPeer d) h) : ofRelay (.delivered s d data) ∈ h := by
  rcases List.mem_filterMap.mp htaken with ⟨e, he, htext⟩
  cases e with
  | own e => cases htext
  | taken k p =>
      simp only [WiredEvent.takenOf, Option.ite_none_right_eq_some, Option.some.injEq] at htext
      rcases htext with ⟨rfl, rfl⟩
      rcases List.append_of_mem he with ⟨a, b, rfl⟩
      have hsent := System.exists_sends_of_taken (fun _ => rfl) hrun
      exact List.mem_append_left _ (delivered_of_sends hsent)

/-- What arrives from a connection whose program writes under one id brings, in order, what its
peer connection has produced. -/
theorem inOrder_of_arrived {φ : PeerEvent → Option Json} {localID key : PeerID}
    (hfifo : FirstInFirstOut labels)
    (hrun : system.run (start maxConns programs) labels = some (u, h))
    (hid : ∀ i, ofRelay (.opened s i) ∈ h → i = Decimal.toString localID)
    (hcause : ∀ e ∈ peerHistory s h, ∀ msg, e.packet = some (.frame (some msg)) →
      Relay.Targets (relayHistory h) (Decimal.toString localID) d msg →
      remoteOf (Relay.relayAs (Decimal.toString localID) msg) = none ∨
        ∃ negotiation : Negotiation, negotiation.WellFormed ∧
          φ e = some (negotiation.message key) ∧ msg = negotiation.decoded key) :
    InOrder key ((peerHistory s h).filterMap φ) ((arrived s d h).filterMap remoteOf) := by
  rcases handed_eq_map hfifo hrun s d with ⟨id, msgs, hsublist, hhanded, htargets⟩
  have hsame : msgs.map (Relay.relayAs id) =
      msgs.map (Relay.relayAs (Decimal.toString localID)) :=
    List.map_congr_left fun msg hmsg => by rw [hid id (htargets msg hmsg).1]
  rw [← arrived_append_pending hfifo hrun, hsame] at hhanded
  have horder : InOrder key ((peerHistory s h).filterMap φ)
      ((msgs.map (Relay.relayAs (Decimal.toString localID))).filterMap remoteOf) := by
    refine inOrder_of_sublist hsublist fun e he msg hmsg hframe => ?_
    rcases htargets msg hmsg with ⟨hopened, htarget⟩
    exact hcause e he msg hframe (hid id hopened ▸ htarget)
  refine horder.of_sublist (List.Sublist.refl _) ?_
  rw [← hhanded, List.filterMap_append]
  exact List.sublist_append_left _ _

/-- A message for a numeric id goes to a connection that was opened under this id. -/
theorem opened_of_targets {i : GoString} {msg : Message} {key : PeerID}
    (hrun : system.run (start maxConns programs) labels = some (u, h))
    (htargets : Relay.Targets (relayHistory h) i d msg) (hkey : msg.id = Decimal.toString key) :
    ofRelay (.opened d (Decimal.toString key)) ∈ h := by
  rcases htargets.registered with ⟨role, hregistered⟩
  have hne : Decimal.toString key ≠ [] := Decimal.render_ne_nil key.toNat
  rw [Relay.targetOf, hkey, if_neg hne] at hregistered
  rw [← List.append_nil h] at hrun
  exact (opened_of_registered hrun (mem_relayHistory.mp hregistered)).1

/-- If the websockets keep the order of their messages, a client that gets messages of one game
server only applies, each at most once and in order, what the peer connection of its entry there
has produced. -/
theorem appliedBy_sublist (hfifo : FirstInFirstOut labels)
    (hrun : system.run (start maxConns programs) labels = some (u, h))
    (hclient : programs c = .client) (hserver : programs s = .server)
    (honly : ∀ s' i, ofRelay (.registered s' i roleServer) ∈ h → s' = s) :
    ∃ localID, (∀ path, ofPeer c (.dialled path) ∈ h → path = connectPath localID) ∧
      InOrder localID (producedFor s localID h) (appliedBy c h) := by
  have hwhole : system.run (start maxConns programs) labels = some (u, h ++ []) := by
    rw [List.append_nil]
    exact hrun
  rcases exists_peer_run hrun c with ⟨ls, hpeer⟩
  rw [hclient] at hpeer
  rcases Peer.client_of_reachable hpeer with ⟨t, _, hjoins⟩
  have hpath : ∀ path, ofPeer c (.dialled path) ∈ h → path = connectPath t.localID :=
    fun path hdialled => (hjoins.path path (mem_peerHistory.mpr hdialled)).1
  refine ⟨t.localID, hpath, ?_⟩
  have horder : InOrder t.localID (producedFor s t.localID h)
      ((arrived s c h).filterMap remoteOf) := by
    refine inOrder_of_arrived hfifo hrun (fun i hopened => id_of_server hwhole hserver hopened) ?_
    intro e he msg hframe htargets
    rcases exists_peer_run_split hwhole (mem_peerHistory.mp he) with ⟨x, y, ls, v, z, _, hsender⟩
    rw [hserver] at hsender
    rcases Peer.sent_of_frame hsender hframe htargets.relayed with
      ⟨key, negotiation, rfl, hwell, rfl, _⟩
    have hopened := opened_of_targets hrun htargets (negotiation.id_decoded key)
    rcases id_of_client hwhole hclient hopened with ⟨localID, hkey, hdialled⟩
    have hsame : connectPath localID = connectPath t.localID :=
      hpath _ ((hdialled (connectPath localID)).mpr rfl)
    rw [connectPath, connectPath, List.append_cancel_left_eq, ← hkey] at hsame
    cases Decimal.toString_inj.mp hsame
    exact Or.inr ⟨negotiation, hwell, by simp, rfl⟩
  refine horder.of_sublist (List.Sublist.refl _) ?_
  have hbrought : (takenFrom (.toPeer c) h).filterMap Peer.broughtToClient =
      (arrived s c h).filterMap remoteOf := by
    rw [arrived, List.filterMap_filterMap]
    refine List.filterMap_congr fun p hp => ?_
    cases p with
    | text s' data =>
        rcases exists_routed hwhole (delivered_of_takenFrom hrun hp) with ⟨i, msg, hrouted⟩
        have hs : s' = s := honly s' i (registered_of_routed hwhole hclient hrouted)
        simp [Peer.broughtToClient, Packet.textOf, hs]
    | _ => rfl
  rw [← hbrought]
  exact (applied_sublist_taken hrun s c).1

/-- The client applies the offer. -/
theorem appliedBy_sublist_offer :
    ∃ u h, system.run (start 0 meeting) offerLabels = some (u, h) ∧
      appliedBy 1 h = [serverOffers.remote.2] ∧
      ∃ localID, InOrder localID (producedFor 0 localID h) (appliedBy 1 h) := by
  rcases run_offerLabels with ⟨u, hrun⟩
  have honly : ∀ s' i, ofRelay (.registered s' i roleServer) ∈
      offerHistory ++ ofPeer 1 (.client (.created 12345)) ::
        [ofPeer 1 (.client (.applied 12345 serverOffers.remote.2))] → s' = 0 := by
    intro s' i hregistered
    have hroles : roleServer ≠ roleClient := by decide
    have hserver : s' = 0 ∧ i = goString "12345" := by
      simpa [offerHistory, joinHistory, hroles] using hregistered
    exact hserver.1
  rcases appliedBy_sublist (c := 1) (s := 0) firstInFirstOut_offerLabels hrun rfl rfl honly with
    ⟨localID, _, horder⟩
  exact ⟨u, _, hrun, rfl, localID, horder⟩

/-- If the websockets keep the order of their messages, a game server applies for the messages of
a client, each at most once and in order, what this client's peer connection has produced. -/
theorem appliedFrom_sublist (hfifo : FirstInFirstOut labels)
    (hrun : system.run (start maxConns programs) labels = some (u, h))
    (hserver : programs g = .server) (hclient : programs s = .client) :
    InOrder 12345 (producedBy s h) (appliedFrom s g h) := by
  have hwhole : system.run (start maxConns programs) labels = some (u, h ++ []) := by
    rw [List.append_nil]
    exact hrun
  rcases exists_peer_run hrun s with ⟨ls, hpeer⟩
  rw [hclient] at hpeer
  rcases Peer.client_of_reachable hpeer with ⟨t, _, hjoins⟩
  have hid : ∀ i, ofRelay (.opened s i) ∈ h → i = Decimal.toString t.localID := by
    intro i hopened
    rcases exists_dialled hwhole hopened with ⟨path, rfl, hdialled⟩
    rw [(hjoins.path path (mem_peerHistory.mpr hdialled)).1, trimConnect_connectPath]
  have horder : InOrder 12345 (producedBy s h) ((arrived s g h).filterMap remoteOf) := by
    refine inOrder_of_arrived hfifo hrun hid fun e he msg hframe htargets => ?_
    -- the target is the game server, which is registered under its only id
    have htarget : ∀ key, msg.id = Decimal.toString key → key = 12345 := fun key hkey =>
      Decimal.toString_inj.mp (id_of_server hwhole hserver (opened_of_targets hrun htargets hkey))
    rcases exists_peer_run_split hwhole (mem_peerHistory.mp he) with ⟨x, y, ls, v, z, _, hsender⟩
    rw [hclient] at hsender
    rcases Peer.frame_cases hsender hframe with ⟨hregister, _⟩ | ⟨serverID, rfl, rfl⟩ |
      ⟨key, negotiation, rfl, hwell, rfl, _⟩
    · exact absurd hregister htargets.relayed
    · refine Or.inl ?_
      have hjoin : Relay.relayAs (Decimal.toString t.localID)
          { id := Decimal.toString serverID, type := msgTypeJoin, role := roleClient } =
            relayedJoin t.localID := rfl
      rw [hjoin, remoteOf, readHeader_relayedJoin]
      dsimp only
      rw [NetworkClient.readRemote_join]
    · cases htarget key (negotiation.id_decoded key)
      exact Or.inr ⟨negotiation, hwell, rfl, rfl⟩
  refine horder.of_sublist (List.Sublist.refl _) ?_
  have hbrought : (takenFrom (.toPeer g) h).filterMap (Peer.broughtFrom s) =
      (arrived s g h).filterMap remoteOf := by
    rw [arrived, List.filterMap_filterMap]
    refine List.filterMap_congr fun p _ => ?_
    cases p with
    | text s' data => by_cases hs : s' = s <;> simp [Peer.broughtFrom, Packet.textOf, hs]
    | _ => rfl
  rw [← hbrought]
  exact (applied_sublist_taken hrun s g).2

/-- The answer of the client. -/
def clientAnswers : Negotiation := .localDescription msgTypeAnswer (goString "v=1")

/-- The client answers, and the answer arrives. -/
def answerLabels : List Label :=
  offerLabels ++ [.own (.inl (.handler 1 (.wrote .ok))),
    .own (.inr (1, .negotiate 0 clientAnswers)), read 1, advance 1, advance 1, advance 1,
    .take (.toPeer 0) 0 (some true)]

theorem firstInFirstOut_answerLabels : FirstInFirstOut answerLabels := by
  intro k i x htake
  rcases List.mem_append.mp htake with hoffer | hanswer
  · exact firstInFirstOut_offerLabels k i x hoffer
  · simp only [read, advance, List.mem_cons, List.not_mem_nil, WiredLabel.take.injEq,
      reduceCtorEq, or_false, false_or] at hanswer
    rcases hanswer with h | h <;> exact h.2.1

/-- The game server applies the answer. -/
theorem appliedFrom_sublist_answer :
    ∃ u h, system.run (start 0 meeting) answerLabels = some (u, h) ∧
      appliedFrom 1 0 h = [.description (goString "v=1") msgTypeAnswer] ∧
      InOrder 12345 (producedBy 1 h) (appliedFrom 1 0 h) := by
  have hrun : ∃ u h, system.run (start 0 meeting) answerLabels = some (u, h) ∧
      appliedFrom 1 0 h = [.description (goString "v=1") msgTypeAnswer] := ⟨_, _, rfl, rfl⟩
  rcases hrun with ⟨u, h, hrun, happlied⟩
  exact ⟨u, h, hrun, happlied, appliedFrom_sublist firstInFirstOut_answerLabels hrun rfl rfl⟩

end Deployment

end GameFramework
