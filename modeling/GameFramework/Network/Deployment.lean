import GameFramework.Lib.Wiring
import GameFramework.Network.Peer
import GameFramework.Signalling.Provenance

/-!
# The signalling server with the programs around it

The relay, and a program behind every connection, joined by one channel in each direction
for every connection.  All parties step in any order, and a message may be lost on its way
from the relay.  That a websocket keeps the order of its messages is a condition on runs,
{lit}`FirstInFirstOut`, which the results about order name.

A frame is taken whole: one that the relay hands over while another handler writes to the same
connection arrives as it was handed over, or not at all.

Main results:

- Theorems {lit}`Deployment.exists_relay_run` and {lit}`Deployment.exists_peer_run`: the relay and
  every program run as they do alone.
- Theorem {lit}`Deployment.step_cases`: a step is one of the relay or of a program.
- Theorems {lit}`Deployment.exists_relay_step` and {lit}`Deployment.exists_peer_step`: the step
  behind an event, and what the party at the other end had done before.
- Theorems {lit}`Deployment.id_of_server`, {lit}`Deployment.id_of_client` and
  {lit}`Deployment.role_of_client`: under which ids and roles game programs are registered.
-/

namespace GameFramework

open Labelled

/-- The two directions of a websocket. -/
inductive Socket where
  | toRelay (c : Conn)
  | toPeer (c : Conn)
  deriving DecidableEq

namespace Deployment

/-- The labels of the parties. -/
abbrev PartyLabel := RelayLabel ⊕ Conn × PeerLabel

/-- The events of the parties. -/
abbrev PartyEvent := RelayEvent ⊕ Conn × PeerEvent

/-- The relay writes to the peers and the peers to the relay.  A message for a peer arrives and
is taken or refused by its peer connection, or it is lost. -/
def wiring : Wiring PartyLabel PartyEvent Socket Packet (Option Bool) where
  sends
    | .inl (.delivered s d data) => some (.toPeer d, .text s data)
    | .inl _ => none
    | .inr (c, e) => e.packet.map fun packet => (.toRelay c, packet)
  free
    | .inl (.accept _ _) | .inl (.handler _ (.frame _)) => false
    | .inr (_, .receive _ _ _) | .inr (_, .lose) => false
    | _ => true
  label
    | .toRelay c, .dial path, _ => some (.inl (.accept c path))
    | .toRelay c, .frame msg, _ => some (.inl (.handler c (.frame msg)))
    | .toPeer c, .text s data, some taken => some (.inr (c, .receive s data taken))
    | .toPeer c, .text _ _, none => some (.inr (c, .lose))
    | _, _, _ => none

/-- The relay and the programs. -/
def parties : System (Relay × (Conn → Peer)) PartyLabel PartyEvent :=
  Relay.system.parallel (Peer.system.family Conn)

/-- The relay and the programs, joined by their websockets. -/
def system : System ((Relay × (Conn → Peer)) × (Socket → List Packet))
    (WiredLabel PartyLabel Socket (Option Bool)) (WiredEvent PartyEvent Socket Packet) :=
  parties.wired wiring

abbrev State := (Relay × (Conn → Peer)) × (Socket → List Packet)

abbrev Label := WiredLabel PartyLabel Socket (Option Bool)

abbrev Event := WiredEvent PartyEvent Socket Packet

/-- Nothing has happened yet. -/
def start (maxConns : Int) (programs : Conn → Program) : State :=
  ((Relay.init maxConns, fun c => (programs c).start), fun _ => [])

/-- An event of the relay. -/
abbrev ofRelay (e : RelayEvent) : Event := .own (.inl e)

/-- An event of the program behind a connection. -/
abbrev ofPeer (c : Conn) (e : PeerEvent) : Event := .own (.inr (c, e))

/-- The relay's part of a history. -/
def relayHistory (h : List Event) : List RelayEvent :=
  (h.filterMap WiredEvent.ownOf).filterMap Sum.getLeft?

/-- The part of a history of the program behind a connection. -/
def peerHistory (c : Conn) (h : List Event) : List PeerEvent :=
  ((h.filterMap WiredEvent.ownOf).filterMap Sum.getRight?).filterMap (System.ofMember c)

variable {maxConns : Int} {programs : Conn → Program} {labels : List Label} {u : State}
  {a b h : List Event} {c : Conn}

/-- The relay's part has the events of the relay. -/
theorem mem_relayHistory {e : RelayEvent} : e ∈ relayHistory h ↔ ofRelay e ∈ h := by
  simp only [relayHistory, List.mem_filterMap]
  constructor
  · rintro ⟨e₁, ⟨e₂, he₂, hown⟩, hleft⟩
    rw [Sum.getLeft?_eq_some_iff] at hleft
    subst hleft
    cases e₂ with
    | own e₃ =>
        cases hown
        exact he₂
    | taken k p => cases hown
  · intro he
    exact ⟨.inl e, ⟨ofRelay e, he, rfl⟩, rfl⟩

/-- The part of a program has the events of this program. -/
theorem mem_peerHistory {e : PeerEvent} : e ∈ peerHistory c h ↔ ofPeer c e ∈ h := by
  simp only [peerHistory, List.mem_filterMap]
  constructor
  · rintro ⟨⟨c', e₁⟩, ⟨e₂, ⟨e₃, he₃, hown⟩, hright⟩, hmember⟩
    rw [Sum.getRight?_eq_some_iff] at hright
    subst hright
    simp only [System.ofMember, Option.ite_none_right_eq_some, Option.some.injEq] at hmember
    rcases hmember with ⟨rfl, rfl⟩
    cases e₃ with
    | own e₄ =>
        cases hown
        exact he₃
    | taken k p => cases hown
  · intro he
    exact ⟨(c, e), ⟨.inr (c, e), ⟨ofPeer c e, he, rfl⟩, rfl⟩, by simp [System.ofMember]⟩

/-- An event of the relay splits the relay's part. -/
theorem relayHistory_split (e : RelayEvent) :
    relayHistory (a ++ ofRelay e :: b) = relayHistory a ++ e :: relayHistory b := by
  simp [relayHistory, WiredEvent.ownOf]

/-- An event of a program splits the part of this program. -/
theorem peerHistory_split (e : PeerEvent) :
    peerHistory c (a ++ ofPeer c e :: b) = peerHistory c a ++ e :: peerHistory c b := by
  simp [peerHistory, WiredEvent.ownOf, System.ofMember]

theorem relayHistory_append : relayHistory (a ++ b) = relayHistory a ++ relayHistory b := by
  simp [relayHistory]

theorem peerHistory_append : peerHistory c (a ++ b) = peerHistory c a ++ peerHistory c b := by
  simp [peerHistory]

/-- A step of the relay is in its own part of the history only. -/
theorem relayHistory_map_ofRelay (out : List RelayEvent) :
    relayHistory (out.map ofRelay) = out := by
  induction out with
  | nil => rfl
  | cons e out ih =>
      rw [List.map_cons, ← List.nil_append (ofRelay e :: _), relayHistory_split, ih]
      rfl

theorem peerHistory_map_ofRelay (c : Conn) (out : List RelayEvent) :
    peerHistory c (out.map ofRelay) = [] := by
  induction out with
  | nil => rfl
  | cons e out ih => exact ih

/-- So is a step of a program. -/
theorem relayHistory_map_ofPeer (c : Conn) (out : List PeerEvent) :
    relayHistory (out.map (ofPeer c)) = [] := by
  induction out with
  | nil => rfl
  | cons e out ih => exact ih

theorem peerHistory_map_ofPeer (c c' : Conn) (out : List PeerEvent) :
    peerHistory c (out.map (ofPeer c')) = if c' = c then out else [] := by
  induction out with
  | nil => split <;> rfl
  | cons e out ih =>
      by_cases hc : c' = c
      · subst hc
        rw [List.map_cons, ← List.nil_append (ofPeer c' e :: _), peerHistory_split, ih]
        simp [peerHistory]
      · rw [if_neg hc] at ih ⊢
        rw [← ih]
        simp [peerHistory, WiredEvent.ownOf, System.ofMember, hc]

/-- The relay runs in every run of the whole. -/
theorem exists_relay_run (hrun : system.run (start maxConns programs) labels = some (u, h)) :
    ∃ ls, Relay.system.run (Relay.init maxConns) ls = some (u.1.1, relayHistory h) := by
  rcases System.exists_run_own hrun with ⟨ls, hparties⟩
  exact System.exists_run_left Relay.system (Peer.system.family Conn) hparties

/-- So does every program. -/
theorem exists_peer_run (hrun : system.run (start maxConns programs) labels = some (u, h))
    (c : Conn) :
    ∃ ls, Peer.system.run (programs c).start ls = some (u.1.2 c, peerHistory c h) := by
  rcases System.exists_run_own hrun with ⟨ls, hparties⟩
  rcases System.exists_run_right Relay.system (Peer.system.family Conn) hparties with ⟨ls', hfamily⟩
  exact System.exists_run_member Peer.system c hfamily

/-! ## What the other end has done -/

/-- What was put on a channel by the events of a history. -/
theorem exists_sends (hrun : system.run (start maxConns programs) labels = some (u, h))
    {k : Socket} {p : Packet} (hp : p ∈ u.2 k) :
    ∃ e, WiredEvent.own e ∈ h ∧ wiring.sends e = some (k, p) :=
  System.exists_sends_of_mem_queue (fun _ => rfl) hrun hp

/-- What a program must have written when the relay takes a label. -/
def Written (h : List Event) : RelayLabel → Prop
  | .accept c path => ofPeer c (.dialled path) ∈ h
  | .handler c (.frame msg) => ∃ e, ofPeer c e ∈ h ∧ e.packet = some (.frame msg)
  | _ => True

/-- What the relay must have delivered when a program takes a label. -/
def Delivered (h : List Event) (c : Conn) : PeerLabel → Prop
  | .receive s data _ => ofRelay (.delivered s c data) ∈ h
  | _ => True

/-- What was put on a websocket to the relay its program has written. -/
theorem exists_peer_of_sends {p : Packet}
    (h : ∃ e, WiredEvent.own e ∈ a ∧ wiring.sends e = some (.toRelay c, p)) :
    ∃ e, ofPeer c e ∈ a ∧ e.packet = some p := by
  rcases h with ⟨e | ⟨c', e⟩, he, hsends⟩
  · cases e <;> cases hsends
  · rcases Option.map_eq_some_iff.mp hsends with ⟨p', hp', heq⟩
    cases heq
    exact ⟨e, he, hp'⟩

/-- What was put on a websocket to a program the relay has handed over. -/
theorem delivered_of_sends {s : Conn} {data : Json}
    (h : ∃ e, WiredEvent.own e ∈ a ∧ wiring.sends e = some (.toPeer c, .text s data)) :
    ofRelay (.delivered s c data) ∈ a := by
  rcases h with ⟨e | ⟨c', e⟩, he, hsends⟩
  · cases e with
    | delivered s' d data' =>
        cases hsends
        exact he
    | _ => cases hsends
  · rcases Option.map_eq_some_iff.mp hsends with ⟨p', _, heq⟩
    cases heq

/-- Only an opening of a websocket asks the relay to accept one. -/
theorem packet_eq_dial {e : PeerEvent} {path : GoString} (hpacket : e.packet = some (.dial path)) :
    e = .dialled path := by
  cases e with
  | dialled path' =>
      cases hpacket
      rfl
  | server e => cases e <;> cases hpacket
  | client e => cases e <;> cases hpacket
  | wrote frame => cases hpacket

/-- The steps: one of the relay or of a program, with what it takes from a websocket. -/
inductive StepCase (t v : State) : List Event → Prop
  | relay (label : RelayLabel) (out : List RelayEvent) (hfree : wiring.free (.inl label) = true)
      (hstep : t.1.1.step label = some (v.1.1, out)) : StepCase t v (out.map ofRelay)
  | accepted (c : Conn) (path : GoString) (out : List RelayEvent)
      (hhead : .dial path ∈ t.2 (.toRelay c))
      (hstep : t.1.1.step (.accept c path) = some (v.1.1, out)) :
      StepCase t v (.taken (.toRelay c) (.dial path) :: out.map ofRelay)
  | framed (c : Conn) (msg : Option Message) (out : List RelayEvent)
      (hhead : .frame msg ∈ t.2 (.toRelay c))
      (hstep : t.1.1.step (.handler c (.frame msg)) = some (v.1.1, out)) :
      StepCase t v (.taken (.toRelay c) (.frame msg) :: out.map ofRelay)
  | peer (c : Conn) (label : PeerLabel) (out : List PeerEvent)
      (hfree : wiring.free (.inr (c, label)) = true)
      (hstep : (t.1.2 c).step label = some (v.1.2 c, out)) : StepCase t v (out.map (ofPeer c))
  | arrived (c s : Conn) (data : Json) (taken : Bool) (out : List PeerEvent)
      (hhead : .text s data ∈ t.2 (.toPeer c))
      (hstep : (t.1.2 c).step (.receive s data taken) = some (v.1.2 c, out)) :
      StepCase t v (.taken (.toPeer c) (.text s data) :: out.map (ofPeer c))
  | lost (c s : Conn) (data : Json) (hhead : .text s data ∈ t.2 (.toPeer c)) :
      StepCase t v [.taken (.toPeer c) (.text s data)]

/-- A step of the parties is one of the relay or of one program. -/
theorem parties_cases {p q : Relay × (Conn → Peer)} {label : PartyLabel} {out : List PartyEvent}
    (hstep : parties.step p label = some (q, out)) :
    (∃ l out', label = .inl l ∧ p.1.step l = some (q.1, out') ∧ out = out'.map .inl) ∨
      ∃ c l out', label = .inr (c, l) ∧ (p.2 c).step l = some (q.2 c, out') ∧
        out = out'.map fun e => .inr (c, e) := by
  cases label with
  | inl l =>
      rcases System.step_parallel_inl hstep with ⟨out', hl, _, rfl⟩
      exact Or.inl ⟨l, out', rfl, hl, rfl⟩
  | inr l =>
      rcases System.step_parallel_inr hstep with ⟨out', hl, _, rfl⟩
      rcases System.step_family hl with ⟨v, out'', hl', hv, rfl⟩
      refine Or.inr ⟨l.1, l.2, out'', rfl, ?_, ?_⟩
      · rw [hv, Function.update_self]
        exact hl'
      · simp [List.map_map, Function.comp_def]

/-- A step of the whole is one of the relay or of a program, with what it takes. -/
theorem step_cases {t v : State} {label : Label} {out : List Event}
    (hstep : system.step t label = some (v, out)) : StepCase t v out := by
  cases System.wiredStep_of_step hstep with
  | own label out hfree hl hqueue =>
      rcases parties_cases hl with ⟨l, out', rfl, hl', rfl⟩ | ⟨c, l, out', rfl, hl', rfl⟩
      · rw [List.map_map]
        exact .relay l out' hfree hl'
      · rw [List.map_map]
        exact .peer c l out' hfree hl'
  | take k i x p label out hnext hlabel hl hqueue =>
      have hmem : p ∈ t.2 k := List.mem_of_getElem? hnext
      rcases parties_cases hl with ⟨l, out', rfl, hl', rfl⟩ | ⟨c, l, out', rfl, hl', rfl⟩
      · rw [List.map_map]
        cases k with
        | toPeer c =>
            cases p with
            | text s data => cases x <;> cases hlabel
            | _ => cases hlabel
        | toRelay c =>
            cases p with
            | dial path =>
                cases hlabel
                exact .accepted c path out' hmem hl'
            | frame msg =>
                cases hlabel
                exact .framed c msg out' hmem hl'
            | text s data => cases hlabel
      · rw [List.map_map]
        cases k with
        | toRelay c' =>
            cases p with
            | text s data => cases hlabel
            | _ => cases hlabel
        | toPeer c' =>
            cases p with
            | text s data =>
                cases x with
                | none =>
                    cases hlabel
                    rw [Peer.step_lose, Option.some.injEq, Prod.mk.injEq] at hl'
                    rw [← hl'.2]
                    exact .lost c s data hmem
                | some taken =>
                    cases hlabel
                    exact .arrived c s data taken out' hmem hl'
            | _ => cases hlabel

/-- The step of the relay behind one of its events. -/
theorem exists_relay_step {e : RelayEvent}
    (hrun : system.run (start maxConns programs) labels = some (u, a ++ ofRelay e :: b)) :
    ∃ (t v : Relay) (label : RelayLabel) (out : List RelayEvent),
      t.step label = some (v, out) ∧ e ∈ out ∧ Written a label := by
  rcases system.exists_step_of_mem_history hrun with
    ⟨pre, label, post, t, v, h, out₁, out₂, _, hpre, hstep, rfl⟩
  have hcase : StepCase t v (out₁ ++ ofRelay e :: out₂) := step_cases hstep
  generalize hout : out₁ ++ ofRelay e :: out₂ = out at hcase
  have hmem : ofRelay e ∈ out := hout ▸ List.mem_append_right out₁ List.mem_cons_self
  cases hcase with
  | relay label out hfree hstep =>
      rcases List.mem_map.mp hmem with ⟨e', he', heq⟩
      cases heq
      refine ⟨t.1.1, v.1.1, label, out, hstep, he', ?_⟩
      unfold Written
      split
      · cases hfree
      · cases hfree
      · trivial
  | accepted c path out hhead hstep =>
      rcases List.mem_cons.mp hmem with heq | hmem
      · cases heq
      · rcases List.mem_map.mp hmem with ⟨e', he', heq⟩
        cases heq
        rcases exists_peer_of_sends (exists_sends hpre hhead) with ⟨e', hsent, hpacket⟩
        rw [packet_eq_dial hpacket] at hsent
        exact ⟨t.1.1, v.1.1, .accept c path, out, hstep, he', List.mem_append_left out₁ hsent⟩
  | framed c msg out hhead hstep =>
      rcases List.mem_cons.mp hmem with heq | hmem
      · cases heq
      · rcases List.mem_map.mp hmem with ⟨e', he', heq⟩
        cases heq
        rcases exists_peer_of_sends (exists_sends hpre hhead) with ⟨e', hsent, hpacket⟩
        exact ⟨t.1.1, v.1.1, .handler c (.frame msg), out, hstep, he', e',
          List.mem_append_left out₁ hsent, hpacket⟩
  | peer c label out hfree hstep => simp at hmem
  | arrived c s data taken out hhead hstep => simp at hmem
  | lost c s data hhead => simp at hmem

/-- The step of a program behind one of its events. -/
theorem exists_peer_step {e : PeerEvent}
    (hrun : system.run (start maxConns programs) labels = some (u, a ++ ofPeer c e :: b)) :
    ∃ (ls : List PeerLabel) (t v : Peer) (label : PeerLabel) (h out : List PeerEvent),
      Peer.system.run (programs c).start ls = some (t, h) ∧
        t.step label = some (v, out) ∧ e ∈ out ∧ Delivered a c label := by
  rcases system.exists_step_of_mem_history hrun with
    ⟨pre, label, post, t, v, h, out₁, out₂, _, hpre, hstep, rfl⟩
  rcases exists_peer_run hpre c with ⟨ls, hpeer⟩
  have hcase : StepCase t v (out₁ ++ ofPeer c e :: out₂) := step_cases hstep
  generalize hout : out₁ ++ ofPeer c e :: out₂ = out at hcase
  have hmem : ofPeer c e ∈ out := hout ▸ List.mem_append_right out₁ List.mem_cons_self
  cases hcase with
  | relay label out hfree hstep => simp at hmem
  | accepted c' path out hhead hstep => simp at hmem
  | framed c' msg out hhead hstep => simp at hmem
  | peer c' label out hfree hstep =>
      rcases List.mem_map.mp hmem with ⟨e', he', heq⟩
      cases heq
      refine ⟨ls, t.1.2 c, v.1.2 c, label, _, out, hpeer, hstep, he', ?_⟩
      unfold Delivered
      split
      · cases hfree
      · trivial
  | arrived c' s data taken out hhead hstep =>
      rcases List.mem_cons.mp hmem with heq | hmem
      · cases heq
      · rcases List.mem_map.mp hmem with ⟨e', he', heq⟩
        cases heq
        refine ⟨ls, t.1.2 c, v.1.2 c, .receive s data taken, _, out, hpeer, hstep, he', ?_⟩
        exact List.mem_append_left out₁ (delivered_of_sends (exists_sends hpre hhead))
  | lost c' s data hhead => simp at hmem

/-! ## Identities and roles -/

/-- The id of a connection is the one in the path that its program has opened. -/
theorem exists_dialled {i : GoString}
    (hrun : system.run (start maxConns programs) labels = some (u, a ++ b))
    (hopened : ofRelay (.opened c i) ∈ a) :
    ∃ path, i = trimConnect path ∧ ofPeer c (.dialled path) ∈ a := by
  rcases List.append_of_mem hopened with ⟨x, y, rfl⟩
  rw [List.append_assoc, List.cons_append] at hrun
  rcases exists_relay_step hrun with ⟨t, v, label, out, hstep, he, hwritten⟩
  rcases Relay.cause_of_mem hstep he with ⟨path, rfl, rfl⟩
  exact ⟨path, rfl, List.mem_append_left _ hwritten⟩

/-- What the relay has received its program has written. -/
theorem exists_written {msg : Message}
    (hrun : system.run (start maxConns programs) labels = some (u, a ++ b))
    (hreceived : ofRelay (.received c msg) ∈ a) :
    ∃ e, ofPeer c e ∈ a ∧ e.packet = some (.frame (some msg)) := by
  rcases List.append_of_mem hreceived with ⟨x, y, rfl⟩
  rw [List.append_assoc, List.cons_append] at hrun
  rcases exists_relay_step hrun with ⟨t, v, label, out, hstep, he, hwritten⟩
  have hlabel : label = .handler c (.frame (some msg)) := Relay.cause_of_mem hstep he
  rw [hlabel] at hwritten
  rcases hwritten with ⟨e, he, hframe⟩
  exact ⟨e, List.mem_append_left _ he, hframe⟩

/-- The run of a program up to one of its events. -/
theorem exists_peer_run_split {e : PeerEvent}
    (hrun : system.run (start maxConns programs) labels = some (u, a ++ b))
    (he : ofPeer c e ∈ a) :
    ∃ x y ls v z, a = x ++ ofPeer c e :: y ∧
      Peer.system.run (programs c).start ls = some (v, peerHistory c x ++ e :: z) := by
  rcases List.append_of_mem he with ⟨x, y, rfl⟩
  rw [List.append_assoc, List.cons_append] at hrun
  rcases exists_peer_run hrun c with ⟨ls, hpeer⟩
  rw [peerHistory_split] at hpeer
  exact ⟨x, y, ls, u.1.2 c, _, rfl, hpeer⟩

/-- The id of a game server. -/
theorem id_of_server {i : GoString}
    (hrun : system.run (start maxConns programs) labels = some (u, a ++ b))
    (hserver : programs c = .server) (hopened : ofRelay (.opened c i) ∈ a) :
    i = Decimal.toString 12345 := by
  rcases exists_dialled hrun hopened with ⟨path, rfl, hdialled⟩
  rcases exists_peer_run_split hrun hdialled with ⟨_, _, ls, v, z, _, hpeer⟩
  rw [hserver] at hpeer
  have hpath : path = connectPath 12345 := Peer.serverWrites_of_mem hpeer
  rw [hpath, trimConnect_connectPath]

/-- The id of a client: the path that it has opened names it, and it opens no other. -/
theorem id_of_client {i : GoString}
    (hrun : system.run (start maxConns programs) labels = some (u, a ++ b))
    (hclient : programs c = .client) (hopened : ofRelay (.opened c i) ∈ a) :
    ∃ localID, i = Decimal.toString localID ∧
      ∀ path, ofPeer c (.dialled path) ∈ a ↔ path = connectPath localID := by
  rcases exists_dialled hrun hopened with ⟨path, rfl, hdialled⟩
  rcases exists_peer_run hrun c with ⟨ls, hpeer⟩
  rw [hclient] at hpeer
  rcases Peer.client_of_reachable hpeer with ⟨t, _, hjoins⟩
  have hpath : ∀ path, ofPeer c (.dialled path) ∈ a → path = connectPath t.localID :=
    fun path hmem => (hjoins.path path (mem_peerHistory.mpr (List.mem_append_left _ hmem))).1
  refine ⟨t.localID, ?_, fun path' => ⟨hpath path', ?_⟩⟩
  · rw [hpath path hdialled, trimConnect_connectPath]
  · rintro rfl
    rw [← hpath path hdialled]
    exact hdialled

/-- A connection that has registered was opened under the same id, and its program has written
a register message of its role. -/
theorem opened_of_registered {i : GoString} {role : PeerRole}
    (hrun : system.run (start maxConns programs) labels = some (u, a ++ b))
    (hregistered : ofRelay (.registered c i role) ∈ a) :
    ofRelay (.opened c i) ∈ a ∧
      ∃ msg, ofRelay (.received c msg) ∈ a ∧ Relay.Registers msg role := by
  rcases List.append_of_mem hregistered with ⟨x, y, rfl⟩
  rw [List.append_assoc, List.cons_append] at hrun
  rcases exists_relay_run hrun with ⟨ls, hrelay⟩
  rw [relayHistory_split] at hrelay
  rcases Relay.opened_of_registered hrelay with ⟨hopened, msg, hreceived, hregisters⟩
  exact ⟨List.mem_append_left _ (mem_relayHistory.mp hopened), msg,
    List.mem_append_left _ (mem_relayHistory.mp hreceived), hregisters⟩

/-- A client does not register as a server. -/
theorem role_of_client {i : GoString} {role : PeerRole}
    (hrun : system.run (start maxConns programs) labels = some (u, a ++ b))
    (hclient : programs c = .client) (hregistered : ofRelay (.registered c i role) ∈ a) :
    role ≠ roleServer := by
  rcases (opened_of_registered hrun hregistered).2 with ⟨msg, hreceived, _, hrole, _⟩
  rcases exists_written hrun hreceived with ⟨e, he, hframe⟩
  rcases exists_peer_run_split hrun he with ⟨_, _, ls, v, z, _, hpeer⟩
  rw [hclient] at hpeer
  exact hrole ▸ Peer.role_of_frame hpeer hframe

end Deployment

end GameFramework
