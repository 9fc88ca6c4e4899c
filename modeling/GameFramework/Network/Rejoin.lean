import GameFramework.Network.NetworkServer

/-!
# Joining again

The message handler of the network server against the states of the peer connections.
The callback of a state change only writes to the log, so the entry of a connection that
has failed or was closed stays in the map, and the handler uses it for the next join of
its peer as it would use a live one.

Each peer connection has a number here, in the order in which they are made.  Making one
creates its data channels, which triggers one local offer.

Main results:

- Definition {lit}`ConnectionTable.Usable`: what a join shall leave behind.
- Theorem {lit}`ConnectionTable.tracked_of_reachable`: every peer has one connection at most,
  and was offered it.
- Theorem {lit}`ConnectionTable.served_iff`: every join of a run is served exactly when none of
  them meets an entry whose connection has ended.
-/

namespace GameFramework

/-- {lit}`rtc::PeerConnection::State` -/
inductive PeerConnectionState where
  | new
  | connecting
  | connected
  | disconnected
  | failed
  | closed
  deriving DecidableEq

/-- The connection will not come back. -/
def PeerConnectionState.Ended (state : PeerConnectionState) : Prop :=
  state = .failed ∨ state = .closed

/-- A network server and its peer connections. -/
structure ConnectionTable where
  server : NetworkServer
  /-- The peer and the state of each connection that was made. -/
  connections : List (PeerID × PeerConnectionState)
  /-- The number of the connection that the entry of a peer holds. -/
  held : PeerID → Option ℕ

inductive ConnectionLabel where
  /-- A message, with the offer that a new connection would generate. -/
  | message (sender : Conn) (message : Json) (taken : Bool) (sdp : StdString)
  | stateChange (connection : ℕ) (state : PeerConnectionState)

inductive ConnectionEvent where
  | server (event : NetworkServerEvent)
  /-- What the callback of a connection has done. -/
  | callback (connection : ℕ) (event : NetworkServerEvent)
  | stateChanged (key : PeerID) (connection : ℕ) (state : PeerConnectionState)

namespace ConnectionTable

/-- A server that has just been started. -/
def init : ConnectionTable where
  server := (({ NetworkServer.init with running := true }).startSignallingWebsocket true).1
  connections := []
  held _ := none

/-- The offer for a peer. -/
def offerTo (p : PeerID) (sdp : StdString) : Json :=
  Negotiation.message p (.localDescription (goString "offer") sdp)

/-- The connection of a new entry. -/
def connect (t : ConnectionTable) (key : PeerID) (pc : PeerConnection) (sdp : StdString) :
    ConnectionTable × List ConnectionEvent :=
  ({ t with
     connections := t.connections ++ [(key, .new)]
     held := Function.update t.held key (some t.connections.length) },
   (NetworkServer.negotiate key pc (.localDescription (goString "offer") sdp)).map
     (.callback t.connections.length))

/-- A step.  A closed connection does not change its state any more. -/
def step (t : ConnectionTable) :
    ConnectionLabel → Option (ConnectionTable × List ConnectionEvent)
  | .message sender message taken sdp =>
      match t.server.step (.message sender message taken) with
      | none => none
      | some (server, events) =>
          let t := { t with server := server }
          match events.findSome? NetworkServer.createdKey with
          | none => some (t, events.map .server)
          | some key =>
              match server.clients key with
              | none => some (t, events.map .server)
              | some pc =>
                  let (t, offer) := t.connect key pc sdp
                  some (t, events.map .server ++ offer)
  | .stateChange connection state =>
      match t.connections[connection]? with
      | none => none
      | some (key, old) =>
          if old = .closed then none
          else
            some ({ t with connections := t.connections.set connection (key, state) },
              [.stateChanged key connection state])

/-- The network server with its peer connections as a labelled system. -/
def system : Labelled.System ConnectionTable ConnectionLabel ConnectionEvent where
  step := step

/-! ## Usable connections -/

/-- The entry of the peer holds a connection that has ended. -/
def Stale (t : ConnectionTable) (p : PeerID) : Prop :=
  ∃ c state, t.held p = some c ∧ t.connections[c]? = some (p, state) ∧ state.Ended

/-- The entry of the peer holds a connection that has not ended and was offered to it, after
any other connection of the peer had ended. -/
def Usable (t : ConnectionTable) (h : List ConnectionEvent) (p : PeerID) : Prop :=
  t.server.clients p ≠ none ∧ ∃ c state, t.held p = some c ∧
    t.connections[c]? = some (p, state) ∧ ¬ state.Ended ∧
    ∃ pre sdp post, h = pre ++ .callback c (.sent p (offerTo p sdp)) :: post ∧
      ∀ c' state', c' ≠ c → state'.Ended → .stateChanged p c' state' ∉ post

/-- Every join of a run leaves a usable connection behind, and no step replaces a connection
that has not ended. -/
structure Served (labels : List ConnectionLabel) : Prop where
  usable : ∀ pre sender message taken sdp post p,
    labels = pre ++ .message sender message taken sdp :: post →
    readHeader message = .ok (p, goString "join") →
    ∀ v h, system.run init (pre ++ [.message sender message taken sdp]) = some (v, h) →
      v.Usable h p
  kept : ∀ pre label post, labels = pre ++ label :: post →
    ∀ t h v out, system.run init pre = some (t, h) → system.step t label = some (v, out) →
      ∀ p c, t.held p = some c → ¬ t.Stale p → v.held p = some c

/-- No join of a run meets an entry whose connection has ended. -/
def NoneStale (labels : List ConnectionLabel) : Prop :=
  ∀ pre sender message taken sdp post p,
    labels = pre ++ .message sender message taken sdp :: post →
    readHeader message = .ok (p, goString "join") →
    ∀ t h, system.run init pre = some (t, h) → ¬ t.Stale p

variable {t v : ConnectionTable} {h out : List ConnectionEvent} {p : PeerID}

/-! ## The kinds of steps -/

inductive StepCase (t v : ConnectionTable) : ConnectionLabel → List ConnectionEvent → Prop
  | kept (sender : Conn) (message : Json) (taken : Bool) (sdp : StdString)
      (events : List NetworkServerEvent) (hclients : v.server.clients = t.server.clients)
      (hconnections : v.connections = t.connections) (hheld : v.held = t.held)
      (hjoin : ∀ p, readHeader message = .ok (p, goString "join") → t.server.clients p ≠ none) :
      StepCase t v (.message sender message taken sdp) (events.map .server)
  | made (sender : Conn) (message : Json) (taken : Bool) (sdp : StdString)
      (events : List NetworkServerEvent) (key : PeerID) (hnone : t.server.clients key = none)
      (hid : readId message = .ok key)
      (hclients : v.server.clients = (t.server.createClientConnection key).clients)
      (hconnections : v.connections = t.connections ++ [(key, .new)])
      (hheld : v.held = Function.update t.held key (some t.connections.length)) :
      StepCase t v (.message sender message taken sdp)
        (events.map .server ++ [.callback t.connections.length (.sent key (offerTo key sdp))])
  | changed (c : ℕ) (key : PeerID) (old state : PeerConnectionState)
      (hconnection : t.connections[c]? = some (key, old))
      (hserver : v.server = t.server) (hheld : v.held = t.held)
      (hconnections : v.connections = t.connections.set c (key, state)) :
      StepCase t v (.stateChange c state) [.stateChanged key c state]

theorem step_cases {label : ConnectionLabel} (hstep : t.step label = some (v, out)) :
    StepCase t v label out := by
  cases label with
  | message sender message taken sdp =>
      simp only [step] at hstep
      split at hstep
      · contradiction
      · rename_i server events hserver
        have hhandled : t.server.signallingWebsocket = true ∧
            t.server.handleSignallingMessage sender message taken = (server, events) := by
          unfold NetworkServer.step at hserver
          split at hserver
          · contradiction
          · simp only at hserver
            split at hserver
            · rename_i hwebsocket
              exact ⟨hwebsocket, Option.some.inj hserver⟩
            · contradiction
        rcases hhandled with ⟨hwebsocket, hhandle⟩
        have hcreates := t.server.handle_creates sender message taken
        rw [hhandle] at hcreates
        rcases hcreates with ⟨hclients, hquiet, hjoin⟩ | ⟨key, hnone, hid, hclients, hcreated⟩
        · simp only [hquiet] at hstep
          cases hstep
          exact .kept sender message taken sdp events hclients rfl rfl hjoin
        · have hentry : server.clients key = some ⟨key, true⟩ := by
            dsimp only at hclients
            rw [hclients, NetworkServer.clients_createClientConnection_self, hwebsocket]
          simp only [hcreated, hentry] at hstep
          cases hstep
          exact .made sender message taken sdp events key hnone hid hclients rfl rfl
  | stateChange c state =>
      simp only [step] at hstep
      split at hstep
      · contradiction
      · rename_i key old hconnection
        split at hstep
        · contradiction
        · cases hstep
          exact .changed c key old state hconnection rfl rfl rfl

/-! ## One connection for each peer -/

/-- Every peer has one connection at most, which its entry holds and which it was offered. -/
structure Tracked (t : ConnectionTable) (h : List ConnectionEvent) : Prop where
  held_iff : ∀ p, t.held p = none ↔ t.server.clients p = none
  connection : ∀ p c, t.held p = some c → ∃ state, t.connections[c]? = some (p, state)
  held_of : ∀ p c state, t.connections[c]? = some (p, state) → t.held p = some c
  offered : ∀ p c, t.held p = some c → ∃ sdp, .callback c (.sent p (offerTo p sdp)) ∈ h
  changed : ∀ p c state, .stateChanged p c state ∈ h → t.held p = some c

theorem tracked_init : Tracked init [] where
  held_iff _ := ⟨fun _ => rfl, fun _ => rfl⟩
  connection p c hheld := by cases hheld
  held_of p c state hconnection := by cases hconnection
  offered p c hheld := by cases hheld
  changed p c state hmem := by cases hmem

/-- A message that makes no connection. -/
theorem Tracked.kept (htracked : Tracked t h) (hclients : v.server.clients = t.server.clients)
    (hconnections : v.connections = t.connections) (hheld : v.held = t.held)
    (events : List NetworkServerEvent) : Tracked v (h ++ events.map .server) where
  held_iff q := by rw [hheld, hclients, htracked.held_iff]
  connection q c hq := by
    rw [hconnections]
    exact htracked.connection q c (hheld ▸ hq)
  held_of q c state hq := by
    rw [hheld]
    exact htracked.held_of q c state (hconnections ▸ hq)
  offered q c hq := by
    rcases htracked.offered q c (hheld ▸ hq) with ⟨sdp, hsdp⟩
    exact ⟨sdp, List.mem_append_left _ hsdp⟩
  changed q c state hmem := by
    rw [hheld]
    exact htracked.changed q c state (by simpa using hmem)

/-- A peer without an entry holds nothing. -/
theorem Tracked.ne_of_held (htracked : Tracked t h) {key : PeerID}
    (hnone : t.server.clients key = none) {c : ℕ} (hheld : t.held p = some c) : p ≠ key := by
  rintro rfl
  rw [(htracked.held_iff p).mpr hnone] at hheld
  contradiction

/-- A message that makes a connection for a peer without an entry. -/
theorem Tracked.made (htracked : Tracked t h) {key : PeerID}
    (hnone : t.server.clients key = none)
    (hclients : v.server.clients = (t.server.createClientConnection key).clients)
    (hconnections : v.connections = t.connections ++ [(key, .new)])
    (hheld : v.held = Function.update t.held key (some t.connections.length))
    (events : List NetworkServerEvent) (sdp : StdString) :
    Tracked v (h ++ (events.map .server ++
      [.callback t.connections.length (.sent key (offerTo key sdp))])) where
  held_iff q := by
    rw [hheld, hclients, NetworkServer.createClientConnection]
    by_cases hq : q = key
    · subst hq
      simp
    · simp only [Function.update_of_ne hq]
      exact htracked.held_iff q
  connection q c hq := by
    rw [hheld] at hq
    rw [hconnections]
    by_cases hkey : q = key
    · subst hkey
      rw [Function.update_self] at hq
      cases hq
      exact ⟨.new, List.getElem?_concat_length⟩
    · rw [Function.update_of_ne hkey] at hq
      rcases htracked.connection q c hq with ⟨state, hstate⟩
      exact ⟨state, List.getElem?_append_left (List.getElem?_eq_some_iff.mp hstate).1 ▸ hstate⟩
  held_of q c state hq := by
    rw [hheld]
    rw [hconnections] at hq
    rcases Nat.lt_or_ge c t.connections.length with hc | hc
    · rw [List.getElem?_append_left hc] at hq
      have hold := htracked.held_of q c state hq
      rw [Function.update_of_ne (htracked.ne_of_held hnone hold), hold]
    · rw [List.getElem?_append_right hc, List.getElem?_singleton] at hq
      split at hq
      · rename_i hzero
        cases hq
        rw [Function.update_self, Nat.le_antisymm (Nat.sub_eq_zero_iff_le.mp hzero) hc]
      · contradiction
  offered q c hq := by
    rw [hheld] at hq
    by_cases hkey : q = key
    · subst hkey
      rw [Function.update_self] at hq
      cases hq
      exact ⟨sdp, by simp⟩
    · rw [Function.update_of_ne hkey] at hq
      rcases htracked.offered q c hq with ⟨sdp', hsdp⟩
      exact ⟨sdp', List.mem_append_left _ hsdp⟩
  changed q c state hmem := by
    have hold : .stateChanged q c state ∈ h := by simpa using hmem
    have hq := htracked.changed q c state hold
    rw [hheld, Function.update_of_ne (htracked.ne_of_held hnone hq), hq]

/-- A connection changes its state. -/
theorem Tracked.stateChange (htracked : Tracked t h) {c : ℕ} {key : PeerID}
    {old state : PeerConnectionState} (hconnection : t.connections[c]? = some (key, old))
    (hserver : v.server = t.server) (hheld : v.held = t.held)
    (hconnections : v.connections = t.connections.set c (key, state)) :
    Tracked v (h ++ [.stateChanged key c state]) where
  held_iff q := by rw [hheld, hserver, htracked.held_iff]
  connection q c' hq := by
    rcases htracked.connection q c' (hheld ▸ hq) with ⟨state', hstate'⟩
    rw [hconnections]
    by_cases hc : c = c'
    · subst hc
      rw [hconnection] at hstate'
      cases hstate'
      exact ⟨state, List.getElem?_set_self (List.getElem?_eq_some_iff.mp hconnection).1⟩
    · exact ⟨state', by rw [List.getElem?_set_ne hc, hstate']⟩
  held_of q c' state' hq := by
    rw [hheld]
    rw [hconnections] at hq
    by_cases hc : c = c'
    · subst hc
      rw [List.getElem?_set_self (List.getElem?_eq_some_iff.mp hconnection).1] at hq
      cases hq
      exact htracked.held_of key c old hconnection
    · rw [List.getElem?_set_ne hc] at hq
      exact htracked.held_of q c' state' hq
  offered q c' hq := by
    rcases htracked.offered q c' (hheld ▸ hq) with ⟨sdp, hsdp⟩
    exact ⟨sdp, List.mem_append_left _ hsdp⟩
  changed q c' state' hmem := by
    rw [hheld]
    rcases List.mem_append.mp hmem with hold | hnew
    · exact htracked.changed q c' state' hold
    · rw [List.mem_singleton, ConnectionEvent.stateChanged.injEq] at hnew
      rcases hnew with ⟨rfl, rfl, rfl⟩
      exact htracked.held_of q c' old hconnection

/-- In every run each peer has one connection at most. -/
theorem tracked_of_reachable {labels : List ConnectionLabel}
    (hrun : system.run init labels = some (t, h)) : Tracked t h := by
  refine system.run_invariant Tracked tracked_init ?_ hrun
  intro t h label v out htracked hstep
  have hcase : StepCase t v label out := step_cases hstep
  cases hcase with
  | kept sender message taken sdp events hclients hconnections hheld _ =>
      exact htracked.kept hclients hconnections hheld events
  | made sender message taken sdp events key hnone _ hclients hconnections hheld =>
      exact htracked.made hnone hclients hconnections hheld events sdp
  | changed c key old state hconnection hserver hheld hconnections =>
      exact htracked.stateChange hconnection hserver hheld hconnections

/-! ## Joins -/

/-- A peer with an entry has a usable connection exactly when the connection has not ended. -/
theorem usable_iff_not_stale (htracked : Tracked t h) (hentry : t.server.clients p ≠ none) :
    t.Usable h p ↔ ¬ t.Stale p := by
  constructor
  · rintro ⟨_, c, state, hheld, hconnection, hnot, _⟩ ⟨c', state', hheld', hconnection', hended⟩
    rw [hheld] at hheld'
    cases hheld'
    rw [hconnection] at hconnection'
    cases hconnection'
    exact hnot hended
  · intro hnot
    rcases Option.ne_none_iff_exists'.mp (fun hnone => hentry ((htracked.held_iff p).mp hnone))
      with ⟨c, hheld⟩
    rcases htracked.connection p c hheld with ⟨state, hconnection⟩
    rcases htracked.offered p c hheld with ⟨sdp, hsdp⟩
    rcases List.append_of_mem hsdp with ⟨pre, post, rfl⟩
    refine ⟨hentry, c, state, hheld, hconnection,
      fun hended => hnot ⟨c, state, hheld, hconnection, hended⟩, pre, sdp, post, rfl, ?_⟩
    intro c' state' hne _ hmem
    have hheld' := htracked.changed p c' state'
      (List.mem_append_right pre (List.mem_cons_of_mem _ hmem))
    rw [hheld] at hheld'
    exact hne (Option.some.inj hheld').symm

/-- A join finds the entry of its peer, or makes one. -/
theorem join_cases {sender : Conn} {message : Json} {taken : Bool} {sdp : StdString}
    (htracked : Tracked t h) (hjoin : readHeader message = .ok (p, goString "join"))
    (hstep : system.step t (.message sender message taken sdp) = some (v, out)) :
    v.server.clients p ≠ none ∧ (v.Stale p ↔ t.Stale p) := by
  have hcase : StepCase t v (.message sender message taken sdp) out := step_cases hstep
  cases hcase with
  | kept _ _ _ _ events hclients hconnections hheld hfound =>
      refine ⟨hclients ▸ hfound p hjoin, ?_⟩
      rw [Stale, Stale, hheld, hconnections]
  | made _ _ _ _ events key hnone hid hclients hconnections hheld =>
      have hkey : key = p := by
        have hp := (readHeader_eq_ok_iff.mp hjoin).1
        rw [hid] at hp
        exact Except.ok.inj hp
      subst hkey
      have hnew : v.held key = some t.connections.length := by
        rw [hheld, Function.update_self]
      have hfresh : v.connections[t.connections.length]? = some (key, .new) := by
        rw [hconnections]
        exact List.getElem?_concat_length
      constructor
      · rw [hclients, NetworkServer.clients_createClientConnection_self]
        exact Option.some_ne_none _
      · constructor
        · rintro ⟨c, state, hc, hconnection, hended⟩
          rw [hnew] at hc
          cases hc
          rw [hfresh] at hconnection
          cases hconnection
          rcases hended with hended | hended <;> cases hended
        · rintro ⟨c, state, hc, _, _⟩
          rw [(htracked.held_iff key).mpr hnone] at hc
          contradiction

/-- No step replaces a connection. -/
theorem held_step {label : ConnectionLabel} (htracked : Tracked t h)
    (hstep : system.step t label = some (v, out)) {c : ℕ} (hheld : t.held p = some c) :
    v.held p = some c := by
  have hcase : StepCase t v label out := step_cases hstep
  cases hcase with
  | kept _ _ _ _ _ _ _ hsame _ => rw [hsame, hheld]
  | made _ _ _ _ _ key hnone _ _ _ hnew =>
      rw [hnew, Function.update_of_ne (htracked.ne_of_held hnone hheld), hheld]
  | changed _ _ _ _ _ _ hsame _ => rw [hsame, hheld]

/-- In every run: every join leaves a usable connection behind, and no live connection is
replaced, exactly when no join meets an entry whose connection has ended. -/
theorem served_iff {labels : List ConnectionLabel}
    (hrun : system.run init labels = some (t, h)) : Served labels ↔ NoneStale labels := by
  constructor
  · intro hserved pre sender message taken sdp post p hsplit hjoin u h₁ hpre hstale
    rw [hsplit] at hrun
    rcases system.run_split_of_prefix hrun hpre with ⟨v, out, _, hstep, _, _⟩
    have hnext := system.run_concat hpre hstep
    have hfound := join_cases (tracked_of_reachable hpre) hjoin hstep
    have husable := hserved.usable pre sender message taken sdp post p hsplit hjoin v _ hnext
    exact (usable_iff_not_stale (tracked_of_reachable hnext) hfound.1).mp husable
      (hfound.2.mpr hstale)
  · intro hnone
    constructor
    · intro pre sender message taken sdp post p hsplit hjoin v h₁ hnext
      rcases system.run_append.mp hnext with ⟨u, h₂, h₃, hpre, hlast, rfl⟩
      have hstep := system.run_singleton.mp hlast
      have hfound := join_cases (tracked_of_reachable hpre) hjoin hstep
      refine (usable_iff_not_stale (tracked_of_reachable hnext) hfound.1).mpr fun hstale => ?_
      exact hnone pre sender message taken sdp post p hsplit hjoin u h₂ hpre
        (hfound.2.mp hstale)
    · intro pre label post _ u h₁ v out hpre hstep p c hheld _
      exact held_step (tracked_of_reachable hpre) hstep hheld

/-- A join as the signalling server relays it. -/
def joinFrom (id : GoString) : Json :=
  ({ id := id, type := msgTypeJoin, role := roleClient } : Message).marshal

/-- A peer joins. -/
theorem served_iff_join :
    ∃ t h, system.run init [.message 0 (joinFrom (goString "7")) true (goString "v=0")] =
        some (t, h) ∧
      Served [.message 0 (joinFrom (goString "7")) true (goString "v=0")] := by
  have hrun : system.run init [.message 0 (joinFrom (goString "7")) true (goString "v=0")] =
    some (_, _) := rfl
  refine ⟨_, _, hrun, (served_iff hrun).mpr ?_⟩
  intro pre sender message taken sdp post p hsplit _ t h hpre hstale
  have hnil : pre = [] := by
    cases pre with
    | nil => rfl
    | cons _ _ => simp at hsplit
  subst hnil
  cases hpre
  rcases hstale with ⟨c, state, hheld, _, _⟩
  cases hheld

/-- A peer joins, its connection is closed, and it joins again: nothing new is offered. -/
theorem exists_not_served :
    ∃ t h, system.run init [.message 0 (joinFrom (goString "7")) true (goString "v=0"),
        .stateChange 0 .closed,
        .message 1 (joinFrom (goString "7")) true (goString "v=0")] = some (t, h) ∧
      ¬ Served [.message 0 (joinFrom (goString "7")) true (goString "v=0"),
        .stateChange 0 .closed,
        .message 1 (joinFrom (goString "7")) true (goString "v=0")] := by
  have hrun : system.run init [.message 0 (joinFrom (goString "7")) true (goString "v=0"),
    .stateChange 0 .closed,
    .message 1 (joinFrom (goString "7")) true (goString "v=0")] = some (_, _) := rfl
  refine ⟨_, _, hrun, fun hserved => ?_⟩
  have hjoin : readHeader (joinFrom (goString "7")) = .ok (7, goString "join") := rfl
  rcases hserved.usable
    [.message 0 (joinFrom (goString "7")) true (goString "v=0"), .stateChange 0 .closed]
    1 _ true _ [] 7 rfl hjoin _ _ hrun with ⟨_, c, state, hheld, hconnection, hnot, _⟩
  have hzero : some 0 = some c := hheld
  cases hzero
  have hclosed : some ((7 : PeerID), PeerConnectionState.closed) = some (7, state) := hconnection
  cases hclosed
  exact hnot (Or.inr rfl)

end ConnectionTable

end GameFramework
