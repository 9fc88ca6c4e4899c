import GameFramework.Signalling.Delivery
import GameFramework.Signalling.Unmarshal

/-!
# Where relayed messages come from

What a history of the relay must contain before a message is delivered, and which labels
record that a connection was opened and that a message was received.  These are the facts
that a program at the other end of a websocket can rely on.

Main results:

- Theorem {lit}`Relay.cause_of_mem`: the label behind an opened connection and behind a received
  message.
- Theorem {lit}`Relay.opened_of_registered`: a registration follows the opening of its connection
  and a register message of its role.
- Theorem {lit}`Relay.routed_of_delivered`: what has happened before a delivery.
- Theorem {lit}`Relay.handed_eq_map`: what a handler hands to a connection it has read in the same
  order.
-/

namespace GameFramework

namespace Relay

variable {t v : Relay} {label : RelayLabel} {h out : List RelayEvent} {maxConns : Int}
  {labels : List RelayLabel}

/-- What the environment has done when an event is recorded. -/
def Cause (label : RelayLabel) : RelayEvent → Prop
  | .opened c i => ∃ path, label = .accept c path ∧ i = trimConnect path
  | .received c msg => label = .handler c (.frame (some msg))
  | _ => True

/-- A handler receives what its frame carries, and opens nothing. -/
theorem cause_of_handle {c : Conn} {hd : Handler} {action : Action}
    (hstep : t.handle c hd action = some (v, out)) : ∀ e ∈ out, Cause (.handler c action) e := by
  unfold handle at hstep
  split at hstep
  all_goals (repeat' split at hstep)
  all_goals first
    | contradiction
    | cases hstep
      simp [Cause]

theorem cause_of_mem {e : RelayEvent} (hstep : t.step label = some (v, out)) (he : e ∈ out) :
    Cause label e := by
  cases label with
  | accept c path =>
      simp only [step] at hstep
      split at hstep
      · cases hstep
        rw [List.mem_singleton.mp he]
        trivial
      · split at hstep
        · contradiction
        · cases hstep
          rw [List.mem_singleton.mp he]
          exact ⟨path, rfl, rfl⟩
  | handler c action =>
      simp only [step] at hstep
      split at hstep
      · contradiction
      · exact cause_of_handle hstep e he
  | shutdownLock =>
      simp only [step] at hstep
      split at hstep
      · cases hstep
        contradiction
      · contradiction
  | shutdownClose c =>
      simp only [step] at hstep
      split at hstep
      · split at hstep
        · cases hstep
          rw [List.mem_singleton.mp he]
          trivial
        · contradiction
      · contradiction
  | shutdownUnlock =>
      simp only [step] at hstep
      split at hstep
      · cases hstep
        contradiction
      · contradiction

/-- The registered owner of an id has registered it. -/
theorem registered_of_ownerOf {i : GoString} {peer : PeerInfo} (howner : ownerOf h i = some peer) :
    .registered peer.conn i peer.role ∈ h := by
  induction h using List.reverseRecOn with
  | nil => cases howner
  | append_singleton h e ih =>
      rw [ownerOf_append] at howner
      have hkept : ownerOf h i = some peer → .registered peer.conn i peer.role ∈ h ++ [e] :=
        fun hbefore => List.mem_append_left [e] (ih hbefore)
      cases e with
      | registered c j role =>
          simp only [List.foldl_cons, List.foldl_nil, record, Function.update_apply] at howner
          split at howner
          · rename_i hi
            cases howner
            rw [hi]
            exact List.mem_append_right h List.mem_cons_self
          · exact hkept howner
      | unregistered c j outcome =>
          simp only [List.foldl_cons, List.foldl_nil, record, Function.update_apply] at howner
          split at howner
          · contradiction
          · exact hkept howner
      | _ => exact hkept howner

/-- A connection that registers was opened under this id before, and has sent a register
message of this role. -/
theorem opened_of_registered {a b : List RelayEvent} {c : Conn} {i : GoString} {role : PeerRole}
    (hrun : system.run (init maxConns) labels = some (t, a ++ .registered c i role :: b)) :
    .opened c i ∈ a ∧ ∃ msg, .received c msg ∈ a ∧ Registers msg role := by
  have hpending : ∀ pre u h', system.run (init maxConns) pre = some (u, h') → Pending u h' := by
    intro pre u h' hpre
    refine system.run_invariant Pending ?_ ?_ hpre
    · intro c hd role hhandler
      cases hhandler
    · intro t h label v out hpending hstep
      exact pending_step hpending (step_cases hstep)
  rcases system.exists_step_of_mem_history hrun with
    ⟨pre, label, post, u, w, h', out₁, out₂, _, hpre, hstep, rfl⟩
  have hcase := step_cases hstep
  generalize hout : out₁ ++ .registered c i role :: out₂ = out at hcase
  have hmem : .registered c i role ∈ out := hout ▸ List.mem_append_right _ List.mem_cons_self
  rcases hcase.other c with ⟨hd', hown, _⟩ | ⟨_, hactor⟩
  · generalize hbefore : u.handlers c = before at hown
    generalize w.manager = pm' at hown
    cases hown with
    | registered hd role' pm' hphase hregister =>
        simp only [List.mem_singleton, RelayEvent.registered.injEq, true_and] at hmem
        rcases hmem with ⟨rfl, rfl⟩
        refine ⟨List.mem_append_left _ ?_, ?_⟩
        · exact ((relaying_of_reachable hpre).2.2.2 c hd.id).mpr ⟨hd, hbefore, rfl⟩
        · rcases hpending pre u h' hpre c hd role hbefore hphase with ⟨msg, hlast, hregisters⟩
          rcases hlast with ⟨x, y, rfl, _⟩
          exact ⟨msg, List.mem_append_left _ (by simp), hregisters⟩
    | moved hd phase out hmove => cases hmove <;> simp at hmem
    | _ => simp at hmem
  · exact absurd rfl (hactor _ hmem)

/-! ## Deliveries -/

/-- What has happened when the handler of one connection, with some URL id, delivers data to
another connection: it was opened and registered under its id, the other one was registered
under the id that a received message asks for, the data is that message with the id of the
sender, and one of the two is a server. -/
structure Routed (h : List RelayEvent) (s d : Conn) (data : Json) (id : GoString)
    (msg : Message) : Prop where
  opened : .opened s id ∈ h
  received : .received s msg ∈ h
  valid : validateMessageType msg.type = true
  relayed : msg.type ≠ msgTypeRegister
  data_eq : data = ({ msg with id := id } : Message).marshal
  roles : ∃ role role', .registered s id role ∈ h ∧
    .registered d (if msg.id = [] then id else msg.id) role' ∈ h ∧
      (role = roleServer ∨ role' = roleServer)

/-- A delivery is made by a handler at its write. -/
theorem exists_writing_of_delivered {a b : List RelayEvent} {s d : Conn} {data : Json}
    (hrun : system.run (init maxConns) labels = some (t, a ++ .delivered s d data :: b)) :
    ∃ pre u hd, system.run (init maxConns) pre = some (u, a) ∧ u.handlers s = some hd ∧
      hd.phase = .writing data d := by
  rcases system.exists_step_of_mem_history hrun with
    ⟨pre, label, post, u, v, h, out₁, out₂, _, hpre, hstep, rfl⟩
  have hcase := step_cases hstep
  generalize hout : out₁ ++ .delivered s d data :: out₂ = out at hcase
  have hmem : .delivered s d data ∈ out := hout ▸ List.mem_append_right _ List.mem_cons_self
  rcases hcase.other s with ⟨h', hown, _⟩ | ⟨_, hactor⟩
  · generalize hbefore : u.handlers s = before at hown
    generalize v.manager = pm' at hown
    cases hown with
    | moved hd phase out hmove =>
        cases hmove with
        | handed data' target hphase =>
            simp only [List.mem_singleton, RelayEvent.delivered.injEq, true_and] at hmem
            rcases hmem with ⟨rfl, rfl⟩
            rcases List.append_eq_singleton_iff.mp hout with ⟨rfl, _⟩ | ⟨_, hnil⟩
            case inr => contradiction
            exact ⟨pre, u, hd, by simpa using hpre, hbefore, hphase⟩
        | _ => simp at hmem
    | _ => simp at hmem
  · exact absurd rfl (hactor _ hmem)

theorem routed_of_delivered {a b : List RelayEvent} {s d : Conn} {data : Json}
    (hrun : system.run (init maxConns) labels = some (t, a ++ .delivered s d data :: b)) :
    ∃ id msg, Routed a s d data id msg := by
  rcases exists_writing_of_delivered hrun with ⟨pre, u, hd, hpre, hhandler, hphase⟩
  rcases relaying_of_reachable hpre with ⟨howned, hget, hrelaying⟩
  have hok := hrelaying.1 s hd hhandler
  rw [PhaseOk, hphase] at hok
  rcases hok with ⟨hflag, msg, peer, hfound, rfl, rfl, hroles⟩
  rcases hfound with ⟨x, y, targetID, rfl, _, ⟨hlast, hvalid, htype, rfl⟩, hpeer, _⟩
  have howns : hd.Owns := Or.inr ⟨hflag, by simp [hphase], by simp [hphase]⟩
  rcases howned.entry s hd hhandler howns with ⟨role, hrole⟩
  refine ⟨hd.id, msg, (hrelaying.2 s hd.id).mpr ⟨hd, hhandler, rfl⟩, ?_, hvalid, htype, rfl,
    role, peer.role, ?_, ?_, hroles role hrole⟩
  · rcases hlast with ⟨x₁, x₂, rfl, _⟩
    simp
  · exact registered_of_ownerOf (hget ▸ hrole)
  · exact List.mem_append_left _ (registered_of_ownerOf hpeer)

/-! ## The order of deliveries -/

/-- The messages that the handler of a connection has read. -/
def readOf (s : Conn) (h : List RelayEvent) : List Message :=
  h.filterMap fun
    | .received c msg => if c = s then some msg else none
    | _ => none

/-- What a handler with some id makes of a message. -/
def relayAs (id : GoString) (msg : Message) : Json :=
  ({ msg with id := id } : Message).marshal

/-- A message of a sender with some id is of a relayed type, and its target id was registered by
this connection. -/
structure Targets (h : List RelayEvent) (id : GoString) (d : Conn) (msg : Message) : Prop where
  valid : validateMessageType msg.type = true
  relayed : msg.type ≠ msgTypeRegister
  registered : ∃ role, .registered d (targetOf id msg) role ∈ h

/-- The history at which a frame is looked up has happened. -/
theorem mem_of_lookupHistory {s : Conn} {before after h' : List RelayEvent} {e : RelayEvent}
    (hlookup : lookupHistory s before after = some h') (he : e ∈ h') :
    e ∈ before ++ after := by
  have hbetween : ∀ (a : List RelayEvent) (p : List RelayEvent × RelayEvent),
      nextOwn s a = some p → ∀ e ∈ p.1, e ∈ a := by
    intro a
    induction a with
    | nil =>
        intro p hp
        cases hp
    | cons e₀ a ih =>
        intro p hp e he
        unfold nextOwn at hp
        split at hp
        · cases hp
          cases he
        · rcases Option.map_eq_some_iff.mp hp with ⟨q, hq, rfl⟩
          rcases List.mem_cons.mp he with rfl | he
          · exact List.mem_cons_self
          · exact List.mem_cons_of_mem e₀ (ih q hq e he)
  unfold lookupHistory at hlookup
  split at hlookup
  · rename_i between c i hnext
    cases hlookup
    rcases List.mem_append.mp he with he | he
    · exact List.mem_append_left after he
    · exact List.mem_append_right before (hbetween after _ hnext e he)
  · contradiction

/-- A frame asks for nothing, or for one message to its target. -/
theorem asked_cases (s : Conn) (id : GoString) (d : Conn) (before : List RelayEvent)
    (e : RelayEvent) (after : List RelayEvent) :
    asked s id d before e after = [] ∨
      ∃ msg, e = .received s msg ∧ asked s id d before e after = [relayAs id msg] ∧
        Targets (before ++ e :: after) id d msg := by
  cases e with
  | received c msg =>
      simp only [asked]
      split
      · rename_i hasked
        rcases hasked with ⟨rfl, _, hvalid, htype⟩
        split
        · rename_i h' hlookup
          unfold relayAt
          split
          · exact Or.inl rfl
          · rename_i peer howner
            split
            · rename_i hpeer
              refine Or.inr ⟨msg, rfl, rfl, hvalid, htype, peer.role, ?_⟩
              have hregistered := registered_of_ownerOf howner
              rw [hpeer.1] at hregistered
              simpa using mem_of_lookupHistory hlookup hregistered
            · exact Or.inl rfl
        · exact Or.inl rfl
      · exact Or.inl rfl
  | _ => exact Or.inl rfl

/-- The frames of a history ask for some of them, in their order. -/
theorem relayable_eq_map (s : Conn) (id : GoString) (d : Conn)
    (before h after : List RelayEvent) :
    ∃ msgs, List.Sublist msgs (readOf s h) ∧
      relayable s id d before h after = msgs.map (relayAs id) ∧
      ∀ msg ∈ msgs, Targets (before ++ h ++ after) id d msg := by
  induction h generalizing before with
  | nil => exact ⟨[], List.Sublist.slnil, rfl, fun msg hmsg => by cases hmsg⟩
  | cons e h ih =>
      rcases ih (before ++ [e]) with ⟨msgs, hsublist, heq, htargets⟩
      have hsplit : before ++ [e] ++ h ++ after = before ++ e :: h ++ after := by simp
      rw [hsplit] at htargets
      rcases asked_cases s id d before e (h ++ after) with hnone |
        ⟨msg, rfl, hsome, htarget⟩
      · refine ⟨msgs, hsublist.trans ?_, ?_, htargets⟩
        · exact (List.sublist_cons_self e h).filterMap _
        · rw [relayable, hnone, heq, List.nil_append]
      · refine ⟨msg :: msgs, ?_, ?_, ?_⟩
        · have hread : readOf s (.received s msg :: h) = msg :: readOf s h := by simp [readOf]
          rw [hread]
          exact hsublist.cons_cons msg
        · rw [relayable, hsome, heq, List.map_cons, List.singleton_append]
        · intro msg' hmsg'
          rcases List.mem_cons.mp hmsg' with rfl | hmsg'
          · simpa using htarget
          · exact htargets msg' hmsg'

/-- What a handler has handed to a connection are messages that it has read, in this order and
each at most once, and that are for this connection. -/
theorem handed_eq_map (hrun : system.run (init maxConns) labels = some (t, h)) (s d : Conn) :
    ∃ id msgs, List.Sublist msgs (readOf s h) ∧ handed s d h = msgs.map (relayAs id) ∧
      ∀ msg ∈ msgs, .opened s id ∈ h ∧ Targets h id d msg := by
  have htracking := tracking_of_reachable hrun s
  cases hhandler : t.handlers s with
  | none =>
      refine ⟨[], [], List.nil_sublist _, ?_, fun msg hmsg => by cases hmsg⟩
      exact handed_of_other (htracking.2 hhandler) d
  | some hd =>
      rcases relayable_eq_map s hd.id d [] h [] with
        ⟨msgs, hsublist, heq, htargets⟩
      rw [(htracking.1 hd hhandler).relayed d] at heq
      rcases List.append_eq_map_iff.mp heq with ⟨msgs₁, msgs₂, rfl, hhanded, _⟩
      refine ⟨hd.id, msgs₁, (List.sublist_append_left msgs₁ msgs₂).trans hsublist,
        hhanded.symm, fun msg hmsg => ⟨?_, ?_⟩⟩
      · exact ((relaying_of_reachable hrun).2.2.2 s hd.id).mpr ⟨hd, hhandler, rfl⟩
      · simpa using htargets msg (List.mem_append_left msgs₂ hmsg)

end Relay

end GameFramework
