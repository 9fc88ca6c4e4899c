import GameFramework.Lib.Transition
import GameFramework.Signalling.PeerManager
import Mathlib.Logic.Function.Basic

/-!
# The signalling relay

The websocket relay of the signalling server: one handler per connection, which
runs {lit}`wsHandler` and {lit}`handleConnection`, the shared peer manager, and the
shutdown goroutine of {lit}`main`.

Every label is one atomic step of one party.  Methods of the peer manager are
atomic and wait while the shutdown goroutine holds the lock.  A websocket write is
not atomic: it starts in one step and ends in another, successfully, with an
error, or with a panic of the websocket library.  Which of these may happen when is
the library's, so any of them may, and results that rely on more say so.  A frame
carries what {lit}`json.Unmarshal` makes of it, so that every byte string a peer can
send is covered.

The shutdown is followed to the unlocking of the manager.  What comes after it,
{lit}`srv.Shutdown` and the end of the process, is not part of the relay.

Main results:

- Definition {lit}`Relay.step`: the steps of handlers and shutdown.
- Theorem {lit}`Handler.dispatch_cases`: what a handler does with a message.
- Theorem {lit}`Relay.step_cases`: every step is one of a single connection, of which
  only a registration and an unregistration touch the peer manager, or changes
  neither handlers nor manager.
- Theorem {lit}`Relay.StepCase.other`: a step leaves the handlers of other connections
  alone and records nothing for them.
-/

namespace GameFramework

/-- Where a handler is in its code. -/
inductive Phase where
  /-- At {lit}`conn.ReadMessage`. -/
  | reading
  /-- Inside {lit}`conn.ReadMessage`, answering a ping. -/
  | ponging
  /-- Before {lit}`pm.Register`. -/
  | registering (role : PeerRole)
  /-- After {lit}`pm.Register`, before the flag is set. -/
  | accepted
  /-- Before {lit}`pm.Get`. -/
  | lookup (msg : Message) (targetID : GoString)
  /-- Before {lit}`pm.GetRole`. -/
  | roleCheck (msg : Message) (targetPeer : PeerInfo)
  /-- Before {lit}`targetPeer.conn.WriteMessage`. -/
  | writing (data : Json) (target : Conn)
  /-- Inside {lit}`targetPeer.conn.WriteMessage`. -/
  | inWrite (target : Conn)
  /-- Returned or panicked, before the deferred function. -/
  | exiting
  /-- In the deferred function, before {lit}`conn.Close`. -/
  | closing
  | done

/-- The local variables of a connection's goroutine. -/
structure Handler where
  id : GoString
  registered : Bool
  phase : Phase

/-- The shutdown goroutine: waiting for the signal, closing peers under the lock, or
past the unlocking that follows the loop. -/
inductive Shutdown where
  | waiting
  | closing (todo : List Conn)
  | finished

/-- How a websocket write ends. -/
inductive WriteResult where
  | ok
  | error
  | panic
  deriving DecidableEq

/-- What lets a handler go on. -/
inductive Action where
  /-- {lit}`ReadMessage` returns a frame; {lit}`none` is a frame that does not unmarshal. -/
  | frame (msg : Option Message)
  | readError
  | ping
  | ponged (result : WriteResult)
  | wrote (result : WriteResult)
  /-- The next statement, which needs nothing from outside. -/
  | advance

inductive RelayLabel where
  | accept (c : Conn) (path : GoString)
  | handler (c : Conn) (action : Action)
  | shutdownLock
  | shutdownClose (c : Conn)
  | shutdownUnlock

inductive RelayEvent where
  | badRequest (path : GoString)
  | opened (c : Conn) (id : GoString)
  | received (c : Conn) (msg : Message)
  | registered (c : Conn) (id : GoString) (role : PeerRole)
  | rejected (c : Conn) (id : GoString)
  | lookedUp (c : Conn) (targetID : GoString)
  | delivered (c target : Conn) (data : Json)
  | readFailed (c : Conn)
  | writeFailed (c target : Conn)
  | writePanicked (c target : Conn)
  | pongPanicked (c : Conn)
  | returned (c : Conn)
  | unregistered (c : Conn) (id : GoString) (outcome : UnregisterOutcome)
  | closed (c : Conn)
  | shutdownClosed (c : Conn)

structure Relay where
  manager : PeerManager
  handlers : Conn → Option Handler
  closed : Conn → Bool
  /-- The number of writes in progress on a connection. -/
  writers : Conn → ℕ
  shutdown : Shutdown

/-- {lit}`strings.TrimPrefix(path, "/connect/")`. -/
def trimConnect (path : GoString) : GoString :=
  if (goString "/connect/").isPrefixOf path then path.drop (goString "/connect/").length
  else path

/-- What {lit}`handleConnection` does with an unmarshalled message: the statement
before which it next touches shared state. -/
def Handler.dispatch (h : Handler) (msg : Message) : Phase :=
  if !validateMessageType msg.type then .reading
  else if msg.type = msgTypeRegister then
    if h.registered then .reading
    else if msg.role ≠ roleClient ∧ msg.role ≠ roleServer then .reading
    else .registering msg.role
  else if !h.registered then .reading
  else .lookup msg (if msg.id = [] then h.id else msg.id)

/-- A message is dropped, or asks for a registration in a role that a peer can have, or
is one that a registered handler relays. -/
theorem Handler.dispatch_cases (h : Handler) (msg : Message) :
    h.dispatch msg = .reading ∨
      (h.dispatch msg = .registering msg.role ∧ msg.type = msgTypeRegister ∧
        (msg.role = roleClient ∨ msg.role = roleServer)) ∨
      (h.dispatch msg = .lookup msg (if msg.id = [] then h.id else msg.id) ∧
        h.registered = true ∧ validateMessageType msg.type = true ∧
        msg.type ≠ msgTypeRegister) := by
  unfold dispatch
  split
  · exact Or.inl rfl
  · rename_i hvalid
    split
    · rename_i htype
      split
      · exact Or.inl rfl
      · split
        · exact Or.inl rfl
        · rename_i hrole
          have hknown : msg.role = roleClient ∨ msg.role = roleServer := by
            by_contra hnone
            exact hrole (not_or.mp hnone)
          exact Or.inr (Or.inl ⟨rfl, htype, hknown⟩)
    · rename_i htype
      split
      · exact Or.inl rfl
      · rename_i hflag
        exact Or.inr (Or.inr ⟨rfl, by simpa using hflag, by simpa using hvalid, htype⟩)

namespace Relay

/-- The server before the first connection. -/
def init (maxConns : Int) : Relay where
  manager := PeerManager.new maxConns
  handlers _ := none
  closed _ := false
  writers _ := 0
  shutdown := .waiting

/-- The shutdown goroutine holds the manager's lock. -/
def locked (t : Relay) : Bool :=
  match t.shutdown with
  | .closing _ => true
  | _ => false

/-- The state with a handler replaced. -/
def put (t : Relay) (c : Conn) (h : Handler) : Relay :=
  { t with handlers := Function.update t.handlers c (some h) }

/-- The state with a handler at another statement. -/
def goto (t : Relay) (c : Conn) (h : Handler) (phase : Phase) : Relay :=
  t.put c { h with phase := phase }

def close (t : Relay) (c : Conn) : Relay :=
  { t with closed := Function.update t.closed c true }

/-- {lit}`pm.Unregister`, which also closes the connection of the peer it removes. -/
def unregister (t : Relay) (id : GoString) : Relay :=
  match t.manager.unregister id with
  | (manager, .removed peer _) => { t.close peer.conn with manager := manager }
  | (manager, .nonexistent) => { t with manager := manager }

/-- A write to a connection starts. -/
def beginWrite (t : Relay) (c : Conn) : Relay :=
  { t with writers := Function.update t.writers c (t.writers c + 1) }

/-- A write to a connection ends. -/
def endWrite (t : Relay) (c : Conn) : Relay :=
  { t with writers := Function.update t.writers c (t.writers c - 1) }

/-- One step of the handler of a connection. -/
def handle (t : Relay) (c : Conn) (h : Handler) (action : Action) :
    Option (Relay × List RelayEvent) :=
  match h.phase, action with
  | .reading, .frame none => some (t.goto c h .reading, [])
  | .reading, .frame (some msg) => some (t.goto c h (h.dispatch msg), [.received c msg])
  | .reading, .readError => some (t.goto c h .exiting, [.readFailed c, .returned c])
  | .reading, .ping => some ((t.beginWrite c).goto c h .ponging, [])
  | .ponging, .ponged .ok => some ((t.endWrite c).goto c h .reading, [])
  | .ponging, .ponged .error =>
      some ((t.endWrite c).goto c h .exiting, [.readFailed c, .returned c])
  | .ponging, .ponged .panic =>
      some ((t.endWrite c).goto c h .exiting, [.pongPanicked c, .returned c])
  | .registering role, .advance =>
      if t.locked then none
      else
        match t.manager.register h.id c role with
        | (manager, .errExist) =>
            some (({ t with manager := manager } : Relay).goto c h .reading, [.rejected c h.id])
        | (manager, .ok) =>
            some (({ t with manager := manager } : Relay).goto c h .accepted,
              [.registered c h.id role])
  | .accepted, .advance => some (t.put c { h with registered := true, phase := .reading }, [])
  | .lookup msg targetID, .advance =>
      if t.locked then none
      else
        match t.manager.get targetID with
        | none => some (t.goto c h .reading, [.lookedUp c targetID])
        | some targetPeer =>
            some (t.goto c h (.roleCheck msg targetPeer), [.lookedUp c targetID])
  | .roleCheck msg targetPeer, .advance =>
      if t.locked then none
      else if t.manager.getRole h.id = roleClient ∧ targetPeer.role = roleClient then
        some (t.goto c h .reading, [])
      else some (t.goto c h (.writing { msg with id := h.id }.marshal targetPeer.conn), [])
  | .writing data target, .advance =>
      some ((t.beginWrite target).goto c h (.inWrite target), [.delivered c target data])
  | .inWrite target, .wrote .ok => some ((t.endWrite target).goto c h .reading, [])
  | .inWrite target, .wrote .error =>
      some ((t.endWrite target).goto c h .exiting, [.writeFailed c target, .returned c])
  | .inWrite target, .wrote .panic =>
      some ((t.endWrite target).goto c h .exiting, [.writePanicked c target, .returned c])
  | .exiting, .advance =>
      if !h.registered then some (t.goto c h .closing, [])
      else if t.locked then none
      else
        some (((t.unregister h.id).goto c h .closing),
          [.unregistered c h.id (t.manager.unregister h.id).2])
  | .closing, .advance => some ((t.close c).goto c h .done, [.closed c])
  | _, _ => none

/-- One step of the relay. -/
def step (t : Relay) : RelayLabel → Option (Relay × List RelayEvent)
  | .accept c path =>
      let id := trimConnect path
      if id = [] ∨ id = path then some (t, [.badRequest path])
      else
        match t.handlers c with
        | some _ => none
        | none => some (t.put c ⟨id, false, .reading⟩, [.opened c id])
  | .handler c action =>
      match t.handlers c with
      | none => none
      | some h => t.handle c h action
  | .shutdownLock =>
      match t.shutdown with
      | .waiting => some ({ t with shutdown := .closing t.manager.conns }, [])
      | _ => none
  | .shutdownClose c =>
      match t.shutdown with
      | .closing todo =>
          if c ∈ todo then
            some ({ t.close c with shutdown := .closing (todo.erase c) }, [.shutdownClosed c])
          else none
      | _ => none
  | .shutdownUnlock =>
      match t.shutdown with
      | .closing [] => some ({ t with shutdown := .finished }, [])
      | _ => none

/-- The relay as a labelled system. -/
def system : Labelled.System Relay RelayLabel RelayEvent where
  step := step

/-! ## The kinds of steps -/

/-- The steps of a handler that neither register nor unregister nor set the flag:
the statement it goes to and what it records. -/
inductive Move (pm : PeerManager) (c : Conn) (h : Handler) : Phase → List RelayEvent → Prop
  | malformed (hphase : h.phase = .reading) : Move pm c h .reading []
  | dispatched (msg : Message) (hphase : h.phase = .reading) :
      Move pm c h (h.dispatch msg) [.received c msg]
  | readError (hphase : h.phase = .reading) :
      Move pm c h .exiting [.readFailed c, .returned c]
  | ping (hphase : h.phase = .reading) : Move pm c h .ponging []
  | ponged (hphase : h.phase = .ponging) : Move pm c h .reading []
  | pongError (hphase : h.phase = .ponging) :
      Move pm c h .exiting [.readFailed c, .returned c]
  | pongPanic (hphase : h.phase = .ponging) :
      Move pm c h .exiting [.pongPanicked c, .returned c]
  | rejected (role : PeerRole) (hphase : h.phase = .registering role) :
      Move pm c h .reading [.rejected c h.id]
  | missed (msg : Message) (targetID : GoString) (hphase : h.phase = .lookup msg targetID) :
      Move pm c h .reading [.lookedUp c targetID]
  | found (msg : Message) (targetID : GoString) (targetPeer : PeerInfo)
      (hphase : h.phase = .lookup msg targetID) (hget : pm.get targetID = some targetPeer) :
      Move pm c h (.roleCheck msg targetPeer) [.lookedUp c targetID]
  | blocked (msg : Message) (targetPeer : PeerInfo)
      (hphase : h.phase = .roleCheck msg targetPeer) : Move pm c h .reading []
  | allowed (msg : Message) (targetPeer : PeerInfo)
      (hphase : h.phase = .roleCheck msg targetPeer)
      (hroles : ¬ (pm.getRole h.id = roleClient ∧ targetPeer.role = roleClient)) :
      Move pm c h (.writing { msg with id := h.id }.marshal targetPeer.conn) []
  | handed (data : Json) (target : Conn) (hphase : h.phase = .writing data target) :
      Move pm c h (.inWrite target) [.delivered c target data]
  | wrote (target : Conn) (hphase : h.phase = .inWrite target) : Move pm c h .reading []
  | writeError (target : Conn) (hphase : h.phase = .inWrite target) :
      Move pm c h .exiting [.writeFailed c target, .returned c]
  | writePanic (target : Conn) (hphase : h.phase = .inWrite target) :
      Move pm c h .exiting [.writePanicked c target, .returned c]
  | unowned (hphase : h.phase = .exiting) (hflag : h.registered = false) :
      Move pm c h .closing []
  | finished (hphase : h.phase = .closing) : Move pm c h .done [.closed c]

/-- The steps of one connection: its handler before, its handler after, and what the
step records. -/
inductive OwnStep (pm : PeerManager) (c : Conn) :
    PeerManager → Option Handler → Handler → List RelayEvent → Prop
  | opened (path : GoString) :
      OwnStep pm c pm none ⟨trimConnect path, false, .reading⟩ [.opened c (trimConnect path)]
  | moved (h : Handler) (phase : Phase) (out : List RelayEvent)
      (hmove : Move pm c h phase out) : OwnStep pm c pm (some h) { h with phase := phase } out
  | registered (h : Handler) (role : PeerRole) (pm' : PeerManager)
      (hphase : h.phase = .registering role) (hregister : pm.register h.id c role = (pm', .ok)) :
      OwnStep pm c pm' (some h) { h with phase := .accepted } [.registered c h.id role]
  | flagged (h : Handler) (hphase : h.phase = .accepted) :
      OwnStep pm c pm (some h) { h with registered := true, phase := .reading } []
  | unregistered (h : Handler) (hphase : h.phase = .exiting) (hflag : h.registered = true) :
      OwnStep pm c (pm.unregister h.id).1 (some h) { h with phase := .closing }
        [.unregistered c h.id (pm.unregister h.id).2]

/-- Every step is one of a single connection, or leaves handlers and manager alone. -/
inductive StepCase (t v : Relay) : List RelayEvent → Prop
  | refused (path : GoString) (hhandlers : v.handlers = t.handlers)
      (hmanager : v.manager = t.manager) : StepCase t v [.badRequest path]
  | shutdown (closes : Option Conn) (hhandlers : v.handlers = t.handlers)
      (hmanager : v.manager = t.manager) :
      StepCase t v (closes.toList.map .shutdownClosed)
  | own (c : Conn) (h' : Handler) (out : List RelayEvent)
      (hown : OwnStep t.manager c v.manager (t.handlers c) h' out)
      (hhandlers : v.handlers = Function.update t.handlers c (some h')) : StepCase t v out

theorem handlers_unregister (t : Relay) (id : GoString) :
    (t.unregister id).handlers = t.handlers := by
  unfold unregister
  split <;> rfl

theorem manager_unregister (t : Relay) (id : GoString) :
    (t.unregister id).manager = (t.manager.unregister id).1 := by
  unfold unregister
  split <;> rename_i heq <;> rw [heq]

variable {t v : Relay} {c : Conn} {h : Handler} {action : Action} {out : List RelayEvent}

/-- A handler that goes to another statement by a move. -/
private theorem moved_of_goto {u : Relay} {phase : Phase} (hhandler : t.handlers c = some h)
    (hu : u.handlers = t.handlers) (hmanager : u.manager = t.manager)
    (hmove : Move t.manager c h phase out) : StepCase t (u.goto c h phase) out := by
  have hsame : (u.goto c h phase).manager = t.manager := hmanager
  refine .own c { h with phase := phase } out ?_ ?_
  · rw [hhandler, hsame]
    exact .moved h phase out hmove
  · rw [← hu]
    rfl

/-- The steps of a handler. -/
theorem handle_cases (hhandler : t.handlers c = some h)
    (hstep : t.handle c h action = some (v, out)) : StepCase t v out := by
  unfold handle at hstep
  split at hstep
  · rename_i hphase
    cases hstep
    exact moved_of_goto hhandler rfl rfl (.malformed hphase)
  · rename_i msg hphase
    cases hstep
    exact moved_of_goto hhandler rfl rfl (.dispatched msg hphase)
  · rename_i hphase
    cases hstep
    exact moved_of_goto hhandler rfl rfl (.readError hphase)
  · rename_i hphase
    cases hstep
    exact moved_of_goto hhandler rfl rfl (.ping hphase)
  · rename_i hphase
    cases hstep
    exact moved_of_goto hhandler rfl rfl (.ponged hphase)
  · rename_i hphase
    cases hstep
    exact moved_of_goto hhandler rfl rfl (.pongError hphase)
  · rename_i hphase
    cases hstep
    exact moved_of_goto hhandler rfl rfl (.pongPanic hphase)
  · rename_i role hphase
    split at hstep
    · contradiction
    · split at hstep
      · rename_i manager hregister
        cases hstep
        refine moved_of_goto hhandler rfl ?_ (.rejected role hphase)
        exact PeerManager.register_of_errExist hregister
      · rename_i manager hregister
        cases hstep
        refine .own c _ _ ?_ rfl
        rw [hhandler]
        exact .registered h role manager hphase hregister
  · rename_i hphase
    cases hstep
    refine .own c _ _ ?_ rfl
    rw [hhandler]
    exact .flagged h hphase
  · rename_i msg targetID hphase
    split at hstep
    · contradiction
    · split at hstep
      · cases hstep
        exact moved_of_goto hhandler rfl rfl (.missed msg targetID hphase)
      · rename_i targetPeer hget
        cases hstep
        exact moved_of_goto hhandler rfl rfl (.found msg targetID targetPeer hphase hget)
  · rename_i msg targetPeer hphase
    split at hstep
    · contradiction
    · split at hstep
      · cases hstep
        exact moved_of_goto hhandler rfl rfl (.blocked msg targetPeer hphase)
      · rename_i hroles
        cases hstep
        exact moved_of_goto hhandler rfl rfl (.allowed msg targetPeer hphase hroles)
  · rename_i data target hphase
    cases hstep
    exact moved_of_goto hhandler rfl rfl (.handed data target hphase)
  · rename_i target hphase
    cases hstep
    exact moved_of_goto hhandler rfl rfl (.wrote target hphase)
  · rename_i target hphase
    cases hstep
    exact moved_of_goto hhandler rfl rfl (.writeError target hphase)
  · rename_i target hphase
    cases hstep
    exact moved_of_goto hhandler rfl rfl (.writePanic target hphase)
  · rename_i hphase
    split at hstep
    · rename_i hflag
      cases hstep
      exact moved_of_goto hhandler rfl rfl (.unowned hphase (by simpa using hflag))
    · rename_i hflag
      split at hstep
      · contradiction
      · cases hstep
        refine .own c { h with phase := .closing } _ ?_ ?_
        · have hmanager : ((t.unregister h.id).goto c h .closing).manager =
              (t.manager.unregister h.id).1 := manager_unregister t h.id
          rw [hhandler, hmanager]
          exact .unregistered h hphase (by simpa using hflag)
        · simp only [goto, put, handlers_unregister]
  · rename_i hphase
    cases hstep
    exact moved_of_goto hhandler rfl rfl (.finished hphase)
  · contradiction

/-- A step is one of a handler, of the shutdown goroutine, or a new connection. -/
theorem step_cases {label : RelayLabel} (hstep : t.step label = some (v, out)) :
    StepCase t v out := by
  cases label with
  | accept c path =>
      simp only [step] at hstep
      split at hstep
      · cases hstep
        exact .refused path rfl rfl
      · split at hstep
        · contradiction
        · rename_i hnone
          cases hstep
          refine .own c _ _ ?_ rfl
          rw [hnone]
          exact .opened path
  | handler c action =>
      simp only [step] at hstep
      split at hstep
      · contradiction
      · rename_i h hhandler
        exact handle_cases hhandler hstep
  | shutdownLock =>
      simp only [step] at hstep
      split at hstep
      · cases hstep
        exact .shutdown none rfl rfl
      · contradiction
  | shutdownClose c =>
      simp only [step] at hstep
      split at hstep
      · split at hstep
        · cases hstep
          exact .shutdown (some c) rfl rfl
        · contradiction
      · contradiction
  | shutdownUnlock =>
      simp only [step] at hstep
      split at hstep
      · cases hstep
        exact .shutdown none rfl rfl
      · contradiction

/-! ## Steps seen from one connection -/

/-- The connection whose handler records an event. -/
def actor : RelayEvent → Option Conn
  | .opened c _ | .received c _ | .registered c _ _ | .rejected c _ | .lookedUp c _
  | .delivered c _ _ | .readFailed c | .writeFailed c _ | .writePanicked c _ | .pongPanicked c
  | .returned c | .unregistered c _ _ | .closed c => some c
  | .badRequest _ | .shutdownClosed _ => none

/-- A connection records only its own events. -/
theorem OwnStep.actor_eq {pm pm' : PeerManager} {before : Option Handler} {h' : Handler}
    (hown : OwnStep pm c pm' before h' out) {e : RelayEvent} (he : e ∈ out) :
    actor e = some c := by
  cases hown with
  | moved h phase out hmove =>
      cases hmove <;> simp at he <;> rcases he with rfl | rfl <;> rfl
  | flagged h hphase => simp at he
  | _ =>
      rw [List.mem_singleton.mp he]
      rfl

/-- Either a step is one of the given connection, or it leaves the handler alone and
records nothing for it. -/
theorem StepCase.other (hcase : StepCase t v out) (c : Conn) :
    (∃ h', OwnStep t.manager c v.manager (t.handlers c) h' out ∧ v.handlers c = some h') ∨
      v.handlers c = t.handlers c ∧ ∀ e ∈ out, actor e ≠ some c := by
  cases hcase with
  | refused path hhandlers _ =>
      refine Or.inr ⟨congrFun hhandlers c, fun e he => ?_⟩
      rw [List.mem_singleton.mp he]
      simp [actor]
  | shutdown closes hhandlers _ =>
      refine Or.inr ⟨congrFun hhandlers c, fun e he => ?_⟩
      rcases List.mem_map.mp he with ⟨c', _, rfl⟩
      simp [actor]
  | own c' h' out hown hhandlers =>
      by_cases hc : c = c'
      · subst hc
        exact Or.inl ⟨h', hown, by rw [hhandlers, Function.update_self]⟩
      · refine Or.inr ⟨by rw [hhandlers, Function.update_of_ne hc], fun e he => ?_⟩
        rw [hown.actor_eq he]
        simpa using Ne.symm hc

/-- A handler's step replaces its own handler. -/
theorem handlers_of_handle (hstep : t.handle c h action = some (v, out)) :
    ∃ h', v.handlers = Function.update t.handlers c (some h') := by
  unfold handle at hstep
  split at hstep
  all_goals (repeat' split at hstep)
  all_goals first
    | contradiction
    | cases hstep
      exact ⟨_, rfl⟩
    | cases hstep
      exact ⟨_, by simp only [goto, put, handlers_unregister]; rfl⟩

/-- A handler changes only by a step of its own. -/
theorem label_of_changed {label : RelayLabel} (hhandler : t.handlers c = some h)
    (hstep : t.step label = some (v, out)) (hchanged : v.handlers c ≠ t.handlers c) :
    ∃ action, label = .handler c action ∧ t.handle c h action = some (v, out) := by
  cases label with
  | accept c' path =>
      simp only [step] at hstep
      split at hstep
      · cases hstep
        exact absurd rfl hchanged
      · split at hstep
        · contradiction
        · rename_i hnone
          cases hstep
          have hc : c ≠ c' := by
            rintro rfl
            rw [hhandler] at hnone
            contradiction
          exact absurd (Function.update_of_ne hc _ _) hchanged
  | handler c' action =>
      simp only [step] at hstep
      split at hstep
      · contradiction
      · rename_i h₀ hh₀
        rcases handlers_of_handle hstep with ⟨h', hhandlers⟩
        by_cases hc : c = c'
        · subst hc
          rw [hhandler] at hh₀
          cases hh₀
          exact ⟨action, rfl, hstep⟩
        · exact absurd (by rw [hhandlers, Function.update_of_ne hc]) hchanged
  | shutdownLock =>
      simp only [step] at hstep
      split at hstep
      · cases hstep
        exact absurd rfl hchanged
      · contradiction
  | shutdownClose c' =>
      simp only [step] at hstep
      split at hstep
      · split at hstep
        · cases hstep
          exact absurd rfl hchanged
        · contradiction
      · contradiction
  | shutdownUnlock =>
      simp only [step] at hstep
      split at hstep
      · cases hstep
        exact absurd rfl hchanged
      · contradiction

end Relay

end GameFramework
