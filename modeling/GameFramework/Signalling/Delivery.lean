import GameFramework.Signalling.Authenticity

/-!
# Order and number of relayed messages

The messages that a handler hands to another connection are compared with the
frames it read.  The comparison is made on the recorded history alone: a frame is to
be relayed when it comes after the handler's registration, is of a relayed type, and
its target id belongs, at the moment the handler looks it up, to that connection and
not to one client while the sender is another.  That a handler looks up the target of every
such frame is part of the result.

Main results:

- Definition {lit}`Relay.relayable`: the messages that the frames of a history ask for,
  in reading order.
- Theorem {lit}`Relay.looksUpAll_of_reachable`: no frame that is to be relayed is passed over.
- Theorem {lit}`Relay.relayable_eq`: the messages asked for are those that were handed over,
  followed by the one that the handler has in hand.
-/

namespace GameFramework

namespace Relay

/-! ## What the frames of a history ask for -/

/-- The next event that a handler records, and what is recorded before it. -/
def nextOwn (s : Conn) : List RelayEvent → Option (List RelayEvent × RelayEvent)
  | [] => none
  | e :: after =>
      if actor e = some s then some ([], e)
      else (nextOwn s after).map fun p => (e :: p.1, p.2)

/-- The history at which the handler looks up the target of a frame, if that is what it
does next. -/
def lookupHistory (s : Conn) (before after : List RelayEvent) : Option (List RelayEvent) :=
  match nextOwn s after with
  | some (between, .lookedUp _ _) => some (before ++ between)
  | _ => none

/-- The role in which an id is registered, or the empty role. -/
def roleOf (h : List RelayEvent) (id : GoString) : PeerRole :=
  match ownerOf h id with
  | some peer => peer.role
  | none => []

/-- The id that a message is for; without one it is for the sender. -/
def targetOf (id : GoString) (msg : Message) : GoString :=
  if msg.id = [] then id else msg.id

/-- What a sender with some id hands to a connection for a message whose target it looks
up at a history. -/
def relayAt (h : List RelayEvent) (id : GoString) (d : Conn) (msg : Message) : List Json :=
  match ownerOf h (targetOf id msg) with
  | none => []
  | some peer =>
      if peer.conn = d ∧ ¬ (roleOf h id = roleClient ∧ peer.role = roleClient) then
        [({ msg with id := id } : Message).marshal]
      else []

/-- An accepted registration of a connection. -/
def isRegistration (s : Conn) : RelayEvent → Bool
  | .registered c _ _ => c == s
  | _ => false

/-- What an event asks a handler to hand to a connection. -/
def asked (s : Conn) (id : GoString) (d : Conn) (before : List RelayEvent) (e : RelayEvent)
    (after : List RelayEvent) : List Json :=
  match e with
  | .received c msg =>
      if c = s ∧ before.any (isRegistration s) = true ∧ validateMessageType msg.type = true ∧
          msg.type ≠ msgTypeRegister then
        match lookupHistory s (before ++ [e]) after with
        | some h => relayAt h id d msg
        | none => []
      else []
  | _ => []

/-- What the frames of a history ask the handler of {lit}`s` to hand to {lit}`d`, in reading
order, given the history before and after. -/
def relayable (s : Conn) (id : GoString) (d : Conn) :
    List RelayEvent → List RelayEvent → List RelayEvent → List Json
  | _, [], _ => []
  | before, e :: h, after =>
      asked s id d before e (h ++ after) ++ relayable s id d (before ++ [e]) h after

/-- The next thing a handler did after it read a message is to look up its target, or this is
what it is about to do. -/
def LooksUpNext (s : Conn) (hd : Handler) (msg : Message) (after : List RelayEvent) : Prop :=
  (∃ between, nextOwn s after = some (between, .lookedUp s (targetOf hd.id msg))) ∨
    nextOwn s after = none ∧ hd.phase = .lookup msg (targetOf hd.id msg)

/-- A handler passes over no frame that it read after its registration and that is to be
relayed. -/
def LooksUpAll (h : List RelayEvent) (s : Conn) (hd : Handler) : Prop :=
  ∀ before msg after, h = before ++ .received s msg :: after →
    before.any (isRegistration s) = true → validateMessageType msg.type = true →
      msg.type ≠ msgTypeRegister → LooksUpNext s hd msg after

/-- The messages that the handler of {lit}`s` handed to {lit}`d`. -/
def handed (s d : Conn) (h : List RelayEvent) : List Json :=
  h.filterMap fun
    | .delivered c target data => if c = s ∧ target = d then some data else none
    | _ => none

/-- The message that a handler is about to hand to {lit}`d`: the target is found, the write
has not started. -/
def inHand (pm : PeerManager) (h : Handler) (d : Conn) : List Json :=
  match h.phase with
  | .roleCheck msg peer =>
      if peer.conn = d ∧ ¬ (pm.getRole h.id = roleClient ∧ peer.role = roleClient) then
        [({ msg with id := h.id } : Message).marshal]
      else []
  | .writing data target => if target = d then [data] else []
  | _ => []

/-! ## Growing histories -/

variable {s d : Conn} {id : GoString} {h out : List RelayEvent}

/-- An event of the handler is its own next one. -/
theorem nextOwn_cons_self {e : RelayEvent} (he : actor e = some s) (after : List RelayEvent) :
    nextOwn s (e :: after) = some ([], e) := by
  rw [nextOwn, if_pos he]

/-- What happens later does not change which event of the handler is next. -/
theorem nextOwn_append_of_some {a b : List RelayEvent} {p : List RelayEvent × RelayEvent}
    (hnext : nextOwn s a = some p) : nextOwn s (a ++ b) = some p := by
  induction a generalizing p with
  | nil => simp [nextOwn] at hnext
  | cons e a ih =>
      rw [List.cons_append]
      unfold nextOwn at hnext ⊢
      split
      · rename_i hactor
        rw [if_pos hactor] at hnext
        exact hnext
      · rename_i hactor
        rw [if_neg hactor] at hnext
        rcases Option.map_eq_some_iff.mp hnext with ⟨q, hq, rfl⟩
        rw [ih hq]
        rfl

/-- Events of other connections do not come into question. -/
theorem nextOwn_append_of_other {a b : List RelayEvent} (hother : ∀ e ∈ a, actor e ≠ some s) :
    nextOwn s (a ++ b) = (nextOwn s b).map fun p => (a ++ p.1, p.2) := by
  induction a with
  | nil => simp
  | cons e a ih =>
      have he : actor e ≠ some s := hother e List.mem_cons_self
      have ha : ∀ e' ∈ a, actor e' ≠ some s := fun e' he' => hother e' (List.mem_cons_of_mem e he')
      rw [List.cons_append, nextOwn, if_neg he, ih ha, Option.map_map]
      rfl

/-- Among the events of others there is none of the handler. -/
theorem nextOwn_of_other {a : List RelayEvent} (hother : ∀ e ∈ a, actor e ≠ some s) :
    nextOwn s a = none := by
  simpa [nextOwn] using nextOwn_append_of_other (b := []) hother

/-- If there is none, all events are those of others. -/
theorem other_of_nextOwn_eq_none {a : List RelayEvent} (hnone : nextOwn s a = none) :
    ∀ e ∈ a, actor e ≠ some s := by
  induction a with
  | nil => simp
  | cons e a ih =>
      rw [nextOwn] at hnone
      split at hnone
      · contradiction
      · rename_i hactor
        intro e' he'
        rcases List.mem_cons.mp he' with rfl | he'
        · exact hactor
        · exact ih (by simpa using hnone) e' he'

/-- The next event of a handler is one of the events. -/
theorem mem_of_nextOwn {a : List RelayEvent} {p : List RelayEvent × RelayEvent}
    (hnext : nextOwn s a = some p) : p.2 ∈ a ∧ actor p.2 = some s := by
  induction a generalizing p with
  | nil => simp [nextOwn] at hnext
  | cons e a ih =>
      unfold nextOwn at hnext
      split at hnext
      · rename_i hactor
        cases hnext
        exact ⟨List.mem_cons_self, hactor⟩
      · rcases Option.map_eq_some_iff.mp hnext with ⟨q, hq, rfl⟩
        exact ⟨List.mem_cons_of_mem e (ih hq).1, (ih hq).2⟩

/-- Without a further lookup the history at which a frame is looked up stays what it
is. -/
theorem lookupHistory_append {before after : List RelayEvent}
    (hquiet : ∀ between e, nextOwn s out = some (between, e) → ∀ c i, e ≠ .lookedUp c i) :
    lookupHistory s before (after ++ out) = lookupHistory s before after := by
  unfold lookupHistory
  cases hnext : nextOwn s after with
  | some p => rw [nextOwn_append_of_some hnext]
  | none =>
      have hother := other_of_nextOwn_eq_none hnext
      rw [nextOwn_append_of_other hother]
      cases hout : nextOwn s out with
      | none => rfl
      | some p =>
          rcases p with ⟨between, e⟩
          have hne := hquiet between e hout
          simp only [Option.map_some]
          split
          · rename_i heq
            simp only [Option.some.injEq, Prod.mk.injEq] at heq
            exact absurd heq.2 (hne _ _)
          · rfl

/-- What is to be relayed is read off a history part by part. -/
theorem relayable_append (before a b after : List RelayEvent) :
    relayable s id d before (a ++ b) after =
      relayable s id d before a (b ++ after) ++ relayable s id d (before ++ a) b after := by
  induction a generalizing before with
  | nil => simp [relayable]
  | cons e a ih =>
      simp only [List.cons_append, relayable, ih, List.append_assoc, List.nil_append]

/-- What the frames ask for depends on what follows only through the next event of the
handler, when that is a lookup. -/
theorem relayable_after (before a after : List RelayEvent)
    (hquiet : ∀ between e, nextOwn s out = some (between, e) → ∀ c i, e ≠ .lookedUp c i) :
    relayable s id d before a (after ++ out) = relayable s id d before a after := by
  induction a generalizing before with
  | nil => rfl
  | cons e a ih =>
      have hasked : asked s id d before e (a ++ (after ++ out)) =
          asked s id d before e (a ++ after) := by
        cases e with
        | received c msg =>
            simp only [asked, ← List.append_assoc a after out, lookupHistory_append hquiet]
        | _ => rfl
      rw [relayable, relayable, hasked, ih]

/-- Events of other connections ask for nothing. -/
theorem relayable_of_other {a : List RelayEvent} (hother : ∀ e ∈ a, actor e ≠ some s)
    (before after : List RelayEvent) : relayable s id d before a after = [] := by
  induction a generalizing before with
  | nil => rfl
  | cons e a ih =>
      have he := hother e List.mem_cons_self
      have hasked : asked s id d before e (a ++ after) = [] := by
        cases e with
        | received c msg =>
            have hc : c ≠ s := fun hc => he (by simp [actor, hc])
            simp [asked, hc]
        | _ => rfl
      rw [relayable, hasked, List.nil_append]
      exact ih (fun e' he' => hother e' (List.mem_cons_of_mem e he')) _

/-- A step without a lookup of the handler adds nothing to what is asked for. -/
theorem relayable_quiet (hquiet : ∀ c i, .lookedUp c i ∈ out → c ≠ s) :
    relayable s id d [] (h ++ out) [] = relayable s id d [] h [] := by
  have hnext : ∀ a b, out = a ++ b → ∀ between e, nextOwn s b = some (between, e) →
      ∀ c i, e ≠ .lookedUp c i := by
    rintro a b rfl between e hnext c i rfl
    rcases mem_of_nextOwn hnext with ⟨hmem, hactor⟩
    refine hquiet c i (List.mem_append_right a hmem) ?_
    simpa [actor] using hactor
  have hnew : ∀ a b before, out = a ++ b → relayable s id d before b [] = [] := by
    intro a b
    induction b generalizing a with
    | nil => intros; rfl
    | cons e b ih =>
        intro before hsplit
        have hasked : asked s id d before e (b ++ []) = [] := by
          cases e with
          | received c msg =>
              have hlookup : lookupHistory s (before ++ [.received c msg]) b = none := by
                unfold lookupHistory
                split
                · rename_i between c' i hb
                  exact absurd rfl (hnext (a ++ [.received c msg]) b (by simp [hsplit]) _ _ hb c' i)
                · rfl
              simp [asked, hlookup]
          | _ => rfl
        rw [relayable, hasked, List.nil_append]
        exact ih (a ++ [e]) _ (by simp [hsplit])
  rw [relayable_append, hnew [] out _ rfl]
  simp only [List.append_nil]
  exact relayable_after [] h [] (hnext [] out rfl)

/-- A handler between a frame that is to be relayed and the lookup of its target. -/
def AtLookup (h : List RelayEvent) (s : Conn) (id : GoString) (msg : Message)
    (targetID : GoString) : Prop :=
  ∃ a b, h = a ++ .received s msg :: b ∧ (∀ e ∈ b, actor e ≠ some s) ∧
    a.any (isRegistration s) = true ∧ validateMessageType msg.type = true ∧
    msg.type ≠ msgTypeRegister ∧ targetID = targetOf id msg

/-- A lookup decides what the last frame asks for. -/
theorem relayable_lookedUp {msg : Message} {targetID : GoString}
    (hat : AtLookup h s id msg targetID) :
    relayable s id d [] (h ++ [.lookedUp s targetID]) [] =
      relayable s id d [] h [] ++ relayAt h id d msg := by
  rcases hat with ⟨a, b, rfl, hother, hregistered, hvalid, htype, _⟩
  have hframe : ∀ after, ∀ between e,
      nextOwn s (.received s msg :: after) = some (between, e) → ∀ c i, e ≠ .lookedUp c i := by
    intro after between e hnext c i
    rw [nextOwn_cons_self rfl] at hnext
    cases hnext
    simp
  have hearlier : ∀ after, relayable s id d [] a (.received s msg :: after) =
      relayable s id d [] a [] := fun after => relayable_after [] a [] (hframe after)
  have hb : ∀ before after, relayable s id d before b after = [] := fun before after =>
    relayable_of_other hother before after
  have hlookup : lookupHistory s (a ++ [.received s msg]) (b ++ [.lookedUp s targetID]) =
      some (a ++ .received s msg :: b) := by
    unfold lookupHistory
    rw [nextOwn_append_of_other hother, nextOwn_cons_self rfl]
    simp
  have hnone : lookupHistory s (a ++ [.received s msg]) b = none := by
    unfold lookupHistory
    rw [nextOwn_of_other hother]
  have hasked : asked s id d a (.received s msg) (b ++ [.lookedUp s targetID]) =
      relayAt (a ++ .received s msg :: b) id d msg := by
    simp only [asked, hlookup]
    rw [if_pos ⟨trivial, hregistered, hvalid, htype⟩]
  have hpending : asked s id d a (.received s msg) b = [] := by
    simp only [asked, hnone, ite_self]
  have hlast : ∀ before, relayable s id d before [.lookedUp s targetID] [] = [] := fun _ => rfl
  calc relayable s id d [] (a ++ .received s msg :: b ++ [.lookedUp s targetID]) []
      = relayable s id d [] a [] ++ relayAt (a ++ .received s msg :: b) id d msg := by
        rw [List.append_assoc, relayable_append, List.cons_append, List.append_nil, hearlier,
          relayable, List.append_nil, List.nil_append, hasked, relayable_append, hb, hlast,
          List.append_nil, List.append_nil]
    _ = relayable s id d [] (a ++ .received s msg :: b) [] ++
          relayAt (a ++ .received s msg :: b) id d msg := by
        congr 1
        rw [relayable_append, List.append_nil, hearlier, relayable, List.append_nil,
          List.nil_append, hpending, hb, List.append_nil, List.append_nil]

/-! ## Steps -/

variable {t v : Relay} {hd : Handler}

/-- A handler that comes to read has taken a step of its own. -/
theorem handle_of_reading {label : RelayLabel} {h' : Handler} (hhandler : t.handlers s = some hd)
    (hphase : hd.phase ≠ .reading) (hstep : t.step label = some (v, out))
    (hv : v.handlers s = some h') (hreading : h'.phase = .reading) :
    ∃ action, t.handle s hd action = some (v, out) := by
  have hchanged : v.handlers s ≠ t.handlers s := by
    rw [hv, hhandler]
    intro heq
    cases heq
    exact hphase hreading
  rcases label_of_changed hhandler hstep hchanged with ⟨action, _, hhandle⟩
  exact ⟨action, hhandle⟩

/-- A handler that reads on after a lookup has not found the target. -/
theorem get_of_missed {label : RelayLabel} {msg : Message} {targetID : GoString} {h' : Handler}
    (hhandler : t.handlers s = some hd) (hphase : hd.phase = .lookup msg targetID)
    (hstep : t.step label = some (v, out)) (hv : v.handlers s = some h')
    (hreading : h'.phase = .reading) : t.manager.get targetID = none := by
  rcases handle_of_reading hhandler (by simp [hphase]) hstep hv hreading with ⟨action, hhandle⟩
  unfold handle at hhandle
  rw [hphase] at hhandle
  cases action with
  | advance =>
      dsimp only at hhandle
      split at hhandle
      · contradiction
      · split at hhandle
        · assumption
        · cases hhandle
          rw [goto, put] at hv
          simp only [Function.update_self, Option.some.injEq] at hv
          rw [← hv] at hreading
          contradiction
  | _ => contradiction

/-- A handler that reads on after the role check is a client with a client as target. -/
theorem roles_of_blocked {label : RelayLabel} {msg : Message} {peer : PeerInfo} {h' : Handler}
    (hhandler : t.handlers s = some hd) (hphase : hd.phase = .roleCheck msg peer)
    (hstep : t.step label = some (v, out)) (hv : v.handlers s = some h')
    (hreading : h'.phase = .reading) :
    t.manager.getRole hd.id = roleClient ∧ peer.role = roleClient := by
  rcases handle_of_reading hhandler (by simp [hphase]) hstep hv hreading with ⟨action, hhandle⟩
  unfold handle at hhandle
  rw [hphase] at hhandle
  cases action with
  | advance =>
      dsimp only at hhandle
      split at hhandle
      · contradiction
      · split at hhandle
        · assumption
        · cases hhandle
          rw [goto, put] at hv
          simp only [Function.update_self, Option.some.injEq] at hv
          rw [← hv] at hreading
          contradiction
  | _ => contradiction

/-- A step of another connection leaves the role of a handler that owns its entry. -/
theorem getRole_of_other (howned : Owned t) (hcase : StepCase t v out)
    (hhandler : t.handlers s = some hd) (howns : hd.Owns) (hphase : hd.phase ≠ .exiting) :
    v.manager.getRole hd.id = t.manager.getRole hd.id := by
  rcases howned.entry s hd hhandler howns with ⟨role, hrole⟩
  rcases get_step howned hcase hrole with hsame | ⟨_, _, hd', hhandler', hexiting, _⟩
  · rw [PeerManager.getRole, PeerManager.getRole, hsame, hrole]
  · rw [hhandler] at hhandler'
    cases hhandler'
    exact absurd hexiting hphase

/-- The role in the history is the one in the peer map, if the owners are. -/
theorem roleOf_eq {pm : PeerManager} (hget : ownerOf h = pm.get) (id : GoString) :
    roleOf h id = pm.getRole id := by
  cases hpeer : pm.get id with
  | none => simp only [roleOf, PeerManager.getRole, hget, hpeer]
  | some peer => simp only [roleOf, PeerManager.getRole, hget, hpeer]

/-! ## Handlers and histories -/

/-- A handler agrees with the history: with its registration, with the frame it looks up
and with the messages it has handed over. -/
structure Tracked (pm : PeerManager) (h : List RelayEvent) (s : Conn) (hd : Handler) :
    Prop where
  registered : h.any (isRegistration s) = true ↔ hd.registered = true ∨ hd.phase = .accepted
  request : ∀ msg targetID, hd.phase = .lookup msg targetID → AtLookup h s hd.id msg targetID
  relayed : ∀ d, relayable s hd.id d [] h [] = handed s d h ++ inHand pm hd d

theorem handed_append (s d : Conn) (h out : List RelayEvent) :
    handed s d (h ++ out) = handed s d h ++ handed s d out :=
  List.filterMap_append

/-- Only the handler of a connection hands over its messages. -/
theorem handed_of_other (hother : ∀ e ∈ out, actor e ≠ some s) (d : Conn) :
    handed s d out = [] := by
  refine List.filterMap_eq_nil_iff.mpr fun e he => ?_
  cases e with
  | delivered c target data =>
      have hc : c ≠ s := fun hc => hother _ he (by simp [actor, hc])
      simp [hc]
  | _ => rfl

/-- Only the handler of a connection registers it. -/
theorem any_isRegistration_of_other (hother : ∀ e ∈ out, actor e ≠ some s) :
    out.any (isRegistration s) = false := by
  refine List.any_eq_false.mpr fun e he => ?_
  cases e with
  | registered c i role =>
      have hc : c ≠ s := fun hc => hother _ he (by simp [actor, hc])
      simp [isRegistration, hc]
  | _ => simp [isRegistration]

/-- A step of another connection keeps the agreement. -/
theorem Tracked.other (htracked : Tracked t.manager h s hd) (howned : Owned t)
    (hcase : StepCase t v out) (hhandler : t.handlers s = some hd)
    (hok : PhaseOk t.manager h s hd) (hother : ∀ e ∈ out, actor e ≠ some s) :
    Tracked v.manager (h ++ out) s hd := by
  have hquiet : ∀ c i, .lookedUp c i ∈ out → c ≠ s := by
    rintro c i hmem rfl
    exact hother _ hmem rfl
  constructor
  · rw [List.any_append, any_isRegistration_of_other hother, Bool.or_false]
    exact htracked.registered
  · intro msg targetID hphase
    rcases htracked.request msg targetID hphase with ⟨a, b, rfl, hb, hrest⟩
    refine ⟨a, b ++ out, by simp, fun e he => ?_, hrest⟩
    rcases List.mem_append.mp he with he | he
    · exact hb e he
    · exact hother e he
  · intro d
    have hsame : inHand v.manager hd d = inHand t.manager hd d := by
      unfold inHand
      split
      · rename_i msg peer hphase
        have hflag : hd.registered = true := by
          rw [PhaseOk, hphase] at hok
          exact hok.1
        have howns : hd.Owns := Or.inr ⟨hflag, by simp [hphase], by simp [hphase]⟩
        rw [getRole_of_other howned hcase hhandler howns (by simp [hphase])]
      · rfl
      · rfl
    rw [relayable_quiet hquiet, htracked.relayed d, handed_append, handed_of_other hother, hsame,
      List.append_nil]

/-- A step that looks nothing up, registers nothing and hands nothing over keeps the
agreement when the message in hand stays the same. -/
theorem Tracked.quiet {pm pm' : PeerManager} (htracked : Tracked pm h s hd) {hd' : Handler}
    (hid : hd'.id = hd.id)
    (hflag : (hd'.registered = true ∨ hd'.phase = .accepted) ↔
      (hd.registered = true ∨ hd.phase = .accepted))
    (hregistration : ∀ e ∈ out, isRegistration s e = false)
    (hlookup : ∀ c i, .lookedUp c i ∉ out) (hdelivered : ∀ c d data, .delivered c d data ∉ out)
    (hrequest : ∀ msg targetID, hd'.phase = .lookup msg targetID →
      AtLookup (h ++ out) s hd'.id msg targetID)
    (hhand : ∀ d, inHand pm' hd' d = inHand pm hd d) : Tracked pm' (h ++ out) s hd' := by
  constructor
  · have hany : out.any (isRegistration s) = false := by simpa using hregistration
    rw [List.any_append, hany, Bool.or_false, hflag]
    exact htracked.registered
  · exact hrequest
  · intro d
    have hnone : handed s d out = [] := by
      refine List.filterMap_eq_nil_iff.mpr fun e he => ?_
      cases e with
      | delivered c target data => exact absurd he (hdelivered c target data)
      | _ => rfl
    rw [hid, relayable_quiet fun c i hmem => absurd hmem (hlookup c i), htracked.relayed d,
      handed_append, hnone, hhand d, List.append_nil]

/-- What a dispatched message leaves a handler with. -/
theorem inHand_dispatch (pm : PeerManager) (hd : Handler) (msg : Message) (d : Conn) :
    inHand pm { hd with phase := hd.dispatch msg } d = [] := by
  rcases hd.dispatch_cases msg with heq | ⟨heq, _⟩ | ⟨heq, _⟩ <;> simp [inHand, heq]

/-- A handler's move keeps the agreement. -/
theorem Tracked.move {pm : PeerManager} (htracked : Tracked pm h s hd) (hget : ownerOf h = pm.get)
    {phase : Phase} (hmove : Move pm s hd phase out)
    (hmissed : ∀ msg targetID, hd.phase = .lookup msg targetID → phase = .reading →
      pm.get targetID = none)
    (hblocked : ∀ msg peer, hd.phase = .roleCheck msg peer → phase = .reading →
      pm.getRole hd.id = roleClient ∧ peer.role = roleClient) :
    Tracked pm (h ++ out) s { hd with phase := phase } := by
  cases hmove with
  | dispatched msg hphase =>
      refine htracked.quiet rfl ?_ (by simp [isRegistration]) (by simp) (by simp) ?_ fun d => ?_
      · simp [hphase, (dispatch_ne hd msg).1]
      · intro msg' targetID hlookup
        rcases hd.dispatch_cases msg with heq | ⟨heq, _⟩ | ⟨heq, hflag, hvalid, htype⟩
        · rw [heq] at hlookup
          contradiction
        · rw [heq] at hlookup
          contradiction
        · rw [heq] at hlookup
          cases hlookup
          exact ⟨h, [], rfl, by simp, htracked.registered.mpr (Or.inl hflag), hvalid, htype, rfl⟩
      · rw [inHand_dispatch]
        simp [inHand, hphase]
  | missed msg targetID hphase =>
      have hat := htracked.request msg targetID hphase
      have hnone := hmissed msg targetID hphase rfl
      have htarget : targetID = targetOf hd.id msg := by
        rcases hat with ⟨_, _, _, _, _, _, _, htarget⟩
        exact htarget
      refine ⟨?_, by simp, fun d => ?_⟩
      · simpa [isRegistration, hphase] using htracked.registered
      · have hrelay : relayAt h hd.id d msg = [] := by
          simp [relayAt, ← htarget, hget, hnone]
        rw [relayable_lookedUp hat, hrelay, htracked.relayed d]
        simp [handed, inHand, hphase]
  | found msg targetID peer hphase hpeer =>
      have hat := htracked.request msg targetID hphase
      have htarget : targetID = targetOf hd.id msg := by
        rcases hat with ⟨_, _, _, _, _, _, _, htarget⟩
        exact htarget
      refine ⟨?_, by simp, fun d => ?_⟩
      · simpa [isRegistration, hphase] using htracked.registered
      · have hrelay : relayAt h hd.id d msg =
            inHand pm { hd with phase := .roleCheck msg peer } d := by
          simp [relayAt, inHand, ← htarget, hget, hpeer, roleOf_eq hget]
        rw [relayable_lookedUp hat, hrelay, htracked.relayed d]
        simp [handed, inHand, hphase]
  | blocked msg peer hphase =>
      refine htracked.quiet rfl (by simp [hphase]) (by simp) (by simp) (by simp) (by simp)
        fun d => ?_
      simp [inHand, hphase, hblocked msg peer hphase rfl]
  | allowed msg peer hphase hroles =>
      refine htracked.quiet rfl (by simp [hphase]) (by simp) (by simp) (by simp) (by simp)
        fun d => ?_
      simp [inHand, hphase, hroles]
  | handed data target hphase =>
      refine ⟨?_, by simp, fun d => ?_⟩
      · simpa [isRegistration, hphase] using htracked.registered
      · rw [relayable_quiet (by simp), htracked.relayed d, handed_append]
        by_cases htarget : target = d
        · simp [Relay.handed, inHand, hphase, htarget]
        · simp [Relay.handed, inHand, hphase, htarget]
  | _ =>
      refine htracked.quiet rfl (by simp [*]) (by simp [isRegistration]) (by simp) (by simp)
        (by simp) fun d => ?_
      simp [inHand, *]

/-- Handlers agree with the history, and a connection without one has no history. -/
def Tracking (t : Relay) (h : List RelayEvent) : Prop :=
  ∀ s, (∀ hd, t.handlers s = some hd → Tracked t.manager h s hd) ∧
    (t.handlers s = none → ∀ e ∈ h, actor e ≠ some s)

theorem tracking_init (maxConns : Int) : Tracking (init maxConns) [] := by
  intro s
  refine ⟨fun hd hhandler => ?_, fun _ e he => ?_⟩
  · cases hhandler
  · cases he

/-- A new handler has no history. -/
theorem tracked_opened {pm : PeerManager} (hother : ∀ e ∈ h, actor e ≠ some s) (id : GoString) :
    Tracked pm (h ++ [.opened s id]) s ⟨id, false, .reading⟩ := by
  constructor
  · rw [List.any_append, any_isRegistration_of_other hother]
    simp [isRegistration]
  · intro msg targetID hphase
    cases hphase
  · intro d
    rw [relayable_quiet (by simp), relayable_of_other hother, handed_append,
      handed_of_other hother]
    rfl

/-- An accepted registration is tracked. -/
theorem Tracked.register {pm pm' : PeerManager} (htracked : Tracked pm h s hd) {role : PeerRole}
    (hphase : hd.phase = .registering role) :
    Tracked pm' (h ++ [.registered s hd.id role]) s { hd with phase := .accepted } := by
  constructor
  · simp [isRegistration]
  · intro msg targetID hlookup
    cases hlookup
  · intro d
    rw [relayable_quiet (by simp), htracked.relayed d, handed_append]
    simp [handed, inHand, hphase]

/-- Every step keeps what the handlers are about to do in line with their histories. -/
theorem tracking_step {label : RelayLabel} (howned : Owned t) (hget : ownerOf h = t.manager.get)
    (hrelaying : Relaying t h) (htracking : Tracking t h)
    (hstep : t.step label = some (v, out)) : Tracking v (h ++ out) := by
  have hcase := step_cases hstep
  intro s
  rcases hcase.other s with ⟨h', hown, hh'⟩ | ⟨hsame, hother⟩
  · refine ⟨fun hd hhandler => ?_, fun hnone => ?_⟩
    · have hmissed : ∀ hd₀, t.handlers s = some hd₀ → ∀ msg targetID,
          hd₀.phase = .lookup msg targetID → h'.phase = .reading →
            t.manager.get targetID = none :=
        fun hd₀ hhd₀ msg targetID hphase hreading =>
          get_of_missed hhd₀ hphase hstep hh' hreading
      have hblocked : ∀ hd₀, t.handlers s = some hd₀ → ∀ msg peer,
          hd₀.phase = .roleCheck msg peer → h'.phase = .reading →
            t.manager.getRole hd₀.id = roleClient ∧ peer.role = roleClient :=
        fun hd₀ hhd₀ msg peer hphase hreading =>
          roles_of_blocked hhd₀ hphase hstep hh' hreading
      rw [hh'] at hhandler
      cases hhandler
      have hbefore := htracking s
      generalize t.handlers s = before at hown hbefore hmissed hblocked
      generalize v.manager = pm' at hown
      cases hown with
      | opened path => exact tracked_opened (hbefore.2 rfl) _
      | moved hd₀ phase out hmove =>
          exact (hbefore.1 hd₀ rfl).move hget hmove (hmissed hd₀ rfl) (hblocked hd₀ rfl)
      | registered hd₀ role pm' hphase _ => exact (hbefore.1 hd₀ rfl).register hphase
      | flagged hd₀ hphase =>
          refine (hbefore.1 hd₀ rfl).quiet rfl (by simp [hphase]) (by simp) (by simp) (by simp)
            (by simp) fun d => ?_
          simp [inHand, hphase]
      | unregistered hd₀ hphase hflag =>
          refine (hbefore.1 hd₀ rfl).quiet rfl (by simp [hflag]) (by simp [isRegistration])
            (by simp) (by simp) (by simp) fun d => ?_
          simp [inHand, hphase]
    · rw [hh'] at hnone
      contradiction
  · rw [hsame]
    refine ⟨fun hd hhandler => ?_, fun hnone e he => ?_⟩
    · exact ((htracking s).1 hd hhandler).other howned hcase hhandler
        (hrelaying.1 s hd hhandler) hother
    · rcases List.mem_append.mp he with he | he
      · exact (htracking s).2 hnone e he
      · exact hother e he

/-- In every reachable state the handlers agree with the history. -/
theorem tracking_of_reachable {maxConns : Int} {labels : List RelayLabel}
    (hrun : system.run (init maxConns) labels = some (t, h)) : Tracking t h := by
  refine system.run_invariant_of_steps Tracking
    (fun t h _ => Owned t ∧ ownerOf h = t.manager.get ∧ Relaying t h) (tracking_init maxConns)
    ?_ ?_ hrun
  · rintro t h label v out htracking ⟨howned, hget, hrelaying⟩ hstep
    exact tracking_step howned hget hrelaying htracking hstep
  · intro pre label post hsplit t h' hpre
    exact relaying_of_reachable hpre

/-! ## No frame is passed over -/

/-- A registered handler goes from a message that is to be relayed to the lookup. -/
theorem dispatch_eq_lookup {msg : Message} (hflag : hd.registered = true)
    (hvalid : validateMessageType msg.type = true) (htype : msg.type ≠ msgTypeRegister) :
    hd.dispatch msg = .lookup msg (targetOf hd.id msg) := by
  rw [Handler.dispatch, hvalid, if_neg (by simp), if_neg htype, hflag, if_neg (by simp)]
  rfl

/-- The events of a step answer the frame whose target is to be looked up with that lookup,
and a frame among them leads to the lookup of its own target. -/
theorem LooksUpAll.append {hd' : Handler} (hall : LooksUpAll h s hd) (hid : hd'.id = hd.id)
    (hold : ∀ msg targetID, hd.phase = .lookup msg targetID →
      nextOwn s out = some ([], .lookedUp s targetID) ∨ nextOwn s out = none ∧ hd'.phase = hd.phase)
    (hnew : ∀ before msg after, out = before ++ .received s msg :: after →
      (h ++ before).any (isRegistration s) = true → validateMessageType msg.type = true →
        msg.type ≠ msgTypeRegister → LooksUpNext s hd' msg after) :
    LooksUpAll (h ++ out) s hd' := by
  intro before msg after hsplit hregistered hvalid htype
  rcases List.append_eq_append_iff.mp hsplit with ⟨c, rfl, hout⟩ | ⟨c, hh, hafter⟩
  · exact hnew c msg after hout hregistered hvalid htype
  · cases c with
    | nil =>
        rw [List.append_nil] at hh
        exact hnew [] msg after hafter.symm (by rwa [List.append_nil, hh]) hvalid htype
    | cons e c =>
        rw [List.cons_append, List.cons.injEq] at hafter
        rcases hafter with ⟨rfl, rfl⟩
        rcases hall before msg c hh hregistered hvalid htype with ⟨between, hnext⟩ | ⟨hnone, hphase⟩
        · exact Or.inl ⟨between, by rw [hid]; exact nextOwn_append_of_some hnext⟩
        · have hother := other_of_nextOwn_eq_none hnone
          rcases hold msg _ hphase with hlookup | ⟨hquiet, hsame⟩
          · refine Or.inl ⟨c ++ [], ?_⟩
            rw [nextOwn_append_of_other hother, hlookup, hid]
            rfl
          · refine Or.inr ⟨?_, by rw [hsame, hid, hphase]⟩
            rw [nextOwn_append_of_other hother, hquiet]
            rfl

/-- A step without a frame, of a handler that is not to look anything up, passes nothing over. -/
theorem LooksUpAll.quiet {hd' : Handler} (hall : LooksUpAll h s hd) (hid : hd'.id = hd.id)
    (hphase : ∀ msg targetID, hd.phase ≠ .lookup msg targetID)
    (hframe : ∀ msg, .received s msg ∉ out) : LooksUpAll (h ++ out) s hd' := by
  refine hall.append hid (fun msg targetID hlookup => absurd hlookup (hphase msg targetID)) ?_
  rintro before msg after rfl
  exact absurd (by simp) (hframe msg)

/-- A handler's move passes nothing over. -/
theorem LooksUpAll.move {pm : PeerManager} {phase : Phase} (hall : LooksUpAll h s hd)
    (hregistered : h.any (isRegistration s) = true → hd.registered = true ∨ hd.phase = .accepted)
    (hmove : Move pm s hd phase out) : LooksUpAll (h ++ out) s { hd with phase := phase } := by
  cases hmove with
  | dispatched msg hphase =>
      refine hall.append rfl (by simp [hphase]) ?_
      intro before msg' after hout hbefore hvalid htype
      rcases List.append_eq_cons_iff.mp hout.symm with ⟨rfl, hmsg⟩ | ⟨_, _, hnil⟩
      · cases hmsg
        rw [List.append_nil] at hbefore
        rcases hregistered hbefore with hflag | haccepted
        · exact Or.inr ⟨rfl, dispatch_eq_lookup hflag hvalid htype⟩
        · rw [hphase] at haccepted
          contradiction
      · simp at hnil
  | missed msg targetID hphase | found msg targetID _ hphase _ =>
      refine hall.append rfl (fun msg' targetID' hlookup => Or.inl ?_) ?_
      · rw [hphase] at hlookup
        cases hlookup
        exact nextOwn_cons_self rfl []
      · intro before msg' after hout
        rcases List.append_eq_cons_iff.mp hout.symm with ⟨_, hmsg⟩ | ⟨_, _, hnil⟩
        · cases hmsg
        · simp at hnil
  | _ => exact hall.quiet rfl (by simp [*]) (by simp)

/-- In every reachable state no handler has passed over a frame that is to be relayed. -/
theorem looksUpAll_of_reachable {maxConns : Int} {labels : List RelayLabel}
    (hrun : system.run (init maxConns) labels = some (t, h)) :
    ∀ s hd, t.handlers s = some hd → LooksUpAll h s hd := by
  refine system.run_invariant_of_steps
    (fun t h => ∀ s hd, t.handlers s = some hd → LooksUpAll h s hd)
    (fun t h _ => Tracking t h) ?_ ?_ ?_ hrun
  · intro s hd hhandler
    cases hhandler
  · intro t h label v out hall htracking hstep s hd hhandler
    rcases (step_cases hstep).other s with ⟨h', hown, hh'⟩ | ⟨hsame, hother⟩
    · rw [hh'] at hhandler
      cases hhandler
      have hbefore := hall s
      have htracked := htracking s
      generalize t.handlers s = before at hown hbefore htracked
      generalize v.manager = pm' at hown
      cases hown with
      | opened path =>
          intro before msg after hsplit hregistered
          have hnone := any_isRegistration_of_other (htracked.2 rfl)
          have hany : (h ++ [RelayEvent.opened s (trimConnect path)]).any (isRegistration s) =
              true := by
            rw [hsplit, List.any_append, hregistered, Bool.true_or]
          simp [List.any_append, hnone, isRegistration] at hany
      | moved hd₀ phase out hmove =>
          exact (hbefore hd₀ rfl).move (htracked.1 hd₀ rfl).registered.mp hmove
      | registered hd₀ role pm' hphase _ =>
          exact (hbefore hd₀ rfl).quiet rfl (by simp [hphase]) (by simp)
      | flagged hd₀ hphase => exact (hbefore hd₀ rfl).quiet rfl (by simp [hphase]) (by simp)
      | unregistered hd₀ hphase hflag =>
          exact (hbefore hd₀ rfl).quiet rfl (by simp [hphase]) (by simp)
    · rw [hsame] at hhandler
      refine (hall s hd hhandler).append rfl
        (fun _ _ _ => Or.inr ⟨nextOwn_of_other hother, rfl⟩) ?_
      rintro before msg after rfl
      exact absurd rfl (hother (.received s msg) (by simp))
  · intro pre label post hsplit t h' hpre
    exact tracking_of_reachable hpre

/-- The handler of {lit}`s` looks up the target of every frame that it read once registered and
that is to be relayed, and what it handed to {lit}`d` is what these frames asked for, in reading
order and each once, but for the last one while the handler has it in hand. -/
theorem relayable_eq {maxConns : Int} {labels : List RelayLabel}
    (hrun : system.run (init maxConns) labels = some (t, h)) (s d : Conn) :
    (∀ hd, t.handlers s = some hd → LooksUpAll h s hd ∧
        relayable s hd.id d [] h [] = handed s d h ++ inHand t.manager hd d) ∧
      (t.handlers s = none → handed s d h = []) := by
  have htracking := tracking_of_reachable hrun s
  exact ⟨fun hd hhandler =>
      ⟨looksUpAll_of_reachable hrun s hd hhandler, (htracking.1 hd hhandler).relayed d⟩,
    fun hnone => handed_of_other (htracking.2 hnone) d⟩

/-- The join of a registered client is looked up and handed to the game server. -/
theorem relayable_eq_join :
    ∃ t h, system.run (init 0) (joinLabels (goString "7")) = some (t, h) ∧
      handed 1 0 h = [joinData (goString "7")] ∧
      ∀ hd, t.handlers 1 = some hd → LooksUpAll h 1 hd ∧
        relayable 1 hd.id 0 [] h [] = handed 1 0 h ++ inHand t.manager hd 0 := by
  have hrun : ∃ t, system.run (init 0) (joinLabels (goString "7")) =
      some (t, joinHistory (goString "7") ++ [.delivered 1 0 (joinData (goString "7"))]) :=
    ⟨_, rfl⟩
  rcases hrun with ⟨t, hrun⟩
  exact ⟨t, _, hrun, by simp [handed, joinHistory], (relayable_eq hrun 1 0).1⟩

end Relay

end GameFramework
