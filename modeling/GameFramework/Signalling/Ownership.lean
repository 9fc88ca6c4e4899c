import GameFramework.Signalling.Relay

/-!
# Ownership of registrations

The flag of a handler and the shared peer map are updated in different steps and
without a common lock.  The invariant that ties them together says that the
entries of the map are exactly the ids of the handlers that own one: those whose
flag is set, or whose registration has just been accepted, until their deferred
unregistration runs.

Main results:

- Theorem {lit}`Relay.owned_step`: every step keeps the invariant.
- Theorem {lit}`Relay.ownerOf_step`: the map stays the one that the recorded
  registrations and unregistrations describe.
- Theorem {lit}`Relay.ownership`: the ownership law of every reachable state.
-/

namespace GameFramework

/-- The handler owns the entry of its id. -/
def Handler.Owns (h : Handler) : Prop :=
  h.phase = .accepted ∨ h.registered = true ∧ h.phase ≠ .closing ∧ h.phase ≠ .done

namespace Relay

/-! ## The invariant -/

/-- The entries of the map are the ids of the handlers that own one. -/
structure Owned (t : Relay) : Prop where
  owner : ∀ i peer, t.manager.get i = some peer →
    ∃ h, t.handlers peer.conn = some h ∧ h.id = i ∧ h.Owns
  entry : ∀ c h, t.handlers c = some h → h.Owns → ∃ role, t.manager.get h.id = some ⟨c, role⟩
  listed : t.manager.Listed

theorem owned_init (maxConns : Int) : Owned (init maxConns) where
  owner i peer h := by simp [init] at h
  entry c h hhandler := by cases hhandler
  listed := PeerManager.listed_new maxConns

/-- A dispatched message leaves a handler before shared state, never past an
accepted registration or in the deferred function. -/
theorem dispatch_ne (h : Handler) (msg : Message) :
    h.dispatch msg ≠ .accepted ∧ h.dispatch msg ≠ .exiting ∧ h.dispatch msg ≠ .closing ∧
      h.dispatch msg ≠ .done := by
  rcases h.dispatch_cases msg with heq | ⟨heq, _⟩ | ⟨heq, _⟩ <;> simp [heq]

/-- A move changes nothing about ownership. -/
theorem Move.owns_iff {pm : PeerManager} {c : Conn} {h : Handler} {phase : Phase}
    {out : List RelayEvent} (hmove : Move pm c h phase out) :
    ({ h with phase := phase } : Handler).Owns ↔ h.Owns := by
  have hdispatch := dispatch_ne h
  cases hmove with
  | dispatched msg hphase => simp [Handler.Owns, hphase, hdispatch msg]
  | unowned hphase hflag => simp [Handler.Owns, hphase, hflag]
  | _ => simp_all [Handler.Owns]

section Frame

variable {t v : Relay} {c : Conn} {h h' : Handler}

/-- A step that keeps the manager and replaces a handler by one of the same id and
ownership keeps the invariant. -/
theorem Owned.replace (howned : Owned t) (hhandler : t.handlers c = some h)
    (hhandlers : v.handlers = Function.update t.handlers c (some h'))
    (hmanager : v.manager = t.manager) (hid : h'.id = h.id) (howns : h'.Owns ↔ h.Owns) :
    Owned v where
  owner i peer hget := by
    rw [hmanager] at hget
    rcases howned.owner i peer hget with ⟨h₀, hh₀, hi, hown⟩
    rw [hhandlers]
    by_cases hc : peer.conn = c
    · rw [hc, hhandler] at hh₀
      cases hh₀
      exact ⟨h', by rw [hc, Function.update_self], hid.trans hi, howns.mpr hown⟩
    · exact ⟨h₀, by rw [Function.update_of_ne hc, hh₀], hi, hown⟩
  entry c' h₀ hh₀ hown := by
    rw [hhandlers] at hh₀
    rw [hmanager]
    by_cases hc : c' = c
    · subst hc
      rw [Function.update_self] at hh₀
      cases hh₀
      rw [hid]
      exact howned.entry c' h hhandler (howns.mp hown)
    · rw [Function.update_of_ne hc] at hh₀
      exact howned.entry c' h₀ hh₀ hown
  listed := hmanager ▸ howned.listed

/-- An accepted registration gives the handler its entry. -/
theorem Owned.register {role : PeerRole} (howned : Owned t)
    (hregister : t.manager.register h.id c role = (v.manager, .ok))
    (hhandlers : v.handlers = Function.update t.handlers c (some { h with phase := .accepted }))
    (hhandler : t.handlers c = some h) : Owned v where
  owner i peer hget := by
    rw [PeerManager.get_register hregister] at hget
    rw [hhandlers]
    split at hget
    · rename_i hi
      cases hget
      exact ⟨{ h with phase := .accepted }, by rw [Function.update_self], hi.symm, Or.inl rfl⟩
    · rename_i hi
      rcases howned.owner i peer hget with ⟨h₀, hh₀, hid, hown⟩
      have hc : peer.conn ≠ c := by
        intro hc
        rw [hc, hhandler] at hh₀
        cases hh₀
        exact hi hid.symm
      exact ⟨h₀, by rw [Function.update_of_ne hc, hh₀], hid, hown⟩
  entry c' h₀ hh₀ hown := by
    have hfree := (PeerManager.register_eq_ok_iff.mp hregister).1
    rw [hhandlers] at hh₀
    rw [PeerManager.get_register hregister]
    by_cases hc : c' = c
    · subst hc
      rw [Function.update_self] at hh₀
      cases hh₀
      exact ⟨role, by simp⟩
    · rw [Function.update_of_ne hc] at hh₀
      rcases howned.entry c' h₀ hh₀ hown with ⟨role', hrole'⟩
      have hid : h₀.id ≠ h.id := by
        intro hid
        rw [hid, hfree] at hrole'
        contradiction
      exact ⟨role', by rw [if_neg hid, hrole']⟩
  listed := howned.listed.register hregister

/-- A handler with its flag set that exits finds its own entry. -/
theorem Owned.entry_of_exiting (howned : Owned t) (hhandler : t.handlers c = some h)
    (hphase : h.phase = .exiting) (hflag : h.registered = true) :
    ∃ role, t.manager.get h.id = some ⟨c, role⟩ :=
  howned.entry c h hhandler (Or.inr ⟨hflag, by simp [hphase], by simp [hphase]⟩)

/-- The deferred unregistration takes the handler's own entry. -/
theorem Owned.unregister (howned : Owned t) (hhandler : t.handlers c = some h)
    (hphase : h.phase = .exiting) (hflag : h.registered = true)
    (hhandlers : v.handlers = Function.update t.handlers c (some { h with phase := .closing }))
    (hmanager : v.manager = (t.manager.unregister h.id).1) : Owned v where
  owner i peer hget := by
    rw [hmanager, PeerManager.get_unregister] at hget
    rw [hhandlers]
    split at hget
    · contradiction
    · rename_i hi
      rcases howned.owner i peer hget with ⟨h₀, hh₀, hid, hown⟩
      have hc : peer.conn ≠ c := by
        intro hc
        rw [hc, hhandler] at hh₀
        cases hh₀
        exact hi hid.symm
      exact ⟨h₀, by rw [Function.update_of_ne hc, hh₀], hid, hown⟩
  entry c' h₀ hh₀ hown := by
    rw [hhandlers] at hh₀
    rw [hmanager, PeerManager.get_unregister]
    by_cases hc : c' = c
    · subst hc
      rw [Function.update_self] at hh₀
      cases hh₀
      simp [Handler.Owns] at hown
    · rw [Function.update_of_ne hc] at hh₀
      rcases howned.entry c' h₀ hh₀ hown with ⟨role', hrole'⟩
      rcases howned.entry_of_exiting hhandler hphase hflag with ⟨role, hrole⟩
      have hid : h₀.id ≠ h.id := by
        intro hid
        rw [hid, hrole] at hrole'
        cases hrole'
        exact hc rfl
      exact ⟨role', by rw [if_neg hid, hrole']⟩
  listed := hmanager ▸ howned.listed.unregister h.id

/-- A new handler owns nothing. -/
theorem Owned.open (howned : Owned t) {id : GoString} (hnone : t.handlers c = none)
    (hhandlers : v.handlers = Function.update t.handlers c (some ⟨id, false, .reading⟩))
    (hmanager : v.manager = t.manager) : Owned v where
  owner i peer hget := by
    rw [hmanager] at hget
    rcases howned.owner i peer hget with ⟨h₀, hh₀, hid, hown⟩
    have hc : peer.conn ≠ c := by
      intro hc
      rw [hc, hnone] at hh₀
      contradiction
    exact ⟨h₀, by rw [hhandlers, Function.update_of_ne hc, hh₀], hid, hown⟩
  entry c' h₀ hh₀ hown := by
    rw [hhandlers] at hh₀
    rw [hmanager]
    by_cases hc : c' = c
    · subst hc
      rw [Function.update_self] at hh₀
      cases hh₀
      simp [Handler.Owns] at hown
    · rw [Function.update_of_ne hc] at hh₀
      exact howned.entry c' h₀ hh₀ hown
  listed := hmanager ▸ howned.listed

end Frame

variable {t v : Relay} {out : List RelayEvent}

/-- Every step keeps the invariant. -/
theorem owned_step (howned : Owned t) (hcase : StepCase t v out) : Owned v := by
  cases hcase with
  | refused path hhandlers hmanager =>
      exact ⟨hmanager ▸ hhandlers ▸ howned.owner, hmanager ▸ hhandlers ▸ howned.entry,
        hmanager ▸ howned.listed⟩
  | shutdown closes hhandlers hmanager =>
      exact ⟨hmanager ▸ hhandlers ▸ howned.owner, hmanager ▸ hhandlers ▸ howned.entry,
        hmanager ▸ howned.listed⟩
  | own c h' out hown hhandlers =>
      generalize hbefore : t.handlers c = before at hown
      generalize hmanager : v.manager = pm' at hown
      cases hown with
      | opened path => exact howned.open hbefore hhandlers hmanager
      | moved h phase out hmove =>
          exact howned.replace hbefore hhandlers hmanager rfl hmove.owns_iff
      | registered h role pm' hphase hregister =>
          exact howned.register (hmanager ▸ hregister) hhandlers hbefore
      | flagged h hphase =>
          apply howned.replace hbefore hhandlers hmanager rfl
          simp [Handler.Owns, hphase]
      | unregistered h hphase hflag =>
          exact howned.unregister hbefore hphase hflag hhandlers hmanager

/-! ## The owner that a history describes -/

/-- What one event does to the owners. -/
def record (owners : GoString → Option PeerInfo) : RelayEvent → GoString → Option PeerInfo
  | .registered c id role => Function.update owners id (some ⟨c, role⟩)
  | .unregistered _ id _ => Function.update owners id none
  | _ => owners

/-- The registered owner of an id after a history. -/
def ownerOf (h : List RelayEvent) : GoString → Option PeerInfo :=
  h.foldl record fun _ => none

/-- The owners after more events. -/
theorem ownerOf_append (h out : List RelayEvent) :
    ownerOf (h ++ out) = out.foldl record (ownerOf h) :=
  List.foldl_append

/-- A move records no change of owner. -/
theorem Move.record_eq {pm : PeerManager} {c : Conn} {h : Handler} {phase : Phase}
    (hmove : Move pm c h phase out) (owners : GoString → Option PeerInfo) :
    out.foldl record owners = owners := by
  cases hmove <;> rfl

/-- The map is the one that the recorded registrations and unregistrations
describe. -/
theorem ownerOf_step {h : List RelayEvent} (hcase : StepCase t v out)
    (hget : ownerOf h = t.manager.get) : ownerOf (h ++ out) = v.manager.get := by
  rw [ownerOf_append, hget]
  cases hcase with
  | refused path _ hmanager =>
      rw [hmanager]
      rfl
  | shutdown closes _ hmanager =>
      rw [hmanager]
      cases closes <;> rfl
  | own c h' out hown _ =>
      generalize t.handlers c = before at hown
      generalize v.manager = pm' at hown
      cases hown with
      | opened path => rfl
      | moved h phase out hmove => exact hmove.record_eq _
      | registered h role pm' _ hregister =>
          funext i
          rw [PeerManager.get_register hregister]
          simp [record, Function.update_apply]
      | flagged h _ => rfl
      | unregistered h _ _ =>
          funext i
          rw [PeerManager.get_unregister]
          simp [record, Function.update_apply]

/-- The invariant and the agreement of map and history, for reachable states. -/
theorem owned_of_reachable {maxConns : Int} {labels : List RelayLabel} {h : List RelayEvent}
    (hrun : system.run (init maxConns) labels = some (t, h)) :
    Owned t ∧ ownerOf h = t.manager.get := by
  refine system.run_invariant (fun t h => Owned t ∧ ownerOf h = t.manager.get)
    ⟨owned_init maxConns, rfl⟩ ?_ hrun
  rintro t h label v out ⟨howned, hget⟩ hstep
  have hcase := step_cases hstep
  exact ⟨owned_step howned hcase, ownerOf_step hcase hget⟩

/-! ## The role of an entry -/

/-- The last message that a handler has received. -/
def LastReceived (h : List RelayEvent) (c : Conn) (msg : Message) : Prop :=
  ∃ a b, h = a ++ .received c msg :: b ∧ ∀ m, .received c m ∉ b

/-- The last message stays the last one until another one is received. -/
theorem LastReceived.append {h out : List RelayEvent} {c : Conn} {msg : Message}
    (hlast : LastReceived h c msg) (hout : ∀ m, .received c m ∉ out) :
    LastReceived (h ++ out) c msg := by
  rcases hlast with ⟨a, b, rfl, hb⟩
  refine ⟨a, b ++ out, by simp, fun m hm => ?_⟩
  rcases List.mem_append.mp hm with hm | hm
  · exact hb m hm
  · exact hout m hm

/-- A message that was just received is the last one. -/
theorem LastReceived.self (h : List RelayEvent) (c : Conn) (msg : Message) :
    LastReceived (h ++ [.received c msg]) c msg :=
  ⟨h, [], rfl, by simp⟩

/-- The message asks for a registration in a role that a peer can have. -/
def Registers (msg : Message) (role : PeerRole) : Prop :=
  msg.type = msgTypeRegister ∧ msg.role = role ∧ (role = roleClient ∨ role = roleServer)

/-- A registration was accepted for the last message received before it: a register
message of that role. -/
def AcceptedBy (h : List RelayEvent) (c : Conn) (id : GoString) (role : PeerRole) : Prop :=
  ∃ a b msg, h = a ++ .registered c id role :: b ∧ LastReceived a c msg ∧ Registers msg role

/-- An accepted register message stays accepted. -/
theorem AcceptedBy.append {h : List RelayEvent} {c : Conn} {id : GoString} {role : PeerRole}
    (haccepted : AcceptedBy h c id role) (out : List RelayEvent) :
    AcceptedBy (h ++ out) c id role := by
  rcases haccepted with ⟨a, b, msg, rfl, hlast, hregisters⟩
  exact ⟨a, b ++ out, msg, by simp, hlast, hregisters⟩

/-- A handler that is about to register holds the role of its last message. -/
def Pending (t : Relay) (h : List RelayEvent) : Prop :=
  ∀ c hd role, t.handlers c = some hd → hd.phase = .registering role →
    ∃ msg, LastReceived h c msg ∧ Registers msg role

/-- A handler about to register has received the message that asks for it. -/
theorem pending_step {h : List RelayEvent} (hpending : Pending t h) (hcase : StepCase t v out) :
    Pending v (h ++ out) := by
  intro c hd role hhandler hphase
  rcases hcase.other c with ⟨h', hown, hh'⟩ | ⟨hsame, hactor⟩
  · rw [hh'] at hhandler
    cases hhandler
    generalize t.handlers c = before at hown
    generalize v.manager = pm' at hown
    cases hown with
    | moved h₀ phase out hmove =>
        cases hmove with
        | dispatched msg _ =>
            have hdispatch : h₀.dispatch msg = .registering role := hphase
            rcases h₀.dispatch_cases msg with heq | ⟨heq, htype, hrole⟩ | ⟨heq, _⟩
            · rw [heq] at hdispatch
              contradiction
            · rw [heq] at hdispatch
              cases hdispatch
              exact ⟨msg, LastReceived.self h c msg, htype, rfl, hrole⟩
            · rw [heq] at hdispatch
              contradiction
        | _ => contradiction
    | _ => contradiction
  · rw [hsame] at hhandler
    rcases hpending c hd role hhandler hphase with ⟨msg, hlast, hregisters⟩
    exact ⟨msg, hlast.append fun m hm => hactor _ hm rfl, hregisters⟩

/-- Every entry was accepted for the register message of its owner. -/
def Accepted (t : Relay) (h : List RelayEvent) : Prop :=
  ∀ i peer, t.manager.get i = some peer → AcceptedBy h peer.conn i peer.role

/-- The stored roles stay those of accepted messages. -/
theorem accepted_step {h : List RelayEvent} (hpending : Pending t h) (haccepted : Accepted t h)
    (hcase : StepCase t v out) : Accepted v (h ++ out) := by
  intro i peer hget
  have hold : t.manager.get i = some peer → AcceptedBy (h ++ out) peer.conn i peer.role :=
    fun hget => (haccepted i peer hget).append out
  cases hcase with
  | refused path _ hmanager => exact hold (hmanager ▸ hget)
  | shutdown closes _ hmanager => exact hold (hmanager ▸ hget)
  | own c h' out hown _ =>
      generalize hbefore : t.handlers c = before at hown
      generalize hmanager : v.manager = pm' at hown
      rw [hmanager] at hget
      cases hown with
      | registered h₀ role pm' hphase hregister =>
          rw [PeerManager.get_register hregister] at hget
          split at hget
          · rename_i hi
            cases hget
            rcases hpending c h₀ role hbefore hphase with ⟨msg, hlast, hregisters⟩
            exact ⟨h, [], msg, by rw [hi], hlast, hregisters⟩
          · exact hold hget
      | unregistered h₀ _ _ =>
          rw [PeerManager.get_unregister] at hget
          split at hget
          · contradiction
          · exact hold hget
      | _ => exact hold hget

/-! ## The ownership law -/

/-- An unregistration removes the entry of the handler that runs it, and finds a
server on the server list. -/
def RemovesOwn (h : List RelayEvent) : Prop :=
  ∀ c i outcome, .unregistered c i outcome ∈ h →
    ∃ role, outcome = .removed ⟨c, role⟩ true

/-- Handlers remove their own entries only. -/
theorem removesOwn_step {h : List RelayEvent} (howned : Owned t) (hremoves : RemovesOwn h)
    (hcase : StepCase t v out) : RemovesOwn (h ++ out) := by
  intro c i outcome hmem
  rcases List.mem_append.mp hmem with hmem | hmem
  · exact hremoves c i outcome hmem
  · cases hcase with
    | refused path _ _ => simp at hmem
    | shutdown closes _ _ => simp at hmem
    | own c' h' out hown _ =>
        generalize hbefore : t.handlers c' = before at hown
        generalize v.manager = pm' at hown
        cases hown with
        | unregistered h₀ hphase hflag =>
            simp only [List.mem_singleton, RelayEvent.unregistered.injEq] at hmem
            rcases hmem with ⟨rfl, rfl, rfl⟩
            rcases howned.entry_of_exiting hbefore hphase hflag with ⟨role, hrole⟩
            exact ⟨role, howned.listed.unregister_snd hrole⟩
        | moved h₀ phase out hmove => cases hmove <;> simp at hmem
        | _ => simp at hmem

/-- An entry that a step changes is removed, by the deferred unregistration of its
owner. -/
theorem get_step (howned : Owned t) (hcase : StepCase t v out) {i : GoString}
    {peer : PeerInfo} (hget : t.manager.get i = some peer) :
    v.manager.get i = some peer ∨
      v.manager.get i = none ∧ .unregistered peer.conn i (.removed peer true) ∈ out ∧
        ∃ h, t.handlers peer.conn = some h ∧ h.phase = .exiting ∧ h.registered = true := by
  cases hcase with
  | refused path _ hmanager => exact Or.inl (hmanager ▸ hget)
  | shutdown closes _ hmanager => exact Or.inl (hmanager ▸ hget)
  | own c h' out hown _ =>
      generalize hbefore : t.handlers c = before at hown
      generalize v.manager = pm' at hown
      cases hown with
      | registered h₀ role pm' hphase hregister =>
          have hfree := (PeerManager.register_eq_ok_iff.mp hregister).1
          have hi : i ≠ h₀.id := by
            intro hi
            rw [hi, hfree] at hget
            contradiction
          rw [PeerManager.get_register hregister, if_neg hi]
          exact Or.inl hget
      | unregistered h₀ hphase hflag =>
          rw [PeerManager.get_unregister]
          by_cases hi : i = h₀.id
          · subst hi
            rcases howned.entry_of_exiting hbefore hphase hflag with ⟨role, hrole⟩
            have hpeer : peer = ⟨c, role⟩ := by
              rw [hget] at hrole
              exact Option.some.inj hrole
            subst hpeer
            refine Or.inr ⟨if_pos rfl, ?_, h₀, hbefore, hphase, hflag⟩
            rw [howned.listed.unregister_snd hget]
            exact List.mem_singleton.mpr rfl
          · rw [if_neg hi]
            exact Or.inl hget
      | _ => exact Or.inl hget

/-- What holds of the registrations in a reachable state. -/
structure OwnershipLaw (t : Relay) (h : List RelayEvent) : Prop where
  /-- Every entry belongs to exactly one live handler, which owns it. -/
  owner : ∀ i peer, t.manager.get i = some peer →
    (∃ hd, t.handlers peer.conn = some hd ∧ hd.id = i ∧ hd.Owns) ∧
      ∀ c hd, t.handlers c = some hd → hd.id = i → hd.Owns → c = peer.conn
  /-- A handler with its flag set finds its own connection until its deferred
  unregistration has run. -/
  held : ∀ c hd, t.handlers c = some hd → hd.registered = true → hd.phase ≠ .closing →
    hd.phase ≠ .done → ∃ role, t.manager.get hd.id = some ⟨c, role⟩
  /-- The stored role is that of the accepted register message. -/
  role : ∀ i peer, t.manager.get i = some peer → AcceptedBy h peer.conn i peer.role
  /-- An entry stays as it is until its owner's handler exits and removes it. -/
  stable : ∀ label v out, t.step label = some (v, out) →
    ∀ i peer, t.manager.get i = some peer →
      v.manager.get i = some peer ∨
        v.manager.get i = none ∧ .unregistered peer.conn i (.removed peer true) ∈ out ∧
          ∃ hd, t.handlers peer.conn = some hd ∧ hd.phase = .exiting ∧ hd.registered = true
  /-- A handler that has exited has left no entry behind. -/
  gone : ∀ c hd, t.handlers c = some hd → hd.phase = .closing ∨ hd.phase = .done →
    ∀ i role, t.manager.get i ≠ some ⟨c, role⟩
  /-- Every unregistration removed the entry of the handler that ran it; the branch
  for a nonexistent id is never taken. -/
  removed : ∀ c i outcome, .unregistered c i outcome ∈ h →
    ∃ role, outcome = .removed ⟨c, role⟩ true

/-- The ownership law holds in every reachable state. -/
theorem ownership {maxConns : Int} {labels : List RelayLabel} {h : List RelayEvent}
    (hrun : system.run (init maxConns) labels = some (t, h)) : OwnershipLaw t h := by
  have hinv := system.run_invariant
    (fun t h => Owned t ∧ Pending t h ∧ Accepted t h ∧ RemovesOwn h) ?_ ?_ hrun
  · rcases hinv with ⟨howned, _, haccepted, hremoves⟩
    constructor
    · intro i peer hget
      refine ⟨howned.owner i peer hget, fun c hd hhandler hid hown => ?_⟩
      rcases howned.entry c hd hhandler hown with ⟨role, hrole⟩
      rw [hid, hget] at hrole
      cases hrole
      rfl
    · intro c hd hhandler hflag hclosing hdone
      exact howned.entry c hd hhandler (Or.inr ⟨hflag, hclosing, hdone⟩)
    · exact haccepted
    · intro label v out hstep i peer hget
      exact get_step howned (step_cases hstep) hget
    · intro c hd hhandler hphase i role hget
      rcases howned.owner i _ hget with ⟨hd', hhandler', _, hown⟩
      rw [hhandler] at hhandler'
      cases hhandler'
      rcases hphase with hphase | hphase <;> simp [Handler.Owns, hphase] at hown
    · exact hremoves
  · refine ⟨owned_init maxConns, ?_, ?_, ?_⟩
    · intro c hd role hhandler
      cases hhandler
    · intro i peer hget
      cases hget
    · intro c i outcome hmem
      cases hmem
  · rintro t h label v out ⟨howned, hpending, haccepted, hremoves⟩ hstep
    have hcase := step_cases hstep
    exact ⟨owned_step howned hcase, pending_step hpending hcase,
      accepted_step hpending haccepted hcase, removesOwn_step howned hremoves hcase⟩

/-- A game server connects and registers. -/
def serverLabels : List RelayLabel :=
  [.accept 0 (goString "/connect/12345"),
    .handler 0 (.frame (some
      { id := goString "12345", type := msgTypeRegister, role := roleServer })),
    .handler 0 .advance, .handler 0 .advance]

/-- A second game server comes under the same id and is turned away; a client registers and
leaves. -/
def turnedAwayLabels : List RelayLabel :=
  serverLabels ++
    [.accept 1 (goString "/connect/12345"),
      .handler 1 (.frame (some { id := [], type := msgTypeRegister, role := roleServer })),
      .handler 1 .advance, .accept 2 (goString "/connect/7"),
      .handler 2 (.frame (some { id := [], type := msgTypeRegister, role := roleClient })),
      .handler 2 .advance, .handler 2 .advance, .handler 1 .readError, .handler 1 .advance,
      .handler 1 .advance, .handler 2 .readError, .handler 2 .advance, .handler 2 .advance]

/-- The entry of the game server outlives the handler that was turned away, and the entry of the
client goes with its own. -/
theorem ownership_turnedAway :
    ∃ t h, system.run (init 0) turnedAwayLabels = some (t, h) ∧ OwnershipLaw t h ∧
      .rejected 1 (goString "12345") ∈ h ∧ .returned 1 ∈ h ∧
      t.manager.get (goString "12345") = some ⟨0, roleServer⟩ ∧
      .unregistered 2 (goString "7") (.removed ⟨2, roleClient⟩ true) ∈ h ∧
      t.manager.get (goString "7") = none := by
  have hrun : ∃ t, system.run (init 0) turnedAwayLabels = some (t,
      [.opened 0 (goString "12345"),
        .received 0 { id := goString "12345", type := msgTypeRegister, role := roleServer },
        .registered 0 (goString "12345") roleServer,
        .opened 1 (goString "12345"),
        .received 1 { id := [], type := msgTypeRegister, role := roleServer },
        .rejected 1 (goString "12345"),
        .opened 2 (goString "7"),
        .received 2 { id := [], type := msgTypeRegister, role := roleClient },
        .registered 2 (goString "7") roleClient, .readFailed 1, .returned 1, .closed 1,
        .readFailed 2, .returned 2,
        .unregistered 2 (goString "7") (.removed ⟨2, roleClient⟩ true), .closed 2]) ∧
      t.manager.get (goString "12345") = some ⟨0, roleServer⟩ ∧
      t.manager.get (goString "7") = none :=
    ⟨_, rfl, rfl, rfl⟩
  rcases hrun with ⟨t, hrun, hkept, hgone⟩
  exact ⟨t, _, hrun, ownership hrun, by simp, by simp, hkept, by simp, hgone⟩

end Relay

end GameFramework
