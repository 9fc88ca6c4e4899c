import GameFramework.Signalling.Relay
import Mathlib.Data.Set.Card

/-!
# The peer registry over whole runs

The peer manager keeps the registered peers twice: in a map, and, for the servers,
in a list that is extended and cut in place.  Here its methods are called in any
order and with any arguments, and both copies are compared with the calls that were
made.

Main results:

- Theorem {lit}`PeerManager.registryLaw`: map, server list and number of peers are those
  of the current registrations, the server list in the order of registration.
- Theorem {lit}`Relay.exists_registry_run`: what the handlers of the relay do to the
  manager, in any interleaving, is such a sequence of calls.
-/

namespace GameFramework

/-- The calls that may change a peer manager. -/
inductive RegistryCall where
  | register (id : GoString) (c : Conn) (role : PeerRole)
  | unregister (id : GoString)

/-- What a call reports: {lit}`Register` its error or none, {lit}`Unregister` what it
found. -/
inductive RegistryEvent where
  | registered (id : GoString) (role : PeerRole)
  | rejected (id : GoString)
  | unregistered (id : GoString) (outcome : UnregisterOutcome)

namespace PeerManager

/-- {lit}`GetServerList`: a copy of the list. -/
def getServerList (pm : PeerManager) : List GoString :=
  pm.servers

/-- One call. -/
def call (pm : PeerManager) : RegistryCall → PeerManager × List RegistryEvent
  | .register id c role =>
      match pm.register id c role with
      | (pm', .ok) => (pm', [.registered id role])
      | (pm', .errExist) => (pm', [.rejected id])
  | .unregister id =>
      match pm.unregister id with
      | (pm', outcome) => (pm', [.unregistered id outcome])

/-- The peer manager as a labelled system: every call is possible in every state. -/
def registry : Labelled.System PeerManager RegistryCall RegistryEvent where
  step pm c := some (pm.call c)

/-! ## The current registrations -/

/-- The last accepted registration of an id was in this role, and the id has not been
unregistered since. -/
def Registered (h : List RegistryEvent) (id : GoString) (role : PeerRole) : Prop :=
  ∃ x z, h = x ++ .registered id role :: z ∧ (∀ role', .registered id role' ∉ z) ∧
    ∀ outcome, .unregistered id outcome ∉ z

/-- The current registration of the first id was made before that of the second. -/
def RegisteredBefore (h : List RegistryEvent) (a b : GoString) : Prop :=
  ∃ x z roleA roleB, h = x ++ .registered b roleB :: z ∧ (∀ role, .registered b role ∉ z) ∧
    Registered x a roleA ∧ (∀ role, .registered a role ∉ z) ∧
    ∀ outcome, .unregistered a outcome ∉ z

/-- Events that say nothing about an id. -/
def Silent (out : List RegistryEvent) (id : GoString) : Prop :=
  (∀ role, .registered id role ∉ out) ∧ ∀ outcome, .unregistered id outcome ∉ out

/-- An id stays registered while nothing happens to it. -/
theorem Registered.append {h out : List RegistryEvent} {id : GoString} {role : PeerRole}
    (hreg : Registered h id role) (hout : Silent out id) : Registered (h ++ out) id role := by
  rcases hreg with ⟨x, z, rfl, hnew, hgone⟩
  refine ⟨x, z ++ out, by simp, fun role' hmem => ?_, fun outcome hmem => ?_⟩
  · rcases List.mem_append.mp hmem with hmem | hmem
    · exact hnew role' hmem
    · exact hout.1 role' hmem
  · rcases List.mem_append.mp hmem with hmem | hmem
    · exact hgone outcome hmem
    · exact hout.2 outcome hmem

/-- Events about other ids do not change a registration. -/
theorem registered_append_iff {h out : List RegistryEvent} {id : GoString} {role : PeerRole}
    (hout : Silent out id) : Registered (h ++ out) id role ↔ Registered h id role := by
  constructor
  · rintro ⟨x, z, hsplit, hnew, hgone⟩
    rcases List.append_eq_append_iff.mp hsplit with ⟨c, hx, hz⟩ | ⟨c, hh, htail⟩
    · -- the registration would be among the new events
      exfalso
      refine hout.1 role ?_
      rw [hz]
      exact List.mem_append_right c List.mem_cons_self
    · cases c with
      | nil =>
          exfalso
          refine hout.1 role ?_
          rw [show out = .registered id role :: z by simpa using htail.symm]
          exact List.mem_cons_self
      | cons e c =>
          rw [List.cons_append, List.cons.injEq] at htail
          rcases htail with ⟨rfl, rfl⟩
          exact ⟨x, c, hh, fun role' hmem => hnew role' (List.mem_append_left out hmem),
            fun outcome hmem => hgone outcome (List.mem_append_left out hmem)⟩
  · exact fun hreg => hreg.append hout

/-- After a registration the id has this role. -/
theorem registered_self_iff (h : List RegistryEvent) (id : GoString) (role role' : PeerRole) :
    Registered (h ++ [.registered id role]) id role' ↔ role' = role := by
  constructor
  · rintro ⟨x, z, hsplit, hnew, _⟩
    rcases List.eq_nil_or_concat z with rfl | ⟨z, e, rfl⟩
    · have heq := List.append_inj_right' hsplit rfl
      simpa [eq_comm] using heq
    · exfalso
      have hlast : RegistryEvent.registered id role = e := by
        have hends : h ++ [.registered id role] = (x ++ .registered id role' :: z) ++ [e] := by
          simpa using hsplit
        simpa using List.append_inj_right' hends rfl
      exact hnew role (by simp [hlast])
  · rintro rfl
    exact ⟨h, [], rfl, by simp, by simp⟩

/-- After an unregistration the id has no role. -/
theorem not_registered_unregistered (h : List RegistryEvent) (id : GoString)
    (outcome : UnregisterOutcome) (role : PeerRole) :
    ¬ Registered (h ++ [.unregistered id outcome]) id role := by
  rintro ⟨x, z, hsplit, _, hgone⟩
  rcases List.eq_nil_or_concat z with rfl | ⟨z, e, rfl⟩
  · have heq := List.append_inj_right' hsplit rfl
    simp at heq
  · have hlast : RegistryEvent.unregistered id outcome = e := by
      have hends : h ++ [.unregistered id outcome] =
          (x ++ .registered id role :: z) ++ [e] := by
        simpa using hsplit
      simpa using List.append_inj_right' hends rfl
    exact hgone outcome (by simp [hlast])

/-- So does the order of two ids. -/
theorem RegisteredBefore.append {h out : List RegistryEvent} {a b : GoString}
    (hbefore : RegisteredBefore h a b) (ha : Silent out a) (hb : Silent out b) :
    RegisteredBefore (h ++ out) a b := by
  rcases hbefore with ⟨x, z, roleA, roleB, rfl, hnewB, hreg, hnewA, hgoneA⟩
  refine ⟨x, z ++ out, roleA, roleB, by simp, fun role hmem => ?_, hreg, fun role hmem => ?_,
    fun outcome hmem => ?_⟩
  · rcases List.mem_append.mp hmem with hmem | hmem
    · exact hnewB role hmem
    · exact hb.1 role hmem
  · rcases List.mem_append.mp hmem with hmem | hmem
    · exact hnewA role hmem
    · exact ha.1 role hmem
  · rcases List.mem_append.mp hmem with hmem | hmem
    · exact hgoneA outcome hmem
    · exact ha.2 outcome hmem

/-! ## The invariant -/

/-- The manager after a history of calls. -/
structure Recorded (pm : PeerManager) (h : List RegistryEvent) : Prop where
  /-- The server list is the list of registered servers, each once. -/
  listed : pm.Listed
  /-- The map holds the current registrations. -/
  entry : ∀ id role, (∃ peer, pm.get id = some peer ∧ peer.role = role) ↔ Registered h id role
  /-- The servers stand in the order of their current registrations. -/
  ordered : pm.servers.Pairwise (RegisteredBefore h)
  /-- A bound on the number of peers holds. -/
  bounded : 0 < pm.maxConns → (pm.len : Int) ≤ pm.maxConns

theorem recorded_new (maxConns : Int) : Recorded (new maxConns) [] where
  listed := listed_new maxConns
  entry id role := by
    constructor
    · rintro ⟨peer, hget, _⟩
      simp at hget
    · rintro ⟨x, z, hsplit, _⟩
      simp at hsplit
  ordered := List.Pairwise.nil
  bounded hpos := by simpa [len, new] using hpos.le

variable {pm pm' : PeerManager} {id : GoString} {h : List RegistryEvent}

/-- A server that is not registered anew keeps its role through events about
others. -/
theorem Recorded.registered_of_mem (hrec : Recorded pm h) (hmem : id ∈ pm.servers) :
    Registered h id roleServer :=
  (hrec.entry id roleServer).mp ((hrec.listed.mem_iff id).mp hmem)

/-- An accepted registration makes the map one larger. -/
theorem len_register {c : Conn} {role : PeerRole} (hregister : pm.register id c role = (pm', .ok)) :
    pm'.len = pm.len + 1 := by
  rcases register_eq_ok_iff.mp hregister with ⟨hfree, _, rfl⟩
  have hnot : id ∉ pm.peers := by
    rw [← AList.lookup_eq_none]
    exact hfree
  unfold len
  dsimp only
  rw [AList.entries_insert_of_notMem hnot, List.length_cons]

/-- An unregistration does not make the map larger. -/
theorem len_unregister_le (pm : PeerManager) (id : GoString) :
    (pm.unregister id).1.len ≤ pm.len := by
  have herase : (pm.peers.erase id).entries.length ≤ pm.peers.entries.length :=
    (List.kerase_sublist id pm.peers.entries).length_le
  unfold unregister
  split
  · split
    · exact herase
    · exact herase
  · exact le_rfl

/-- The limit never changes. -/
theorem maxConns_unregister (pm : PeerManager) (id : GoString) :
    (pm.unregister id).1.maxConns = pm.maxConns := by
  unfold unregister
  split
  · split <;> rfl
  · rfl

/-- An accepted registration is recorded. -/
theorem Recorded.register (hrec : Recorded pm h) {c : Conn} {role : PeerRole}
    (hregister : pm.register id c role = (pm', .ok)) :
    Recorded pm' (h ++ [.registered id role]) := by
  have hget := get_register hregister
  have hlen := len_register hregister
  have hlisted := hrec.listed.register hregister
  rcases register_eq_ok_iff.mp hregister with ⟨hfree, hroom, hpm'⟩
  have hsilent : ∀ id', id' ≠ id → Silent [.registered id role] id' := by
    intro id' hid
    constructor
    · intro role' hmem
      simp only [List.mem_singleton, RegistryEvent.registered.injEq] at hmem
      exact hid hmem.1
    · intro outcome hmem
      simp at hmem
  have hother : ∀ id' ∈ pm.servers, id' ≠ id := by
    intro id' hmem hid
    rcases (hrec.listed.mem_iff id').mp hmem with ⟨peer, hpeer, _⟩
    rw [hid, hfree] at hpeer
    contradiction
  refine ⟨hlisted, fun id' role' => ?_, ?_, fun hpos => ?_⟩
  · rw [hget id']
    by_cases hid : id' = id
    · subst hid
      rw [registered_self_iff]
      simp [eq_comm]
    · rw [if_neg hid, registered_append_iff (hsilent id' hid)]
      exact hrec.entry id' role'
  · have hkept : pm.servers.Pairwise (RegisteredBefore (h ++ [.registered id role])) := by
      refine hrec.ordered.imp_of_mem fun {a b} ha hb hbefore => ?_
      exact hbefore.append (hsilent a (hother a ha)) (hsilent b (hother b hb))
    rw [hpm']
    dsimp only
    split
    · rw [List.pairwise_append]
      refine ⟨hkept, List.pairwise_singleton _ id, fun a ha b hb => ?_⟩
      rw [List.mem_singleton.mp hb]
      exact ⟨h, [], roleServer, role, rfl, by simp, hrec.registered_of_mem ha, by simp, by simp⟩
    · exact hkept
  · have hsame : pm'.maxConns = pm.maxConns := by rw [hpm']
    rw [hsame] at hpos ⊢
    have hlt : (pm.len : Int) < pm.maxConns := by
      by_contra hfull
      exact hroom ⟨hpos, not_lt.mp hfull⟩
    rw [hlen]
    push_cast
    omega

/-- An unregistration is recorded. -/
theorem Recorded.unregister (hrec : Recorded pm h) (id : GoString)
    (outcome : UnregisterOutcome) :
    Recorded (pm.unregister id).1 (h ++ [.unregistered id outcome]) := by
  have hservers := hrec.listed.servers_unregister id
  have hsilent : ∀ id', id' ≠ id → Silent [.unregistered id outcome] id' := by
    intro id' hid
    constructor
    · intro role' hmem
      simp at hmem
    · intro outcome' hmem
      simp only [List.mem_singleton, RegistryEvent.unregistered.injEq] at hmem
      exact hid hmem.1
  refine ⟨hrec.listed.unregister id, fun id' role' => ?_, ?_, fun hpos => ?_⟩
  · rw [get_unregister]
    by_cases hid : id' = id
    · subst hid
      simp [not_registered_unregistered]
    · rw [if_neg hid, registered_append_iff (hsilent id' hid)]
      exact hrec.entry id' role'
  · rw [hservers, hrec.listed.nodup.erase_eq_filter]
    refine (hrec.ordered.filter _).imp_of_mem fun {a b} ha hb hbefore => ?_
    have ha' : a ≠ id := by simpa using (List.mem_filter.mp ha).2
    have hb' : b ≠ id := by simpa using (List.mem_filter.mp hb).2
    exact hbefore.append (hsilent a ha') (hsilent b hb')
  · rw [maxConns_unregister] at hpos ⊢
    have hle : ((pm.unregister id).1.len : Int) ≤ pm.len := by
      exact_mod_cast len_unregister_le pm id
    exact hle.trans (hrec.bounded hpos)

/-- A refused registration is recorded: nothing changes. -/
theorem Recorded.rejected (hrec : Recorded pm h) (id : GoString) :
    Recorded pm (h ++ [.rejected id]) := by
  have hsilent : ∀ id', Silent [.rejected id] id' := fun id' => ⟨by simp, by simp⟩
  refine ⟨hrec.listed, fun id' role' => ?_, ?_, hrec.bounded⟩
  · rw [registered_append_iff (hsilent id')]
    exact hrec.entry id' role'
  · exact hrec.ordered.imp fun hbefore => hbefore.append (hsilent _) (hsilent _)

/-- Every call keeps the invariant. -/
theorem recorded_call (hrec : Recorded pm h) (c : RegistryCall) :
    Recorded (pm.call c).1 (h ++ (pm.call c).2) := by
  cases c with
  | register id c role =>
      simp only [call]
      split
      · rename_i pm' hregister
        exact hrec.register hregister
      · rename_i pm' hregister
        rw [register_of_errExist hregister]
        exact hrec.rejected id
  | unregister id => exact hrec.unregister id (pm.unregister id).2

/-- The registry is what its history says. -/
theorem recorded_of_reachable {maxConns : Int} {calls : List RegistryCall}
    (hrun : registry.run (new maxConns) calls = some (pm, h)) : Recorded pm h := by
  refine registry.run_invariant Recorded (recorded_new maxConns) ?_ hrun
  intro pm h c pm' out hrec hstep
  simp only [registry, Option.some.injEq] at hstep
  have hcall := recorded_call hrec c
  rw [hstep] at hcall
  exact hcall

/-! ## The law of the registry -/

/-- The ids of the registered peers. -/
theorem len_eq_ncard (pm : PeerManager) : pm.len = {id | (pm.get id).isSome}.ncard := by
  have hkeys : {id | (pm.get id).isSome} = (pm.peers.keys.toFinset : Set GoString) := by
    ext id
    rw [Set.mem_ofPred_eq, List.coe_toFinset, Set.mem_ofPred_eq, ← AList.mem_keys]
    exact AList.lookup_isSome
  rw [hkeys, Set.ncard_coe_finset, List.toFinset_card_of_nodup pm.peers.keys_nodup]
  simp [len, AList.keys, List.keys]

/-- What holds of a peer manager after a history of calls. -/
structure RegistryLaw (pm : PeerManager) (h : List RegistryEvent) : Prop where
  nodup : pm.servers.Nodup
  /-- The list holds exactly the ids whose entry has the role of a server. -/
  mem_iff : ∀ id, id ∈ pm.servers ↔ ∃ peer, pm.get id = some peer ∧ peer.role = roleServer
  /-- It lists them in the order of their current registrations. -/
  ordered : pm.servers.Pairwise (RegisteredBefore h)
  bounded : 0 < pm.maxConns → (pm.len : Int) ≤ pm.maxConns
  /-- A registration that returns an error changes nothing. -/
  rejected : ∀ id c role pm', pm.call (.register id c role) = (pm', [.rejected id]) → pm' = pm
  /-- An unregistration removes this id from the map and no other. -/
  get_unregister : ∀ id id', (pm.unregister id).1.get id' =
    if id' = id then none else pm.get id'
  /-- It removes this id from the list and keeps the order of the rest. -/
  servers_unregister : ∀ id, (pm.unregister id).1.servers = pm.servers.filter (· ≠ id)
  /-- A server that is removed is found on the list. -/
  found : ∀ id peer, (pm.unregister id).2 ≠ .removed peer false
  /-- {lit}`GetServerList` returns the currently registered servers. -/
  getServerList_iff : ∀ id, id ∈ pm.getServerList ↔ Registered h id roleServer
  /-- {lit}`Len` counts the currently registered peers of any role. -/
  len_eq : pm.len = {id | ∃ role, Registered h id role}.ncard

/-- The law holds after every sequence of calls. -/
theorem registryLaw {maxConns : Int} {calls : List RegistryCall}
    (hrun : registry.run (new maxConns) calls = some (pm, h)) : RegistryLaw pm h := by
  have hrec := recorded_of_reachable hrun
  refine
    { nodup := hrec.listed.nodup
      mem_iff := hrec.listed.mem_iff
      ordered := hrec.ordered
      bounded := hrec.bounded
      rejected := fun id c role pm' hcall => ?_
      get_unregister := PeerManager.get_unregister pm
      servers_unregister := fun id => ?_
      found := fun id peer => ?_
      getServerList_iff := fun id => ?_
      len_eq := ?_ }
  · simp only [call] at hcall
    split at hcall
    · simp at hcall
    · rename_i hregister
      rw [← (Prod.mk.inj hcall).1]
      exact register_of_errExist hregister
  · rw [hrec.listed.servers_unregister id, hrec.listed.nodup.erase_eq_filter]
    exact List.filter_congr fun id' _ => Bool.eq_iff_iff.mpr (by simp)
  · cases hget : pm.get id with
    | some peer' =>
        rw [hrec.listed.unregister_snd hget]
        simp
    | none => simp [unregister, hget]
  · exact (hrec.listed.mem_iff id).trans (hrec.entry id roleServer)
  · rw [len_eq_ncard]
    congr 1
    ext id
    rw [Set.mem_ofPred_eq, Set.mem_ofPred_eq, Option.isSome_iff_exists]
    constructor
    · rintro ⟨peer, hget⟩
      exact ⟨peer.role, (hrec.entry id peer.role).mp ⟨peer, hget, rfl⟩⟩
    · rintro ⟨role, hreg⟩
      rcases (hrec.entry id role).mpr hreg with ⟨peer, hget, _⟩
      exact ⟨peer, hget⟩

/-- Two servers and a client, of which the first server leaves and comes back as a
client; the manager is full for the fourth id. -/
def registryCalls : List RegistryCall :=
  [.register (goString "1") 0 roleServer, .register (goString "2") 1 roleClient,
    .register (goString "3") 2 roleServer, .register (goString "4") 3 roleServer,
    .unregister (goString "1"), .register (goString "1") 4 roleClient]

/-- A full registry from which servers have gone. -/
theorem registryLaw_calls :
    ∃ pm h, registry.run (new 3) registryCalls = some (pm, h) ∧ pm.servers = [goString "3"] ∧
      RegistryLaw pm h := by
  have hrun : ∃ pm h, registry.run (new 3) registryCalls = some (pm, h) ∧
      pm.servers = [goString "3"] := ⟨_, _, rfl, by decide⟩
  rcases hrun with ⟨pm, h, hrun, hservers⟩
  exact ⟨pm, h, hrun, hservers, registryLaw hrun⟩

end PeerManager

namespace Relay

variable {t v : Relay} {out : List RelayEvent}

/-- A step of the relay is at most one call to its manager. -/
theorem StepCase.registry_step (hcase : StepCase t v out) :
    v.manager = t.manager ∨ ∃ c, v.manager = (t.manager.call c).1 := by
  cases hcase with
  | refused path _ hmanager => exact Or.inl hmanager
  | shutdown closes _ hmanager => exact Or.inl hmanager
  | own c h' out hown _ =>
      generalize t.handlers c = before at hown
      generalize v.manager = pm' at hown
      cases hown with
      | registered h role pm' hphase hregister =>
          exact Or.inr ⟨.register h.id c role, by simp [PeerManager.call, hregister]⟩
      | unregistered h hphase hflag => exact Or.inr ⟨.unregister h.id, rfl⟩
      | _ => exact Or.inl rfl

/-- The manager of every reachable relay is one that a sequence of calls leads to. -/
theorem exists_registry_run {maxConns : Int} {labels : List RelayLabel} {h : List RelayEvent}
    (hrun : system.run (init maxConns) labels = some (t, h)) :
    ∃ calls h', PeerManager.registry.run (PeerManager.new maxConns) calls =
      some (t.manager, h') := by
  refine system.run_invariant (fun t _ => ∃ calls h', PeerManager.registry.run
    (PeerManager.new maxConns) calls = some (t.manager, h')) ⟨[], [], rfl⟩ ?_ hrun
  rintro t h label v out ⟨calls, h', hcalls⟩ hstep
  rcases (step_cases hstep).registry_step with hsame | ⟨c, hcall⟩
  · exact ⟨calls, h', by rw [hsame, hcalls]⟩
  · exact ⟨calls ++ [c], _, PeerManager.registry.run_concat hcalls (by
      rw [hcall]
      rfl)⟩

end Relay

end GameFramework
