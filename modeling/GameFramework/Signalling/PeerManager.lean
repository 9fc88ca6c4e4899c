import GameFramework.Signalling.Message
import Mathlib.Data.List.AList

/-!
# The peer manager

{lit}`PeerManager` of the signalling server: the map from ids to registered peers and
the list of server ids.  Each method runs under the manager's lock and is one
function here.

Main results:

- Theorem {lit}`PeerManager.register_eq_ok_iff`: when a registration is accepted, and
  what it changes.
- Theorem {lit}`PeerManager.register_of_errExist`: a refused one changes nothing.
- Theorem {lit}`PeerManager.get_unregister`: an unregistration removes one id.
- Theorems {lit}`PeerManager.Listed.register` and {lit}`PeerManager.Listed.unregister`: the
  server list stays the list of registered servers.
-/

namespace GameFramework

/-- Websocket connections are told apart by their address. -/
abbrev Conn := ℕ

structure PeerInfo where
  conn : Conn
  role : PeerRole
  deriving DecidableEq

structure PeerManager where
  peers : AList fun _ : GoString => PeerInfo
  servers : List GoString
  maxConns : Int

/-- What {lit}`Register` returns: no error, or {lit}`os.ErrExist`. -/
inductive RegisterOutcome where
  | ok
  | errExist
  deriving DecidableEq

/-- What {lit}`Unregister` finds: the removed peer and whether a server was on the
server list, or no peer of that id. -/
inductive UnregisterOutcome where
  | removed (peer : PeerInfo) (listed : Bool)
  | nonexistent
  deriving DecidableEq

namespace PeerManager

/-- {lit}`NewPeerManager` -/
def new (maxConns : Int) : PeerManager where
  peers := ∅
  servers := []
  maxConns := maxConns

def len (pm : PeerManager) : ℕ :=
  pm.peers.entries.length

def get (pm : PeerManager) (id : GoString) : Option PeerInfo :=
  pm.peers.lookup id

/-- The role of a peer, or the empty role. -/
def getRole (pm : PeerManager) (id : GoString) : PeerRole :=
  match pm.get id with
  | some peer => peer.role
  | none => []

/-- A taken id and a full manager are the same error. -/
def register (pm : PeerManager) (id : GoString) (c : Conn) (role : PeerRole) :
    PeerManager × RegisterOutcome :=
  if (pm.get id).isSome then (pm, .errExist)
  else if 0 < pm.maxConns ∧ pm.maxConns ≤ pm.len then (pm, .errExist)
  else
    ({ pm with
       peers := pm.peers.insert id ⟨c, role⟩
       servers := if role = roleServer then pm.servers ++ [id] else pm.servers },
      .ok)

def unregister (pm : PeerManager) (id : GoString) : PeerManager × UnregisterOutcome :=
  match pm.get id with
  | some peer =>
      if peer.role = roleServer then
        ({ pm with peers := pm.peers.erase id, servers := pm.servers.erase id },
          .removed peer (decide (id ∈ pm.servers)))
      else ({ pm with peers := pm.peers.erase id }, .removed peer true)
  | none => (pm, .nonexistent)

/-- The connections of the registered peers. -/
def conns (pm : PeerManager) : List Conn :=
  pm.peers.entries.map fun entry => entry.2.conn

variable {pm pm' : PeerManager} {id : GoString}

/-- A new registry has no entries. -/
@[simp]
theorem get_new (maxConns : Int) (id : GoString) : (new maxConns).get id = none :=
  rfl

/-- A registration is accepted when the id is free and the manager is not full; it
then adds this id. -/
theorem register_eq_ok_iff {c : Conn} {role : PeerRole} :
    pm.register id c role = (pm', .ok) ↔
      pm.get id = none ∧ ¬ (0 < pm.maxConns ∧ pm.maxConns ≤ pm.len) ∧
        pm' = { pm with
          peers := pm.peers.insert id ⟨c, role⟩
          servers := if role = roleServer then pm.servers ++ [id] else pm.servers } := by
  unfold register
  cases hget : pm.get id with
  | some peer => simp
  | none =>
      by_cases hfull : 0 < pm.maxConns ∧ pm.maxConns ≤ pm.len
      · simp [hfull]
      · simp [hfull, eq_comm]

/-- A registration that returns an error leaves the manager as it is. -/
theorem register_of_errExist {c : Conn} {role : PeerRole}
    (h : pm.register id c role = (pm', .errExist)) : pm' = pm := by
  unfold register at h
  split at h
  · exact (Prod.mk.inj h).1.symm
  · split at h
    · exact (Prod.mk.inj h).1.symm
    · cases (Prod.mk.inj h).2

/-- A registration adds one entry and changes no other. -/
theorem get_register {c : Conn} {role : PeerRole} (h : pm.register id c role = (pm', .ok))
    (id' : GoString) :
    pm'.get id' = if id' = id then some ⟨c, role⟩ else pm.get id' := by
  rcases register_eq_ok_iff.mp h with ⟨_, _, rfl⟩
  unfold get
  by_cases hid : id' = id
  · subst hid
    simp [AList.lookup_insert]
  · simp [AList.lookup_insert_ne hid, hid]

/-- A removal takes one entry away and changes no other. -/
theorem get_unregister (pm : PeerManager) (id id' : GoString) :
    (pm.unregister id).1.get id' = if id' = id then none else pm.get id' := by
  unfold unregister
  cases hget : pm.get id with
  | none =>
      by_cases hid : id' = id
      · subst hid
        simp [hget]
      · simp [hid]
  | some peer =>
      have herase : AList.lookup id' (pm.peers.erase id) =
          if id' = id then none else pm.get id' := by
        by_cases hid : id' = id
        · subst hid
          simp [AList.lookup_erase]
        · simp [AList.lookup_erase_ne hid, hid, get]
      by_cases hrole : peer.role = roleServer
      · simpa [hrole, get] using herase
      · simpa [hrole, get] using herase

/-- The server list holds the ids of the registered servers, each once. -/
structure Listed (pm : PeerManager) : Prop where
  nodup : pm.servers.Nodup
  mem_iff : ∀ id, id ∈ pm.servers ↔ ∃ peer, pm.get id = some peer ∧ peer.role = roleServer

theorem listed_new (maxConns : Int) : Listed (new maxConns) where
  nodup := List.nodup_nil
  mem_iff id := by simp [new, get]

/-- A registration keeps the server list in line with the peer map. -/
theorem Listed.register (hlisted : Listed pm) {c : Conn} {role : PeerRole}
    (h : pm.register id c role = (pm', .ok)) : Listed pm' := by
  have hget := get_register h
  rcases register_eq_ok_iff.mp h with ⟨hfree, _, hpm'⟩
  have hnot : id ∉ pm.servers := by
    intro hmem
    rcases (hlisted.mem_iff id).mp hmem with ⟨peer, hpeer, _⟩
    rw [hfree] at hpeer
    contradiction
  have hservers : pm'.servers =
      if role = roleServer then pm.servers ++ [id] else pm.servers := by
    rw [hpm']
  constructor
  · rw [hservers]
    split
    · rw [List.nodup_append]
      refine ⟨hlisted.nodup, List.nodup_singleton id, fun a ha b hb => ?_⟩
      rw [List.mem_singleton.mp hb]
      exact fun heq => hnot (heq ▸ ha)
    · exact hlisted.nodup
  · intro id'
    rw [hservers, hget id']
    by_cases hid : id' = id
    · subst hid
      by_cases hrole : role = roleServer
      · simp [hrole]
      · simp [hrole, hnot]
    · by_cases hrole : role = roleServer
      · simp [hrole, hid, hlisted.mem_iff id']
      · simp [hrole, hid, hlisted.mem_iff id']

/-- An unregistration takes the id off the server list. -/
theorem Listed.servers_unregister (hlisted : Listed pm) (id : GoString) :
    (pm.unregister id).1.servers = pm.servers.erase id := by
  unfold PeerManager.unregister
  cases hget : pm.get id with
  | none =>
      have hnot : id ∉ pm.servers := by
        intro hmem
        rcases (hlisted.mem_iff id).mp hmem with ⟨peer, hpeer, _⟩
        rw [hget] at hpeer
        contradiction
      simp [List.erase_of_not_mem hnot]
  | some peer =>
      by_cases hrole : peer.role = roleServer
      · simp [hrole]
      · have hnot : id ∉ pm.servers := by
          intro hmem
          rcases (hlisted.mem_iff id).mp hmem with ⟨peer', hpeer', hrole'⟩
          rw [hget] at hpeer'
          cases hpeer'
          exact hrole hrole'
        simp [hrole, List.erase_of_not_mem hnot]

/-- So does a removal. -/
theorem Listed.unregister (hlisted : Listed pm) (id : GoString) :
    Listed (pm.unregister id).1 := by
  have hservers := hlisted.servers_unregister id
  constructor
  · rw [hservers]
    exact hlisted.nodup.erase id
  · intro id'
    rw [hservers, hlisted.nodup.mem_erase_iff, hlisted.mem_iff id', get_unregister]
    by_cases hid : id' = id
    · simp [hid]
    · simp [hid]

/-- A registered server is found on the server list when it is removed. -/
theorem Listed.unregister_snd (hlisted : Listed pm) {peer : PeerInfo}
    (h : pm.get id = some peer) : (pm.unregister id).2 = .removed peer true := by
  unfold PeerManager.unregister
  rw [h]
  by_cases hrole : peer.role = roleServer
  · have hmem : id ∈ pm.servers := (hlisted.mem_iff id).mpr ⟨peer, h, hrole⟩
    simp [hrole, hmem]
  · simp [hrole]

end PeerManager

end GameFramework
