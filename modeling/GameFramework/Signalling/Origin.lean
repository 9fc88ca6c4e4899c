import GameFramework.Lib.Split
import GameFramework.Lib.Wiring
import GameFramework.Signalling.Provenance

/-!
# Origins

The way of a connection into the relay.  {lit}`wsHandler` takes an id from the path of a request
and lets the upgrader check its origin against the list of the environment; only then does the
relay have the connection.

Main results:

- Definition {lit}`Front.system`: the relay behind {lit}`wsHandler`.
- Theorem {lit}`Upgrader.checkOrigin_iff`: the origins that a list admits.
- Theorem {lit}`Front.exists_relay_run`: the relay runs as it does without the check.
- Theorem {lit}`Front.admission`: in every run, whatever is done by a connection and whoever is
  registered came in with an admitted origin.
-/

namespace GameFramework

/-- What the server reads of an HTTP request. -/
structure Request where
  path : GoString
  /-- The values of the header {lit}`Origin`. -/
  origins : List GoString
  /-- What the websocket library asks of a request beyond the origin. -/
  upgradable : Bool
  deriving DecidableEq

/-- {lit}`r.Header.Get("Origin")` -/
def Request.origin (r : Request) : GoString :=
  r.origins.headD []

/-- The upgrader; {lit}`none` permits all origins. -/
structure Upgrader where
  allowedOrigins : Option (List GoString)

/-- The upgrader that the environment variable {lit}`ALLOWED_ORIGINS` asks for. -/
def newUpgrader (env : GoString) : Upgrader :=
  let allowedOrigins := env.splitOn 44
  if allowedOrigins.length = 0 ∨ allowedOrigins.length = 1 ∧ allowedOrigins.head? = some [] then
    ⟨none⟩
  else ⟨some allowedOrigins⟩

/-- {lit}`CheckOrigin` -/
def Upgrader.checkOrigin (u : Upgrader) (r : Request) : Bool :=
  match u.allowedOrigins with
  | none => true
  | some allowedOrigins => allowedOrigins.any fun o => o == r.origin

inductive FrontLabel where
  | request (c : Conn) (r : Request)
  | relay (label : RelayLabel)

inductive FrontEvent where
  | missingID (r : Request)
  | upgradeFailed (r : Request)
  | upgraded (c : Conn) (r : Request)
  | relay (e : RelayEvent)

/-- The event of the relay, if it is one. -/
def FrontEvent.relayed : FrontEvent → Option RelayEvent
  | relay e => some e
  | _ => none

/-- {lit}`wsHandler` up to {lit}`handleConnection`. -/
def wsHandler (u : Upgrader) (t : Relay) (c : Conn) (r : Request) :
    Option (Relay × List FrontEvent) :=
  let id := trimConnect r.path
  if id = [] ∨ id = r.path then some (t, [.missingID r])
  else if !(r.upgradable && u.checkOrigin r) then some (t, [.upgradeFailed r])
  else (t.step (.accept c r.path)).map fun p => (p.1, .upgraded c r :: p.2.map .relay)

/-! ## The check -/

/-- What the list of the environment says about a request: it is empty, or the origin is one of
its entries between commas. -/
def Admits (env : GoString) (r : Request) : Prop :=
  env = [] ∨ Delimited.Entry 44 env r.origin

/-- The permissive check is that of the empty list. -/
theorem allowedOrigins_newUpgrader (env : GoString) :
    (newUpgrader env).allowedOrigins = if env = [] then none else some (env.splitOn 44) := by
  have hempty : ((env.splitOn 44).length = 0 ∨
      (env.splitOn 44).length = 1 ∧ (env.splitOn 44).head? = some []) ↔ env = [] := by
    constructor
    · rintro (hnone | ⟨hone, hhead⟩)
      · exact absurd (List.length_eq_zero_iff.mp hnone) (List.splitOn_ne_nil 44 env)
      · rcases List.length_eq_one_iff.mp hone with ⟨entry, hentry⟩
        rw [hentry, List.head?_cons, Option.some.injEq] at hhead
        have hjoined : [44].intercalate (env.splitOn 44) = env := List.intercalate_splitOn 44
        rw [hentry, hhead] at hjoined
        exact hjoined.symm
    · rintro rfl
      exact Or.inr ⟨rfl, rfl⟩
  unfold newUpgrader
  simp only [hempty]
  split <;> rfl

/-- The upgrader admits what its configuration names. -/
theorem Upgrader.checkOrigin_iff (env : GoString) (r : Request) :
    (newUpgrader env).checkOrigin r = true ↔ Admits env r := by
  rw [checkOrigin, allowedOrigins_newUpgrader, Admits]
  by_cases henv : env = []
  · simp [henv]
  · rw [if_neg henv, ← Delimited.mem_splitOn_iff]
    simp [henv]

/-- A request without the header is admitted by no list but one with an empty entry. -/
theorem admits_of_no_origin {env : GoString} {r : Request} (hnone : r.origins = []) :
    Admits env r ↔ env = [] ∨ [44] <+: env ∨ [44] <:+ env ∨ [44, 44] <:+: env := by
  have horigin : r.origin = [] := by
    rw [Request.origin, hnone]
    rfl
  rw [Admits, horigin, Delimited.nil_entry_iff]
  exact ⟨fun h => h.elim Or.inl id, Or.inr⟩

/-- The path names an id. -/
theorem trimConnect_missing_iff (path : GoString) :
    (trimConnect path = [] ∨ trimConnect path = path) ↔
      ¬ ∃ i, i ≠ [] ∧ path = goString "/connect/" ++ i := by
  unfold trimConnect
  split
  · rename_i hprefix
    rcases List.isPrefixOf_iff_prefix.mp hprefix with ⟨i, rfl⟩
    rw [List.drop_left]
    constructor
    · rintro (hnil | hsame) ⟨j, hj, hpath⟩
      · exact hj ((List.append_cancel_left hpath).symm.trans hnil)
      · have hlength := congrArg List.length hsame
        rw [List.length_append] at hlength
        have hpos : 0 < (goString "/connect/").length := by decide
        omega
    · intro hnone
      by_contra hnot
      exact hnone ⟨i, fun hnil => hnot (Or.inl hnil), rfl⟩
  · rename_i hnot
    refine iff_of_true (Or.inr rfl) ?_
    rintro ⟨i, _, rfl⟩
    exact hnot (List.isPrefixOf_iff_prefix.mpr (List.prefix_append _ i))

namespace Front

variable {env : GoString} {t v : Relay} {c : Conn} {r : Request} {h out : List FrontEvent}

/-- The relay behind {lit}`wsHandler`: connections come in with requests only. -/
def system (env : GoString) : Labelled.System Relay FrontLabel FrontEvent where
  step t
    | .request c r => wsHandler (newUpgrader env) t c r
    | .relay (.accept _ _) => none
    | .relay label => (t.step label).map fun p => (p.1, p.2.map .relay)

/-- The request names an id, can be upgraded and has an admitted origin. -/
structure Serves (env : GoString) (r : Request) : Prop where
  path : ∃ i, i ≠ [] ∧ r.path = goString "/connect/" ++ i
  upgradable : r.upgradable = true
  admits : Admits env r

/-- A request that is served goes on to the relay. -/
theorem wsHandler_of_serves (hserves : Serves env r) :
    wsHandler (newUpgrader env) t c r =
      (t.step (.accept c r.path)).map fun p => (p.1, .upgraded c r :: p.2.map .relay) := by
  have hcheck := (Upgrader.checkOrigin_iff env r).mpr hserves.admits
  simp only [wsHandler]
  rw [if_neg (mt (trimConnect_missing_iff r.path).mp (not_not.mpr hserves.path)), hcheck,
    hserves.upgradable]
  rfl

/-- A request that is not served changes nothing. -/
theorem wsHandler_of_not_serves (hnot : ¬ Serves env r) :
    ∃ e, wsHandler (newUpgrader env) t c r = some (t, [e]) ∧
      (e = .missingID r ∨ e = .upgradeFailed r) := by
  simp only [wsHandler]
  split
  · exact ⟨_, rfl, Or.inl rfl⟩
  · rename_i hpath
    split
    · exact ⟨_, rfl, Or.inr rfl⟩
    · rename_i hcheck
      have hboth : r.upgradable = true ∧ (newUpgrader env).checkOrigin r = true := by
        simpa using hcheck
      exact absurd ⟨not_not.mp (mt (trimConnect_missing_iff r.path).mpr hpath), hboth.1,
        (Upgrader.checkOrigin_iff env r).mp hboth.2⟩ hnot

/-- The two ways that a request can take. -/
theorem wsHandler_cases (hstep : wsHandler (newUpgrader env) t c r = some (v, out)) :
    (v = t ∧ out.filterMap FrontEvent.relayed = []) ∨
      Serves env r ∧ ∃ relayed, t.step (.accept c r.path) = some (v, relayed) ∧
        out = .upgraded c r :: relayed.map .relay := by
  by_cases hserves : Serves env r
  · rw [wsHandler_of_serves hserves] at hstep
    rcases Option.map_eq_some_iff.mp hstep with ⟨⟨v', relayed⟩, haccept, heq⟩
    cases heq
    exact Or.inr ⟨hserves, relayed, haccept, rfl⟩
  · rcases wsHandler_of_not_serves hserves (t := t) (c := c) with ⟨e, he, rfl | rfl⟩ <;>
    · rw [he] at hstep
      cases hstep
      exact Or.inl ⟨rfl, rfl⟩

/-- A step that is no request is one of the relay. -/
theorem relay_of_step {label : RelayLabel}
    (hstep : (system env).step t (.relay label) = some (v, out)) :
    ∃ relayed, t.step label = some (v, relayed) ∧ out = relayed.map .relay ∧
      ∀ c path, label ≠ .accept c path := by
  cases label with
  | accept c path => cases hstep
  | _ =>
      rcases Option.map_eq_some_iff.mp hstep with ⟨⟨v', relayed⟩, hrelay, heq⟩
      cases heq
      exact ⟨relayed, hrelay, rfl, fun _ _ => RelayLabel.noConfusion⟩

theorem filterMap_relayed_map (relayed : List RelayEvent) :
    (relayed.map FrontEvent.relay).filterMap FrontEvent.relayed = relayed := by
  rw [List.filterMap_map]
  exact List.filterMap_some

/-- Behind the check the relay runs as it does without it. -/
theorem exists_relay_run {labels : List FrontLabel}
    (hrun : (system env).run t labels = some (v, h)) :
    ∃ labels', Relay.system.run t labels' = some (v, h.filterMap FrontEvent.relayed) := by
  refine Labelled.System.exists_run_of_steps (system env) Relay.system id FrontEvent.relayed ?_
    hrun
  intro t label v out hstep
  cases label with
  | request c r =>
      rcases wsHandler_cases hstep with ⟨rfl, hnone⟩ | ⟨_, relayed, haccept, rfl⟩
      · exact ⟨[], by rw [hnone]; rfl⟩
      · refine ⟨[.accept c r.path], Relay.system.run_singleton.mpr ?_⟩
        rw [List.filterMap_cons_none rfl, filterMap_relayed_map]
        exact haccept
  | relay label =>
      rcases relay_of_step hstep with ⟨relayed, hrelay, rfl, _⟩
      refine ⟨[label], Relay.system.run_singleton.mpr ?_⟩
      rw [filterMap_relayed_map]
      exact hrelay

/-! ## Admission -/

/-- Only requests that are served are upgraded, and only for them a connection is opened. -/
structure Checked (env : GoString) (h : List FrontEvent) : Prop where
  serves : ∀ c r, .upgraded c r ∈ h → Serves env r
  opened : ∀ c i, .relay (.opened c i) ∈ h →
    ∃ r, .upgraded c r ∈ h ∧ r.path = goString "/connect/" ++ i

/-- Checked histories compose. -/
theorem checked_append (hchecked : Checked env h) (hout : Checked env out) :
    Checked env (h ++ out) where
  serves c r hmem := (List.mem_append.mp hmem).elim (hchecked.serves c r) (hout.serves c r)
  opened c i hmem := by
    rcases List.mem_append.mp hmem with hold | hnew
    · rcases hchecked.opened c i hold with ⟨r, hr, hpath⟩
      exact ⟨r, List.mem_append_left out hr, hpath⟩
    · rcases hout.opened c i hnew with ⟨r, hr, hpath⟩
      exact ⟨r, List.mem_append_right h hr, hpath⟩

/-- Every step lets only checked requests through. -/
theorem checked_of_step {label : FrontLabel}
    (hstep : (system env).step t label = some (v, out)) : Checked env out := by
  cases label with
  | request c r =>
      by_cases hserves : Serves env r
      · change wsHandler (newUpgrader env) t c r = some (v, out) at hstep
        rw [wsHandler_of_serves hserves] at hstep
        rcases Option.map_eq_some_iff.mp hstep with ⟨⟨v', relayed⟩, haccept, heq⟩
        cases heq
        refine ⟨fun c' r' hmem => ?_, fun c' i hmem => ?_⟩
        · have hr : c' = c ∧ r' = r := by simpa using hmem
          rw [hr.2]
          exact hserves
        · have hopened : .opened c' i ∈ relayed := by simpa using hmem
          rcases Relay.cause_of_mem haccept hopened with ⟨path, hlabel, rfl⟩
          cases hlabel
          refine ⟨r, List.mem_cons_self, ?_⟩
          rcases hserves.path with ⟨j, _, hpath⟩
          have htrim : trimConnect r.path = j := by
            rw [trimConnect, hpath, if_pos (List.isPrefixOf_iff_prefix.mpr
              (List.prefix_append _ j)), List.drop_left]
          rw [htrim]
          exact hpath
      · change wsHandler (newUpgrader env) t c r = some (v, out) at hstep
        rcases wsHandler_of_not_serves hserves (t := t) (c := c) with ⟨e, he, rfl | rfl⟩ <;>
        · rw [he] at hstep
          cases hstep
          exact ⟨fun _ _ hmem => by simp at hmem, fun _ _ hmem => by simp at hmem⟩
  | relay label =>
      rcases relay_of_step hstep with ⟨relayed, hrelay, rfl, hnot⟩
      refine ⟨fun c r hmem => by simp at hmem, fun c i hmem => ?_⟩
      have hopened : .opened c i ∈ relayed := by simpa using hmem
      rcases Relay.cause_of_mem hrelay hopened with ⟨path, hlabel, _⟩
      exact absurd hlabel (hnot c path)

/-- Only opened connections do anything. -/
theorem opened_of_actor {maxConns : Int} {labels : List RelayLabel} {h : List RelayEvent}
    {e : RelayEvent} (hrun : Relay.system.run (Relay.init maxConns) labels = some (t, h))
    (he : e ∈ h) (hactor : Relay.actor e = some c) : ∃ i, .opened c i ∈ h := by
  have hhandled := Relay.system.run_invariant
    (fun t h => ∀ c e, e ∈ h → Relay.actor e = some c → ∃ hd, t.handlers c = some hd) ?_ ?_ hrun
  · rcases hhandled c e he hactor with ⟨hd, hhandler⟩
    exact ⟨hd.id, ((Relay.relaying_of_reachable hrun).2.2.2 c hd.id).mpr ⟨hd, hhandler, rfl⟩⟩
  · intro c e he
    cases he
  · intro t h label v out hbefore hstep c e he hactor
    rcases (Relay.step_cases hstep).other c with ⟨hd, _, hhd⟩ | ⟨hsame, hsilent⟩
    · exact ⟨hd, hhd⟩
    · rcases List.mem_append.mp he with hold | hnew
      · rw [hsame]
        exact hbefore c e hold hactor
      · exact absurd hactor (hsilent e hnew)

/-- What the check of origins comes to, for a list of origins and after any run. -/
structure AdmissionLaw (env : GoString) (t : Relay) (h : List FrontEvent) : Prop where
  /-- Whatever a connection has done, its request was served. -/
  actor : ∀ e c, .relay e ∈ h → Relay.actor e = some c → ∃ r, .upgraded c r ∈ h ∧ Serves env r
  /-- Who is registered has the id of such a request. -/
  entry : ∀ i peer, t.manager.get i = some peer →
    ∃ r, .upgraded peer.conn r ∈ h ∧ r.path = goString "/connect/" ++ i ∧ Serves env r
  /-- A program that sends no origin, as no browser does, needs an empty entry. -/
  programs : ∀ c r, .upgraded c r ∈ h → r.origins = [] →
    env = [] ∨ [44] <+: env ∨ [44] <:+ env ∨ [44, 44] <:+: env
  /-- A request on a new connection is served or changes nothing. -/
  served : ∀ c r, t.handlers c = none → ∃ v out,
    (system env).step t (.request c r) = some (v, out) ∧
      (.upgraded c r ∈ out ↔ Serves env r) ∧ (¬ Serves env r → v = t)

/-- However requests and the relay interleave, nobody gets in but with an admitted origin. -/
theorem admission {maxConns : Int} {labels : List FrontLabel}
    (hrun : (system env).run (Relay.init maxConns) labels = some (t, h)) : AdmissionLaw env t h := by
  have hchecked : Checked env h := by
    refine (system env).run_invariant (fun _ h => Checked env h) ?_ ?_ hrun
    · exact ⟨fun _ _ hmem => absurd hmem List.not_mem_nil,
        fun _ _ hmem => absurd hmem List.not_mem_nil⟩
    · intro t h label v out hbefore hstep
      exact checked_append hbefore (checked_of_step hstep)
  rcases exists_relay_run hrun with ⟨labels', hrelay⟩
  have hopens : ∀ c i, .opened c i ∈ h.filterMap FrontEvent.relayed →
      ∃ r, .upgraded c r ∈ h ∧ r.path = goString "/connect/" ++ i ∧ Serves env r := by
    intro c i hmem
    rcases List.mem_filterMap.mp hmem with ⟨e, he, hrelayed⟩
    cases e with
    | relay e =>
        cases hrelayed
        rcases hchecked.opened c i he with ⟨r, hr, hpath⟩
        exact ⟨r, hr, hpath, hchecked.serves c r hr⟩
    | _ => cases hrelayed
  refine ⟨fun e c he hactor => ?_, fun i peer hget => ?_, fun c r hr hnone => ?_,
    fun c r hfree => ?_⟩
  · have hmem : e ∈ h.filterMap FrontEvent.relayed := List.mem_filterMap.mpr ⟨_, he, rfl⟩
    rcases opened_of_actor hrelay hmem hactor with ⟨i, hopened⟩
    rcases hopens c i hopened with ⟨r, hr, _, hserves⟩
    exact ⟨r, hr, hserves⟩
  · rcases Relay.relaying_of_reachable hrelay with ⟨howned, _, hrelaying⟩
    rcases howned.owner i peer hget with ⟨hd, hhandler, hid, _⟩
    exact hopens peer.conn i ((hrelaying.2 peer.conn i).mpr ⟨hd, hhandler, hid⟩)
  · exact (admits_of_no_origin hnone).mp (hchecked.serves c r hr).admits
  · change ∃ v out, wsHandler (newUpgrader env) t c r = some (v, out) ∧ _
    by_cases hserves : Serves env r
    · have haccept : ∃ v out, t.step (.accept c r.path) = some (v, out) := by
        simp only [Relay.step, hfree]
        split <;> exact ⟨_, _, rfl⟩
      rcases haccept with ⟨v, out, haccept⟩
      rw [wsHandler_of_serves hserves, haccept]
      exact ⟨v, _, rfl, iff_of_true List.mem_cons_self hserves, absurd hserves⟩
    · rcases wsHandler_of_not_serves hserves (t := t) (c := c) with ⟨e, he, rfl | rfl⟩ <;>
      · rw [he]
        exact ⟨t, _, rfl, iff_of_false (by simp) hserves, fun _ => rfl⟩

/-- A game server without an origin is turned away, a page of the list gets in. -/
theorem admission_page :
    ∃ t h, (system (goString "https://a.test,https://b.test")).run (Relay.init 0)
        [.request 0 ⟨goString "/connect/12345", [], true⟩,
          .request 1 ⟨goString "/connect/7", [goString "https://b.test"], true⟩,
          .relay (.handler 1 (.frame (some
            { id := [], type := msgTypeRegister, role := roleClient }))),
          .relay (.handler 1 .advance)] = some (t, h) ∧
      AdmissionLaw (goString "https://a.test,https://b.test") t h ∧ t.handlers 0 = none ∧
      t.manager.get (goString "7") = some ⟨1, roleClient⟩ := by
  have hsome : ((((system (goString "https://a.test,https://b.test")).run (Relay.init 0)
        [.request 0 ⟨goString "/connect/12345", [], true⟩,
          .request 1 ⟨goString "/connect/7", [goString "https://b.test"], true⟩,
          .relay (.handler 1 (.frame (some
            { id := [], type := msgTypeRegister, role := roleClient }))),
          .relay (.handler 1 .advance)]).any fun p =>
      (p.1.handlers 0).isNone && decide (p.1.manager.get (goString "7") =
        some ⟨1, roleClient⟩)) = true) := by
    decide +kernel
  rcases (Option.any_eq_true _ _).mp hsome with ⟨⟨t, h⟩, hrun, hpage⟩
  rw [Bool.and_eq_true, Option.isNone_iff_eq_none, decide_eq_true_eq] at hpage
  exact ⟨t, h, hrun, admission hrun, hpage.1, hpage.2⟩

end Front

end GameFramework
