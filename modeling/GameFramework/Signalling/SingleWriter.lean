import GameFramework.Signalling.Authenticity
import Mathlib.Data.Set.Card

/-!
# Writers of a connection

A handler writes to the connection of its target, and to its own when it answers a
ping.  Nothing in the relay orders these writes, and the websocket library leaves it
to its callers to keep them apart.  They are kept apart when the peers do so: when
nobody else sends to an id that some connection sends to.

Main results:

- Theorem {lit}`Relay.counted_of_reachable`: the number of writes in progress on a
  connection is the number of handlers inside a write to it.
- Theorem {lit}`Relay.answers_of_reachable`: whatever a handler writes, a frame or a ping
  that it has read asked for.
- Theorem {lit}`Relay.exclusive_of_oneWriter`: if for every id only one connection asks for
  writes to it, no two writes to one connection are ever in progress.
- Theorem {lit}`Relay.not_panicked`: where they never are, no write panics.
-/

namespace GameFramework

/-- The statements outside a write. -/
def Phase.Outside : Phase → Prop
  | .inWrite _ | .ponging => False
  | _ => True

/-- The handler of a connection is inside {lit}`WriteMessage` on connection {lit}`d`. -/
def Handler.WritesTo (h : Handler) (c d : Conn) : Prop :=
  h.phase = .inWrite d ∨ h.phase = .ponging ∧ c = d

namespace Relay

/-- The connections whose handlers are inside {lit}`WriteMessage` on {lit}`d`. -/
def Writing (t : Relay) (d : Conn) : Set Conn :=
  {c | ∃ h, t.handlers c = some h ∧ h.WritesTo c d}

/-- No two {lit}`WriteMessage` calls on one connection are in progress. -/
def Exclusive (t : Relay) : Prop :=
  ∀ d, ∀ c ∈ t.Writing d, ∀ c' ∈ t.Writing d, c = c'

/-- The write that a step ends, and how it ends. -/
def endsWrite (t : Relay) : RelayLabel → Option (Conn × WriteResult)
  | .handler c (.ponged result) => some (c, result)
  | .handler c (.wrote result) =>
      match t.handlers c with
      | some h =>
          match h.phase with
          | .inWrite target => some (target, result)
          | _ => none
      | none => none
  | _ => none

/-- The websocket library panics only when two writes to a connection overlap. -/
def PanicsOnOverlap (t : Relay) (label : RelayLabel) : Prop :=
  ∀ d, t.endsWrite label = some (d, .panic) → 2 ≤ t.writers d

/-- The id to which a frame or a ping asks the handler that reads it to write.  A ping is
answered to the connection that it comes from. -/
def asksFor (t : Relay) : RelayLabel → Option (Conn × GoString)
  | .handler c (.frame (some msg)) =>
      match t.handlers c with
      | some h =>
          match h.dispatch msg with
          | .lookup _ targetID => some (c, targetID)
          | _ => none
      | none => none
  | .handler c .ping => (t.handlers c).map fun h => (c, h.id)
  | _ => none

/-- Which connections ask for writes to which ids in a run. -/
def requests (maxConns : Int) (labels : List RelayLabel) : List (Conn × GoString) :=
  system.gather asksFor (init maxConns) labels

/-- No id is written to for two connections. -/
def OneWriter (asked : List (Conn × GoString)) : Prop :=
  ∀ p ∈ asked, ∀ q ∈ asked, p.2 = q.2 → p.1 = q.1

instance (asked : List (Conn × GoString)) : Decidable (OneWriter asked) :=
  inferInstanceAs (Decidable (∀ p ∈ asked, ∀ q ∈ asked, p.2 = q.2 → p.1 = q.1))

/-! ## Steps and writes -/

/-- What a step does to the writes in progress, given the write that it ends. -/
inductive WriteCase (t v : Relay) (out : List RelayEvent) :
    Option (Conn × WriteResult) → Prop
  | quiet (hwriting : ∀ e, v.Writing e = t.Writing e) (hwriters : v.writers = t.writers)
      (hout : ∀ c d, .writePanicked c d ∉ out ∧ .pongPanicked c ∉ out) : WriteCase t v out none
  | starts (c d : Conn) (hnew : c ∉ t.Writing d)
      (hwriting : ∀ e, v.Writing e = if e = d then insert c (t.Writing d) else t.Writing e)
      (hwriters : v.writers = Function.update t.writers d (t.writers d + 1))
      (hout : ∀ c d, .writePanicked c d ∉ out ∧ .pongPanicked c ∉ out) :
      WriteCase t v out none
  | ends (c d : Conn) (result : WriteResult) (hmem : c ∈ t.Writing d)
      (hwriting : ∀ e, v.Writing e = if e = d then t.Writing d \ {c} else t.Writing e)
      (hwriters : v.writers = Function.update t.writers d (t.writers d - 1))
      (hout : result ≠ .panic → ∀ c d, .writePanicked c d ∉ out ∧ .pongPanicked c ∉ out) :
      WriteCase t v out (some (d, result))

section Frame

variable {t u : Relay} {c : Conn} {h : Handler} {out : List RelayEvent}

/-- The writes in progress after a handler is replaced. -/
theorem mem_writing_put (hu : u.handlers = t.handlers) {h' : Handler} {c' e : Conn} :
    c' ∈ (u.put c h').Writing e ↔ if c' = c then h'.WritesTo c e else c' ∈ t.Writing e := by
  by_cases hc : c' = c
  · subst hc
    simp [Writing, put]
  · simp [Writing, put, hc, hu]

/-- Outside of its writes a handler writes to nobody. -/
theorem not_writesTo (hphase : h.phase.Outside) (c e : Conn) : ¬ h.WritesTo c e := by
  rintro (heq | ⟨heq, _⟩)
  · rw [heq] at hphase
    exact hphase
  · rw [heq] at hphase
    exact hphase

/-- A step that puts a handler outside a write where none was inside one. -/
theorem writeCase_quiet (hbefore : ∀ h, t.handlers c = some h → h.phase.Outside)
    (hu : u.handlers = t.handlers) (hwriters : u.writers = t.writers) {h' : Handler}
    (hafter : h'.phase.Outside)
    (hout : ∀ c d, .writePanicked c d ∉ out ∧ .pongPanicked c ∉ out) :
    WriteCase t (u.put c h') out none := by
  refine .quiet (fun e => ?_) hwriters hout
  ext c'
  rw [mem_writing_put hu]
  by_cases hc : c' = c
  · subst hc
    rw [if_pos rfl]
    refine iff_of_false (not_writesTo hafter c' e) ?_
    rintro ⟨h₀, hh₀, hwrites⟩
    exact not_writesTo (hbefore h₀ hh₀) c' e hwrites
  · rw [if_neg hc]

/-- A step of a handler that starts a write. -/
theorem writeCase_starts (hhandler : t.handlers c = some h) {d : Conn}
    (hbefore : h.phase.Outside) {h' : Handler} (hafter : ∀ e, h'.WritesTo c e ↔ e = d)
    (hout : ∀ c d, .writePanicked c d ∉ out ∧ .pongPanicked c ∉ out) :
    WriteCase t ((t.beginWrite d).put c h') out none := by
  have hnot : ∀ e, c ∉ t.Writing e := by
    rintro e ⟨h₀, hh₀, hwrites⟩
    rw [hhandler] at hh₀
    cases hh₀
    exact not_writesTo hbefore c e hwrites
  refine .starts c d (hnot d) (fun e => ?_) rfl hout
  ext c'
  rw [mem_writing_put (u := t.beginWrite d) (t := t) rfl]
  by_cases hc : c' = c
  · subst hc
    rw [if_pos rfl, hafter e]
    by_cases he : e = d
    · simp [he]
    · simp [he, hnot e]
  · by_cases he : e = d
    · simp [hc, he]
    · simp [hc, he]

/-- A step of a handler that ends a write. -/
theorem writeCase_ends (hhandler : t.handlers c = some h) {d : Conn}
    (hbefore : ∀ e, h.WritesTo c e ↔ e = d) {result : WriteResult} {h' : Handler}
    (hafter : h'.phase.Outside)
    (hout : result ≠ .panic → ∀ c d, .writePanicked c d ∉ out ∧ .pongPanicked c ∉ out) :
    WriteCase t ((t.endWrite d).put c h') out (some (d, result)) := by
  have hiff : ∀ e, c ∈ t.Writing e ↔ e = d := by
    intro e
    rw [← hbefore e]
    simp [Writing, hhandler]
  refine .ends c d result ((hiff d).mpr rfl) (fun e => ?_) rfl hout
  ext c'
  rw [mem_writing_put (u := t.endWrite d) (t := t) rfl]
  by_cases hc : c' = c
  · subst hc
    rw [if_pos rfl]
    refine iff_of_false (not_writesTo hafter c' e) ?_
    by_cases he : e = d
    · simp [he]
    · simp [he, hiff e]
  · by_cases he : e = d
    · simp [hc, he]
    · simp [hc, he]

/-- A handler outside a write goes to a statement outside a write. -/
theorem writeCase_goto (hhandler : t.handlers c = some h) {before phase : Phase}
    (hphase : h.phase = before) (hbefore : before.Outside) (hu : u.handlers = t.handlers)
    (hwriters : u.writers = t.writers) (hafter : phase.Outside)
    (hout : ∀ c d, .writePanicked c d ∉ out ∧ .pongPanicked c ∉ out) :
    WriteCase t (u.goto c h phase) out none := by
  refine writeCase_quiet (fun h₀ hh₀ => ?_) hu hwriters hafter hout
  rw [hhandler] at hh₀
  cases hh₀
  exact hphase ▸ hbefore

theorem writers_unregister (t : Relay) (id : GoString) :
    (t.unregister id).writers = t.writers := by
  unfold unregister
  split <;> rfl

end Frame

variable {t v : Relay} {out : List RelayEvent}

/-- The handlers of {lit}`step` one by one. -/
theorem handle_writeCase {c : Conn} {h : Handler} {action : Action}
    (hhandler : t.handlers c = some h) (hstep : t.handle c h action = some (v, out)) :
    WriteCase t v out (t.endsWrite (.handler c action)) := by
  have hpong : h.phase = .ponging → ∀ e, h.WritesTo c e ↔ e = c := fun hphase e => by
    simp [Handler.WritesTo, hphase, eq_comm]
  have hwrite : ∀ target, h.phase = .inWrite target →
      (∀ e, h.WritesTo c e ↔ e = target) ∧
        ∀ result, t.endsWrite (.handler c (.wrote result)) = some (target, result) :=
    fun target hphase => ⟨fun e => by simp [Handler.WritesTo, hphase, eq_comm],
      fun result => by simp only [endsWrite, hhandler, hphase]⟩
  unfold handle at hstep
  split at hstep
  · rename_i hphase
    cases hstep
    exact writeCase_goto hhandler hphase trivial rfl rfl trivial (by simp)
  · rename_i msg hphase
    cases hstep
    have hdispatch : (h.dispatch msg).Outside := by
      rcases h.dispatch_cases msg with heq | ⟨heq, _⟩ | ⟨heq, _⟩
      · exact heq ▸ trivial
      · exact heq ▸ trivial
      · exact heq ▸ trivial
    exact writeCase_goto hhandler hphase trivial rfl rfl hdispatch (by simp)
  · rename_i hphase
    cases hstep
    exact writeCase_goto hhandler hphase trivial rfl rfl trivial (by simp)
  · rename_i hphase
    cases hstep
    exact writeCase_starts hhandler (hphase ▸ trivial)
      (fun e => by simp [Handler.WritesTo, eq_comm]) (by simp)
  · rename_i hphase
    cases hstep
    exact writeCase_ends hhandler (hpong hphase) trivial (by simp)
  · rename_i hphase
    cases hstep
    exact writeCase_ends hhandler (hpong hphase) trivial (by simp)
  · rename_i hphase
    cases hstep
    exact writeCase_ends hhandler (hpong hphase) trivial (fun hne => absurd rfl hne)
  · rename_i role hphase
    split at hstep
    · contradiction
    · split at hstep
      · rename_i manager _
        cases hstep
        exact writeCase_goto (u := { t with manager := manager }) hhandler hphase trivial rfl rfl
          trivial (by simp)
      · rename_i manager _
        cases hstep
        exact writeCase_goto (u := { t with manager := manager }) hhandler hphase trivial rfl rfl
          trivial (by simp)
  · rename_i hphase
    cases hstep
    refine writeCase_quiet (fun h₀ hh₀ => ?_) rfl rfl trivial (by simp)
    rw [hhandler] at hh₀
    cases hh₀
    exact hphase ▸ trivial
  · rename_i msg targetID hphase
    split at hstep
    · contradiction
    · split at hstep
      · cases hstep
        exact writeCase_goto hhandler hphase trivial rfl rfl trivial (by simp)
      · cases hstep
        exact writeCase_goto hhandler hphase trivial rfl rfl trivial (by simp)
  · rename_i msg targetPeer hphase
    split at hstep
    · contradiction
    · split at hstep
      · cases hstep
        exact writeCase_goto hhandler hphase trivial rfl rfl trivial (by simp)
      · cases hstep
        exact writeCase_goto hhandler hphase trivial rfl rfl trivial (by simp)
  · rename_i data target hphase
    cases hstep
    exact writeCase_starts hhandler (hphase ▸ trivial)
      (fun e => by simp [Handler.WritesTo, eq_comm]) (by simp)
  · rename_i target hphase
    rw [(hwrite target hphase).2]
    cases hstep
    exact writeCase_ends hhandler (hwrite target hphase).1 trivial (by simp)
  · rename_i target hphase
    rw [(hwrite target hphase).2]
    cases hstep
    exact writeCase_ends hhandler (hwrite target hphase).1 trivial (by simp)
  · rename_i target hphase
    rw [(hwrite target hphase).2]
    cases hstep
    exact writeCase_ends hhandler (hwrite target hphase).1 trivial (fun hne => absurd rfl hne)
  · rename_i hphase
    split at hstep
    · cases hstep
      exact writeCase_goto hhandler hphase trivial rfl rfl trivial (by simp)
    · split at hstep
      · contradiction
      · cases hstep
        exact writeCase_goto hhandler hphase trivial (handlers_unregister t h.id)
          (writers_unregister t h.id) trivial (by simp)
  · rename_i hphase
    cases hstep
    exact writeCase_goto (u := t.close c) hhandler hphase trivial rfl rfl trivial (by simp)
  · contradiction

/-- Every step starts at most one write, ends at most one, and does not do both. -/
theorem step_writeCase {label : RelayLabel} (hstep : t.step label = some (v, out)) :
    WriteCase t v out (t.endsWrite label) := by
  cases label with
  | accept c path =>
      simp only [step] at hstep
      split at hstep
      · cases hstep
        exact .quiet (fun _ => rfl) rfl (by simp)
      · split at hstep
        · contradiction
        · rename_i hnone
          cases hstep
          refine writeCase_quiet (fun h hh => ?_) rfl rfl trivial (by simp)
          rw [hnone] at hh
          contradiction
  | handler c action =>
      simp only [step] at hstep
      split at hstep
      · contradiction
      · rename_i h hhandler
        exact handle_writeCase hhandler hstep
  | shutdownLock =>
      simp only [step] at hstep
      split at hstep
      · cases hstep
        exact .quiet (fun _ => rfl) rfl (by simp)
      · contradiction
  | shutdownClose c =>
      simp only [step] at hstep
      split at hstep
      · split at hstep
        · cases hstep
          exact .quiet (fun _ => rfl) rfl (by simp)
        · contradiction
      · contradiction
  | shutdownUnlock =>
      simp only [step] at hstep
      split at hstep
      · cases hstep
        exact .quiet (fun _ => rfl) rfl (by simp)
      · contradiction

/-! ## The number of writes in progress -/

/-- The counters count the handlers inside a write. -/
def Counted (t : Relay) : Prop :=
  ∀ d, (t.Writing d).Finite ∧ t.writers d = (t.Writing d).ncard

theorem counted_init (maxConns : Int) : (init maxConns).Counted := by
  intro d
  have hnone : (init maxConns).Writing d = ∅ := by
    ext c
    simp [Writing, init]
  rw [hnone]
  exact ⟨Set.finite_empty, by simp [init]⟩

/-- Every step keeps the count of the writes in progress. -/
theorem counted_step (hcounted : t.Counted) {ended : Option (Conn × WriteResult)}
    (hcase : WriteCase t v out ended) : v.Counted := by
  intro e
  cases hcase with
  | quiet hwriting hwriters _ =>
      rw [hwriting, hwriters]
      exact hcounted e
  | starts c d hnew hwriting hwriters _ =>
      rw [hwriting, hwriters]
      by_cases he : e = d
      · subst he
        rw [if_pos rfl, Function.update_self, Set.ncard_insert_of_notMem hnew (hcounted e).1,
          (hcounted e).2]
        exact ⟨(hcounted e).1.insert c, rfl⟩
      · rw [if_neg he, Function.update_of_ne he]
        exact hcounted e
  | ends c d result hmem hwriting hwriters _ =>
      rw [hwriting, hwriters]
      by_cases he : e = d
      · subst he
        rw [if_pos rfl, Function.update_self, (hcounted e).2,
          Set.ncard_sdiff_singleton_of_mem hmem]
        exact ⟨(hcounted e).1.sdiff, rfl⟩
      · rw [if_neg he, Function.update_of_ne he]
        exact hcounted e

/-- In every reachable state the counters count the handlers inside a write. -/
theorem counted_of_reachable {maxConns : Int} {labels : List RelayLabel} {h : List RelayEvent}
    (hrun : system.run (init maxConns) labels = some (t, h)) : t.Counted := by
  refine system.run_invariant (fun t _ => t.Counted) (counted_init maxConns) ?_ hrun
  intro t h label v out hcounted hstep
  exact counted_step hcounted (step_writeCase hstep)

/-! ## What is asked for -/

/-- A connection's handler answers only what it was asked: what it looks up, has found or
writes goes to an id that its connection asked for, and a pong to its own. -/
def Answers (asked : Conn → GoString → Prop) (handlers : Conn → Option Handler) (c : Conn)
    (h : Handler) : Prop :=
  match h.phase with
  | .ponging => asked c h.id
  | .lookup _ targetID => asked c targetID
  | .roleCheck _ peer => ∃ h', handlers peer.conn = some h' ∧ asked c h'.id
  | .writing _ target | .inWrite target => ∃ h', handlers target = some h' ∧ asked c h'.id
  | _ => True

/-- Handlers stay, under their ids. -/
def Stays (handlers handlers' : Conn → Option Handler) : Prop :=
  ∀ c h, handlers c = some h → ∃ h', handlers' c = some h' ∧ h'.id = h.id

section Answers

variable {asked : Conn → GoString → Prop} {c : Conn} {hd : Handler}

/-- A handler that does nothing has nothing else to answer. -/
theorem Answers.of_stays {handlers handlers' : Conn → Option Handler}
    (hanswers : Answers asked handlers c hd) (hstays : Stays handlers handlers') :
    Answers asked handlers' c hd := by
  unfold Answers at hanswers ⊢
  split at hanswers
  · exact hanswers
  · exact hanswers
  · rcases hanswers with ⟨h, hhandler, hasked⟩
    rcases hstays _ h hhandler with ⟨h', hhandler', hid⟩
    exact ⟨h', hhandler', hid ▸ hasked⟩
  · rcases hanswers with ⟨h, hhandler, hasked⟩
    rcases hstays _ h hhandler with ⟨h', hhandler', hid⟩
    exact ⟨h', hhandler', hid ▸ hasked⟩
  · rcases hanswers with ⟨h, hhandler, hasked⟩
    rcases hstays _ h hhandler with ⟨h', hhandler', hid⟩
    exact ⟨h', hhandler', hid ▸ hasked⟩
  · trivial

/-- Every step leaves every handler there, under its id. -/
theorem stays_step (hcase : StepCase t v out) : Stays t.handlers v.handlers := by
  intro c h hhandler
  rcases hcase.other c with ⟨h', hown, hh'⟩ | ⟨hsame, _⟩
  · rw [hhandler] at hown
    refine ⟨h', hh', ?_⟩
    generalize v.manager = pm' at hown
    cases hown with
    | _ => rfl
  · exact ⟨h, hsame.trans hhandler, rfl⟩

/-- A handler's own step answers what it was asked for. -/
theorem answers_handle {action : Action} (howned : Owned t) (hhandler : t.handlers c = some hd)
    (hasked : ∀ c' id, t.asksFor (.handler c action) = some (c', id) → asked c' id)
    (hanswers : Answers asked t.handlers c hd) (hstep : t.handle c hd action = some (v, out)) :
    ∀ hd', v.handlers c = some hd' → Answers asked t.handlers c hd' := by
  have hgoto : ∀ (u : Relay) (phase : Phase), v = u.goto c hd phase →
      Answers asked t.handlers c { hd with phase := phase } →
      ∀ hd', v.handlers c = some hd' → Answers asked t.handlers c hd' := by
    rintro u phase rfl hphase hd' hhd'
    simp only [goto, put, Function.update_self, Option.some.injEq] at hhd'
    exact hhd' ▸ hphase
  unfold handle at hstep
  split at hstep
  · cases hstep
    exact hgoto t _ rfl trivial
  · rename_i msg hphase
    cases hstep
    refine hgoto t _ rfl ?_
    rcases hd.dispatch_cases msg with heq | ⟨heq, _⟩ | ⟨heq, _⟩
    · rw [heq]
      trivial
    · rw [heq]
      trivial
    · rw [heq]
      exact hasked c _ (by simp only [asksFor, hhandler, heq])
  · cases hstep
    exact hgoto t _ rfl trivial
  · cases hstep
    exact hgoto _ _ rfl (hasked c _ (by simp only [asksFor, hhandler, Option.map_some]))
  · cases hstep
    exact hgoto _ _ rfl trivial
  · cases hstep
    exact hgoto _ _ rfl trivial
  · cases hstep
    exact hgoto _ _ rfl trivial
  · split at hstep
    · contradiction
    · split at hstep
      · cases hstep
        exact hgoto _ _ rfl trivial
      · cases hstep
        exact hgoto _ _ rfl trivial
  · cases hstep
    intro hd' hhd'
    simp only [put, Function.update_self, Option.some.injEq] at hhd'
    exact hhd' ▸ trivial
  · rename_i msg targetID hphase
    simp only [Answers, hphase] at hanswers
    split at hstep
    · contradiction
    · split at hstep
      · cases hstep
        exact hgoto t _ rfl trivial
      · rename_i peer hget
        cases hstep
        -- the target was registered by the handler of its connection, under the target id
        rcases howned.owner targetID peer hget with ⟨h', hh', hid, _⟩
        exact hgoto t _ rfl ⟨h', hh', hid.symm ▸ hanswers⟩
  · rename_i msg targetPeer hphase
    simp only [Answers, hphase] at hanswers
    split at hstep
    · contradiction
    · split at hstep
      · cases hstep
        exact hgoto t _ rfl trivial
      · cases hstep
        exact hgoto t _ rfl hanswers
  · rename_i data target hphase
    simp only [Answers, hphase] at hanswers
    cases hstep
    exact hgoto _ _ rfl hanswers
  · cases hstep
    exact hgoto _ _ rfl trivial
  · cases hstep
    exact hgoto _ _ rfl trivial
  · cases hstep
    exact hgoto _ _ rfl trivial
  · split at hstep
    · cases hstep
      exact hgoto _ _ rfl trivial
    · split at hstep
      · contradiction
      · cases hstep
        exact hgoto _ _ rfl trivial
  · cases hstep
    exact hgoto _ _ rfl trivial
  · contradiction

/-- Every handler answers only what it was asked for. -/
def Answering (asked : Conn → GoString → Prop) (t : Relay) : Prop :=
  ∀ c hd, t.handlers c = some hd → Answers asked t.handlers c hd

/-- A step keeps this, if what it reads is among what is asked for. -/
theorem answering_step {label : RelayLabel} (howned : Owned t)
    (hasked : ∀ c id, t.asksFor label = some (c, id) → asked c id) (hanswering : Answering asked t)
    (hstep : t.step label = some (v, out)) : Answering asked v := by
  have hcase := step_cases hstep
  have hstays := stays_step hcase
  intro c hd' hhd'
  by_cases hsame : v.handlers c = t.handlers c
  · exact (hanswering c hd' (hsame ▸ hhd')).of_stays hstays
  · cases hbefore : t.handlers c with
    | some hd =>
        rcases label_of_changed hbefore hstep hsame with ⟨action, rfl, hhandle⟩
        exact (answers_handle howned hbefore hasked (hanswering c hd hbefore) hhandle hd'
          hhd').of_stays hstays
    | none =>
        rcases hcase.other c with ⟨h', hown, hh'⟩ | ⟨hsame', _⟩
        · rw [hhd', Option.some.injEq] at hh'
          rw [hbefore] at hown
          subst hh'
          generalize v.manager = pm' at hown
          cases hown with
          | opened path => trivial
        · exact absurd hsame' hsame

end Answers

/-- In every reachable state the handlers answer the requests of the run. -/
theorem answers_of_reachable {maxConns : Int} {labels : List RelayLabel} {h : List RelayEvent}
    (hrun : system.run (init maxConns) labels = some (t, h)) :
    Answering (fun c id => (c, id) ∈ requests maxConns labels) t := by
  refine system.run_invariant_of_steps
    (fun t _ => Answering (fun c id => (c, id) ∈ requests maxConns labels) t)
    (fun t _ label => Owned t ∧
      ∀ c id, t.asksFor label = some (c, id) → (c, id) ∈ requests maxConns labels) ?_ ?_ ?_ hrun
  · intro c hd hhandler
    cases hhandler
  · rintro t h label v out hanswering ⟨howned, hasked⟩ hstep
    exact answering_step howned hasked hanswering hstep
  · rintro pre label post hsplit t h' hpre
    refine ⟨(relaying_of_reachable hpre).1, fun c id hasks => ?_⟩
    rw [requests, hsplit]
    exact system.mem_gather_of_prefix hpre hasks

/-! ## Exclusion -/

/-- A handler inside a write to a connection was asked to write to the id of that
connection. -/
theorem asked_of_writing {asked : Conn → GoString → Prop} (hanswering : Answering asked t)
    {c d : Conn} (hwriting : c ∈ t.Writing d) {hd : Handler} (hhandler : t.handlers d = some hd) :
    asked c hd.id := by
  rcases hwriting with ⟨h', hh', hphase | ⟨hphase, rfl⟩⟩
  · have hanswers := hanswering c h' hh'
    simp only [Answers, hphase, hhandler, Option.some.injEq, exists_eq_left'] at hanswers
    exact hanswers
  · have hanswers := hanswering c h' hh'
    rw [hhandler, Option.some.injEq] at hh'
    subst hh'
    simpa only [Answers, hphase] using hanswers

/-- A connection that is written to has a handler. -/
theorem exists_handler_of_writing {asked : Conn → GoString → Prop} (hanswering : Answering asked t)
    {c d : Conn} (hwriting : c ∈ t.Writing d) : ∃ hd, t.handlers d = some hd := by
  rcases hwriting with ⟨h', hh', hphase | ⟨_, rfl⟩⟩
  · have hanswers := hanswering c h' hh'
    simp only [Answers, hphase] at hanswers
    rcases hanswers with ⟨hd, hhandler, _⟩
    exact ⟨hd, hhandler⟩
  · exact ⟨h', hh'⟩

/-- If for every id at most one connection reads frames that name it and pings that are answered
to it, then in no interleaving two writes to one connection are in progress. -/
theorem exclusive_of_oneWriter {maxConns : Int} {labels : List RelayLabel} {h : List RelayEvent}
    (hrun : system.run (init maxConns) labels = some (t, h))
    (hone : OneWriter (requests maxConns labels)) :
    ∀ pre post, labels = pre ++ post → ∀ u h', system.run (init maxConns) pre = some (u, h') →
      u.Exclusive := by
  -- what is asked for up to some point is asked for in the whole run
  have hearlier : ∀ pre post, labels = pre ++ post →
      ∀ p ∈ requests maxConns pre, p ∈ requests maxConns labels := by
    rintro pre post rfl p hp
    exact system.mem_gather_append hp
  intro pre post hsplit u h' hpre d c hc c' hc'
  have hanswering := answers_of_reachable hpre
  rcases exists_handler_of_writing hanswering hc with ⟨hd, hhandler⟩
  exact hone _ (hearlier pre post hsplit _ (asked_of_writing hanswering hc hhandler)) _
    (hearlier pre post hsplit _ (asked_of_writing hanswering hc' hhandler)) rfl

/-- The client joins the game server, and is pinged when that is done. -/
def joinPingLabels : List RelayLabel :=
  joinLabels (goString "7") ++ [.handler 1 (.wrote .ok), .handler 1 .ping]

/-- A join, and a ping of the connection that is joined. -/
theorem exclusive_of_oneWriter_join :
    ∃ t h, system.run (init 0) joinPingLabels = some (t, h) ∧
      requests 0 joinPingLabels = [(1, goString "12345"), (1, goString "7")] ∧
      1 ∈ t.Writing 1 ∧ t.Exclusive := by
  have hrun : ∃ t h, system.run (init 0) joinPingLabels = some (t, h) ∧
      t.handlers 1 = some ⟨goString "7", true, .ponging⟩ := ⟨_, _, rfl, rfl⟩
  rcases hrun with ⟨t, h, hrun, hhandler⟩
  have hrequests : requests 0 joinPingLabels = [(1, goString "12345"), (1, goString "7")] := by
    decide
  refine ⟨t, h, hrun, hrequests, ⟨_, hhandler, Or.inr ⟨rfl, rfl⟩⟩, ?_⟩
  exact exclusive_of_oneWriter hrun (hrequests ▸ by decide) joinPingLabels [] (by simp) t h hrun

/-- Two clients join the game server: while the first join is being written, the second
handler starts to write to the same connection. -/
theorem exists_not_exclusive :
    ∃ t h, system.run (init 0) (joinLabels (goString "7") ++ joinSteps 2 (goString "8")) =
        some (t, h) ∧ ¬ t.Exclusive := by
  have hsome : ((system.run (init 0)
      (joinLabels (goString "7") ++ joinSteps 2 (goString "8"))).any fun p =>
        (p.1.handlers 1).any (fun h => match h.phase with | .inWrite 0 => true | _ => false) &&
        (p.1.handlers 2).any (fun h => match h.phase with | .inWrite 0 => true | _ => false)) =
      true := by
    decide
  rcases (Option.any_eq_true _ _).mp hsome with ⟨⟨t, h⟩, hrun, hwriting⟩
  rw [Bool.and_eq_true] at hwriting
  have hinside : ∀ c, (t.handlers c).any (fun h => match h.phase with
      | .inWrite 0 => true
      | _ => false) = true → c ∈ t.Writing 0 := by
    intro c hany
    rcases (Option.any_eq_true _ _).mp hany with ⟨hd, hhandler, hphase⟩
    refine ⟨hd, hhandler, Or.inl ?_⟩
    split at hphase
    · assumption
    · contradiction
  refine ⟨t, h, hrun, fun hexclusive => ?_⟩
  have heq := hexclusive 0 1 (hinside 1 hwriting.1) 2 (hinside 2 hwriting.2)
  contradiction

/-- Where no two writes overlap, no write panics, as far as the library keeps to its word. -/
theorem not_panicked {maxConns : Int} {labels : List RelayLabel} {h : List RelayEvent}
    (hrun : system.run (init maxConns) labels = some (t, h))
    (hexclusive : ∀ pre post, labels = pre ++ post → ∀ u h',
      system.run (init maxConns) pre = some (u, h') → u.Exclusive)
    (hlibrary : ∀ pre label post, labels = pre ++ label :: post → ∀ u h',
      system.run (init maxConns) pre = some (u, h') → u.PanicsOnOverlap label) (c d : Conn) :
    .writePanicked c d ∉ h ∧ .pongPanicked c ∉ h := by
  have hpanic : ∀ e ∈ h, e ≠ .writePanicked c d ∧ e ≠ .pongPanicked c := by
    refine (system.forall_mem_history_iff _ hrun).mpr ?_
    intro pre label post hsplit u h' v out hpre hstep
    have hquiet : ∀ c d, .writePanicked c d ∉ out ∧ .pongPanicked c ∉ out := by
      have hoverlap := hlibrary pre label post hsplit u h' hpre
      have hcase := step_writeCase hstep
      unfold PanicsOnOverlap at hoverlap
      generalize u.endsWrite label = ended at hcase hoverlap
      cases hcase with
      | quiet _ _ hout => exact hout
      | starts c d _ _ _ hout => exact hout
      | ends c d result hmem _ _ hout =>
          refine hout fun hresult => ?_
          -- a panic needs a second writer
          have htwo : 2 ≤ u.writers d := hoverlap d (by rw [hresult])
          have hone : (u.Writing d).ncard ≤ 1 :=
            (Set.ncard_le_one (counted_of_reachable hpre d).1).mpr
              (hexclusive pre (label :: post) hsplit u h' hpre d)
          rw [(counted_of_reachable hpre d).2] at htwo
          omega
    intro e he
    exact ⟨fun heq => (hquiet c d).1 (heq ▸ he), fun heq => (hquiet c d).2 (heq ▸ he)⟩
  exact ⟨fun hmem => (hpanic _ hmem).1 rfl, fun hmem => (hpanic _ hmem).2 rfl⟩

end Relay

end GameFramework
