import GameFramework.Network.NetworkClient
import GameFramework.Network.NetworkServer

/-!
# Starting the signalling websocket

{lit}`startSignallingWebsocket` of the network client and of the network server, from the moment
the websocket is told to open, and what {lit}`NetworkClient::connect` does after it.  The
callbacks complete a promise on the stack of the function that waits for it; they stay
installed when the function has returned.

A label is a part of a callback, the end of the wait with the return of the function, or the
rest of {lit}`connect`.  The wait can end while {lit}`onOpen` has sent its message and not yet
completed the promise.  Completing a promise twice is refused with an exception; completing it
when the function has returned writes to memory that is no longer there.

Main results:

- Theorem {lit}`StartUp.filterMap_key`: the labels that matter leave their trace in the history.
- Theorem {lit}`StartUp.joins_iff`: joining after the register message means joining after the
  websocket has opened.
- Theorem {lit}`StartUp.followsProtocol_iff`: the protocol is followed in the runs in which at most
  one callback gets to its end, and that before the wait ends, and the opening comes before the
  client goes on to join, and in no other run.
-/

namespace GameFramework

/-- Who starts a signalling websocket. -/
inductive StartUpSide where
  | client (localID serverID : PeerID)
  | server (localID : PeerID)

namespace StartUpSide

def registerMsg : StartUpSide → Json
  | client localID _ => NetworkClient.registerMsg localID
  | server localID => NetworkServer.registerMsg localID

/-- What {lit}`NetworkClient::connect` sends when {lit}`startSignallingWebsocket` has returned. -/
def joinMsg : StartUpSide → Option Json
  | client _ serverID => some (NetworkClient.joinMsg serverID)
  | server _ => none

end StartUpSide

structure StartUp where
  /-- The calls of {lit}`onOpen` that have sent their message and are still to complete the
  promise. -/
  opening : ℕ
  /-- The promise has a value or an exception. -/
  satisfied : Bool
  /-- {lit}`startSignallingWebsocket` has returned, and its promise is gone. -/
  returned : Bool
  /-- {lit}`connect` has returned. -/
  connected : Bool
  /-- Undefined behaviour has occurred; nothing is known from there on. -/
  undefined : Bool

inductive StartUpLabel where
  /-- {lit}`onOpen` until the register message is sent. -/
  | onOpen
  /-- The end of {lit}`onOpen`. -/
  | setValue
  | onError (error : StdString)
  /-- The wait ends, by completion or by timeout, and the function returns. -/
  | waitEnds
  /-- The client goes on with {lit}`connect`. -/
  | connect
  deriving DecidableEq

inductive StartUpEvent where
  | opened
  | sent (message : Json)
  | completed
  /-- {lit}`std::future_errc::promise_already_satisfied` -/
  | refused
  /-- The promise is completed after its end of life. -/
  | dangling
  | returned (timeout : Bool)
  | joined (message : Json)

namespace StartUp

/-- {lit}`ws->open(url)` has returned. -/
def init : StartUp where
  opening := 0
  satisfied := false
  returned := false
  connected := false
  undefined := false

/-- {lit}`wsPromise.set_value` or {lit}`wsPromise.set_exception`, which a callback reaches through
a reference. -/
def complete (t : StartUp) : StartUp × List StartUpEvent :=
  if t.returned then ({ t with undefined := true }, [.dangling])
  else if t.satisfied then (t, [.refused])
  else ({ t with satisfied := true }, [.completed])

def step (side : StartUpSide) (t : StartUp) (label : StartUpLabel) :
    Option (StartUp × List StartUpEvent) :=
  if t.undefined then none
  else
    match label with
    | .onOpen => some ({ t with opening := t.opening + 1 }, [.opened, .sent side.registerMsg])
    | .setValue =>
        if t.opening = 0 then none else some { t with opening := t.opening - 1 }.complete
    | .onError _ => some t.complete
    | .waitEnds =>
        if t.returned then none
        else some ({ t with returned := true }, [.returned (!t.satisfied)])
    | .connect =>
        match side.joinMsg with
        | some message =>
            if t.returned && !t.connected then
              some ({ t with connected := true }, [.joined message])
            else none
        | none => none

/-- Both start-ups as labelled systems. -/
def system (side : StartUpSide) : Labelled.System StartUp StartUpLabel StartUpEvent where
  step := step side

/-! ## The protocol -/

/-- The steps of a start-up that the protocol is about. -/
inductive Key where
  | completion
  | finish
  | join
  deriving DecidableEq

/-- A callback ends with completing the promise, whether or not that goes well. -/
def labelKey : StartUpLabel → Option Key
  | .setValue | .onError _ => some .completion
  | .waitEnds => some .finish
  | .connect => some .join
  | .onOpen => none

def eventKey : StartUpEvent → Option Key
  | .completed | .refused | .dangling => some .completion
  | .returned _ => some .finish
  | .joined _ => some .join
  | .opened | .sent _ => none

/-- The promise is completed at most once and never when the function has returned, and the
join is sent on a websocket that has opened and on which the client has registered. -/
structure FollowsProtocol (side : StartUpSide) (h : List StartUpEvent) : Prop where
  once : (h.filterMap eventKey).count .completion ≤ 1
  inTime : (h.filterMap eventKey).Pairwise fun k k' => k = .finish → k' ≠ .completion
  joins : ∀ a message b, h = a ++ .joined message :: b →
    .opened ∈ a ∧ .sent side.registerMsg ∈ a

/-- At most one callback gets to its end, which comes before the wait ends, and {lit}`onOpen` comes
before the client goes on. -/
structure Orderly (labels : List StartUpLabel) : Prop where
  once : (labels.filterMap labelKey).count .completion ≤ 1
  inTime : (labels.filterMap labelKey).Pairwise fun k k' => k = .finish → k' ≠ .completion
  joins : ∀ pre post, labels = pre ++ .connect :: post → .onOpen ∈ pre

variable {side : StartUpSide} {t u : StartUp} {label : StartUpLabel}
  {labels : List StartUpLabel} {out h : List StartUpEvent}

/-- What a completion records is a completion. -/
theorem filterMap_complete (t : StartUp) :
    t.complete.2.filterMap eventKey = [.completion] := by
  unfold complete
  split
  · rfl
  · split <;> rfl

/-- A completion depends on the end of the wait and of other callbacks only. -/
theorem complete_opening (t : StartUp) (n : ℕ) :
    ({ t with opening := n } : StartUp).complete.2 = t.complete.2 := by
  unfold complete
  split
  · rfl
  · split <;> rfl

/-- What each label records. -/
inductive StepCase (side : StartUpSide) (t : StartUp) : StartUpLabel → List StartUpEvent → Prop
  | onOpen : StepCase side t .onOpen [.opened, .sent side.registerMsg]
  | setValue : StepCase side t .setValue t.complete.2
  | onError (error : StdString) : StepCase side t (.onError error) t.complete.2
  | waitEnds : StepCase side t .waitEnds [.returned (!t.satisfied)]
  | connect (message : Json) : StepCase side t .connect [.joined message]

theorem step_cases (hstep : step side t label = some (u, out)) : StepCase side t label out := by
  unfold step at hstep
  split at hstep
  · contradiction
  · cases label with
    | onOpen =>
        cases hstep
        exact .onOpen
    | setValue =>
        simp only at hstep
        split at hstep
        · contradiction
        · have hout : out = t.complete.2 := by
            rw [← complete_opening t (t.opening - 1), Option.some.inj hstep]
          rw [hout]
          exact .setValue
    | onError error =>
        have hout : out = t.complete.2 := by rw [Option.some.inj hstep]
        rw [hout]
        exact .onError error
    | waitEnds =>
        simp only at hstep
        split at hstep
        · contradiction
        · cases hstep
          exact .waitEnds
    | connect =>
        simp only at hstep
        split at hstep
        · split at hstep
          · cases hstep
            exact .connect _
          · contradiction
        · contradiction

/-- A step records one event of the kind of its label, if the label has one. -/
theorem filterMap_step (hstep : step side t label = some (u, out)) :
    out.filterMap eventKey = (labelKey label).toList := by
  cases step_cases hstep with
  | onOpen => rfl
  | setValue => exact filterMap_complete t
  | onError error => exact filterMap_complete t
  | waitEnds => rfl
  | connect message => rfl

/-- The history of a run tells its labels. -/
theorem filterMap_key (hrun : (system side).run t labels = some (u, h)) :
    h.filterMap eventKey = labels.filterMap labelKey := by
  induction labels generalizing t h with
  | nil =>
      cases hrun
      rfl
  | cons label labels ih =>
      rcases ((system side).run_cons_eq_some).mp hrun with ⟨v, out, rest, hstep, hrest, rfl⟩
      rw [List.filterMap_append, filterMap_step hstep, ih hrest]
      cases hkey : labelKey label <;> simp [hkey]

/-! ## Joining -/

/-- A completion is neither an opening nor a join. -/
theorem eventKey_of_mem_complete {e : StartUpEvent} (he : e ∈ t.complete.2) :
    eventKey e = some .completion := by
  unfold complete at he
  split at he
  · rw [List.mem_singleton.mp he]
    rfl
  · split at he <;> rw [List.mem_singleton.mp he] <;> rfl

/-- Only the callback of an opened websocket records an opening. -/
theorem eq_onOpen_of_mem (hstep : step side t label = some (u, out)) (hmem : .opened ∈ out) :
    label = .onOpen := by
  cases step_cases hstep with
  | onOpen => rfl
  | setValue => cases eventKey_of_mem_complete hmem
  | onError error => cases eventKey_of_mem_complete hmem
  | waitEnds => simp at hmem
  | connect message => simp at hmem

/-- A join is all that its step records. -/
theorem eq_connect_of_split {before after : List StartUpEvent} {message : Json}
    (hstep : step side t label = some (u, before ++ .joined message :: after)) :
    label = .connect ∧ before = [] := by
  have hmem : .joined message ∈ before ++ .joined message :: after := by simp
  generalize hout : before ++ .joined message :: after = out at hstep hmem
  cases step_cases hstep with
  | onOpen => simp at hmem
  | setValue => cases eventKey_of_mem_complete hmem
  | onError error => cases eventKey_of_mem_complete hmem
  | waitEnds => simp at hmem
  | connect message' =>
      refine ⟨rfl, ?_⟩
      cases before with
      | nil => rfl
      | cons e before => simp at hout

/-- Every join is sent on a websocket that has opened, and after the register message, exactly
when the opening comes before the client goes on. -/
theorem joins_iff (hrun : (system side).run init labels = some (u, h)) :
    (∀ a message b, h = a ++ .joined message :: b →
        .opened ∈ a ∧ .sent side.registerMsg ∈ a) ↔
      ∀ pre post, labels = pre ++ .connect :: post → .onOpen ∈ pre := by
  constructor
  · intro hjoins pre post hsplit
    rw [hsplit] at hrun
    rcases ((system side).run_split).mp hrun with ⟨t, v, h₁, out, h₂, hpre, hstep, -, rfl⟩
    have hcase : StepCase side t .connect out := step_cases hstep
    cases hcase with
    | connect message =>
        have hopened := (hjoins h₁ message h₂ (by simp)).1
        rcases (system side).exists_step_of_mem hpre hopened with
          ⟨pre', label, post', t', v', h', out', rfl, -, hstep', hmem⟩
        rw [eq_onOpen_of_mem hstep' hmem]
        simp
  · intro hlabels a message b hsplit
    rw [hsplit] at hrun
    rcases (system side).exists_step_of_mem_history hrun with
      ⟨pre, label, post, t, v, h', out₁, out₂, rfl, hpre, hstep, rfl⟩
    rcases eq_connect_of_split hstep with ⟨rfl, rfl⟩
    rcases List.append_of_mem (hlabels pre post rfl) with ⟨pre₁, pre₂, rfl⟩
    rcases ((system side).run_split).mp hpre with ⟨t', v', h₁, out, h₂, -, hstep', -, rfl⟩
    have hcase : StepCase side t' .onOpen out := step_cases hstep'
    cases hcase with
    | onOpen => simp

/-- The protocol is followed exactly when the callbacks begin and end at a good time. -/
theorem followsProtocol_iff (side : StartUpSide) (labels : List StartUpLabel) {u : StartUp}
    {h : List StartUpEvent} (hrun : (system side).run init labels = some (u, h)) :
    FollowsProtocol side h ↔ Orderly labels := by
  have hkeys := filterMap_key hrun
  constructor
  · intro hprotocol
    refine ⟨?_, ?_, (joins_iff hrun).mp hprotocol.joins⟩
    · rw [← hkeys]
      exact hprotocol.once
    · rw [← hkeys]
      exact hprotocol.inTime
  · intro horderly
    refine ⟨?_, ?_, (joins_iff hrun).mpr horderly.joins⟩
    · rw [hkeys]
      exact horderly.once
    · rw [hkeys]
      exact horderly.inTime

/-- The happy order, on the client. -/
theorem followsProtocol_iff_happy :
    ∃ u h, (system (.client 7 12345)).run init [.onOpen, .setValue, .waitEnds, .connect] =
        some (u, h) ∧ FollowsProtocol (.client 7 12345) h := by
  refine ⟨_, _, rfl, (followsProtocol_iff _ [.onOpen, .setValue, .waitEnds, .connect] rfl).mpr
    ⟨by decide, by decide, ?_⟩⟩
  intro pre post hsplit
  rcases pre with _ | ⟨label, pre⟩
  · cases hsplit
  · rw [List.cons_append, List.cons.injEq] at hsplit
    simp [← hsplit.1]

/-- The wait of the server ends before the websocket opens, or before its callback ends, and the
client joins when the websocket could not be opened. -/
theorem exists_not_followsProtocol :
    (∃ u h, (system (.server 12345)).run init [.waitEnds, .onOpen, .setValue] = some (u, h) ∧
      ¬ FollowsProtocol (.server 12345) h) ∧
    (∃ u h, (system (.server 12345)).run init [.onOpen, .waitEnds, .setValue] = some (u, h) ∧
      ¬ FollowsProtocol (.server 12345) h) ∧
    ∃ u h, (system (.client 7 12345)).run init
        [.onError (goString "refused"), .waitEnds, .connect] = some (u, h) ∧
      ¬ FollowsProtocol (.client 7 12345) h := by
  refine ⟨⟨_, _, rfl, fun hprotocol => ?_⟩, ⟨_, _, rfl, fun hprotocol => ?_⟩,
    ⟨_, _, rfl, fun hprotocol => ?_⟩⟩
  · have hinTime := hprotocol.inTime
    revert hinTime
    decide
  · have hinTime := hprotocol.inTime
    revert hinTime
    decide
  · have hopened := (hprotocol.joins [.completed, .returned false] _ [] rfl).1
    simp at hopened

end StartUp

end GameFramework
