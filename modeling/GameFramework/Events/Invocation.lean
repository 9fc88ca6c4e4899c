import GameFramework.Events.StateEventRegistry
import Mathlib.Data.List.Range

/-!
# Invoking a state event

{lit}`StateEventRegistry::EventImpl` keeps a callable behind {lit}`IEvent` and unpacks a vector of
{lit}`std::any` into its parameters.  How many arguments it unpacks and to which types is
computed by the compiler from the type of the callable, so a type is a value here, and a
template that the compiler rejects is an error of the definition that instantiates it.

The template rejects every callable.  {lit}`std::function` is defined for function types only,
which {lit}`std::decay_t` never yields; and the two computations of {lit}`EventImpl` measure and
index a tuple with one element.

Main results:

- Theorem {lit}`EventImpl.invokeImpl_params`: unpacking to the parameter types would deliver the
  arguments or throw as it should.
- Theorem {lit}`EventImpl.invokeImpl_argType_eq_iff`: unpacking to the computed types never calls
  the function, and which exceptions are right by chance.
- Theorem {lit}`EventImpl.instantiate_decay`: there is no {lit}`EventImpl` of a decayed type.
- Theorem {lit}`EventImpl.not_delivers`: no callable is ever called through the registry.
-/

namespace GameFramework

/-- The types that the template computes with.  A tag {lit}`T` stands for an object type other
than these, and parameters are of such types. -/
inductive CppType (T : Type) where
  | object (tag : T)
  | any
  | lvalueReference (target : CppType T)
  | pointer (target : CppType T)
  | function (params : List T)
  /-- A class with one call operator: a closure type or a {lit}`std::function`. -/
  | functor (params : List T)
  /-- A class with several call operators, or with a template of one. -/
  | overloadedFunctor (params : List T)
  | memberFunctionPointer (params : List T)
  deriving DecidableEq

/-- Why a template cannot be instantiated. -/
inductive IllFormed where
  /-- {lit}`std::function` of a type that is not a function type. -/
  | incompleteFunction
  /-- {lit}`IEvent` has no default constructor. -/
  | noDefaultConstructor
  /-- The call operator of a type that has not exactly one. -/
  | noCallOperator
  /-- {lit}`std::tuple_element` past the end. -/
  | tupleIndex
  /-- {lit}`std::any_cast` of an rvalue to an lvalue reference. -/
  | notConstructible
  deriving DecidableEq

/-- {lit}`std::any` holding a value. -/
structure StdAny (T V : Type) where
  type : T
  value : V
  deriving DecidableEq

inductive InvokeException where
  | outOfRange
  | invalidArgument
  | badAnyCast
  deriving DecidableEq

/-- How an invocation ends, and the argument lists that the function was called with. -/
structure InvokeOutcome (T V : Type) where
  exception : Option InvokeException
  calls : List (List (StdAny T V))
  deriving DecidableEq

namespace CppType

variable {T : Type}

/-- {lit}`std::decay_t` -/
def decay : CppType T → CppType T
  | lvalueReference target => decay target
  | function params => pointer (function params)
  | type => type

/-- The parameters of {lit}`std::function<Call>`, whose primary template is not defined. -/
def stdFunction : CppType T → Except IllFormed (List T)
  | function params => .ok params
  | _ => .error .incompleteFunction

/-- {lit}`decltype(&Call::operator())` -/
def callOperator : CppType T → Except IllFormed (CppType T)
  | functor params => .ok (memberFunctionPointer params)
  | _ => .error .noCallOperator

/-- {lit}`std::tuple_size_v<std::tuple<Elements...>>` -/
def tupleSize (elements : List (CppType T)) : ℕ :=
  elements.length

/-- {lit}`std::tuple_element<I, std::tuple<Elements...>>::type` -/
def tupleElement (i : ℕ) (elements : List (CppType T)) : Except IllFormed (CppType T) :=
  match elements[i]? with
  | some element => .ok element
  | none => .error .tupleIndex

/-- A type that {lit}`std::any_cast` can make from an rvalue of the type without its
reference. -/
def anyCastTarget : CppType T → Except IllFormed (CppType T)
  | lvalueReference _ => .error .notConstructible
  | type => .ok type

/-- A decayed type is not a function type. -/
theorem stdFunction_decay (type : CppType T) :
    type.decay.stdFunction = .error .incompleteFunction := by
  induction type with
  | lvalueReference target ih => exact ih
  | function params => rfl
  | _ => rfl

end CppType

/-- {lit}`std::any_cast` -/
def StdAny.anyCast {T V : Type} [DecidableEq T] (target : CppType T) (a : StdAny T V) :
    Except InvokeException (StdAny T V) :=
  if target = .object a.type then .ok a else .error .badAnyCast

/-- The constructors that a class declares. -/
inductive DeclaredConstructor where
  | default
  | copy
  | move
  deriving DecidableEq

/-- The default constructor is declared, or implicit because no constructor is. -/
def hasDefaultConstructor (declared : List DeclaredConstructor) : Bool :=
  declared.isEmpty || declared.contains .default

/-- {lit}`IEvent(const IEvent &)` and {lit}`IEvent(IEvent &&)` -/
def IEvent.constructors : List DeclaredConstructor := [.copy, .move]

/-- What can be called with arguments. -/
inductive Callable (T : Type) where
  | functor (params : List T)
  /-- Called through the operator with these parameters. -/
  | overloadedFunctor (params : List T)
  | functionPointer (params : List T)
  | function (params : List T)

def Callable.params {T : Type} : Callable T → List T
  | functor params | overloadedFunctor params | functionPointer params | function params => params

/-- The type of a callable. -/
def Callable.type {T : Type} : Callable T → CppType T
  | functor params => .functor params
  | overloadedFunctor params => .overloadedFunctor params
  | functionPointer params => .pointer (.function params)
  | function params => .function params

/-- A callable behind the interface {lit}`IEvent`, with what the compiler has computed for it. -/
structure EventImpl (T : Type) where
  /-- The parameters of {lit}`func`. -/
  params : List T
  /-- The types that {lit}`invokeImpl` casts the arguments to, one for each index. -/
  targets : List (CppType T)

namespace EventImpl

variable {T V : Type}

/-- {lit}`call_arg_count` -/
def callArgCount (call : CppType T) : Except IllFormed ℕ := do
  let operator ← call.callOperator
  .ok (CppType.tupleSize [operator.decay])

/-- {lit}`decltype(args[I])` for the vector of {lit}`invokeImpl`. -/
def argType : CppType T :=
  .lvalueReference .any

/-- The class {lit}`EventImpl<Call>`: its member, the constructor of its base, and its methods. -/
def instantiate (call : CppType T) : Except IllFormed (EventImpl T) := do
  let params ← call.stdFunction
  if hasDefaultConstructor IEvent.constructors then
    let count ← callArgCount call
    let targets ← (List.range count).mapM fun i => do
      let target ← CppType.tupleElement i [argType]
      target.anyCastTarget
    .ok ⟨params, targets⟩
  else .error .noDefaultConstructor

/-- The template argument {lit}`Func` is what the compiler deduces for the callable. -/
def registerStateEventFunc (r : StateEventRegistry (EventImpl T)) (func : CppType T) :
    Except IllFormed (StateEventRegistry (EventImpl T) × EventId) := do
  let event ← instantiate func.decay
  .ok (r.registerStateEventFunc event)

/-- The class is ill-formed for every type that {lit}`registerStateEventFunc` asks for. -/
theorem instantiate_decay (func : CppType T) :
    instantiate func.decay = .error .incompleteFunction := by
  unfold instantiate
  rw [CppType.stdFunction_decay]
  rfl

variable [DecidableEq T]

/-- The body of {lit}`invokeImpl`, with the types that it casts to. -/
def invokeImpl (targets : List (CppType T)) (args : List (StdAny T V)) : InvokeOutcome T V :=
  if args.length ≠ targets.length then ⟨some .invalidArgument, []⟩
  else
    match (targets.zip args).mapM fun pair => pair.2.anyCast pair.1 with
    | .error exception => ⟨some exception, []⟩
    | .ok values => ⟨none, [values]⟩

def invoke (event : EventImpl T) (args : List (StdAny T V)) : InvokeOutcome T V :=
  invokeImpl event.targets args

/-- The registry after the call, and how the call ends. -/
def invokeStateEventFunc (r : StateEventRegistry (EventImpl T)) (id : EventId)
    (args : List (StdAny T V)) : StateEventRegistry (EventImpl T) × InvokeOutcome T V :=
  match r.invokeStateEventFunc id args with
  | .outOfRange => (r, ⟨some .outOfRange, []⟩)
  | .function event args => (r, event.invoke args)

/-! ## What an invocation should do -/

/-- One call with the arguments if there is one for each parameter and of its type, else an
exception and no call. -/
def expected (params : List T) (args : List (StdAny T V)) : InvokeOutcome T V :=
  if args.map StdAny.type = params then ⟨none, [args]⟩
  else if args.length ≠ params.length then ⟨some .invalidArgument, []⟩
  else ⟨some .badAnyCast, []⟩

/-- A callable is registered, passed as this type, and invoked under the id that was returned;
the outcome is the expected one, and the invocation leaves the registry alone. -/
def Delivers (r : StateEventRegistry (EventImpl T)) (func : CppType T) (params : List T)
    (args : List (StdAny T V)) : Prop :=
  ∃ r' id, registerStateEventFunc r func = .ok (r', id) ∧
    invokeStateEventFunc r' id args = (r', expected params args)

/-! ## The body of the template -/

theorem anyCast_object (a : StdAny T V) (type : T) :
    a.anyCast (.object type) = if a.type = type then .ok a else .error .badAnyCast := by
  simp [StdAny.anyCast, eq_comm]

/-- Casting each argument to its parameter gives the arguments or throws. -/
theorem mapM_anyCast_params {params : List T} {args : List (StdAny T V)}
    (hlength : args.length = params.length) :
    (((params.map CppType.object).zip args).mapM fun pair => pair.2.anyCast pair.1) =
      if args.map StdAny.type = params then .ok args else .error .badAnyCast := by
  induction params generalizing args with
  | nil =>
      rw [List.length_nil, List.length_eq_zero_iff] at hlength
      subst hlength
      rfl
  | cons type params ih =>
      cases args with
      | nil => cases hlength
      | cons a args =>
          have htail := ih (Nat.succ.inj hlength)
          rw [List.map_cons, List.zip_cons_cons, List.mapM_cons, htail]
          simp only [anyCast_object]
          by_cases ha : a.type = type
          · by_cases hargs : args.map StdAny.type = params
            · simp [ha, hargs, bind, Except.bind, pure, Except.pure]
            · simp [ha, hargs, bind, Except.bind]
          · simp [ha, bind, Except.bind]

/-- With the types of the parameters to cast to, the body would do what is expected. -/
theorem invokeImpl_params (params : List T) (args : List (StdAny T V)) :
    invokeImpl (params.map .object) args = expected params args := by
  unfold invokeImpl expected
  rw [List.length_map]
  by_cases hlength : args.length = params.length
  · rw [mapM_anyCast_params hlength]
    by_cases hargs : args.map StdAny.type = params
    · simp [hlength, hargs]
    · simp [hlength, hargs]
  · have hargs : args.map StdAny.type ≠ params := by
      rintro rfl
      simp at hlength
    simp [hlength, hargs]

/-- With the one type that it computes, the body calls nothing. -/
theorem invokeImpl_argType (args : List (StdAny T V)) :
    invokeImpl [argType] args =
      ⟨some (if args.length = 1 then .badAnyCast else .invalidArgument), []⟩ := by
  unfold invokeImpl
  by_cases hlength : args.length = 1
  · rcases List.length_eq_one_iff.mp hlength with ⟨a, rfl⟩
    rfl
  · simp [hlength]

/-- When that is the right exception: the arguments are wrong, and as many as they should be
exactly if there is one. -/
theorem invokeImpl_argType_eq_iff (params : List T) (args : List (StdAny T V)) :
    invokeImpl [argType] args = expected params args ↔
      args.map StdAny.type ≠ params ∧ (args.length = 1 ↔ args.length = params.length) := by
  rw [invokeImpl_argType]
  unfold expected
  by_cases hargs : args.map StdAny.type = params
  · simp [hargs]
  · by_cases hone : args.length = 1 <;> by_cases hlength : args.length = params.length <;>
      simp [hargs, hone, hlength]

/-! ## The template has no instance -/

/-- No callable is called through the registry, with whatever arguments, in whatever way it is
passed: there is no program that registers it. -/
theorem not_delivers (r : StateEventRegistry (EventImpl T)) (f : Callable T)
    (args : List (StdAny T V)) :
    ¬ Delivers r f.type f.params args ∧ ¬ Delivers r (.lvalueReference f.type) f.params args := by
  have hnever : ∀ func : CppType T, ¬ Delivers r func f.params args := by
    rintro func ⟨r', id, hregister, -⟩
    unfold registerStateEventFunc at hregister
    rw [instantiate_decay] at hregister
    cases hregister
  exact ⟨hnever _, hnever _⟩

/-- A lambda with two integer parameters and two integers for it. -/
theorem not_delivers_lambda :
    registerStateEventFunc (StateEventRegistry.init 0) (.functor ["int", "int"]) =
        .error .incompleteFunction ∧
      ¬ Delivers (StateEventRegistry.init 0) (.functor ["int", "int"]) ["int", "int"]
        [⟨"int", (1 : ℤ)⟩, ⟨"int", 2⟩] := by
  refine ⟨rfl, ?_⟩
  rintro ⟨r', id, hregister, -⟩
  cases hregister

end EventImpl

end GameFramework
