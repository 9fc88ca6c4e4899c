import GameFramework.Network.NetworkServer
import Mathlib.Data.List.Infix

/-!
# The address of the signalling server

{lit}`NetworkServer::run` takes the address from the environment, splits it at its first colon
and reads a port from the rest; {lit}`startSignallingWebsocket` puts the two together again and
looks for a scheme in the first part, where the split has left none.

Main results:

- Theorem {lit}`NetworkServer.run_text`: an address {lit}`host:port` is opened as it should be.
- Theorem {lit}`NetworkServer.run_schemeText`: an address with a scheme ends the network thread.
- Theorem {lit}`NetworkServer.meetsAddress_iff`: the addresses {lit}`host:port` are the only
  strings that are treated as they should be.
-/

namespace GameFramework

namespace NetworkServer

/-! ## The code -/

/-- The string before the first colon and the string after it. -/
def splitAddress (signallingUrl : StdString) : StdString × StdString :=
  match signallingUrl.findIdx? (· == 58) with
  | some colonPos => (signallingUrl.take colonPos, signallingUrl.drop (colonPos + 1))
  -- `npos` as a length takes the whole string, and `npos + 1` wraps around to 0
  | none => (signallingUrl, signallingUrl)

/-- The url that {lit}`startSignallingWebsocket` opens. -/
def websocketUrl (signalServerUrl : StdString) (port : UInt16) (localID : PeerID) : StdString :=
  (if goString "://" <:+: signalServerUrl then [] else goString "ws://") ++ signalServerUrl ++
    goString ":" ++ Decimal.render port.toNat ++ goString "/connect/" ++ Decimal.toString localID

/-- {lit}`run` up to the loop, given the environment variable: the url that it opens, if it opens
one, or the exception that ends the network thread. -/
def run (env : Option StdString) : Except Decimal.StoullError (Option StdString) := do
  let signallingUrl := env.getD (goString "localhost:9812")
  let (host, rest) := splitAddress signallingUrl
  let port ← Decimal.stoi rest
  .ok (some (websocketUrl host (UInt16.ofInt port) 12345))

/-! ## What it should do -/

/-- A host and the numeral of a port. -/
structure HostPort where
  host : StdString
  digits : StdString
  colon : 58 ∉ host
  slash : 47 ∉ host
  nonempty : digits ≠ []
  numeral : ∀ b ∈ digits, Decimal.isDigit b = true
  positive : 1 ≤ Decimal.value digits
  small : Decimal.value digits ≤ 65535

namespace HostPort

/-- {lit}`host:port` -/
def text (a : HostPort) : StdString :=
  a.host ++ goString ":" ++ a.digits

/-- {lit}`scheme://host:port` -/
def schemeText (a : HostPort) (scheme : StdString) : StdString :=
  scheme ++ goString "://" ++ a.text

/-- {lit}`scheme://host:port/connect/localID` -/
def url (a : HostPort) (scheme : StdString) : StdString :=
  scheme ++ goString "://" ++ a.host ++ goString ":" ++ Decimal.render (Decimal.value a.digits) ++
    goString "/connect/" ++ Decimal.toString 12345

end HostPort

/-- The schemes of websockets. -/
def schemes : List StdString := [goString "ws", goString "wss"]

/-- Addresses with and without a scheme are opened, and every other string is rejected: nothing
is opened, and no exception leaves the thread. -/
structure MeetsAddress (signallingUrl : StdString) : Prop where
  plain : ∀ a : HostPort, signallingUrl = a.text →
    run (some signallingUrl) = .ok (some (a.url (goString "ws")))
  withScheme : ∀ a : HostPort, ∀ scheme ∈ schemes, signallingUrl = a.schemeText scheme →
    run (some signallingUrl) = .ok (some (a.url scheme))
  other : (∀ a : HostPort, signallingUrl ≠ a.text) →
    (∀ a : HostPort, ∀ scheme ∈ schemes, signallingUrl ≠ a.schemeText scheme) →
      run (some signallingUrl) = .ok none

/-! ## The split -/

/-- The split is at a colon that no other colon is in front of. -/
theorem splitAddress_append {host rest : StdString} (hcolon : 58 ∉ host) :
    splitAddress (host ++ 58 :: rest) = (host, rest) := by
  have hhost : host.findIdx? (· == 58) = none := by
    rw [List.findIdx?_eq_none_iff]
    intro b hb
    simp only [beq_eq_false_iff_ne, ne_eq]
    rintro rfl
    exact hcolon hb
  have hindex : (host ++ 58 :: rest).findIdx? (· == 58) = some host.length := by
    rw [List.findIdx?_append, hhost]
    simp [List.findIdx?_cons]
  unfold splitAddress
  rw [hindex]
  simp

/-- A host has no scheme in it. -/
theorem not_isInfix_of_colon {host : StdString} (hcolon : 58 ∉ host) :
    ¬ goString "://" <:+: host := by
  intro hscheme
  exact hcolon (hscheme.subset (by decide))

/-! ## The three kinds of strings -/

/-- An address {lit}`host:port` is opened. -/
theorem run_text (a : HostPort) : run (some a.text) = .ok (some (a.url (goString "ws"))) := by
  have hsplit : splitAddress a.text = (a.host, a.digits) := by
    have htext : a.text = a.host ++ 58 :: a.digits := by
      simp [HostPort.text, goString]
    rw [htext, splitAddress_append a.colon]
  have hport : Decimal.stoi a.digits = .ok (Decimal.value a.digits) :=
    Decimal.stoi_of_forall_isDigit a.nonempty a.numeral (by have := a.small; omega)
  have hvalue : (UInt16.ofInt (Decimal.value a.digits)).toNat = Decimal.value a.digits := by
    have := a.small
    simp [UInt16.ofInt]
    omega
  unfold run
  simp only [Option.getD_some, hsplit, hport, bind, Except.bind]
  have hscheme : goString "ws://" = goString "ws" ++ goString "://" := rfl
  rw [websocketUrl, if_neg (not_isInfix_of_colon a.colon), hvalue, hscheme]
  simp [HostPort.url]

/-- The first colon of an address with a scheme is the colon of the scheme, and what follows it
is not a number. -/
theorem run_schemeText (a : HostPort) {scheme : StdString} (hscheme : scheme ∈ schemes) :
    run (some (a.schemeText scheme)) = .error .invalidArgument := by
  have hcolon : 58 ∉ scheme := by
    simp only [schemes, List.mem_cons, List.not_mem_nil, or_false] at hscheme
    rcases hscheme with rfl | rfl <;> decide
  have hsplit : splitAddress (a.schemeText scheme) = (scheme, goString "//" ++ a.text) := by
    have htext : a.schemeText scheme = scheme ++ 58 :: (goString "//" ++ a.text) := by
      simp [HostPort.schemeText, goString]
    rw [htext, splitAddress_append hcolon]
  have hport : Decimal.stoi (goString "//" ++ a.text) = .error .invalidArgument := rfl
  unfold run
  simp only [Option.getD_some, hsplit, hport, bind, Except.bind]

/-- Nothing is ever rejected without an exception. -/
theorem run_ne_rejected (env : Option StdString) : run env ≠ .ok none := by
  unfold run
  simp only [bind, Except.bind]
  split <;> simp

/-- The network server opens the right url, or rejects the string, exactly when the string is
{lit}`host:port`. -/
theorem meetsAddress_iff (signallingUrl : StdString) :
    MeetsAddress signallingUrl ↔ ∃ a : HostPort, signallingUrl = a.text := by
  constructor
  · intro hmeets
    by_contra hplain
    have hplain' : ∀ a : HostPort, signallingUrl ≠ a.text := fun a ha => hplain ⟨a, ha⟩
    by_cases hform : ∃ a : HostPort, ∃ scheme ∈ schemes, signallingUrl = a.schemeText scheme
    · rcases hform with ⟨a, scheme, hscheme, ha⟩
      have hopened := hmeets.withScheme a scheme hscheme ha
      rw [ha, run_schemeText a hscheme] at hopened
      cases hopened
    · refine run_ne_rejected _ (hmeets.other hplain' ?_)
      intro a scheme hscheme ha
      exact hform ⟨a, scheme, hscheme, ha⟩
  · rintro ⟨a, rfl⟩
    refine ⟨?_, ?_, ?_⟩
    · intro a' ha'
      rw [ha', run_text a']
    · intro a' scheme hscheme ha'
      have hopened := run_text a
      rw [ha', run_schemeText a' hscheme] at hopened
      cases hopened
    · intro hplain
      exact absurd rfl (hplain a)

/-- The default address. -/
def defaultAddress : HostPort where
  host := goString "localhost"
  digits := goString "9812"
  colon := by decide
  slash := by decide
  nonempty := by decide
  numeral := by simp [goString, Decimal.isDigit]
  positive := by decide
  small := by decide

/-- The default address with its scheme. -/
theorem exists_not_meetsAddress :
    goString "ws://localhost:9812" = defaultAddress.schemeText (goString "ws") ∧
      run (some (goString "ws://localhost:9812")) = .error .invalidArgument ∧
      ¬ MeetsAddress (goString "ws://localhost:9812") := by
  have hscheme : goString "ws" ∈ schemes := by decide
  have hrun : run (some (goString "ws://localhost:9812")) = .error .invalidArgument :=
    run_schemeText defaultAddress hscheme
  refine ⟨rfl, hrun, fun hmeets => ?_⟩
  have hopened := hmeets.withScheme defaultAddress (goString "ws") hscheme rfl
  rw [hrun] at hopened
  cases hopened

end NetworkServer

end GameFramework
