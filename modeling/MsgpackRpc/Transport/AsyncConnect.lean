import MsgpackRpc.Addresses.URI
import MsgpackRpc.Lib.Dict

/-!
# Connecting to one of several URIs

`BackendList` and `MultiBackendConnector`.  An attempt ends by its callback or by an exception of
`IConnector::async_connect`; either way the connector goes on in `operator()`, so the whole run is
one recursion over the URIs.
-/

namespace MsgpackRpc.Transport

open Addresses (URI)

/-- A backend, by its scheme. -/
structure Backend where
  scheme : List UInt8
  deriving DecidableEq, Repr

abbrev BackendList := Dict Backend.scheme

namespace BackendList

def append (backends : BackendList) (backend : Backend) : Except Status BackendList :=
  match backends.tryEmplace backend with
  | some backends => .ok backends
  | none =>
      .error (.create .invalidArgument
        (text "Duplicate scheme : \"" ++ backend.scheme ++ text "\"."))

def find (backends : BackendList) (scheme : List UInt8) : Except Status Backend :=
  match Dict.find backends scheme with
  | some backend => .ok backend
  | none => .error (.create .invalidArgument (text "Invalid scheme: " ++ scheme ++ text "."))

end BackendList

/-- How an attempt to connect ends, once `async_connect` of the connector has been called. -/
inductive Attempt (κ : Type) where
  | calledBack (status : Status) (connection : Option κ)
  /-- `async_connect` throws a `MsgpackRPCException`. -/
  | thrown (status : Status)
  deriving DecidableEq, Repr

def Attempt.status {κ : Type} : Attempt κ → Status
  | .calledBack status _ | .thrown status => status

def Attempt.connection {κ : Type} : Attempt κ → Option κ
  | .calledBack _ connection => connection
  | .thrown _ => none

/-- The attempt hands over a connection. -/
def Attempt.succeeds {κ : Type} : Attempt κ → Bool
  | .calledBack status _ => status.code == .success
  | .thrown _ => false

/-- How a `MultiBackendConnector` ends. -/
inductive ConnectorEnd where
  | returned
  | thrown (status : Status)
  /-- The iterator at the end of the URIs is dereferenced, which has no defined behaviour. -/
  | undefined
  deriving DecidableEq, Repr

/-- What a run of the connector has done: the invocations of `on_connection_`, and the URIs given to
`async_connect` of a connector. -/
structure Connected (κ : Type) where
  calls : List (Status × Option κ) := []
  tried : List URI := []
  ended : ConnectorEnd := .returned
  deriving DecidableEq, Repr

namespace MultiBackendConnector

variable {κ : Type}

/-- `operator()`.  `next` is what `async_connect` does at the next URI; there is one unless
`atEnd`. -/
def operatorCall (status : Status) (connection : Option κ) (atEnd : Bool) (next : Connected κ) :
    Connected κ :=
  if status.code = .success then
    { calls := [(status, connection)] }
  else if atEnd then
    { calls := [(.create .connectionFailure (text "Failed to connect to all the URIs."),
        connection)] }
  else
    next

/-- `async_connect` at the first of the URIs that are left, each with the way its attempt ends if it
is made.  The backend is looked up outside the `try` block. -/
def asyncConnect (backends : BackendList) : List (URI × Attempt κ) → Connected κ
  | [] => { ended := .undefined }
  | (uri, attempt) :: rest =>
      match backends.find uri.scheme with
      | .error status => { ended := .thrown status }
      | .ok _ =>
          let handled :=
            operatorCall attempt.status attempt.connection rest.isEmpty (asyncConnect backends rest)
          { handled with tried := uri :: handled.tried }

/-- One result is reported: the connection of the first attempt that succeeds, with the URIs before
it tried and none after it, or a failure after all of them. -/
def ReportsFirst (tries : List (URI × Attempt κ)) (connected : Connected κ) : Prop :=
  connected.ended = .returned ∧
    match tries.dropWhile fun t => !t.2.succeeds with
    | (uri, attempt) :: _ =>
        connected.calls = [(attempt.status, attempt.connection)] ∧
          connected.tried = (tries.takeWhile fun t => !t.2.succeeds).map Prod.fst ++ [uri]
    | [] =>
        (∃ status connection, connected.calls = [(status, connection)] ∧
          status.code = .connectionFailure) ∧
          connected.tried = tries.map Prod.fst

/-- There is a URI, and up to the first one whose attempt succeeds the schemes are registered and no
exception has the code of a success. -/
def Usable (backends : BackendList) (tries : List (URI × Attempt κ)) : Prop :=
  tries ≠ [] ∧
  (∀ t ∈ tries.takeWhile fun t => !t.2.succeeds,
    (∃ backend, backends.find t.1.scheme = .ok backend) ∧ t.2.status.code ≠ .success) ∧
  ∀ t ∈ (tries.dropWhile fun t => !t.2.succeeds).head?,
    ∃ backend, backends.find t.1.scheme = .ok backend

section Steps

variable {backends : BackendList} {uri : URI} {attempt : Attempt κ}
  {rest : List (URI × Attempt κ)}

/-- The first URI has failed, and the connector goes on with the others. -/
theorem reportsFirst_cons (hfails : attempt.succeeds = false) (connected : Connected κ) :
    ReportsFirst ((uri, attempt) :: rest) { connected with tried := uri :: connected.tried } ↔
      ReportsFirst rest connected := by
  have hdrop : ((uri, attempt) :: rest).dropWhile (fun t => !t.2.succeeds) =
      rest.dropWhile fun t => !t.2.succeeds := by
    rw [List.dropWhile_cons, hfails]
    rfl
  have htake : ((uri, attempt) :: rest).takeWhile (fun t => !t.2.succeeds) =
      (uri, attempt) :: rest.takeWhile fun t => !t.2.succeeds := by
    rw [List.takeWhile_cons, hfails]
    rfl
  unfold ReportsFirst
  rw [hdrop, htake]
  cases rest.dropWhile fun t => !t.2.succeeds with
  | nil => simp only [List.map_cons, List.cons.injEq, true_and]
  | cons t later => simp only [List.map_cons, List.cons_append, List.cons.injEq, true_and]

theorem usable_cons (hfails : attempt.succeeds = false) (hrest : rest ≠ []) :
    Usable backends ((uri, attempt) :: rest) ↔
      ((∃ backend, backends.find uri.scheme = .ok backend) ∧ attempt.status.code ≠ .success) ∧
        Usable backends rest := by
  unfold Usable
  rw [List.takeWhile_cons, List.dropWhile_cons, hfails]
  simp only [Bool.not_false, if_true, List.forall_mem_cons, ne_eq, reduceCtorEq, not_false_eq_true,
    true_and, hrest]
  constructor
  · rintro ⟨⟨hfirst, hfailed⟩, hfound⟩
    exact ⟨hfirst, hfailed, hfound⟩
  · rintro ⟨hfirst, hfailed, hfound⟩
    exact ⟨⟨hfirst, hfailed⟩, hfound⟩

/-- The lookup of the scheme is not inside the `try` block. -/
theorem not_usable_of_find {status : Status} (hfind : backends.find uri.scheme = .error status) :
    ¬ Usable backends ((uri, attempt) :: rest) := by
  intro husable
  -- the first URI is looked up whether its attempt succeeds or fails
  obtain ⟨backend, hfound⟩ : ∃ backend, backends.find uri.scheme = .ok backend := by
    cases hsucceeds : attempt.succeeds with
    | true =>
      apply husable.2.2 (uri, attempt)
      rw [List.dropWhile_cons, hsucceeds]
      rfl
    | false =>
      refine (husable.2.1 (uri, attempt) ?_).1
      rw [List.takeWhile_cons, hsucceeds]
      exact List.mem_cons_self
  rw [hfind] at hfound
  cases hfound

theorem usable_of_succeeds {backend : Backend} (hsucceeds : attempt.succeeds = true)
    (hfind : backends.find uri.scheme = .ok backend) :
    Usable backends ((uri, attempt) :: rest) := by
  unfold Usable
  rw [List.takeWhile_cons, List.dropWhile_cons, hsucceeds]
  refine ⟨nofun, nofun, fun t ht => ?_⟩
  cases ht
  exact ⟨backend, hfind⟩

/-- An exception with the code of a success ends the run without a connection. -/
theorem not_reportsFirst_of_thrown_success (hfails : attempt.succeeds = false)
    (hsuccess : attempt.status.code = .success) :
    ¬ ReportsFirst ((uri, attempt) :: rest)
      { calls := [(attempt.status, attempt.connection)], tried := [uri] } := by
  rw [reportsFirst_cons hfails { calls := [(attempt.status, attempt.connection)] }]
  rintro ⟨-, h⟩
  split at h
  · have htried := h.2.symm
    rw [List.append_eq_nil_iff] at htried
    cases htried.2
  · obtain ⟨⟨status, connection, hcalls, hcode⟩, -⟩ := h
    cases hcalls
    rw [hsuccess] at hcode
    cases hcode

end Steps

/-- The connector reports the first connection, or the failure of all the URIs, exactly if there is
a URI and every scheme that it looks up is registered. -/
theorem asyncConnect_reportsFirst_iff (backends : BackendList) (tries : List (URI × Attempt κ)) :
    ReportsFirst tries (asyncConnect backends tries) ↔ Usable backends tries := by
  induction tries with
  | nil => exact iff_of_false (fun h => nomatch h.1) fun h => h.1 rfl
  | cons t rest ih =>
    obtain ⟨uri, attempt⟩ := t
    unfold asyncConnect
    cases hfind : backends.find uri.scheme with
    | error status => exact iff_of_false (fun h => nomatch h.1) (not_usable_of_find hfind)
    | ok backend =>
      cases hsucceeds : attempt.succeeds with
      | true =>
        have hcode : attempt.status.code = .success := by
          cases attempt with
          | calledBack status connection => exact eq_of_beq hsucceeds
          | thrown status => cases hsucceeds
        refine iff_of_true ?_ (usable_of_succeeds hsucceeds hfind)
        simp only [operatorCall, hcode, if_true]
        unfold ReportsFirst
        rw [List.takeWhile_cons, List.dropWhile_cons, hsucceeds]
        exact ⟨rfl, rfl, rfl⟩
      | false =>
        by_cases hcode : attempt.status.code = .success
        · -- `operator()` takes the exception for a connection
          refine iff_of_false ?_ fun h => ?_
          · simp only [operatorCall, hcode, if_true]
            exact not_reportsFirst_of_thrown_success hsucceeds hcode
          · refine (h.2.1 (uri, attempt) ?_).2 hcode
            rw [List.takeWhile_cons, hsucceeds]
            exact List.mem_cons_self
        · cases rest with
          | nil =>
            refine iff_of_true ?_ ⟨nofun, fun t ht => ?_, ?_⟩
            · simp only [operatorCall, hcode, if_false, List.isEmpty_nil, if_true]
              unfold ReportsFirst
              rw [List.dropWhile_cons, hsucceeds]
              exact ⟨rfl, ⟨_, _, rfl, rfl⟩, rfl⟩
            · rw [List.takeWhile_cons, hsucceeds] at ht
              cases List.mem_singleton.mp ht
              exact ⟨⟨backend, hfind⟩, hcode⟩
            · rw [List.dropWhile_cons, hsucceeds]
              nofun
          | cons t later =>
            -- the induction hypothesis is about the URIs that are left
            rw [usable_cons hsucceeds (List.cons_ne_nil t later), ← ih]
            simp only [operatorCall, hcode, if_false, List.isEmpty_cons, Bool.false_eq_true]
            rw [reportsFirst_cons hsucceeds]
            exact ⟨fun h => ⟨⟨⟨backend, hfind⟩, hcode⟩, h⟩, fun h => h.2⟩

/-- A failed attempt, an exception, and a connection to the third of four URIs. -/
def triedThrice : List (URI × Attempt Nat) :=
  [(⟨text "tcp", text "a", some 1⟩,
      .calledBack (.create .connectionFailure (text "refused")) none),
    (⟨text "tcp", text "b", some 1⟩, .thrown (.create .hostUnresolved (text "unknown host"))),
    (⟨text "tcp", text "c", some 1⟩, .calledBack {} (some 5)),
    (⟨text "tcp", text "d", some 1⟩, .calledBack {} (some 6))]

def tcpBackend : BackendList where
  elements := [⟨text "tcp"⟩]

example : (asyncConnect tcpBackend triedThrice).calls = [({}, some 5)] := by decide

/-- Without any URI the end of the list is dereferenced. -/
theorem asyncConnect_nil :
    ¬ ∀ (backends : BackendList) (tries : List (URI × Attempt Nat)),
      ReportsFirst tries (asyncConnect backends tries) := by
  intro h
  have hreturned := (h tcpBackend []).1
  cases hreturned

end MultiBackendConnector

end MsgpackRpc.Transport
