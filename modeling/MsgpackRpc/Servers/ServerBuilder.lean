import MsgpackRpc.Lib.Acquire
import MsgpackRpc.Methods.MethodProcessor
import MsgpackRpc.Transport.AsyncConnect
import MsgpackRpc.Transport.Connection
import Mathlib.Logic.Basic

/-!
# Building a server

`build` binds an acceptor in each turn of its loops over the URIs and over the endpoints of a URI.
An exception unwinds these loops: the acceptors made so far are destroyed, which frees the endpoints
of TCP but not the files of Unix sockets, since only `stop_in_thread` removes them.
-/

namespace MsgpackRpc.Servers

open Addresses (URI)
open Transport (Backend BackendList ErrorCode)
open Acquire (acquireAll releaseAll Restores)

/-- An exception that leaves `build`. -/
inductive BuildFailure where
  | status (status : Status)
  | systemError (error : ErrorCode)
  deriving DecidableEq, Repr

/-- What the sockets of the system have taken: the endpoints that are bound, and the files of Unix
sockets. -/
structure World (ε φ : Type) where
  endpoints : List ε := []
  files : List φ := []
  deriving DecidableEq, Repr

/-- What the system answers. -/
structure Environment (ε φ : Type) where
  /-- The endpoints of a host and a port, or the message of the error. -/
  resolve : List UInt8 → UInt16 → Except (List UInt8) (List ε)
  /-- The endpoint that a TCP acceptor is bound to when others are taken. -/
  bindTcp : ε → List ε → Except ErrorCode ε
  /-- The file that a path stands for, or the error that keeps the socket from being bound. -/
  unixFile : List UInt8 → Except ErrorCode φ
  /-- The error of an acceptor of a Unix socket that has been bound. -/
  listenUnix : List UInt8 → Option ErrorCode
  /-- How many acceptors the factory of another backend makes. -/
  foreign : URI → Except BuildFailure Nat

/-- An acceptor that has been constructed. -/
inductive BoundAcceptor (ε φ : Type) where
  | tcp (endpoint : ε)
  | unix (file : φ)
  | foreign
  deriving DecidableEq, Repr

variable {ε φ : Type} [DecidableEq ε] [DecidableEq φ]

/-- The destructor of an acceptor closes its socket. -/
def destroy : BoundAcceptor ε φ → World ε φ → World ε φ
  | .tcp endpoint, w => { w with endpoints := w.endpoints.erase endpoint }
  | .unix _, w => w
  | .foreign, w => w

/-! ## The factories -/

/-- Acceptors, or the exception, and the system afterwards. -/
abbrev Created (ε φ : Type) := Except BuildFailure (List (BoundAcceptor ε φ)) × World ε φ

namespace TCPAcceptorFactory

def resolve (env : Environment ε φ) (uri : URI) : Except Status (List ε) :=
  if uri.scheme ≠ text "tcp" then
    .error (.create .invalidArgument
      (text "Scheme is different with the resolver: expected=tcp, actual=" ++ uri.scheme))
  else
    match env.resolve uri.hostOrPath (uri.portNumber.getD 0) with
    | .ok endpoints => .ok endpoints
    | .error message =>
        .error (.create .hostUnresolved
          (text "Failed to resolve " ++ uri.format ++ text ": " ++ message))

/-- The constructor of a TCP acceptor. -/
def bind (env : Environment ε φ) (endpoint : ε) (w : World ε φ) : Created ε φ :=
  match env.bindTcp endpoint w.endpoints with
  | .ok bound => (.ok [.tcp bound], { w with endpoints := bound :: w.endpoints })
  | .error error => (.error (.systemError error), w)

def create (env : Environment ε φ) (uri : URI) (w : World ε φ) : Created ε φ :=
  match resolve env uri with
  | .ok endpoints => acquireAll (bind env) destroy endpoints w
  | .error status => (.error (.status status), w)

end TCPAcceptorFactory

namespace UnixSocketAcceptorFactory

def create (env : Environment ε φ) (uri : URI) (w : World ε φ) : Created ε φ :=
  match env.unixFile uri.hostOrPath with
  | .error error => (.error (.systemError error), w)
  | .ok file =>
      if file ∈ w.files then
        (.error (.systemError (.other (text "Address already in use"))), w)
      else
        let w := { w with files := file :: w.files }
        match env.listenUnix uri.hostOrPath with
        | some error => (.error (.systemError error), w)
        | none => (.ok [.unix file], w)

end UnixSocketAcceptorFactory

/-- `backend->create_acceptor_factory()->create(uri)`.  What other backends bind is not part of the
world. -/
def createAcceptors (env : Environment ε φ) (backend : Backend) (uri : URI) (w : World ε φ) :
    Created ε φ :=
  if backend.scheme = text "tcp" then TCPAcceptorFactory.create env uri w
  else if backend.scheme = text "unix" then UnixSocketAcceptorFactory.create env uri w
  else
    match env.foreign uri with
    | .ok number => (.ok (List.replicate number .foreign), w)
    | .error failure => (.error failure, w)

/-! ## The builder -/

/-- A builder that has not built its server yet: a server takes the processor with it. -/
structure ServerBuilder where
  backends : BackendList
  uris : List URI
  processor : Methods.MethodDict

/-- How `build` ends.  A server has its acceptors and the processor. -/
inductive BuildOutcome (ε φ : Type) where
  | built (acceptors : List (BoundAcceptor ε φ)) (processor : Methods.MethodDict)
      (world : World ε φ)
  | thrown (failure : BuildFailure) (builder : ServerBuilder) (world : World ε φ)

def BuildOutcome.succeeds : BuildOutcome ε φ → Bool
  | .built .. => true
  | .thrown .. => false

namespace ServerBuilder

/-- One turn of the loop over the URIs. -/
def addAcceptors (env : Environment ε φ) (backends : BackendList) (uri : URI) (w : World ε φ) :
    Created ε φ :=
  match backends.find uri.scheme with
  | .ok backend => createAcceptors env backend uri w
  | .error status => (.error (.status status), w)

def build (env : Environment ε φ) (b : ServerBuilder) (w : World ε φ) : BuildOutcome ε φ :=
  if b.uris.isEmpty then
    .thrown (.status (.create .preconditionNotMet (text "No URI to listen to was given."))) b w
  else
    match acquireAll (addAcceptors env b.backends) destroy b.uris w with
    | (.error failure, w) => .thrown failure b w
    | (.ok acceptors, w) =>
        if acceptors.isEmpty then
          .thrown (.status (.create .preconditionNotMet
            (text "All URI set to listen to was unusable."))) b w
        else
          .built acceptors b.processor w

/-- Creating the acceptors for the URI gets as far as binding a Unix socket, which creates its
file. -/
def bindsFile (env : Environment ε φ) (backends : BackendList) (uri : URI) (w : World ε φ) : Bool :=
  uri.scheme == text "unix" && (backends.find uri.scheme).isOk &&
    match env.unixFile uri.hostOrPath with
    | .ok file => file ∉ w.files
    | .error _ => false

/-! ## One turn of the loop -/

variable {env : Environment ε φ} {backends : BackendList} {uri : URI} {w w' : World ε φ}

/-- What a turn of the loop can do. -/
inductive Turn (env : Environment ε φ) (backends : BackendList) (uri : URI) (w : World ε φ) :
    Created ε φ → Prop where
  | failed (failure : BuildFailure) (hbinds : bindsFile env backends uri w = false) :
      Turn env backends uri w (.error failure, w)
  | unlistened (failure : BuildFailure) (file : φ) (hbinds : bindsFile env backends uri w = true)
      (hscheme : uri.scheme = text "unix") (hpath : env.unixFile uri.hostOrPath = .ok file) :
      Turn env backends uri w (.error failure, { w with files := file :: w.files })
  | tcp (endpoints : List ε) (created : Created ε φ) (hscheme : uri.scheme ≠ text "unix")
      (hcreated : acquireAll (TCPAcceptorFactory.bind env) destroy endpoints w = created) :
      Turn env backends uri w created
  | unix (file : φ) (hscheme : uri.scheme = text "unix")
      (hpath : env.unixFile uri.hostOrPath = .ok file) (hfile : file ∉ w.files) :
      Turn env backends uri w (.ok [.unix file], { w with files := file :: w.files })
  | foreign (number : Nat) (hscheme : uri.scheme ≠ text "unix") :
      Turn env backends uri w (.ok (List.replicate number .foreign), w)

theorem scheme_of_find {scheme : List UInt8} {backend : Backend}
    (h : backends.find scheme = .ok backend) : backend.scheme = scheme := by
  rw [BackendList.find] at h
  split at h
  · rename_i found hfound
    cases h
    rw [Dict.find] at hfound
    simpa using List.find?_some hfound
  · cases h

omit [DecidableEq ε] in
theorem bindsFile_eq_false (h : uri.scheme ≠ text "unix") :
    bindsFile env backends uri w = false := by
  rw [bindsFile, beq_false_of_ne h]
  rfl

theorem turn_of_tcp (htcp : uri.scheme = text "tcp") :
    Turn env backends uri w (TCPAcceptorFactory.create env uri w) := by
  have hscheme : uri.scheme ≠ text "unix" := by
    rw [htcp]
    decide
  rw [TCPAcceptorFactory.create]
  split
  · exact .tcp _ _ hscheme rfl
  · exact .failed _ (bindsFile_eq_false hscheme)

theorem turn_of_unix {backend : Backend} (hfind : backends.find uri.scheme = .ok backend)
    (hunix : uri.scheme = text "unix") :
    Turn env backends uri w (UnixSocketAcceptorFactory.create env uri w) := by
  rw [UnixSocketAcceptorFactory.create]
  cases hpath : env.unixFile uri.hostOrPath with
  | error error =>
    apply Turn.failed
    simp [bindsFile, hpath]
  | ok file =>
    have hbinds : bindsFile env backends uri w = decide (file ∉ w.files) := by
      simp only [bindsFile, hpath, hfind]
      simp [hunix, Except.isOk, Except.toBool]
    dsimp only
    split
    · rename_i hfile
      apply Turn.failed
      rw [hbinds, decide_eq_false (not_not_intro hfile)]
    · rename_i hfile
      split
      · apply Turn.unlistened _ file _ hunix hpath
        rw [hbinds, decide_eq_true hfile]
      · exact .unix file hunix hpath hfile

theorem turn_of_addAcceptors {created : Created ε φ}
    (h : addAcceptors env backends uri w = created) : Turn env backends uri w created := by
  subst h
  rw [addAcceptors]
  cases hfind : backends.find uri.scheme with
  | error status =>
    apply Turn.failed
    simp [bindsFile, hfind, Except.isOk, Except.toBool]
  | ok backend =>
    have hbackend : backend.scheme = uri.scheme := scheme_of_find hfind
    dsimp only [createAcceptors]
    rw [hbackend]
    split
    · rename_i htcp
      exact turn_of_tcp htcp
    · split
      · rename_i hunix
        exact turn_of_unix hfind hunix
      · rename_i hunix
        split
        · exact .foreign _ hunix
        · exact .failed _ (bindsFile_eq_false hunix)

/-! ## What a failed build leaves behind -/

omit [DecidableEq φ] in
theorem restores_bind (env : Environment ε φ) :
    Restores (TCPAcceptorFactory.bind env) destroy World.endpoints where
  congr acceptor w w' h := by cases acceptor <;> simp [destroy, h]
  ok endpoint w w' acceptors h := by
    rw [TCPAcceptorFactory.bind] at h
    split at h
    · cases h
      exact List.erase_cons_head ..
    · cases h
  error endpoint w w' failure h := by
    rw [TCPAcceptorFactory.bind] at h
    split at h
    · cases h
    · cases h
      rfl

omit [DecidableEq φ] in
theorem releaseAll_foreign (number : Nat) (w : World ε φ) :
    releaseAll destroy (List.replicate number .foreign) w = w := by
  induction number with
  | zero => rfl
  | succ number ih => rw [List.replicate_succ, Acquire.releaseAll_cons, ih, destroy]

/-- The endpoints that a URI has bound are free again once its acceptors are destroyed. -/
theorem restores_addAcceptors (env : Environment ε φ) (backends : BackendList) :
    Restores (addAcceptors env backends) destroy World.endpoints where
  congr := (restores_bind env).congr
  ok uri w w' acceptors h := by
    cases turn_of_addAcceptors h with
    | tcp endpoints _ _ hcreated => exact (restores_bind env).acquireAll_ok hcreated
    | unix file => rfl
    | foreign number => rw [releaseAll_foreign]
  error uri w w' failure h := by
    cases turn_of_addAcceptors h with
    | failed | unlistened => rfl
    | tcp endpoints _ _ hcreated => exact (restores_bind env).acquireAll_error hcreated

/-- The files of the Unix sockets among the acceptors. -/
def filesOf (acceptors : List (BoundAcceptor ε φ)) : List φ :=
  acceptors.filterMap fun acceptor =>
    match acceptor with
    | .unix file => some file
    | .tcp _ | .foreign => none

omit [DecidableEq ε] [DecidableEq φ] in
theorem filesOf_append (acceptors rest : List (BoundAcceptor ε φ)) :
    filesOf (acceptors ++ rest) = filesOf acceptors ++ filesOf rest :=
  List.filterMap_append

omit [DecidableEq ε] [DecidableEq φ] in
theorem filesOf_foreign (number : Nat) :
    filesOf (List.replicate number (.foreign : BoundAcceptor ε φ)) = [] := by
  induction number with
  | zero => rfl
  | succ number ih => exact ih

omit [DecidableEq φ] in
@[simp] theorem files_destroy (acceptor : BoundAcceptor ε φ) (w : World ε φ) :
    (destroy acceptor w).files = w.files := by
  cases acceptor <;> rfl

omit [DecidableEq φ] in
/-- No destructor removes the file of a Unix socket. -/
theorem files_releaseAll (acceptors : List (BoundAcceptor ε φ)) (w : World ε φ) :
    (releaseAll destroy acceptors w).files = w.files := by
  induction acceptors with
  | nil => rfl
  | cons acceptor acceptors ih => rw [Acquire.releaseAll_cons, files_destroy, ih]

omit [DecidableEq ε] [DecidableEq φ] in
theorem files_of_bind {endpoint : ε} {created : Created ε φ}
    (h : TCPAcceptorFactory.bind env endpoint w = created) :
    created.2.files = w.files ∧
      ∀ acceptors, created.1 = .ok acceptors → filesOf acceptors = [] := by
  subst h
  rw [TCPAcceptorFactory.bind]
  split
  · refine ⟨rfl, ?_⟩
    intro acceptors h
    cases h
    rfl
  · exact ⟨rfl, nofun⟩

omit [DecidableEq φ] in
/-- The acceptors of TCP have no files. -/
theorem files_of_bindAll {endpoints : List ε} {acceptors : List (BoundAcceptor ε φ)}
    (h : acquireAll (TCPAcceptorFactory.bind env) destroy endpoints w = (.ok acceptors, w')) :
    w'.files = w.files ∧ filesOf acceptors = [] := by
  refine Acquire.acquireAll_ok_induct (P := fun w w' acceptors =>
    w'.files = w.files ∧ filesOf acceptors = []) (fun _ => ⟨rfl, rfl⟩) ?_ ?_ h
  · intro w between w' first rest hfirst hrest
    rw [filesOf_append, hfirst.2, hrest.2, hrest.1, hfirst.1]
    exact ⟨rfl, rfl⟩
  · intro endpoint w w' acceptors hbind
    have hfiles := files_of_bind hbind
    exact ⟨hfiles.1, hfiles.2 acceptors rfl⟩

omit [DecidableEq φ] in
theorem files_of_bindAll_error {endpoints : List ε} {failure : BuildFailure}
    (h : acquireAll (TCPAcceptorFactory.bind env) destroy endpoints w = (.error failure, w')) :
    w'.files = w.files := by
  obtain ⟨before, endpoint, after, acceptors, between, failed, -, hbefore, hfailed, rfl⟩ :=
    Acquire.exists_of_acquireAll_error h
  rw [files_releaseAll, (files_of_bind hfailed).1, (files_of_bindAll hbefore).1]

/-- A turn that succeeds leaves the files of its acceptors, and those of Unix sockets have one. -/
theorem files_of_addAcceptors {acceptors : List (BoundAcceptor ε φ)}
    (h : addAcceptors env backends uri w = (.ok acceptors, w')) :
    w'.files = (filesOf acceptors).reverse ++ w.files ∧
      (filesOf acceptors = [] ↔ uri.scheme ≠ text "unix") := by
  cases turn_of_addAcceptors h with
  | tcp endpoints _ hscheme hcreated =>
    obtain ⟨hfiles, hnone⟩ := files_of_bindAll hcreated
    rw [hnone, hfiles]
    exact ⟨rfl, fun _ => hscheme, fun _ => rfl⟩
  | unix file hscheme =>
    refine ⟨rfl, ?_⟩
    simp [filesOf, hscheme]
  | foreign number hscheme =>
    rw [filesOf_foreign]
    exact ⟨rfl, fun _ => hscheme, fun _ => rfl⟩

theorem files_of_addAcceptors_error {failure : BuildFailure}
    (h : addAcceptors env backends uri w = (.error failure, w')) :
    w.files <:+ w'.files ∧ (w'.files = w.files ↔ bindsFile env backends uri w = false) := by
  cases turn_of_addAcceptors h with
  | failed _ hbinds => exact ⟨List.suffix_rfl, fun _ => hbinds, fun _ => rfl⟩
  | unlistened _ file hbinds =>
    refine ⟨List.suffix_cons file w.files, ?_⟩
    simp [hbinds]
  | tcp endpoints _ hscheme hcreated =>
    rw [files_of_bindAll_error hcreated]
    exact ⟨List.suffix_rfl, fun _ => bindsFile_eq_false hscheme, fun _ => rfl⟩

theorem files_of_addAll {uris : List URI} {acceptors : List (BoundAcceptor ε φ)}
    (h : acquireAll (addAcceptors env backends) destroy uris w = (.ok acceptors, w')) :
    w'.files = (filesOf acceptors).reverse ++ w.files := by
  refine Acquire.acquireAll_ok_induct (P := fun w w' acceptors =>
    w'.files = (filesOf acceptors).reverse ++ w.files) (fun _ => rfl) ?_ ?_ h
  · intro w between w' first rest hfirst hrest
    rw [hrest, hfirst, filesOf_append, List.reverse_append, List.append_assoc]
  · intro uri w w' acceptors hadd
    exact (files_of_addAcceptors hadd).1

theorem filesOf_addAll_eq_nil_iff {uris : List URI} {acceptors : List (BoundAcceptor ε φ)}
    (h : acquireAll (addAcceptors env backends) destroy uris w = (.ok acceptors, w')) :
    filesOf acceptors = [] ↔ ∀ uri ∈ uris, uri.scheme ≠ text "unix" := by
  induction uris generalizing w acceptors with
  | nil =>
    cases h
    simp [filesOf]
  | cons uri uris ih =>
    obtain ⟨first, rest, between, hfirst, hrest, rfl⟩ := Acquire.acquireAll_cons_ok h
    rw [filesOf_append, List.append_eq_nil_iff, (files_of_addAcceptors hfirst).2, ih hrest,
      List.forall_mem_cons]

/-! ## All or nothing -/

/-- A call that throws has changed neither the system nor the builder; in particular, whatever is
changed afterwards, a call that would have succeeded then still does. -/
def AllOrNothing (env : Environment ε φ) (b : ServerBuilder) (w : World ε φ) : Prop :=
  ∀ failure b' w', build env b w = .thrown failure b' w' →
    w'.endpoints = w.endpoints ∧ w'.files = w.files ∧
      b'.processor = b.processor ∧ b'.uris = b.uris ∧
      ∀ (env : Environment ε φ) (backends : BackendList) (change : World ε φ → World ε φ),
        (build env { b with backends } (change w)).succeeds = true →
          (build env { b' with backends } (change w')).succeeds = true

/-- A call that throws at a URI has bound no Unix socket: no URI before is one of a Unix socket, and
neither does the failing one get as far as binding one. -/
def FailsBeforeUnixSockets (env : Environment ε φ) (b : ServerBuilder) (w : World ε φ) : Prop :=
  ∀ before uri after acceptors between failure failed, b.uris = before ++ uri :: after →
    acquireAll (addAcceptors env b.backends) destroy before w = (.ok acceptors, between) →
    addAcceptors env b.backends uri between = (.error failure, failed) →
      (∀ u ∈ before, u.scheme ≠ text "unix") ∧ bindsFile env b.backends uri between = false

variable {b b' : ServerBuilder} {failure : BuildFailure}

/-- A call that throws leaves the builder as it was, and the loop has failed or has made no
acceptor. -/
theorem build_thrown_cases (h : build env b w = .thrown failure b' w') :
    b' = b ∧ ((∃ failure, acquireAll (addAcceptors env b.backends) destroy b.uris w =
        (.error failure, w')) ∨
      acquireAll (addAcceptors env b.backends) destroy b.uris w = (.ok [], w')) := by
  rw [build] at h
  split at h
  · rename_i hempty
    cases h
    rw [List.isEmpty_iff.mp hempty]
    exact ⟨rfl, .inr rfl⟩
  · split at h
    · rename_i hall
      cases h
      exact ⟨rfl, .inl ⟨_, hall⟩⟩
    · rename_i acceptors _ hall
      split at h
      · rename_i hempty
        cases h
        rw [List.isEmpty_iff.mp hempty] at hall
        exact ⟨rfl, .inr hall⟩
      · cases h

theorem endpoints_of_build_thrown (h : build env b w = .thrown failure b' w') :
    w'.endpoints = w.endpoints := by
  obtain ⟨-, ⟨_, hall⟩ | hall⟩ := build_thrown_cases h
  · exact (restores_addAcceptors env b.backends).acquireAll_error hall
  · exact (restores_addAcceptors env b.backends).acquireAll_ok hall

/-- The files are those from before unless a URI has failed after a Unix socket was bound. -/
theorem files_of_build_thrown (hfails : FailsBeforeUnixSockets env b w)
    (h : build env b w = .thrown failure b' w') : w'.files = w.files := by
  obtain ⟨-, ⟨failure, hall⟩ | hall⟩ := build_thrown_cases h
  · obtain ⟨before, uri, after, acceptors, between, failed, huris, hbefore, hfailed, rfl⟩ :=
      Acquire.exists_of_acquireAll_error hall
    obtain ⟨hunix, hbinds⟩ := hfails before uri after acceptors between failure failed huris
      hbefore hfailed
    have hnone : filesOf acceptors = [] := (filesOf_addAll_eq_nil_iff hbefore).mpr hunix
    rw [files_releaseAll, (files_of_addAcceptors_error hfailed).2.mpr hbinds,
      files_of_addAll hbefore, hnone]
    rfl
  · exact files_of_addAll hall

/-- A URI that fails after those before it decides how the call ends. -/
theorem build_of_fails {before after : List URI} {acceptors : List (BoundAcceptor ε φ)}
    {between failed : World ε φ} (huris : b.uris = before ++ uri :: after)
    (hbefore : acquireAll (addAcceptors env b.backends) destroy before w = (.ok acceptors, between))
    (hfailed : addAcceptors env b.backends uri between = (.error failure, failed)) :
    build env b w = .thrown failure b (releaseAll destroy acceptors failed) := by
  have hall := Acquire.acquireAll_error_of after hbefore hfailed
  rw [build, if_neg, huris, hall]
  simp [huris]

theorem allOrNothing_iff (env : Environment ε φ) (b : ServerBuilder) (w : World ε φ) :
    AllOrNothing env b w ↔ FailsBeforeUnixSockets env b w := by
  constructor
  · intro h before uri after acceptors between failure failed huris hbefore hfailed
    have hfiles := (h failure b _ (build_of_fails huris hbefore hfailed)).2.1
    rw [files_releaseAll] at hfiles
    obtain ⟨hsuffix, hbinds⟩ := files_of_addAcceptors_error hfailed
    have hbetween := files_of_addAll hbefore
    have hsame : between.files = w.files := by
      apply List.IsSuffix.eq_of_length_le (hfiles ▸ hsuffix)
      rw [hbetween, List.length_append]
      exact Nat.le_add_left _ _
    have hnone : filesOf acceptors = [] := by
      rw [hsame] at hbetween
      exact List.reverse_eq_nil_iff.mp (List.append_left_eq_self.mp hbetween.symm)
    exact ⟨(filesOf_addAll_eq_nil_iff hbefore).mp hnone, hbinds.mp (hfiles.trans hsame.symm)⟩
  · intro hfails failure b' w' h
    have hendpoints := endpoints_of_build_thrown h
    have hfiles := files_of_build_thrown hfails h
    obtain ⟨rfl, -⟩ := build_thrown_cases h
    have hworld : w' = w := by
      cases w
      cases w'
      simp_all
    subst hworld
    exact ⟨rfl, rfl, rfl, rfl, fun _ _ _ hsucceeds => hsucceeds⟩

/-- A system in which every name is an endpoint, a file and a host of its own, save one host that
nobody knows. -/
def plainEnvironment : Environment (List UInt8) (List UInt8) where
  resolve host _ :=
    if host = text "nowhere" then .error (text "Host not found (authoritative)") else .ok [host]
  bindTcp endpoint used :=
    if endpoint ∈ used then .error (.other (text "Address already in use")) else .ok endpoint
  unixFile path := .ok path
  listenUnix _ := none
  foreign _ := .ok 0

/-- A Unix socket before a host that is not resolved. -/
def unixThenNowhere : ServerBuilder where
  backends := { elements := [⟨text "tcp"⟩, ⟨text "unix"⟩] }
  uris := [⟨text "unix", text "/tmp/a", none⟩, ⟨text "tcp", text "nowhere", some 7070⟩]
  processor := {}

theorem build_leaves_file :
    ¬ ∀ (ε φ : Type) [DecidableEq ε] [DecidableEq φ] (env : Environment ε φ) (b : ServerBuilder)
      (w : World ε φ), AllOrNothing env b w := by
  intro h
  have hthrown : build plainEnvironment unixThenNowhere {} =
      .thrown (.status (.create .hostUnresolved
        (text "Failed to resolve tcp://nowhere:7070: Host not found (authoritative)")))
        unixThenNowhere ⟨[], [text "/tmp/a"]⟩ := by rfl
  have hfiles := (h _ _ plainEnvironment unixThenNowhere {} _ _ _ hthrown).2.1
  cases hfiles

/-! ## The next call -/

/-- After a turn that succeeds, the file of a Unix socket is there, and it was not there before. -/
theorem file_of_addAcceptors {acceptors : List (BoundAcceptor ε φ)}
    (hscheme : uri.scheme = text "unix")
    (h : addAcceptors env backends uri w = (.ok acceptors, w')) :
    ∃ file, env.unixFile uri.hostOrPath = .ok file ∧ file ∉ w.files ∧ file ∈ w'.files := by
  cases turn_of_addAcceptors h with
  | tcp _ _ hother => exact absurd hscheme hother
  | unix file _ hpath hfile => exact ⟨file, hpath, hfile, List.mem_cons_self⟩
  | foreign _ hother => exact absurd hscheme hother

theorem file_of_addAcceptors_error (hbinds : bindsFile env backends uri w = true)
    (h : addAcceptors env backends uri w = (.error failure, w')) :
    uri.scheme = text "unix" ∧ ∃ file ∈ w'.files, env.unixFile uri.hostOrPath = .ok file := by
  cases turn_of_addAcceptors h with
  | failed _ hfalse => exact absurd hbinds (by simp [hfalse])
  | unlistened _ file _ hscheme hpath => exact ⟨hscheme, file, List.mem_cons_self, hpath⟩
  | tcp _ _ hscheme => exact absurd hbinds (by simp [bindsFile_eq_false hscheme])

theorem file_of_addAll {uris : List URI} {acceptors : List (BoundAcceptor ε φ)}
    (h : acquireAll (addAcceptors env backends) destroy uris w = (.ok acceptors, w'))
    (huri : uri ∈ uris) (hscheme : uri.scheme = text "unix") :
    ∃ file, env.unixFile uri.hostOrPath = .ok file ∧ file ∉ w.files ∧ file ∈ w'.files := by
  induction uris generalizing w acceptors with
  | nil => cases huri
  | cons first uris ih =>
    obtain ⟨added, rest, between, hfirst, hrest, -⟩ := Acquire.acquireAll_cons_ok h
    rcases List.mem_cons.mp huri with rfl | huri
    · obtain ⟨file, hpath, hnew, hbound⟩ := file_of_addAcceptors hscheme hfirst
      rw [files_of_addAll hrest]
      exact ⟨file, hpath, hnew, List.mem_append_right _ hbound⟩
    · obtain ⟨file, hpath, hnew, hbound⟩ := ih hrest huri
      rw [(files_of_addAcceptors hfirst).1, List.mem_append, not_or] at hnew
      exact ⟨file, hpath, hnew.2, hbound⟩

/-- No server is built while the file of one of its Unix sockets is there. -/
theorem not_succeeds_of_mem_files {file : φ} (huri : uri ∈ b.uris)
    (hscheme : uri.scheme = text "unix") (hpath : env.unixFile uri.hostOrPath = .ok file)
    (hfile : file ∈ w.files) :
    (build env b w).succeeds = false := by
  rw [build]
  split
  · rfl
  · split
    · rfl
    · rename_i acceptors w' hall
      obtain ⟨bound, hbound, hnew, -⟩ := file_of_addAll hall huri hscheme
      rw [hpath] at hbound
      cases hbound
      exact absurd hfile hnew

/-- Where a failed call has left a file behind, no later call succeeds, whatever else is changed, as
long as the path stands for the same file and nobody removes it. -/
theorem not_succeeds_again (hfails : ¬ FailsBeforeUnixSockets env b w)
    (h : build env b w = .thrown failure b' w') :
    ∃ uri ∈ b'.uris, ∃ file ∈ w'.files, ∀ (env' : Environment ε φ) (backends : BackendList)
      (w₂ : World ε φ), env'.unixFile uri.hostOrPath = .ok file → file ∈ w₂.files →
        (build env' { b' with backends } w₂).succeeds = false := by
  have hleft : ∃ uri ∈ b.uris, uri.scheme = text "unix" ∧
      ∃ file ∈ w'.files, env.unixFile uri.hostOrPath = .ok file := by
    simp only [FailsBeforeUnixSockets, not_forall] at hfails
    obtain ⟨before, uri, after, acceptors, between, failure', failed, huris, hbefore, hfailed,
      hbound⟩ := hfails
    rw [build_of_fails huris hbefore hfailed] at h
    cases h
    rw [files_releaseAll, huris]
    by_cases hunix : ∀ u ∈ before, u.scheme ≠ text "unix"
    · have hbinds := eq_true_of_ne_false fun hfalse => hbound ⟨hunix, hfalse⟩
      obtain ⟨hscheme, file, hfile, hpath⟩ := file_of_addAcceptors_error hbinds hfailed
      exact ⟨uri, by simp, hscheme, file, hfile, hpath⟩
    · simp only [not_forall, not_not] at hunix
      obtain ⟨u, hu, hscheme⟩ := hunix
      obtain ⟨file, hpath, -, hbetween⟩ := file_of_addAll hbefore hu hscheme
      have hfailed := (files_of_addAcceptors_error hfailed).1.mem hbetween
      exact ⟨u, List.mem_append_left _ hu, hscheme, file, hfailed, hpath⟩
  obtain ⟨rfl, -⟩ := build_thrown_cases h
  obtain ⟨uri, huri, hscheme, file, hfile, -⟩ := hleft
  refine ⟨uri, huri, file, hfile, ?_⟩
  intro env' backends w₂ hpath hw₂
  exact not_succeeds_of_mem_files huri hscheme hpath hw₂

end ServerBuilder

end MsgpackRpc.Servers
