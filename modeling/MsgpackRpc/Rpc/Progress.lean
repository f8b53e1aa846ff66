import MsgpackRpc.Lib.Progress
import MsgpackRpc.Rpc.Completeness

/-!
# Calls come to their end

What a client and its server do with the messages that they have is a pipeline: each stage works
something off, and gives work only to the stages behind it.  So while the connection stays up at
both ends, everybody can only go on until every call is completed.
-/

namespace MsgpackRpc.Rpc

open Messages Methods
open MsgpackRpc.Transport
open Clients (CallList Client ClientAction Entry MessageID)
open Servers (ServerAction ServerConnection)

/-- The stages that a message goes through: the sender of the client, the bytes on their way to the
server, those that wait there, the processor, the sender of the server, the bytes on their way back,
those that wait at the client, and the messages that wait for `ReceivedMessageProcessor`. -/
inductive Stage where
  | sender
  | toServer
  | atServer
  | processor
  | responses
  | toClient
  | atClient
  | arrived
  deriving DecidableEq

instance : Fintype Stage where
  elems := {.sender, .toServer, .atServer, .processor, .responses, .toClient, .atClient, .arrived}
  complete stage := by cases stage <;> decide

instance : LinearOrder Stage :=
  LinearOrder.lift' Stage.ctorIdx fun i j h => by cases i <;> cases j <;> first | rfl | cases h

/-- What is left to do in the stages that a link is about. -/
def Link.work (link : Link) : Stage → Nat
  | .sender => 0
  | .toServer => link.toServer.toTransfer
  | .atServer => link.toServer.unread.length
  | .processor => link.server.toProcess
  | .responses => link.server.work
  | .toClient => link.toClient.toTransfer
  | .atClient => link.toClient.unread.length
  | .arrived => link.arrived.length

namespace Session

/-- What is left to do in a stage. -/
def work (s : Session) (stage : Stage) : Nat :=
  (if stage = .sender then s.client.work else 0) + (s.links.map fun link => link.work stage).sum

variable {st : Setting} {first : MessageID} {s s' : Session}

theorem Steps.generated_eq {a : Action} (hsteps : Steps st s a s') (hok : a.succeeds = true) :
    s'.calls.generated = s.calls.generated := by
  cases hsteps with
  | asyncCall | sent | notified | notifyThrown => cases hok
  | calls _ _ ha =>
    cases a with
    | create | expire | onTimeout => cases hok
    | _ => cases ha
  | received _ _ hcalls => exact (CallList.steps_of_step hcalls).generated_handle
  | _ => rfl

/-- What the steps keep in which the connection stays up and nobody begins a new call. -/
structure Answering (st : Setting) (first : MessageID) (s : Session) : Prop where
  connected : s.Connected st first
  gives : s.GivesOnce st
  lives : s.Lives st
  running : s.IsRunning
  ids : s.calls.generated ≤ 2 ^ 32

theorem Answering.step (hmethods : ∀ n, (st.methods n).IsFunctional st.codec.lib) {a : Action}
    (h : s.Answering st first) (hok : a.succeeds = true) (hlive : s.StaysLive a s')
    (hrunning : s'.IsRunning) (hsteps : Steps st s a s') : s'.Answering st first where
  connected := h.connected.step hlive.1 hsteps
  gives := h.gives.step hsteps
  lives := h.lives.step hmethods h.connected (h.connected.step hlive.1 hsteps) hlive hsteps
  running := hrunning
  ids := by
    rw [hsteps.generated_eq hok]
    exact h.ids

end Session

end MsgpackRpc.Rpc
