import MsgpackRpc.Transport.ConnectionClosing

/-!
# Operations on a closed socket

An operation that is started on a closed socket completes with `bad_descriptor`, which the handlers
turn into an exception that ends the executor.  The `is_processing()` tests that should prevent this
run in other threads, or before the task that starts the operation.
-/

namespace MsgpackRpc.Transport

variable {ω μ : Type}

namespace Connection

end Connection

namespace ConnectionSystem

end ConnectionSystem

end MsgpackRpc.Transport
