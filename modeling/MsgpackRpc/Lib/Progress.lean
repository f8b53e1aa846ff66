import Mathlib.Data.DFinsupp.WellFounded
import MsgpackRpc.Lib.Machine

/-!
# Work that comes to its end

In a pipeline each stage may give any amount of work to the stages behind it.  A step that works
something off in one stage, and gives nothing to the stages before it, can therefore be taken only
finitely often; and what a machine does in such steps it does in every order of them.
-/

universe u v w

section Pipeline

variable {ι : Type w} [LinearOrder ι]

end Pipeline

namespace Machine

variable {σ : Type u} {α : Type v} (M : Machine σ α)

variable {M} {own : α → Prop} {ok : σ → α → σ → Prop} {Inv P : σ → Prop}

end Machine
