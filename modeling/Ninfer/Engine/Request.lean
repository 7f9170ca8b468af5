/-
  What the engine's modules share about a request: the errors a client can see.
-/
import Ninfer.Lib.Eff

namespace Ninfer

open Lib

inductive RequestErrorKind where
  | contextLengthExceeded
  | thinkingBudgetCapacityInsufficient
  | mediaBudgetExceeded
  | invalidMedia
  | overloaded
  | queueTimeout
  | cancelled
  | unavailable

/-- `RequestError(kind, message)`. -/
def requestError (kind : RequestErrorKind) (message : String) : Fault :=
  .custom kind.ctorIdx message

end Ninfer
