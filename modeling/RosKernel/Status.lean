import Mathlib.Init

/-!
# Status codes

The result codes shared by every kernel interface (`types.h`).
-/

namespace RosKernel

/-- The common `Status` enumeration. -/
inductive Status
  | ok
  | invalidArgument
  | notFound
  | alreadyExists
  | notSupported
  | noMemory
  | noSpace
  | ioError
  | busy
  | fault
  | fileNotFound
  deriving DecidableEq

end RosKernel
