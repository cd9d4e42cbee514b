import FrameOverlay.Kernel.Launch

/-!
# Driver calls

What the stage asks of the device driver, and how the driver is made to fail.

* `LaunchRecord`, `PlaneCopy` — a launch and a copy with all their parameters;
* `DriverCall` — a call as the driver keeps it in its log;
* `Fault` — for one kind of call, the result it reports out of turn, by the number of the call;
* `FaultPlan` — a fault for every kind of call, and the handles of the modules;
* `resultName?`, `resultText?` — the driver's words for a result.
-/

namespace FrameOverlay

/-- A driver object: context, stream, module or function.  Zero is none. -/
abbrev Handle := UInt64

/-- Result of a driver call; zero is success. -/
abbrev DriverResult := Int32

/-- A launch as it reached the driver. -/
structure LaunchRecord where
  function : Handle
  grid : LaunchGrid
  stream : Handle
  arguments : List KernelArgument
  deriving DecidableEq, Repr

/-- A copy of one plane to another. -/
structure PlaneCopy where
  source : UInt64
  sourcePitch : Nat
  target : UInt64
  targetPitch : Nat
  widthInBytes : Nat
  height : Nat
  deriving DecidableEq, Repr

/-- A call in the driver's log. -/
inductive DriverCall where
  | push (context : Handle)
  | pop
  | load (imageSize : Nat)
  | unload (module : Handle)
  | getFunction (name : String)
  | launch (record : LaunchRecord)
  | copy (record : PlaneCopy)
  deriving DecidableEq, Repr

/-- Name of a kind of call. -/
def DriverCall.tag : DriverCall → String
  | push _ => "push"
  | pop => "pop"
  | load _ => "load"
  | unload _ => "unload"
  | getFunction _ => "get"
  | launch _ => "launch"
  | copy _ => "copy"

/-! ### Faults -/

/-- Which calls of one kind report another result than success: the call with number `n`, counted
over the driver's life, reports `fault n`. -/
abbrev Fault := Nat → Option DriverResult

namespace Fault

/-- No call fails. -/
def never : Fault := fun _ => none

/-- Every call reports `result`. -/
def always (result : DriverResult) : Fault := fun _ => some result

/-- Call number `index` reports `result`. -/
def only (index : Nat) (result : DriverResult) : Fault :=
  fun n => if n = index then some result else none

end Fault

/-- The handle of every module, unless a plan says otherwise. -/
def Driver.moduleHandle : Handle := 0x0D0D0000

/-- The faults of a driver.  Those of `push`, `load`, `getFunction`, `launch` and `copy` come
instead of the call's effect, even if the reported result is success; those of `pop` and `unload`
come after it. -/
structure FaultPlan where
  push : Fault := Fault.never
  pop : Fault := Fault.never
  load : Fault := Fault.never
  unload : Fault := Fault.never
  getFunction : Fault := Fault.never
  launch : Fault := Fault.never
  copy : Fault := Fault.never
  /-- The handle of the module that a load brings in, by the number of the load. -/
  modules : Nat → Handle := fun _ => Driver.moduleHandle
  /-- The driver has no words for results. -/
  nameless : Bool := false

/-! ### Results in words -/

namespace DriverResult

/-- The driver's name of a result. -/
def name (result : DriverResult) : String :=
  if result = 1 then "CUDA_ERROR_INVALID_VALUE"
  else if result = 200 then "CUDA_ERROR_INVALID_IMAGE"
  else if result = 201 then "CUDA_ERROR_INVALID_CONTEXT"
  else if result = 500 then "CUDA_ERROR_NOT_FOUND"
  else if result = 719 then "CUDA_ERROR_LAUNCH_FAILED"
  else "CUDA_ERROR_UNKNOWN"

/-- The driver's description of a result. -/
def description (result : DriverResult) : String :=
  s!"mock driver error {result.toInt}"

end DriverResult

end FrameOverlay
