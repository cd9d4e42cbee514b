import FrameOverlay.Device.Call
import FrameOverlay.Kernel.Image

/-!
# The recording driver

A driver without a device behind it: it keeps a log of the calls, the depth of its context stack,
and reports the results its fault plan asks for.

* `Driver` — log, depth, number of calls of each kind, faults;
* `Driver.push` … `Driver.copy` — the calls; each gives a result and the driver afterwards;
* `Driver.serve` — the call that a `DriverCall` asks for;
* `Driver.judge` — success, or the fault a result stands for.
-/

namespace FrameOverlay

/-- Calls of each kind so far, failed ones included. -/
structure CallCounts where
  push : Nat := 0
  pop : Nat := 0
  load : Nat := 0
  unload : Nat := 0
  getFunction : Nat := 0
  launch : Nat := 0
  copy : Nat := 0
  deriving DecidableEq, Repr

/-- The state of the driver. -/
structure Driver where
  /-- The log, oldest call first. -/
  calls : List DriverCall := []
  /-- Contexts on the stack; pops without a push make it negative. -/
  depth : Int := 0
  /-- The greatest depth so far. -/
  maxDepth : Int := 0
  counts : CallCounts := {}
  faults : FaultPlan := {}

namespace Driver

/-- The handle of every function. -/
def functionHandle : Handle := 0x0F0F0000

/-- Appends a call to the log. -/
def record (d : Driver) (call : DriverCall) : Driver :=
  { d with calls := d.calls ++ [call] }

/-! ### Calls -/

/-- Makes a context current. -/
def push (d : Driver) (context : Handle) : DriverResult × Driver :=
  let counted := { d with counts := { d.counts with push := d.counts.push + 1 } }
  match d.faults.push d.counts.push with
  | some result => (result, counted)
  | none =>
    (0, { counted.record (.push context) with
          depth := d.depth + 1, maxDepth := max d.maxDepth (d.depth + 1) })

/-- Makes the context below current again. -/
def pop (d : Driver) : DriverResult × Driver :=
  let counted := { d with counts := { d.counts with pop := d.counts.pop + 1 } }
  ((d.faults.pop d.counts.pop).getD 0, { counted.record .pop with depth := d.depth - 1 })

/-- Loads a module image of `size` bytes; the handle is zero unless the module was loaded. -/
def loadSized (d : Driver) (size : Nat) : (DriverResult × Handle) × Driver :=
  let counted := { d with counts := { d.counts with load := d.counts.load + 1 } }
  let recorded := counted.record (.load size)
  match d.faults.load d.counts.load with
  | some result => ((result, 0), recorded)
  | none => ((0, d.faults.modules d.counts.load), recorded)

/-- Loads a module image. -/
def load (d : Driver) (image : KernelImage) : (DriverResult × Handle) × Driver :=
  d.loadSized image.size

/-- Unloads a module. -/
def unload (d : Driver) (module : Handle) : DriverResult × Driver :=
  let counted := { d with counts := { d.counts with unload := d.counts.unload + 1 } }
  ((d.faults.unload d.counts.unload).getD 0, counted.record (.unload module))

/-- Looks a function of a module up; the handle is zero unless it was found. -/
def getFunction (d : Driver) (name : String) : (DriverResult × Handle) × Driver :=
  let counted := { d with counts := { d.counts with getFunction := d.counts.getFunction + 1 } }
  let recorded := counted.record (.getFunction name)
  match d.faults.getFunction d.counts.getFunction with
  | some result => ((result, 0), recorded)
  | none => ((0, functionHandle), recorded)

/-- Launches a kernel. -/
def launch (d : Driver) (l : LaunchRecord) : DriverResult × Driver :=
  let counted := { d with counts := { d.counts with launch := d.counts.launch + 1 } }
  match d.faults.launch d.counts.launch with
  | some result => (result, counted)
  | none => (0, counted.record (.launch l))

/-- Copies rows of one plane to another. -/
def copy (d : Driver) (c : PlaneCopy) : DriverResult × Driver :=
  let counted := { d with counts := { d.counts with copy := d.counts.copy + 1 } }
  match d.faults.copy d.counts.copy with
  | some result => (result, counted)
  | none => (0, counted.record (.copy c))

/-- Makes the call that is asked for.  Gives its result, and the handle it brought, zero for none. -/
def serve (d : Driver) : DriverCall → (DriverResult × Handle) × Driver
  | .push context => let (result, d) := d.push context; ((result, 0), d)
  | .pop => let (result, d) := d.pop; ((result, 0), d)
  | .load size => d.loadSized size
  | .unload module => let (result, d) := d.unload module; ((result, 0), d)
  | .getFunction name => d.getFunction name
  | .launch l => let (result, d) := d.launch l; ((result, 0), d)
  | .copy c => let (result, d) := d.copy c; ((result, 0), d)

/-! ### The log -/

/-- The calls logged so far, and the driver with an empty log. -/
def takeCalls (d : Driver) : List DriverCall × Driver :=
  (d.calls, { d with calls := [] })

/-! ### Results -/

/-- The driver's name of a result, if it has one. -/
def resultName? (d : Driver) (result : DriverResult) : Option String :=
  if d.faults.nameless then none else some result.name

/-- The driver's description of a result, if it has one. -/
def resultText? (d : Driver) (result : DriverResult) : Option String :=
  if d.faults.nameless then none else some result.description

/-- What a result other than success says about `call`. -/
def fault (d : Driver) (call : String) (result : DriverResult) : DriverFault where
  call := call
  result := result
  name := (d.resultName? result).getD "CUDA_ERROR_UNKNOWN"
  description := (d.resultText? result).getD "unknown error"

/-- Success, or what went wrong with `call`. -/
def judge (d : Driver) (call : String) (result : DriverResult) : Except DriverFault Unit :=
  if result = 0 then .ok () else .error (d.fault call result)

end Driver

end FrameOverlay
