import FrameOverlay.Device.State

/-!
# Device sessions

A session owns the loaded kernel module of one device.

* `Session.start` — loads an image and looks the kernel up; a module without it is unloaded again;
* `Session.close` — unloads the module; `Session.closed` is what is left;
* `Session.device` — the device, as long as the session is open;
* `Session.enter` — makes its context current.
-/

namespace FrameOverlay

/-- A kernel module and the device it is loaded on; no device once closed. -/
structure Session where
  openDevice : Option DeviceContext
  module : Handle
  function : Handle
  deriving DecidableEq, Repr

namespace Session

/-- A session that owns nothing. -/
def closed : Session := ⟨none, 0, 0⟩

/-- The session still owns a device. -/
def isOpen (s : Session) : Bool := s.openDevice.isSome

/-- The device of an open session. -/
def device (s : Session) : DeviceM DeviceContext :=
  match s.openDevice with
  | some d => return d
  | none => throw (.invariantViolation .sessionClosed)

/-- Judges a driver result inside a larger operation, which words the fault its own way. -/
def checkModule (call : String) (result : DriverResult) (fault : DriverFault → ModuleFault) :
    DeviceM Unit := fun s =>
  match s.driver.judge call result with
  | .ok () => .ok () s
  | .error f => .error (.kernelModule (fault f)) s

/-- Looks the kernel up in a module; without it the module is unloaded. -/
def resolve (module : Handle) : DeviceM Handle := do
  let (result, function) ← DeviceM.ask (.getFunction KernelImage.entryPoint)
  try
    checkModule "cuModuleGetFunction" result (.entryPointMissing KernelImage.entryPoint)
  catch e =>
    let _ ← DeviceM.ask (.unload module)
    throw e
  return function

/-- Loads `image` in the current context, which is the device's, and looks the kernel up. -/
def load (device : DeviceContext) (image : KernelImage) : DeviceM Session := do
  let (result, module) ← DeviceM.ask (.load image.size)
  checkModule "cuModuleLoadData" result .loadFailed
  let function ← resolve module
  return ⟨some device, module, function⟩

/-- Loads `image` on `device` and looks the kernel up. -/
def start (device : DeviceContext) (image : KernelImage) : DeviceM Session :=
  if image.isEmpty then
    throw (.kernelModule .emptyImage)
  else
    DeviceM.withContext device (load device image)

/-- Looks the kernel up in what came of compiling it; that it could not be compiled is passed on. -/
def startCompiled (device : DeviceContext) : Except OverlayError KernelImage → DeviceM Session
  | .error e => throw e
  | .ok image => start device image

/-- Unloads the module of an open session.  Whatever the outcome, the session is `closed`
afterwards. -/
def close (s : Session) : DeviceM Unit :=
  match s.openDevice with
  | none => return ()
  | some device =>
    if s.module = 0 then
      return ()
    else
      DeviceM.withContext device (DeviceM.call "cuModuleUnload" (.unload s.module))

/-- Makes the session's context current, and leaves it so. -/
def enter (s : Session) : DeviceM Unit := do
  DeviceM.enter (← s.device)

end Session

end FrameOverlay
