/-!
# Kernel images

The code handed to the driver as a module: text or binary, always with a zero byte at the end.
-/

namespace FrameOverlay

/-- A module image. -/
structure KernelImage where
  bytes : List UInt8
  deriving DecidableEq, Repr

namespace KernelImage

/-- Name of the function the module must offer. -/
def entryPoint : String := "Overlay_Cuda"

/-- Assembly text; a zero byte is appended. -/
def ofText (text : String) : KernelImage :=
  ⟨text.toUTF8.toList ++ [0]⟩

/-- Binary code; a zero byte is appended unless the last one is zero. -/
def ofBinary (bytes : List UInt8) : KernelImage :=
  if bytes.getLast? = some 0 then ⟨bytes⟩ else ⟨bytes ++ [0]⟩

/-- Number of bytes, the final zero included. -/
def size (i : KernelImage) : Nat := i.bytes.length

/-- There is nothing but a final zero. -/
def isEmpty (i : KernelImage) : Bool := i.size ≤ 1

end KernelImage

end FrameOverlay
