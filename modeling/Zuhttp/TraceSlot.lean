import Zuhttp.Library.Memory
import Zuhttp.Trace

/-!
# The slot of a detail

`copy_detail` on the memory it writes to: `dst` begins with the slot, which has `cap` bytes.
-/

namespace Zuhttp

namespace Trace

def copyDetailTo (dst : Bytes) (cap : Nat) (src : Option Bytes) : Bytes :=
  if cap = 0 then dst
  else
    match src with
    | none => Memory.store dst 0 [0]
    | some src =>
      if src.length < cap then Memory.store dst 0 (src ++ [0])
      else if cap ≤ mark.length + 1 then Memory.store dst 0 [0]
      else
        let keep := backOff src (cap - 1 - mark.length)
        Memory.store (Memory.store dst 0 (src.take keep)) keep (mark ++ [0])

end Trace

end Zuhttp
