import Zuhttp.Bytes
import Zuhttp.Library.Memory

/-!
# The ALPN list on the wire

`zuh_tls_alpn_wire` of `zuh_tls.c`, on the memory that begins with the `cap` bytes of `out`.
-/

namespace Zuhttp

/-- The loop over the rest `p` of the list, `n` bytes written so far. Every turn uses up a byte
of the list. -/
def alpnLoop (cap : Nat) : Nat → Bytes → Bytes → Nat → Bytes × Nat
  | fuel + 1, c :: p, out, n =>
    let name := (c :: p).takeWhile (· ≠ 44)
    let len := name.length
    if len = 0 ∨ len > 255 ∨ (n + 1 + len) % 2 ^ 64 > cap then (out, 0)
    else
      let out := Memory.store out n [UInt8.ofNat len]
      let out := Memory.store out (n + 1) name
      alpnLoop cap fuel ((c :: p).dropWhile (· ≠ 44)).tail out (n + 1 + len)
  | _, _, out, n => (out, n)

/-- `zuh_tls_alpn_wire`: the memory, and the length that is returned. -/
def alpnWire (list : Bytes) (out : Bytes) (cap : Nat) : Bytes × Nat :=
  if list = [] then (out, 0) else alpnLoop cap list.length list out 0

end Zuhttp
