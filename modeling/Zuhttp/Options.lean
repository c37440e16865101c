import Zuhttp.Uri

/-!
# Request options

`zuh_get_opts`, `zuh_tls_config` and `zuh_proxy`. A NULL pointer is `none`.
-/

namespace Zuhttp

inductive Http2Mode
  | auto | required | off
  deriving DecidableEq, Repr

namespace Http2Mode

def code : Http2Mode → Int
  | auto => 0
  | required => 1
  | off => 2

/-- `zuh_h2_alpn_for`. -/
def alpnFor : Http2Mode → Bytes
  | off => ascii "http/1.1"
  | _ => ascii "h2,http/1.1"

end Http2Mode

inductive TrustSource
  | system | file | data
  deriving DecidableEq, Repr

structure TlsConfig where
  source : TrustSource
  caFile : Option Bytes
  caData : Option Bytes
  caExtraFile : Option Bytes
  verifyPeer : Int
  verifyHostname : Int
  pins : List Bytes
  revocation : Int
  minVersion : Int
  alpn : Option Bytes
  deriving DecidableEq

/-- `zuh_tls_config_init`. -/
def TlsConfig.init : TlsConfig :=
  { source := .system, caFile := none, caData := none, caExtraFile := none, verifyPeer := 1,
    verifyHostname := 1, pins := [], revocation := 0, minVersion := 12,
    alpn := some (ascii "http/1.1") }

structure Proxy where
  inUse : Bool
  scheme : Option Bytes
  host : Option Bytes
  port : Nat
  username : Option Bytes
  password : Option Bytes
  deriving DecidableEq

structure GetOpts where
  verify : Int := 1
  caFile : Option Bytes := none
  tls : Option TlsConfig := none
  http2 : Http2Mode := .auto

end Zuhttp
