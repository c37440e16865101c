import Zuhttp.Library.Decimal
import Zuhttp.Options
import Zuhttp.PoolKey

/-!
# The pool key of a hop

`zuh_engine_pool_key` and `tls_cfg_for` of `zuh_engine.c`: what the key records, and the
TLS configuration the connection is really opened with.
-/

namespace Zuhttp

open Decimal

/-- A hop: where it goes, under which options, through which proxy. -/
structure HopTarget where
  uri : Uri
  opts : GetOpts
  proxy : Option Proxy

def tlsCfgFor (o : GetOpts) : TlsConfig :=
  let cfg := o.tls.getD TlsConfig.init
  let cfg := { cfg with verifyPeer := o.verify, verifyHostname := o.verify }
  let cfg :=
    match o.caFile with
    | some file => { cfg with caFile := some file, source := .file }
    | none => cfg
  { cfg with alpn := some o.http2.alpnFor }

/-- Each pin is followed by the byte 0x1f. -/
def joinPins (pins : List Bytes) : Bytes := pins.flatMap (fun pin => pin ++ [31])

/-- The buffer the pins are joined in holds 64 KiB, the terminating NUL included. -/
def pinsText (pins : List Bytes) : Option Bytes :=
  if (joinPins pins).length + 1 > 64 * 1024 then none else some (joinPins pins)

def proxyFields (p : Proxy) : List Bytes :=
  [p.scheme.getD (ascii "http"), p.username.getD [], p.password.getD [], p.host.getD [],
    decimalText p.port]

def proxyText (p : Proxy) : Bytes := lengthPrefixedAll (proxyFields p)

/-- The fields taken from `o->tls`. -/
def keyTls (o : GetOpts) (k : PoolKey) : Option PoolKey :=
  match o.tls with
  | none => some k
  | some tls =>
    let k := { k with
      revocation := tls.revocation, minVersion := tls.minVersion, caExtraFile := tls.caExtraFile }
    if tls.pins.isEmpty then some k
    else (pinsText tls.pins).map (fun text => { k with pins := some text })

def keyProxy (px : Option Proxy) (k : PoolKey) : PoolKey :=
  match px with
  | some p => if p.inUse then { k with proxy := some (proxyText p) } else k
  | none => k

/-- `zuh_engine_pool_key`, when no allocation fails. -/
def enginePoolKey (t : HopTarget) : Option PoolKey :=
  let k : PoolKey := { PoolKey.init with
    scheme := some (if t.uri.isHttps then ascii "https" else ascii "http")
    host := some t.uri.host
    port := t.uri.port
    verifyPeer := t.opts.verify
    verifyHostname := t.opts.verify
    caFile := t.opts.caFile }
  (keyTls t.opts k).map (fun k =>
    let k := { k with http2 := t.opts.http2.code }
    let k := if t.uri.isHttps then { k with alpn := some t.opts.http2.alpnFor } else k
    keyProxy t.proxy k)

end Zuhttp
