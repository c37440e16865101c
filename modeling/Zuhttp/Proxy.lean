import Zuhttp.Options
import Zuhttp.Response

/-!
# Proxies

`zuh_proxy.c`: which proxy a target goes through, and the requests made of a proxy. The
environment is a function from names to values.
-/

namespace Zuhttp

/-- `env_get`: an empty variable means an unset one. -/
def envGet (env : Bytes → Option Bytes) (name : String) : Option Bytes :=
  (env (ascii name)).filter (· ≠ [])

/-! ### Small helpers -/

/-- `pct_decode`. -/
def pctDecode : Bytes → Option Bytes
  | [] => some []
  | [c] => if c = 37 then none else some [c]
  | [c, d] => if c = 37 then none else (pctDecode [d]).map (c :: ·)
  | c :: a :: b :: s =>
    if c = 37 then
      match RedactPolicy.hexval a, RedactPolicy.hexval b with
      | some hi, some lo => (pctDecode s).map (UInt8.ofNat (hi * 16 + lo) :: ·)
      | _, _ => none
    else (pctDecode (a :: b :: s)).map (c :: ·)

/-- The C string at the start of an array of bytes. -/
def cString (s : Bytes) : Bytes := s.takeWhile (· ≠ 0)

/-- `is_ip_literal`. -/
def isIpLiteral (s : Bytes) : Bool :=
  s.contains 58 ||
    (s.all (fun c => Ascii.isDigit c || c = 46) && s.count 46 = 3 && s.any Ascii.isDigit)

/-- `strtol` to the base 10, where the value fits. -/
def strtol (s : Bytes) : Int :=
  let s := s.dropWhile (fun c => c = 32 ∨ (9 ≤ c ∧ c ≤ 13))
  let value (s : Bytes) : Nat :=
    (s.takeWhile Ascii.isDigit).foldl (fun v c => v * 10 + (c.toNat - 48)) 0
  match s with
  | c :: s => if c = 45 then -(value s : Int) else if c = 43 then value s else value (c :: s)
  | [] => 0

/-- The six bits of a base64 digit. -/
def base64Digit (v : Nat) : UInt8 :=
  (ascii "ABCDEFGHIJKLMNOPQRSTUVWXYZabcdefghijklmnopqrstuvwxyz0123456789+/").getD (v % 64) 0

/-- `zuh_base64_encode`. -/
def base64Encode : Bytes → Writer Unit
  | a :: b :: c :: s => do
    let v := a.toNat * 65536 + b.toNat * 256 + c.toNat
    Buffer.appendByte (base64Digit (v / 262144))
    Buffer.appendByte (base64Digit (v / 4096))
    Buffer.appendByte (base64Digit (v / 64))
    Buffer.appendByte (base64Digit v)
    base64Encode s
  | [a, b] => do
    let v := a.toNat * 65536 + b.toNat * 256
    Buffer.appendByte (base64Digit (v / 262144))
    Buffer.appendByte (base64Digit (v / 4096))
    Buffer.appendByte (base64Digit (v / 64))
    Buffer.appendByte 61
  | [a] => do
    let v := a.toNat * 65536
    Buffer.appendByte (base64Digit (v / 262144))
    Buffer.appendByte (base64Digit (v / 4096))
    Buffer.appendByte 61
    Buffer.appendByte 61
  | [] => pure ()

/-! ### The setting -/

namespace Proxy

/-- `zuh_proxy_init`. -/
def init : Proxy :=
  { inUse := false, scheme := none, host := none, port := 0, username := none, password := none }

/-- The userinfo of a proxy URL, split at its first colon. -/
def splitUserinfo (userinfo : Bytes) : Bytes × Bytes :=
  (userinfo.takeWhile (· ≠ 58), (userinfo.dropWhile (· ≠ 58)).drop 1)

/-- `zuh_proxy_parse`. -/
def parse (lib : UriLib) (url : Bytes) : HostProg Proxy :=
  if url = [] then pure init
  else do
    -- curl accepts a bare host and port
    let bare := ¬(ascii "://" <:+: url)
    Prog.onlyIf bare Host.allocate
    if ¬(← Host.alloc) then Host.refuse .nomem .none "out of memory"
    else
      match lib.parse (if bare then ascii "http://" ++ url else url) with
      | .error rc =>
        if rc = .nomem then Host.refuse .nomem .none "out of memory"
        else Host.refuse .proxy .connect "proxy URL is not usable"
      | .ok u =>
        if u.scheme ≠ ascii "http" then
          Host.refuse .proxy .connect
            ("only http:// proxies are supported, not " ++ text u.scheme ++ "://")
        else do
          Host.allocate
          let p : Proxy :=
            { init with scheme := some u.scheme, host := some u.host, port := u.port }
          match u.userinfo with
          | none => pure { p with inUse := true }
          | some userinfo => do
            Host.allocate
            let (user, pass) := splitUserinfo userinfo
            match pctDecode user, pctDecode pass with
            | some user, some pass =>
              pure { p with inUse := true, username := some (cString user)
                            password := some (cString pass) }
            | _, _ =>
              Host.refuse .proxy .connect "proxy credentials contain a malformed percent-escape"

/-- The name and the port an entry of the exception list asks for, unless it is malformed. -/
def noProxyEntry (entry : Bytes) : Option (Bytes × Option Int) :=
  if entry.head? = some 91 then
    if 93 ∈ entry then
      let name := (entry.drop 1).takeWhile (· ≠ 93)
      let rest := (entry.dropWhile (· ≠ 93)).drop 1
      some (name, if rest.head? = some 58 then some (strtol (rest.drop 1)) else none)
    else none
  else if entry.count 58 = 1 then
    some (entry.takeWhile (· ≠ 58), some (strtol ((entry.dropWhile (· ≠ 58)).drop 1)))
  else some (entry, none)

/-- One entry of the list against a host and a port. -/
def noProxyEntryMatches (host : Bytes) (port : Nat) (entry : Bytes) : Bool :=
  if entry = [] then false
  else if entry = [42] then true
  else
    match noProxyEntry entry with
    | none => false
    | some (name, want) =>
      if want.any (· ≠ (port : Int)) then false
      else
        let name := if name.head? = some 46 then name.drop 1 else name
        if name = [] ∨ name.length > host.length then false
        else if asciiNcasecmp (host.drop (host.length - name.length)) name ≠ 0 then false
        else if name.length = host.length then true
        else if isIpLiteral name then false
        else host[host.length - name.length - 1]? = some 46

/-- The bytes skipped in front of an entry. -/
def isEntryGap (c : UInt8) : Bool := c = 44 ∨ isOws c

/-- The loop of `zuh_no_proxy_matches`; every turn of it uses up a byte. -/
def noProxyLoop (host : Bytes) (port : Nat) : Nat → Bytes → Bool
  | 0, _ => false
  | n + 1, s =>
    if s = [] then false
    else
      let s := s.dropWhile isEntryGap
      let entry := (s.takeWhile (· ≠ 44)).rdropWhile isOws
      if noProxyEntryMatches host port entry then true
      else noProxyLoop host port n (s.dropWhile (· ≠ 44))

/-- `zuh_no_proxy_matches`. -/
def noProxyMatches (noProxy host : Bytes) (port : Nat) : Bool :=
  if host = [] then false else noProxyLoop host port noProxy.length noProxy

/-- A parsed setting, with the copy of its source's name. -/
def parseSetting (lib : UriLib) (url : Bytes) : HostProg Proxy := do
  let p ← parse lib url
  if p.inUse then do
    Host.allocate
    pure p
  else pure p

/-- The variable that names the proxy of a target. The upper-case `HTTP_PROXY` is not read. -/
def settingFor (env : Bytes → Option Bytes) (target : Uri) : Option Bytes :=
  let own :=
    if target.isHttps then (envGet env "https_proxy").or (envGet env "HTTPS_PROXY")
    else envGet env "http_proxy"
  own.or ((envGet env "all_proxy").or (envGet env "ALL_PROXY"))

/-- `zuh_proxy_resolve`. -/
def resolve (lib : UriLib) (env : Bytes → Option Bytes) (override : Option Bytes)
    (overrideSet : Bool) (target : Uri) : HostProg Proxy :=
  if overrideSet then
    match override with
    | none => pure init
    | some url => if url = [] then pure init else parseSetting lib url
  else
    match settingFor env target with
    | none => pure init
    | some url =>
      match (envGet env "no_proxy").or (envGet env "NO_PROXY") with
      | none => parseSetting lib url
      | some noProxy =>
        if noProxyMatches noProxy target.host target.port then pure init
        else parseSetting lib url

/-! ### The requests -/

/-- `zuh_proxy_auth_value`; it is only called with a user name. -/
def authValue (p : Proxy) : Writer Unit :=
  match p.username with
  | none => throw .nomem
  | some user =>
    let raw := user ++ [58] ++ p.password.getD []
    if raw.length > 4096 then throw .nomem
    else do
      Buffer.append (ascii "Basic ")
      base64Encode raw

def hostPort (target : Uri) : Bytes := target.bracketed ++ 58 :: Decimal.decimalText target.port

/-- The CONNECT request, once its target fits. -/
def writeConnect (p : Proxy) (target : Uri) : Writer Unit := do
  Buffer.append (ascii "CONNECT ")
  Buffer.append (hostPort target)
  Buffer.append (ascii " HTTP/1.1\r\nHost: ")
  Buffer.append (hostPort target)
  Buffer.append (ascii "\r\n")
  Prog.onlyIf p.username.isSome (do
    Buffer.append (ascii "Proxy-Authorization: ")
    p.authValue
    Buffer.append (ascii "\r\n"))
  Buffer.append (ascii "Proxy-Connection: keep-alive\r\n\r\n")

/-- `zuh_proxy_connect_request`. -/
def connectRequest (p : Proxy) (target : Uri) : HostProg Bytes :=
  if (hostPort target).length ≥ 300 then
    Host.refuse .proxy .connect "proxy target is too long"
  else do
    Host.allocate
    match Prog.exec (p.writeConnect target) (Buffer.init 0) with
    | (.ok _, b) => pure b.data
    | (.error rc, _) => throw rc

/-- `zuh_proxy_connect_response`: how much of the buffer the answer takes, or `none` while it
is incomplete. -/
def connectResponse (buf : Bytes) : HostProg (Option Nat) := do
  match ← Response.parse buf 0 with
  | none => pure none
  | some (r, consumed) =>
    if 200 ≤ r.status ∧ r.status < 300 then pure (some consumed)
    else if r.status = 407 then
      Host.refuse .proxyAuth .connect "proxy requires authentication (407)"
    else
      Host.refuse .proxy .connect ("proxy refused CONNECT with status " ++ toString r.status)

end Proxy

end Zuhttp
