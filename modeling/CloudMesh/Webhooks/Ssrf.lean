import CloudMesh.Concurrent.Transcript
import CloudMesh.Streams.Lines

/-!
# The check of webhook targets

`packages/webhooks/src/ssrf.ts`, with what it uses of `node:net`. A delivery has a few commands: the
clock, a lookup of a host, a connection to one address and a request over it. Every lookup is
answered anew.

## Main definitions

- `isIP` — the version of an address
- `checkAddress` — the addresses that a webhook may reach
- `Cmd`, `sig` — the commands of a delivery
- `isSafeWebhookTarget` — the check of a URL
-/

namespace CloudMesh.Webhooks

open Concurrent Streams

/-! ## `node:net` -/

def isHexDigit (c : Char) : Bool :=
  c.isDigit || ('a' ≤ c && c ≤ 'f') || ('A' ≤ c && c ≤ 'F')

def decimal (s : List Char) : ℕ := s.foldl (fun n c => 10 * n + (c.toNat - '0'.toNat)) 0

def hexDigit (c : Char) : ℕ :=
  if c.isDigit then c.toNat - '0'.toNat
  else if 'a' ≤ c then c.toNat - 'a'.toNat + 10
  else c.toNat - 'A'.toNat + 10

/-- `parseInt(s, 16)`. -/
def hexadecimal (s : List Char) : ℕ := s.foldl (fun n c => 16 * n + hexDigit c) 0

/-- A number up to 255 without leading zeros. -/
def isOctet (s : List Char) : Bool :=
  s ≠ [] && s.all Char.isDigit && (s.length = 1 || s.head? ≠ some '0') && decimal s ≤ 255

def isIPv4 (s : List Char) : Bool := (split '.' s).length = 4 && (split '.' s).all isOctet

def isHexGroup (s : List Char) : Bool := s ≠ [] && s.length ≤ 4 && s.all isHexDigit

/-- The parts between the colons; nothing has no parts. -/
def groups (s : List Char) : List (List Char) := if s = [] then [] else split ':' s

/-- How many groups the parts stand for; the last one may be an IPv4 address, which is two. -/
def groupCount : List (List Char) → Option ℕ
  | [] => some 0
  | [s] => if isHexGroup s then some 1 else if isIPv4 s then some 2 else none
  | s :: ss => if isHexGroup s then (groupCount ss).map (· + 1) else none

/-- What is before and after the first `::`. -/
def cutDouble : List Char → Option (List Char × List Char)
  | ':' :: ':' :: rest => some ([], rest)
  | c :: rest => (cutDouble rest).map fun (left, right) => (c :: left, right)
  | [] => none

def isZoneChar (c : Char) : Bool := c.isAlphanum || c = '-' || c = '.' || c = ':'

/-- An address with an optional zone after `%`. -/
def isIPv6 (s : List Char) : Bool :=
  let address := s.takeWhile (· ≠ '%')
  let zone := s.dropWhile (· ≠ '%')
  (zone = [] || (zone.tail ≠ [] && zone.tail.all isZoneChar)) &&
    match cutDouble address with
    | none => groupCount (groups address) = some 8
    | some (left, right) =>
      (groups left).all isHexGroup &&
        (groupCount (groups right)).any fun n => (groups left).length + n ≤ 7

/-- The version of the address, or 0. -/
@[irreducible] def isIP (s : String) : ℕ :=
  if isIPv4 s.toList then 4 else if isIPv6 s.toList then 6 else 0

/-! ## `checkAddress` -/

def ipv4ToInt (ip : List Char) : BitVec 32 :=
  let parts := (split '.' ip).map fun part => BitVec.ofNat 32 (decimal part)
  (parts.getD 0 0 <<< 24) ||| (parts.getD 1 0 <<< 16) ||| (parts.getD 2 0 <<< 8) ||| parts.getD 3 0

def inCidr (address : BitVec 32) (base : String) (bits : ℕ) : Bool :=
  let mask : BitVec 32 := if bits = 0 then 0 else 0xffffffff <<< (32 - bits)
  address &&& mask = ipv4ToInt base.toList &&& mask

def blocked : List (String × ℕ) :=
  [("10.0.0.0", 8), ("172.16.0.0", 12), ("192.168.0.0", 16), ("127.0.0.0", 8),
    ("169.254.0.0", 16), ("0.0.0.0", 8), ("100.64.0.0", 10), ("224.0.0.0", 4)]

def isSafeIPv4 (address : List Char) : Bool :=
  !blocked.any fun (base, bits) => inCidr (ipv4ToInt address) base bits

/-- The IPv4 address in an IPv4-mapped IPv6 address, which is in either notation. -/
def unwrapIPv4Mapped (normalized : List Char) : Option (List Char) :=
  if "::ffff:".toList.isPrefixOf normalized then
    let rest := normalized.drop "::ffff:".length
    let dotted := split '.' rest
    if dotted.length = 4 ∧ dotted.all fun part => part ≠ [] && part.all Char.isDigit then some rest
    else
      match split ':' rest with
      | [high, low] =>
        if isHexGroup high ∧ isHexGroup low then
          let high := hexadecimal high
          let low := hexadecimal low
          some (String.intercalate "." ([high / 256 % 256, high % 256, low / 256 % 256,
            low % 256].map toString)).toList
        else none
      | _ => none
  else none

def isSafeIPv6 (address : List Char) : Bool :=
  let normalized := address.map Char.toLower
  match unwrapIPv4Mapped normalized with
  | some mapped => isSafeIPv4 mapped
  | none =>
    !(normalized = "::1".toList || normalized = "::".toList ||
      ["fe8", "fe9", "fea", "feb", "fc", "fd"].any fun pre => pre.toList.isPrefixOf normalized)

@[irreducible] def checkAddress (address : String) : Bool :=
  match isIP address with
  | 4 => isSafeIPv4 address.toList
  | 6 => isSafeIPv6 address.toList
  | _ => false

/-! ## Commands -/

structure Response where
  status : ℕ
  /-- The text of the body, if it can be read. -/
  text : Option String

inductive Cmd
  | dateNow
  | lookup (hostname : String)
  | connect (address : String)
  | post (headers : List (String × String)) (body : String)
  deriving DecidableEq

abbrev Res : Cmd → Type
  | .dateNow => ℤ
  | .lookup _ => List String
  | .connect _ => Unit
  | .post .. => Response

/-- A command may fail with a message. -/
abbrev sig : Signature where
  Cmd := Cmd
  Ans c := Except String (Res c)

abbrev Prog (α : Type) := Handler sig String α

def command (c : sig.Cmd) : Prog (Res c) := ExceptT.mk (.call c)

/-! ## `isSafeWebhookTarget` -/

/-- What is read of a `URL`. -/
structure Url where
  protocol : String
  hostname : String

structure SsrfCheckResult where
  safe : Bool
  reason : Option String

def unsafeReason (address : String) : String :=
  "resolves to a disallowed address (" ++ address ++ ")"

/-- A host without the brackets of an IPv6 literal. -/
def Url.host (url : Url) : String :=
  let s := url.hostname.toList
  let s := if s.head? = some '[' then s.tail else s
  String.ofList (if s.getLast? = some ']' then s.dropLast else s)

/-- The answer to a lookup is good only if every address is. -/
def checkAll (addresses : List String) : SsrfCheckResult :=
  if addresses = [] then ⟨false, some "hostname does not resolve"⟩
  else
    match addresses.find? fun address => !checkAddress address with
    | some address => ⟨false, some (unsafeReason address)⟩
    | none => ⟨true, none⟩

/-- `new URL(rawUrl)` is a parameter. -/
def isSafeWebhookTarget (parseUrl : String → Option Url) (rawUrl : String) :
    Prog SsrfCheckResult :=
  match parseUrl rawUrl with
  | none => pure ⟨false, some "not a valid URL"⟩
  | some url =>
    if url.protocol ≠ "https:" then pure ⟨false, some "only https URLs are allowed"⟩
    else if isIP url.host ≠ 0 then
      pure (if checkAddress url.host then ⟨true, none⟩
        else ⟨false, some (unsafeReason url.host)⟩)
    else
      tryCatch (do pure (checkAll (← command (.lookup url.host)))) fun _ =>
        pure ⟨false, some "hostname does not resolve"⟩

end CloudMesh.Webhooks
