import Mathlib

/-!
# Downloads of user-supplied URIs

`validate_external_url` (url_guard.py) and the two functions that fetch what passes it,
`_download_audio` (audio_base.py) and `_download_image` (image_base.py).

The guard looks the host up and refuses an address of a class of `ipaddress` (private, loopback,
link-local, multicast, reserved, unspecified). `httpx` looks the host up again when it connects,
and may be given other addresses; and the classes are not all that is not public: the shared
addresses of carriers are in none of them (`downloads_public_iff`).
-/

namespace Ai4iCore.Inference.DownloadGuard

/-! ## Networks and classes of addresses -/

/-- `ip_network`: the addresses of `bits` bits that agree with `base` in the first ones. -/
structure Network where
  bits : Nat
  base : Nat
  prefixlen : Nat
  deriving DecidableEq, Repr

/-- `ip in network`. -/
def Network.contains (net : Network) (ip : Nat) : Bool :=
  ip / 2 ^ (net.bits - net.prefixlen) == net.base / 2 ^ (net.bits - net.prefixlen)

/-- An address in dotted notation. -/
def octets (a b c d : Nat) : Nat := ((a * 256 + b) * 256 + c) * 256 + d

/-- The leading groups of an address, the others zero. -/
def groups (gs : List Nat) : Nat :=
  gs.foldl (fun ip group => ip * 65536 + group) 0 * 65536 ^ (8 - gs.length)

def ipv4Network (base prefixlen : Nat) : Network := ⟨32, base, prefixlen⟩

def ipv6Network (base prefixlen : Nat) : Network := ⟨128, base, prefixlen⟩

/-- `ip_address`. -/
inductive Address
  | ipv4 (ip : BitVec 32)
  | ipv6 (ip : BitVec 128)
  deriving DecidableEq, Repr

/-- The releases of Python 3.11 before and after the classes of a mapped address became those of
its IPv4 address, all of them; `is_private` went by it before. -/
inductive Release
  | before
  | after
  deriving DecidableEq, Repr

namespace IPv4

/-- `_private_networks`. -/
def privateNetworks : List Network :=
  [ipv4Network (octets 0 0 0 0) 8, ipv4Network (octets 10 0 0 0) 8,
   ipv4Network (octets 127 0 0 0) 8, ipv4Network (octets 169 254 0 0) 16,
   ipv4Network (octets 172 16 0 0) 12, ipv4Network (octets 192 0 0 0) 24,
   ipv4Network (octets 192 0 0 170) 31, ipv4Network (octets 192 0 2 0) 24,
   ipv4Network (octets 192 168 0 0) 16, ipv4Network (octets 198 18 0 0) 15,
   ipv4Network (octets 198 51 100 0) 24, ipv4Network (octets 203 0 113 0) 24,
   ipv4Network (octets 240 0 0 0) 4, ipv4Network (octets 255 255 255 255) 32]

/-- `_private_networks_exceptions`. -/
def privateExceptions : List Network :=
  [ipv4Network (octets 192 0 0 9) 32, ipv4Network (octets 192 0 0 10) 32]

def isPrivate (ip : Nat) : Bool :=
  privateNetworks.any (·.contains ip) && privateExceptions.all (!·.contains ip)

def isLoopback (ip : Nat) : Bool := (ipv4Network (octets 127 0 0 0) 8).contains ip

def isLinkLocal (ip : Nat) : Bool := (ipv4Network (octets 169 254 0 0) 16).contains ip

def isMulticast (ip : Nat) : Bool := (ipv4Network (octets 224 0 0 0) 4).contains ip

def isReserved (ip : Nat) : Bool := (ipv4Network (octets 240 0 0 0) 4).contains ip

def isUnspecified (ip : Nat) : Bool := ip == 0

end IPv4

namespace IPv6

/-- `_private_networks`. -/
def privateNetworks : List Network :=
  [ipv6Network 1 128, ipv6Network 0 128, ipv6Network (groups [0, 0, 0, 0, 0, 0xffff]) 96,
   ipv6Network (groups [0x64, 0xff9b, 1]) 48, ipv6Network (groups [0x100]) 64,
   ipv6Network (groups [0x2001]) 23, ipv6Network (groups [0x2001, 0xdb8]) 32,
   ipv6Network (groups [0x2002]) 16, ipv6Network (groups [0xfc00]) 7,
   ipv6Network (groups [0xfe80]) 10]

/-- `_private_networks_exceptions`. -/
def privateExceptions : List Network :=
  [ipv6Network (groups [0x2001, 1] + 1) 128, ipv6Network (groups [0x2001, 1] + 2) 128,
   ipv6Network (groups [0x2001, 3]) 32, ipv6Network (groups [0x2001, 4, 0x112]) 48,
   ipv6Network (groups [0x2001, 0x20]) 28, ipv6Network (groups [0x2001, 0x30]) 28]

/-- `_reserved_networks`. -/
def reservedNetworks : List Network :=
  [ipv6Network (groups [0]) 8, ipv6Network (groups [0x100]) 8, ipv6Network (groups [0x200]) 7,
   ipv6Network (groups [0x400]) 6, ipv6Network (groups [0x800]) 5,
   ipv6Network (groups [0x1000]) 4, ipv6Network (groups [0x4000]) 3,
   ipv6Network (groups [0x6000]) 3, ipv6Network (groups [0x8000]) 3,
   ipv6Network (groups [0xa000]) 3, ipv6Network (groups [0xc000]) 3,
   ipv6Network (groups [0xe000]) 4, ipv6Network (groups [0xf000]) 5,
   ipv6Network (groups [0xf800]) 6, ipv6Network (groups [0xfe00]) 9]

/-- `ipv4_mapped`. -/
def ipv4Mapped (ip : Nat) : Option Nat :=
  if ip / 2 ^ 32 = 0xffff then some (ip % 2 ^ 32) else none

def isPrivate (ip : Nat) : Bool :=
  match ipv4Mapped ip with
  | some ip4 => IPv4.isPrivate ip4
  | none => privateNetworks.any (·.contains ip) && privateExceptions.all (!·.contains ip)

/-- A class that goes by the IPv4 address of a mapped one in the later releases. -/
def byMapped (release : Release) (ipv4 ipv6 : Nat → Bool) (ip : Nat) : Bool :=
  match release, ipv4Mapped ip with
  | .after, some ip4 => ipv4 ip4
  | _, _ => ipv6 ip

def isLoopback (ip : Nat) : Bool := ip == 1

def isLinkLocal (release : Release) : Nat → Bool :=
  byMapped release IPv4.isLinkLocal (ipv6Network (groups [0xfe80]) 10).contains

def isMulticast (release : Release) : Nat → Bool :=
  byMapped release IPv4.isMulticast (ipv6Network (groups [0xff00]) 8).contains

def isReserved (release : Release) : Nat → Bool :=
  byMapped release IPv4.isReserved fun ip => reservedNetworks.any (·.contains ip)

def isUnspecified (release : Release) : Nat → Bool :=
  byMapped release IPv4.isUnspecified fun ip => ip == 0

end IPv6

/-- The classes that the guard refuses. -/
def nonPublic (release : Release) : Address → Bool
  | .ipv4 ip =>
    IPv4.isPrivate ip.toNat || IPv4.isLoopback ip.toNat || IPv4.isLinkLocal ip.toNat ||
      IPv4.isMulticast ip.toNat || IPv4.isReserved ip.toNat || IPv4.isUnspecified ip.toNat
  | .ipv6 ip =>
    IPv6.isPrivate ip.toNat || IPv6.isLoopback ip.toNat || IPv6.isLinkLocal release ip.toNat ||
      IPv6.isMulticast release ip.toNat || IPv6.isReserved release ip.toNat ||
      IPv6.isUnspecified release ip.toNat

/-! ## The guard and the downloads -/

/-- The settings that are read. -/
structure Settings where
  allowPrivateDownloadHosts : Bool := false
  deriving DecidableEq, Repr

/-- What is read of `urlparse`. -/
structure ParsedUrl where
  scheme : String
  hostname : Option String
  deriving DecidableEq, Repr

inductive DownloadError
  | schemeNotAllowed (scheme : String)
  | noHostname
  | cannotResolve (hostname : String)
  | nonPublicAddress (hostname : String)
  | timedOut (task media uri : String)
  | status (task media uri : String) (code : Nat)
  | request (task media uri error : String)
  deriving DecidableEq, Repr

/-- The texts of the errors. -/
def DownloadError.message : DownloadError → String
  | .schemeNotAllowed scheme => "URL scheme '" ++ scheme ++ "' is not allowed; use http(s)"
  | .noHostname => "URL has no hostname"
  | .cannotResolve hostname => "Cannot resolve host '" ++ hostname ++ "'"
  | .nonPublicAddress hostname => "Host '" ++ hostname ++
      "' resolves to a non-public address; downloads from internal networks are not allowed"
  | .timedOut task media uri => task ++ ": timed out downloading " ++ media ++ " from " ++ uri
  | .status task media uri code =>
    task ++ ": HTTP " ++ toString code ++ " downloading " ++ media ++ " from " ++ uri
  | .request task media uri error =>
    task ++ ": request error downloading " ++ media ++ " from " ++ uri ++ ": " ++ error

/-- How the exchange with the server ends. -/
inductive Exchange
  | answered (code : Nat) (content : List UInt8)
  | timedOut
  | failed (error : String)
  deriving DecidableEq, Repr

/-- What surrounds a download. The resolver answers the lookup of the guard and that of the
connection, which need not agree; of the second answer some addresses are tried, one after the
other or together, as they respond. -/
structure Surroundings where
  checked : String → Option (List Address)
  connecting : Except String (List Address)
  tried : List Address → List Address
  tried_subset : ∀ answers, tried answers ⊆ answers
  exchange : Exchange

/-- `validate_external_url`. -/
def validateExternalUrl (release : Release) (settings : Settings)
    (getaddrinfo : String → Option (List Address)) (parsed : ParsedUrl) :
    Except DownloadError Unit :=
  if ¬(parsed.scheme = "http" ∨ parsed.scheme = "https") then .error (.schemeNotAllowed parsed.scheme)
  else
    match parsed.hostname with
    | none | some "" => .error .noHostname
    | some hostname =>
      if settings.allowPrivateDownloadHosts then .ok ()
      else
        match getaddrinfo hostname with
        | none => .error (.cannotResolve hostname)
        | some addresses =>
          if addresses.any (nonPublic release) then .error (.nonPublicAddress hostname)
          else .ok ()

/-- The addresses that were connected to, and what came of it. -/
structure Download where
  connected : List Address
  result : Except DownloadError (List UInt8)

/-- `client.get(uri)` with the errors mapped: a redirect is not followed, and is no success. -/
def fetch (around : Surroundings) (task media uri : String) : Download where
  connected := around.tried (around.connecting.toOption.getD [])
  result :=
    match around.connecting with
    | .error error => .error (.request task media uri error)
    | .ok _ =>
      match around.exchange with
      | .timedOut => .error (.timedOut task media uri)
      | .failed error => .error (.request task media uri error)
      | .answered code content =>
        if 200 ≤ code ∧ code < 300 then .ok content else .error (.status task media uri code)

/-- Both downloads, by what they fetch. -/
def download (release : Release) (settings : Settings) (urlparse : String → ParsedUrl)
    (around : Surroundings) (task media uri : String) : Download :=
  match validateExternalUrl release settings around.checked (urlparse uri) with
  | .error e => ⟨[], .error e⟩
  | .ok () => fetch around task media uri

/-- `_download_audio`. -/
def downloadAudio (release : Release) (settings : Settings) (urlparse : String → ParsedUrl)
    (around : Surroundings) (task uri : String) : Download :=
  download release settings urlparse around task "audio" uri

/-- `_download_image`. -/
def downloadImage (release : Release) (settings : Settings) (urlparse : String → ParsedUrl)
    (around : Surroundings) (task uri : String) : Download :=
  download release settings urlparse around task "image" uri

/-! ## Public addresses -/

/-- The blocks of IPv4 addresses that are not globally reachable, by the registry of
special-purpose addresses, and those of multicast. -/
def specialBlocks4 : List Network :=
  [ipv4Network (octets 0 0 0 0) 8, ipv4Network (octets 10 0 0 0) 8,
   ipv4Network (octets 100 64 0 0) 10, ipv4Network (octets 127 0 0 0) 8,
   ipv4Network (octets 169 254 0 0) 16, ipv4Network (octets 172 16 0 0) 12,
   ipv4Network (octets 192 0 0 0) 24, ipv4Network (octets 192 0 2 0) 24,
   ipv4Network (octets 192 168 0 0) 16, ipv4Network (octets 198 18 0 0) 15,
   ipv4Network (octets 198 51 100 0) 24, ipv4Network (octets 203 0 113 0) 24,
   ipv4Network (octets 224 0 0 0) 4, ipv4Network (octets 240 0 0 0) 4]

def Routable4 (ip : Nat) : Prop :=
  (∀ net ∈ specialBlocks4, ¬net.contains ip) ∨ ∃ net ∈ IPv4.privateExceptions, net.contains ip

/-- The blocks of IPv6 unicast addresses that are not globally reachable. -/
def specialBlocks6 : List Network :=
  [ipv6Network (groups [0x2001]) 23, ipv6Network (groups [0x2001, 0xdb8]) 32,
   ipv6Network (groups [0x2002]) 16, ipv6Network (groups [0x3fff]) 20]

/-- A global unicast address that is not in a special block. -/
def Routable6 (ip : Nat) : Prop :=
  (ipv6Network (groups [0x2000]) 3).contains ip ∧
    ((∀ net ∈ specialBlocks6, ¬net.contains ip) ∨
      ∃ net ∈ IPv6.privateExceptions, net.contains ip)

/-- The address that a mapped one stands for. -/
def Address.plain : Address → Address
  | .ipv4 ip => .ipv4 ip
  | .ipv6 ip =>
    match IPv6.ipv4Mapped ip.toNat with
    | some ip4 => .ipv4 (BitVec.ofNat 32 ip4)
    | none => .ipv6 ip

/-- The address is globally routable. -/
def Public (address : Address) : Prop :=
  match address.plain with
  | .ipv4 ip => Routable4 ip.toNat
  | .ipv6 ip => Routable6 ip.toNat

/-- The addresses that are not public and in none of the classes: the shared ones of carriers, the
site-local ones, and a block for documentation. -/
def unlisted : Address → Bool
  | .ipv4 ip => (ipv4Network (octets 100 64 0 0) 10).contains ip.toNat
  | .ipv6 ip =>
    (ipv6Network (groups [0xfec0]) 10).contains ip.toNat ||
      (ipv6Network (groups [0x3fff]) 20).contains ip.toNat

theorem routable4_iff {ip : Nat} (hip : ip < 2 ^ 32) :
    Routable4 ip ↔ (IPv4.isPrivate ip || IPv4.isLoopback ip || IPv4.isLinkLocal ip ||
      IPv4.isMulticast ip || IPv4.isReserved ip || IPv4.isUnspecified ip) = false ∧
      (ipv4Network (octets 100 64 0 0) 10).contains ip = false := by
  simp [Routable4, specialBlocks4, IPv4.isPrivate, IPv4.isLoopback, IPv4.isLinkLocal,
    IPv4.isMulticast, IPv4.isReserved, IPv4.isUnspecified, IPv4.privateNetworks,
    IPv4.privateExceptions, Network.contains, ipv4Network, octets]
  omega

/-- An address in a network has the first bits of its base. -/
theorem div_of_contains {base prefixlen ip k : Nat} (hk : 128 - prefixlen ≤ k)
    (h : (ipv6Network base prefixlen).contains ip = true) : ip / 2 ^ k = base / 2 ^ k := by
  have heq : ip / 2 ^ (128 - prefixlen) = base / 2 ^ (128 - prefixlen) := by
    simpa [Network.contains, ipv6Network] using h
  have hpow : 2 ^ k = 2 ^ (128 - prefixlen) * 2 ^ (k - (128 - prefixlen)) := by
    rw [← pow_add, Nat.add_sub_cancel' hk]
  rw [hpow, ← Nat.div_div_eq_div_mul, ← Nat.div_div_eq_div_mul, heq]

/-- Outside the global unicast block every address is in a class, or site-local. -/
theorem classified_of_not_unicast {ip : Nat} (hip : ip < 2 ^ 128)
    (h : (ipv6Network (groups [0x2000]) 3).contains ip = false) :
    (ipv6Network (groups [0xfc00]) 7).contains ip = true ∨
      (ipv6Network (groups [0xfe80]) 10).contains ip = true ∨
      (ipv6Network (groups [0xff00]) 8).contains ip = true ∨
      IPv6.reservedNetworks.any (·.contains ip) = true ∨
      (ipv6Network (groups [0xfec0]) 10).contains ip = true := by
  simp only [IPv6.reservedNetworks, Network.contains, ipv6Network, groups] at h ⊢
  simp at h ⊢
  omega

theorem not_contains_of_unicast {base prefixlen ip : Nat}
    (h : (ipv6Network (groups [0x2000]) 3).contains ip = true) (hprefixlen : 3 ≤ prefixlen)
    (hbase : base / 2 ^ 125 ≠ 1) : (ipv6Network base prefixlen).contains ip = false := by
  rw [Bool.eq_false_iff]
  intro hcontains
  have hip : ip / 2 ^ 125 = groups [0x2000] / 2 ^ 125 := div_of_contains (by omega) h
  have hunicast : groups [0x2000] / 2 ^ 125 = 1 := by decide
  exact hbase ((div_of_contains (by omega) hcontains).symm.trans (hip.trans hunicast))

/-- The exceptions are global unicast addresses, and not in the block for documentation. -/
theorem unicast_of_exception {ip : Nat} {net : Network} (hnet : net ∈ IPv6.privateExceptions)
    (h : net.contains ip = true) :
    (ipv6Network (groups [0x2000]) 3).contains ip = true ∧
      (ipv6Network (groups [0x3fff]) 20).contains ip = false := by
  have hbase : ∀ net ∈ IPv6.privateExceptions, net = ipv6Network net.base net.prefixlen ∧
      20 ≤ net.prefixlen ∧ net.base / 2 ^ 125 = groups [0x2000] / 2 ^ 125 ∧
      net.base / 2 ^ 108 ≠ groups [0x3fff] / 2 ^ 108 := by decide
  obtain ⟨heq, hprefixlen, hunicast, hne⟩ := hbase net hnet
  rw [heq] at h
  constructor
  · have hip : ip / 2 ^ 125 = net.base / 2 ^ 125 := div_of_contains (by omega) h
    exact beq_iff_eq.mpr (hip.trans hunicast)
  · rw [Bool.eq_false_iff]
    intro hcontains
    have hip : ip / 2 ^ 108 = net.base / 2 ^ 108 := div_of_contains (by omega) h
    exact hne (hip.symm.trans (div_of_contains (by omega) hcontains))

/-- The classes of an address that is not mapped. -/
theorem routable6_iff {ip : Nat} (hip : ip < 2 ^ 128) :
    Routable6 ip ↔ (IPv6.privateNetworks.any (·.contains ip) &&
        IPv6.privateExceptions.all (!·.contains ip) || IPv6.isLoopback ip ||
        (ipv6Network (groups [0xfe80]) 10).contains ip ||
        (ipv6Network (groups [0xff00]) 8).contains ip ||
        IPv6.reservedNetworks.any (·.contains ip) || ip == 0) = false ∧
      ((ipv6Network (groups [0xfec0]) 10).contains ip ||
        (ipv6Network (groups [0x3fff]) 20).contains ip) = false := by
  cases hunicast : (ipv6Network (groups [0x2000]) 3).contains ip with
  | false =>
    constructor
    · rintro ⟨h, -⟩
      rw [hunicast] at h
      cases h
    · rintro ⟨hclasses, hother⟩
      simp only [Bool.or_eq_false_iff] at hclasses hother
      obtain ⟨⟨⟨⟨⟨hprivate, -⟩, hlink⟩, hmulticast⟩, hreserved⟩, -⟩ := hclasses
      rcases classified_of_not_unicast hip hunicast with h | h | h | h | h
      · -- a private address, so it would be one of the exceptions
        have hany : IPv6.privateNetworks.any (·.contains ip) = true :=
          List.any_eq_true.mpr ⟨ipv6Network (groups [0xfc00]) 7, by decide, h⟩
        rw [hany, Bool.true_and, List.all_eq_false] at hprivate
        obtain ⟨net, hnet, hcontains⟩ := hprivate
        rw [Bool.not_eq_true, Bool.not_eq_false'] at hcontains
        rw [(unicast_of_exception hnet hcontains).1] at hunicast
        cases hunicast
      · rw [hlink] at h
        cases h
      · rw [hmulticast] at h
        cases h
      · rw [hreserved] at h
        cases h
      · rw [hother.1] at h
        cases h
  | true =>
    have hdiv : ip / 2 ^ 125 = 1 := div_of_contains (by omega) hunicast
    have hone : (ip == 1) = false ∧ (ip == 0) = false := by
      simp only [beq_eq_false_iff_ne]
      omega
    have hreserved : IPv6.reservedNetworks.any (·.contains ip) = false := by
      simp (disch := decide) only [IPv6.reservedNetworks, List.any_cons, List.any_nil,
        not_contains_of_unicast hunicast, Bool.or_false]
    have hprivate : IPv6.privateNetworks.any (·.contains ip) =
        ((ipv6Network (groups [0x2001]) 23).contains ip ||
          (ipv6Network (groups [0x2001, 0xdb8]) 32).contains ip ||
          (ipv6Network (groups [0x2002]) 16).contains ip) := by
      simp (disch := decide) only [IPv6.privateNetworks, List.any_cons, List.any_nil,
        not_contains_of_unicast hunicast, Bool.or_false, Bool.false_or, Bool.or_assoc]
    have hother : ∀ {base prefixlen : Nat}, 3 ≤ prefixlen → base / 2 ^ 125 ≠ 1 →
        (ipv6Network base prefixlen).contains ip = false :=
      not_contains_of_unicast hunicast
    rw [hprivate, hreserved, IPv6.isLoopback, hone.1, hone.2,
      @hother (groups [0xfe80]) 10 (by decide) (by decide),
      @hother (groups [0xff00]) 8 (by decide) (by decide),
      @hother (groups [0xfec0]) 10 (by decide) (by decide)]
    simp only [Bool.or_false, Bool.false_or]
    by_cases hexception : ∃ net ∈ IPv6.privateExceptions, net.contains ip = true
    · obtain ⟨net, hnet, hcontains⟩ := hexception
      have hall : IPv6.privateExceptions.all (!·.contains ip) = false :=
        List.all_eq_false.mpr ⟨net, hnet, by rw [hcontains]; decide⟩
      rw [hall, Bool.and_false, (unicast_of_exception hnet hcontains).2]
      exact ⟨fun _ => ⟨rfl, rfl⟩, fun _ => ⟨hunicast, .inr ⟨net, hnet, hcontains⟩⟩⟩
    · have hall : IPv6.privateExceptions.all (!·.contains ip) = true :=
        List.all_eq_true.mpr fun net hnet => by
          rw [Bool.not_eq_true', Bool.eq_false_iff]
          exact fun hcontains => hexception ⟨net, hnet, hcontains⟩
      rw [hall, Bool.and_true]
      unfold Routable6
      rw [or_iff_left hexception, and_iff_right hunicast]
      simp [specialBlocks6, and_assoc]

theorem byMapped_of_none {release : Release} {ipv4 ipv6 : Nat → Bool} {ip : Nat}
    (h : IPv6.ipv4Mapped ip = none) : IPv6.byMapped release ipv4 ipv6 ip = ipv6 ip := by
  unfold IPv6.byMapped
  rw [h]
  cases release <;> rfl

theorem nonPublic_of_none {release : Release} {ip : BitVec 128}
    (h : IPv6.ipv4Mapped ip.toNat = none) :
    nonPublic release (.ipv6 ip) = (IPv6.privateNetworks.any (·.contains ip.toNat) &&
      IPv6.privateExceptions.all (!·.contains ip.toNat) || IPv6.isLoopback ip.toNat ||
      (ipv6Network (groups [0xfe80]) 10).contains ip.toNat ||
      (ipv6Network (groups [0xff00]) 8).contains ip.toNat ||
      IPv6.reservedNetworks.any (·.contains ip.toNat) || ip.toNat == 0) := by
  have hprivate : IPv6.isPrivate ip.toNat = (IPv6.privateNetworks.any (·.contains ip.toNat) &&
      IPv6.privateExceptions.all (!·.contains ip.toNat)) := by
    unfold IPv6.isPrivate
    rw [h]
  unfold nonPublic
  dsimp only
  rw [hprivate, IPv6.isLinkLocal, IPv6.isMulticast, IPv6.isReserved, IPv6.isUnspecified,
    byMapped_of_none h, byMapped_of_none h, byMapped_of_none h, byMapped_of_none h]

/-- **The public addresses are those in no class and not unlisted.** -/
theorem public_iff (release : Release) (address : Address) :
    Public address ↔ nonPublic release address.plain = false ∧ unlisted address.plain = false := by
  cases address with
  | ipv4 ip => exact routable4_iff ip.isLt
  | ipv6 ip =>
    cases hmapped : IPv6.ipv4Mapped ip.toNat with
    | some ip4 =>
      have hplain : (Address.ipv6 ip).plain = .ipv4 (BitVec.ofNat 32 ip4) := by
        simp only [Address.plain, hmapped]
      rw [Public, hplain]
      exact routable4_iff (BitVec.isLt _)
    | none =>
      have hplain : (Address.ipv6 ip).plain = .ipv6 ip := by
        simp only [Address.plain, hmapped]
      rw [Public, hplain, nonPublic_of_none hmapped]
      exact routable6_iff ip.isLt

/-! ## Where the downloads connect to -/

/-- The guard lets a URI pass: one of a web scheme with a host that the first lookup finds, at
addresses of no refused class. -/
def Passes (release : Release) (checked : String → Option (List Address)) (parsed : ParsedUrl) :
    Prop :=
  (parsed.scheme = "http" ∨ parsed.scheme = "https") ∧ ∃ hostname addresses,
    parsed.hostname = some hostname ∧ hostname ≠ "" ∧ checked hostname = some addresses ∧
      ∀ address ∈ addresses, nonPublic release address = false

theorem validateExternalUrl_eq_ok_iff {release : Release} {settings : Settings}
    (hoff : settings.allowPrivateDownloadHosts = false)
    (checked : String → Option (List Address)) (parsed : ParsedUrl) :
    validateExternalUrl release settings checked parsed = .ok () ↔
      Passes release checked parsed := by
  unfold validateExternalUrl Passes
  split
  · rename_i hscheme
    simp [hscheme]
  · rename_i hscheme
    rw [not_not] at hscheme
    split
    · rename_i hnone
      simp [hnone]
    · rename_i hempty
      simp [hempty]
    · rename_i hostname hne hhost
      rw [if_neg (by simp [hoff])]
      split
      · rename_i hunknown
        simp [hhost, hunknown]
      · rename_i addresses hknown
        have hne' : hostname ≠ "" := hne
        simp [hscheme, hhost, hknown, hne']

/-- A download connects to what is tried of the second answer, if the guard lets it. -/
theorem connected_eq (release : Release) {settings : Settings}
    (hoff : settings.allowPrivateDownloadHosts = false) (urlparse : String → ParsedUrl)
    (around : Surroundings) (task media uri : String) (address : Address) :
    address ∈ (download release settings urlparse around task media uri).connected ↔
      Passes release around.checked (urlparse uri) ∧
        address ∈ around.tried (around.connecting.toOption.getD []) := by
  rw [← validateExternalUrl_eq_ok_iff hoff]
  unfold download
  cases hguard : validateExternalUrl release settings around.checked (urlparse uri) with
  | error e => simp
  | ok u => simp [fetch]

/-- **When the downloads reach public addresses only.** -/
theorem downloads_public_iff (release : Release) {settings : Settings}
    (hoff : settings.allowPrivateDownloadHosts = false) (urlparse : String → ParsedUrl)
    (around : Surroundings) (task uri : String) :
    ((∀ address ∈ (downloadAudio release settings urlparse around task uri).connected,
        Public address) ∧
      ∀ address ∈ (downloadImage release settings urlparse around task uri).connected,
        Public address) ↔
      (Passes release around.checked (urlparse uri) →
        ∀ address ∈ around.tried (around.connecting.toOption.getD []),
          nonPublic release address.plain = false ∧ unlisted address.plain = false) := by
  unfold downloadAudio downloadImage
  simp only [connected_eq release hoff, public_iff release]
  rw [and_self_iff]
  exact ⟨fun h hpasses address haddress => h address ⟨hpasses, haddress⟩,
    fun h address hconnected => h hconnected.1 address hconnected.2⟩

/-- A URI of an example host, parsed. -/
def exampleUrl (_ : String) : ParsedUrl := ⟨"http", some "example.com"⟩

/-- A host whose lookups are answered in turn; all of an answer is tried. -/
def answering (first second : List Address) : Surroundings where
  checked _ := some first
  connecting := .ok second
  tried := id
  tried_subset _ := List.Subset.refl _
  exchange := .answered 200 []

theorem downloads_public_example :
    (∀ address ∈ (downloadAudio .after {} exampleUrl
        (answering [.ipv4 0x08080808#32] [.ipv4 0x08080808#32]) "asr" "").connected,
        Public address) ∧
      ∀ address ∈ (downloadImage .after {} exampleUrl
        (answering [.ipv4 0x08080808#32] [.ipv4 0x08080808#32]) "asr" "").connected,
        Public address :=
  (downloads_public_iff .after rfl exampleUrl _ "asr" "").mpr fun _ address haddress => by
    obtain rfl := List.mem_singleton.mp haddress
    exact ⟨by decide, by decide⟩

/-- A shared address passes the guard, and a second answer is not looked at. -/
theorem downloads_reach_private :
    (downloadAudio .after {} (fun _ => ⟨"http", some "100.64.0.1"⟩)
        (answering [.ipv4 0x64400001#32] [.ipv4 0x64400001#32]) "asr"
        "http://100.64.0.1/").connected = [.ipv4 0x64400001#32] ∧
      ¬Public (.ipv4 0x64400001#32) ∧
      (downloadImage .after {} exampleUrl
        (answering [.ipv4 0x08080808#32] [.ipv4 0x7f000001#32]) "ocr"
        "http://example.com/").connected = [.ipv4 0x7f000001#32] ∧
      ¬Public (.ipv4 0x7f000001#32) := by
  refine ⟨by decide, fun h => ?_, by decide, fun h => ?_⟩
  · exact absurd ((public_iff .after _).mp h).2 (by decide)
  · exact absurd ((public_iff .after _).mp h).1 (by decide)

end Ai4iCore.Inference.DownloadGuard
