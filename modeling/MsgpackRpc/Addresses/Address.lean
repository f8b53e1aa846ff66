import MsgpackRpc.Addresses.URI

/-!
# Addresses

`TCPAddress` and `UnixSocketAddress` hold an endpoint of asio.  They become URIs through the text of
the address and the port, and strings through what asio writes to a stream.  asio is a dependency:
both texts enter as fields of `Asio`.
-/

namespace MsgpackRpc.Addresses

open URI (IsWord inClass isIpv6Char isDigit isLine decimalText)

/-- The hexadecimal digits, the colons and the dots of an IPv6 address. -/
def isGroupChar : UInt8 → Bool := inClass [('0', '9'), ('a', 'f'), (':', ':'), ('.', '.')]

/-- The groups of an IPv6 address as asio writes them. -/
structure Groups where
  text : List UInt8
  isWord : IsWord isGroupChar text
  colon : 58 ∈ text

/-- An address of asio.  The scope ID of an IPv6 address is the name or the number of an
interface. -/
inductive AsioAddress where
  | v4 (a b c d : UInt8)
  | v6 (groups : Groups) (scope : Option (List UInt8) := none)

def AsioAddress.hasScope : AsioAddress → Bool
  | .v4 .. | .v6 _ none => false
  | .v6 _ (some _) => true

/-- An `asio::ip::tcp::endpoint`. -/
structure AsioTCPAddress where
  address : AsioAddress
  port : UInt16

/-- What addresses need of asio. -/
structure Asio where
  /-- `asio::ip::address::to_string` -/
  addressText : AsioAddress → List UInt8
  /-- What an endpoint writes to a stream. -/
  streamed : AsioTCPAddress → List UInt8

/-- The digits and the dots of an IPv4 address. -/
def isDottedChar : UInt8 → Bool := inClass [('0', '9'), ('.', '.')]

/-- A percent sign stands before a scope ID, and an endpoint has brackets around an address of
IPv6. -/
structure Asio.Lawful (asio : Asio) : Prop where
  v4 : ∀ a b c d, IsWord isDottedChar (asio.addressText (.v4 a b c d))
  v6 : ∀ groups, asio.addressText (.v6 groups none) = groups.text
  scope : ∀ groups scope,
    asio.addressText (.v6 groups (some scope)) = groups.text ++ text "%" ++ scope
  streamed_v4 : ∀ a b c d port, asio.streamed ⟨.v4 a b c d, port⟩ =
    asio.addressText (.v4 a b c d) ++ text ":" ++ decimalText port.toNat
  streamed_v6 : ∀ groups scope port, asio.streamed ⟨.v6 groups scope, port⟩ =
    text "[" ++ asio.addressText (.v6 groups scope) ++ text "]:" ++ decimalText port.toNat

/-- The texts with decimal bytes for IPv4. -/
def decimalAsio : Asio :=
  let addressText : AsioAddress → List UInt8
    | .v4 a b c d =>
        decimalText a.toNat ++ text "." ++ decimalText b.toNat ++ text "." ++ decimalText c.toNat ++
          text "." ++ decimalText d.toNat
    | .v6 groups none => groups.text
    | .v6 groups (some scope) => groups.text ++ text "%" ++ scope
  { addressText
    streamed := fun endpoint =>
      match endpoint.address with
      | .v4 .. => addressText endpoint.address ++ text ":" ++ decimalText endpoint.port.toNat
      | .v6 .. =>
          text "[" ++ addressText endpoint.address ++ text "]:" ++
            decimalText endpoint.port.toNat }

theorem decimalAsio_lawful : decimalAsio.Lawful where
  v4 a b c d := by
    have hdecimal : ∀ n, IsWord isDottedChar (decimalText n) := fun n =>
      (URI.isWord_decimalText n).mono (URI.inClass_mono (by decide))
    have hdot : IsWord isDottedChar (text ".") := by decide
    exact ((((((hdecimal _).append hdot).append (hdecimal _)).append hdot).append
      (hdecimal _)).append hdot).append (hdecimal _)
  v6 _ := rfl
  scope _ _ := rfl
  streamed_v4 _ _ _ _ _ := rfl
  streamed_v6 _ _ _ := rfl

variable (asio : Asio)

structure TCPAddress where
  address : AsioTCPAddress

namespace TCPAddress

def toUri (a : TCPAddress) : URI where
  scheme := text "tcp"
  hostOrPath := asio.addressText a.address.address
  portNumber := some a.address.port

/-- `to_string`, by the formatter. -/
def toText (a : TCPAddress) : List UInt8 := text "tcp" ++ text "://" ++ asio.streamed a.address

end TCPAddress

/-- The path of an unnamed socket is empty. -/
structure UnixSocketAddress where
  path : List UInt8

namespace UnixSocketAddress

def toUri (a : UnixSocketAddress) : URI where
  scheme := text "unix"
  hostOrPath := a.path

def toText (a : UnixSocketAddress) : List UInt8 := text "unix://" ++ a.path

end UnixSocketAddress

/-- `IAddress` -/
inductive Address where
  | tcp (a : TCPAddress)
  | unixSocket (a : UnixSocketAddress)

namespace Address

def toUri : Address → URI
  | .tcp a => a.toUri asio
  | .unixSocket a => a.toUri

def toText : Address → List UInt8
  | .tcp a => a.toText asio
  | .unixSocket a => a.toText

/-- The text of the URI is parsed as the URI again, and it is the string of the address. -/
def IsUri (re2 : URI.RE2) (a : Address) : Prop :=
  URI.parse re2 (URI.format (a.toUri asio)) = .ok (a.toUri asio) ∧
    a.toText asio = URI.format (a.toUri asio)

/-- The address is TCP without a scope ID, or a path that is a line of text. -/
def Expressible (isText : List UInt8 → Bool) : Address → Prop
  | .tcp a => a.address.address.hasScope = false
  | .unixSocket a => isLine isText a.path = true

end Address

/-! ## The texts of asio -/

theorem isWord_groups (groups : Groups) : IsWord isIpv6Char groups.text :=
  groups.isWord.mono (URI.inClass_mono (by decide))

section Texts

variable {asio} (hasio : asio.Lawful)
include hasio

theorem isWord_v4 (a b c d : UInt8) : IsWord isIpv6Char (asio.addressText (.v4 a b c d)) :=
  (hasio.v4 a b c d).mono (URI.inClass_mono (by decide))

/-- Only the sign before a scope ID is no character of a host. -/
theorem isWord_addressText_iff (address : AsioAddress) :
    IsWord isIpv6Char (asio.addressText address) ↔ address.hasScope = false := by
  cases address with
  | v4 a b c d => exact iff_of_true (isWord_v4 hasio a b c d) rfl
  | v6 groups scope =>
    cases scope with
    | none =>
      rw [hasio.v6]
      exact iff_of_true (isWord_groups groups) rfl
    | some scope =>
      refine iff_of_false ?_ (by simp [AsioAddress.hasScope])
      intro hword
      have hpercent : 37 ∈ asio.addressText (.v6 groups (some scope)) := by
        rw [hasio.scope]
        simp [text]
      exact absurd (hword.2 37 hpercent) (by decide)

theorem colon_mem_v6 (groups : Groups) (scope : Option (List UInt8)) :
    58 ∈ asio.addressText (.v6 groups scope) := by
  cases scope with
  | none =>
    rw [hasio.v6]
    exact groups.colon
  | some scope =>
    rw [hasio.scope]
    simp [groups.colon]

theorem streamed_eq (endpoint : AsioTCPAddress) :
    text "tcp://" ++ asio.streamed endpoint =
      URI.format ⟨text "tcp", asio.addressText endpoint.address, some endpoint.port⟩ := by
  obtain ⟨address, port⟩ := endpoint
  cases address with
  | v4 a b c d =>
    have hcolon : 58 ∉ asio.addressText (.v4 a b c d) :=
      URI.notMem_of_isWord (hasio.v4 a b c d) (by decide)
    rw [URI.format_tcp hcolon, hasio.streamed_v4]
    simp only [List.append_assoc]
  | v6 groups scope =>
    rw [URI.format_tcp_bracketed (colon_mem_v6 hasio groups scope), hasio.streamed_v6]
    simp only [List.append_assoc]
    rfl

/-- The string of an address is the text of its URI: asio writes brackets for the addresses of IPv6,
and these are the texts with a colon. -/
theorem toText_eq_format (a : Address) : a.toText asio = URI.format (a.toUri asio) := by
  cases a with
  | tcp a => exact streamed_eq hasio a.address
  | unixSocket a => exact (URI.format_unix a.path).symm

theorem wellFormed_toUri_iff (isText : List UInt8 → Bool) (a : Address) :
    URI.WellFormed isText (a.toUri asio) ↔ a.Expressible isText := by
  cases a with
  | tcp a =>
    rw [Address.Expressible, ← isWord_addressText_iff hasio]
    constructor
    · intro h
      cases h with
      | tcp _ hhost => exact hhost
    · exact .tcp _
  | unixSocket a =>
    constructor
    · intro h
      cases h with
      | unix hpath => exact hpath
    · exact .unix

end Texts

theorem isUri_iff (asio : Asio) (hasio : asio.Lawful) (re2 : URI.RE2) (hre2 : re2.Lawful)
    (a : Address) : a.IsUri asio re2 ↔ a.Expressible re2.isText := by
  rw [Address.IsUri, and_iff_left (toText_eq_format hasio a), URI.parse_format_iff hre2]
  exact wellFormed_toUri_iff hasio re2.isText a

/-- `[::1]:80` -/
def loopback : Address := .tcp ⟨⟨.v6 ⟨text "::1", by decide, by decide⟩, 80⟩⟩

theorem isUri_loopback : loopback.IsUri decimalAsio URI.utf8RE2 :=
  (isUri_iff decimalAsio decimalAsio_lawful URI.utf8RE2 (URI.backtrackingRE2_lawful URI.isUTF8)
    loopback).mpr rfl

/-- A link-local endpoint, `[fe80::1%eth0]:80`. -/
def linkLocal : Address :=
  .tcp ⟨⟨.v6 ⟨text "fe80::1", by decide, by decide⟩ (some (text "eth0")), 80⟩⟩

theorem link_local_is_no_uri : ¬ ∀ a : Address, a.IsUri decimalAsio URI.utf8RE2 := by
  intro h
  have hre2 := URI.backtrackingRE2_lawful URI.isUTF8
  have hwell := (URI.parse_format_iff hre2).mp (h linkLocal).1
  have hscope := (wellFormed_toUri_iff decimalAsio_lawful URI.isUTF8 linkLocal).mp hwell
  cases hscope

end MsgpackRpc.Addresses
