import StorageHealth.Url
import StorageHealth.Driver.Error

/-!
# Addresses of a driver

A driver listens on a local socket.  Its address is a path, with or without `unix://` in front, or
a URL that starts with `http://` or `https://`.  A URL must be well formed; a well-formed one is
accepted and then nobody answers, because only the local socket is served.  A path must be short
enough for the address of a socket.
-/

namespace StorageHealth

namespace Address

/-! ### Connecting -/

/-- What follows `head`, if the address starts with it. -/
def after? (head : String) (address : List Char) : Option (List Char) :=
  if head.toList.isPrefixOf address then some (address.drop head.length) else none

/-- What follows the scheme of a URL. -/
def url? (address : List Char) : Option (List Char) :=
  (after? "http://" address).or (after? "https://" address)

/-- The components of a path. -/
def components : List Char → List (List Char)
  | [] => [[]]
  | c :: rest =>
    if c = '/' then [] :: components rest
    else
      match components rest with
      | [] => [[c]]
      | part :: parts => (c :: part) :: parts

/-- Whether a path leads to `socket` in the working directory: nothing but that name, after steps
that stay where they are. -/
def leadsTo (socket : String) (path : List Char) : Bool :=
  let parts := components path
  path.head? != some '/' && parts.getLast? == some socket.toList &&
    parts.dropLast.all (fun p => p == [] || p == ['.'])

/-- The longest path of a socket in bytes. -/
def maxPath : Nat := 107

/-- Connects to an address while a driver listens on `socket` in the working directory. -/
def connect (socket address : String) : Except DriverError Unit :=
  match url? address.toList with
  | some rest =>
    if Url.isWellFormed rest && decide (address.utf8ByteSize ≤ Url.maxLength) then
      .error (.unreachable address)
    else .error (.invalidAddress address)
  | none =>
    let path := (after? "unix://" address.toList).getD address.toList
    if leadsTo socket path && decide ((String.ofList path).utf8ByteSize ≤ maxPath) then .ok ()
    else .error (.unreachable address)

end Address

end StorageHealth
