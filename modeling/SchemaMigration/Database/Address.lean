import SchemaMigration.Database.Error

/-!
# SchemaMigration.Database.Address

Where a database is: the address of a database server.

* `Address.redact` : the address without its password.
* `Address.problem?` : what makes a text no address.
* `Address.connectError` : why no server is reached.
-/

namespace SchemaMigration
namespace Address

open Text

/-- The address with three stars for the password, which stands between the first colon of the
user's part and the last at-sign. -/
def redact (address : String) : String :=
  match cutFirstText? "://".toList address.toList with
  | none => address
  | some (scheme, rest) =>
    match cutLast? '@' rest with
    | none => address
    | some (credentials, host) =>
      match cutFirst? ':' credentials with
      | none => address
      | some (user, _) =>
        String.ofList (scheme ++ "://".toList ++ user ++ ":***@".toList ++ host)

inductive Problem where
  | noScheme
  | badPort
deriving DecidableEq, Repr

def Problem.message : Problem → String
  | noScheme => "relative URL without a base"
  | badPort => "invalid port number"

def isSchemeChar (c : Char) : Bool := c.isAlphanum || c == '+' || c == '-' || c == '.'

def afterScheme? (text : List Char) : Option (List Char) :=
  match cutFirst? ':' text with
  | some (first :: more, rest) =>
    if first.isAlpha && more.all isSchemeChar then some rest else none
  | _ => none

/-- The part between the two slashes and the path, the query or the fragment. -/
def authority (rest : List Char) : List Char :=
  match dropStart? ['/', '/'] rest with
  | none => []
  | some text => text.takeWhile fun c => !(c == '/' || c == '?' || c == '#')

/-- Host and port, without the user's part. -/
def hostAndPort (authority : List Char) : List Char :=
  match cutLast? '@' authority with
  | none => authority
  | some (_, host) => host

/-- The text of the port; a host in brackets may hold colons. -/
def portText (host : List Char) : List Char :=
  let beyond :=
    match host with
    | '[' :: rest => rest.dropWhile (· ≠ ']')
    | _ => host
  match cutFirst? ':' beyond with
  | none => []
  | some (_, port) => port

/-- Whether a port is a number of 16 bits, or left open. -/
def isPort (port : List Char) : Bool :=
  port.all Char.isDigit && port.foldl (fun n c => 10 * n + (c.toNat - 48)) 0 < 65536

def problem? (address : String) : Option Problem :=
  match afterScheme? address.toList with
  | none => some .noScheme
  | some rest =>
    if isPort (portText (hostAndPort (authority rest))) then none else some .badPort

/-- Why no server is reached: the address is malformed, or nothing answers there. -/
def connectError (address : String) : DatabaseError :=
  let failure : ServerFailure :=
    match problem? address with
    | some problem => .configuration problem.message
    | none => .io "Connection refused (os error 111)"
  .connection (failure.message ++ ": " ++ redact address)

end Address
end SchemaMigration
