import HomeHub.NativeApi.Failure

/-!
# Opening a connection

The client looks up the host of a target and connects to the first address found.
-/

namespace HomeHub.NativeApi

/-- What the client finds outside: the addresses of hosts, and which addresses accept a
connection. -/
structure Surroundings where
  addresses : String → UInt16 → Except String (List String)
  accepts : String → Except String Unit

/-- A host name that holds a zero character cannot be looked up. -/
def isLookable (host : String) : Bool := host.toList.all (· != '\x00')

/-- The address that a connection was opened to. -/
def Surroundings.connect (s : Surroundings) (t : Target) : Except Failure String :=
  match if isLookable t.host then s.addresses t.host t.port else .error "zero in host name" with
  | .error reason => .error (.resolve t.host reason)
  | .ok [] => .error (.noAddress t.host)
  | .ok (address :: _) =>
    match s.accepts address with
    | .error reason => .error (.connect address reason)
    | .ok () => .ok address

end HomeHub.NativeApi
