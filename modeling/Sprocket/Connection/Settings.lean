import Sprocket.Connection.Address

/-!
# Connection settings

What a connection string sets. Each key has its own rule for the values it takes; a key or a value
that no rule allows makes the whole string invalid. Settings that are well formed still have to name
a server, and as many ports as servers or one for all.
-/

namespace Sprocket.Connection

/-- The servers and ports that were named, counted. -/
structure Endpoints where
  hosts : Nat
  addresses : Nat
  ports : Nat
  deriving DecidableEq, Repr

/-- No servers and no ports. -/
def Endpoints.none : Endpoints := ⟨0, 0, 0⟩

/-- The values a key takes. -/
inductive ValueRule where
  | anything
  | oneOf (words : List String)
  | integer (range : Number.IntRange)
  | hosts
  | addresses
  | ports
  deriving DecidableEq, Repr

/-- The range of sixteen bits without a sign. -/
def portRange : Number.IntRange := ⟨0, 65535⟩

/-- The range of thirty-two bits without a sign. -/
def retryRange : Number.IntRange := ⟨0, 4294967295⟩

/-- The range of sixty-four bits without a sign. -/
def switchRange : Number.IntRange := ⟨0, 18446744073709551615⟩

/-- The keys, each with the values it takes. -/
def rules : List (String × ValueRule) :=
  [("user", .anything), ("password", .anything), ("dbname", .anything), ("options", .anything),
    ("application_name", .anything), ("sslmode", .oneOf ["disable", "prefer", "require"]),
    ("sslnegotiation", .oneOf ["postgres", "direct"]), ("host", .hosts),
    ("hostaddr", .addresses), ("port", .ports), ("connect_timeout", .integer Number.int64Range),
    ("tcp_user_timeout", .integer Number.int64Range), ("keepalives", .integer switchRange),
    ("keepalives_idle", .integer Number.int64Range),
    ("keepalives_interval", .integer Number.int64Range),
    ("keepalives_retries", .integer retryRange),
    ("target_session_attrs", .oneOf ["any", "read-write", "read-only"]),
    ("channel_binding", .oneOf ["disable", "prefer", "require"]),
    ("load_balance_hosts", .oneOf ["disable", "random"])]

/-- The pieces between commas. -/
def listed (s : String) : List (List Char) := Text.pieces ',' s.toList

/-- Whether a text is the number of one of the ports; the empty text stands for the usual one. -/
def isPort (s : List Char) : Bool := s.isEmpty || (portRange.read? s).isSome

/-- The servers and ports after a value is taken under a rule, if it may be. -/
def ValueRule.take? (rule : ValueRule) (value : String) (e : Endpoints) : Option Endpoints :=
  match rule with
  | anything => some e
  | oneOf words => if words.contains value then some e else Option.none
  | integer range => (range.read? value.toList).map fun _ => e
  | hosts => some { e with hosts := e.hosts + (listed value).length }
  | addresses =>
    if (listed value).all fun s => Address.isAddress (String.ofList s) then
      some { e with addresses := e.addresses + (listed value).length }
    else Option.none
  | ports =>
    if (listed value).all isPort then some { e with ports := e.ports + (listed value).length }
    else Option.none

/-- Applies one setting. -/
def Endpoints.set? (e : Endpoints) (key value : String) : Option Endpoints :=
  (rules.lookup key).bind fun rule => rule.take? value e

/-- Whether servers and ports fit together: a server is named, by host or by address, as many
addresses as hosts where both are given, and as many ports as servers or at most one for all. -/
def Endpoints.consistent (e : Endpoints) : Bool :=
  (e.hosts != 0 || e.addresses != 0)
    && (e.hosts == 0 || e.addresses == 0 || e.hosts == e.addresses)
    && (e.ports ≤ 1 || e.ports == max e.hosts e.addresses)

end Sprocket.Connection
