import OrderKeeper.Chain.Config
import OrderKeeper.Fault
import OrderKeeper.Table
import OrderKeeper.Url.Basic

/-!
# The registry of chains

The chains that are configured, by the names of their networks. A registry is built from the first configuration to the
last, and the first one that is not acceptable tells what is wrong: a network without a name, an endpoint that is no
address, or a name that has been used before.
-/

namespace OrderKeeper

/-- A chain that is ready for use. -/
structure Chain where
  network : String
  chainId : UInt64
  endpoint : Url
  deriving DecidableEq, Repr

namespace Chain

/-- The chain of a configuration. -/
def ofConfig (c : ChainConfig) : Except Fault Chain :=
  if c.network.isEmpty then .error (.configuration "network name cannot be empty")
  else
    match Url.ofText c.rpcUrl with
    | .ok endpoint => .ok ⟨c.network, c.chainId, endpoint⟩
    | .error e => .error (.configuration ("Failed to parse RPC URL for " ++ c.network ++ ": " ++ e.message))

end Chain

/-- Chains by their networks. -/
structure Registry where
  chains : Table String Chain := []
  deriving DecidableEq, Repr

namespace Registry

/-- The chain of a network. -/
def get (r : Registry) (network : String) : Except Fault Chain :=
  match r.chains.get? network with
  | some c => .ok c
  | none => .error (.configuration ("network " ++ network ++ " is not supported"))

/-- The names of the networks. -/
def networks (r : Registry) : List String := r.chains.keys

/-- Adds a chain under a name that has not been used. -/
def add (r : Registry) (c : ChainConfig) : Except Fault Registry := do
  let chain ← Chain.ofConfig c
  if (r.chains.get? c.network).isSome then
    throw (.configuration ("network " ++ c.network ++ " is configured more than once"))
  return ⟨r.chains.set c.network chain⟩

/-- The registry of all configurations. -/
def ofConfigs (cs : List ChainConfig) : Except Fault Registry := cs.foldlM add {}

end Registry

end OrderKeeper
