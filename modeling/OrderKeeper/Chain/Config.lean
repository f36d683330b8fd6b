import OrderKeeper.Json.Scalar

/-!
# Configured chains

The name, number and endpoint of a network as configured.
-/

namespace OrderKeeper

open Json (Record)

/-- A network as configured. -/
structure ChainConfig where
  network : String
  chainId : UInt64
  rpcUrl : String
  deriving DecidableEq, Repr

namespace ChainConfig

/-- Reads a configured network. -/
def record : Record ChainConfig :=
  ChainConfig.mk <$> Record.required "network" Json.string <*> Record.required "chainId" Json.uint64
    <*> Record.required "rpcUrl" Json.string

/-- The JSON form. -/
def toJson (c : ChainConfig) : Json :=
  .obj [("network", .str c.network), ("chainId", .ofUInt64 c.chainId), ("rpcUrl", .str c.rpcUrl)]

end ChainConfig

end OrderKeeper
