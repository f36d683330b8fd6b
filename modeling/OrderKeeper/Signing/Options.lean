import OrderKeeper.Json.Scalar

/-!
# Signing options

Which account signs, and for which chain.
-/

namespace OrderKeeper

open Json (Record)

/-- Which account signs, and for which chain. -/
structure SigningOptions where
  account : Address
  chainId : UInt64
  deriving DecidableEq, Repr

namespace SigningOptions

/-- Reads signing options. -/
def record : Record SigningOptions :=
  SigningOptions.mk <$> Record.required "from" Json.address <*> Record.required "chainId" Json.uint64

/-- The JSON form. -/
def toJson (o : SigningOptions) : Json :=
  .obj [("from", .ofAddress o.account), ("chainId", .ofUInt64 o.chainId)]

end SigningOptions

end OrderKeeper
