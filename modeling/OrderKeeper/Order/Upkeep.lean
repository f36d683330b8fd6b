import OrderKeeper.Fault

/-!
# The answer of an upkeep check

The answer is a flag and a byte string. Only the bounds that reading them needs are checked: the flag is true for any
word but zero, and the string may lie anywhere.
-/

namespace OrderKeeper.Upkeep

/-- Why an answer shows no flag. -/
inductive Unreadable where
  /-- There is no data at all. -/
  | noData
  /-- The data ends too early. -/
  | outOfBounds
  deriving DecidableEq, Repr

/-- The number written in the 32 bytes at an offset. -/
def wordAt (data : Bytes) (offset : Nat) : Nat := Bytes.toNat ((data.drop offset).take 32)

/-- The flag of an answer. -/
def flag? (data : Bytes) : Except Unreadable Bool :=
  if data.isEmpty then .error .noData
  else
    let offset := wordAt data 32
    if 64 ≤ data.length ∧ offset + 32 ≤ data.length ∧ offset + 32 + wordAt data offset ≤ data.length then
      .ok (wordAt data 0 != 0)
    else .error .outOfBounds

/-- The flag of an answer of the contract at an address. -/
def decode (contract : Address) (chainId : UInt64) (data : Bytes) : Except Fault Bool :=
  match flag? data with
  | .ok b => .ok b
  | .error .noData => .error (.ofContract (some contract) chainId (.noData "checkUpkeep"))
  | .error .outOfBounds => .error (.ofContract (some contract) chainId
      (.undecodable "ABI decoding failed: buffer overrun while deserializing"))

/-- A node that answers that the call reverted speaks of the contract; any other fault stays as it is. -/
def ofCallFault (contract : Address) (f : Fault) : Fault :=
  match f with
  | .rpc chainId _ _ (.errorResponse r) =>
    if Case.mentions r.message "revert" then .ofContract (some contract) chainId (.reverted r.message) else f
  | _ => f

end OrderKeeper.Upkeep
