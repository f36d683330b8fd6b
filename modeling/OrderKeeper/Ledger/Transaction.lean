import OrderKeeper.Digest.Keccak
import OrderKeeper.Ledger.Rlp

/-!
# Transactions

Unsigned and signed transactions in both fee formats, what is signed of them, and the bytes that are broadcast. A legacy
transaction that names a chain is signed for that chain alone.
-/

namespace OrderKeeper

/-- The fee format of a transaction, with its prices and its chain. -/
inductive FeeFormat where
  /-- One gas price; the chain is left open where none is named. -/
  | legacy (chainId : Option UInt64) (gasPrice : Wei)
  /-- A cap on the whole fee and a tip for the block's producer. -/
  | dynamic (chainId : UInt64) (feeCap : Wei) (tip : Wei)
  deriving DecidableEq, Repr

/-- An unsigned transaction. -/
structure Transaction where
  format : FeeFormat
  nonce : UInt64
  gasLimit : UInt64
  /-- The called account; a transaction without one creates a contract. -/
  recipient : Option Address
  value : Word
  input : Bytes
  deriving DecidableEq, Repr

/-- A signature over a digest. -/
structure Signature where
  r : Nat
  s : Nat
  /-- Whether the ordinate of the signature's point is odd. -/
  odd : Bool
  deriving DecidableEq, Repr

/-- A transaction with its signature and its hash. -/
structure SignedTransaction where
  transaction : Transaction
  signature : Signature
  hash : Hash
  deriving DecidableEq, Repr

namespace Transaction

open Rlp (Item)

/-- The chain that the transaction is bound to. -/
def chainId? (t : Transaction) : Option UInt64 :=
  match t.format with
  | .legacy chainId _ => chainId
  | .dynamic chainId _ _ => some chainId

/-- Whether the transaction has one gas price. -/
def isLegacy (t : Transaction) : Bool :=
  match t.format with
  | .legacy .. => true
  | .dynamic .. => false

/-- The account that is called. -/
def toItem (t : Transaction) : Item :=
  match t.recipient with
  | some a => .bytes a.bytes
  | none => .bytes []

/-- The fields before the signature. -/
def fields (t : Transaction) : List Item :=
  match t.format with
  | .legacy _ gasPrice =>
    [.nat t.nonce.toNat, .nat gasPrice.toNat, .nat t.gasLimit.toNat, t.toItem, .nat t.value.toNat, .bytes t.input]
  | .dynamic chainId feeCap tip =>
    [.nat chainId.toNat, .nat t.nonce.toNat, .nat tip.toNat, .nat feeCap.toNat, .nat t.gasLimit.toNat, t.toItem,
      .nat t.value.toNat, .bytes t.input, .list []]

/-- The bytes whose digest is signed. -/
def signingBytes (t : Transaction) : Bytes :=
  match t.format with
  | .legacy none _ => (Item.list t.fields).encode
  | .legacy (some chainId) _ => (Item.list (t.fields ++ [.nat chainId.toNat, .nat 0, .nat 0])).encode
  | .dynamic .. => 0x02 :: (Item.list t.fields).encode

/-- The digest that is signed. -/
def signingHash (t : Transaction) : Hash := Keccak.hash t.signingBytes

/-- The recovery value of a signature in a legacy transaction. -/
def legacyRecovery (chainId : Option UInt64) (odd : Bool) : Nat :=
  match chainId with
  | none => 27 + odd.toNat
  | some c => 35 + 2 * c.toNat + odd.toNat

/-- The bytes that are broadcast under a signature. -/
def signedBytes (t : Transaction) (s : Signature) : Bytes :=
  match t.format with
  | .legacy chainId _ =>
    (Item.list (t.fields ++ [.nat (legacyRecovery chainId s.odd), .nat s.r, .nat s.s])).encode
  | .dynamic .. => 0x02 :: (Item.list (t.fields ++ [.nat s.odd.toNat, .nat s.r, .nat s.s])).encode

/-- The transaction under a signature, with the hash of the bytes that are broadcast. -/
def sign (t : Transaction) (s : Signature) : SignedTransaction := ⟨t, s, Keccak.hash (t.signedBytes s)⟩

end Transaction

/-- The bytes that are broadcast. -/
def SignedTransaction.bytes (t : SignedTransaction) : Bytes := t.transaction.signedBytes t.signature

end OrderKeeper
