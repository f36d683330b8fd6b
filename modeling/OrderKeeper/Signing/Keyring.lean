import OrderKeeper.Fault
import OrderKeeper.Signing.KeyFile
import OrderKeeper.Signing.Options
import OrderKeeper.Table

/-!
# Keyrings

The keys that a keeper signs with, each under its own account. A transaction is signed for the account that asks, and only
for the chain that it is bound to.
-/

namespace OrderKeeper

/-- Keys by their accounts. -/
structure Keyring where
  keys : Table Address SigningKey := []

/-- Where a key comes from: it is given itself, in a text, or in the file at a path. -/
inductive KeySource where
  | key (key : SigningKey)
  | text (text : String)
  | file (path : String) (text : Option String) (password : String)

namespace Keyring

/-- Whether there is a key of an account. -/
def has (r : Keyring) (a : Address) : Bool := (r.keys.get? a).isSome

/-- The accounts. -/
def addresses (r : Keyring) : List Address := r.keys.keys

/-- Adds a key. -/
def add (r : Keyring) (k : SigningKey) : Keyring := ⟨r.keys.set k.address k⟩

/-- Adds the key that a text writes, and gives its account. -/
def addText (r : Keyring) (text : String) : Except Fault (Keyring × Address) :=
  match SigningKey.ofText text with
  | .ok k => .ok (r.add k, k.address)
  | .error e => .error (.validation ("invalid private key: " ++ e.message))

/-- Adds the key in the file at a path, and gives its account. -/
def addFile (r : Keyring) (path : String) (text : Option String) (password : String) :
    Except Fault (Keyring × Address) :=
  match KeyFile.open? text password.toUTF8.toList with
  | .ok k => .ok (r.add k, k.address)
  | .error e => .error (.validation ("failed to decrypt keystore " ++ path ++ ": " ++ e.message))

/-- Adds the key of a source, and gives its account. -/
def addFrom (r : Keyring) : KeySource → Except Fault (Keyring × Address)
  | .key k => .ok (r.add k, k.address)
  | .text s => r.addText s
  | .file path text password => r.addFile path text password

/-- Adds the keys of sources one after the other, and gives what each addition gives. A source without a key is passed
over. -/
def addAll (r : Keyring) : List KeySource → Keyring × List (Except Fault Address)
  | [] => (r, [])
  | s :: ss =>
    match r.addFrom s with
    | .ok (r, a) =>
      let (r, answers) := r.addAll ss
      (r, .ok a :: answers)
    | .error f =>
      let (r, answers) := r.addAll ss
      (r, .error f :: answers)

/-- The chain that a transaction is bound to, in a message. -/
def chainText : Option UInt64 → String
  | some c => "Some(" ++ toString c.toNat ++ ")"
  | none => "None"

/-- Signs a transaction. -/
def sign (r : Keyring) (o : SigningOptions) (t : Transaction) : Except Fault SignedTransaction :=
  match r.keys.get? o.account with
  | none => .error (.signing o.account "no key for this address in the keystore")
  | some k =>
    if t.chainId? = some o.chainId then .ok (t.sign (k.sign t.signingHash))
    else
      .error (.signing o.account ("transaction chain id " ++ chainText t.chainId? ++ " does not match signing chain id "
        ++ toString o.chainId.toNat))

/-- What is signed is the transaction that was given. -/
theorem transaction_of_sign {r : Keyring} {o : SigningOptions} {t : Transaction} {x : SignedTransaction}
    (h : r.sign o t = .ok x) : x.transaction = t := by
  unfold sign at h
  split at h
  · cases h
  · split at h
    · cases h
      rfl
    · cases h

end Keyring

end OrderKeeper
