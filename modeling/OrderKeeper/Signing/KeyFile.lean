import OrderKeeper.Cipher.Aes
import OrderKeeper.Digest.Stretch
import OrderKeeper.Json.Reader
import OrderKeeper.Json.Scalar
import OrderKeeper.Signing.KeyText

/-!
# Key files

A key under a password, in JSON. The password is stretched to a longer key, of which one half encrypts and the other
half vouches for the encrypted text.
-/

namespace OrderKeeper

open Json (Record Decoder)

/-- How a password is stretched, and to how many bytes. -/
inductive KeyStretch where
  | repetition (count : UInt32) (length : UInt8) (salt : Bytes)
  | memory (length : UInt8) (n p r : UInt32) (salt : Bytes)
  deriving DecidableEq, Repr

/-- An encrypted key. -/
structure KeyFile where
  counter : Bytes
  ciphertext : Bytes
  stretch : KeyStretch
  mac : Bytes
  deriving DecidableEq, Repr

namespace KeyFile

/-! ## Reading -/

/-- Bytes in hexadecimal without a mark. -/
def bareBytes : Decoder Bytes
  | .str s =>
    match Hex.decode? s.toList with
    | some bs => .ok bs
    | none => .error .malformed
  | _ => .error .malformed

/-- Whether digits stand in groups of 8, 4, 4, 4 and 12 between hyphens. -/
def isHyphenated (s : List Char) : Bool :=
  s.length == 36 && s.zipIdx.all fun (c, i) =>
    if i = 8 ∨ i = 13 ∨ i = 18 ∨ i = 23 then c == '-' else (Hex.value? c).isSome

/-- Whether a text is an identifier of 128 bits: plain, with hyphens, in braces, or as a name. -/
def isIdentifier (s : List Char) : Bool :=
  (s.length == 32 && s.all fun c => (Hex.value? c).isSome) || isHyphenated s
    || (s.length == 38 && s.head? == some '{' && s.getLast? == some '}' && isHyphenated ((s.drop 1).take 36))
    || (s.take 9 == "urn:uuid:".toList && isHyphenated (s.drop 9))

/-- An identifier, which nothing is done with. -/
def identifier : Decoder Unit
  | .str s => if isIdentifier s.toList then .ok () else .error .malformed
  | _ => .error .malformed

/-- The parameters of stretching by repetition. -/
def repetition : Record KeyStretch :=
  (fun count length (_ : String) salt => .repetition count length salt) <$> Record.required "c" Json.uint32
    <*> Record.required "dklen" Json.uint8 <*> Record.required "prf" Json.string <*> Record.required "salt" bareBytes

/-- The parameters of stretching through a memory. -/
def memory : Record KeyStretch :=
  KeyStretch.memory <$> Record.required "dklen" Json.uint8 <*> Record.required "n" Json.uint32
    <*> Record.required "p" Json.uint32 <*> Record.required "r" Json.uint32 <*> Record.required "salt" bareBytes

/-- The parameters of stretching, told apart by what is there. -/
def stretchOf : Decoder KeyStretch := fun v =>
  match repetition.decode v with
  | .ok k => .ok k
  | .error _ => memory.decode v

/-- The names of the ways to stretch; the parameters alone tell which one is used. -/
def stretchName : Decoder Unit := Json.name Json.isNull [("pbkdf2", ()), ("scrypt", ())]

/-- The encrypted part. -/
def encrypted : Record KeyFile :=
  (fun (_ : String) counter ciphertext () stretch mac => ⟨counter, ciphertext, stretch, mac⟩)
    <$> Record.required "cipher" Json.string
    <*> Record.required "cipherparams" (Record.required "iv" bareBytes).decode
    <*> Record.required "ciphertext" bareBytes <*> Record.required "kdf" stretchName
    <*> Record.required "kdfparams" stretchOf <*> Record.required "mac" bareBytes

/-- The whole file. -/
def record : Record KeyFile :=
  (fun file () (_ : UInt8) => file) <$> Record.required "crypto" encrypted.decode
    <*> Record.required "id" identifier <*> Record.required "version" Json.uint8

/-! ## Decrypting -/

/-- Why a file gives no key. -/
inductive Locked where
  | missing
  | unreadable
  | badParameters
  | badLength
  | wrongMac
  | noKey (why : SigningKey.Unreadable)
  deriving DecidableEq, Repr

/-- The wording. -/
def Locked.message : Locked → String
  | missing => "IO: No such file or directory (os error 2)"
  | unreadable => "serde-json"
  | badParameters => "scrypt InvalidParams"
  | badLength => "scrypt InvalidOutputLen"
  | wrongMac => "Mac Mismatch"
  | noKey why => why.message

/-- The stretched password. -/
def stretched (password : Bytes) : KeyStretch → Except Locked Bytes
  | .repetition count length salt => .ok (Stretch.repetition password salt count.toNat length.toNat)
  | .memory length n p r salt =>
    let exponent := n.toNat.log2
    if r = 0 ∨ p = 0 ∨ r.toNat * 16 ≤ exponent ∨ 0x40000000 ≤ r.toNat * p.toNat then .error .badParameters
    else if length = 0 then .error .badLength
    else .ok (Stretch.memory password salt (1 <<< exponent) r.toNat p.toNat length.toNat)

/-- The key in a file. -/
def decrypt (file : KeyFile) (password : Bytes) : Except Locked SigningKey := do
  let key ← stretched password file.stretch
  if Keccak.digest ((key.drop 16).take 16 ++ file.ciphertext) ≠ file.mac then throw .wrongMac
  (SigningKey.ofBytes (Aes.stream (key.take 16) (file.counter.take 16) file.ciphertext)).mapError .noKey

/-- The key in the text of a file; there is no text where there is no file. -/
def open? (text : Option String) (password : Bytes) : Except Locked SigningKey :=
  match text with
  | none => .error .missing
  | some text =>
    match (Json.parse? text).map record.decode with
    | some (.ok file) => file.decrypt password
    | _ => .error .unreadable

end KeyFile

end OrderKeeper
