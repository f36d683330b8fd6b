import Mathlib.Data.List.Forall2
import OrderKeeper.Keeper.Basic

/-!
# What a keyring holds and signs

However keys are added, one after the other, with repetitions and with sources that hold no key: each addition gives the
account of the key that its source holds, if it holds one (`Gives`). A keyring has exactly the accounts that the additions
gave, each with a key of its own, and a source without a key might as well not have been tried. It signs exactly for its
accounts and for the chain that a transaction is bound to (`signs_of_addAll`).

An addition puts one key under its account, or fails (`addFrom_cases`); all that is said of many additions follows from
what `add` does (`has_add`, `Filed.add`).
-/

namespace OrderKeeper.Keyring

variable {r r' : Keyring} {k : SigningKey} {s : KeySource} {ss before after : List KeySource} {a : Address} {f : Fault}

/-! ## One addition -/

/-- Every key is filed under its own account. -/
def Filed (r : Keyring) : Prop := ∀ e ∈ r.keys, e.2.address = e.1

/-- What an addition gives: the account of the key that its source holds, if it holds one. A key itself is one, a text holds
one if it can be read, and a file if it can be opened. -/
inductive Gives : KeySource → Except Fault Address → Prop where
  | key (k : SigningKey) : Gives (.key k) (.ok k.address)
  | text {s : String} {k : SigningKey} : SigningKey.ofText s = .ok k → Gives (.text s) (.ok k.address)
  | unread {s : String} {e : SigningKey.Unreadable} : SigningKey.ofText s = .error e →
      Gives (.text s) (.error (.validation ("invalid private key: " ++ e.message)))
  | file {path : String} {text : Option String} {password : String} {k : SigningKey} :
      KeyFile.open? text password.toUTF8.toList = .ok k → Gives (.file path text password) (.ok k.address)
  | unopened {path : String} {text : Option String} {password : String} {e : KeyFile.Locked} :
      KeyFile.open? text password.toUTF8.toList = .error e →
      Gives (.file path text password) (.error (.validation ("failed to decrypt keystore " ++ path ++ ": " ++ e.message)))

theorem has_add (r : Keyring) (k : SigningKey) (a : Address) : (r.add k).has a = true ↔ r.has a = true ∨ a = k.address := by
  rw [has, has, add]
  by_cases h : k.address = a
  · subst h
    simp [Table.get?_set_self]
  · simp [Table.get?_set_of_ne _ _ h, Ne.symm h]

theorem Filed.add (h : r.Filed) (k : SigningKey) : (r.add k).Filed := by
  intro e he
  obtain rfl | he := Table.mem_set he
  · rfl
  · exact h e he

/-- An addition gives just this, whatever keys are there before it. -/
theorem gives_iff (r : Keyring) {answer : Except Fault Address} :
    Gives s answer ↔ (r.addFrom s).map Prod.snd = answer := by
  constructor
  · intro h
    cases h with
    | key => rfl
    | text hs | unread hs => rw [addFrom, addText, hs]; rfl
    | file hs | unopened hs => rw [addFrom, addFile, hs]; rfl
  · rintro rfl
    cases s with
    | key k => exact .key k
    | text s =>
      rw [addFrom, addText]
      cases hs : SigningKey.ofText s with
      | ok k => exact .text hs
      | error e => exact .unread hs
    | file path text password =>
      rw [addFrom, addFile]
      cases hs : KeyFile.open? text password.toUTF8.toList with
      | ok k => exact .file hs
      | error e => exact .unopened hs

theorem rightUnique_gives : Relator.RightUnique Gives :=
  fun _ _ _ h h' => ((gives_iff {}).1 h).symm.trans ((gives_iff {}).1 h')

/-- An addition puts a key under its account. -/
theorem addFrom_cases (h : r.addFrom s = .ok (r', a)) : ∃ k, r' = r.add k ∧ a = k.address := by
  cases s with
  | key k =>
    cases h
    exact ⟨k, rfl, rfl⟩
  | text s =>
    change r.addText s = _ at h
    rw [addText] at h
    split at h
    · cases h
      exact ⟨_, rfl, rfl⟩
    · cases h
  | file path text password =>
    change r.addFile path text password = _ at h
    rw [addFile] at h
    split at h
    · cases h
      exact ⟨_, rfl, rfl⟩
    · cases h

/-! ## Many additions -/

theorem addAll_of_ok (h : r.addFrom s = .ok (r', a)) :
    r.addAll (s :: ss) = ((r'.addAll ss).1, .ok a :: (r'.addAll ss).2) := by
  rw [addAll, h]

theorem addAll_of_error (h : r.addFrom s = .error f) :
    r.addAll (s :: ss) = ((r.addAll ss).1, .error f :: (r.addAll ss).2) := by
  rw [addAll, h]

/-- Each addition gives what its source holds. -/
theorem gives_addAll (r : Keyring) (ss : List KeySource) : List.Forall₂ Gives ss (r.addAll ss).2 := by
  induction ss generalizing r with
  | nil => exact .nil
  | cons s ss ih =>
    have hgives := (gives_iff r (s := s)).2 rfl
    cases h : r.addFrom s with
    | ok added =>
      rw [h] at hgives
      rw [addAll_of_ok h]
      exact .cons hgives (ih _)
    | error f =>
      rw [h] at hgives
      rw [addAll_of_error h]
      exact .cons hgives (ih r)

/-- There are the accounts that were there before, and those that the additions gave. -/
theorem has_addAll (r : Keyring) (ss : List KeySource) (a : Address) :
    (r.addAll ss).1.has a = true ↔ r.has a = true ∨ .ok a ∈ (r.addAll ss).2 := by
  induction ss generalizing r with
  | nil => simp [addAll]
  | cons s ss ih =>
    cases h : r.addFrom s with
    | ok added =>
      obtain ⟨r', b⟩ := added
      obtain ⟨k, rfl, rfl⟩ := addFrom_cases h
      simp [addAll_of_ok h, ih, has_add, or_assoc]
    | error f => simp [addAll_of_error h, ih]

theorem Filed.addAll (h : r.Filed) (ss : List KeySource) : (r.addAll ss).1.Filed := by
  induction ss generalizing r with
  | nil => exact h
  | cons s ss ih =>
    cases hs : r.addFrom s with
    | ok added =>
      obtain ⟨r', b⟩ := added
      obtain ⟨k, rfl, rfl⟩ := addFrom_cases hs
      rw [addAll_of_ok hs]
      exact ih (h.add k)
    | error f =>
      rw [addAll_of_error hs]
      exact ih h

/-- Additions go on from where earlier ones have come to. -/
theorem addAll_append (r : Keyring) (before after : List KeySource) :
    r.addAll (before ++ after) =
      (((r.addAll before).1.addAll after).1, (r.addAll before).2 ++ ((r.addAll before).1.addAll after).2) := by
  induction before generalizing r with
  | nil => rfl
  | cons s before ih =>
    cases h : r.addFrom s with
    | ok added => simp [addAll_of_ok h, ih]
    | error f => simp [addAll_of_error h, ih]

theorem length_addAll (r : Keyring) (ss : List KeySource) : (r.addAll ss).2.length = ss.length :=
  (gives_addAll r ss).length_eq.symm

/-- The answer to one of many additions is what it gives where the earlier ones have come to. -/
theorem addFrom_of_answer (h : (r.addAll (before ++ s :: after)).2[before.length]? = some (.error f)) :
    (r.addAll before).1.addFrom s = .error f := by
  rw [addAll_append, List.getElem?_append_right (by simp [length_addAll]), length_addAll, Nat.sub_self] at h
  cases hs : (r.addAll before).1.addFrom s with
  | ok added =>
    rw [addAll_of_ok hs] at h
    cases h
  | error g =>
    rw [addAll_of_error hs] at h
    cases h
    rfl

/-- Where the keys of a configuration come from: its private keys first, then its key files. -/
def sources (files : String → Option String) (c : Config) : List KeySource :=
  c.privateKeys.map .text ++ c.keyFiles.map fun f => .file f.path (files f.path) f.password

theorem addAll_of_foldlM (h : ss.foldlM (fun r s => (addFrom r s).map (·.1)) r = .ok r') :
    ∃ accounts : List Address, r.addAll ss = (r', accounts.map .ok) := by
  induction ss generalizing r with
  | nil =>
    cases h
    exact ⟨[], rfl⟩
  | cons s ss ih =>
    rw [List.foldlM_cons] at h
    cases hs : r.addFrom s with
    | ok added =>
      rw [hs] at h
      obtain ⟨accounts, ha⟩ := ih h
      exact ⟨added.2 :: accounts, by rw [addAll_of_ok hs, ha]; rfl⟩
    | error f =>
      rw [hs] at h
      cases h

/-- The keyring with which a keeper starts is made of the keys of its configuration, none of which may be missing. -/
theorem addAll_of_keysOf {files : String → Option String} {c : Config} (h : Keeper.keysOf files c = .ok r) :
    ∃ accounts : List Address, addAll {} (sources files c) = (r, accounts.map .ok) := by
  refine addAll_of_foldlM ?_
  rw [sources, List.foldlM_append, List.foldlM_map]
  simp only [List.foldlM_map]
  exact h

/-! ## Signatures -/

theorem signature_sign (t : Transaction) (s : Signature) : (t.sign s).signature = s := rfl

theorem sign_of_has {o : SigningOptions} {t : Transaction} (h : r.keys.get? o.account = some k)
    (ht : t.chainId? = some o.chainId) : r.sign o t = .ok (t.sign (k.sign t.signingHash)) := by
  rw [sign, h]
  exact if_pos ht

/-- What is signed is signed with a key of the account, for the chain of the transaction. -/
theorem cases_of_sign {o : SigningOptions} {t : Transaction} {x : SignedTransaction} (h : r.sign o t = .ok x) :
    ∃ k, r.keys.get? o.account = some k ∧ t.chainId? = some o.chainId ∧ x = t.sign (k.sign t.signingHash) := by
  rw [sign] at h
  split at h
  · cases h
  · rename_i k hk
    split at h
    · rename_i ht
      cases h
      exact ⟨k, hk, ht, rfl⟩
    · cases h

/-- A transaction is signed exactly if its account is there and it is bound to the chain that is asked for. -/
theorem exists_sign_iff (r : Keyring) (o : SigningOptions) (t : Transaction) :
    (∃ x, r.sign o t = .ok x) ↔ r.has o.account = true ∧ t.chainId? = some o.chainId := by
  constructor
  · rintro ⟨x, hx⟩
    obtain ⟨k, hk, ht, -⟩ := cases_of_sign hx
    exact ⟨by rw [has, hk]; rfl, ht⟩
  · rintro ⟨hhas, ht⟩
    obtain ⟨k, hk⟩ := Option.isSome_iff_exists.1 hhas
    exact ⟨_, sign_of_has hk ht⟩

/-- **What additions make of a keyring.** Each gives what its source holds. The keyring has exactly the accounts that they
gave, a failure changes nothing, and every key is filed under its own account. It then signs a transaction exactly if it has
the account that asks and the transaction is bound to the chain that is asked for; what it gives is that transaction with a
signature over its digest, made with a key of that account. -/
theorem signs_of_addAll (ss : List KeySource) :
    List.Forall₂ Gives ss (addAll {} ss).2 ∧
    (∀ a, (addAll {} ss).1.has a = true ↔ .ok a ∈ (addAll {} ss).2) ∧
    (∀ before s after f, ss = before ++ s :: after → (addAll {} ss).2[before.length]? = some (.error f) →
      (addAll {} (before ++ [s])).1 = (addAll {} before).1 ∧ (addAll {} ss).1 = (addAll {} (before ++ after)).1) ∧
    (∀ a k, (a, k) ∈ (addAll {} ss).1.keys → k.address = a) ∧
    ∀ o t,
      ((∃ x, (addAll {} ss).1.sign o t = .ok x) ↔
        (addAll {} ss).1.has o.account = true ∧ t.chainId? = some o.chainId) ∧
      ∀ x, (addAll {} ss).1.sign o t = .ok x → x.transaction = t ∧
        ∃ k, (o.account, k) ∈ (addAll {} ss).1.keys ∧ k.address = o.account ∧ x.signature = k.sign t.signingHash := by
  have hfiled : (addAll {} ss).1.Filed := Filed.addAll (r := {}) nofun ss
  refine ⟨gives_addAll {} ss, fun a => ?_, ?_, fun a k h => hfiled (a, k) h,
    fun o t => ⟨exists_sign_iff _ o t, fun x hx => ?_⟩⟩
  · rw [has_addAll]
    exact or_iff_right (by simp [has, Table.get?])
  · rintro before s after f rfl h
    have hs := addFrom_of_answer h
    refine ⟨?_, ?_⟩
    · rw [addAll_append, addAll_of_error hs]
      rfl
    · rw [addAll_append, addAll_of_error hs, addAll_append]
  · obtain ⟨k, hk, -, rfl⟩ := cases_of_sign hx
    have hmem := Table.mem_of_get? hk
    exact ⟨rfl, k, hmem, hfiled (o.account, k) hmem, signature_sign ..⟩

namespace Sample

/-- The key of the number two. -/
def key : SigningKey := ⟨2, by decide, by decide⟩

/-- The same key in a text. -/
def keyText : String := "0x0000000000000000000000000000000000000000000000000000000000000002"

theorem ofText_keyText : SigningKey.ofText keyText = .ok key := by
  have hsecret : (SigningKey.ofText keyText).toOption.map (·.secret) = some 2 := by decide +kernel
  generalize SigningKey.ofText keyText = read at hsecret
  cases read with
  | error e => cases hsecret
  | ok k =>
    obtain ⟨secret, pos, lt_order⟩ := k
    cases hsecret
    rfl

theorem exists_ofText_none : ∃ e, SigningKey.ofText "none" = .error e := by
  have hnone : (SigningKey.ofText "none").toOption.isNone = true := by decide +kernel
  generalize SigningKey.ofText "none" = read at hnone
  cases read with
  | error e => exact ⟨e, rfl⟩
  | ok k => cases hnone

/-- A text without a key, the key itself, a file that is not there, and the key once more, in a text. -/
def sources : List KeySource := [.text "none", .key key, .file "keys" none "", .text keyText]

end Sample

/-- Two of four additions succeed, both with the same account, and it can sign. -/
theorem signs_of_four_additions : ∃ f g x,
    (addAll {} Sample.sources).2 = [.error f, .ok Sample.key.address, .error g, .ok Sample.key.address] ∧
    (addAll {} Sample.sources).1.sign ⟨Sample.key.address, 1⟩ ⟨.dynamic 1 2 1, 0, 21000, none, 0, []⟩ = .ok x := by
  obtain ⟨hgives, hhas, -, -, hsign⟩ := signs_of_addAll Sample.sources
  obtain ⟨e, he⟩ := Sample.exists_ofText_none
  have hexpected : List.Forall₂ Gives Sample.sources [_, .ok Sample.key.address, _, .ok Sample.key.address] :=
    .cons (.unread he) (.cons (.key _) (.cons (.unopened rfl) (.cons (.text Sample.ofText_keyText) .nil)))
  have hanswers := List.right_unique_forall₂' rightUnique_gives hgives hexpected
  obtain ⟨x, hx⟩ := (hsign ⟨Sample.key.address, 1⟩ ⟨.dynamic 1 2 1, 0, 21000, none, 0, []⟩).1.2
    ⟨(hhas Sample.key.address).2 (by simp [hanswers]), rfl⟩
  exact ⟨_, _, x, hanswers, hx⟩

end OrderKeeper.Keyring
