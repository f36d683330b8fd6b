import Mathlib.Data.List.Forall2
import Mathlib.Tactic.SplitIfs
import OrderKeeper.Json.Printer
import OrderKeeper.Json.Token

/-!
# The tokens of compact text

`Writes s ts` says that the text `s` has the tokens `ts` wherever a value may stand: at the end of a text, or before a
comma or the end of a container. Strings of any characters (`writes_quote`), integers of at most 64 bits
(`writes_integer`) and the three words write one token each; pieces with commas between them write the tokens of the
pieces (`writes_intercalate`).
-/

namespace OrderKeeper.Json

open Token

/-- The end of a text, or text that goes on after a value of a container. -/
def Delimited : List Char → Prop
  | [] => True
  | c :: _ => c = ',' ∨ c = ']' ∨ c = '\x7d'

/-- The text `s` has the tokens `ts` wherever a value may stand. -/
def Writes (s : List Char) (ts : List Token) : Prop :=
  ∀ rest, Delimited rest → tokens (s ++ rest) = (ts ++ (tokens rest).1, (tokens rest).2)

variable {s r q rest : List Char} {t : Token} {ts : List Token} {v : Json} {c : Char}

/-- The first token of a text is followed by the tokens of what it leaves. -/
theorem tokens_of_next? (hc : isSpace c = false) (h : next? (c :: r) = some (t, q)) (hq : q.length ≤ r.length) :
    tokens (c :: r) = (t :: (tokens q).1, (tokens q).2) := by
  rw [tokens]
  simp [hc, h, hq]

theorem tokens_of_writes (h : Writes s ts) : tokens s = (ts, true) := by
  simpa [tokens] using h [] trivial

theorem writes_nil : Writes [] [] := fun _ _ => rfl

/-! ## Punctuation -/

theorem tokens_comma : tokens (',' :: r) = (.comma :: (tokens r).1, (tokens r).2) :=
  tokens_of_next? rfl rfl (Nat.le_refl _)

theorem tokens_colon : tokens (':' :: r) = (.colon :: (tokens r).1, (tokens r).2) :=
  tokens_of_next? rfl rfl (Nat.le_refl _)

theorem writes_array (h : Writes s ts) : Writes ('[' :: s ++ [']']) (.beginArray :: ts ++ [.endArray]) := by
  intro rest _
  have hend : tokens (']' :: rest) = (.endArray :: (tokens rest).1, (tokens rest).2) :=
    tokens_of_next? rfl rfl (Nat.le_refl _)
  have hbegin : tokens ('[' :: (s ++ ']' :: rest)) =
      (.beginArray :: (tokens (s ++ ']' :: rest)).1, (tokens (s ++ ']' :: rest)).2) :=
    tokens_of_next? rfl rfl (Nat.le_refl _)
  have hs := h (']' :: rest) (.inr (.inl rfl))
  simp [hbegin, hs, hend]

theorem writes_object (h : Writes s ts) :
    Writes ('\x7b' :: s ++ ['\x7d']) (.beginObject :: ts ++ [.endObject]) := by
  intro rest _
  have hend : tokens ('\x7d' :: rest) = (.endObject :: (tokens rest).1, (tokens rest).2) :=
    tokens_of_next? rfl rfl (Nat.le_refl _)
  have hbegin : tokens ('\x7b' :: (s ++ '\x7d' :: rest)) =
      (.beginObject :: (tokens (s ++ '\x7d' :: rest)).1, (tokens (s ++ '\x7d' :: rest)).2) :=
    tokens_of_next? rfl rfl (Nat.le_refl _)
  have hs := h ('\x7d' :: rest) (.inr (.inr rfl))
  simp [hbegin, hs, hend]

/-- Pieces with commas between them. -/
theorem writes_intercalate {pieces : List (List Char)} {tss : List (List Token)} (h : List.Forall₂ Writes pieces tss) :
    Writes ([','].intercalate pieces) ([.comma].intercalate tss) := by
  induction h with
  | nil => exact writes_nil
  | @cons p ts ps tss hp hps ih =>
    cases hps with
    | nil => simpa using hp
    | @cons p' ts' ps tss hp' hps =>
      intro rest hrest
      rw [List.intercalate_cons_cons, List.intercalate_cons_cons]
      have hfirst := hp (',' :: ([','].intercalate (p' :: ps) ++ rest)) (.inl rfl)
      simp only [List.append_assoc, List.cons_append, List.nil_append] at hfirst ⊢
      rw [hfirst, tokens_comma, ih rest hrest]

/-! ## Words -/

/-- A text of one token. -/
theorem writes_token (hc : isSpace c = false)
    (h : ∀ rest, Delimited rest → next? (c :: (s ++ rest)) = some (t, rest)) : Writes (c :: s) [t] := by
  intro rest hrest
  exact tokens_of_next? hc (h rest hrest) (by simp)

theorem writes_null : Writes "null".toList [.leaf .null] := writes_token rfl fun _ _ => rfl

theorem writes_true : Writes "true".toList [.leaf (.bool true)] := writes_token rfl fun _ _ => rfl

theorem writes_false : Writes "false".toList [.leaf (.bool false)] := writes_token rfl fun _ _ => rfl

/-! ## Strings -/

/-- A control character is written in four hexadecimal digits. -/
theorem unit?_control (hc : c.toNat < 32) :
    unit? ('0' :: '0' :: Hex.digit (c.toNat / 16) :: Hex.digit (c.toNat % 16) :: r) = some c.toNat := by
  have hzero : Hex.value? '0' = some 0 := rfl
  have hhigh := Hex.value?_digit (c.toNat / 16) (by omega)
  have hlow := Hex.value?_digit (c.toNat % 16) (by omega)
  simp only [unit?, hzero, hhigh, hlow, Option.bind_eq_bind, Option.bind_some]
  exact congrArg some (by omega)

/-- What stands for a character of a string is read as that character. -/
theorem string?_escapeChar :
    string? 0 (escapeChar c ++ r) = (string? 0 r).map fun (cs, t) => (c :: cs, t) := by
  unfold escapeChar
  split_ifs with hquote hslash hplain h8 hc hn hr ht
  · subst hquote; rfl
  · subst hslash; rfl
  · have hprintable : ¬ c.toNat < 32 := by omega
    simp [string?, hquote, hslash, hprintable]
  · subst h8; rfl
  · subst hc; rfl
  · subst hn; rfl
  · subst hr; rfl
  · subst ht; rfl
  · have hcontrol : c.toNat < 32 := by omega
    have hunicode : unicode? ('0' :: '0' :: Hex.digit (c.toNat / 16) :: Hex.digit (c.toNat % 16) :: r) =
        some (c, 4) := by
      have hsmall : c.toNat < 0xd800 := by omega
      simp [unicode?, unit?_control hcontrol, hsmall]
    simp [string?, escape?, hunicode]

theorem string?_quoted (cs : List Char) : string? 0 (cs.flatMap escapeChar ++ '"' :: r) = some (cs, r) := by
  induction cs with
  | nil => rfl
  | cons c cs ih => simp [string?_escapeChar, ih]

/-- A string in quotes is read whatever follows it. -/
theorem tokens_quote (s : String) : tokens ((quote s).toList ++ r) = (.text s :: (tokens r).1, (tokens r).2) := by
  have htext : (quote s).toList ++ r = '"' :: (s.toList.flatMap escapeChar ++ '"' :: r) := by simp [quote]
  rw [htext]
  refine tokens_of_next? rfl ?_ (by simp only [List.length_append, List.length_cons]; omega)
  simp [next?, string?_quoted]

theorem writes_quote (s : String) : Writes (quote s).toList [.text s] := fun _ _ => tokens_quote s

/-- A member writes its name, a colon and the tokens of its value. -/
theorem writes_member (name : String) (h : Writes s ts) :
    Writes ((quote name).toList ++ ':' :: s) (.text name :: .colon :: ts) := by
  intro rest hrest
  simp [tokens_quote, tokens_colon, h rest hrest]

/-! ## Integers -/

theorem digits_append {ds : List Char} (h : ∀ c ∈ ds, c.isDigit) (hrest : Delimited rest) :
    digits (ds ++ rest) = (ds.map fun c => c.toNat - 48, rest) := by
  induction ds with
  | nil =>
    cases rest with
    | nil => rfl
    | cons c rest => rcases hrest with rfl | rfl | rfl <;> rfl
  | cons c ds ih =>
    have hc := h c (by simp)
    simp [digits, hc, ih fun c hc => h c (by simp [hc])]

theorem fraction?_of_delimited (h : Delimited rest) : fraction? rest = some ([], rest) := by
  cases rest with
  | nil => rfl
  | cons c rest => rcases h with rfl | rfl | rfl <;> rfl

theorem exponent?_of_delimited (h : Delimited rest) : exponent? rest = some (none, rest) := by
  cases rest with
  | nil => rfl
  | cons c rest => rcases h with rfl | rfl | rfl <;> rfl

theorem foldl_digitsOf (n : Nat) : (Number.digitsOf n).foldl (fun n d => 10 * n + d) 0 = n := by
  rw [Number.digitsOf, List.foldl_map]
  exact Nat.ofDigitChars_toDigits (by decide) (by decide)

theorem digitsOf_ne_nil (n : Nat) : Number.digitsOf n ≠ [] := by
  simp [Number.digitsOf, Nat.toDigits_ne_nil]

/-- No number but zero begins with the digit zero. -/
theorem head?_digitsOf (n : Nat) (h : 0 < n) : (Number.digitsOf n).head? ≠ some 0 := by
  induction n using Nat.strongRecOn with
  | ind n ih =>
    by_cases hn : n < 10
    · simp [Number.digitsOf, Nat.toDigits_of_lt_base hn, Nat.toNat_digitChar_sub_48_of_lt_ten hn, Nat.ne_of_gt h]
    · have hrec := ih (n / 10) (by omega) (by omega)
      have hne := digitsOf_ne_nil (n / 10)
      rw [Number.digitsOf, Nat.toDigits_of_base_le (by decide) (by omega), List.map_append]
      rw [Number.digitsOf] at hrec hne
      rwa [List.head?_append_of_ne_nil _ hne]

theorem plain_digitsOf (n : Nat) :
    ((Number.digitsOf n).isEmpty || ((Number.digitsOf n).head? == some 0 && 1 < (Number.digitsOf n).length)) = false := by
  cases n with
  | zero => rfl
  | succ n => simp [digitsOf_ne_nil, head?_digitsOf (n + 1) (by omega)]

theorem toList_toString_natCast (n : Nat) : (toString (n : Int)).toList = Nat.toDigits 10 n := Nat.toList_repr

theorem toList_toString_negSucc (n : Nat) : (toString (Int.negSucc n)).toList = '-' :: Nat.toDigits 10 (n + 1) := by
  have htext : toString (Int.negSucc n) = "-" ++ (n + 1).repr := rfl
  rw [htext, String.toList_append, Nat.toList_repr]
  rfl

theorem digits_toDigits (n : Nat) (hrest : Delimited rest) :
    digits (Nat.toDigits 10 n ++ rest) = (Number.digitsOf n, rest) :=
  digits_append (fun _ hc => Nat.isDigit_of_mem_toDigits (by decide) (by decide) hc) hrest

theorem ne_of_numeric (hc : c = '-' ∨ c.isDigit) {d : Char} (hd : d ≠ '-' ∧ d.isDigit = false) : c ≠ d := by
  rintro rfl
  simp [hd] at hc

/-- A minus sign or a digit begins a number. -/
theorem next?_eq_number? (hc : c = '-' ∨ c.isDigit) :
    next? (c :: r) = (number? (c :: r)).map fun (v, t) => (.leaf v, t) := by
  have ht : c ≠ 't' := ne_of_numeric hc (by decide)
  have hf : c ≠ 'f' := ne_of_numeric hc (by decide)
  have hn : c ≠ 'n' := ne_of_numeric hc (by decide)
  rw [next?]
  · simp [ht, hf, hn]
  all_goals exact ne_of_numeric hc (by decide)

/-- A text that is read as one number. -/
theorem writes_number (hc : c = '-' ∨ c.isDigit)
    (h : ∀ rest, Delimited rest → number? (c :: (s ++ rest)) = some (v, rest)) : Writes (c :: s) [.leaf v] := by
  have hspace : isSpace c = false := by
    have hne {d : Char} (hd : d ≠ '-' ∧ d.isDigit = false) : (c == d) = false :=
      beq_eq_false_iff_ne.2 (ne_of_numeric hc hd)
    rw [isSpace, hne (by decide), hne (by decide), hne (by decide), hne (by decide)]
    rfl
  refine writes_token hspace fun rest hrest => ?_
  rw [next?_eq_number? hc, h rest hrest]
  rfl

/-- The value of a plain literal of at most 64 bits. -/
theorem value?_digitsOf (negative : Bool) {n : Nat} (hsize : n < UInt64.size) (hzero : negative → 0 < n) :
    (Number.Literal.mk negative (Number.digitsOf n) [] true 0).value? =
      some (.int (if negative then -(n : Int) else n)) := by
  have hminus : (negative && n == 0) = false := by
    cases negative with
    | false => rfl
    | true => simpa using Nat.ne_of_gt (hzero rfl)
  simp [Number.Literal.value?, foldl_digitsOf, hminus, hsize]

/-- Digits that end a text or a value are a number; no digit is read as a sign. -/
theorem number?_toDigits {n : Nat} (hn : n < UInt64.size) (hrest : Delimited rest) :
    number? (Nat.toDigits 10 n ++ rest) = some (.int n, rest) := by
  have hsign (r : List Char) : Nat.toDigits 10 n ++ rest ≠ '-' :: r := by
    intro h
    have hhead := digits_toDigits n hrest
    simp [h, digits, Ne.symm (digitsOf_ne_nil n)] at hhead
  have hvalue := value?_digitsOf false hn (by simp)
  rw [number?]
  · simp [digits_toDigits n hrest, plain_digitsOf, -Bool.or_eq_true, fraction?_of_delimited hrest,
      exponent?_of_delimited hrest, hvalue]
  · exact hsign

theorem number?_minus_toDigits {n : Nat} (hn : n < UInt64.size) (hpos : 0 < n) (hrest : Delimited rest) :
    number? ('-' :: (Nat.toDigits 10 n ++ rest)) = some (.int (-n), rest) := by
  have hvalue := value?_digitsOf true hn fun _ => hpos
  simp [number?, digits_toDigits n hrest, plain_digitsOf, -Bool.or_eq_true, fraction?_of_delimited hrest,
    exponent?_of_delimited hrest, hvalue]

/-- An integer of at most 64 bits is one token. -/
theorem writes_integer {n : Int} (hn : n.natAbs < UInt64.size) : Writes (toString n).toList [.leaf (.int n)] := by
  cases n with
  | ofNat n =>
    obtain ⟨c, cs, hcs⟩ := List.exists_cons_of_ne_nil (Nat.toDigits_ne_nil : Nat.toDigits 10 n ≠ [])
    have hc : c.isDigit := Nat.isDigit_of_mem_toDigits (by decide) (by decide) (hcs ▸ List.mem_cons_self)
    have htext : (toString (Int.ofNat n)).toList = c :: cs := (toList_toString_natCast n).trans hcs
    rw [htext]
    refine writes_number (.inr hc) fun rest hrest => ?_
    rw [← List.cons_append, ← hcs]
    exact number?_toDigits hn hrest
  | negSucc n =>
    rw [toList_toString_negSucc]
    exact writes_number (.inl rfl) fun rest hrest => number?_minus_toDigits hn (Nat.succ_pos n) hrest

end OrderKeeper.Json
