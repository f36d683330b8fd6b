import Mathlib.Data.List.Forall2
import Mathlib.Data.List.Induction
import Mathlib.Tactic.SplitIfs
import OrderKeeper.Json.Scalar

/-!
# Hexadecimal text

Which texts are read as an address, said by their digits (`Json.addressOfText?_eq_some_iff`), and that a quantity is read
back from its digits, however many it has (`Json.natOfText?_quantity`).
-/

namespace OrderKeeper

/-! ## Addresses as text -/

/-- A text writes an address: forty hexadecimal digits of either case, with or without a mark. -/
def Address.WrittenBy (text : String) (a : Address) : Prop :=
  ∃ mark digits values, text.toList = mark ++ digits ∧ mark ∈ [[], ['0', 'x'], ['0', 'X']] ∧ digits.length = 40 ∧
    List.Forall₂ (fun c n => Hex.value? c = some n) digits values ∧ a.toNat = values.foldl (fun m n => m * 16 + n) 0

namespace Hex

theorem lt_of_value? {c : Char} {n : Nat} (h : value? c = some n) : n < 16 := by
  unfold value? at h
  split_ifs at h with hdigit hlower hupper
  · have : c.toNat ≤ 57 := hdigit.2
    cases h
    omega
  · have : c.toNat ≤ 102 := hlower.2
    cases h
    omega
  · have : c.toNat ≤ 70 := hupper.2
    cases h
    omega

/-- Bytes are read from pairs of digits, and write the same number. -/
theorem forall₂_of_decode? {ds : List Char} {bs : Bytes} (h : decode? ds = some bs) :
    ds.length = 2 * bs.length ∧ ∃ ns, List.Forall₂ (fun c n => value? c = some n) ds ns ∧
      ∀ m, bs.foldl (fun m b => m * 256 + b.toNat) m = ns.foldl (fun m n => m * 16 + n) m := by
  fun_induction decode? ds generalizing bs with
  | case1 =>
    cases h
    exact ⟨rfl, [], .nil, fun _ => rfl⟩
  | case2 => cases h
  | case3 a b r ih =>
    simp only [Option.bind_eq_bind, Option.bind_eq_some_iff, Option.pure_def, Option.some.injEq] at h
    obtain ⟨high, hhigh, low, hlow, bs, hbs, rfl⟩ := h
    obtain ⟨hlength, ns, hns, hsame⟩ := ih hbs
    refine ⟨by simp only [List.length_cons, hlength]; omega, high :: low :: ns, .cons hhigh (.cons hlow hns), fun m => ?_⟩
    have hhigh := lt_of_value? hhigh
    have hlow := lt_of_value? hlow
    have hbyte : (UInt8.ofNat (16 * high + low)).toNat = 16 * high + low := by
      rw [UInt8.toNat_ofNat']
      omega
    rw [List.foldl_cons, List.foldl_cons, List.foldl_cons, hsame, hbyte]
    congr 1
    omega

/-- Any even number of digits is read. -/
theorem exists_decode? {ds : List Char} {ns : List Nat} (h : List.Forall₂ (fun c n => value? c = some n) ds ns)
    (heven : 2 ∣ ds.length) : ∃ bs, decode? ds = some bs := by
  fun_induction decode? ds generalizing ns with
  | case1 => exact ⟨[], rfl⟩
  | case2 c => simp at heven
  | case3 a b r ih =>
    obtain _ | ⟨ha, _ | ⟨hb, hr⟩⟩ := h
    obtain ⟨bs, hbs⟩ := ih hr (by simp only [List.length_cons] at heven; omega)
    exact ⟨_, by rw [ha, hb, hbs]; rfl⟩

end Hex

theorem Hex.exists_mark_append (cs : List Char) : ∃ mark ∈ [[], ['0', 'x'], ['0', 'X']], cs = mark ++ stripMark cs := by
  unfold stripMark
  split
  · exact ⟨['0', 'x'], by simp, rfl⟩
  · exact ⟨['0', 'X'], by simp, rfl⟩
  · exact ⟨[], by simp, rfl⟩

/-- The mark of a number is no part of its digits. -/
theorem Hex.stripMark_append {mark ds : List Char} {ns : List Nat} (hmark : mark ∈ [[], ['0', 'x'], ['0', 'X']])
    (h : List.Forall₂ (fun c n => value? c = some n) ds ns) : stripMark (mark ++ ds) = ds := by
  simp only [List.mem_cons, List.not_mem_nil, or_false] at hmark
  rcases hmark with rfl | rfl | rfl
  · have hdigit (c : Char) (hc : value? c = none) (r : List Char) : ds ≠ '0' :: c :: r := by
      rintro rfl
      obtain _ | ⟨-, _ | ⟨hn, -⟩⟩ := h
      simp [hc] at hn
    rw [List.nil_append, stripMark]
    · exact hdigit 'x' rfl
    · exact hdigit 'X' rfl
  · rfl
  · rfl

theorem Bytes.toNat_lt (bs : Bytes) : toNat bs < Nat.pow 256 bs.length := by
  induction bs using List.reverseRecOn with
  | nil => exact Nat.one_pos
  | append_singleton bs b ih =>
    have hb := b.toNat_lt
    rw [toNat_append_singleton, List.length_append, List.length_singleton]
    simp only [Nat.pow_eq, Nat.pow_succ] at ih ⊢
    omega

theorem Json.addressOfText?_eq_some_iff {text : String} {a : Address} :
    addressOfText? text = some a ↔ Address.WrittenBy text a := by
  simp only [addressOfText?, Hex.fixed?, Hex.bytes?, Option.map_eq_some_iff, Option.bind_eq_bind, Option.bind_eq_some_iff,
    Option.ite_none_right_eq_some, Option.some.injEq]
  constructor
  · rintro ⟨_, ⟨bs, hbs, hwidth, rfl⟩, rfl⟩
    obtain ⟨mark, hmark, htext⟩ := Hex.exists_mark_append text.toList
    obtain ⟨hlength, ns, hns, hsame⟩ := Hex.forall₂_of_decode? hbs
    refine ⟨mark, _, ns, htext, hmark, by omega, hns, ?_⟩
    have hsize : Bytes.toNat bs < Nat.pow 256 20 := hwidth ▸ bs.toNat_lt
    rw [← hsame, BitVec.toNat_ofNat]
    exact Nat.mod_eq_of_lt hsize
  · rintro ⟨mark, digits, ns, htext, hmark, hlength, hns, ha⟩
    obtain ⟨bs, hbs⟩ := Hex.exists_decode? hns (by omega)
    obtain ⟨hwidth, ns', hns', hsame⟩ := Hex.forall₂_of_decode? hbs
    obtain rfl : ns = ns' := by
      have hunique : Relator.RightUnique fun (c : Char) n => Hex.value? c = some n :=
        fun _ _ _ h h' => Option.some.inj (h.symm.trans h')
      exact List.right_unique_forall₂' hunique hns hns'
    refine ⟨bs, ⟨bs, ?_, by omega, rfl⟩, ?_⟩
    · rw [htext, Hex.stripMark_append hmark hns, hbs]
    · have hnat : Bytes.toNat bs = a.toNat := (hsame 0).trans ha.symm
      rw [hnat, BitVec.ofNat_toNat, BitVec.setWidth_eq]

/-! ## Quantities -/

namespace Json

theorem digitValue?_digit : ∀ n < 16, Hex.digit n ≠ '_' ∧ digitValue? (Hex.digit n) = some n := by decide

/-- The last digit is read onto the number that the digits before it write. -/
theorem digitsOfBase?_append_digit {m n d : Nat} {ds : List Char} (hds : digitsOfBase? 16 m ds = some n) (hd : d < 16) :
    digitsOfBase? 16 m (ds ++ [Hex.digit d]) = some (n * 16 + d) := by
  fun_induction digitsOfBase? 16 m ds with
  | case1 m =>
    cases hds
    obtain ⟨hplain, hvalue⟩ := digitValue?_digit d hd
    simp [digitsOfBase?, hplain, hvalue, hd]
  | case2 m r ih => simpa [digitsOfBase?] using ih hds
  | case3 m c r hc e he hsmall ih => simpa [digitsOfBase?, hc, he, hsmall] using ih hds
  | case4 => cases hds
  | case5 => cases hds

theorem digitsOfBase?_natDigits (n : Nat) : digitsOfBase? 16 0 (Hex.natDigits n) = some n := by
  fun_induction Hex.natDigits n with
  | case1 n hn =>
    have hzero : digitsOfBase? 16 0 [] = some 0 := rfl
    simpa using digitsOfBase?_append_digit hzero hn
  | case2 n hn ih =>
    rw [digitsOfBase?_append_digit ih (Nat.mod_lt n (by decide)), Nat.mul_comm, Nat.div_add_mod]

theorem natOfText?_quantity (n : Nat) : natOfText? (Hex.quantity n).toList = some n := by
  rw [Hex.quantity, String.toList_ofList]
  exact digitsOfBase?_natDigits n

end Json

end OrderKeeper
