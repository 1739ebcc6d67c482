import Scaffold.Document.Literal
import Scaffold.Proofs.Text.Names

/-!
# Proofs/Text/Numerals — the characters that numbers are written with

A number is written with ASCII letters and digits, points and signs, and a minus sign is always
followed by a letter or a digit (`IsNumeral`).  So a numeral holds none of the characters that open
a literal, a comment or a bracket, wherever it stands.
-/

namespace Scaffold.Number

open Text

/-- Letters, digits, points and signs, with a letter or a digit behind every minus sign. -/
inductive IsNumeral : List Char → Prop where
  | nil : IsNumeral []
  | cons {c : Char} {cs : List Char} : isPlainAlnum c = true ∨ c ∈ ['.', '+'] → IsNumeral cs →
    IsNumeral (c :: cs)
  | minus {c : Char} {cs : List Char} : isPlainAlnum c = true → IsNumeral cs →
    IsNumeral ('-' :: c :: cs)

namespace IsNumeral

theorem append {cs ds : List Char} (hcs : IsNumeral cs) (hds : IsNumeral ds) :
    IsNumeral (cs ++ ds) := by
  induction hcs with
  | nil => exact hds
  | cons hc _ ih => exact .cons hc ih
  | minus hc _ ih => exact .minus hc ih

theorem of_plain {cs : List Char} (h : ∀ c ∈ cs, isPlainAlnum c = true) : IsNumeral cs := by
  induction cs with
  | nil => exact .nil
  | cons c cs ih =>
    obtain ⟨hc, hcs⟩ := List.forall_mem_cons.mp h
    exact .cons (.inl hc) (ih hcs)

end IsNumeral

/-- A numeral that begins with a letter or a digit. -/
def IsUnsigned (cs : List Char) : Prop :=
  ∃ c ds, cs = c :: ds ∧ isPlainAlnum c = true ∧ IsNumeral ds

namespace IsUnsigned

theorem isNumeral {cs : List Char} (h : IsUnsigned cs) : IsNumeral cs := by
  obtain ⟨c, ds, rfl, hc, hds⟩ := h
  exact .cons (.inl hc) hds

theorem negated {cs : List Char} (h : IsUnsigned cs) : IsNumeral ('-' :: cs) := by
  obtain ⟨c, ds, rfl, hc, hds⟩ := h
  exact .minus hc hds

theorem append {cs ds : List Char} (hcs : IsUnsigned cs) (hds : IsNumeral ds) :
    IsUnsigned (cs ++ ds) := by
  obtain ⟨c, es, rfl, hc, hes⟩ := hcs
  exact ⟨c, es ++ ds, rfl, hc, hes.append hds⟩

theorem of_plain {cs : List Char} (hne : cs ≠ []) (h : ∀ c ∈ cs, isPlainAlnum c = true) :
    IsUnsigned cs := by
  obtain ⟨c, ds, rfl⟩ := List.exists_cons_of_ne_nil hne
  obtain ⟨hc, hds⟩ := List.forall_mem_cons.mp h
  exact ⟨c, ds, rfl, hc, .of_plain hds⟩

end IsUnsigned

/-! ## Digits -/

theorem isPlainAlnum_of_mem_toDigits {n : Nat} {c : Char} (h : c ∈ Nat.toDigits 10 n) :
    isPlainAlnum c = true := by
  have hdigit := Nat.isDigit_of_mem_toDigits (by decide) (Nat.le_refl 10) h
  rw [Char.isDigit, Bool.and_eq_true, decide_eq_true_eq, decide_eq_true_eq] at hdigit
  rw [isPlainAlnum, isPlainDigit, Bool.or_eq_true, Bool.and_eq_true, decide_eq_true_eq,
    decide_eq_true_eq]
  exact .inr hdigit

theorem isPlainAlnum_of_mem_replicate {n : Nat} {c : Char} (h : c ∈ List.replicate n '0') :
    isPlainAlnum c = true := by
  rw [(List.mem_replicate.mp h).2]
  decide

theorem isPlain_toString_nat (n : Nat) : IsPlain (toString n) := by
  intro c hc
  rw [Nat.toString_eq_ofList_toDigits, String.toList_ofList] at hc
  exact isPlainAlnum_of_mem_toDigits hc

theorem isUnsigned_toString_nat (n : Nat) : IsUnsigned (toString n).toList := by
  refine .of_plain ?_ (isPlain_toString_nat n)
  rw [Nat.toString_eq_ofList_toDigits, String.toList_ofList]
  exact Nat.toDigits_ne_nil

/-- A number with zeros in front is one. -/
theorem isUnsigned_padLeft {s : String} (h : IsUnsigned s.toList) (width : Nat) :
    IsUnsigned (padLeft width '0' s).toList := by
  rw [padLeft, String.toList_append, String.toList_ofList]
  cases width - s.length with
  | zero => exact h
  | succ n =>
    refine ⟨'0', _, rfl, by decide, .append (.of_plain fun c => isPlainAlnum_of_mem_replicate) ?_⟩
    exact h.isNumeral

/-! ## Numbers -/

/-- Whole numbers are numerals. -/
theorem isNumeral_toString_int (n : Int) : IsNumeral (toString n).toList := by
  cases n with
  | ofNat n => exact (isUnsigned_toString_nat n).isNumeral
  | negSucc n =>
    have hrepr : toString (Int.negSucc n) = "-" ++ toString (n + 1) := rfl
    rw [hrepr, String.toList_append]
    exact (isUnsigned_toString_nat (n + 1)).negated

theorem significant_ne_nil (d : Decimal) : d.significant.1 ≠ [] := by
  simp only [Decimal.significant]
  split
  · exact List.cons_ne_nil _ _
  · rename_i hkept
    exact fun hnil => hkept (List.isEmpty_iff.mpr hnil)

theorem isPlainAlnum_of_mem_significant {d : Decimal} : ∀ c ∈ d.significant.1,
    isPlainAlnum c = true := by
  intro c hc
  simp only [Decimal.significant] at hc
  split at hc
  · rw [List.mem_singleton.mp hc]
    decide
  · refine isPlainAlnum_of_mem_toDigits (n := d.digits) ?_
    exact List.mem_reverse.mp ((List.dropWhile_sublist _).subset (List.mem_reverse.mp hc))

section Digits

variable {digits : List Char} (hne : digits ≠ []) (h : ∀ c ∈ digits, isPlainAlnum c = true)
include hne h

/-- So are numbers with a point. -/
theorem isUnsigned_positional (point : Int) : IsUnsigned (positional digits point).toList := by
  unfold positional
  split
  · rw [String.toList_append, String.toList_ofList, String.toList_ofList]
    change IsUnsigned ('0' :: '.' :: (List.replicate (-point).toNat '0' ++ digits))
    refine ⟨'0', _, rfl, by decide, .cons (.inr (by decide)) (.of_plain ?_)⟩
    exact List.forall_mem_append.mpr ⟨fun c => isPlainAlnum_of_mem_replicate, h⟩
  · rename_i hpoint
    have hwhole : IsUnsigned (digits.take point.toNat ++
        List.replicate (point.toNat - digits.length) '0') := by
      refine .of_plain (fun hnil => ?_) (List.forall_mem_append.mpr
        ⟨fun c hc => h c (List.mem_of_mem_take hc), fun c => isPlainAlnum_of_mem_replicate⟩)
      obtain hzero | hnil := List.take_eq_nil_iff.mp (List.append_eq_nil_iff.mp hnil).1
      · omega
      · exact hne hnil
    have hrest : IsPlain (if (digits.drop point.toNat).isEmpty then "0"
        else String.ofList (digits.drop point.toNat)) := by
      split
      · exact isPlain_ofList (by decide)
      · exact fun c hc => h c (List.mem_of_mem_drop (String.toList_ofList ▸ hc))
    rw [String.toList_append, String.toList_append, String.toList_ofList]
    exact (hwhole.append (.cons (.inr (by decide)) .nil)).append (.of_plain hrest)

/-- And those with an exponent. -/
theorem isUnsigned_scientific (exponent : Int) :
    IsUnsigned (scientific digits exponent).toList := by
  have hfirst : IsUnsigned (digits.take 1) := by
    obtain ⟨c, cs, rfl⟩ := List.exists_cons_of_ne_nil hne
    exact ⟨c, [], rfl, h c List.mem_cons_self, .nil⟩
  have hrest : IsNumeral (if digits.length ≤ 1 then ""
      else "." ++ String.ofList (digits.drop 1)).toList := by
    split
    · exact .nil
    · rw [String.toList_append, String.toList_ofList, String.toList_ofList]
      refine .cons (.inr (by decide)) (.of_plain ?_)
      exact fun c hc => h c (List.mem_of_mem_drop hc)
  have hexponent : IsUnsigned (padLeft 2 '0' (toString exponent.natAbs)).toList :=
    isUnsigned_padLeft (isUnsigned_toString_nat _) 2
  have hsigned : IsNumeral
      ((if exponent < 0 then "-" else "+") ++ padLeft 2 '0' (toString exponent.natAbs)).toList := by
    rw [String.toList_append]
    split
    · exact hexponent.negated
    · exact .cons (.inr (by decide)) hexponent.isNumeral
  unfold scientific
  dsimp only
  rw [String.append_assoc, String.toList_append, String.toList_append, String.toList_append,
    String.toList_ofList]
  exact ((hfirst.append hrest).append (.of_plain (by decide))).append hsigned

end Digits

/-- **A floating-point number is written as a numeral.** -/
theorem isNumeral_spell {f : FloatFormat} (hnan : IsPlain f.special.nan)
    (hinfinite : IsUnsigned f.special.infinite.toList) (x : Binary64) :
    IsNumeral (x.spell f).toList := by
  have hsign {s : String} (h : IsUnsigned s.toList) (b : Bool) :
      IsNumeral ((if b then "-" else "") ++ s).toList := by
    rw [String.toList_append]
    cases b with
    | false => exact h.isNumeral
    | true => exact h.negated
  cases x with
  | nan => exact .of_plain hnan
  | infinite s => exact hsign hinfinite _
  | finite s m q =>
    simp only [Binary64.spell]
    refine hsign ?_ s
    have hdigits := isPlainAlnum_of_mem_significant (d := Decimal.shortest m q)
    have hne := significant_ne_nil (Decimal.shortest m q)
    split
    · exact ⟨'0', ['.', '0'], rfl, by decide, .cons (.inr (by decide)) (.of_plain (by decide))⟩
    · split
      · exact isUnsigned_positional hne hdigits _
      · exact isUnsigned_scientific hne hdigits _

end Scaffold.Number

namespace Scaffold.Document

open Number

theorem isNumeral_literal_int (n : Int) : IsNumeral (Value.int n).literal.toList := by
  rw [Value.literal, Value.literalIn]
  exact isNumeral_toString_int n

/-- The literal of a real number is a numeral. -/
theorem isNumeral_literal_real (x : Binary64) : IsNumeral (Value.real x).literal.toList := by
  rw [Value.literal, Value.literalIn]
  have hnan : Text.IsPlain "nan" := by
    change ∀ c ∈ "nan".toList, Text.isPlainAlnum c = true
    decide
  exact isNumeral_spell hnan (.of_plain (by decide) (by decide)) x

end Scaffold.Document
