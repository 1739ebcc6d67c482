import Scaffold.Naming
import Scaffold.Proofs.Text.Lines
import Scaffold.Text.Lettercase

/-!
# Proofs/Text/Names — texts of ASCII letters and digits, and the names that are made of them

A text of ASCII letters and digits holds no character that means anything to the emitted code, and
its lower case is again such a text (`isPlain_lower`).  The groups of a run make up the run
(`flatten_groups`), so whatever a name is made from, its words hold ASCII letters and digits only,
and all of them (`flatten_split`).
-/

namespace Scaffold.Text

/-- Only ASCII letters and digits. -/
def IsPlain (s : String) : Prop := ∀ c ∈ s.toList, isPlainAlnum c = true

theorem isPlain_ofList {cs : List Char} (h : cs.all isPlainAlnum = true) :
    IsPlain (String.ofList cs) := by
  rw [IsPlain, String.toList_ofList]
  exact List.all_eq_true.mp h

theorem IsPlain.notMem {s : String} (h : IsPlain s) {c : Char} (hc : isPlainAlnum c = false) :
    c ∉ s.toList := by
  intro hmem
  rw [h c hmem] at hc
  cases hc

theorem IsPlain.append {s t : String} (hs : IsPlain s) (ht : IsPlain t) : IsPlain (s ++ t) := by
  rw [IsPlain, String.toList_append]
  exact List.forall_mem_append.mpr ⟨hs, ht⟩

theorem IsPlain.oneLine {s : String} (h : IsPlain s) : OneLine s := h.notMem (by decide)

theorem toNat_lt_of_isPlainAlnum {c : Char} (h : isPlainAlnum c = true) : c.toNat < 128 := by
  have hle {a b : Char} (h : a ≤ b) : a.toNat ≤ b.toNat := h
  simp only [isPlainAlnum, isPlainLetter, isUpperLetter, isLowerLetter, isPlainDigit,
    Bool.or_eq_true, Bool.and_eq_true, decide_eq_true_eq] at h
  obtain (⟨-, h⟩ | ⟨-, h⟩) | ⟨-, h⟩ := h
  all_goals exact Nat.lt_of_le_of_lt (hle h) (by decide)

/-- What holds of the ASCII letters and digits is decided by going through ASCII. -/
theorem forall_isPlainAlnum {p : Char → Prop}
    (h : ∀ n < 128, isPlainAlnum (Char.ofNat n) = true → p (Char.ofNat n)) {c : Char}
    (hc : isPlainAlnum c = true) : p c := by
  have hn := h c.toNat (toNat_lt_of_isPlainAlnum hc)
  rw [Char.ofNat_toNat] at hn
  exact hn hc

theorem isBlank_eq_false {c : Char} (h : isPlainAlnum c = true) : isBlank c = false :=
  forall_isPlainAlnum (p := fun c => isBlank c = false) (by decide +kernel) h

theorem isPlainAlnum_plainLower {c : Char} (h : isPlainAlnum c = true) :
    isPlainAlnum (plainLower c) = true := by
  unfold plainLower
  split
  · rename_i hupper
    rw [isUpperLetter, Bool.and_eq_true, decide_eq_true_eq, decide_eq_true_eq] at hupper
    have hletters : ∀ n < 91, 65 ≤ n → isPlainAlnum (Char.ofNat (n + 32)) = true := by decide
    have hlow : 65 ≤ c.toNat := hupper.1
    have hhigh : c.toNat ≤ 90 := hupper.2
    exact hletters _ (Nat.lt_succ_of_le hhigh) hlow
  · exact h

theorem isPlainAlnum_plainUpper {c : Char} (h : isPlainAlnum c = true) :
    isPlainAlnum (plainUpper c) = true := by
  unfold plainUpper
  split
  · rename_i hlower
    rw [isLowerLetter, Bool.and_eq_true, decide_eq_true_eq, decide_eq_true_eq] at hlower
    have hletters : ∀ n < 123, 97 ≤ n → isPlainAlnum (Char.ofNat (n - 32)) = true := by decide
    have hlow : 97 ≤ c.toNat := hlower.1
    have hhigh : c.toNat ≤ 122 := hlower.2
    exact hletters _ (Nat.lt_succ_of_le hhigh) hlow
  · exact h

theorem upperChar_of_isPlainAlnum {c : Char} (h : isPlainAlnum c = true) :
    upperChar c = [plainUpper c] := by
  rw [upperChar, if_pos (toNat_lt_of_isPlainAlnum h)]

/-- Plain letters are lowered one by one. -/
theorem lowerFrom_of_plain (before : List Char) {cs : List Char}
    (h : ∀ c ∈ cs, isPlainAlnum c = true) : lowerFrom before cs = cs.map plainLower := by
  induction cs generalizing before with
  | nil => rfl
  | cons c cs ih =>
    have hc := h c List.mem_cons_self
    have hsigma : c ≠ 'Σ' := by
      rintro rfl
      exact absurd hc (by decide)
    have hlower : lowerChar c = [plainLower c] := if_pos (toNat_lt_of_isPlainAlnum hc)
    rw [lowerFrom, if_neg hsigma, hlower, ih _ fun d hd => h d (List.mem_cons_of_mem c hd)]
    rfl

theorem toList_lower {s : String} (h : IsPlain s) : (lower s).toList = s.toList.map plainLower := by
  rw [lower, String.toList_ofList, lowerFrom_of_plain [] h]

theorem isPlain_lower {s : String} (h : IsPlain s) : IsPlain (lower s) := by
  rw [IsPlain, toList_lower h]
  intro c hc
  obtain ⟨d, hd, rfl⟩ := List.mem_map.mp hc
  exact isPlainAlnum_plainLower (h d hd)

end Scaffold.Text

namespace Scaffold.Naming

open Text

/-- Runs are plain. -/
theorem isPlainAlnum_of_mem_runs {cs r : List Char} (hr : r ∈ runs cs) :
    ∀ c ∈ r, isPlainAlnum c = true := by
  intro c hc
  have hpiece := (List.mem_filter.mp hr).1
  obtain ⟨d, -, hd⟩ := List.mem_map.mp (mem_of_mem_pieces hpiece hc)
  split at hd
  · rename_i halnum
    exact hd ▸ halnum
  · exact absurd (hd ▸ hc) (notMem_of_mem_pieces hpiece)

/-- The groups of a run make up the run. -/
theorem flatten_groups (joined : Char → Char → Option Char → Bool) (cs : List Char) :
    (groups joined cs).flatten = cs := by
  fun_induction groups joined cs with
  | case1 => rfl
  | case2 c => rfl
  | case3 c d cs hgroups ih => rw [hgroups] at ih; cases ih
  | case4 c d cs g gs hgroups hjoined ih =>
    rw [hgroups] at ih
    rw [List.flatten_cons, List.cons_append, ← List.flatten_cons, ih]
  | case5 c d cs g gs hgroups hjoined ih =>
    rw [hgroups] at ih
    rw [List.flatten_cons, List.singleton_append, ih]

theorem ne_nil_of_mem_groups {joined : Char → Char → Option Char → Bool} {cs g : List Char}
    (h : g ∈ groups joined cs) : g ≠ [] := by
  fun_induction groups joined cs with
  | case1 => exact absurd h List.not_mem_nil
  | case2 c =>
    rw [List.mem_singleton.mp h]
    exact List.cons_ne_nil c []
  | case3 c d cs hgroups ih =>
    rw [List.mem_singleton.mp h]
    exact List.cons_ne_nil c []
  | case4 c d cs g' gs hgroups hjoined ih =>
    obtain rfl | h := List.mem_cons.mp h
    · exact List.cons_ne_nil c g'
    · exact ih (hgroups ▸ List.mem_cons_of_mem _ h)
  | case5 c d cs g' gs hgroups hjoined ih =>
    obtain rfl | h := List.mem_cons.mp h
    · exact List.cons_ne_nil c []
    · exact ih (hgroups ▸ h)

/-- The runs of a text make up its ASCII letters and digits. -/
theorem flatten_runs (cs : List Char) : (runs cs).flatten = cs.filter isPlainAlnum := by
  rw [runs, List.flatten_filter_ne_nil, flatten_pieces]
  induction cs with
  | nil => rfl
  | cons c cs ih =>
    cases hc : isPlainAlnum c with
    | false => simpa [hc] using ih
    | true =>
      have hblank : c ≠ ' ' := by
        rintro rfl
        exact absurd hc (by decide)
      simpa [hc, hblank] using ih

/-- **Nothing is lost when a text is split**: the groups make up its ASCII letters and digits. -/
theorem flatten_split (joined : Char → Char → Option Char → Bool) (s : String) :
    (split joined s).flatten = (s.toList.filter isPlainAlnum).map plainLower := by
  have hgroups (rs : List (List Char)) : (rs.flatMap (groups joined)).flatten = rs.flatten := by
    induction rs with
    | nil => rfl
    | cons r rs ih =>
      rw [List.flatMap_cons, List.flatten_append, flatten_groups, ih, List.flatten_cons]
  rw [split, ← List.map_flatten, hgroups, flatten_runs]

/-- A group of a text in small letters was a group of ASCII letters and digits. -/
theorem exists_of_mem_split {joined : Char → Char → Option Char → Bool} {s : String}
    {w : List Char} (hw : w ∈ split joined s) :
    ∃ g, w = g.map plainLower ∧ g ≠ [] ∧ ∀ c ∈ g, isPlainAlnum c = true := by
  obtain ⟨g, hg, rfl⟩ := List.mem_map.mp hw
  obtain ⟨r, hr, hg⟩ := List.mem_flatMap.mp hg
  refine ⟨g, rfl, ne_nil_of_mem_groups hg, fun c hc => isPlainAlnum_of_mem_runs hr c ?_⟩
  rw [← flatten_groups joined r]
  exact List.mem_flatten.mpr ⟨g, hg, hc⟩

theorem isPlainAlnum_of_mem_split {joined : Char → Char → Option Char → Bool} {s : String}
    {w : List Char} (hw : w ∈ split joined s) : ∀ c ∈ w, isPlainAlnum c = true := by
  obtain ⟨g, rfl, -, hplain⟩ := exists_of_mem_split hw
  exact List.forall_mem_map.mpr fun c hc => isPlainAlnum_plainLower (hplain c hc)

theorem isPlainAlnum_of_mem_capitalized {w : List Char} (h : ∀ c ∈ w, isPlainAlnum c = true) :
    ∀ c ∈ capitalized w, isPlainAlnum c = true := by
  cases w with
  | nil => exact h
  | cons c cs =>
    obtain ⟨hc, hcs⟩ := List.forall_mem_cons.mp h
    exact List.forall_mem_cons.mpr ⟨isPlainAlnum_plainUpper hc, hcs⟩

/-- A camel name is plain. -/
theorem isPlain_camel (s : String) : IsPlain (camel s) := by
  unfold camel
  split
  · exact fun c hc => absurd hc List.not_mem_nil
  · rename_i w ws hwords
    have hword {v : List Char} (hv : v ∈ w :: ws) : ∀ c ∈ v, isPlainAlnum c = true := by
      rw [← hwords] at hv
      exact isPlainAlnum_of_mem_split hv
    rw [IsPlain, String.toList_ofList]
    refine List.forall_mem_append.mpr ⟨hword List.mem_cons_self, fun c hc => ?_⟩
    obtain ⟨v, hv, hc⟩ := List.mem_flatMap.mp hc
    exact isPlainAlnum_of_mem_capitalized (hword (List.mem_cons_of_mem w hv)) c hc

/-! ## Words of ASCII characters -/

/-- ASCII letters, digits and underscores only. -/
def IsPlainWord (s : String) : Prop := ∀ c ∈ s.toList, isPlainAlnum c = true ∨ c = '_'

namespace IsPlainWord

variable {s t : String}

/-- A plain word has no other letters. -/
theorem notMem (h : IsPlainWord s) {c : Char} (hc : isPlainAlnum c = false ∧ c ≠ '_') :
    c ∉ s.toList := by
  intro hmem
  obtain hplain | rfl := h c hmem
  · exact Bool.noConfusion (hplain.symm.trans hc.1)
  · exact hc.2 rfl

theorem append (hs : IsPlainWord s) (ht : IsPlainWord t) : IsPlainWord (s ++ t) := by
  rw [IsPlainWord, String.toList_append]
  exact List.forall_mem_append.mpr ⟨hs, ht⟩

theorem toNat_lt (h : IsPlainWord s) : ∀ c ∈ s.toList, c.toNat < 128 := by
  intro c hc
  obtain hplain | rfl := h c hc
  · exact toNat_lt_of_isPlainAlnum hplain
  · decide

theorem isBlank_eq_false (h : IsPlainWord s) : ∀ c ∈ s.toList, isBlank c = false := by
  intro c hc
  obtain hplain | rfl := h c hc
  · exact Text.isBlank_eq_false hplain
  · decide

end IsPlainWord

theorem isPlainWord_ofList {cs : List Char} (h : ∀ c ∈ cs, isPlainAlnum c = true ∨ c = '_') :
    IsPlainWord (String.ofList cs) := by
  rw [IsPlainWord, String.toList_ofList]
  exact h

/-- A snake name is a plain word. -/
theorem isPlainWord_snake (s : String) : IsPlainWord (snake s) := by
  intro c hc
  rw [snake, String.toList_ofList] at hc
  obtain ⟨w, hw, hcw⟩ | hsep := mem_joinWith hc
  · exact .inl (isPlainAlnum_of_mem_split hw c hcw)
  · exact .inr (List.mem_singleton.mp hsep)

/-- A name in snake case stays on one line. -/
theorem oneLine_snake (s : String) : OneLine (snake s) := (isPlainWord_snake s).notMem (by decide)

end Scaffold.Naming
