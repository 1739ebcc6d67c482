import Scaffold.Proofs.Project.Relocation
import Scaffold.Proofs.Text.Names

/-!
# Proofs/Project/Renaming — a text is renamed part by part

A renaming looks at a word and at the characters on either side of it, and at nothing else.  So a
part of a text that begins like no word, and ends in a character of none, is renamed by itself
(`moves_of_isSealed`), and parts that are renamed by themselves make a text that is
(`Moves.append`, `moves_joinWith`).  A name in quotes is such a part, and it becomes what the name
alone becomes (`moves_quoted`).

Only two kinds of plain names are renamed: the name of the repository, and one in which the table
stands by itself (`relocateText_eq_self_iff`).
-/

namespace Scaffold.Project

open Naming Text

namespace Renaming

/-- A text after one renaming behind the other. -/
def applyAll (rs : List Renaming) (last : Option Char) (cs : List Char) : List Char :=
  rs.foldl (fun cs r => r.applyFrom 0 last cs) cs

/-- A part of a text becomes another one wherever it stands, and what is behind it is renamed as
behind a certain character. -/
def Moves (rs : List Renaming) (cs cs' : List Char) : Prop :=
  ∃ q, ∀ last ds, applyAll rs last (cs ++ ds) = cs' ++ applyAll rs (some q) ds

/-- A part of a text begins like no word, and it ends in a character of none. -/
def IsSealed (rs : List Renaming) (cs : List Char) : Prop :=
  cs ≠ [] ∧ ∀ r ∈ rs, r.word ≠ [] ∧ r.word.head? ≠ cs.head? ∧ ∀ q ∈ cs.getLast?, q ∉ r.word

instance (rs : List Renaming) (cs : List Char) : Decidable (IsSealed rs cs) :=
  inferInstanceAs (Decidable (_ ∧ ∀ r ∈ rs, _ ∧ _ ∧ ∀ q ∈ cs.getLast?, q ∉ r.word))

/-- Beside a quote a word stands as it does at an end of the text. -/
structure Quotes (r : Renaming) (q : Char) : Prop extends r.Stops q where
  before : r.before (some q) = r.before none
  after : r.after (some q) = r.after none

variable {r : Renaming} {rs : List Renaming} {q : Char}

/-! ## Parts of a text -/

theorem applyAll_cons_self (r : Renaming) (rs : List Renaming) (last : Option Char)
    (cs : List Char) : applyAll (r :: rs) last cs = applyAll rs last (r.applyFrom 0 last cs) :=
  rfl

theorem applyAll_nil (rs : List Renaming) (last : Option Char) : applyAll rs last [] = [] := by
  induction rs with
  | nil => rfl
  | cons r rs ih => exact ih

/-- What follows a letter that stops all rules is renamed on its own. -/
theorem exists_applyAll (h : ∀ r ∈ rs, r.Stops q) (last : Option Char) (cs : List Char) :
    ∃ cs', ∀ ds, applyAll rs last (cs ++ q :: ds) = cs' ++ q :: applyAll rs (some q) ds := by
  induction rs generalizing cs with
  | nil => exact ⟨cs, fun ds => rfl⟩
  | cons r rs ih =>
    obtain ⟨hr, hrs⟩ := List.forall_mem_cons.mp h
    obtain ⟨cs', -, heq⟩ := exists_applyFrom hr last (Nat.zero_le cs.length)
    obtain ⟨cs'', heq'⟩ := ih hrs cs'
    refine ⟨cs'', fun ds => ?_⟩
    rw [applyAll_cons_self, heq, heq', applyAll_cons_self]

theorem applyAll_append_cons (h : ∀ r ∈ rs, r.Stops q) (last : Option Char) (cs ds : List Char) :
    applyAll rs last (cs ++ q :: ds) =
      applyAll rs last (cs ++ [q]) ++ applyAll rs (some q) ds := by
  obtain ⟨cs', heq⟩ := exists_applyAll h last cs
  rw [heq, heq, applyAll_nil, List.append_assoc, List.singleton_append]

/-- A character with which no word begins stays. -/
theorem applyAll_cons {c : Char} (h : ∀ r ∈ rs, r.word ≠ [] ∧ r.word.head? ≠ some c)
    (last : Option Char) (cs : List Char) :
    applyAll rs last (c :: cs) = c :: applyAll rs (some c) cs := by
  induction rs generalizing cs with
  | nil => rfl
  | cons r rs ih =>
    obtain ⟨⟨hne, hhead⟩, hrs⟩ := List.forall_mem_cons.mp h
    have happlies : r.applies last (c :: cs) = false := by
      obtain ⟨w, ws, hword⟩ := List.exists_cons_of_ne_nil hne
      have hw : w ≠ c := by
        rintro rfl
        exact hhead (by rw [hword]; rfl)
      rw [applies, hword, afterWord?, if_neg hw]
    rw [applyAll_cons_self, applyFrom]
    simp only [happlies, Bool.false_eq_true, if_false]
    rw [ih hrs]
    rfl

/-- A sealed text moves as a whole. -/
theorem moves_of_isSealed {cs : List Char} (h : IsSealed rs cs) :
    Moves rs cs (applyAll rs none cs) := by
  obtain ⟨hne, hrs⟩ := h
  have hlast : cs.getLast? = some (cs.getLast hne) := List.getLast?_eq_some_getLast hne
  have hstops : ∀ r ∈ rs, r.Stops (cs.getLast hne) :=
    fun r hr => ⟨(hrs r hr).1, (hrs r hr).2.2 _ hlast⟩
  have hstart (last : Option Char) : applyAll rs last cs = applyAll rs none cs := by
    obtain ⟨c, tail, rfl⟩ := List.exists_cons_of_ne_nil hne
    have hhead : ∀ r ∈ rs, r.word ≠ [] ∧ r.word.head? ≠ some c :=
      fun r hr => ⟨(hrs r hr).1, (hrs r hr).2.1⟩
    rw [applyAll_cons hhead, applyAll_cons hhead]
  have hconcat : cs.dropLast ++ [cs.getLast hne] = cs := List.dropLast_concat_getLast hne
  refine ⟨cs.getLast hne, fun last ds => ?_⟩
  calc applyAll rs last (cs ++ ds)
      = applyAll rs last (cs.dropLast ++ cs.getLast hne :: ds) := by rw [List.append_cons, hconcat]
    _ = applyAll rs last (cs.dropLast ++ [cs.getLast hne]) ++ applyAll rs (some _) ds :=
        applyAll_append_cons hstops last _ ds
    _ = applyAll rs none cs ++ applyAll rs (some _) ds := by rw [hconcat, hstart]

/-- Texts that move one after the other move together. -/
theorem Moves.append {cs cs' ds ds' : List Char} (h : Moves rs cs cs') (h' : Moves rs ds ds') :
    Moves rs (cs ++ ds) (cs' ++ ds') := by
  obtain ⟨p, hp⟩ := h
  obtain ⟨q, hq⟩ := h'
  refine ⟨q, fun last es => ?_⟩
  rw [List.append_assoc, hp, hq, List.append_assoc]

theorem Moves.eq {cs cs' : List Char} (h : Moves rs cs cs') (last : Option Char) :
    applyAll rs last cs = cs' := by
  obtain ⟨q, hq⟩ := h
  have hend := hq last []
  rwa [List.append_nil, applyAll_nil, List.append_nil] at hend

/-- So do joined parts. -/
theorem moves_joinWith {sep sep' : List Char} (hsep : Moves rs sep sep')
    {parts parts' : List (List Char)} (h : List.Forall₂ (Moves rs) parts parts')
    (hne : parts ≠ []) : Moves rs (joinWith sep parts) (joinWith sep' parts') := by
  induction h with
  | nil => exact absurd rfl hne
  | cons hp hparts ih =>
    cases hparts with
    | nil => exact hp
    | cons => exact (hp.append hsep).append (ih (List.cons_ne_nil _ _))

/-! ## Names in quotes -/

/-- A closing quote does not matter to a rule. -/
theorem applies_quoted (h : r.Quotes q) (last : Option Char) (cs : List Char) :
    r.applies last (cs ++ [q]) = r.applies last cs := by
  rw [applies, applies, afterWord?_append h.word]
  cases afterWord? r.word cs with
  | none => rfl
  | some rest =>
    cases rest with
    | nil => exact congrArg (r.before last && ·) h.after
    | cons c rest => rfl

/-- It stays where it is. -/
theorem applyFrom_quoted (h : r.Quotes q) {skip : Nat} (last : Option Char) {cs : List Char}
    (hskip : skip ≤ cs.length) :
    r.applyFrom skip last (cs ++ [q]) = r.applyFrom skip last cs ++ [q] := by
  induction cs generalizing skip last with
  | nil =>
    obtain rfl := Nat.le_zero.mp hskip
    simp only [List.nil_append, applyFrom, applies_stop h.toStops, Bool.false_eq_true, if_false]
  | cons c cs ih =>
    cases skip with
    | succ n => exact ih (some c) (Nat.le_of_succ_le_succ hskip)
    | zero =>
      have happlies := applies_quoted h last (c :: cs)
      rw [List.cons_append] at happlies ⊢
      rw [applyFrom, applyFrom]
      simp only [happlies]
      split
      · rename_i hword
        have hlength : r.word.length ≤ (c :: cs).length :=
          length_word_le h.toStops ((applies_quoted h last (c :: cs)).trans hword)
        rw [ih (some c) (Nat.sub_le_of_le_add hlength), List.append_assoc]
      · rw [ih (some c) (Nat.zero_le _), List.cons_append]

/-- Neither does an opening one. -/
theorem applyFrom_quote (h : r.Quotes q) (cs : List Char) :
    r.applyFrom 0 (some q) cs = r.applyFrom 0 none cs := by
  cases cs with
  | nil => rfl
  | cons c cs =>
    have happlies : r.applies (some q) (c :: cs) = r.applies none (c :: cs) := by
      rw [applies, applies, h.before]
    rw [applyFrom, applyFrom]
    simp only [happlies]

/-- **A name in quotes becomes what the name alone becomes.** -/
theorem moves_quoted (h : ∀ r ∈ rs, r.Quotes q) (cs : List Char) :
    Moves rs (q :: (cs ++ [q])) (q :: (applyAll rs none cs ++ [q])) := by
  have hstops : ∀ r ∈ rs, r.Stops q := fun r hr => (h r hr).toStops
  have hhead : ∀ r ∈ rs, r.word ≠ [] ∧ r.word.head? ≠ some q :=
    fun r hr => ⟨(hstops r hr).nonempty, fun hq => (hstops r hr).word (List.mem_of_head? hq)⟩
  have hname : applyAll rs (some q) (cs ++ [q]) = applyAll rs none cs ++ [q] := by
    clear hstops hhead
    induction rs generalizing cs with
    | nil => rfl
    | cons r rs ih =>
      obtain ⟨hr, hrs⟩ := List.forall_mem_cons.mp h
      rw [applyAll_cons_self, applyFrom_quoted hr _ (Nat.zero_le _), applyFrom_quote hr, ih hrs]
      rfl
  refine ⟨q, fun last ds => ?_⟩
  rw [List.cons_append, applyAll_cons hhead, List.append_assoc, List.singleton_append,
    applyAll_append_cons hstops, hname]
  rfl

/-! ## Words that do not occur -/

/-- A text without a letter of the word stays as it is. -/
theorem applyFrom_of_notMem {c : Char} (hword : c ∈ r.word) {cs : List Char} (hcs : c ∉ cs)
    (last : Option Char) : r.applyFrom 0 last cs = cs := by
  induction cs generalizing last with
  | nil => rfl
  | cons d cs ih =>
    have happlies : r.applies last (d :: cs) = false := by
      have hnone : afterWord? r.word (d :: cs) = none := by
        refine Option.eq_none_iff_forall_ne_some.mpr fun rest hrest => hcs ?_
        rw [eq_append_of_afterWord? hrest]
        exact List.mem_append_left _ hword
      rw [applies, hnone]
    rw [applyFrom]
    simp only [happlies, Bool.false_eq_true, if_false]
    rw [ih (mt (List.mem_cons_of_mem d) hcs)]

/-- A rule applies at its word with the right letters around. -/
theorem applies_eq_true_iff {last : Option Char} {cs : List Char} :
    r.applies last cs = true ↔
      ∃ b, cs = r.word ++ b ∧ r.before last = true ∧ r.after b.head? = true := by
  rw [applies]
  constructor
  · intro happlies
    cases hafter : afterWord? r.word cs with
    | none =>
      rw [hafter] at happlies
      cases happlies
    | some rest =>
      rw [hafter] at happlies
      exact ⟨rest, eq_append_of_afterWord? hafter, Bool.and_eq_true_iff.mp happlies⟩
  · rintro ⟨b, rfl, hsides⟩
    rw [afterWord?_self_append]
    exact Bool.and_eq_true_iff.mpr hsides

section Longer

variable (hne : r.word ≠ []) (hlength : r.word.length < r.replacement.length)

include hne hlength

/-- Nothing gets shorter. -/
theorem length_le_applyFrom (skip : Nat) (last : Option Char) (cs : List Char) :
    cs.length ≤ (r.applyFrom skip last cs).length + skip := by
  have hpos : 0 < r.word.length := List.length_pos_iff.mpr hne
  induction cs generalizing skip last with
  | nil => exact Nat.zero_le _
  | cons c cs ih =>
    cases skip with
    | succ n =>
      have hrest := ih n (some c)
      rw [applyFrom, List.length_cons]
      omega
    | zero =>
      rw [applyFrom]
      split
      · have hrest := ih (r.word.length - 1) (some c)
        rw [List.length_append, List.length_cons]
        omega
      · have hrest := ih 0 (some c)
        rw [List.length_cons, List.length_cons]
        omega

/-- A text that is made longer is left as it is only where the word nowhere stands by itself. -/
theorem applyFrom_eq_self_iff (last : Option Char) (cs : List Char) :
    r.applyFrom 0 last cs = cs ↔ ∀ a b, cs = a ++ (r.word ++ b) →
      ¬(r.before (a.getLast?.or last) = true ∧ r.after b.head? = true) := by
  induction cs generalizing last with
  | nil =>
    refine iff_of_true rfl fun a b hcs => ?_
    exact absurd (List.append_eq_nil_iff.mp (List.append_eq_nil_iff.mp hcs.symm).2).1 hne
  | cons c cs ih =>
    by_cases happlies : r.applies last (c :: cs) = true
    · refine iff_of_false (fun heq => ?_) fun hnowhere => ?_
      · rw [applyFrom] at heq
        simp only [happlies, if_true] at heq
        have hrest := length_le_applyFrom hne hlength (r.word.length - 1) (some c) cs
        have hsame := congrArg List.length heq
        have hpos : 0 < r.word.length := List.length_pos_iff.mpr hne
        rw [List.length_append, List.length_cons] at hsame
        omega
      · obtain ⟨b, hb, hsides⟩ := applies_eq_true_iff.mp happlies
        exact hnowhere [] b hb hsides
    · rw [applyFrom]
      simp only [if_neg happlies, List.cons.injEq, true_and]
      rw [ih]
      constructor
      · intro hnowhere a b hcs
        cases a with
        | nil => exact fun hsides => happlies (applies_eq_true_iff.mpr ⟨b, hcs, hsides⟩)
        | cons d a =>
          obtain ⟨rfl, htail⟩ := List.cons.inj hcs
          have hlast : (c :: a).getLast?.or last = a.getLast?.or (some c) := by
            cases a <;> rfl
          rw [hlast]
          exact hnowhere a b htail
      · intro hnowhere a b hcs
        have hlast : (c :: a).getLast?.or last = a.getLast?.or (some c) := by
          cases a <;> rfl
        have hsides := hnowhere (c :: a) b (congrArg (c :: ·) hcs)
        rwa [hlast] at hsides

end Longer

/-! ## The renamings of the accounts -/

/-- The renamings that move the accounts aside. -/
def ofAccounts : List Renaming := [accountType, accountRepository, accountModule, accountTable]

/-- Those that may touch a text without a slash. -/
def ofNames : List Renaming := [accountType, accountRepository, accountTable]

theorem toList_relocateText (s : String) :
    (relocateText s).toList = applyAll ofAccounts none s.toList :=
  String.toList_ofList

/-- Without slashes only the names are moved. -/
theorem applyAll_ofAccounts {cs : List Char} (h : '/' ∉ cs) (last : Option Char) :
    applyAll ofAccounts last cs = applyAll ofNames last cs := by
  have hkept (r : Renaming) (hr : '/' ∉ r.replacement) {cs : List Char} (h : '/' ∉ cs) :
      '/' ∉ r.applyFrom 0 last cs :=
    fun hmem => (mem_of_mem_applyFrom hmem).elim h hr
  have hmodule := hkept accountRepository (by decide) (hkept accountType (by decide) h)
  simp only [ofAccounts, ofNames, applyAll_cons_self]
  rw [applyFrom_of_notMem (r := accountModule) (by decide) hmodule]

/-- A part without a slash is relocated as if there were no module to rename. -/
theorem Moves.ofAccounts {cs ds cs' : List Char} (h : Moves ofNames (cs ++ ds) cs')
    (hslash : '/' ∉ cs ++ ds) (hsealed : IsSealed Renaming.ofAccounts ds) :
    Moves Renaming.ofAccounts (cs ++ ds) cs' := by
  obtain ⟨hne, hrs⟩ := hsealed
  have hlast : ds.getLast? = some (ds.getLast hne) := List.getLast?_eq_some_getLast hne
  have hstops : ∀ r ∈ Renaming.ofAccounts, r.Stops (ds.getLast hne) :=
    fun r hr => ⟨(hrs r hr).1, (hrs r hr).2.2 _ hlast⟩
  have hconcat : cs ++ ds.dropLast ++ [ds.getLast hne] = cs ++ ds := by
    rw [List.append_assoc, List.dropLast_concat_getLast hne]
  refine ⟨ds.getLast hne, fun last es => ?_⟩
  calc applyAll Renaming.ofAccounts last (cs ++ ds ++ es)
      = applyAll Renaming.ofAccounts last (cs ++ ds.dropLast ++ ds.getLast hne :: es) := by
        rw [List.append_cons _ _ es, hconcat]
    _ = applyAll Renaming.ofAccounts last (cs ++ ds.dropLast ++ [ds.getLast hne]) ++
          applyAll Renaming.ofAccounts (some _) es := applyAll_append_cons hstops last _ es
    _ = cs' ++ applyAll Renaming.ofAccounts (some _) es := by
        rw [hconcat, applyAll_ofAccounts hslash, h.eq]

/-- What holds of the letters and of what the rules write holds afterwards. -/
theorem forall_mem_applyAll {P : Char → Prop} (hrs : ∀ r ∈ rs, ∀ c ∈ r.replacement, P c)
    {cs : List Char} (hcs : ∀ c ∈ cs, P c) (last : Option Char) :
    ∀ c ∈ applyAll rs last cs, P c := by
  induction rs generalizing cs with
  | nil => exact hcs
  | cons r rs ih =>
    obtain ⟨hr, hrs⟩ := List.forall_mem_cons.mp hrs
    exact ih hrs fun c hc => (mem_of_mem_applyFrom hc).elim (hcs c) (hr c)

/-! ## Plain names -/

variable {n : String} (h : IsPlain n)

include h

theorem isPlainWord_relocateText : IsPlainWord (relocateText n) := by
  rw [IsPlainWord, toList_relocateText, applyAll_ofAccounts (h.notMem (by decide))]
  exact forall_mem_applyAll (by decide) (fun c hc => .inl (h c hc)) none

/-- In front of a word inside a name stands a letter or a digit. -/
theorem getLast?_plain {a b : List Char} (hn : n.toList = a ++ b) :
    a = [] ∨ ∃ c, a.getLast? = some c ∧ isPlainAlnum c = true := by
  by_cases ha : a = []
  · exact .inl ha
  · have hlast : a.getLast? = some (a.getLast ha) := List.getLast?_eq_some_getLast ha
    exact .inr ⟨_, hlast, h _ (hn ▸ List.mem_append_left b (List.getLast_mem ha))⟩

/-- A plain name is not taken for the type. -/
theorem accountType_plain : accountType.applyFrom 0 none n.toList = n.toList := by
  have hbefore : ∀ k < 128, isPlainAlnum (Char.ofNat k) = true →
      accountType.before (some (Char.ofNat k)) = false := by
    decide
  refine (applyFrom_eq_self_iff (by decide) (by decide) none _).mpr fun a b hn hsides => ?_
  obtain rfl | ⟨c, hlast, hc⟩ := getLast?_plain h hn
  · cases hsides.1
  · rw [← Char.ofNat_toNat c] at hc hlast
    rw [hlast, Option.some_or, hbefore c.toNat (toNat_lt_of_isPlainAlnum ?_) hc] at hsides
    · cases hsides.1
    · rwa [Char.ofNat_toNat] at hc

/-- Nor for the repository, except its very name. -/
theorem accountRepository_plain (hne : n ≠ "UserRepository") :
    accountRepository.applyFrom 0 none n.toList = n.toList := by
  have hword {c : Char} (hc : isPlainAlnum c = true) : noWord (some c) = false := by
    rw [noWord, Option.any_some, isWord, if_pos (toNat_lt_of_isPlainAlnum hc), hc]
    rfl
  refine (applyFrom_eq_self_iff (by decide) (by decide) none _).mpr fun a b hn hsides => ?_
  obtain rfl | ⟨c, hlast, hc⟩ := getLast?_plain h hn
  · cases b with
    | nil => exact hne (String.toList_inj.mp hn)
    | cons c b =>
      have hc : isPlainAlnum c = true := h c (hn ▸ by simp)
      exact Bool.noConfusion ((hword hc).symm.trans hsides.2)
  · rw [hlast, Option.some_or] at hsides
    exact Bool.noConfusion ((hword hc).symm.trans hsides.1)

end Renaming

open Renaming in
/-- The table of the accounts stands by itself in a name: no letter is beside it. -/
def NamesTable (n : String) : Prop :=
  ∃ a b, n.toList = a ++ (accountTable.word ++ b) ∧ noLetter a.getLast? = true ∧
    noLetter b.head? = true

open Renaming in
/-- **Two kinds of plain names do not stay when the accounts are moved aside.** -/
theorem relocateText_eq_self_iff {n : String} (h : IsPlain n) :
    relocateText n = n ↔ n ≠ "UserRepository" ∧ ¬NamesTable n := by
  by_cases hne : n = "UserRepository"
  · subst hne
    exact iff_of_false (by decide) fun hkept => hkept.1 rfl
  · have hnames : (relocateText n).toList = accountTable.applyFrom 0 none n.toList := by
      rw [toList_relocateText, applyAll_ofAccounts (h.notMem (by decide))]
      simp only [ofNames, applyAll_cons_self, accountType_plain h, accountRepository_plain h hne]
      rfl
    rw [← String.toList_inj, hnames, applyFrom_eq_self_iff (by decide) (by decide)]
    simp only [NamesTable, Option.or_none, ne_eq, hne, not_false_eq_true, true_and, not_exists,
      not_and]
    rfl

/-- The names `users1` and `2users` become `auth_users1` and `2auth_users`, but `superusers`
stays. -/
example : [relocateText "users1", relocateText "2users", relocateText "superusers"] =
    ["auth_users1", "2auth_users", "superusers"] := by decide

end Scaffold.Project
