import Scaffold.Project.Relocation
import Scaffold.Proofs.Artifact.Imports

/-!
# Proofs/Project/Relocation — a text is relocated line by line

No word that is renamed holds a line feed, so a renaming makes every line of a text by itself, from
that line and from what may stand around it (`exists_renames_of_mem_lines`).  What takes the place
of a word begins unlike any part of an import, so an import line comes from one
(`Renames.prefix_of_prefix`).  The import lines of a relocated text can therefore be computed from
those of the text (`importsAmong_relocateText`).
-/

namespace List

/-- A beginning that shares nothing with what follows ends before it. -/
theorem prefix_of_prefix_append {α : Type} {p xs ys : List α} (h : p <+: xs ++ ys)
    (hys : ∀ y ∈ ys, y ∉ p) : p <+: xs := by
  obtain hp | ⟨rest, rfl⟩ := prefix_or_prefix_of_prefix h (prefix_append xs ys)
  · exact hp
  · rw [prefix_append_right_inj] at h
    cases rest with
    | nil => exact (append_nil xs).symm ▸ prefix_rfl
    | cons y rest =>
      have hy : y ∈ ys := h.subset mem_cons_self
      exact absurd (mem_append_right xs mem_cons_self) (hys y hy)

end List

namespace Scaffold.Project

open Artifact Template Text

namespace Renaming

/-! ## Lines -/

/-- The renaming stays within a line, and what takes the place of a word is no part of an import
word. -/
structure Inline (r : Renaming) : Prop where
  nonempty : r.word ≠ []
  word : '\n' ∉ r.word
  replacement : '\n' ∉ r.replacement
  foreign : ∀ c ∈ r.replacement.head?, c ∉ importWord
  replaced : r.replacement ≠ []

/-- The word does not go past a character. -/
structure Stops (r : Renaming) (q : Char) : Prop where
  nonempty : r.word ≠ []
  word : q ∉ r.word

theorem Inline.stops {r : Renaming} (h : r.Inline) : r.Stops '\n' := ⟨h.nonempty, h.word⟩

/-- A line becomes another one wherever it may stand in a text. -/
def Renames (r : Renaming) (l l' : List Char) : Prop :=
  ∃ last ∈ [none, some '\n'], ∃ tail ∈ [[], ['\n']], r.applyFrom 0 last (l ++ tail) = l' ++ tail

variable {r : Renaming}

/-- Whether a rule applies is decided before a letter that stops it. -/
theorem applies_append {q : Char} (h : r.Stops q) (last : Option Char) (cs ds : List Char) :
    r.applies last (cs ++ q :: ds) = r.applies last (cs ++ [q]) := by
  rw [applies, applies, afterWord?_append h.word, afterWord?_append h.word]
  cases afterWord? r.word cs with
  | none => rfl
  | some rest => cases rest <;> rfl

/-- A rule that applies has its word before that letter. -/
theorem length_word_le {q : Char} (h : r.Stops q) {last : Option Char} {cs : List Char}
    (happlies : r.applies last (cs ++ [q]) = true) : r.word.length ≤ cs.length := by
  rw [applies, afterWord?_append h.word] at happlies
  cases hafter : afterWord? r.word cs with
  | none =>
    rw [hafter] at happlies
    cases happlies
  | some rest =>
    rw [eq_append_of_afterWord? hafter, List.length_append]
    exact Nat.le_add_right _ _

theorem applies_stop {q : Char} (h : r.Stops q) (last : Option Char) (ds : List Char) :
    r.applies last (q :: ds) = false := by
  refine Bool.eq_false_iff.mpr fun happlies => ?_
  have hlength := length_word_le h ((applies_append h last [] ds).symm.trans happlies)
  exact h.nonempty (List.eq_nil_of_length_eq_zero (Nat.le_zero.mp hlength))

/-- What stands in front of a stop is renamed by itself. -/
theorem exists_applyFrom {q : Char} (h : r.Stops q) {skip : Nat} {cs : List Char}
    (last : Option Char) (hskip : skip ≤ cs.length) :
    ∃ cs', (∀ c ∈ cs', c ∈ cs ∨ c ∈ r.replacement) ∧ ∀ ds,
      r.applyFrom skip last (cs ++ q :: ds) = cs' ++ q :: r.applyFrom 0 (some q) ds := by
  induction cs generalizing skip last with
  | nil =>
    obtain rfl := Nat.le_zero.mp hskip
    refine ⟨[], fun c hc => absurd hc List.not_mem_nil, fun ds => ?_⟩
    rw [List.nil_append, List.nil_append, applyFrom]
    simp only [applies_stop h, Bool.false_eq_true, if_false]
  | cons c cs ih =>
    have hcons {d : Char} (h : d ∈ cs ∨ d ∈ r.replacement) : d ∈ c :: cs ∨ d ∈ r.replacement :=
      h.imp_left (List.mem_cons_of_mem c)
    cases skip with
    | succ n =>
      obtain ⟨cs', hcs', heq⟩ := ih (some c) (Nat.le_of_succ_le_succ hskip)
      refine ⟨cs', fun d hd => hcons (hcs' d hd), fun ds => ?_⟩
      rw [List.cons_append, applyFrom]
      exact heq ds
    | zero =>
      by_cases happlies : r.applies last (c :: cs ++ [q]) = true
      · have hlength := length_word_le h happlies
        have hskip : r.word.length - 1 ≤ cs.length := Nat.sub_le_of_le_add hlength
        obtain ⟨cs', hcs', heq⟩ := ih (some c) hskip
        refine ⟨r.replacement ++ cs', ?_, fun ds => ?_⟩
        · exact List.forall_mem_append.mpr ⟨fun d hd => .inr hd, fun d hd => hcons (hcs' d hd)⟩
        · rw [List.cons_append, applyFrom]
          simp only [← List.cons_append, applies_append h, happlies, if_true]
          rw [heq, List.append_assoc]
      · obtain ⟨cs', hcs', heq⟩ := ih (some c) (Nat.zero_le _)
        refine ⟨c :: cs', ?_, fun ds => ?_⟩
        · exact List.forall_mem_cons.mpr ⟨.inl List.mem_cons_self, fun d hd => hcons (hcs' d hd)⟩
        · rw [List.cons_append, applyFrom]
          simp only [← List.cons_append, applies_append h, if_neg happlies]
          rw [heq]
          rfl

/-- A line is renamed by itself. -/
theorem exists_applyFrom_line (h : r.Inline) {skip : Nat} {cs : List Char} (last : Option Char)
    (hskip : skip ≤ cs.length) (hcs : '\n' ∉ cs) :
    ∃ cs', '\n' ∉ cs' ∧ ∀ ds, r.applyFrom skip last (cs ++ '\n' :: ds) =
      cs' ++ '\n' :: r.applyFrom 0 (some '\n') ds := by
  obtain ⟨cs', hcs', heq⟩ := exists_applyFrom h.stops last hskip
  exact ⟨cs', fun hmem => (hcs' _ hmem).elim hcs h.replacement, heq⟩

/-- A letter was there, or the rule wrote it. -/
theorem mem_of_mem_applyFrom {skip : Nat} {last : Option Char} {cs : List Char} {c : Char}
    (hc : c ∈ r.applyFrom skip last cs) : c ∈ cs ∨ c ∈ r.replacement := by
  induction cs generalizing skip last with
  | nil => exact absurd hc List.not_mem_nil
  | cons d cs ih =>
    have hcons (h : c ∈ cs ∨ c ∈ r.replacement) : c ∈ d :: cs ∨ c ∈ r.replacement :=
      h.imp_left (List.mem_cons_of_mem d)
    cases skip with
    | succ n => exact hcons (ih hc)
    | zero =>
      rw [applyFrom] at hc
      split at hc
      · obtain hc | hc := List.mem_append.mp hc
        · exact .inr hc
        · exact hcons (ih hc)
      · obtain rfl | hc := List.mem_cons.mp hc
        · exact .inl List.mem_cons_self
        · exact hcons (ih hc)

/-- Every line of a renamed text comes from one of the text. -/
theorem exists_renames_of_mem_lines (h : r.Inline) {last : Option Char}
    (hlast : last ∈ [none, some '\n']) {cs l' : List Char}
    (hl' : l' ∈ lines (r.applyFrom 0 last cs)) : ∃ l ∈ lines cs, r.Renames l l' := by
  have hjoined : ∀ ls : List (List Char), ls ≠ [] → (∀ l ∈ ls, '\n' ∉ l) → ∀ last ∈ [none, some '\n'],
      l' ∈ lines (r.applyFrom 0 last (joinWith ['\n'] ls)) → ∃ l ∈ ls, r.Renames l l' := by
    intro ls
    induction ls with
    | nil => exact fun hne => absurd rfl hne
    | cons l ls ih =>
      intro _ hls last hlast hl'
      obtain ⟨hl, hls⟩ := List.forall_mem_cons.mp hls
      cases ls with
      | nil =>
        have hline : '\n' ∉ r.applyFrom 0 last l :=
          fun hmem => (mem_of_mem_applyFrom hmem).elim hl h.replacement
        rw [joinWith, lines, pieces_of_notMem hline, List.mem_singleton] at hl'
        refine ⟨l, List.mem_singleton_self l, last, hlast, [], by decide, ?_⟩
        rw [List.append_nil, List.append_nil, hl']
      | cons m ms =>
        obtain ⟨l'', hl'', heq⟩ := exists_applyFrom_line h last (Nat.zero_le _) hl
        rw [joinWith, List.append_assoc, List.singleton_append, heq, lines, pieces_append_cons,
          pieces_of_notMem hl'', List.singleton_append] at hl'
        obtain rfl | hl' := List.mem_cons.mp hl'
        · exact ⟨l, List.mem_cons_self, last, hlast, ['\n'], by decide, heq []⟩
        · obtain ⟨k, hk, hrenames⟩ :=
            ih (List.cons_ne_nil m ms) hls (some '\n') (by decide) hl'
          exact ⟨k, List.mem_cons_of_mem l hk, hrenames⟩
  refine hjoined (lines cs) (pieces_ne_nil '\n' cs) (fun l hl => notMem_of_mem_pieces hl) last
    hlast ?_
  rwa [lines.eq_def cs, joinWith_pieces]

/-! ## Prefixes -/

/-- A beginning that the rule does not write was there. -/
theorem prefix_of_prefix_applyFrom {p : List Char} (hreplaced : r.replacement ≠ [])
    (hforeign : ∀ c ∈ r.replacement.head?, c ∉ p) {last : Option Char} {cs : List Char}
    (hp : p <+: r.applyFrom 0 last cs) : p <+: cs := by
  induction p generalizing last cs with
  | nil => exact List.nil_prefix
  | cons a p ih =>
    cases cs with
    | nil => exact hp
    | cons c cs =>
      rw [applyFrom] at hp
      split at hp
      · cases hreplacement : r.replacement with
        | nil => exact absurd hreplacement hreplaced
        | cons d ds =>
          rw [hreplacement, List.cons_append, List.cons_prefix_cons] at hp
          have hd := hforeign d (by rw [hreplacement]; rfl)
          exact absurd (hp.1 ▸ List.mem_cons_self) hd
      · rw [List.cons_prefix_cons] at hp
        rw [List.cons_prefix_cons]
        exact ⟨hp.1, ih (fun e he hmem => hforeign e he (List.mem_cons_of_mem a hmem)) hp.2⟩

/-- No line becomes an import. -/
theorem Renames.prefix_of_prefix (h : r.Inline) {l l' : List Char} (hrenames : r.Renames l l')
    (himport : importWord <+: l') : importWord <+: l := by
  obtain ⟨last, -, tail, htail, heq⟩ := hrenames
  have htail : ∀ c ∈ tail, c ∉ importWord := by
    simp only [List.mem_cons, List.not_mem_nil, or_false] at htail
    obtain rfl | rfl := htail <;> decide
  have hlong : importWord <+: r.applyFrom 0 last (l ++ tail) := by
    rw [heq]
    exact himport.trans (List.prefix_append l' tail)
  exact List.prefix_of_prefix_append (prefix_of_prefix_applyFrom h.replaced h.foreign hlong) htail

/-! ## Computing a line -/

/-- What a line becomes, if that does not depend on where it stands. -/
def line? (r : Renaming) (l : List Char) : Option (List Char) :=
  let l' := r.applyFrom 0 none l
  if r.applyFrom 0 none (l ++ ['\n']) = l' ++ ['\n'] ∧ r.applyFrom 0 (some '\n') l = l' ∧
      r.applyFrom 0 (some '\n') (l ++ ['\n']) = l' ++ ['\n'] then some l' else none

/-- A line is renamed in one way. -/
theorem Renames.eq_of_line? {l l' l'' : List Char} (hrenames : r.Renames l l')
    (hline : r.line? l = some l'') : l' = l'' := by
  obtain ⟨last, hlast, tail, htail, heq⟩ := hrenames
  simp only [line?, Option.ite_none_right_eq_some, Option.some.injEq] at hline
  obtain ⟨⟨hend, hbegin, hboth⟩, rfl⟩ := hline
  simp only [List.mem_cons, List.not_mem_nil, or_false] at hlast htail
  obtain rfl | rfl := hlast <;> obtain rfl | rfl := htail
  · simpa using heq.symm
  · exact List.append_cancel_right (heq.symm.trans hend)
  · rw [List.append_nil, List.append_nil, hbegin] at heq
    exact heq.symm
  · exact List.append_cancel_right (heq.symm.trans hboth)

/-- The first line of a text is renamed to what it becomes anywhere. -/
theorem apply_line (h : r.Inline) {l l' : List Char} (hl : '\n' ∉ l) (hline : r.line? l = some l') :
    '\n' ∉ l' ∧ ∀ ds, r.apply (l ++ '\n' :: ds) = l' ++ '\n' :: r.applyFrom 0 (some '\n') ds := by
  obtain ⟨k, hk, heq⟩ := exists_applyFrom_line h none (Nat.zero_le _) hl
  have hrenames : r.Renames l k := ⟨none, by decide, ['\n'], by decide, heq []⟩
  obtain rfl := hrenames.eq_of_line? hline
  exact ⟨hk, heq⟩

theorem inline_accountType : accountType.Inline := by
  constructor <;> decide

theorem inline_accountRepository : accountRepository.Inline := by
  constructor <;> decide

theorem inline_accountModule : accountModule.Inline := by
  constructor <;> decide

theorem inline_accountTable : accountTable.Inline := by
  constructor <;> decide

end Renaming

open Renaming in
/-- What a line of a text becomes when the text is relocated. -/
def relocateLine? (l : List Char) : Option (List Char) :=
  (accountType.line? l).bind fun l => (accountRepository.line? l).bind fun l =>
    (accountModule.line? l).bind accountTable.line?

open Renaming in
/-- **The import lines of a relocated text come from those of the text.** -/
theorem exists_relocated_of_import {s : String} {l : List Char}
    (hl : l ∈ lines (relocateText s).toList) (himport : importWord <+: l) :
    ∃ l₀ ∈ lines s.toList, importWord <+: l₀ ∧ ∀ l', relocateLine? l₀ = some l' → l = l' := by
  have hnone : none ∈ [none, some '\n'] := List.mem_cons_self
  rw [relocateText, String.toList_ofList] at hl
  obtain ⟨l₃, hl₃, htable⟩ := exists_renames_of_mem_lines inline_accountTable hnone hl
  obtain ⟨l₂, hl₂, hmodule⟩ := exists_renames_of_mem_lines inline_accountModule hnone hl₃
  obtain ⟨l₁, hl₁, hrepository⟩ := exists_renames_of_mem_lines inline_accountRepository hnone hl₂
  obtain ⟨l₀, hl₀, htype⟩ := exists_renames_of_mem_lines inline_accountType hnone hl₁
  have himport₀ : importWord <+: l₀ :=
    htype.prefix_of_prefix inline_accountType
      (hrepository.prefix_of_prefix inline_accountRepository
        (hmodule.prefix_of_prefix inline_accountModule
          (htable.prefix_of_prefix inline_accountTable himport)))
  refine ⟨l₀, hl₀, himport₀, fun l' hl' => ?_⟩
  obtain ⟨k₁, hk₁, hl'⟩ := Option.bind_eq_some_iff.mp hl'
  obtain ⟨k₂, hk₂, hl'⟩ := Option.bind_eq_some_iff.mp hl'
  obtain ⟨k₃, hk₃, hl'⟩ := Option.bind_eq_some_iff.mp hl'
  obtain rfl := htype.eq_of_line? hk₁
  obtain rfl := hrepository.eq_of_line? hk₂
  obtain rfl := hmodule.eq_of_line? hk₃
  exact htable.eq_of_line? hl'

open Renaming in
/-- The first line of a text becomes what it becomes anywhere when the text is relocated. -/
theorem exists_relocateText_eq {l l' : List Char} (hl : '\n' ∉ l) (h : relocateLine? l = some l')
    {s : String} {ds : List Char} (hs : s.toList = l ++ '\n' :: ds) :
    ∃ rest, (relocateText s).toList = l' ++ '\n' :: rest := by
  obtain ⟨k₁, hk₁, h⟩ := Option.bind_eq_some_iff.mp h
  obtain ⟨k₂, hk₂, h⟩ := Option.bind_eq_some_iff.mp h
  obtain ⟨k₃, hk₃, h⟩ := Option.bind_eq_some_iff.mp h
  obtain ⟨hk₁, htype⟩ := apply_line inline_accountType hl hk₁
  obtain ⟨hk₂, hrepository⟩ := apply_line inline_accountRepository hk₁ hk₂
  obtain ⟨hk₃, hmodule⟩ := apply_line inline_accountModule hk₂ hk₃
  obtain ⟨-, htable⟩ := apply_line inline_accountTable hk₃ h
  rw [relocateText, String.toList_ofList, hs, htype, hrepository, hmodule, htable]
  exact ⟨_, rfl⟩

/-! ## Imports -/

/-- A name of the accounts after they have been moved aside. -/
def relocateName (n : String) : String :=
  if n = "User" then "AuthUser"
  else if n = "UserRepository" then "AuthUserRepository"
  else n

/-- A module of the accounts after they have been moved aside. -/
def relocateModule (s : String) : String :=
  if s = "../models/User" then "../models/AuthUser"
  else if s = "../repositories/UserRepository" then "../repositories/AuthUserRepository"
  else s

def relocateImport : Import → Import
  | .parts names s => .parts (names.map relocateName) (relocateModule s)
  | i => i

/-- The imports of a moved text are the moved imports. -/
theorem importsAmong_relocateText {content : String} {is : List Import}
    (h : ImportsAmong content is)
    (his : ∀ i ∈ is, relocateLine? i.line.toList = some (relocateImport i).line.toList) :
    ImportsAmong (relocateText content) (is.map relocateImport) := by
  intro l hl himport
  obtain ⟨l₀, hl₀, himport₀, hrelocated⟩ := exists_relocated_of_import hl himport
  obtain ⟨i, hi, rfl⟩ := h l₀ hl₀ himport₀
  exact ⟨relocateImport i, List.mem_map_of_mem hi, hrelocated _ (his i hi)⟩

end Scaffold.Project
