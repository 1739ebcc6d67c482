import Mathlib.Data.List.DropRight
import Mathlib.Tactic.IntervalCases
import Scaffold.Text.Lines

/-!
# Proofs/Text/Trim — what trimming takes away

A trimmed text differs from the text in what stood at its ends, and all of that is blank
(`exists_trim`).  What is blank at an end is trimmed away whatever stands beside it.
-/

namespace Scaffold.Text

variable {α β : Type} (p : α → Bool)

theorem exists_eq_append_dropWhile (xs : List α) :
    ∃ front, (∀ x ∈ front, p x = true) ∧ xs = front ++ xs.dropWhile p :=
  ⟨xs.takeWhile p, fun _ hx => List.mem_takeWhile_imp hx, List.takeWhile_append_dropWhile.symm⟩

theorem exists_eq_dropTail_append (xs : List α) :
    ∃ tail, (∀ x ∈ tail, p x = true) ∧ xs = dropTail p xs ++ tail :=
  ⟨xs.rtakeWhile p, fun _ hx => List.mem_rtakeWhile_imp hx,
    List.rdropWhile_append_rtakeWhile.symm⟩

/-- What is trimmed from both ends is blank. -/
theorem exists_trim (xs : List α) : ∃ front tail, (∀ x ∈ front, p x = true) ∧
    (∀ x ∈ tail, p x = true) ∧ xs = front ++ dropTail p (xs.dropWhile p) ++ tail := by
  obtain ⟨front, hfront, hxs⟩ := exists_eq_append_dropWhile p xs
  obtain ⟨tail, htail, hrest⟩ := exists_eq_dropTail_append p (xs.dropWhile p)
  refine ⟨front, tail, hfront, htail, ?_⟩
  rw [List.append_assoc, ← hrest]
  exact hxs

/-! ## What trimming leaves -/

variable {p}

theorem dropWhile_append_of_all {xs : List α} (h : ∀ x ∈ xs, p x = true) (ys : List α) :
    (xs ++ ys).dropWhile p = ys.dropWhile p :=
  List.dropWhile_append_of_pos h

theorem dropTail_append_of_all {ys : List α} (h : ∀ y ∈ ys, p y = true) (xs : List α) :
    dropTail p (xs ++ ys) = dropTail p xs := by
  rw [dropTail, List.reverse_append, List.dropWhile_append_of_pos fun y hy =>
    h y (List.mem_reverse.mp hy)]
  rfl

/-- Dropping the end of two texts drops from the second first. -/
theorem dropTail_append (xs ys : List α) :
    dropTail p (xs ++ ys) = if dropTail p ys = [] then dropTail p xs else xs ++ dropTail p ys := by
  rw [dropTail, List.reverse_append, List.dropWhile_append]
  split
  · rename_i hempty
    rw [if_pos (by rw [dropTail, List.isEmpty_iff.mp hempty]; rfl)]
    rfl
  · rename_i hempty
    rw [List.isEmpty_iff] at hempty
    rw [if_neg (by rwa [dropTail, List.reverse_eq_nil_iff]), List.reverse_append,
      List.reverse_reverse]
    rfl

/-- A letter is dropped if all behind it are and it may be. -/
theorem dropTail_cons (x : α) (xs : List α) :
    dropTail p (x :: xs) =
      if dropTail p xs = [] ∧ p x = true then [] else x :: dropTail p xs := by
  rw [dropTail, List.reverse_cons, List.dropWhile_append]
  cases hrest : xs.reverse.dropWhile p with
  | nil => cases hx : p x <;> simp [dropTail, hrest, hx]
  | cons y ys => simp [dropTail, hrest]

theorem dropTail_cons_of_neg {x : α} (h : p x = false) (xs : List α) :
    dropTail p (x :: xs) = x :: dropTail p xs := by
  rw [dropTail_cons, if_neg (by simp [h])]

theorem dropTail_of_getLast {xs : List α} (h : ∀ x ∈ xs.getLast?, p x = false) :
    dropTail p xs = xs := by
  refine List.rdropWhile_eq_self_iff.mpr fun hne => ?_
  rw [h _ (List.getLast?_eq_some_getLast hne)]
  exact Bool.false_ne_true

/-- Blanks at the ends make no difference to a trimmed text. -/
theorem trim_append {front tail : List α} (hfront : ∀ x ∈ front, p x = true)
    (htail : ∀ x ∈ tail, p x = true) (xs : List α) :
    dropTail p ((front ++ xs ++ tail).dropWhile p) = dropTail p (xs.dropWhile p) := by
  rw [List.append_assoc, dropWhile_append_of_all hfront, List.dropWhile_append]
  split
  · rename_i hempty
    have hnil : tail.dropWhile p = [] := List.dropWhile_eq_nil_iff.mpr htail
    rw [List.isEmpty_iff.mp hempty, hnil]
  · exact dropTail_append_of_all htail _

theorem dropWhile_of_head {xs : List α} (h : ∀ x ∈ xs.head?, p x = false) :
    xs.dropWhile p = xs := by
  cases xs with
  | nil => rfl
  | cons x xs => exact List.dropWhile_cons_of_neg (by rw [h x rfl]; exact Bool.false_ne_true)

theorem takeWhile_of_head {xs : List α} (h : ∀ x ∈ xs.head?, p x = false) :
    xs.takeWhile p = [] := by
  cases xs with
  | nil => rfl
  | cons x xs => exact List.takeWhile_cons_of_neg (by rw [h x rfl]; exact Bool.false_ne_true)

/-! ## Trimmed texts -/

/-- There is nothing to trim at either end. -/
structure IsTrimmed (p : α → Bool) (xs : List α) : Prop where
  first : ∀ x ∈ xs.head?, p x = false
  last : ∀ x ∈ xs.getLast?, p x = false

/-- A trimmed text is trimmed. -/
theorem isTrimmed_trim (xs : List α) : IsTrimmed p (dropTail p (xs.dropWhile p)) where
  first x hx := by
    have hhead := List.head?_dropWhile_not p xs
    cases hxs : xs.dropWhile p with
    | nil =>
      rw [hxs] at hx
      cases hx
    | cons y ys =>
      rw [hxs] at hhead hx
      have hy : p y = false := by simpa using hhead
      rw [dropTail_cons_of_neg hy] at hx
      rwa [← Option.some.inj hx]
  last x hx := by
    obtain ⟨hne, rfl⟩ := List.mem_getLast?_eq_getLast hx
    exact Bool.eq_false_iff.mpr (List.rdropWhile_last_not p _ hne)

theorem isTrimmed_map {p : β → Bool} {f : α → β} {xs : List α} :
    IsTrimmed p (xs.map f) ↔ IsTrimmed (fun x => p (f x)) xs := by
  constructor
  · rintro ⟨hfirst, hlast⟩
    constructor
    · simpa using hfirst
    · simpa using hlast
  · rintro ⟨hfirst, hlast⟩
    constructor
    · simpa using hfirst
    · simpa using hlast

namespace IsTrimmed

variable {xs : List α} (h : IsTrimmed p xs)
include h

theorem dropTail_append (front : List α) (hne : xs ≠ []) :
    dropTail p (front ++ xs) = front ++ xs := by
  refine dropTail_of_getLast ?_
  rw [List.getLast?_append_of_ne_nil _ hne]
  exact h.last

/-- What is blank in front of a trimmed text is all that is trimmed away. -/
theorem trim_append {front : List α} (hfront : ∀ x ∈ front, p x = true) :
    dropTail p ((front ++ xs).dropWhile p) = xs := by
  rw [dropWhile_append_of_all hfront, dropWhile_of_head h.first, dropTail_of_getLast h.last]

theorem trim_eq : dropTail p (xs.dropWhile p) = xs := h.trim_append (List.forall_mem_nil _)

end IsTrimmed

/-- Trimming leaves nothing to trim. -/
theorem trim_trim (xs : List α) :
    dropTail p ((dropTail p (xs.dropWhile p)).dropWhile p) = dropTail p (xs.dropWhile p) :=
  (isTrimmed_trim xs).trim_eq

/-! ## White space -/

/-- All the white space there is. -/
def blanks : List Char :=
  ([0x20, 0x09, 0x0a, 0x0b, 0x0c, 0x0d, 0x1c, 0x1d, 0x1e, 0x1f, 0x85, 0xa0, 0x1680, 0x2000, 0x2001,
    0x2002, 0x2003, 0x2004, 0x2005, 0x2006, 0x2007, 0x2008, 0x2009, 0x200a, 0x2028, 0x2029, 0x202f,
    0x205f, 0x3000]).map Char.ofNat

theorem mem_blanks {c : Char} (h : isBlank c = true) : c ∈ blanks := by
  rw [blanks, ← Char.ofNat_toNat c]
  refine List.mem_map_of_mem ?_
  simp only [isBlank, Bool.or_eq_true, Bool.and_eq_true, beq_iff_eq, decide_eq_true_eq] at h
  generalize c.toNat = n at h ⊢
  obtain ((((((((((((rfl | ⟨hlow, hhigh⟩) | ⟨hlow, hhigh⟩) | rfl) | rfl) | rfl) |
    ⟨hlow, hhigh⟩) | rfl) | rfl) | rfl) | rfl) | rfl)) := h
  all_goals first | decide | (interval_cases n <;> decide)

/-- White space is no part of a word. -/
theorem isWord_of_blank {c : Char} (h : isBlank c = true) : isWord c = false := by
  have hall : ∀ x ∈ blanks, isWord x = false := by decide +kernel
  exact hall c (mem_blanks h)

end Scaffold.Text
