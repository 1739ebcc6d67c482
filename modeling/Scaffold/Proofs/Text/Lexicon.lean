import Mathlib.Data.List.Chain
import Mathlib.Data.List.Infix

/-!
# Proofs/Text/Lexicon — texts that are read item by item

A **lexicon** tells the text of every item and in front of which rests of a text the item may stand.
Whatever a text is, it has a reading (`exists_reads`), and what goes on behind every item is a fold
over the items of any reading (`Reads.foldr_eq`).  An item that is begun may be ended by two
characters or by the end of the text (`exists_cut`).
-/

namespace Scaffold.Text

/-- Items, and the texts that are made of them. -/
structure Lexicon (α : Type) where
  text : α → List Char
  /-- The item may stand in front of this rest of a text. -/
  Fits : α → List Char → Prop
  text_ne_nil : ∀ x, text x ≠ []
  /-- Every text begins with an item. -/
  begins : ∀ c cs, ∃ x rest, c :: cs = text x ++ rest ∧ Fits x rest

namespace Lexicon

variable {α : Type} {L : Lexicon α}

/-- The items make up the text, each in a place where it may stand. -/
inductive Reads (L : Lexicon α) : List α → List Char → Prop
  | nil : Reads L [] []
  | cons {x : α} {xs : List α} {cs : List Char} (hx : L.Fits x cs) (h : Reads L xs cs) :
      Reads L (x :: xs) (L.text x ++ cs)

/-- **Every text can be read.** -/
theorem exists_reads (L : Lexicon α) (cs : List Char) : ∃ xs, L.Reads xs cs := by
  induction hn : cs.length using Nat.strong_induction_on generalizing cs with
  | _ n ih =>
    cases cs with
    | nil => exact ⟨[], .nil⟩
    | cons c cs =>
      obtain ⟨x, rest, htext, hx⟩ := L.begins c cs
      have hshorter : rest.length < n := by
        rw [← hn, htext, List.length_append]
        exact Nat.lt_add_of_pos_left (List.length_pos_of_ne_nil (L.text_ne_nil x))
      obtain ⟨xs, hxs⟩ := ih rest.length hshorter rest rfl
      exact ⟨x :: xs, htext ▸ .cons hx hxs⟩

variable {xs : List α} {cs : List Char}

/-- What goes on behind an item is a fold over the items. -/
theorem Reads.foldr_eq {β : Type} {f : List Char → β} {g : α → β → β}
    (hstep : ∀ x rest, L.Fits x rest → f (L.text x ++ rest) = g x (f rest)) (h : L.Reads xs cs) :
    f cs = xs.foldr g (f []) := by
  induction h with
  | nil => rfl
  | @cons x xs cs hx h ih => rw [hstep x cs hx, ih, List.foldr_cons]

/-- What is done word by word is done to the text of the words. -/
theorem Reads.flatMap_eq {β : Type} {f : List Char → List β} {g : α → List β} (hnil : f [] = [])
    (hstep : ∀ x rest, L.Fits x rest → f (L.text x ++ rest) = g x ++ f rest) (h : L.Reads xs cs) :
    f cs = xs.flatMap g := by
  induction h with
  | nil => exact hnil
  | @cons x xs cs hx h ih => rw [hstep x cs hx, ih, List.flatMap_cons]

/-- Each word fits what follows it. -/
theorem Reads.exists_fits (h : L.Reads xs cs) {x : α} (hx : x ∈ xs) : ∃ rest, L.Fits x rest := by
  induction h with
  | nil => exact absurd hx List.not_mem_nil
  | @cons y xs cs hy h ih =>
    obtain rfl | hx := List.mem_cons.mp hx
    · exact ⟨cs, hy⟩
    · exact ih hx

end Lexicon

/-! ## The end of an item -/

/-- What ends an item, if it is ended. -/
def ending (mark : List Char) (closed : Bool) : List Char := if closed then mark else []

/-- The characters do not stand side by side in the text. -/
def Lacks (c d : Char) (cs : List Char) : Prop := cs.IsChain fun x y => ¬(x = c ∧ y = d)

/-- A text up to the first occurrence of a character, or else all of it. -/
theorem exists_stretch (c : Char) (cs : List Char) : ∃ body rest,
    cs = body ++ rest ∧ c ∉ body ∧ ∀ d ∈ rest.head?, d = c := by
  induction cs with
  | nil => exact ⟨[], [], rfl, List.not_mem_nil, fun d hd => by cases hd⟩
  | cons x cs ih =>
    by_cases hx : x = c
    · refine ⟨[], x :: cs, rfl, List.not_mem_nil, fun d hd => ?_⟩
      cases hd
      exact hx
    · obtain ⟨body, rest, rfl, hbody, hrest⟩ := ih
      exact ⟨x :: body, rest, rfl, by simpa [Ne.symm hx] using hbody, hrest⟩

/-- The character behind a place is the same, whether the end is taken in or not. -/
theorem head?_append_ending {c d : Char} {body rest : List Char} {closed : Bool}
    (hrest : closed = false → rest = []) :
    (body ++ ending [c, d] closed ++ rest).head? = (body ++ ending [c] closed).head? := by
  cases body with
  | cons x body => rfl
  | nil =>
    cases closed with
    | false => rw [hrest rfl]; rfl
    | true => rfl

/-- A text up to the first place where two characters stand side by side, or else all of it. -/
theorem exists_cut (c d : Char) (cs : List Char) : ∃ body closed rest,
    cs = body ++ ending [c, d] closed ++ rest ∧ Lacks c d (body ++ ending [c] closed) ∧
      (closed = false → rest = []) := by
  induction cs with
  | nil => exact ⟨[], false, [], rfl, .nil, fun _ => rfl⟩
  | cons x cs ih =>
    by_cases hfirst : x = c ∧ cs.head? = some d
    · obtain ⟨rfl, hnext⟩ := hfirst
      obtain ⟨rest, rfl⟩ := List.head?_eq_some_iff.mp hnext
      exact ⟨[], true, rest, rfl, .singleton x, Bool.noConfusion⟩
    · obtain ⟨body, closed, rest, rfl, hlacks, hrest⟩ := ih
      rw [head?_append_ending hrest] at hfirst
      refine ⟨x :: body, closed, rest, rfl, List.isChain_cons.mpr ⟨?_, hlacks⟩, hrest⟩
      rintro y hy ⟨rfl, rfl⟩
      exact hfirst ⟨rfl, hy⟩

end Scaffold.Text
