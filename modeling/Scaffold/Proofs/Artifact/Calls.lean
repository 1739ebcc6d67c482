import Scaffold.Proofs.Artifact.Imports
import Scaffold.Proofs.Text.Names

/-!
# Proofs/Artifact/Calls — the calls in an emitted line

A line that calls a function is taken apart into the function and its arguments: a comma parts two
arguments if it stands in no brackets of their own.  What is written with commas between *level*
texts comes back from it (`read?_append`).
-/

namespace Scaffold.Artifact

open Text

/-! ## Arguments -/

/-- How deep the brackets are behind a character. -/
def depthAfter (d : Nat) (c : Char) : Nat :=
  if c = '(' then d + 1 else if c = ')' then d - 1 else d

/-- The arguments in front of the bracket that closes a call. -/
def argumentsFrom (d : Nat) : List Char → List (List Char)
  | [] => [[]]
  | c :: cs =>
    if d = 0 ∧ c = ')' then [[]]
    else if d = 0 ∧ c = ',' then [] :: argumentsFrom 0 cs
    else (argumentsFrom (depthAfter d c) cs).modifyHead (c :: ·)

/-- The depth behind a text that does not end an argument. -/
def depthBehind? (d : Nat) : List Char → Option Nat
  | [] => some d
  | c :: cs => if d = 0 ∧ (c = ')' ∨ c = ',') then none else depthBehind? (depthAfter d c) cs

/-- The text is a whole argument: no comma of it parts two, and its brackets are closed. -/
def Level (cs : List Char) : Prop := depthBehind? 0 cs = some 0

instance (cs : List Char) : Decidable (Level cs) := inferInstanceAs (Decidable (_ = _))

/-- The depth is counted on where the first text ends. -/
theorem depthBehind?_append {d e : Nat} {cs : List Char} (h : depthBehind? d cs = some e)
    (ds : List Char) : depthBehind? d (cs ++ ds) = depthBehind? e ds := by
  induction cs generalizing d with
  | nil => rw [← Option.some.inj h, List.nil_append]
  | cons c cs ih =>
    rw [depthBehind?] at h
    split at h
    · cases h
    · rename_i hends
      rw [List.cons_append, depthBehind?, if_neg hends, ih h]

/-- A text without brackets leaves the depth; its commas must stand in brackets. -/
theorem depthBehind?_of_notMem {d : Nat} {cs : List Char} (hopen : '(' ∉ cs) (hclose : ')' ∉ cs)
    (hcomma : d = 0 → ',' ∉ cs) : depthBehind? d cs = some d := by
  induction cs with
  | nil => rfl
  | cons c cs ih =>
    obtain ⟨hc, hcs⟩ := not_or.mp (mt List.mem_cons.mpr hopen)
    obtain ⟨hc', hcs'⟩ := not_or.mp (mt List.mem_cons.mpr hclose)
    have hends : ¬(d = 0 ∧ (c = ')' ∨ c = ',')) := by
      rintro ⟨hd, rfl | rfl⟩
      · exact hc' rfl
      · exact hcomma hd List.mem_cons_self
    rw [depthBehind?, if_neg hends, depthAfter, if_neg (Ne.symm hc), if_neg (Ne.symm hc')]
    exact ih hcs hcs' fun hd => mt (List.mem_cons_of_mem c) (hcomma hd)

theorem level_of_notMem {cs : List Char} (hopen : '(' ∉ cs) (hclose : ')' ∉ cs) (hcomma : ',' ∉ cs) :
    Level cs :=
  depthBehind?_of_notMem hopen hclose fun _ => hcomma

/-- A text that keeps the depth above zero goes into the first argument as a whole. -/
theorem argumentsFrom_append {d e : Nat} {cs : List Char} (h : depthBehind? d cs = some e)
    (ds : List Char) :
    argumentsFrom d (cs ++ ds) = (argumentsFrom e ds).modifyHead (cs ++ ·) := by
  induction cs generalizing d with
  | nil =>
    rw [← Option.some.inj h, List.nil_append]
    cases argumentsFrom d ds <;> rfl
  | cons c cs ih =>
    rw [depthBehind?] at h
    split at h
    · cases h
    · rename_i hends
      have hclose : ¬(d = 0 ∧ c = ')') := fun hc => hends ⟨hc.1, .inl hc.2⟩
      have hcomma : ¬(d = 0 ∧ c = ',') := fun hc => hends ⟨hc.1, .inr hc.2⟩
      rw [List.cons_append, argumentsFrom, if_neg hclose, if_neg hcomma, ih h,
        List.modifyHead_modifyHead]
      rfl

/-- What is put between commas and in front of a closing bracket comes back. -/
theorem argumentsFrom_joinWith {a : List Char} {as : List (List Char)}
    (h : ∀ b ∈ a :: as, Level b) (rest : List Char) :
    argumentsFrom 0 (joinWith [',', ' '] (a :: as) ++ ')' :: rest) = a :: as.map (' ' :: ·) := by
  induction as generalizing a with
  | nil =>
    rw [joinWith, argumentsFrom_append (h a List.mem_cons_self), argumentsFrom, if_pos ⟨rfl, rfl⟩]
    simp
  | cons b bs ih =>
    have hblank : argumentsFrom 0 (' ' :: (joinWith [',', ' '] (b :: bs) ++ ')' :: rest)) =
        (' ' :: b) :: bs.map (' ' :: ·) := by
      have hdepth : depthBehind? 0 [' '] = some 0 := rfl
      have hstep := argumentsFrom_append hdepth (joinWith [',', ' '] (b :: bs) ++ ')' :: rest)
      rw [ih fun c hc => h c (List.mem_cons_of_mem a hc)] at hstep
      exact hstep
    rw [joinWith, List.append_assoc, List.append_assoc,
      argumentsFrom_append (h a List.mem_cons_self)]
    have hcomma : argumentsFrom 0 ([',', ' '] ++ (joinWith [',', ' '] (b :: bs) ++ ')' :: rest)) =
        [] :: argumentsFrom 0 (' ' :: (joinWith [',', ' '] (b :: bs) ++ ')' :: rest)) := by
      rw [List.cons_append, argumentsFrom, if_neg (by decide), if_pos ⟨rfl, rfl⟩]
      rfl
    rw [hcomma, hblank]
    simp

/-! ## Calls -/

/-- A function and what it is called with. -/
structure Call where
  function : List Char
  arguments : List (List Char)
deriving DecidableEq, Repr

namespace Call

/-- The call that a line begins with. -/
def read? (l : List Char) : Option Call :=
  (cutAt? ['('] l).map fun (function, rest) => ⟨function, (argumentsFrom 0 rest).map trimLeft⟩

/-- The text does not begin with a blank. -/
def Flush (cs : List Char) : Prop := trimLeft cs = cs

instance (cs : List Char) : Decidable (Flush cs) := inferInstanceAs (Decidable (_ = _))

theorem flush_cons {c : Char} (h : isBlank c = false) (cs : List Char) : Flush (c :: cs) := by
  rw [Flush, trimLeft, List.dropWhile_cons, h]
  rfl

/-- A text of letters and digits. -/
theorem level_and_flush_of_isPlain {s : String} (h : IsPlain s) :
    Level s.toList ∧ Flush s.toList := by
  refine ⟨level_of_notMem (h.notMem (by decide)) (h.notMem (by decide)) (h.notMem (by decide)), ?_⟩
  cases hcs : s.toList with
  | nil => rfl
  | cons c cs => exact flush_cons (isBlank_eq_false (h c (hcs ▸ List.mem_cons_self))) cs

/-- **A call is read as it was written.** -/
theorem read?_append {function : List Char} {as : List (List Char)} (hfunction : '(' ∉ function)
    (hne : as ≠ []) (h : ∀ b ∈ as, Level b ∧ Flush b) (rest : List Char) :
    read? (function ++ '(' :: (joinWith [',', ' '] as ++ ')' :: rest)) = some ⟨function, as⟩ := by
  have hflush : ∀ b ∈ as, trimLeft b = b := fun b hb => (h b hb).2
  obtain ⟨a, bs, rfl⟩ := List.exists_cons_of_ne_nil hne
  have hfirst : trimLeft a = a := hflush a List.mem_cons_self
  have hrest : (bs.map (' ' :: ·)).map trimLeft = bs := by
    rw [List.map_map]
    exact (List.map_congr_left fun b hb => hflush b (List.mem_cons_of_mem a hb)).trans
      (List.map_id' bs)
  have harguments := argumentsFrom_joinWith (fun b hb => (h b hb).1) rest
  simp only [read?, cutAt?_singleton hfunction, Option.map_some, harguments, List.map_cons, hfirst,
    hrest]

/-- The line begins with the function and a bracket. -/
theorem exists_eq_of_read? {l : List Char} {c : Call} (h : read? l = some c) :
    ∃ rest, l = c.function ++ '(' :: rest := by
  obtain ⟨⟨function, rest⟩, hcut, rfl⟩ := Option.map_eq_some_iff.mp h
  refine ⟨rest, ?_⟩
  rw [eq_append_of_cutAt? hcut, List.append_assoc, List.singleton_append]

theorem read?_eq_none {l : List Char} (h : '(' ∉ l) : read? l = none := by
  rw [read?, cutAt?_eq_none h, Option.map_none]

end Call

/-! ## Quoted texts -/

/-- The text between single quotes. -/
def quotedText? (cs : List Char) : Option String :=
  match pieces '\'' cs with
  | [[], s, []] => some (String.ofList s)
  | _ => none

theorem toList_quoted (s : String) : (quoted s).toList = '\'' :: (s.toList ++ ['\'']) := by
  have hquote : "'".toList = ['\''] := by decide
  rw [quoted, String.toList_append, String.toList_append, hquote, List.append_assoc]
  rfl

/-- What was put in quotes is found between them. -/
theorem quotedText?_quoted {s : String} (h : '\'' ∉ s.toList) :
    quotedText? (quoted s).toList = some s := by
  have hpieces : pieces '\'' (quoted s).toList = [[], s.toList, []] := by
    have hstart : pieces '\'' ([] ++ '\'' :: (s.toList ++ ['\''])) = _ := pieces_append_cons _ _
    rw [List.nil_append, pieces_append_cons, pieces_of_notMem h] at hstart
    rw [toList_quoted]
    exact hstart
  rw [quotedText?, hpieces]
  exact congrArg some String.ofList_toList

theorem level_quoted {s : String} (hopen : '(' ∉ s.toList) (hclose : ')' ∉ s.toList)
    (hcomma : ',' ∉ s.toList) : Level (quoted s).toList := by
  have hnotMem {c : Char} (hc : c ∉ s.toList) (hquote : c ≠ '\'') : c ∉ (quoted s).toList := by
    rw [toList_quoted]
    simp [hc, hquote]
  exact level_of_notMem (hnotMem hopen (by decide)) (hnotMem hclose (by decide))
    (hnotMem hcomma (by decide))

theorem flush_quoted (s : String) : Call.Flush (quoted s).toList := by
  rw [toList_quoted]
  exact Call.flush_cons (by decide) _

end Scaffold.Artifact
