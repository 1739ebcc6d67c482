import Scaffold.Artifact.Source
import Scaffold.Proofs.Template.Lines
import Scaffold.Proofs.Text.OneLine

/-!
# Proofs/Artifact/Imports — the import lines of an emitted file

An import line names its module between its first two quotes (`specifier_line`).  The import lines of
a source file are those of its imports (`importsAmong_text`), as long as its other lines are none;
these are called *body lines*, and a line is known to be one from how it begins.
-/

namespace Scaffold.Artifact

open Template Text

/-! ## Modules -/

/-- The module of an import line: what stands between its first two quotes. -/
def specifier (l : List Char) : Option (List Char) :=
  match pieces '\'' l with
  | _ :: s :: _ :: _ => some s
  | _ => none

/-- With no quote in front of it or in it, a module is what stands between the first two quotes. -/
theorem specifier_eq_some {before s after : List Char} (hbefore : '\'' ∉ before) (hs : '\'' ∉ s) :
    specifier (before ++ '\'' :: (s ++ '\'' :: after)) = some s := by
  have hne := pieces_ne_nil '\'' after
  rw [specifier, pieces_append_cons, pieces_append_cons, pieces_of_notMem hbefore,
    pieces_of_notMem hs]
  cases h : pieces '\'' after with
  | nil => exact absurd h hne
  | cons p ps => rfl

/-- The import lines of a text are lines of these imports. -/
def ImportsAmong (content : String) (is : List Import) : Prop :=
  ∀ l ∈ lines content.toList, importWord <+: l → ∃ i ∈ is, l = i.line.toList

/-! ## Imports -/

/-- The text stays on one line and does not end a quoted text. -/
def Quotable (s : String) : Prop := OneLine s ∧ '\'' ∉ s.toList

instance (s : String) : Decidable (Quotable s) := inferInstanceAs (Decidable (_ ∧ _))

theorem Quotable.append {s t : String} (hs : Quotable s) (ht : Quotable t) : Quotable (s ++ t) := by
  refine ⟨hs.1.append ht.1, ?_⟩
  rw [String.toList_append, List.mem_append]
  exact not_or.mpr ⟨hs.2, ht.2⟩

theorem quotable_ofList {cs : List Char} (h : (!cs.contains '\n' && !cs.contains '\'') = true) :
    Quotable (String.ofList cs) := by
  simp only [Bool.and_eq_true, Bool.not_eq_true', ← Bool.not_eq_true, List.contains_iff_mem] at h
  rwa [Quotable, OneLine, String.toList_ofList]

/-- Texts that can be quoted, with such a text between them. -/
theorem quotable_intercalate {sep : String} {ls : List String} (hsep : Quotable sep)
    (h : ∀ l ∈ ls, Quotable l) : Quotable (sep.intercalate ls) := by
  have hjoin {c : Char} (hc : c ∉ sep.toList) (hls : ∀ l ∈ ls, c ∉ l.toList) :
      c ∉ (sep.intercalate ls).toList := by
    rw [toList_intercalate]
    refine notMem_joinWith hc fun p hp => ?_
    obtain ⟨l, hl, rfl⟩ := List.mem_map.mp hp
    exact hls l hl
  exact ⟨hjoin hsep.1 fun l hl => (h l hl).1, hjoin hsep.2 fun l hl => (h l hl).2⟩

namespace Import

/-- What is imported, as it is written in front of the module. -/
def head : Import → String
  | effects _ => "import "
  | whole name _ => "import " ++ name ++ " from "
  | parts names _ => r"import { " ++ ", ".intercalate names ++ r" } from "

/-- The names and the module can stand on an import line. -/
def Fits : Import → Prop
  | effects s => Quotable s
  | whole name s => Quotable name ∧ Quotable s
  | parts names s => (∀ n ∈ names, Quotable n) ∧ Quotable s

instance (i : Import) : Decidable i.Fits :=
  match i with
  | effects s => inferInstanceAs (Decidable (Quotable s))
  | whole name s => inferInstanceAs (Decidable (Quotable name ∧ Quotable s))
  | parts names s => inferInstanceAs (Decidable ((∀ n ∈ names, Quotable n) ∧ Quotable s))

/-- Every import line ends in its module in quotes. -/
theorem line_eq (i : Import) : i.line = i.head ++ ("'" ++ (i.source ++ "';")) := by
  cases i with
  | effects s =>
    have hhead : "import '" = "import " ++ "'" := by decide
    rw [line, head, source, hhead]
    simp only [String.append_assoc]
  | whole name s =>
    have hfrom : " from '" = " from " ++ "'" := by decide
    rw [line, head, source, hfrom]
    simp only [String.append_assoc]
  | parts names s =>
    have hfrom : r" } from '" = r" } from " ++ "'" := by decide
    rw [line, head, source, hfrom]
    simp only [String.append_assoc]

/-- Neither what is imported nor the module holds a quote or a line feed. -/
theorem Fits.quotable {i : Import} (h : i.Fits) : Quotable i.head ∧ Quotable i.source := by
  cases i with
  | effects s =>
    have hhead : Quotable "import " := by decide
    exact ⟨hhead, h⟩
  | whole name s =>
    exact ⟨(Quotable.append (by decide) h.1).append (by decide), h.2⟩
  | parts names s =>
    have hnames : Quotable (", ".intercalate names) := quotable_intercalate (by decide) h.1
    exact ⟨(Quotable.append (by decide) hnames).append (by decide), h.2⟩

theorem Fits.oneLine {i : Import} (h : i.Fits) : OneLine i.line := by
  obtain ⟨hhead, hsource⟩ := h.quotable
  rw [line_eq]
  exact hhead.1.append (OneLine.append (by decide) (hsource.1.append (by decide)))

/-- An import line names its module. -/
theorem Fits.specifier_line {i : Import} (h : i.Fits) :
    specifier i.line.toList = some i.source.toList := by
  obtain ⟨hhead, hsource⟩ := h.quotable
  rw [line_eq, String.toList_append, String.toList_append, String.toList_append]
  exact specifier_eq_some hhead.2 hsource.2

end Import

/-! ## Body lines -/

/-- The line is no import. -/
def BodyLine (s : String) : Prop := OneLine s ∧ ¬importWord <+: s.toList

/-- The text begins a line that is no import, whatever follows it. -/
structure Begun (s : String) : Prop where
  oneLine : OneLine s
  noImport : ¬importWord <+: s.toList
  noPart : ¬s.toList <+: importWord

/-- A beginning that differs from that of an import still does with more behind it. -/
theorem Begun.append {s t : String} (hs : Begun s) (ht : OneLine t) : Begun (s ++ t) where
  oneLine := hs.oneLine.append ht
  noImport h := by
    rw [String.toList_append] at h
    obtain h | h := List.prefix_or_prefix_of_prefix h (List.prefix_append _ _)
    · exact hs.noImport h
    · exact hs.noPart h
  noPart h := by
    rw [String.toList_append] at h
    exact hs.noPart ((List.prefix_append _ _).trans h)

theorem Begun.bodyLine {s : String} (h : Begun s) : BodyLine s := ⟨h.oneLine, h.noImport⟩

/-- The check of `BodyLine` on the characters of a line. -/
def isBodyLine (cs : List Char) : Bool := !cs.contains '\n' && !List.isPrefixOf importWord cs

theorem bodyLine_ofList {cs : List Char} (h : isBodyLine cs = true) :
    BodyLine (String.ofList cs) := by
  simp only [isBodyLine, Bool.and_eq_true, Bool.not_eq_true', ← Bool.not_eq_true,
    List.contains_iff_mem, List.isPrefixOf_iff_prefix] at h
  refine ⟨oneLine_ofList h.1, ?_⟩
  rw [String.toList_ofList]
  exact h.2

/-- The check of `Begun` on the characters of a text. -/
def begins (cs : List Char) : Bool := isBodyLine cs && !List.isPrefixOf cs importWord

theorem begun_ofList {cs : List Char} (h : begins cs = true) : Begun (String.ofList cs) := by
  obtain ⟨hline, hpart⟩ := Bool.and_eq_true_iff.mp h
  obtain ⟨hone, hnoImport⟩ := bodyLine_ofList hline
  refine ⟨hone, hnoImport, ?_⟩
  rwa [String.toList_ofList, ← List.isPrefixOf_iff_prefix, Bool.not_eq_true, ← Bool.not_eq_true']

theorem bodyLine_empty : BodyLine "" := bodyLine_ofList rfl

/-- All lines are body lines. -/
def Body (ls : List String) : Prop := ∀ l ∈ ls, BodyLine l

theorem body_nil : Body [] := fun _ hl => absurd hl List.not_mem_nil

theorem Body.cons {l : String} {ls : List String} (hl : BodyLine l) (hls : Body ls) :
    Body (l :: ls) :=
  List.forall_mem_cons.mpr ⟨hl, hls⟩

theorem body_map {α : Type} {f : α → String} {xs : List α} (h : ∀ x ∈ xs, BodyLine (f x)) :
    Body (xs.map f) :=
  List.forall_mem_map.mpr h

/-! ### Their layout -/

/-- The check of `BodyLine` on the wording of a line. -/
def isBodyWording : Wording Unit → Bool
  | .known cs .nil => isBodyLine cs
  | .known cs x => begins cs && x.isOneLine
  | _ => false

/-- What the check on a wording is enough for. -/
theorem bodyLine_of_spells {x : Wording Unit} {l : String} (hx : isBodyWording x = true)
    (h : Spells (oneLiners Body) x l.toList) : BodyLine l := by
  rw [← String.ofList_toList (s := l)]
  generalize l.toList = cs at h
  unfold isBodyWording at hx
  split at hx
  · cases h with
    | known _ h =>
      cases h
      rw [List.append_nil]
      exact bodyLine_ofList hx
  · cases h with
    | known _ h =>
      obtain ⟨hcs, hrest⟩ := Bool.and_eq_true_iff.mp hx
      rw [String.ofList_append]
      exact ((begun_ofList hcs).append (h.oneLine hrest)).bodyLine
  · cases hx

theorem bodyLine_of_wording {l : String} {x : Wording Unit} [h : Worded (oneLiners Body) l x]
    (hx : isBodyWording x = true) : BodyLine l :=
  bodyLine_of_spells hx h.spells

/-- Lines are body lines if their layout says how each begins, and that it stays on one line. -/
theorem body_of_layout {ls : List String} {x : Layout Unit} [h : LaidOut (oneLiners Body) ls x]
    (hx : x.all isBodyWording = true) : Body ls :=
  h.forall_mem (fun _ h => h) (fun _ _ => bodyLine_of_spells) hx

theorem Body.fillsBlock {ls : List String} (h : Body ls) : FillsBlock (oneLiners Body) ls := ⟨h⟩

/-! ## Source files -/

namespace Source

/-- A source file has the lines that it was put together from. -/
theorem lines_text {s : Source} (himports : ∀ i ∈ s.imports, i.Fits) (hbody : Body s.body) :
    Text.lines s.text.toList = s.lines.map String.toList ++ [[]] := by
  refine lines_paragraph fun l hl => ?_
  obtain hl | hl := List.mem_append.mp hl
  · obtain ⟨i, hi, rfl⟩ := List.mem_map.mp hl
    exact (himports i hi).oneLine
  · obtain rfl | hl := List.mem_cons.mp hl
    · exact bodyLine_empty.1
    · exact (hbody l hl).1

/-- **The import lines of a source file are those of its imports.** -/
theorem importsAmong_text {s : Source} (himports : ∀ i ∈ s.imports, i.Fits) (hbody : Body s.body) :
    ImportsAmong s.text s.imports := by
  intro l hl himport
  rw [lines_text himports hbody, List.mem_append, List.mem_singleton] at hl
  obtain hl | rfl := hl
  · obtain ⟨t, ht, rfl⟩ := List.mem_map.mp hl
    obtain ht | ht := List.mem_append.mp ht
    · obtain ⟨i, hi, rfl⟩ := List.mem_map.mp ht
      exact ⟨i, hi, rfl⟩
    · obtain rfl | ht := List.mem_cons.mp ht
      · exact absurd himport bodyLine_empty.2
      · exact absurd himport (hbody t ht).2
  · exact absurd (List.prefix_nil.mp himport) (by decide)

end Source

end Scaffold.Artifact
