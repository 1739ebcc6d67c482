import Scaffold.Proofs.Template.Typing
import Scaffold.Proofs.Text.Lines

/-!
# Proofs/Template/Lines — the import lines of a rendered template, found without rendering it

A template is read as a sequence of **marks**: its characters, its holes, and where its blocks open
and close (`marks_parse`).  A **scan** walks over the marks and notes every line that begins with
`import `, together with the flags of the blocks around it.  It goes through only if blocks open
and close at the start of a line and no import stands in an each-block.

Then every import line of a rendered text is an instance of a noted one whose flags hold
(`exists_noted_of_import`): the text so far and the state of the scan stay in agreement along
the nodes (`agrees_renders`).
-/

namespace Scaffold.Template

open Document Text

/-! ## Marks -/

/-- What a template is made of. -/
inductive Mark where
  | char (c : Char)
  | hole (path : List String)
  | opening (block : Block) (path : List String)
  | closing
deriving DecidableEq, Repr

def Token.marks : Token → List Mark
  | .text cs => cs.map .char
  | .tag (.reference path) _ _ => [.hole path]
  | .tag (.opening b path) _ _ => [.opening b path]
  | .tag (.closing _) _ _ => [.closing]

mutual

def Node.marks : Node → List Mark
  | .text s => s.toList.map .char
  | .name n _ => [.hole [n]]
  | .path parts _ => [.hole parts]
  | .ifBlock parts _ body _ => .opening .ifBlock parts :: (Node.allMarks body ++ [.closing])
  | .eachBlock parts _ body _ => .opening .eachBlock parts :: (Node.allMarks body ++ [.closing])

def Node.allMarks : List Node → List Mark
  | [] => []
  | n :: ns => n.marks ++ Node.allMarks ns

end

namespace Node

theorem allMarks_append (ns ms : List Node) : allMarks (ns ++ ms) = allMarks ns ++ allMarks ms := by
  induction ns with
  | nil => rfl
  | cons n ns ih => rw [List.cons_append, allMarks, allMarks, ih, List.append_assoc]

theorem allMarks_reverse_cons (n : Node) (ns : List Node) :
    allMarks (n :: ns).reverse = allMarks ns.reverse ++ n.marks := by
  rw [List.reverse_cons, allMarks_append, allMarks, allMarks, List.append_nil]

theorem marks_reference (parts : List String) (raw : String) :
    (reference parts raw).marks = [.hole parts] := by
  unfold reference
  split <;> rw [marks]

theorem marks_block (b : Block) (parts : List String) (opener : String) (body : List Node)
    (closer : String) :
    (block b parts opener body closer).marks =
      .opening b parts :: (allMarks body ++ [.closing]) := by
  cases b <;> rw [block, marks]

/-- The marks before the place that has been reached, over the blocks that are open. -/
def stackMarks : List Frame → List Mark
  | [] => []
  | f :: fs => stackMarks fs ++ allMarks f.before.reverse ++ [.opening f.block f.path]

/-- Nodes have the marks of their tokens. -/
theorem allMarks_ofTokens {stack : List Frame} {before ns : List Node} {ts : List Token}
    (h : ofTokens stack before ts = .ok ns) :
    allMarks ns = stackMarks stack ++ allMarks before.reverse ++ ts.flatMap Token.marks := by
  fun_induction ofTokens stack before ts with
  | case1 before =>
    cases h
    simp [stackMarks]
  | case2 => cases h
  | case3 stack before cs ts ih =>
    rw [ih h, allMarks_reverse_cons, List.flatMap_cons, marks, String.toList_ofList, Token.marks]
    simp only [List.append_assoc]
  | case4 stack before parts raw offset ts ih =>
    rw [ih h, allMarks_reverse_cons, List.flatMap_cons, marks_reference, Token.marks]
    simp only [List.append_assoc]
  | case5 stack before b parts raw offset ts ih =>
    rw [ih h, List.flatMap_cons, stackMarks, Token.marks]
    simp [allMarks]
  | case6 => cases h
  | case7 before raw offset ts f rest ih =>
    rw [ih h, allMarks_reverse_cons, List.flatMap_cons, marks_block, stackMarks, Token.marks]
    simp
  | case8 => cases h

/-- The marks of a template are those of its tokens. -/
theorem marks_parse {s : String} {ns : List Node} (h : parse s = .ok ns) :
    allMarks ns = (tokens s.toList).flatMap Token.marks := by
  rw [allMarks_ofTokens h]
  rfl

end Node

/-! ## Scanning -/

/-- A part of a line of a template. -/
inductive Bit where
  | char (c : Char)
  | hole (name : String)
deriving DecidableEq, Repr

/-- How the line of an import begins. -/
def importWord : List Char := ['i', 'm', 'p', 'o', 'r', 't', ' ']

/-- The line begins with characters, and they are not those of the word. -/
def differs : List Char → List Bit → Bool
  | [], _ => false
  | _ :: _, [] => true
  | w :: ws, .char c :: bs => w != c || differs ws bs
  | _ :: _, .hole _ :: _ => false

/-- An import line of a template, and the flags under which it is there. -/
structure Note where
  flags : List String
  line : List Bit
deriving DecidableEq, Repr

structure Scan where
  /-- What the line has so far, last first. -/
  line : List Bit
  /-- The blocks that are open, innermost first; an each-block has no flag. -/
  blocks : List (Option String)
  /-- The import lines so far. -/
  notes : List Note

namespace Scan

def start : Scan := ⟨[], [], []⟩

/-- At the end of a line. -/
def endLine (s : Scan) : Option Scan :=
  if differs importWord s.line.reverse then some { s with line := [] }
  else if s.blocks.all Option.isSome then
    some ⟨[], s.blocks, s.notes ++ [⟨s.blocks.filterMap id, s.line.reverse⟩]⟩
  else none

-- A mark is taken apart before its path is: the catch-all of one match would range over characters.
def step (s : Scan) : Mark → Option Scan
  | .char c => if c = '\n' then s.endLine else some { s with line := .char c :: s.line }
  | .hole path =>
    match path with
    | [n] => some { s with line := .hole n :: s.line }
    | _ => none
  | .opening block path =>
    match block, path with
    | .ifBlock, [n] => if s.line = [] then some { s with blocks := some n :: s.blocks } else none
    | .ifBlock, _ => none
    | .eachBlock, _ => if s.line = [] then some { s with blocks := none :: s.blocks } else none
  | .closing => if s.line = [] then some { s with blocks := s.blocks.tail } else none

/-- The scan over all marks. -/
def run (s : Scan) : List Mark → Option Scan
  | [] => some s
  | m :: ms => (s.step m).bind fun s => s.run ms

/-- The import lines of a template that ends with a line feed. -/
def notes? (ms : List Mark) : Option (List Note) :=
  match start.run ms with
  | some s => if s.line = [] then some s.notes else none
  | none => none

/-- Marks are gone through one after the other. -/
theorem run_append (s : Scan) (ms ns : List Mark) :
    s.run (ms ++ ns) = (s.run ms).bind fun s => s.run ns := by
  induction ms generalizing s with
  | nil => rfl
  | cons m ms ih =>
    rw [List.cons_append, run, run]
    cases s.step m with
    | none => rfl
    | some s => exact ih s

theorem run_append_eq_some {s s' : Scan} {ms ns : List Mark} (h : s.run (ms ++ ns) = some s') :
    ∃ m, s.run ms = some m ∧ m.run ns = some s' := by
  rwa [run_append, Option.bind_eq_some_iff] at h

theorem run_cons_eq_some {s s' : Scan} {n : Node} {ns : List Node}
    (h : s.run (Node.allMarks (n :: ns)) = some s') :
    ∃ u, s.run n.marks = some u ∧ u.run (Node.allMarks ns) = some s' := by
  rw [Node.allMarks] at h
  exact run_append_eq_some h

theorem run_singleton (s : Scan) (m : Mark) : s.run [m] = s.step m := by
  rw [run]
  cases s.step m <;> rfl

/-- A condition opens at the start of a line. -/
theorem step_opening_if {s t : Scan} {n : String}
    (h : s.step (.opening .ifBlock [n]) = some t) :
    s.line = [] ∧ t = { s with blocks := some n :: s.blocks } := by
  rw [step] at h
  split at h
  · exact ⟨‹_›, (Option.some.inj h).symm⟩
  · cases h

/-- So does a repetition. -/
theorem step_opening_each {s t : Scan} {path : List String}
    (h : s.step (.opening .eachBlock path) = some t) :
    s.line = [] ∧ t = { s with blocks := none :: s.blocks } := by
  rw [step] at h
  split at h
  · exact ⟨‹_›, (Option.some.inj h).symm⟩
  · cases h

/-- And a block closes there. -/
theorem step_closing {s t : Scan} (h : s.step .closing = some t) :
    s.line = [] ∧ t = { s with blocks := s.blocks.tail } := by
  rw [step] at h
  split at h
  · exact ⟨‹_›, (Option.some.inj h).symm⟩
  · cases h

/-- A block opens, its body is scanned, and it closes. -/
theorem run_block {s s' : Scan} {m : Mark} {ms : List Mark}
    (h : s.run (m :: (ms ++ [.closing])) = some s') :
    ∃ t u, s.step m = some t ∧ t.run ms = some u ∧ u.step .closing = some s' := by
  obtain ⟨t, ht, h⟩ := Option.bind_eq_some_iff.mp h
  obtain ⟨u, hu, h⟩ := run_append_eq_some h
  exact ⟨t, u, ht, hu, by rwa [run_singleton] at h⟩

theorem notes_subset_of_step {s s' : Scan} {m : Mark} (h : s.step m = some s') :
    s.notes ⊆ s'.notes := by
  unfold step endLine at h
  split at h <;> grind

/-- Notes are only added. -/
theorem notes_subset_of_run {s s' : Scan} {ms : List Mark} (h : s.run ms = some s') :
    s.notes ⊆ s'.notes := by
  induction ms generalizing s with
  | nil => cases h; exact fun _ hx => hx
  | cons m ms ih =>
    obtain ⟨t, ht, h⟩ := Option.bind_eq_some_iff.mp h
    exact fun _ hx => ih h (notes_subset_of_step ht hx)

theorem blocks_endLine {s s' : Scan} (h : s.endLine = some s') : s'.blocks = s.blocks := by
  rw [endLine] at h
  split at h
  · cases h; rfl
  · split at h <;> cases h
    rfl

/-- Letters leave the blocks as they are. -/
theorem blocks_run_char {s s' : Scan} {cs : List Char} (h : s.run (cs.map .char) = some s') :
    s'.blocks = s.blocks := by
  induction cs generalizing s with
  | nil => cases h; rfl
  | cons c cs ih =>
    obtain ⟨t, ht, h⟩ := Option.bind_eq_some_iff.mp h
    rw [ih h]
    rw [step] at ht
    split at ht
    · exact blocks_endLine ht
    · cases ht; rfl

mutual

/-- A node closes the blocks that it opens. -/
theorem blocks_run_marks : ∀ (n : Node) {s s' : Scan}, s.run n.marks = some s' →
    s'.blocks = s.blocks
  | .text u, s, s', h => by
    rw [Node.marks] at h
    exact blocks_run_char h
  | .name n _, s, s', h => by
    rw [Node.marks, run_singleton, step] at h
    cases h; rfl
  | .path parts _, s, s', h => by
    rw [Node.marks, run_singleton] at h
    match parts, h with
    | [n], h => rw [step] at h; cases h; rfl
  | .ifBlock parts _ body _, s, s', h => by
    rw [Node.marks] at h
    obtain ⟨t, u, ht, hu, hs'⟩ := run_block h
    match parts, ht with
    | [n], ht =>
      obtain ⟨-, rfl⟩ := step_opening_if ht
      obtain ⟨-, rfl⟩ := step_closing hs'
      exact congrArg List.tail (blocks_run_allMarks body hu)
  | .eachBlock parts _ body _, s, s', h => by
    rw [Node.marks] at h
    obtain ⟨t, u, ht, hu, hs'⟩ := run_block h
    obtain ⟨-, rfl⟩ := step_opening_each ht
    obtain ⟨-, rfl⟩ := step_closing hs'
    exact congrArg List.tail (blocks_run_allMarks body hu)

/-- Nodes close all they open. -/
theorem blocks_run_allMarks : ∀ (ns : List Node) {s s' : Scan},
    s.run (Node.allMarks ns) = some s' → s'.blocks = s.blocks
  | [], s, s', h => by
    rw [Node.allMarks] at h
    cases h; rfl
  | n :: ns, s, s', h => by
    obtain ⟨t, ht, h⟩ := run_cons_eq_some h
    rw [blocks_run_allMarks ns h, blocks_run_marks n ht]

end

section Block

variable {s s' : Scan} {b : Option String} {n opener closer : String} {body : List Node}

/-- A block opens and closes at the start of a line, and leaves the blocks around it. -/
theorem run_opening {m : Mark}
    (hopen : ∀ t, s.step m = some t → s.line = [] ∧ t = { s with blocks := b :: s.blocks })
    (h : s.run (m :: (Node.allMarks body ++ [.closing])) = some s') :
    s.line = [] ∧ ∃ u, run { s with blocks := b :: s.blocks } (Node.allMarks body) = some u ∧
      u.line = [] ∧ s' = { u with blocks := s.blocks } := by
  obtain ⟨t, u, ht, hu, hs'⟩ := run_block h
  obtain ⟨hs, rfl⟩ := hopen t ht
  obtain ⟨hline, rfl⟩ := step_closing hs'
  exact ⟨hs, u, hu, hline, by rw [blocks_run_allMarks body hu, List.tail_cons]⟩

theorem run_ifBlock (h : s.run (Node.ifBlock [n] opener body closer).marks = some s') :
    s.line = [] ∧ ∃ u, run { s with blocks := some n :: s.blocks } (Node.allMarks body) = some u ∧
      u.line = [] ∧ s' = { u with blocks := s.blocks } := by
  rw [Node.marks] at h
  exact run_opening (fun _ => step_opening_if) h

theorem run_eachBlock (h : s.run (Node.eachBlock [n] opener body closer).marks = some s') :
    s.line = [] ∧ ∃ u, run { s with blocks := none :: s.blocks } (Node.allMarks body) = some u ∧
      u.line = [] ∧ s' = { u with blocks := s.blocks } := by
  rw [Node.marks] at h
  exact run_opening (fun _ => step_opening_each) h

end Block

end Scan

/-! ## What the marks stand for -/

/-- The text that a name stands for in a context. -/
def textAt (context : List (String × Item)) (n : String) : List Char :=
  match context.lookup n with
  | some (.value (.text s)) => s.toList
  | _ => []

def Bit.shown (context : List (String × Item)) : Bit → List Char
  | .char c => [c]
  | .hole n => textAt context n

/-- A line that differs from a word early on does not begin with it. -/
theorem not_prefix_of_differs {word : List Char} {line : List Bit} (h : differs word line = true)
    (context : List (String × Item)) : ¬word <+: line.flatMap (Bit.shown context) := by
  induction word generalizing line with
  | nil => cases h
  | cons w ws ih =>
    cases line with
    | nil => exact fun h => List.cons_ne_nil w ws (List.prefix_nil.mp h)
    | cons b bs =>
      cases b with
      | char c =>
        rw [differs, Bool.or_eq_true, bne_iff_ne] at h
        intro hpre
        obtain ⟨hc, hpre⟩ := List.cons_prefix_cons.mp hpre
        exact h.elim (absurd hc) fun h => ih h hpre
      | hole n => cases h

/-- The line is an instance of the noted one, and the flags of that one hold. -/
def Note.Shows (context : List (String × Item)) (n : Note) (l : List Char) : Prop :=
  (∀ f ∈ n.flags, context.lookup f = some (.value (.bool true))) ∧
    l = n.line.flatMap (Bit.shown context)

/-- The text so far agrees with the state of a scan: its import lines are among the noted ones, and
the line that is left over is an instance of the one in the state.  Without an each-block the
context is the outermost one, and the flags of all open blocks hold in it. -/
structure Agrees (top : List (String × Item)) (notes : List Note) (context : List (String × Item))
    (s : Scan) (cs : List Char) : Prop where
  noted : ∀ l ∈ completed cs, importWord <+: l → ∃ n ∈ notes, n.Shows top l
  line : leftover cs = s.line.reverse.flatMap (Bit.shown context)
  blocks : s.blocks.all Option.isSome = true →
    context = top ∧ ∀ n, some n ∈ s.blocks → context.lookup n = some (.value (.bool true))

section Agreement

variable {top context : List (String × Item)} {notes : List Note} {s s' : Scan} {cs : List Char}

/-- Outside of each-blocks, what is noted of a line shows the line. -/
theorem Agrees.shows (h : Agrees top notes context s cs)
    (hblocks : s.blocks.all Option.isSome = true) :
    Note.Shows top ⟨s.blocks.filterMap id, s.line.reverse⟩ (leftover cs) := by
  obtain ⟨rfl, hflags⟩ := h.blocks hblocks
  refine ⟨fun f hf => hflags f ?_, h.line⟩
  obtain ⟨b, hb, rfl⟩ := List.mem_filterMap.mp hf
  exact hb

/-- At the end of a line the scan agrees with the text again. -/
theorem Agrees.endLine (h : Agrees top notes context s cs) (hstep : s.endLine = some s')
    (hnotes : s'.notes ⊆ notes) : Agrees top notes context s' (cs ++ ['\n']) := by
  have hcompleted : completed (cs ++ ['\n']) = completed cs ++ [leftover cs] :=
    completed_append_lineFeed cs
  have hleftover : leftover (cs ++ ['\n']) = [] := leftover_append_lineFeed cs
  rw [Scan.endLine] at hstep
  split at hstep
  · rename_i hdiffers
    cases hstep
    refine ⟨fun l hl himport => ?_, hleftover, h.blocks⟩
    rw [hcompleted, List.mem_append, List.mem_singleton] at hl
    obtain hl | rfl := hl
    · exact h.noted l hl himport
    · rw [h.line] at himport
      exact absurd himport (not_prefix_of_differs hdiffers context)
  · split at hstep
    · rename_i hblocks
      cases hstep
      refine ⟨fun l hl himport => ?_, hleftover, h.blocks⟩
      rw [hcompleted, List.mem_append, List.mem_singleton] at hl
      obtain hl | rfl := hl
      · exact h.noted l hl himport
      · exact ⟨_, hnotes (List.mem_append_right _ (List.mem_singleton_self _)), h.shows hblocks⟩
    · cases hstep

/-- What stays on the line goes to the line of the state. -/
theorem Agrees.extend (h : Agrees top notes context s cs) {b : Bit}
    (hb : '\n' ∉ b.shown context) :
    Agrees top notes context { s with line := b :: s.line } (cs ++ b.shown context) where
  noted l hl := h.noted l (by rwa [completed_append hb] at hl)
  line := by
    rw [leftover_append hb, h.line, List.reverse_cons, List.flatMap_append, List.flatMap_singleton]
  blocks := h.blocks

/-- Letters keep the scan in step with the text. -/
theorem Agrees.text (h : Agrees top notes context s cs) {ds : List Char}
    (hrun : s.run (ds.map Mark.char) = some s') (hnotes : s'.notes ⊆ notes) :
    Agrees top notes context s' (cs ++ ds) := by
  induction ds generalizing s cs with
  | nil =>
    cases hrun
    rwa [List.append_nil]
  | cons d ds ih =>
    obtain ⟨t, ht, hrun⟩ := Option.bind_eq_some_iff.mp hrun
    have hstep : Agrees top notes context t (cs ++ [d]) := by
      rw [Scan.step] at ht
      split at ht
      · rename_i hd
        rw [hd]
        exact h.endLine ht fun _ hn => hnotes (Scan.notes_subset_of_run hrun hn)
      · rename_i hd
        cases ht
        exact h.extend (b := .char d) fun hmem => hd (List.mem_singleton.mp hmem).symm
    rw [← List.singleton_append, ← List.append_assoc]
    exact ih hstep hrun

/-- At the start of a line the context may change along with the blocks. -/
theorem Agrees.enter (h : Agrees top notes context s cs) {inner : List (String × Item)} {t : Scan}
    (hs : s.line = []) (ht : t.line = [])
    (hblocks : t.blocks.all Option.isSome = true →
      inner = top ∧ ∀ n, some n ∈ t.blocks → inner.lookup n = some (.value (.bool true))) :
    Agrees top notes inner t cs where
  noted := h.noted
  line := by rw [h.line, hs, ht]; rfl
  blocks := hblocks

/-- So does a condition that holds. -/
theorem Agrees.enterIf (h : Agrees top notes context s cs) (hs : s.line = []) {n : String}
    (hn : context.lookup n = some (.value (.bool true))) :
    Agrees top notes context { s with blocks := some n :: s.blocks } cs := by
  refine h.enter hs hs fun hall => ?_
  obtain ⟨htop, hflags⟩ := h.blocks (by simpa using hall)
  refine ⟨htop, fun m hm => ?_⟩
  obtain hm | hm := List.mem_cons.mp hm
  · rw [Option.some.inj hm, hn]
  · exact hflags m hm

theorem Agrees.enterEach (h : Agrees top notes context s cs) (hs : s.line = [])
    {inner : List (String × Item)} :
    Agrees top notes inner { s with blocks := none :: s.blocks } cs :=
  h.enter hs hs fun hall => by simp at hall

end Agreement

/-! ## The import lines of a rendered text -/

variable {top : List (String × Item)} {notes : List Note}

mutual

/-- So do nodes that are rendered. -/
theorem agrees_renders : ∀ {context : List (String × Item)} {ns : List Node} {t : String}
    {s s' : Scan} {cs : List Char}, Renders OneLine context ns t →
    s.run (Node.allMarks ns) = some s' → s'.notes ⊆ notes → Agrees top notes context s cs →
    Agrees top notes context s' (cs ++ t.toList)
  | _, _, _, _, _, _, .nil, hrun, _, h => by
    rw [Node.allMarks] at hrun
    cases hrun
    rwa [String.toList_empty, List.append_nil]
  | _, _, _, _, _, _, .text _ hrest, hrun, hnotes, h => by
    obtain ⟨u, hu, hns⟩ := Scan.run_cons_eq_some hrun
    rw [Node.marks] at hu
    rw [String.toList_append, ← List.append_assoc]
    exact agrees_renders hrest hns hnotes
      (h.text hu fun _ hx => hnotes (Scan.notes_subset_of_run hns hx))
  | context, _, _, _, _, _, .name (n := n) (s := v) hv hline hrest, hrun, hnotes, h => by
    obtain ⟨u, hu, hns⟩ := Scan.run_cons_eq_some hrun
    rw [Node.marks, Scan.run_singleton, Scan.step] at hu
    cases hu
    have hshown : (Bit.hole n).shown context = v.toList := by rw [Bit.shown, textAt, hv]
    rw [String.toList_append, ← List.append_assoc, ← hshown]
    exact agrees_renders hrest hns hnotes (h.extend (hshown ▸ hline))
  | context, _, _, s, _, cs, .present (s := v) hb hbody hrest, hrun, hnotes, h => by
    obtain ⟨_, hblock, hns⟩ := Scan.run_cons_eq_some hrun
    obtain ⟨hs, u, hu, hline, rfl⟩ := Scan.run_ifBlock hblock
    have hu' : u.notes ⊆ notes := fun _ hx => hnotes (Scan.notes_subset_of_run hns hx)
    have hafter : Agrees top notes context { u with blocks := s.blocks } (cs ++ v.toList) :=
      (agrees_renders hbody hu hu' (h.enterIf hs hb)).enter hline hline h.blocks
    rw [String.toList_append, ← List.append_assoc]
    exact agrees_renders hrest hns hnotes hafter
  | _, _, _, _, _, _, .absent _ hrest, hrun, hnotes, h => by
    obtain ⟨_, hblock, hns⟩ := Scan.run_cons_eq_some hrun
    obtain ⟨hs, u, -, hline, rfl⟩ := Scan.run_ifBlock hblock
    exact agrees_renders hrest hns hnotes (h.enter hs hline h.blocks)
  | context, _, _, s, _, cs, .rows (s := v) _ hbody hrest, hrun, hnotes, h => by
    obtain ⟨_, hblock, hns⟩ := Scan.run_cons_eq_some hrun
    obtain ⟨hs, u, hu, hline, rfl⟩ := Scan.run_eachBlock hblock
    have hu' : u.notes ⊆ notes := fun _ hx => hnotes (Scan.notes_subset_of_run hns hx)
    have hafter : Agrees top notes context { u with blocks := s.blocks } (cs ++ v.toList) :=
      (agrees_rendersEach hbody hs hu hline hu' h).enter hs hline h.blocks
    rw [String.toList_append, ← List.append_assoc]
    exact agrees_renders hrest hns hnotes hafter

/-- Every item starts and ends at the start of a line, so the outer state can stand between. -/
theorem agrees_rendersEach : ∀ {context : List (String × Item)} {body : List Node}
    {items : List Item} {t : String} {s u : Scan} {cs : List Char},
    RendersEach OneLine context body items t → s.line = [] →
    Scan.run { s with blocks := none :: s.blocks } (Node.allMarks body) = some u → u.line = [] →
    u.notes ⊆ notes → Agrees top notes context s cs → Agrees top notes context s (cs ++ t.toList)
  | _, _, _, _, _, _, _, .nil, _, _, _, _, h => by
    rwa [String.toList_empty, List.append_nil]
  | _, _, _, _, _, _, _, .cons _ hx hrest, hs, hu, hline, hnotes, h => by
    have hafter := (agrees_renders hx hu hnotes (h.enterEach hs)).enter hline hs h.blocks
    rw [String.toList_append, ← List.append_assoc]
    exact agrees_rendersEach hrest hs hu hline hnotes hafter

end

/-- **Every import line of a rendered text is an instance of one that the scan noted**, and the
flags of that one hold. -/
theorem exists_noted_of_import {scope : Scope} {context : List (String × Item)}
    (hfits : Fits OneLine scope context) {ns : List Node}
    (htyped : Node.areTyped scope ns = true) {notes : List Note}
    (hnotes : Scan.notes? (Node.allMarks ns) = some notes) {t : String}
    (hrender : renderNodes (.record context) ns = .ok t) {l : List Char} (hl : l ∈ lines t.toList)
    (himport : importWord <+: l) : ∃ n ∈ notes, n.Shows context l := by
  rw [Scan.notes?] at hnotes
  split at hnotes
  · rename_i s hrun
    split at hnotes <;> cases hnotes
    rename_i hline
    have hstart : Agrees context s.notes context .start [] := by
      refine ⟨fun l hl => ?_, rfl, fun _ => ⟨rfl, fun n hn => ?_⟩⟩
      · exact absurd hl List.not_mem_nil
      · exact absurd hn List.not_mem_nil
    have hend := agrees_renders (renders_of_renderNodes hfits htyped hrender) hrun
      (List.Subset.refl _) hstart
    rw [List.nil_append] at hend
    rw [lines_eq, hend.line, hline, List.mem_append, List.mem_singleton] at hl
    obtain hl | rfl := hl
    · exact hend.noted l hl himport
    · exact absurd (List.prefix_nil.mp himport) (by decide)
  · cases hnotes

end Scaffold.Template
