import Scaffold.Proofs.Format.Surplus
import Scaffold.Proofs.Template.Library

/-!
# Proofs/Template/Walk — the brackets of a rendered template, weighed without rendering it

A **walk** over the marks of a template keeps the phase of the scanner and the surplus of the text
so far.  It goes through if every hole stands in a phase where what fills it does no harm, and if
every block leads back to where it began: then it makes no difference whether the block is there,
and how often.

So a rendered text does to the scanner what the walk says (`follows_renders`), and a template of
the library whose walk ends where it began renders to a balanced text (`Library.isBalanced_render`).
-/

namespace Scaffold.Template

open Document Format Text

/-! ## Walking -/

structure Walk where
  phase : Phase
  weight : Tally
  /-- Where the blocks that are open began, innermost first. -/
  blocks : List (Phase × Tally)
deriving DecidableEq

namespace Walk

def start : Walk := ⟨.code, 0, []⟩

/-- Holes are met in the given phases only. -/
def step (places : List Phase) (w : Walk) : Mark → Option Walk
  | .char c =>
    some ⟨w.phase.step c,
      if isBracket c && w.phase.isShown then w.weight + tally c else w.weight, w.blocks⟩
  | .hole _ => if w.phase ∈ places then some w else none
  | .opening _ _ => some { w with blocks := (w.phase, w.weight) :: w.blocks }
  | .closing =>
    match w.blocks with
    | [] => none
    | b :: bs => if b = (w.phase, w.weight) then some { w with blocks := bs } else none

/-- The walk over all marks. -/
def run (places : List Phase) (w : Walk) (ms : List Mark) : Option Walk := ms.foldlM (step places) w

section Run

variable {places : List Phase} {w w' : Walk} {m : Mark} {ms ns : List Mark}

theorem run_append_eq_some (h : w.run places (ms ++ ns) = some w') :
    ∃ u, w.run places ms = some u ∧ u.run places ns = some w' := by
  rwa [run, List.foldlM_append, Option.bind_eq_bind, Option.bind_eq_some_iff] at h

theorem run_cons_eq_some (h : w.run places (m :: ms) = some w') :
    ∃ u, w.step places m = some u ∧ u.run places ms = some w' := by
  rwa [run, List.foldlM_cons, Option.bind_eq_bind, Option.bind_eq_some_iff] at h

theorem run_nodes_eq_some {n : Node} {ns : List Node}
    (h : w.run places (Node.allMarks (n :: ns)) = some w') :
    ∃ u, w.run places n.marks = some u ∧ u.run places (Node.allMarks ns) = some w' := by
  rw [Node.allMarks] at h
  exact run_append_eq_some h

theorem run_hole_eq_some {path : List String} (h : w.run places [.hole path] = some w') :
    w.phase ∈ places ∧ w' = w := by
  obtain ⟨u, hu, h⟩ := run_cons_eq_some h
  cases h
  rw [step, Option.ite_none_right_eq_some] at hu
  exact ⟨hu.1, (Option.some.inj hu.2).symm⟩

/-- A block leads back to where it began, whatever happens inside of it. -/
theorem run_block_eq_some {b : Block} {path : List String}
    (h : w.run places (.opening b path :: (ms ++ [.closing])) = some w') :
    ∃ u, Walk.run places { w with blocks := (w.phase, w.weight) :: w.blocks } ms = some u ∧
      (u.blocks = (w.phase, w.weight) :: w.blocks →
        w' = w ∧ u.phase = w.phase ∧ u.weight = w.weight) := by
  obtain ⟨v, hv, h⟩ := run_cons_eq_some h
  cases hv
  obtain ⟨u, hu, h⟩ := run_append_eq_some h
  refine ⟨u, hu, fun hblocks => ?_⟩
  obtain ⟨v, hv, h⟩ := run_cons_eq_some h
  cases h
  simp only [step, hblocks, Option.ite_none_right_eq_some, Prod.mk.injEq, Option.some.injEq] at hv
  obtain ⟨⟨hphase, hweight⟩, rfl⟩ := hv
  exact ⟨by rw [← hphase, ← hweight], hphase.symm, hweight.symm⟩

/-- Letters leave the blocks as they are. -/
theorem blocks_run_char {cs : List Char} (h : w.run places (cs.map .char) = some w') :
    w'.blocks = w.blocks := by
  induction cs generalizing w with
  | nil => cases h; rfl
  | cons c cs ih =>
    obtain ⟨u, hu, h⟩ := run_cons_eq_some h
    cases hu
    exact (ih h).trans rfl

end Run

variable {places : List Phase}

mutual

/-- A node closes the blocks that it opens. -/
theorem blocks_run_marks : ∀ (n : Node) {w w' : Walk}, w.run places n.marks = some w' →
    w'.blocks = w.blocks
  | .text s, w, w', h => by
    rw [Node.marks] at h
    exact blocks_run_char h
  | .name n _, w, w', h => by
    rw [Node.marks] at h
    rw [(run_hole_eq_some h).2]
  | .path parts _, w, w', h => by
    rw [Node.marks] at h
    rw [(run_hole_eq_some h).2]
  | .ifBlock parts _ body _, w, w', h => by
    rw [Node.marks] at h
    obtain ⟨u, hu, hclose⟩ := run_block_eq_some h
    rw [(hclose (blocks_run_allMarks body hu)).1]
  | .eachBlock parts _ body _, w, w', h => by
    rw [Node.marks] at h
    obtain ⟨u, hu, hclose⟩ := run_block_eq_some h
    rw [(hclose (blocks_run_allMarks body hu)).1]

/-- Nodes close all they open. -/
theorem blocks_run_allMarks : ∀ (ns : List Node) {w w' : Walk},
    w.run places (Node.allMarks ns) = some w' → w'.blocks = w.blocks
  | [], w, w', h => by
    rw [Node.allMarks] at h
    cases h; rfl
  | n :: ns, w, w', h => by
    obtain ⟨u, hu, h⟩ := run_nodes_eq_some h
    rw [blocks_run_allMarks ns h, blocks_run_marks n hu]

end

/-- The body of a block leads back to where the block began. -/
theorem run_body {w w' : Walk} {b : Block} {path : List String} {body : List Node}
    (h : w.run places (.opening b path :: (Node.allMarks body ++ [.closing])) = some w') :
    w' = w ∧ ∃ u, Walk.run places { w with blocks := (w.phase, w.weight) :: w.blocks }
      (Node.allMarks body) = some u ∧ u.phase = w.phase ∧ u.weight = w.weight := by
  obtain ⟨u, hu, hclose⟩ := run_block_eq_some h
  obtain ⟨hw, hback⟩ := hclose (blocks_run_allMarks body hu)
  exact ⟨hw, u, hu, hback⟩

end Walk

/-! ## What the walk says of the text -/

/-- What fills a hole in one of the phases leads back to it and has no surplus. -/
def Fills (places : List Phase) (s : String) : Prop := ∀ p ∈ places, Crosses p s.toList p 0

/-- The scanner has come as far as the walk says. -/
def Walk.Follows (w : Walk) (cs : List Char) : Prop := Crosses .code cs w.phase w.weight

section Follows

variable {places : List Phase} {w w' : Walk} {cs : List Char}

/-- A letter keeps the walk in step with the text. -/
theorem Walk.Follows.char (h : w.Follows cs) {c : Char} (hstep : w.step places (.char c) = some w') :
    w'.Follows (cs ++ [c]) := by
  cases hstep
  have hchar : Crosses w.phase [c] (w.phase.step c)
      (if isBracket c && w.phase.isShown then tally c else 0) := by
    refine ⟨rfl, ?_⟩
    rw [Phase.surplus, Phase.surplus, add_zero]
  have hall := h.append hchar
  rw [add_ite, add_zero] at hall
  exact hall

/-- So do many. -/
theorem Walk.Follows.text (h : w.Follows cs) {ds : List Char}
    (hrun : w.run places (ds.map .char) = some w') : w'.Follows (cs ++ ds) := by
  induction ds generalizing w cs with
  | nil =>
    cases hrun
    rwa [List.append_nil]
  | cons d ds ih =>
    obtain ⟨u, hu, hrun⟩ := run_cons_eq_some hrun
    rw [← List.singleton_append, ← List.append_assoc]
    exact ih (h.char hu) hrun

theorem Walk.Follows.fill (h : w.Follows cs) {s : String} (hs : Fills places s)
    (hphase : w.phase ∈ places) : w.Follows (cs ++ s.toList) := by
  rw [Walk.Follows, ← add_zero w.weight]
  exact h.append (hs w.phase hphase)

theorem Walk.Follows.back (h : w.Follows cs) (hphase : w.phase = w'.phase)
    (hweight : w.weight = w'.weight) : w'.Follows cs := by
  rwa [Walk.Follows, hphase, hweight] at h

end Follows

variable {places : List Phase}

mutual

/-- So do nodes that are rendered. -/
theorem follows_renders : ∀ {context : List (String × Item)} {ns : List Node} {t : String}
    {w w' : Walk} {cs : List Char}, Renders (Fills places) context ns t →
    w.run places (Node.allMarks ns) = some w' → w.Follows cs → w'.Follows (cs ++ t.toList)
  | _, _, _, _, _, _, .nil, hrun, h => by
    rw [Node.allMarks] at hrun
    cases hrun
    rwa [String.toList_empty, List.append_nil]
  | _, _, _, _, _, _, .text _ hrest, hrun, h => by
    obtain ⟨u, hu, hns⟩ := Walk.run_nodes_eq_some hrun
    rw [Node.marks] at hu
    rw [String.toList_append, ← List.append_assoc]
    exact follows_renders hrest hns (h.text hu)
  | _, _, _, _, _, _, .name _ hfill hrest, hrun, h => by
    obtain ⟨u, hu, hns⟩ := Walk.run_nodes_eq_some hrun
    rw [Node.marks] at hu
    obtain ⟨hphase, rfl⟩ := Walk.run_hole_eq_some hu
    rw [String.toList_append, ← List.append_assoc]
    exact follows_renders hrest hns (h.fill hfill hphase)
  | _, _, _, _, _, _, .present _ hbody hrest, hrun, h => by
    obtain ⟨u, hu, hns⟩ := Walk.run_nodes_eq_some hrun
    rw [Node.marks] at hu
    obtain ⟨rfl, v, hv, hphase, hweight⟩ := Walk.run_body hu
    rw [String.toList_append, ← List.append_assoc]
    exact follows_renders hrest hns ((follows_renders hbody hv h).back hphase hweight)
  | _, _, _, _, _, _, .absent _ hrest, hrun, h => by
    obtain ⟨u, hu, hns⟩ := Walk.run_nodes_eq_some hrun
    rw [Node.marks] at hu
    obtain ⟨rfl, -⟩ := Walk.run_body hu
    exact follows_renders hrest hns h
  | _, _, _, _, _, _, .rows _ hbody hrest, hrun, h => by
    obtain ⟨u, hu, hns⟩ := Walk.run_nodes_eq_some hrun
    rw [Node.marks] at hu
    obtain ⟨rfl, v, hv, hphase, hweight⟩ := Walk.run_body hu
    rw [String.toList_append, ← List.append_assoc]
    exact follows_renders hrest hns (follows_rendersEach hbody hv hphase hweight h)

/-- Every body leads back to where the block began, so the next one begins there too. -/
theorem follows_rendersEach : ∀ {context : List (String × Item)} {body : List Node}
    {items : List Item} {t : String} {w v : Walk} {cs : List Char},
    RendersEach (Fills places) context body items t →
    Walk.run places { w with blocks := (w.phase, w.weight) :: w.blocks } (Node.allMarks body) =
      some v → v.phase = w.phase → v.weight = w.weight →
    w.Follows cs → w.Follows (cs ++ t.toList)
  | _, _, _, _, _, _, _, .nil, _, _, _, h => by
    rwa [String.toList_empty, List.append_nil]
  | _, _, _, _, _, _, _, .cons _ hx hrest, hv, hphase, hweight, h => by
    rw [String.toList_append, ← List.append_assoc]
    exact follows_rendersEach hrest hv hphase hweight
      ((follows_renders hx hv h).back hphase hweight)

end

/-- **A rendered text does to the scanner what the walk says.** -/
theorem follows_render {scope : Scope} {context : List (String × Item)}
    (hfits : Fits (Fills places) scope context) {ns : List Node}
    (htyped : Node.areTyped scope ns = true) {w : Walk}
    (hrun : Walk.start.run places (Node.allMarks ns) = some w) {t : String}
    (hrender : renderNodes (.record context) ns = .ok t) : w.Follows t.toList :=
  follows_renders (renders_of_renderNodes hfits htyped hrender) hrun (crosses_nil .code)

/-! ## Reading a template -/

/-- The walk over the template ends where it began. -/
def Returns (places : List Phase) (source : String) : Prop :=
  ∃ ns, Node.parse source = .ok ns ∧ Walk.start.run places (Node.allMarks ns) = some .start

/-- The computation behind `Returns`. -/
def returnsWithin (places : List Phase) (cs : List Char) : Bool :=
  let ts := tokensWithin cs.length 0 cs
  match Node.ofTokens [] [] ts with
  | .ok _ => Walk.start.run places (ts.flatMap Token.marks) == some .start
  | .error _ => false

/-- A template that was seen to come back comes back. -/
theorem returns_of_returnsWithin {places : List Phase} {source : String}
    (h : returnsWithin places source.toList = true) : Returns places source := by
  simp only [returnsWithin, tokensWithin_eq (Nat.le_refl _)] at h
  split at h
  · rename_i ns hns
    refine ⟨ns, hns, ?_⟩
    rw [Node.marks_parse hns]
    exact beq_iff_eq.mp h
  · cases h

namespace Library

/-- A template of the library whose walk ends where it began renders to a balanced text. -/
theorem isBalanced_render {name source : String} {scope : Scope} {notes : List Note}
    (h : (name, source) ∈ templates) (hreads : Reads source scope notes) {places : List Phase}
    (hreturns : Returns places source) {context : List (String × Item)}
    (hfits : Fits (Fills places) scope context) {t : String}
    (hrender : registry.render name (.record context) = .ok t) : IsBalanced t := by
  obtain ⟨ns, hns, hfind⟩ := find?_registry h
  obtain ⟨ms, hms, htyped, -⟩ := hreads
  obtain ⟨ks, hks, hrun⟩ := hreturns
  cases hns.symm.trans hms
  cases hns.symm.trans hks
  rw [Registry.render, hfind] at hrender
  exact follows_render hfits htyped hrun (Except.mapError_eq_ok_iff.mp hrender)

set_option maxRecDepth 20000 in
/-- The interface of a model comes back to code. -/
theorem returns_modelInterface : Returns [.code] modelInterface := by
  apply returns_of_returnsWithin
  rw [modelInterface, toList_paragraph]
  simp only [List.flatMap_cons, List.flatMap_nil]
  repeat rw [String.toList_ofList]
  decide

set_option maxRecDepth 20000 in
/-- So does its controller. -/
theorem returns_controller : Returns hosts controller := by
  apply returns_of_returnsWithin
  rw [controller, toList_paragraph]
  simp only [List.flatMap_cons, List.flatMap_nil, String.toList_append]
  repeat rw [String.toList_ofList]
  decide

set_option maxRecDepth 20000 in
/-- So does the check of the token. -/
theorem returns_tokenMiddleware : Returns [] tokenMiddleware := by
  apply returns_of_returnsWithin
  rw [tokenMiddleware, toList_paragraph]
  simp only [List.flatMap_cons, List.flatMap_nil, String.toList_append]
  repeat rw [String.toList_ofList]
  decide

set_option maxRecDepth 20000 in
/-- So does the guard of the roles. -/
theorem returns_authorizationMiddleware : Returns hosts authorizationMiddleware := by
  apply returns_of_returnsWithin
  rw [authorizationMiddleware, toList_paragraph]
  simp only [List.flatMap_cons, List.flatMap_nil]
  repeat rw [String.toList_ofList]
  decide

set_option maxRecDepth 20000 in
/-- So does the model of the accounts. -/
theorem returns_userModel : Returns [.code] userModel := by
  apply returns_of_returnsWithin
  rw [userModel, toList_paragraph]
  simp only [List.flatMap_cons, List.flatMap_nil]
  repeat rw [String.toList_ofList]
  decide

set_option maxRecDepth 20000 in
/-- So does their service. -/
theorem returns_authService : Returns hosts authService := by
  apply returns_of_returnsWithin
  rw [authService, toList_paragraph]
  simp only [List.flatMap_cons, List.flatMap_nil]
  repeat rw [String.toList_ofList]
  decide

end Library

end Scaffold.Template
