import Mathlib.Algebra.Group.Int.Defs
import Mathlib.Algebra.Group.Prod
import Scaffold.Proofs.Format.Brackets
import Scaffold.Proofs.Text.OneLine

/-!
# Proofs/Format/Surplus — what a text adds to the brackets that are open

The check of a program compares how often the brackets of each kind are seen.  Scanned from a phase
on, a text opens so many more of each kind than it closes (`Phase.surplus`).  Marks look at the
character behind, but surpluses do not: they add up wherever a text is cut (`surplus_append`).  So a
text can be weighed piece by piece, each piece on its way from one phase to another (`Crosses`), and
a program whose surplus is zero passes the check (`codeErrors_eq_nil_iff`).  What a layout leaves is a
computation (`surplus?`), whatever names stand in it.
-/

namespace Scaffold.Format

open Text

/-! ## Counting -/

/-- Openers less closers: of braces, of parentheses, of square brackets. -/
abbrev Tally := Int × Int × Int

/-- One for the opener, less one for the closer. -/
def weigh (opener closer c : Char) : Int :=
  if c = opener then 1 else if c = closer then -1 else 0

/-- What a character that is seen adds. -/
def tally (c : Char) : Tally := (weigh '{' '}' c, weigh '(' ')' c, weigh '[' ']' c)

theorem tally_eq_zero {c : Char} (h : isBracket c = false) : tally c = 0 := by
  have hc (d : Char) (hd : isBracket d = true) : c ≠ d := by
    rintro rfl
    exact Bool.noConfusion (h.symm.trans hd)
  simp only [tally, weigh, hc '{' rfl, hc '}' rfl, hc '(' rfl, hc ')' rfl, hc '[' rfl, hc ']' rfl,
    if_false]
  rfl

/-- A sum of weights is the difference of two counts. -/
theorem sum_weigh {opener closer : Char} (h : opener ≠ closer) (cs : List Char) :
    (cs.map (weigh opener closer)).sum = (cs.count opener : Int) - cs.count closer := by
  induction cs with
  | nil => rfl
  | cons c cs ih =>
    rw [List.map_cons, List.sum_cons, ih, List.count_cons, List.count_cons, weigh]
    by_cases hopener : c = opener
    · subst hopener
      simp [h]
      omega
    · by_cases hcloser : c = closer
      · subst hcloser
        simp [hopener]
        omega
      · simp [hopener, hcloser]

/-- The kinds of brackets are counted each by itself. -/
theorem sum_tally (cs : List Char) : (cs.map tally).sum =
    ((cs.count '{' : Int) - cs.count '}', (cs.count '(' : Int) - cs.count ')',
      (cs.count '[' : Int) - cs.count ']') := by
  rw [← sum_weigh (by decide), ← sum_weigh (by decide), ← sum_weigh (by decide)]
  induction cs with
  | nil => rfl
  | cons c cs ih =>
    rw [List.map_cons, List.sum_cons, ih]
    rfl

namespace Phase

/-- A bracket is seen in this phase. -/
def isShown : Phase → Bool
  | code | stroke => true
  | _ => false

/-- How many brackets of each kind a text opens more than it closes. -/
def surplus : Phase → List Char → Tally
  | _, [] => 0
  | p, c :: cs =>
    -- Nothing is added for other characters, which keeps the sums short that are computed.
    if isBracket c && p.isShown then tally c + (p.step c).surplus cs else (p.step c).surplus cs

theorem surplus_cons (p : Phase) (c : Char) (cs : List Char) :
    p.surplus (c :: cs) = (if p.isShown then tally c else 0) + (p.step c).surplus cs := by
  rw [surplus]
  cases hc : isBracket c with
  | false => rw [tally_eq_zero hc, ite_self, zero_add]; rfl
  | true => cases p.isShown <;> simp

/-- Whether a bracket is seen is known from the phase alone. -/
theorem tally_painted (p : Phase) (c : Char) (next : Option Char) :
    tally (Cell.painted (c, p.mark c next)) = if p.isShown then tally c else 0 := by
  cases hc : isBracket c with
  | false =>
    rw [tally_eq_zero (isBracket_painted hc _), tally_eq_zero hc, ite_self]
  | true =>
    have hbrackets : c ∈ ['{', '}', '(', ')', '[', ']'] := by
      simp only [isBracket, isOpener, isCloser, closerOf?, Bool.or_eq_true] at hc
      grind
    simp only [List.mem_cons, List.not_mem_nil, or_false] at hbrackets
    obtain rfl | rfl | rfl | rfl | rfl | rfl := hbrackets <;> cases p <;> rfl

theorem surplus_eq (p : Phase) (cs : List Char) :
    p.surplus cs = ((painted (p.cells cs)).map tally).sum := by
  induction cs generalizing p with
  | nil => rfl
  | cons c cs ih =>
    rw [surplus_cons, ih, cells_cons, painted_cons, List.map_cons, List.sum_cons, tally_painted]

theorem surplus_append (p : Phase) (cs ds : List Char) :
    p.surplus (cs ++ ds) = p.surplus cs + (p.run cs).surplus ds := by
  induction cs generalizing p with
  | nil => exact (zero_add _).symm
  | cons c cs ih =>
    rw [List.cons_append, surplus_cons, surplus_cons, ih, add_assoc]
    rfl

theorem surplus_of_notBracket (p : Phase) {cs : List Char} (h : ∀ c ∈ cs, isBracket c = false) :
    p.surplus cs = 0 := by
  induction cs generalizing p with
  | nil => rfl
  | cons c cs ih =>
    obtain ⟨hc, hcs⟩ := List.forall_mem_cons.mp h
    rw [surplus_cons, ih _ hcs, tally_eq_zero hc, ite_self, add_zero]

end Phase

/-- **A program passes the check if and only if its brackets leave no surplus.** -/
theorem codeErrors_eq_nil_iff (cs : List Char) :
    codeErrors cs = [] ↔ Phase.code.surplus cs = 0 := by
  rw [Phase.surplus_eq, sum_tally, ← cells_eq]
  simp only [codeErrors, List.filterMap_eq_nil_iff, List.forall_mem_cons, List.not_mem_nil,
    Prod.ext_iff]
  simp
  omega

/-! ## Crossing a text -/

/-- Scanned from a phase, the text leads to another one and has a surplus. -/
structure Crosses (p : Phase) (cs : List Char) (q : Phase) (w : Tally) : Prop where
  run_eq : p.run cs = q
  surplus_eq : p.surplus cs = w

section Crosses

variable {p q q' r : Phase} {u v w : Tally} {cs ds : List Char} {s t : String}

theorem crosses_nil (p : Phase) : Crosses p [] p 0 := ⟨rfl, rfl⟩

theorem Crosses.append (h : Crosses p cs q v) (h' : Crosses q ds r w) :
    Crosses p (cs ++ ds) r (v + w) := by
  constructor
  · rw [Phase.run_append, h.run_eq, h'.run_eq]
  · rw [Phase.surplus_append, h.run_eq, h.surplus_eq, h'.surplus_eq]

theorem Crosses.concat (h : Crosses p s.toList q v) (h' : Crosses q t.toList r w) :
    Crosses p (s ++ t).toList r (v + w) := by
  rw [String.toList_append]
  exact h.append h'

/-- What a text of known characters does is a computation. -/
theorem crosses_ofList (p : Phase) (cs : List Char) :
    Crosses p (String.ofList cs).toList (p.run cs) (p.surplus cs) := by
  rw [String.toList_ofList]
  exact ⟨rfl, rfl⟩

theorem crosses_ite {c : Prop} [Decidable c] (h : c → Crosses p cs q w)
    (h' : ¬c → Crosses p ds q w) : Crosses p (if c then cs else ds) q w := by
  by_cases hc : c
  · rw [if_pos hc]
    exact h hc
  · rw [if_neg hc]
    exact h' hc

/-! ### Texts that lead back to where they began -/

theorem crosses_flatMap {f : Char → List Char} (h : ∀ c ∈ cs, Crosses p (f c) p 0) :
    Crosses p (cs.flatMap f) p 0 := by
  induction cs with
  | nil => exact crosses_nil p
  | cons c cs ih =>
    obtain ⟨hc, hcs⟩ := List.forall_mem_cons.mp h
    exact hc.append (ih hcs)

/-- Items that lead back, with a separator that does, lead back. -/
theorem crosses_joinWith {sep : List Char} (hsep : Crosses p sep p 0) {items : List (List Char)}
    (h : ∀ l ∈ items, Crosses p l p 0) : Crosses p (joinWith sep items) p 0 := by
  induction items with
  | nil => exact crosses_nil p
  | cons l items ih =>
    obtain ⟨hl, hrest⟩ := List.forall_mem_cons.mp h
    cases items with
    | nil => exact hl
    | cons m items => exact (hl.append hsep).append (ih hrest)

theorem crosses_intercalate {sep : String} (hsep : Crosses p sep.toList p 0) {ts : List String}
    (h : ∀ t ∈ ts, Crosses p t.toList p 0) : Crosses p (sep.intercalate ts).toList p 0 := by
  rw [toList_intercalate]
  exact crosses_joinWith hsep (List.forall_mem_map.mpr h)

end Crosses

/-! ## Inert texts -/

/-- The text holds nothing that means anything to the scanner, and no bracket. -/
def Inert (s : String) : Prop := ∀ c ∈ s.toList, isInert c = true

/-- Inert characters can stand wherever the scanner waits for nothing. -/
theorem crosses_of_isInert {p : Phase} (hp : p.settle = p) {cs : List Char}
    (h : ∀ c ∈ cs, isInert c = true) : Crosses p cs p 0 := by
  constructor
  · rw [Phase.run_inert h, hp, ite_self]
  · exact p.surplus_of_notBracket fun c hc => isBracket_eq_false (h c hc)

theorem Inert.crosses {p : Phase} {s : String} (h : Inert s) (hp : p.settle = p) :
    Crosses p s.toList p 0 :=
  crosses_of_isInert hp h

theorem Inert.append {s t : String} (hs : Inert s) (ht : Inert t) : Inert (s ++ t) := by
  rw [Inert, String.toList_append]
  exact List.forall_mem_append.mpr ⟨hs, ht⟩

theorem inert_ofList {cs : List Char} (h : cs.all isInert = true) : Inert (String.ofList cs) := by
  rw [Inert, String.toList_ofList]
  exact List.all_eq_true.mp h

/-- Inert texts with an inert one between them are inert. -/
theorem inert_intercalate {sep : String} (hsep : Inert sep) {ts : List String}
    (h : ∀ t ∈ ts, Inert t) : Inert (sep.intercalate ts) := by
  intro c hc
  rw [toList_intercalate] at hc
  obtain ⟨l, hl, hmem⟩ | hmem := mem_joinWith hc
  · obtain ⟨t, ht, rfl⟩ := List.mem_map.mp hl
    exact h t ht c hmem
  · exact hsep c hmem

/-- Where names stand in a program: in code and between single quotes. -/
def hosts : List Phase := [.code, .literal '\'']

theorem settle_of_mem_hosts {p : Phase} (hp : p ∈ hosts) : p.settle = p :=
  (by decide : ∀ p ∈ hosts, p.settle = p) p hp

theorem isInert_of_isPlainAlnum {c : Char} (h : isPlainAlnum c = true) : isInert c = true := by
  have hspecial : ∀ d ∈ ['\n', '/', '*', '\\', '\'', '"', '\x60', '{', '}', '[', ']', '(', ')'],
      isPlainAlnum d = false := by decide
  rw [isInert, decide_eq_true_eq]
  exact fun hc => Bool.noConfusion (h.symm.trans (hspecial c hc))

/-! ## Literals -/

/-- The character neither ends a literal with the given quote nor escapes anything. -/
def IsBodyOf (quote c : Char) : Prop := c ≠ quote ∧ c ≠ '\\' ∧ c ≠ '\n'

section Literals

variable {q c : Char}

theorem crosses_literal_char (h : IsBodyOf q c) : Crosses (.literal q) [c] (.literal q) 0 := by
  obtain ⟨hquote, hescape, hfeed⟩ := h
  constructor
  · simp [Phase.run, Phase.step, hquote, hescape, hfeed]
  · rw [Phase.surplus_cons]
    rfl

/-- An escaped character stays inside of the literal, whichever it is. -/
theorem crosses_literal_escaped (hc : c ≠ '\n') :
    Crosses (.literal q) ['\\', c] (.literal q) 0 := by
  constructor
  · simp [Phase.run, Phase.step, hc]
  · rw [Phase.surplus_cons, Phase.surplus_cons]
    rfl

theorem crosses_literal {cs : List Char} (h : ∀ c ∈ cs, IsBodyOf q c) :
    Crosses (.literal q) cs (.literal q) 0 := by
  rw [← List.flatMap_singleton' cs]
  exact crosses_flatMap fun c hc => crosses_literal_char (h c hc)

/-- A literal is passed as a whole. -/
theorem crosses_quoted (hq : isQuote q = true) {cs : List Char}
    (h : Crosses (.literal q) cs (.literal q) 0) : Crosses .code (q :: cs ++ [q]) .code 0 := by
  have hbracket : isBracket q = false := by
    simp only [isQuote, Bool.or_eq_true, beq_iff_eq] at hq
    obtain (rfl | rfl) | rfl := hq <;> rfl
  have hsurplus (p : Phase) : p.surplus [q] = 0 :=
    p.surplus_of_notBracket (List.forall_mem_singleton.mpr hbracket)
  have hopen : Crosses .code [q] (.literal q) 0 := ⟨step_quote hq (.inl rfl), hsurplus _⟩
  have hclose : Crosses (.literal q) [q] .code 0 := ⟨step_literal_quote hq, hsurplus _⟩
  exact (hopen.append h).append hclose

end Literals

/-! ## Balanced texts -/

/-- The text begins and ends in code and leaves no surplus. -/
def IsBalanced (s : String) : Prop := Crosses .code s.toList .code 0

section Balanced

variable {p q : Phase} {w : Tally} {s t : String}

theorem Crosses.isBalanced (h : Crosses .code s.toList q w) (hq : q = .code) (hw : w = 0) :
    IsBalanced s := by
  subst hq hw
  exact h

theorem Inert.isBalanced (h : Inert s) : IsBalanced s := h.crosses rfl

theorem IsBalanced.append (hs : IsBalanced s) (ht : IsBalanced t) : IsBalanced (s ++ t) :=
  Crosses.concat hs ht

theorem isBalanced_ofList {cs : List Char}
    (h : Phase.code.run cs = .code ∧ Phase.code.surplus cs = 0) : IsBalanced (String.ofList cs) :=
  (crosses_ofList .code cs).isBalanced h.1 h.2

/-- Balanced texts one behind the other are balanced. -/
theorem isBalanced_join {ts : List String} (h : ∀ t ∈ ts, IsBalanced t) :
    IsBalanced (String.join ts) := by
  induction ts with
  | nil => exact crosses_nil .code
  | cons t ts ih =>
    obtain ⟨ht, hts⟩ := List.forall_mem_cons.mp h
    rw [String.join_cons]
    exact ht.append (ih hts)

theorem isBalanced_intercalate {sep : String} (hsep : IsBalanced sep) {ts : List String}
    (h : ∀ t ∈ ts, IsBalanced t) : IsBalanced (sep.intercalate ts) :=
  crosses_intercalate hsep h

/-- **A balanced program passes the check.** -/
theorem IsBalanced.codeErrors_eq_nil (h : IsBalanced s) : codeErrors s.toList = [] :=
  (codeErrors_eq_nil_iff s.toList).mpr h.surplus_eq

end Balanced

/-! ## Paths -/

/-- The text is inert but for strokes. -/
def Slashed (s : String) : Prop := ∀ c ∈ s.toList, isInert c = true ∨ c = '/'

theorem Slashed.append {s t : String} (hs : Slashed s) (ht : Slashed t) : Slashed (s ++ t) := by
  rw [Slashed, String.toList_append]
  exact List.forall_mem_append.mpr ⟨hs, ht⟩

theorem Inert.slashed {s : String} (h : Inert s) : Slashed s := fun c hc => .inl (h c hc)

theorem slashed_ofList {cs : List Char} (h : (cs.all fun c => isInert c || c == '/') = true) :
    Slashed (String.ofList cs) := by
  rw [Slashed, String.toList_ofList]
  simpa using h

/-- Between quotes, strokes begin no comment. -/
theorem Slashed.crosses {s : String} (h : Slashed s) :
    Crosses (.literal '\'') s.toList (.literal '\'') 0 := by
  refine crosses_literal fun c hc => ?_
  obtain hinert | rfl := h c hc
  · simp only [isInert, decide_eq_true_eq, List.mem_cons, not_or] at hinert
    exact ⟨hinert.2.2.2.2.1, hinert.2.2.2.1, hinert.1⟩
  · exact ⟨by decide, by decide, by decide⟩

/-! ## Texts put together from known ones -/

/-- What is known of a text that is not written out. -/
inductive Manner where
  | inert
  | slashed
  | balanced

namespace Manner

def Holds : Manner → String → Prop
  | inert => Inert
  | slashed => Slashed
  | balanced => IsBalanced

/-- From this phase the text leads back to it. -/
def suits : Manner → Phase → Bool
  | inert, p => p.settle == p
  | slashed, p => p == .literal '\''
  | balanced, p => p == .code

/-- A text crosses each phase that suits its manner. -/
theorem crosses {k : Manner} {s : String} {p : Phase} (h : k.Holds s) (hp : k.suits p = true) :
    Crosses p s.toList p 0 := by
  cases k with
  | inert => exact Inert.crosses h (beq_iff_eq.mp hp)
  | slashed =>
    obtain rfl : p = .literal '\'' := beq_iff_eq.mp hp
    exact Slashed.crosses h
  | balanced =>
    obtain rfl : p = .code := beq_iff_eq.mp hp
    exact h

end Manner

/-- Texts of each manner, and blocks of lines that are balanced. -/
def manners : Filling Manner := ⟨Manner.Holds, fun ls => IsBalanced (paragraph ls)⟩

namespace Phase

/-- What `f` gives for the phase, which is computed before `f` is. -/
def first {α : Type} (f : Phase → α) : Phase → α
  | code => f code
  | stroke => f stroke
  | lineComment => f lineComment
  | blockComment => f blockComment
  | star => f star
  | literal q => f (literal q)
  | escape q => f (escape q)

theorem first_eq {α : Type} (f : Phase → α) (p : Phase) : p.first f = f p := by
  cases p <;> rfl

/-- The phase that a text leads to and its surplus, added to `w`. -/
def pass (w : Tally) : List Char → Phase → Phase × Tally
  | [], p => (p, w)
  -- A step that is put off would be computed again for every character behind it.
  | c :: cs, p => (p.step c).first fun q =>
    if isBracket c && p.isShown then pass (w + tally c) cs q else pass w cs q

/-- One pass finds both. -/
theorem pass_eq (w : Tally) (cs : List Char) (p : Phase) :
    pass w cs p = (p.run cs, w + p.surplus cs) := by
  induction cs generalizing p w with
  | nil => rw [pass, surplus, add_zero]; rfl
  | cons c cs ih =>
    rw [pass, first_eq, surplus]
    split
    · rw [ih, add_assoc]; rfl
    · rw [ih]; rfl

end Phase

/-- The phase that a text leads to and its surplus, if all its parts suit the phase they begin in. -/
def crossing : Wording Manner → Phase → Option (Phase × Tally)
  | .nil, p => some (p, 0)
  | .known cs x, p =>
    let (q, v) := Phase.pass 0 cs p
    (crossing x q).map fun (r, w) => (r, v + w)
  | .other k x, p => if k.suits p then crossing x p else none
  | .either x y rest, p =>
    match crossing x p, crossing y p with
    | some (q, v), some r =>
      if (q, v) = r then (crossing rest q).map fun (q, w) => (q, v + w) else none
    | _, _ => none

/-- Both of two parts lead to one phase with one surplus. -/
theorem crossing_either {x y rest : Wording Manner} {p r : Phase} {w : Tally}
    (h : crossing (.either x y rest) p = some (r, w)) :
    ∃ q u v, crossing x p = some (q, u) ∧ crossing y p = some (q, u) ∧
      crossing rest q = some (r, v) ∧ w = u + v := by
  rw [crossing] at h
  split at h
  · rename_i q u s hx hy
    obtain ⟨hsame, h⟩ := Option.ite_none_right_eq_some.mp h
    obtain ⟨⟨r, v⟩, hrest, hr⟩ := Option.map_eq_some_iff.mp h
    cases hr
    exact ⟨q, u, v, hx, hsame ▸ hy, hrest, rfl⟩
  · cases h

/-- The parts of a wording lead on from one to the next. -/
theorem crosses_of_crossing {x : Wording Manner} {cs : List Char} (h : Spells manners x cs)
    {p q : Phase} {w : Tally} (hx : crossing x p = some (q, w)) : Crosses p cs q w := by
  induction h generalizing p q w with
  | nil =>
    cases hx
    exact crosses_nil p
  | known cs _ ih =>
    rw [crossing, Phase.pass_eq, zero_add] at hx
    obtain ⟨⟨q, v⟩, hrest, hq⟩ := Option.map_eq_some_iff.mp hx
    cases hq
    exact Crosses.append ⟨rfl, rfl⟩ (ih hrest)
  | other hs _ ih =>
    obtain ⟨hsuits, hrest⟩ := Option.ite_none_right_eq_some.mp hx
    rw [← zero_add w]
    exact (Manner.crosses hs hsuits).append (ih hrest)
  | left _ y _ ihx ih =>
    obtain ⟨q, u, v, hfront, -, hrest, rfl⟩ := crossing_either hx
    exact (ihx hfront).append (ih hrest)
  | right x _ _ ihy ih =>
    obtain ⟨q, u, v, -, hfront, hrest, rfl⟩ := crossing_either hx
    exact (ihy hfront).append (ih hrest)

/-- The surplus of the lines, if each of them is left for the next one in code. -/
def surplus? : Layout Manner → Option Tally
  | .nil => some 0
  | .line w x =>
    match crossing w .code with
    | some (q, v) => if q.newline = .code then (surplus? x).map (v + ·) else none
    | none => none
  | .append x y =>
    match surplus? x, surplus? y with
    | some v, some w => some (v + w)
    | _, _ => none
  | .either x y =>
    match surplus? x, surplus? y with
    | some v, some w => if v = w then some v else none
    | _, _ => none
  | .block => some 0

theorem crosses_lineFeed {q : Phase} (h : q.newline = .code) : Crosses q ['\n'] .code 0 :=
  ⟨(if_pos rfl : q.step '\n' = q.newline).trans h, q.surplus_of_notBracket (by decide)⟩

theorem crosses_paragraph_cons {l : String} {ls : List String} {q : Phase} {v w : Tally}
    (hl : Crosses .code l.toList q v) (hq : q.newline = .code)
    (h : Crosses .code (paragraph ls).toList .code w) :
    Crosses .code (paragraph (l :: ls)).toList .code (v + w) := by
  rw [toList_paragraph_cons, ← List.singleton_append, ← zero_add w]
  exact hl.append ((crosses_lineFeed hq).append h)

/-- Both of two blocks have one surplus. -/
theorem surplus?_either {x y : Layout Manner} {w : Tally} (h : surplus? (.either x y) = some w) :
    surplus? x = some w ∧ surplus? y = some w := by
  rw [surplus?] at h
  split at h
  · rename_i v u hv hu
    simp only [Option.ite_none_right_eq_some, Option.some.injEq] at h
    obtain ⟨rfl, rfl⟩ := h
    exact ⟨hv, hu⟩
  · cases h

/-- **Lines have the surplus of their layout.** -/
theorem crosses_of_surplus? {x : Layout Manner} {ls : List String} (h : Lays manners x ls)
    {w : Tally} (hx : surplus? x = some w) : Crosses .code (paragraph ls).toList .code w := by
  induction h generalizing w with
  | nil =>
    cases hx
    exact crosses_nil .code
  | line hl _ ih =>
    rw [surplus?] at hx
    split at hx
    · rename_i q v hline
      obtain ⟨hq, hx⟩ := Option.ite_none_right_eq_some.mp hx
      obtain ⟨w, hw, rfl⟩ := Option.map_eq_some_iff.mp hx
      exact crosses_paragraph_cons (crosses_of_crossing hl hline) hq (ih hw)
    · cases hx
  | append _ _ ihx ihy =>
    rw [surplus?] at hx
    split at hx
    · rename_i v w hv hw
      cases hx
      rw [paragraph_append]
      exact (ihx hv).concat (ihy hw)
    · cases hx
  | left _ _ ih => exact ih (surplus?_either hx).1
  | right _ _ ih => exact ih (surplus?_either hx).2
  | block h =>
    cases hx
    exact h

/-- A text is balanced if its wording leads from code to code without a surplus. -/
theorem isBalanced_of_crossing {s : String} {x : Wording Manner} [h : Worded manners s x]
    (hx : crossing x .code = some (.code, 0)) : IsBalanced s :=
  crosses_of_crossing h.spells hx

/-- Lines are balanced if their layout leaves no surplus. -/
theorem isBalanced_of_surplus? {ls : List String} {x : Layout Manner} [h : LaidOut manners ls x]
    (hx : surplus? x = some 0) : IsBalanced (paragraph ls) :=
  crosses_of_surplus? h.lays hx

theorem Inert.fills {s : String} (h : Inert s) : Fills manners s .inert := ⟨h⟩

theorem Slashed.fills {s : String} (h : Slashed s) : Fills manners s .slashed := ⟨h⟩

theorem IsBalanced.fills {s : String} (h : IsBalanced s) : Fills manners s .balanced := ⟨h⟩

/-- Lines that are balanced one by one are a balanced block. -/
theorem fillsBlock_map {α : Type} {as : List α} {f : α → String} (h : ∀ a ∈ as, IsBalanced (f a)) :
    FillsBlock manners (as.map f) where
  block := by
    induction as with
    | nil => exact crosses_nil .code
    | cons a as ih =>
      obtain ⟨ha, has⟩ := List.forall_mem_cons.mp h
      exact crosses_paragraph_cons ha rfl (ih has)

end Scaffold.Format
