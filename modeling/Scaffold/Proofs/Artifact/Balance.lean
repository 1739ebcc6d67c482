import Scaffold.Proofs.Artifact.Bodies
import Scaffold.Proofs.Format.Surplus
import Scaffold.Proofs.Text.Numerals

/-!
# Proofs/Artifact/Balance — the brackets of every emitted file

The emitters write fixed texts around names, numbers and quoted texts.  Names and numbers are inert,
and what is quoted stays in its quotes, so each of them leads the scanner back to where it was and
adds no bracket.  What the fixed texts do is computed, line by line, and the lines of every source
file are level.
-/

namespace Scaffold

open Format Model Text

/-- The names that a model hands on to the sources of a project are in ASCII, the bounds of its rules
are numbers, and its messages and patterns stay on one line. -/
structure Model.Conventional (m : Model) : Prop where
  name : IsPlain m.name
  fieldName : ∀ f ∈ m.fields, IsPlain f.name
  tableName : ∀ t, m.metadata.tableName = some t → Naming.IsPlainWord t
  role : ∀ r ∈ m.metadata.allowedRoles, IsPlain r
  bound : ∀ f ∈ m.fields, ∀ r ∈ f.rules, r.kind ∈ [.minLength, .maxLength, .min, .max] →
    ∀ s, r.operand ≠ .text s
  pattern : ∀ f ∈ m.fields, ∀ r ∈ f.rules, r.kind = .pattern → ∀ s, r.operand = .text s → OneLine s
  message : ∀ f ∈ m.fields, ∀ r ∈ f.rules, ∀ s, r.message = some s → OneLine s

end Scaffold

namespace Scaffold.Text

open Format

theorem IsPlain.inert {s : String} (h : IsPlain s) : Inert s :=
  fun c hc => isInert_of_isPlainAlnum (h c hc)

end Scaffold.Text

namespace Scaffold.Naming

open Format

theorem IsPlainWord.inert {s : String} (h : IsPlainWord s) : Inert s := by
  intro c hc
  obtain hplain | rfl := h c hc
  · exact isInert_of_isPlainAlnum hplain
  · rfl

end Scaffold.Naming

namespace Scaffold.Number

open Format

/-- A numeral holds no quote, no bracket and no stroke. -/
theorem IsNumeral.isInert {cs : List Char} (h : IsNumeral cs) : ∀ c ∈ cs, isInert c = true := by
  induction h with
  | nil => exact List.forall_mem_nil _
  | cons hc _ ih =>
    refine List.forall_mem_cons.mpr ⟨?_, ih⟩
    obtain hplain | hsign := hc
    · exact isInert_of_isPlainAlnum hplain
    · exact (by decide : ∀ c ∈ ['.', '+'], Format.isInert c = true) _ hsign
  | minus hc _ ih =>
    exact List.forall_mem_cons.mpr ⟨rfl, List.forall_mem_cons.mpr ⟨isInert_of_isPlainAlnum hc, ih⟩⟩

end Scaffold.Number

namespace Scaffold.Artifact

open Document Format Model Number Options Text

/-! ## Names, numbers and quoted texts -/

theorem inert_shown {x : Operand} (h : ∀ s, x ≠ .text s) : Inert x.document.shown := by
  cases x with
  | int n => exact (isNumeral_literal_int n).isInert
  | real x => exact (isNumeral_literal_real x).isInert
  | text s => exact absurd rfl (h s)

/-- A placeholder is a sign and perhaps a number. -/
theorem inert_parameter (d : Dialect) (n : Nat) : Inert (d.parameter n) := by
  cases d with
  | postgresql =>
    have hdollar : Inert "$" := inert_ofList (by decide)
    exact hdollar.append (isPlain_toString_nat n).inert
  | mysql =>
    have hmark : Inert "?" := inert_ofList (by decide)
    exact hmark

/-- A text that is written as a literal stays in its quotes, since each quote and backslash is
escaped. -/
theorem isBalanced_scriptText {s : String} (h : OneLine s) : IsBalanced (scriptText s) := by
  rw [IsBalanced, scriptText, String.toList_ofList]
  refine crosses_quoted rfl (crosses_flatMap fun c hc => ?_)
  have hfeed : c ≠ '\n' := fun heq => h (heq ▸ hc)
  unfold escapeQuoted
  split
  · exact crosses_literal_escaped hfeed
  · rename_i hplain
    simp only [Bool.or_eq_true, decide_eq_true_eq, not_or] at hplain
    exact crosses_literal_char ⟨hplain.2, hplain.1, hfeed⟩

theorem isBalanced_scriptLiteral {x : Operand} (h : ∀ s, x = .text s → OneLine s) :
    IsBalanced (scriptLiteral x) := by
  cases x with
  | int n => exact (inert_shown (x := .int n) (by simp)).isBalanced
  | real x => exact (inert_shown (x := .real x) (by simp)).isBalanced
  | text s => exact isBalanced_scriptText (h s rfl)

theorem isBalanced_quoted {s : String} (h : Inert s) : IsBalanced (quoted s) := by
  have hs := h.fills
  unfold quoted
  exact isBalanced_of_crossing (by decide)

/-! ## Documents -/

theorem isBodyOf_hexDigit (n : Nat) : IsBodyOf '"' (Json.hexDigit (n % 16)) := by
  have hdigits : ∀ m < 16, Json.hexDigit m ≠ '"' ∧ Json.hexDigit m ≠ '\\' ∧
      Json.hexDigit m ≠ '\n' := by
    decide
  exact hdigits _ (Nat.mod_lt n (by decide))

theorem crosses_escapeUnit (n : Nat) :
    Crosses (.literal '"') (Json.escapeUnit n) (.literal '"') 0 := by
  refine (crosses_literal_escaped (c := 'u') (by decide)).append (crosses_literal ?_)
  simp only [List.forall_mem_cons, List.not_mem_nil, false_implies, implies_true, and_true]
  exact ⟨isBodyOf_hexDigit _, isBodyOf_hexDigit _, isBodyOf_hexDigit _, isBodyOf_hexDigit _⟩

/-- However a character is escaped, the scanner is still in the literal behind it. -/
theorem crosses_escapeChar (ascii : Bool) (c : Char) :
    Crosses (.literal '"') (Json.escapeChar ascii c) (.literal '"') 0 := by
  unfold Json.escapeChar
  refine crosses_ite (fun _ => crosses_literal_escaped (by decide)) fun hquote => ?_
  refine crosses_ite (fun _ => crosses_literal_escaped (by decide)) fun hescape => ?_
  refine crosses_ite (fun _ => crosses_literal_escaped (by decide)) fun hfeed => ?_
  repeat refine crosses_ite (fun _ => crosses_literal_escaped (by decide)) fun _ => ?_
  refine crosses_ite (fun _ => crosses_escapeUnit _) fun _ => ?_
  refine crosses_ite (fun _ => ?_) fun _ => crosses_literal_char ⟨hquote, hescape, hfeed⟩
  refine crosses_ite (fun _ => crosses_escapeUnit _) fun _ => ?_
  exact (crosses_escapeUnit _).append (crosses_escapeUnit _)

/-- A quoted text of a document is passed as a whole, whatever it holds. -/
theorem crosses_quote (ascii : Bool) (s : String) :
    Crosses .code (Json.quote ascii s) .code 0 :=
  crosses_quoted rfl (crosses_flatMap fun c _ => crosses_escapeChar ascii c)

/-- In either place the brackets around items match. -/
theorem crosses_enclose {p : Phase} (hp : p ∈ hosts) (depth : Nat) {b : Char × Char}
    (hb : b ∈ [('[', ']'), ('{', '}')]) {items : List (List Char)}
    (h : ∀ l ∈ items, Crosses p l p 0) :
    Crosses p (Json.enclose .line depth b.1 b.2 items) p 0 := by
  have hends : ∀ p ∈ hosts, ∀ b ∈ [('[', ']'), ('{', '}')], p.run [b.1] = p ∧ p.run [b.2] = p ∧
      p.surplus [b.1] + 0 + p.surplus [b.2] = 0 := by
    decide
  obtain ⟨hopener, hcloser, hsurplus⟩ := hends p hp b hb
  have hopen : Crosses p [b.1] p (p.surplus [b.1]) := ⟨hopener, rfl⟩
  have hclose : Crosses p [b.2] p (p.surplus [b.2]) := ⟨hcloser, rfl⟩
  have hcomma : Crosses p [',', ' '] p 0 :=
    crosses_of_isInert (settle_of_mem_hosts hp) (by decide)
  have hall := (hopen.append (crosses_joinWith hcomma h)).append hclose
  rw [hsurplus] at hall
  unfold Json.enclose
  split
  · rename_i hempty
    rw [List.isEmpty_iff.mp hempty] at hall
    exact hall
  · exact hall

/-! ## Chains of checks -/

/-- The bounds of a field are numbers, and what its rules quote stays on one line. -/
structure ConventionalRules (rules : List Rule) : Prop where
  bound : ∀ r ∈ rules, r.kind ∈ [.minLength, .maxLength, .min, .max] → ∀ s, r.operand ≠ .text s
  pattern : ∀ r ∈ rules, r.kind = .pattern → ∀ s, r.operand = .text s → OneLine s
  message : ∀ r ∈ rules, ∀ s, r.message = some s → OneLine s

/-- A message is one literal. -/
theorem isBalanced_withMessage {message : Option String} (h : ∀ s, message = some s → OneLine s) :
    ∀ p ∈ withMessage message, IsBalanced p := by
  unfold withMessage
  split
  · rename_i m
    split
    · simp
    · rw [List.forall_mem_singleton]
      have htext := (isBalanced_scriptText (h m rfl)).fills
      exact isBalanced_of_crossing (by decide)
  · simp

/-- What a bound says is a number. -/
theorem inert_limit {word : String} (hword : Inert word) {bound : Option Rule}
    (h : ∀ r ∈ bound.toList, ∀ s, r.operand ≠ .text s) :
    ∀ l ∈ (bound.map fun r => word ++ r.operand.document.shown).toList, Inert l := by
  cases bound with
  | none => simp
  | some r =>
    rw [Option.map_some, Option.toList_some, List.forall_mem_singleton]
    exact hword.append (inert_shown (h r (by simp)))

theorem inert_check_of_bounds {f : Field} {b : Bounds} (hb : bounds? f = some b) :
    Inert b.check := by
  have hall : ∀ s ∈ ["isLength", "isInt", "isFloat"], Inert s := by
    simp only [List.forall_mem_cons, List.not_mem_nil, false_implies, implies_true, and_true]
    exact ⟨inert_ofList (by decide), inert_ofList (by decide), inert_ofList (by decide)⟩
  exact hall b.check (check_mem_of_bounds hb)

/-- The check of the bounds: numbers in a record of options. -/
theorem isBalanced_boundParts {f : Field} (h : ConventionalRules f.rules) :
    ∀ p ∈ boundParts f, IsBalanced p := by
  unfold boundParts
  split
  · simp
  · rename_i b hb
    have hrules := of_mem_bounds hb
    have hbound : ∀ r ∈ b.lower.toList ++ b.upper.toList, ∀ s, r.operand ≠ .text s :=
      fun r hr => h.bound r (hrules r hr).1 (hrules r hr).2
    have hcheck : Inert b.check := inert_check_of_bounds hb
    have hall := inert_intercalate (inert_ofList (by decide) : Inert ", ")
      (List.forall_mem_append.mpr
        ⟨inert_limit (inert_ofList (by decide) : Inert "min: ") fun r hr =>
          hbound r (List.mem_append_left _ hr),
        inert_limit (inert_ofList (by decide) : Inert "max: ") fun r hr =>
          hbound r (List.mem_append_right _ hr)⟩)
    simp only
    split
    · simp
    · have hmessage := isBalanced_withMessage
        (oneLine_firstMessage fun r hr => h.message r (hrules r hr).1)
      rw [List.forall_mem_cons]
      refine ⟨?_, hmessage⟩
      have hfirst := hcheck.fills
      have hlimits := hall.fills
      exact isBalanced_of_crossing (by decide)

/-- The check of a pattern, which is written as one literal. -/
theorem isBalanced_patternParts {f : Field} (h : ConventionalRules f.rules) :
    ∀ p ∈ patternParts f, IsBalanced p := by
  unfold patternParts
  split
  · simp
  · rename_i r hr
    obtain ⟨hmem, hkind⟩ := of_rule?_eq_some hr
    have hpattern : r.kind = .pattern := by
      cases hr : r.kind <;> rw [hr] at hkind <;> first | rfl | exact absurd hkind (by decide)
    have hliteral := (isBalanced_scriptLiteral (h.pattern r hmem hpattern)).fills
    rw [List.forall_mem_cons]
    exact ⟨isBalanced_of_crossing (by decide), isBalanced_withMessage (h.message r hmem)⟩

/-- **The chain of checks of a field is balanced** if its name is inert and its rules are
conventional. -/
theorem isBalanced_validationChain {f : Field} (hname : Inert f.name)
    (h : ConventionalRules f.rules) (forUpdate : Bool) :
    IsBalanced (validationChain forUpdate f) := by
  have hcheck : IsBalanced (Catalog.facts f.type).check := by
    cases f.type <;> exact isBalanced_ofList (by decide)
  have hfills := hname.fills
  have hbody : IsBalanced ("body('" ++ f.name ++ "')") := isBalanced_of_crossing (by decide)
  have hmessage : IsBalanced (".withMessage('" ++ f.name ++ " is required')") :=
    isBalanced_of_crossing (by decide)
  unfold validationChain
  refine isBalanced_join (List.forall_mem_append.mpr ⟨List.forall_mem_append.mpr ⟨?_,
    isBalanced_boundParts h⟩, isBalanced_patternParts h⟩)
  simp only [List.forall_mem_cons, List.not_mem_nil, false_implies, implies_true, and_true]
  refine ⟨hbody, ?_, IsBalanced.append (isBalanced_ofList (by decide)) hcheck⟩
  split
  · exact IsBalanced.append (isBalanced_ofList (by decide)) hmessage
  · exact isBalanced_ofList (by decide)

end Scaffold.Artifact
