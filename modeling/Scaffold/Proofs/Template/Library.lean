import Scaffold.Proofs.Template.Lines
import Scaffold.Template.Library

/-!
# Proofs/Template/Library — the registered templates, read once

What a template of the library needs and which imports it writes is a computation on its text:
`Reads source scope notes` says that the text is a template, that it uses the names of `scope` by
their kinds, and that its import lines are `notes`.  The registry then holds it under its name
(`find?_registry`), so it renders in every context of its scope (`exists_render`), with no import
line beyond its notes (`exists_note_of_render`).
-/

namespace Scaffold.Template

open Text

/-! ## Tokens with fuel -/

/-- The tokens of a text of at most `fuel` characters. -/
def tokensWithin : Nat → Nat → List Char → List Token
  | 0, _, _ => []
  | _ + 1, _, [] => []
  | fuel + 1, offset, c :: cs =>
    match readTag (c :: cs) with
    | some (t, rest) =>
      let n := cs.length - rest.length
      .tag t (c :: cs.take n) offset :: tokensWithin fuel (offset + n + 1) (cs.drop n)
    | none => Token.addChar c (tokensWithin fuel (offset + 1) cs)

/-- Enough fuel gives all tokens. -/
theorem tokensWithin_eq {fuel offset : Nat} {cs : List Char} (h : cs.length ≤ fuel) :
    tokensWithin fuel offset cs = tokensFrom offset cs := by
  induction fuel generalizing offset cs with
  | zero => rw [List.eq_nil_of_length_eq_zero (Nat.le_zero.mp h), tokensFrom, tokensWithin]
  | succ fuel ih =>
    cases cs with
    | nil => rw [tokensFrom, tokensWithin]
    | cons c cs =>
      have hlen : cs.length ≤ fuel := Nat.le_of_succ_le_succ h
      rw [tokensFrom, tokensWithin]
      cases readTag (c :: cs) with
      | none => exact congrArg (Token.addChar c) (ih hlen)
      | some tr => exact congrArg _ (ih (by rw [List.length_drop]; omega))

/-! ## Reading a template -/

/-- The text is a template that uses the names of the scope by their kinds, and its import lines
are the notes. -/
def Reads (source : String) (scope : Scope) (notes : List Note) : Prop :=
  ∃ ns, Node.parse source = .ok ns ∧ Node.areTyped scope ns = true ∧
    Scan.notes? (Node.allMarks ns) = some notes

/-- The computation behind `Reads`. -/
def readsWithin (cs : List Char) (scope : Scope) (notes : List Note) : Bool :=
  let ts := tokensWithin cs.length 0 cs
  match Node.ofTokens [] [] ts with
  | .ok ns => Node.areTyped scope ns && Scan.notes? (ts.flatMap Token.marks) == some notes
  | .error _ => false

/-- A template that was seen to be read is read. -/
theorem reads_of_readsWithin {source : String} {scope : Scope} {notes : List Note}
    (h : readsWithin source.toList scope notes = true) : Reads source scope notes := by
  simp only [readsWithin, tokensWithin_eq (Nat.le_refl _)] at h
  split at h
  · rename_i ns hns
    rw [Bool.and_eq_true, beq_iff_eq] at h
    refine ⟨ns, hns, h.1, ?_⟩
    rw [Node.marks_parse hns]
    exact h.2
  · cases h

/-! ## Registering -/

namespace Registry

theorem lookup_put (name : String) (e : Entry) (es : List (String × Entry)) (n : String) :
    (add.put name e es).lookup n = if n = name then some e else es.lookup n := by
  induction es with
  | nil =>
    rw [add.put, List.lookup_cons, List.lookup_nil]
    by_cases h : n = name
    · rw [if_pos h, beq_iff_eq.mpr h]
    · rw [if_neg h, beq_eq_false_iff_ne.mpr h]
  | cons f es ih =>
    rw [add.put]
    split
    · rename_i hf
      rw [List.lookup_cons, List.lookup_cons, hf]
      by_cases h : n = name
      · rw [if_pos h, beq_iff_eq.mpr h]
      · rw [if_neg h, beq_eq_false_iff_ne.mpr h]
    · rename_i hf
      rw [List.lookup_cons, List.lookup_cons, ih]
      by_cases h : n = name
      · rw [if_pos h, if_pos h, h, beq_eq_false_iff_ne.mpr (Ne.symm hf)]
      · rw [if_neg h, if_neg h]

theorem add_eq_ok {r r' : Registry} {name source : String} (h : r.add name source = .ok r') :
    ∃ ns, Node.parse source = .ok ns ∧
      ∀ n, r'.find? n = if n = name then some ⟨source, ns⟩ else r.find? n := by
  obtain ⟨ns, hns, rfl⟩ := Except.map_eq_ok_iff.mp h
  exact ⟨ns, hns, lookup_put name _ r.entries⟩

/-- Templates that are parsed are added. -/
theorem exists_addAll (r : Registry) {ts : List (String × String)}
    (h : ∀ e ∈ ts, ∃ ns, Node.parse e.2 = .ok ns) : ∃ r', r.addAll ts = .ok r' := by
  induction ts generalizing r with
  | nil => exact ⟨r, rfl⟩
  | cons e ts ih =>
    obtain ⟨ns, hns⟩ := h e List.mem_cons_self
    obtain ⟨r', hr'⟩ := ih ⟨add.put e.1 ⟨e.2, ns⟩ r.entries⟩
      fun f hf => h f (List.mem_cons_of_mem e hf)
    refine ⟨r', ?_⟩
    rw [addAll, add, hns]
    exact hr'

/-- What was not added is found as before. -/
theorem find?_addAll_of_notMem {r r' : Registry} {ts : List (String × String)} {name : String}
    (h : r.addAll ts = .ok r') (hname : name ∉ ts.map (·.1)) : r'.find? name = r.find? name := by
  induction ts generalizing r with
  | nil => cases h; rfl
  | cons e ts ih =>
    rw [addAll] at h
    split at h
    · rename_i r₁ hadd
      obtain ⟨ns, -, hfind⟩ := add_eq_ok hadd
      rw [List.map_cons, List.mem_cons, not_or] at hname
      rw [ih h hname.2, hfind, if_neg hname.1]
    · cases h

/-- Each of the templates that were registered under different names is found under its own. -/
theorem find?_addAll {r r' : Registry} {ts : List (String × String)} (h : r.addAll ts = .ok r')
    (hnodup : (ts.map (·.1)).Nodup) {name source : String} (hmem : (name, source) ∈ ts) :
    ∃ ns, Node.parse source = .ok ns ∧ r'.find? name = some ⟨source, ns⟩ := by
  induction ts generalizing r with
  | nil => exact absurd hmem List.not_mem_nil
  | cons e ts ih =>
    rw [addAll] at h
    split at h
    · rename_i r₁ hadd
      obtain ⟨hnotMem, hnodup⟩ := List.nodup_cons.mp hnodup
      obtain rfl | hmem := List.mem_cons.mp hmem
      · obtain ⟨ns, hns, hfind⟩ := add_eq_ok hadd
        exact ⟨ns, hns, by rw [find?_addAll_of_notMem h hnotMem, hfind, if_pos rfl]⟩
      · exact ih h hnodup hmem
    · cases h

end Registry

namespace Library

/-! ## The templates -/

/-- Characters of a line. -/
def bits (s : String) : List Bit := s.toList.map .char

def modelInterfaceScope : Scope :=
  [("modelName", .text), ("fields", .rows ["name", "tsType", "optionalMark"]),
    ("timestamps", .flag), ("softDelete", .flag)]

def controllerScope : Scope := [("modelName", .text), ("serviceVar", .text)]

def schemaScope : Scope :=
  [("tableName", .text), ("columns", .rows ["definition", "separator"]),
    ("indexes", .rows ["indexName", "column"]),
    ("relationships",
      .rows ["kind", "sourceColumn", "targetTable", "targetColumn", "cascade"]),
    ("timestamps", .flag)]

def authorizationScope : Scope :=
  [("roles", .rows ["name", "capitalizedName"]), ("rolesJson", .text)]

def userModelScope : Scope := [("roleUnion", .text), ("tokenAuth", .flag)]

def authServiceScope : Scope := [("tokenAuth", .flag), ("defaultRole", .text)]

def handlerNote : Note := ⟨[], bits r"import { Request, Response, NextFunction } from 'express';"⟩

def tokenNote (flags : List String) : Note := ⟨flags, bits "import jwt from 'jsonwebtoken';"⟩

def controllerNotes : List Note :=
  let name : List Bit := [.hole "modelName"]
  [handlerNote,
    ⟨[], bits r"import { " ++ name ++ bits r"Service } from '../services/" ++ name ++
      bits "Service';"⟩,
    ⟨[], bits r"import { Create" ++ name ++ bits "Request, Update" ++ name ++
      bits r"Request } from '../models/" ++ name ++ bits "';"⟩]

def authorizationNotes : List Note :=
  [handlerNote, ⟨[], bits r"import { AuthenticatedRequest } from './auth';"⟩]

def authServiceNotes : List Note :=
  [tokenNote ["tokenAuth"], ⟨[], bits "import bcrypt from 'bcryptjs';"⟩,
    ⟨[], bits r"import { UserRepository } from '../repositories/UserRepository';"⟩,
    ⟨[], bits (r"import { User, CreateUserRequest, LoginRequest, AuthResult } " ++
      r"from '../models/User';")⟩]

/-- The templates of the library, each with its scope and its notes. -/
def manifest : List (String × Scope × List Note) :=
  [(modelInterface, modelInterfaceScope, []), (controller, controllerScope, controllerNotes),
    (postgresqlSchema, schemaScope, []), (mysqlSchema, schemaScope, []),
    (tokenMiddleware, [], [handlerNote, tokenNote []]),
    (authorizationMiddleware, authorizationScope, authorizationNotes),
    (userModel, userModelScope, []), (authService, authServiceScope, authServiceNotes)]

set_option maxRecDepth 20000 in
/-- Every template of the library reads what its entry says. -/
theorem reads_manifest : ∀ e ∈ manifest, Reads e.1 e.2.1 e.2.2 := by
  simp only [manifest, List.forall_mem_cons, List.not_mem_nil, false_implies, implies_true,
    and_true]
  -- Each text is first written out as characters: only then is the rest a computation.
  refine ⟨?_, ?_, ?_, ?_, ?_, ?_, ?_, ?_⟩ <;> apply reads_of_readsWithin <;>
    simp only [modelInterface, controller, postgresqlSchema, mysqlSchema, tokenMiddleware,
      authorizationMiddleware, userModel, authService, toList_paragraph, toList_unlines,
      List.flatMap_cons, List.flatMap_nil, List.map_cons, List.map_nil, String.toList_append,
      controllerNotes, authorizationNotes, authServiceNotes, handlerNote, tokenNote, bits] <;>
    (repeat rw [String.toList_ofList]) <;> decide +kernel

theorem reads_modelInterface : Reads modelInterface modelInterfaceScope [] :=
  reads_manifest (modelInterface, modelInterfaceScope, []) (by simp [manifest])

theorem reads_controller : Reads controller controllerScope controllerNotes :=
  reads_manifest (controller, controllerScope, controllerNotes) (by simp [manifest])

theorem reads_postgresqlSchema : Reads postgresqlSchema schemaScope [] :=
  reads_manifest (postgresqlSchema, schemaScope, []) (by simp [manifest])

theorem reads_mysqlSchema : Reads mysqlSchema schemaScope [] :=
  reads_manifest (mysqlSchema, schemaScope, []) (by simp [manifest])

theorem reads_tokenMiddleware : Reads tokenMiddleware [] [handlerNote, tokenNote []] :=
  reads_manifest (tokenMiddleware, [], [handlerNote, tokenNote []]) (by simp [manifest])

theorem reads_authorizationMiddleware :
    Reads authorizationMiddleware authorizationScope authorizationNotes :=
  reads_manifest (authorizationMiddleware, authorizationScope, authorizationNotes)
    (by simp [manifest])

theorem reads_userModel : Reads userModel userModelScope [] :=
  reads_manifest (userModel, userModelScope, []) (by simp [manifest])

theorem reads_authService : Reads authService authServiceScope authServiceNotes :=
  reads_manifest (authService, authServiceScope, authServiceNotes) (by simp [manifest])

/-! ## The registry -/

/-- So every one is parsed. -/
theorem exists_parse_of_mem_templates :
    ∀ e ∈ templates, ∃ ns, Node.parse e.2 = .ok ns := by
  intro e he
  have hsource : e.2 ∈ manifest.map (·.1) := List.mem_map_of_mem (f := (·.2)) he
  obtain ⟨m, hm, hsource⟩ := List.mem_map.mp hsource
  obtain ⟨ns, hns, -⟩ := reads_manifest m hm
  exact ⟨ns, hsource ▸ hns⟩

/-- Every one is found under its name. -/
theorem find?_registry {name source : String} (h : (name, source) ∈ templates) :
    ∃ ns, Node.parse source = .ok ns ∧ registry.find? name = some ⟨source, ns⟩ := by
  obtain ⟨r, hr⟩ := Registry.empty.exists_addAll exists_parse_of_mem_templates
  have hregistry : registry = r := by rw [registry, hr]; rfl
  rw [hregistry]
  exact Registry.find?_addAll hr (by decide) h

variable {name source : String} {scope : Scope} {notes : List Note}

/-- **A template of the library renders in every context of its scope.** -/
theorem exists_render (h : (name, source) ∈ templates) (hreads : Reads source scope notes)
    {P : String → Prop} {context : List (String × Item)} (hfits : Fits P scope context) :
    ∃ t, registry.render name (.record context) = .ok t := by
  obtain ⟨ns, hns, hfind⟩ := find?_registry h
  obtain ⟨ms, hms, htyped, -⟩ := hreads
  cases hns.symm.trans hms
  obtain ⟨t, ht⟩ := exists_renderNodes ns hfits htyped
  refine ⟨t, ?_⟩
  rw [Registry.render, hfind]
  simp only [ht]
  rfl

/-- The import lines of a rendered template of the library are instances of its notes. -/
theorem exists_note_of_render (h : (name, source) ∈ templates)
    (hreads : Reads source scope notes) {context : List (String × Item)}
    (hfits : Fits OneLine scope context) {t : String}
    (hrender : registry.render name (.record context) = .ok t) {l : List Char}
    (hl : l ∈ lines t.toList) (himport : importWord <+: l) :
    ∃ n ∈ notes, n.Shows context l := by
  obtain ⟨ns, hns, hfind⟩ := find?_registry h
  obtain ⟨ms, hms, htyped, hnotes⟩ := hreads
  cases hns.symm.trans hms
  rw [Registry.render, hfind] at hrender
  exact exists_noted_of_import hfits htyped hnotes (Except.mapError_eq_ok_iff.mp hrender) hl
    himport

end Library

end Scaffold.Template
