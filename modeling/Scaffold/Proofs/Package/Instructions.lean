import Scaffold.Proofs.Package.Metadata
import Scaffold.Proofs.Project.Tables

/-!
# Proofs/Package/Instructions — which schema files are applied, and in which order

The instructions have one command for each schema file of a project, and no other line is such a
command (`applied_setupLines`).  The files that can be those of the accounts come first.  A model
can have one of these paths as well, and its file then goes before the accounts, wherever the model
stands among the others: the accounts come first and the models in order exactly if there is no such
model (`applies_schemas`).
-/

namespace Scaffold.Project

open Options

/-! ## The schema files of a project -/

/-- The schema file of a model. -/
def schemaPath (m : Model) : String := Slot.schemas.path m.routeName

/-- The schema file of the accounts. -/
def accountsPath (models : List Model) : String := Slot.schemas.path (accountSegment models)

section Emission

variable {o : Generation} {models : List Model} (hrelational : o.isRelational = true)

include hrelational

theorem filter_modelSlots (m : Model) :
    (modelSlots o m).filter (·.1 = .schemas) = [(.schemas, m.routeName)] := by
  rw [modelSlots, hrelational]
  cases o.includeTests <;> rfl

variable (hauth : o.authEnabled = true)

include hauth

/-- The schemas are those of the models and the one of the accounts. -/
theorem filter_slots : (slots o models).filter (·.1 = .schemas) =
    models.map (fun m => (.schemas, m.routeName)) ++ [(.schemas, accountSegment models)] := by
  have hmodels : (models.flatMap (modelSlots o)).filter (·.1 = .schemas) =
      models.map fun m => (.schemas, m.routeName) := by
    rw [List.filter_flatMap, List.map_eq_flatMap]
    exact congrArg (models.flatMap ·) (funext (filter_modelSlots hrelational))
  have hlogin : (loginSlots o models).filter (·.1 = .schemas) =
      [(.schemas, accountSegment models)] := by
    rw [loginSlots, if_pos hauth, if_pos hrelational]
    rfl
  have hshared : sharedSlots.filter (·.1 = .schemas) = [] := rfl
  rw [slots, List.filter_append, List.filter_append, hmodels, hlogin, hshared, List.append_nil]

/-- The schema files are those of the models, in order, and that of the accounts. -/
theorem filter_emittedPaths : (emittedPaths o models).filter isSchemaPath =
    models.map schemaPath ++ [accountsPath models] := by
  have hslots : ((slots o models).map slotPath).filter isSchemaPath =
      models.map schemaPath ++ [accountsPath models] := by
    have hsame : isSchemaPath ∘ slotPath = fun e => decide (e.1 = .schemas) :=
      funext fun e => isSchemaPath_path e.1 e.2
    rw [List.filter_map, hsame, filter_slots hrelational hauth, List.map_append, List.map_map]
    rfl
  have hroot : ["package.json", "tsconfig.json", ".env.example", "README.md"].filter isSchemaPath =
      [] := by decide +kernel
  have hentry : ["src/app.ts"].filter isSchemaPath = [] := by decide +kernel
  rw [emittedPaths, List.filter_append, List.filter_append, hslots, hroot, hentry, List.nil_append,
    List.append_nil]

end Emission

end Scaffold.Project

namespace Scaffold.Package

open Document Options Project Schema Text

/-! ## Their order -/

/-- The model has a segment that the accounts may have, too. -/
def HasAccountSegment (m : Model) : Prop := m.routeName = "user" ∨ m.routeName = "auth_user"

instance : DecidablePred HasAccountSegment := fun m =>
  inferInstanceAs (Decidable (m.routeName = "user" ∨ m.routeName = "auth_user"))

/-- The schema files with those first that can be those of the accounts. -/
def appliedPaths (models : List Model) : List String :=
  (models.filter (HasAccountSegment ·)).map schemaPath ++
    accountsPath models :: (models.filter (¬HasAccountSegment ·)).map schemaPath

theorem startsWith_eq_isPrefixOf (word cs : List Char) :
    startsWith word cs = word.isPrefixOf cs := by
  induction word generalizing cs with
  | nil => rfl
  | cons w word ih =>
    cases cs with
    | nil => rfl
    | cons c cs =>
      rw [startsWith, afterWord?, List.isPrefixOf, ← ih]
      by_cases hw : w = c <;> simp [hw, startsWith]

/-- A model takes the place of the accounts by its route. -/
theorem hasAccountSegment_iff (m : Model) : HasAccountSegment m ↔
    schemaPath m = "src/schemas/user.sql" ∨ schemaPath m = "src/schemas/auth_user.sql" := by
  have hpath (x : String) : schemaPath m = Slot.schemas.path x ↔ m.routeName = x :=
    ⟨fun h => (Slot.path_inj h).2, congrArg Slot.schemas.path⟩
  rw [HasAccountSegment, ← hpath, ← hpath]
  exact iff_of_eq (by rw [Slot.path_schemas "user", Slot.path_schemas "auth_user"]; rfl)

/-- What is applied is read off the paths of the schemas. -/
theorem schemaPaths_eq {paths : List String} {models : List Model}
    (h : paths.filter isSchemaPath = models.map schemaPath ++ [accountsPath models]) :
    schemaPaths paths = appliedPaths models := by
  have haccounts : accountsPath models = "src/schemas/user.sql" ∨
      accountsPath models = "src/schemas/auth_user.sql" := by
    rw [accountsPath, accountSegment]
    split <;> decide
  have hmodel (m : Model) : (decide (schemaPath m = "src/schemas/user.sql") ||
      decide (schemaPath m = "src/schemas/auth_user.sql")) = decide (HasAccountSegment m) := by
    simp only [hasAccountSegment_iff, Bool.decide_or]
  have hschemas : (paths.filter fun p => startsWith "src/schemas/".toList p.toList) =
      models.map schemaPath ++ [accountsPath models] := by
    rw [← h]
    exact List.filter_congr fun p _ => startsWith_eq_isPrefixOf _ _
  simp only [schemaPaths, hschemas, appliedPaths, List.filter_append, List.filter_map,
    Function.comp_def, hmodel]
  obtain h | h := haccounts <;> simp [h]

/-- Every schema is applied once. -/
theorem appliedPaths_perm (models : List Model) :
    (appliedPaths models).Perm (models.map schemaPath ++ [accountsPath models]) := by
  have hparts := (List.filter_append_perm (HasAccountSegment ·) models).map schemaPath
  rw [List.map_append] at hparts
  refine List.perm_middle.trans (.trans (List.Perm.cons _ ?_) (List.perm_append_singleton _ _).symm)
  simpa using hparts

/-- The accounts come first unless a model has their segment. -/
theorem appliedPaths_eq_iff {models : List Model} (h : (appliedPaths models).Nodup) :
    appliedPaths models = accountsPath models :: models.map schemaPath ↔
      ∀ m ∈ models, ¬HasAccountSegment m := by
  constructor
  · intro heq m hm hsegment
    rw [appliedPaths] at heq h
    cases hearly : models.filter (HasAccountSegment ·) with
    | nil => exact List.filter_eq_nil_iff.mp hearly m hm (decide_eq_true hsegment)
    | cons m' ms =>
      rw [hearly, List.map_cons, List.cons_append] at heq h
      rw [(List.cons.inj heq).1] at h
      exact (List.nodup_cons.mp h).1 (List.mem_append_right _ List.mem_cons_self)
  · intro hnone
    rw [appliedPaths, List.filter_eq_nil_iff.mpr (by simpa using hnone),
      List.filter_eq_self.mpr (by simpa using hnone)]
    rfl

/-! ## Commands -/

/-- What stands before the path in a command that applies a schema file. -/
def command? : Database → Option String
  | .postgresql => some "psql -d your_database_name -f "
  | .mysql => some "mysql -u root -p your_database_name < "
  | .mongodb => none

/-- The path in a line that is a command to apply a schema file. -/
def applied? (d : Database) (l : String) : Option String :=
  (command? d).bind fun word => (afterWord? word.toList l.toList).map String.ofList

theorem applied?_command {d : Database} {word : String} (h : command? d = some word)
    (path : String) : applied? d (word ++ path) = some path := by
  rw [applied?, h, Option.bind_some, String.toList_append, afterWord?_self_append,
    Option.map_some, String.ofList_toList]

/-- The line begins with neither word of a command. -/
def IsQuiet (l : String) : Prop := ∀ c ∈ l.toList.head?, c ≠ 'p' ∧ c ≠ 'm'

instance : DecidablePred IsQuiet := fun l =>
  inferInstanceAs (Decidable (∀ c ∈ l.toList.head?, c ≠ 'p' ∧ c ≠ 'm'))

theorem isQuiet_append {s : String} (h : IsQuiet s) (hs : s.toList ≠ []) (t : String) :
    IsQuiet (s ++ t) := by
  rw [IsQuiet, String.toList_append, List.head?_append_of_ne_nil _ hs]
  exact h

theorem head?_of_command? {d : Database} {word : String} (h : command? d = some word) :
    ∃ w rest, word.toList = w :: rest ∧ (w = 'p' ∨ w = 'm') := by
  cases d <;> cases h
  · exact ⟨'p', _, rfl, .inl rfl⟩
  · exact ⟨'m', _, rfl, .inr rfl⟩

/-- A quiet line applies nothing. -/
theorem applied?_of_isQuiet {l : String} (h : IsQuiet l) (d : Database) : applied? d l = none := by
  rw [applied?]
  cases hcommand : command? d with
  | none => rfl
  | some word =>
    obtain ⟨w, rest, hword, hw⟩ := head?_of_command? hcommand
    rw [Option.bind_some, hword, Option.map_eq_none_iff]
    cases hl : l.toList with
    | nil => rfl
    | cons c cs =>
      rw [IsQuiet, hl] at h
      obtain ⟨hp, hm⟩ := h c rfl
      rw [afterWord?, if_neg]
      rintro rfl
      exact hw.elim hp hm

theorem filterMap_of_isQuiet {ls : List String} (h : ∀ l ∈ ls, IsQuiet l) (d : Database) :
    ls.filterMap (applied? d) = [] :=
  List.filterMap_eq_nil_iff.mpr fun l hl => applied?_of_isQuiet (h l hl) d

/-- The commands for a database apply the schema files, in their order. -/
theorem applied_databaseLines (d : Database) (paths : List String) :
    (databaseLines d paths).filterMap (applied? d) =
      if d.isRelational then schemaPaths paths else [] := by
  have hcommands {word : String} (h : command? d = some word) :
      ((schemaPaths paths).map (word ++ ·)).filterMap (applied? d) = schemaPaths paths := by
    have hsome : applied? d ∘ (word ++ ·) = some := funext fun path => applied?_command h path
    rw [List.filterMap_map, hsome, List.filterMap_some]
  have hfixed {ls : List String} (h : ∀ l ∈ ls, applied? d l = none) :
      ls.filterMap (applied? d) = [] :=
    List.filterMap_eq_nil_iff.mpr h
  cases d with
  | postgresql =>
    rw [databaseLines, List.filterMap_append, List.filterMap_append, hcommands rfl,
      hfixed (by decide +kernel), hfixed (by decide +kernel), List.nil_append, List.append_nil]
    rfl
  | mysql =>
    rw [databaseLines, List.filterMap_append, List.filterMap_append, hcommands rfl,
      hfixed (by decide +kernel), hfixed (by decide +kernel), List.nil_append, List.append_nil]
    rfl
  | mongodb =>
    rw [databaseLines]
    exact hfixed (by decide +kernel)

/-! ## The lines of the instructions -/

/-- A line that holds no name, and is no command. -/
structure IsFixed (l : String) : Prop where
  quiet : IsQuiet l
  oneLine : OneLine l

/-- A line that has nothing to do with the schema files. -/
inductive IsAside (name : String) (models : List Model) : String → Prop
  | fixed {l : String} (h : IsFixed l) : IsAside name models l
  | title : IsAside name models ("# " ++ name ++ " - Setup Instructions")
  | model {m : Model} (hm : m ∈ models) (authEnabled : Bool) :
    IsAside name models (modelLine authEnabled m)

/-- Lines that have nothing to do with the schema files. -/
def Aside (name : String) (models : List Model) (ls : List String) : Prop :=
  ∀ l ∈ ls, IsAside name models l

/-- The check of `IsFixed` on the wording of a line. -/
def isFixedWording : Wording Unit → Bool
  | .known [] .nil => true
  | .known (c :: cs) x => c != 'p' && c != 'm' && (Wording.known (c :: cs) x).isOneLine
  | _ => false

/-- A line that is spelled by a fixed wording is a fixed one. -/
theorem isFixed_of_spells {B : List String → Prop} {x : Wording Unit} {l : String}
    (hx : isFixedWording x = true) (h : Spells (oneLiners B) x l.toList) : IsFixed l := by
  unfold isFixedWording at hx
  split at hx
  · refine ⟨?_, by simpa only [String.ofList_toList] using h.oneLine rfl⟩
    rw [IsQuiet]
    generalize l.toList = cs at h
    cases h with
    | known _ h =>
      cases h
      exact fun c hc => absurd hc (by simp)
  · obtain ⟨hword, hline⟩ := Bool.and_eq_true_iff.mp hx
    refine ⟨?_, by simpa only [String.ofList_toList] using h.oneLine hline⟩
    rw [IsQuiet]
    generalize l.toList = cs at h
    cases h with
    | known _ _ => simpa using hword
  · cases hx

section Layout

variable (name : String) (models : List Model)

/-- Lines that begin as fixed lines do are aside, beside blocks of such lines. -/
theorem aside_of_layout {ls : List String} {x : Layout Unit}
    [h : LaidOut (oneLiners (Aside name models)) ls x] (hx : x.all isFixedWording = true) :
    Aside name models ls :=
  h.forall_mem (fun _ h => h) (fun _ _ hw hl => .fixed (isFixed_of_spells hw hl)) hx

/-- The first lines are beside the steps. -/
theorem aside_introLines (d : Database) : Aside name models (introLines name d) := by
  have hlabel : OneLine (Catalog.databaseLabel d) := by
    cases d <;> decide
  have hurl : OneLine (Catalog.databaseUrl d) := by
    cases d <;> decide
  have hlabel := hlabel.fills
  have hurl := hurl.fills
  dsimp only [introLines]
  exact List.forall_mem_cons.mpr ⟨.title, aside_of_layout name models (by decide)⟩

theorem aside_variableLines (s : Strategy) : Aside name models (variableLines s) := by
  cases s
  all_goals
    dsimp only [variableLines]
    exact aside_of_layout name models (by decide)

theorem aside_startLines : Aside name models startLines := by
  dsimp only [startLines]
  exact aside_of_layout name models (by decide)

theorem aside_apiLines (authEnabled : Bool) : Aside name models (apiLines authEnabled models) := by
  have hmodels : FillsBlock (oneLiners (Aside name models)) (models.map (modelLine authEnabled)) :=
    ⟨List.forall_mem_map.mpr fun m hm => .model hm authEnabled⟩
  dsimp only [apiLines]
  exact aside_of_layout name models (by decide)

theorem aside_closingLines (hasTests : Bool) : Aside name models (closingLines hasTests) := by
  dsimp only [closingLines]
  exact aside_of_layout name models (by decide)

end Layout

/-- The instructions are the lines for the database between lines that have nothing to do with the
schema files. -/
theorem exists_setupLines_eq (e : Export) (p : Project) : ∃ before after,
    setupLines e p = before ++ databaseLines p.options.database.value p.paths ++ after ∧
      Aside p.name p.models (before ++ after) := by
  have hheading : Aside p.name p.models ["", "### 3. Database Setup", ""] :=
    aside_of_layout _ _ (by decide)
  refine ⟨introLines p.name p.options.database.value ++
      variableLines p.options.authentication.value ++ ["", "### 3. Database Setup", ""],
    startLines ++ apiLines p.options.authEnabled p.models ++
      closingLines (p.options.includeTests && e.includeTests),
    by simp only [setupLines, List.append_assoc], ?_⟩
  simp only [Aside, List.forall_mem_append]
  exact ⟨⟨⟨aside_introLines _ _ _, aside_variableLines _ _ _⟩, hheading⟩,
    ⟨aside_startLines _ _, aside_apiLines _ _ _⟩, aside_closingLines _ _ _⟩

/-- A line beside the steps applies nothing. -/
theorem IsAside.isQuiet {name l : String} {models : List Model} (h : IsAside name models l) :
    IsQuiet l := by
  cases h with
  | fixed h => exact h.quiet
  | title =>
    rw [String.append_assoc]
    exact isQuiet_append (by decide) (by decide) _
  | model =>
    -- an equation for so long a sum of texts takes too long to make
    delta modelLine
    simp only [String.append_assoc]
    exact isQuiet_append (by decide) (by decide) _

theorem oneLine_counted (n : Nat) {noun : String} (h : OneLine noun) :
    OneLine (counted n noun) := by
  have hnumber := (Number.oneLine_toString_nat n).fills
  have hnoun := h.fills
  rw [counted]
  exact oneLine_of_wording (by decide)

theorem oneLine_routeName {m : Model} (h : OneLine m.name) : OneLine m.routeName :=
  notMem_lower (by decide) h

theorem oneLine_modelLine (authEnabled : Bool) {m : Model} (h : OneLine m.name) :
    OneLine (modelLine authEnabled m) := by
  have hname := h.fills
  have hroute := (oneLine_routeName h).fills
  have hcounted (n : Nat) {noun : String} (hnoun : OneLine noun) := (oneLine_counted n hnoun).fills
  have hfields := hcounted m.fields.length (by decide : OneLine "field")
  have hrelationships := hcounted m.relationships.length (by decide : OneLine "relationship")
  delta modelLine
  exact oneLine_of_wording (by decide)

/-- Such lines are single lines if the names are. -/
theorem IsAside.oneLine {name l : String} {models : List Model} (h : IsAside name models l)
    (hname : OneLine name) (hmodels : ∀ m ∈ models, OneLine m.name) : OneLine l := by
  cases h with
  | fixed h => exact h.oneLine
  | title => exact (OneLine.append (by decide) hname).append (by decide)
  | model hm authEnabled => exact oneLine_modelLine authEnabled (hmodels _ hm)

/-- The instructions apply the schema files, in their order, and no other. -/
theorem applied_setupLines (e : Export) (p : Project) :
    (setupLines e p).filterMap (applied? p.options.database.value) =
      if p.options.isRelational then schemaPaths p.paths else [] := by
  obtain ⟨before, after, hlines, haside⟩ := exists_setupLines_eq e p
  obtain ⟨hbefore, hafter⟩ := List.forall_mem_append.mp haside
  rw [hlines, List.filterMap_append, List.filterMap_append, applied_databaseLines,
    filterMap_of_isQuiet fun l hl => (hbefore l hl).isQuiet,
    filterMap_of_isQuiet fun l hl => (hafter l hl).isQuiet, List.nil_append, List.append_nil]
  rfl

/-- So are the lines about the database if the paths are. -/
theorem oneLine_databaseLines (d : Database) {paths : List String}
    (h : ∀ path ∈ schemaPaths paths, OneLine path) : ∀ l ∈ databaseLines d paths, OneLine l := by
  have hcommands {word : String} (hword : OneLine word) :
      FillsBlock (oneLiners (∀ l ∈ ·, OneLine l)) ((schemaPaths paths).map (word ++ ·)) :=
    ⟨List.forall_mem_map.mpr fun path hpath => hword.append (h path hpath)⟩
  have hpsql := hcommands (by decide : OneLine "psql -d your_database_name -f ")
  have hmysql := hcommands (by decide : OneLine "mysql -u root -p your_database_name < ")
  cases d
  all_goals
    dsimp only [databaseLines]
    exact oneLine_of_layout (by decide)

/-- The paths are if the names of the models are. -/
theorem oneLine_appliedPaths {models : List Model} (h : ∀ m ∈ models, OneLine m.name) :
    ∀ path ∈ appliedPaths models, OneLine path := by
  have hpath {x : String} (hx : OneLine x) : OneLine (Slot.schemas.path x) := by
    rw [Slot.path_schemas]
    exact (OneLine.append (by decide) hx).append (by decide)
  intro path hmem
  obtain hmem | hmem := List.mem_append.mp ((appliedPaths_perm models).mem_iff.mp hmem)
  · obtain ⟨m, hm, rfl⟩ := List.mem_map.mp hmem
    exact hpath (oneLine_routeName (h m hm))
  · have hsegment : OneLine (accountSegment models) := by
      rw [accountSegment]
      split <;> decide
    rw [List.mem_singleton.mp hmem]
    exact hpath hsegment

/-- The lines of a text. -/
def linesOf (s : String) : List String := (lines s.toList).map String.ofList

section Made

variable {r : Template.Registry} {o : Generation} {models : List Model} {name : Value}
  {moment : Nat} {p : Project}

theorem models_of_isMade (h : IsMade r o models name moment p) : p.models = models := by
  obtain ⟨q, hq, rfl | ⟨fo, rfl⟩⟩ := h
  · exact (parts_of_buildNamed hq).1
  · exact (parts_of_buildNamed hq).1

/-- The instructions are part of the package. -/
theorem exists_setup_mem_entries (h : IsMade r o models name moment p) (e : Export) :
    ∃ k, pack e p = .ok k ∧ ⟨"SETUP.md", paragraph (setupLines e p)⟩ ∈ entries k := by
  obtain ⟨k, hk, -⟩ := exists_packs (isPackable_of_isMade h) e
  refine ⟨k, pack_eq_ok_iff.mpr ⟨deepManifest?_of_isMade h, hk⟩, ?_⟩
  rw [← instructions, ← (parts_of_build hk).2]
  exact List.mem_cons_of_mem _ List.mem_cons_self

variable (hrelational : o.isRelational = true) (hauth : o.authEnabled = true)
  (h : IsMade r o models name moment p)

include hrelational hauth h

theorem filter_paths_of_isMade :
    (p.files.map (·.path)).filter isSchemaPath =
      models.map schemaPath ++ [accountsPath models] := by
  rw [(isPackable_of_isMade h).paths_eq, filter_emittedPaths hrelational hauth]

theorem applied_of_isMade (e : Export) :
    (setupLines e p).filterMap (applied? o.database.value) = appliedPaths models := by
  have happlied := applied_setupLines e p
  rwa [options_of_isMade h, if_pos hrelational, Project.paths,
    schemaPaths_eq (filter_paths_of_isMade hrelational hauth h)] at happlied

/-- The lines of the instructions are those that they were put together from if no name goes over
several. -/
theorem lines_of_isMade (e : Export) (hname : OneLine p.name)
    (hmodels : ∀ m ∈ models, OneLine m.name) :
    linesOf (paragraph (setupLines e p)) = setupLines e p ++ [""] := by
  have hone : ∀ l ∈ setupLines e p, OneLine l := by
    obtain ⟨before, after, hlines, haside⟩ := exists_setupLines_eq e p
    rw [models_of_isMade h] at haside
    obtain ⟨hbefore, hafter⟩ := List.forall_mem_append.mp haside
    rw [hlines, List.forall_mem_append, List.forall_mem_append]
    refine ⟨⟨fun l hl => (hbefore l hl).oneLine hname hmodels, ?_⟩,
      fun l hl => (hafter l hl).oneLine hname hmodels⟩
    refine oneLine_databaseLines _ ?_
    rw [Project.paths, schemaPaths_eq (filter_paths_of_isMade hrelational hauth h)]
    exact oneLine_appliedPaths hmodels
  rw [linesOf, lines_paragraph hone, List.map_append, List.map_map]
  simp

/-- **Which schema files the instructions apply, and in which order**: each of them once, those that
can be the accounts' own first.  Of these the accounts' own comes last, so the accounts come before
all models, and these in order, exactly if no model has a segment that the accounts may have. -/
theorem applies_schemas (e : Export) :
    (∃ k, pack e p = .ok k ∧ ⟨"SETUP.md", paragraph (setupLines e p)⟩ ∈ entries k) ∧
      (setupLines e p).filterMap (applied? o.database.value) = appliedPaths models ∧
      (OneLine p.name → (∀ m ∈ models, OneLine m.name) →
        (linesOf (paragraph (setupLines e p))).filterMap (applied? o.database.value) =
          appliedPaths models) ∧
      (appliedPaths models).Nodup ∧
      (appliedPaths models).Perm ((p.files.map (·.path)).filter isSchemaPath) ∧
      (appliedPaths models = accountsPath models :: models.map schemaPath ↔
        ∀ m ∈ models, ¬HasAccountSegment m) := by
  have hperm : (appliedPaths models).Perm ((p.files.map (·.path)).filter isSchemaPath) := by
    rw [filter_paths_of_isMade hrelational hauth h]
    exact appliedPaths_perm models
  have hnodup := hperm.nodup_iff.mpr ((isPackable_of_isMade h).nodup.filter _)
  have happlied := applied_of_isMade hrelational hauth h e
  refine ⟨exists_setup_mem_entries h e, happlied, fun hname hmodels => ?_, hnodup, hperm,
    appliedPaths_eq_iff hnodup⟩
  have hempty : [""].filterMap (applied? o.database.value) = [] :=
    filterMap_of_isQuiet (by decide) _
  rw [lines_of_isMade hrelational hauth h e hname hmodels, List.filterMap_append, happlied, hempty,
    List.append_nil]

end Made

/-- Two models and the schemas that the instructions of their project apply. -/
theorem applies_schemas_note :
    ∃ p, IsMade Template.Library.registry .default [named "Post", named "Note"] .null 0 p ∧
      (∃ k, pack .default p = .ok k ∧
        ⟨"SETUP.md", paragraph (setupLines .default p)⟩ ∈ entries k) ∧
      (setupLines .default p).filterMap (applied? .postgresql) =
        ["src/schemas/user.sql", "src/schemas/post.sql", "src/schemas/note.sql"] := by
  have hclashes : ¬Clashes .default [named "Post", named "Note"] := by unfold Clashes; decide
  obtain ⟨p, hp⟩ := exists_isMade rfl (by decide) (by decide) hclashes
  obtain ⟨hpacked, happlied, -, -, -, hfirst⟩ := applies_schemas rfl rfl hp .default
  exact ⟨p, hp, hpacked, happlied.trans ((hfirst.mpr (by decide)).trans (by decide))⟩

/-- The table of a model is applied before that of the accounts, and before that of the model in
front of it. -/
theorem applied_user : ∃ p,
    IsMade Template.Library.registry .default [named "Post", named "User"] .null 0 p ∧
      (setupLines .default p).filterMap (applied? .postgresql) =
        ["src/schemas/user.sql", "src/schemas/auth_user.sql", "src/schemas/post.sql"] := by
  have hclashes : ¬Clashes .default [named "Post", named "User"] := by unfold Clashes; decide
  obtain ⟨p, hp⟩ := exists_isMade rfl (by decide) (by decide) hclashes
  exact ⟨p, hp, (applied_of_isMade rfl rfl hp .default).trans (by decide)⟩

end Scaffold.Package
