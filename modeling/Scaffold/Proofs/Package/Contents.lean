import Scaffold.Package.Archive.Basic
import Scaffold.Proofs.Package.Manifest
import Scaffold.Proofs.Project.Collision
import Scaffold.Proofs.Project.Paths
import Scaffold.Proofs.Text.OneLine
import Scaffold.Proofs.Text.Trim

/-!
# Proofs/Package/Contents — what a package of a generated project holds

A name in the header of an archive ends before its first zero character, so an entry is given back
under its own name if that name has none (`readName_eq`).  Lower case makes none
(`notMem_lower`), so the paths of a project have none unless the name of a model has one
(`isReadable_of_mem_emittedPaths`).

A project that is made from models can always be packed (`isPackable_of_isMade`): it has a name, its
paths differ, and its manifest can be read back, formatted or not.  Packing adds files of its own,
all with names that no generated file has (`disjoint_ownNames`), so that the package and its
archive repeat no path.

`packs_of_isMade` says what the package and its archive hold.  The names in a written archive need
a condition on the models: a header ends a name at its first zero character, and models whose names
differ behind one share an entry (`exists_cutShort`).
-/

namespace Scaffold.Text

/-! ## Lower case -/

/-- The character stands before the letters. -/
def PrecedesLetters (x : Char) : Prop := x.toNat < 'A'.toNat

instance (x : Char) : Decidable (PrecedesLetters x) :=
  inferInstanceAs (Decidable (x.toNat < 'A'.toNat))

section LowerCase

variable {x : Char} (hx : PrecedesLetters x)

include hx

theorem ofNat_ne_of_le {n : Nat} (hn : 'A'.toNat ≤ n) (hvalid : n.isValidChar) :
    Char.ofNat n ≠ x := by
  rintro rfl
  rw [PrecedesLetters, Char.ofNat, dif_pos hvalid] at hx
  exact absurd hn (Nat.not_le.mpr hx)

theorem plainLower_ne {c : Char} (h : c ≠ x) : plainLower c ≠ x := by
  unfold plainLower isUpperLetter
  split
  · rename_i hc
    rw [Bool.and_eq_true, decide_eq_true_eq, decide_eq_true_eq] at hc
    have hlow : 'A'.toNat ≤ c.toNat := hc.1
    have hhigh : c.toNat ≤ 'Z'.toNat := hc.2
    have hbound : 'Z'.toNat = 90 := rfl
    exact ofNat_ne_of_le hx (by omega) (.inl (by omega))
  · exact h

omit hx in
/-- A run of the table leads to characters, none of which stands before the letters. -/
theorem bounds_of_mem_lowerRuns : ∀ r ∈ lowerRuns,
    (('A'.toNat : Int) ≤ (r.first : Int) + r.shift ∧ (r.last : Int) + r.shift < 0xd800) ∨
      (0xdfff < (r.first : Int) + r.shift ∧ (r.last : Int) + r.shift < 0x110000) := by
  decide +kernel

/-- No run makes a letter that was not there. -/
theorem apply_lowerRuns_ne {c : Char} (h : c ≠ x) : CaseRun.apply lowerRuns c ≠ x := by
  have hletter : 'A'.toNat = 65 := rfl
  rw [CaseRun.apply]
  rcases shiftOf_eq_zero_or lowerRuns c.toNat with hzero | ⟨r, hr, hfirst, hlast, hshift⟩
  · rw [hzero, Int.add_zero, Int.toNat_natCast, Char.ofNat_toNat]
    exact h
  · rw [hshift]
    rcases bounds_of_mem_lowerRuns r hr with ⟨hlow, hhigh⟩ | ⟨hlow, hhigh⟩
    · exact ofNat_ne_of_le hx (by omega) (.inl (by omega))
    · exact ofNat_ne_of_le hx (by omega) (.inr ⟨by omega, by omega⟩)

theorem notMem_lowerChar {c : Char} (h : c ≠ x) : x ∉ lowerChar c := by
  rw [lowerChar]
  split
  · exact fun hmem => plainLower_ne hx h (List.mem_singleton.1 hmem).symm
  · split
    · rename_i codes hcodes
      have htable : ∀ e ∈ lowerExpansions, ∀ c ∈ e.2.map Char.ofNat, ¬PrecedesLetters c := by
        decide
      obtain ⟨before, after, hentry, -⟩ := List.lookup_eq_some_iff.1 hcodes
      exact fun hmem => htable (c.toNat, codes)
        (hentry ▸ List.mem_append_right _ List.mem_cons_self) x hmem hx
    · exact fun hmem => apply_lowerRuns_ne hx h (List.mem_singleton.1 hmem).symm

/-- Lower case text has no such letter if the text has none. -/
theorem notMem_lowerFrom (before : List Char) {cs : List Char} (h : x ∉ cs) :
    x ∉ lowerFrom before cs := by
  induction cs generalizing before with
  | nil => exact List.not_mem_nil
  | cons c cs ih =>
    obtain ⟨hc, hcs⟩ := not_or.1 (mt List.mem_cons.2 h)
    rw [lowerFrom, List.mem_append, not_or]
    refine ⟨?_, ih (c :: before) hcs⟩
    split
    · have hsigma : ∀ c ∈ ['ς', 'σ'], ¬PrecedesLetters c := by decide
      intro hmem
      refine hsigma x ?_ hx
      split at hmem <;> simp [List.mem_singleton.1 hmem]
    · exact notMem_lowerChar hx (Ne.symm hc)

/-- **Lower case makes no character that stands before the letters.** -/
theorem notMem_lower {s : String} (h : x ∉ s.toList) : x ∉ (lower s).toList := by
  rw [lower, String.toList_ofList]
  exact notMem_lowerFrom hx [] h

end LowerCase

end Scaffold.Text

namespace Scaffold.Package

open Options Project

/-! ## Names that are given back -/

/-- No zero character, and no slash at the end. -/
structure IsReadable (name : String) : Prop where
  zero_notMem : '\x00' ∉ name.toList
  getLast_ne : name.toList.getLast? ≠ some '/'

instance : DecidablePred IsReadable := fun name =>
  decidable_of_iff ('\x00' ∉ name.toList ∧ name.toList.getLast? ≠ some '/')
    ⟨fun h => ⟨h.1, h.2⟩, fun h => ⟨h.1, h.2⟩⟩

/-- A readable name is given back by either format. -/
theorem readName_eq {name : String} (h : IsReadable name) (format : ArchiveFormat) :
    readName format name = name := by
  have htake : name.toList.takeWhile (· ≠ '\x00') = name.toList := by
    refine List.takeWhile_eq_self_iff.2 fun c hc => decide_eq_true ?_
    rintro rfl
    exact h.zero_notMem hc
  have hdrop : Text.dropTail (· == '/') name.toList = name.toList := by
    refine Text.dropTail_of_getLast fun c hc => beq_eq_false_iff_ne.2 ?_
    rintro rfl
    exact h.getLast_ne hc
  rcases format with _ | _
  · rw [readName, htake, String.ofList_toList]
  · rw [readName]
    split
    · rw [htake, String.ofList_toList]
    · rw [hdrop, String.ofList_toList]

/-- The path of a slot is readable if the stem has no zero character. -/
theorem isReadable_path (s : Slot) {stem : String} (h : '\x00' ∉ stem.toList) :
    IsReadable (s.path stem) where
  zero_notMem := by
    have hfolder : ∀ s : Slot, '\x00' ∉ s.folder.toList := by
      rintro (_ | _ | _ | _ | _ | _ | _ | _ | _ | _) <;> decide
    have hending : ∀ s : Slot, '\x00' ∉ s.ending.toList := by
      rintro (_ | _ | _ | _ | _ | _ | _ | _ | _ | _) <;> decide
    rw [Slot.toList_path, List.mem_append, List.mem_append, List.mem_cons, List.mem_append]
    rintro (hroot | hmem | hslash | hmem | hmem)
    · exact absurd hroot (by decide)
    · exact hfolder s hmem
    · cases hslash
    · exact h hmem
    · exact hending s hmem
  getLast_ne := by
    have hending : ∀ s : Slot, ∃ c, s.ending.toList.getLast? = some c ∧ c ≠ '/' := by
      rintro (_ | _ | _ | _ | _ | _ | _ | _ | _ | _) <;> exact ⟨_, rfl, by decide⟩
    obtain ⟨c, hlast, hne⟩ := hending s
    rw [Slot.toList_path, ← List.cons_append, ← List.append_assoc, ← List.append_assoc,
      List.getLast?_append, hlast]
    simpa using hne

/-- The stems of the files that do not belong to a model. -/
def ownStems : List String :=
  ["AuthUser", "User", "auth_user", "user", "Auth", "auth", "authorize", "connection", "cors",
    "logging", "validation"]

/-- A stem is the name or the segment of a model, or one of those that every project may have. -/
theorem stem_of_mem_slots {o : Generation} {models : List Model} {e : Slot × String}
    (h : e ∈ slots o models) :
    (∃ m ∈ models, e.2 = m.name ∨ e.2 = m.routeName) ∨ e.2 ∈ ownStems := by
  rw [slots, List.mem_append, List.mem_append] at h
  rcases h with (h | h) | h
  · obtain ⟨m, hm, h⟩ := List.mem_flatMap.1 h
    obtain ⟨-, hstem⟩ := exists_of_mem_modelSlots h
    have hstemIn : ∀ s, stemIn m s = m.name ∨ stemIn m s = m.routeName := by
      rintro (_ | _ | _ | _ | _ | _ | _ | _ | _ | _) <;> first | exact .inl rfl | exact .inr rfl
    rw [hstem]
    exact .inl ⟨m, hm, hstemIn e.1⟩
  · have hnames : accountName models ∈ ownStems ∧ accountSegment models ∈ ownStems := by
      rw [accountName, accountSegment]
      split <;> decide
    rw [loginSlots] at h
    split at h
    · rw [List.mem_append] at h
      rcases h with h | h
      · simp only [List.mem_cons, List.not_mem_nil, or_false] at h
        rcases h with rfl | rfl | rfl | rfl | rfl | rfl | rfl | rfl <;>
          first | exact .inr hnames.1 | exact .inr (by decide)
      · split at h
        · rw [List.mem_singleton.1 h]
          exact .inr hnames.2
        · exact absurd h List.not_mem_nil
    · exact absurd h List.not_mem_nil
  · have hshared : ∀ e ∈ sharedSlots, e.2 ∈ ownStems := by decide
    exact .inr (hshared e h)

/-- **The paths of a project are given back** if no model has a name with a zero character. -/
theorem isReadable_of_mem_emittedPaths {o : Generation} {models : List Model}
    (h : ∀ m ∈ models, '\x00' ∉ m.name.toList) {path : String} (hpath : path ∈ emittedPaths o models) :
    IsReadable path := by
  rw [emittedPaths, List.mem_append, List.mem_append] at hpath
  rcases hpath with (hroot | hslot) | hentry
  · have hreadable : ∀ x ∈ ["package.json", "tsconfig.json", ".env.example", "README.md"],
        IsReadable x := by decide
    exact hreadable path hroot
  · obtain ⟨e, he, rfl⟩ := List.mem_map.1 hslot
    refine isReadable_path e.1 ?_
    rcases stem_of_mem_slots he with ⟨m, hm, hname | hroute⟩ | hown
    · rw [hname]
      exact h m hm
    · rw [hroute]
      exact Text.notMem_lower (by decide) (h m hm)
    · have hown' : ∀ stem ∈ ownStems, '\x00' ∉ stem.toList := by decide
      exact hown' e.2 hown
  · rw [List.mem_singleton.1 hentry]
    decide

end Scaffold.Package

namespace Scaffold.Project

open Artifact Document Options Template

/-! ## Projects that are packed -/

/-- A project that is made from models, with its files formatted or not. -/
def IsMade (r : Registry) (o : Generation) (models : List Model) (name : Value) (moment : Nat)
    (p : Project) : Prop :=
  ∃ q, buildNamed r o models name moment = .ok q ∧ (p = q ∨ ∃ fo, p = formatted fo q)

variable {r : Registry} {o : Generation} {models : List Model} {name : Value} {moment : Nat}
  {p : Project}

/-- A name that is no text, or an empty one, leaves the project without a name. -/
theorem exists_build_of_buildNamed (h : buildNamed r o models name moment = .ok p) :
    ∃ n, n ≠ some "" ∧ build r o models n moment = .ok p := by
  unfold buildNamed at h
  split at h
  · exact ⟨none, nofun, h⟩
  · rename_i htruthy
    split at h
    · rename_i s
      refine ⟨some s, ?_, h⟩
      rintro ⟨⟩
      exact htruthy rfl
    · cases h
    · obtain ⟨q, hq, h⟩ := Except.bind_eq_ok_iff.1 h
      split at h
      · cases h
        exact ⟨none, nofun, hq⟩
      · cases h

/-- What packing relies on in a project that is made. -/
structure IsPackable (o : Generation) (models : List Model) (p : Project) : Prop where
  name_ne : p.name ≠ ""
  paths_eq : p.files.map (·.path) = emittedPaths o models
  nodup : (p.files.map (·.path)).Nodup
  manifest : ∃ f, p.file? "package.json" = some f ∧
    ∃ packageName, Json.parse? f.content = some (manifest p.options packageName)

/-- A project that is built has a name, unless it was given the empty one. -/
theorem name_ne_of_build {n : Option String} (hn : n ≠ some "")
    (h : build r o models n moment = .ok p) : p.name ≠ "" := by
  obtain ⟨a, fs, gs, -, -, -, -, rfl⟩ := exists_of_build_eq_ok h
  rcases n with _ | n
  · have hname : (assembled o models none moment a (allFiles o none models fs gs)).name =
        s!"generated-api-{moment}" := rfl
    rw [hname]
    simp
  · exact fun h => hn (congrArg some h)

/-- The manifest is the first file of a project. -/
theorem file?_manifest_of_build {n : Option String} (h : build r o models n moment = .ok p) :
    p.file? "package.json" =
      some (.config "package.json" "json" (packageJson p.options (n.getD "generated-api"))) := by
  obtain ⟨a, fs, gs, -, -, -, -, rfl⟩ := exists_of_build_eq_ok h
  rfl

theorem file?_formatted (fo : Format.Options) (p : Project) (path : String) :
    (formatted fo p).file? path =
      (p.file? path).map fun f => { f with content := Format.formatText fo f.language f.content } := by
  rw [file?, file?, formatted, List.find?_map]
  rfl

/-- What was built can be packed. -/
theorem isPackable_of_build {n : Option String} (hn : n ≠ some "")
    (h : build r o models n moment = .ok p) : IsPackable o models p := by
  refine ⟨name_ne_of_build hn h, ?_, nodup_paths_of_build h, _, file?_manifest_of_build h, _,
    parse?_documentText (legible_manifest p.options _)⟩
  obtain ⟨a, fs, gs, hmodels, -, hlogin, -, rfl⟩ := exists_of_build_eq_ok h
  exact paths_eq_emittedPaths hmodels hlogin _

theorem paths_formatted (fo : Format.Options) (p : Project) :
    (formatted fo p).files.map (·.path) = p.files.map (·.path) := by
  rw [formatted, List.map_map]
  rfl

/-- Formatting changes nothing that packing relies on. -/
theorem isPackable_formatted (fo : Format.Options) {n : Option String} (hn : n ≠ some "")
    (h : build r o models n moment = .ok p) : IsPackable o models (formatted fo p) where
  name_ne := by
    have hname : (formatted fo p).name = p.name := rfl
    rw [hname]
    exact name_ne_of_build hn h
  paths_eq := (paths_formatted fo p).trans (isPackable_of_build hn h).paths_eq
  nodup := by
    rw [paths_formatted]
    exact nodup_paths_of_build h
  manifest := by
    have hfile : (formatted fo p).file? "package.json" = some (.config "package.json" "json"
        (Format.formatText fo (some "json")
          (documentText (manifest p.options (n.getD "generated-api"))))) := by
      rw [file?_formatted, file?_manifest_of_build h, Option.map_some, packageJson]
      simp only [File.config]
    refine ⟨_, hfile, n.getD "generated-api", ?_⟩
    -- the content is taken out first: comparing it as it stands unfolds the formatter
    simp only [File.config]
    exact parse?_formatText fo (legible_manifest p.options _)

/-- So can what was built and formatted. -/
theorem isPackable_of_isMade (h : IsMade r o models name moment p) : IsPackable o models p := by
  obtain ⟨q, hq, rfl | ⟨fo, rfl⟩⟩ := h
  · obtain ⟨n, hn, hbuild⟩ := exists_build_of_buildNamed hq
    exact isPackable_of_build hn hbuild
  · obtain ⟨n, hn, hbuild⟩ := exists_build_of_buildNamed hq
    exact isPackable_formatted fo hn hbuild

end Scaffold.Project

namespace Scaffold.Package

open Artifact Document Options Project Schema

/-! ## The names that packing adds -/

/-- The entries that every archive has, and after them the files that tiers add. -/
def ownNames : List String :=
  ["project.json", "SETUP.md", ".gitignore", "Dockerfile", "docker-compose.yml",
    ".github/workflows/ci.yml", ".eslintrc.js", ".prettierrc", "k8s/deployment.yml",
    "helm/Chart.yaml", "monitoring/prometheus.yml"]

/-- Packing adds no file with a path of the project. -/
theorem disjoint_ownNames (o : Generation) (models : List Model) :
    ownNames.Disjoint (emittedPaths o models) := by
  intro x hown hemitted
  have hroot : ∀ x ∈ ownNames, x ∉ ["package.json", "tsconfig.json", ".env.example", "README.md"] ∧
      x ≠ "src/app.ts" ∧ x.toList.head? ≠ some 's' := by decide
  obtain ⟨hfirst, hentry, hhead⟩ := hroot x hown
  rw [emittedPaths, List.mem_append, List.mem_append] at hemitted
  rcases hemitted with (h | h) | h
  · exact hfirst h
  · obtain ⟨e, -, rfl⟩ := List.mem_map.1 h
    rw [slotPath, Slot.toList_path] at hhead
    exact hhead rfl
  · exact hentry (List.mem_singleton.1 h)

/-- The paths of a tier come from the names, in order. -/
theorem paths_tierFiles (p : Project) (t : Tier) :
    (tierFiles p t).map (·.path) <+: ownNames.drop 2 := by
  cases t
  · exact ⟨_, rfl⟩
  · exact ⟨_, rfl⟩
  · exact ⟨[], rfl⟩

/-! ## Files -/

/-- The files without those of a kind. -/
def without (kind : FileKind) (fs : List File) : List File := fs.filter (·.kind ≠ kind)

/-- The files of a project that an export asks for. -/
def askedFor (e : Export) (fs : List File) : List File :=
  let fs := if e.includeTests then fs else without .test fs
  if e.includeDocumentation then fs else without .documentation fs

/-- The files that are exported are those that were asked for. -/
theorem filter_isExported (e : Export) (fs : List File) :
    fs.filter (isExported e) = askedFor e fs := by
  have hexported : isExported e = fun f => (e.includeTests || decide (f.kind ≠ .test)) &&
      (e.includeDocumentation || decide (f.kind ≠ .documentation)) := rfl
  rw [hexported, askedFor]
  rcases e.includeTests <;> rcases e.includeDocumentation
  · simp only [Bool.false_eq_true, if_false, Bool.false_or, without, List.filter_filter,
      Bool.and_comm]
  · simp only [Bool.false_eq_true, if_false, if_true, Bool.false_or, Bool.true_or, Bool.and_true,
      without]
  · simp only [Bool.false_eq_true, if_false, if_true, Bool.false_or, Bool.true_or, Bool.true_and,
      without]
  · simp only [if_true, Bool.true_or, Bool.and_true, List.filter_true]

theorem askedFor_sublist (e : Export) (fs : List File) : (askedFor e fs).Sublist fs := by
  rw [← filter_isExported]
  exact List.filter_sublist

/-- Files with different paths are all taken. -/
theorem distinctFiles_eq_ok {fs : List File} (h : (fs.map (·.path)).Nodup) :
    distinctFiles fs = .ok fs := by
  have hgo (seen : List String) (hseen : ∀ x ∈ fs.map (·.path), x ∉ seen) :
      File.firstRepeated?.go seen fs = none := by
    induction fs generalizing seen with
    | nil => rfl
    | cons f fs ih =>
      rw [List.map_cons, List.nodup_cons] at h
      rw [List.map_cons, List.forall_mem_cons] at hseen
      rw [File.firstRepeated?.go, if_neg (by simpa [List.contains_eq_mem] using hseen.1)]
      refine ih h.2 _ fun x hx => ?_
      rw [List.mem_cons, not_or]
      refine ⟨?_, hseen.2 x hx⟩
      rintro rfl
      exact h.1 hx
  rw [distinctFiles, File.firstRepeated?, hgo [] fun x _ => List.not_mem_nil]

/-! ## Packages -/

/-- What a package of a project holds in an export. -/
structure Packs (e : Export) (p : Project) (k : Package) : Prop where
  name_eq : k.name = p.name
  files_eq : k.files = askedFor e p.files ++ tierFiles p e.template.value
  entries_eq : (entries k).map (fun x => (x.name, x.content.toUTF8)) =
    ("project.json", (documentText k.metadata.document).toUTF8) ::
      ("SETUP.md", k.setupInstructions.toUTF8) ::
      k.files.map fun f => (f.path, f.content.toUTF8)
  nodup : ((entries k).map (·.name)).Nodup

section Packing

variable {o : Generation} {models : List Model} {p : Project} (hp : IsPackable o models p)

include hp

/-- The names of the entries differ. -/
theorem nodup_names (e : Export) :
    (ownNames.take 2 ++ (askedFor e p.files ++ tierFiles p e.template.value).map (·.path)).Nodup := by
  have hown : ownNames.Nodup := by decide
  have hall : (ownNames ++ p.files.map (·.path)).Nodup := by
    refine List.nodup_append'.2 ⟨hown, hp.nodup, ?_⟩
    rw [hp.paths_eq]
    exact disjoint_ownNames o models
  have hsub : ((ownNames.take 2 ++ (tierFiles p e.template.value).map (·.path)) ++
      (askedFor e p.files).map (·.path)).Sublist (ownNames ++ p.files.map (·.path)) := by
    refine List.Sublist.append ?_ ((askedFor_sublist e p.files).map _)
    rw [← List.take_append_drop 2 ownNames]
    exact (List.Sublist.refl _).append (paths_tierFiles p e.template.value).sublist
  have hperm : ((ownNames.take 2 ++ (tierFiles p e.template.value).map (·.path)) ++
      (askedFor e p.files).map (·.path)).Perm
      (ownNames.take 2 ++ (askedFor e p.files ++ tierFiles p e.template.value).map (·.path)) := by
    rw [List.map_append, List.append_assoc]
    exact List.perm_append_comm.append_left _
  exact hperm.nodup_iff.1 (hall.sublist hsub)

/-- The names of the entries are given back if no model has a name with a zero character. -/
theorem isReadable_of_mem_entries (hmodels : ∀ m ∈ models, '\x00' ∉ m.name.toList) {e : Export}
    {k : Package} (hk : Packs e p k) {x : Entry} (hx : x ∈ entries k) : IsReadable x.name := by
  have hown : ∀ name ∈ ownNames, IsReadable name := by decide
  rw [entries, List.mem_cons, List.mem_cons, List.mem_map, hk.files_eq] at hx
  rcases hx with rfl | rfl | ⟨f, hf, rfl⟩
  · exact hown _ List.mem_cons_self
  · exact hown _ (List.mem_cons_of_mem _ List.mem_cons_self)
  · rcases List.mem_append.1 hf with hf | hf
    · have hpath : f.path ∈ p.files.map (·.path) :=
        List.mem_map_of_mem ((askedFor_sublist e p.files).subset hf)
      rw [hp.paths_eq] at hpath
      exact isReadable_of_mem_emittedPaths hmodels hpath
    · have hpath := (paths_tierFiles p e.template.value).subset (List.mem_map_of_mem hf)
      exact hown _ (List.mem_of_mem_drop hpath)

/-- A project that can be packed is packed, whatever the options. -/
theorem exists_packs (e : Export) : ∃ k, build e p = .ok k ∧ Packs e p k := by
  obtain ⟨f, hfile, packageName, hmanifest⟩ := hp.manifest
  obtain ⟨m, hm, -⟩ := exists_metadataOf e hfile hmanifest
  have hnames := nodup_names hp e
  have hfiles : distinctFiles (exportedFiles e p) = .ok (exportedFiles e p) := by
    rw [exportedFiles, filter_isExported]
    exact distinctFiles_eq_ok (List.nodup_append'.1 hnames).2.1
  have hbuild : build e p = .ok ⟨p.name, exportedFiles e p, m, instructions e p, none⟩ := by
    rw [build, hm, Checked.andThen, hfiles, Checked.under, Checked.map]
  refine ⟨_, hbuild, rfl, ?_, ?_, ?_⟩
  · rw [← filter_isExported, exportedFiles]
  · simp only [entries, List.map_cons, List.map_map, Function.comp_def]
  · simp only [entries, List.map_cons, List.map_map, Function.comp_def, exportedFiles,
      filter_isExported]
    exact hnames

end Packing

/-- **What a project is packed into.**  Whatever is exported, a project that is made has a package:
the files that are asked for, in order and unchanged, then those of the tier.  Of two neighbouring
tiers, the files of the lower one are the first of those of the higher one.  The archive holds the
metadata, the instructions and the files, all under different names; it gives every entry back
under its name if no model has a name with a zero character. -/
theorem packs_of_isMade {r : Template.Registry} {o : Generation} {models : List Model}
    {name : Value} {moment : Nat} {p : Project} (h : IsMade r o models name moment p) :
    p.name ≠ "" ∧ (∀ e, ∃ k, build e p = .ok k ∧ Packs e p k) ∧
      (∀ e e' k k', build e p = .ok k → build e' p = .ok k' →
        e.includeTests = e'.includeTests → e.includeDocumentation = e'.includeDocumentation →
        (e.template.value, e'.template.value) ∈ [(Tier.basic, Tier.advanced),
          (Tier.advanced, Tier.enterprise)] → k.files <+: k'.files ∧ k.files ≠ k'.files) ∧
      ((∀ m ∈ models, '\x00' ∉ m.name.toList) → ∀ e k, build e p = .ok k → ∀ format,
        (entries k).map (fun x => readName format x.name) = (entries k).map (·.name)) := by
  have hp := isPackable_of_isMade h
  have hpacks {e : Export} {k : Package} (hk : build e p = .ok k) : Packs e p k := by
    obtain ⟨k', hk', hpacks⟩ := exists_packs hp e
    rw [hk] at hk'
    cases hk'
    exact hpacks
  refine ⟨hp.name_ne, exists_packs hp, ?_, ?_⟩
  · intro e e' k k' hk hk' htests hdocumentation htiers
    have hadded : ∃ added, added ≠ [] ∧
        tierFiles p e'.template.value = tierFiles p e.template.value ++ added := by
      simp only [List.mem_cons, Prod.mk.injEq, List.not_mem_nil, or_false] at htiers
      rcases htiers with ⟨hlow, hhigh⟩ | ⟨hlow, hhigh⟩
      · rw [hlow, hhigh, tierFiles, tierFiles]
        exact ⟨_, List.cons_ne_nil _ _, rfl⟩
      · rw [hlow, hhigh, tierFiles, tierFiles]
        exact ⟨_, List.cons_ne_nil _ _, rfl⟩
    obtain ⟨added, hne, htier⟩ := hadded
    have hasked : askedFor e' p.files = askedFor e p.files := by
      rw [askedFor, askedFor, htests, hdocumentation]
    rw [(hpacks hk).files_eq, (hpacks hk').files_eq, hasked, htier, ← List.append_assoc]
    exact ⟨List.prefix_append _ _, fun heq => hne (List.append_right_eq_self.1 heq.symm)⟩
  · intro hmodels e k hk format
    exact List.map_congr_left fun x hx =>
      readName_eq (isReadable_of_mem_entries hp hmodels (hpacks hk) hx) format

/-- A model that has nothing but a name. -/
def named (name : String) : Model := ⟨none, name, [], [], .default, none, none⟩

/-- A project without a name is made from models whose names do not clash. -/
theorem exists_isMade {models : List Model} (hfit : unfit? .default models = none)
    (hnames : (models.map Model.routeName).Nodup)
    (hroles : ∀ m ∈ models, "" ∉ m.metadata.allowedRoles) (hclashes : ¬Clashes .default models) :
    ∃ p, IsMade Template.Library.registry .default models .null 0 p := by
  obtain ⟨p, hp, -⟩ := exists_build_of_not_clashes hfit hnames hroles hclashes none 0
  exact ⟨p, p, hp, .inl rfl⟩

/-- A model and what holds of the packages of its project. -/
theorem packs_of_isMade_note :
    ∃ p, IsMade Template.Library.registry .default [named "Note"] .null 0 p ∧ p.name ≠ "" ∧
      (∀ e, ∃ k, build e p = .ok k ∧ Packs e p k) ∧
      (∀ e e' k k', build e p = .ok k → build e' p = .ok k' →
        e.includeTests = e'.includeTests → e.includeDocumentation = e'.includeDocumentation →
        (e.template.value, e'.template.value) ∈ [(Tier.basic, Tier.advanced),
          (Tier.advanced, Tier.enterprise)] → k.files <+: k'.files ∧ k.files ≠ k'.files) ∧
      ((∀ m ∈ [named "Note"], '\x00' ∉ m.name.toList) → ∀ e k, build e p = .ok k → ∀ format,
        (entries k).map (fun x => readName format x.name) = (entries k).map (·.name)) := by
  have hclashes : ¬Clashes .default [named "Note"] := by unfold Clashes; decide
  have hnames : ([named "Note"].map Model.routeName).Nodup := List.nodup_singleton _
  obtain ⟨p, hp⟩ := exists_isMade rfl hnames (by decide) hclashes
  exact ⟨p, hp, packs_of_isMade hp⟩

/-- Two models whose names differ behind a zero character. -/
def cutShort : List Model := [named "A\x00b", named "A\x00c"]

/-- An archive gives their records back under one name. -/
theorem exists_cutShort : ∃ p, IsMade Template.Library.registry .default cutShort .null 0 p ∧
    ∃ k, build .default p = .ok k ∧
      ¬((entries k).map fun x => readName .zip x.name).Nodup := by
  have hclashes : ¬Clashes .default cutShort := by unfold Clashes; decide
  obtain ⟨p, hp⟩ := exists_isMade rfl (by decide) (by decide) hclashes
  have hpackable := isPackable_of_isMade hp
  obtain ⟨k, hk, hpacks⟩ := exists_packs hpackable .default
  refine ⟨p, hp, k, hk, fun hnodup => ?_⟩
  have hentry : ∀ path ∈ emittedPaths .default cutShort, ∃ x ∈ entries k, x.name = path := by
    intro path hpath
    rw [← hpackable.paths_eq] at hpath
    obtain ⟨f, hf, rfl⟩ := List.mem_map.1 hpath
    refine ⟨⟨f.path, f.content⟩, ?_, rfl⟩
    have hmem : f ∈ k.files := by
      rw [hpacks.files_eq]
      exact List.mem_append_left _ hf
    exact List.mem_cons_of_mem _ (List.mem_cons_of_mem _ (List.mem_map_of_mem hmem))
  obtain ⟨x, hx, hxname⟩ := hentry "src/models/A\x00b.ts" (by decide)
  obtain ⟨y, hy, hyname⟩ := hentry "src/models/A\x00c.ts" (by decide)
  have hread : readName .zip x.name = readName .zip y.name := by
    rw [hxname, hyname]
    decide
  have hxy : x = y := List.inj_on_of_nodup_map hnodup hx hy hread
  have hne : ("src/models/A\x00b.ts" : String) ≠ "src/models/A\x00c.ts" := by decide
  exact hne (hxname.symm.trans ((congrArg _ hxy).trans hyname))

end Scaffold.Package
