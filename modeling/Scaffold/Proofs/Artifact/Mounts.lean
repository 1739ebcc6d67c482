import Scaffold.Proofs.Artifact.Calls
import Scaffold.Proofs.Artifact.Sources

/-!
# Proofs/Artifact/Mounts — what the entry of a service mounts

The entry mounts a router under each segment: that of the login and those of the models.  Its mounts
(`mountsOf_application`) and the modules of its routers (`moduleOf?_application`) can be read off its
lines.
-/

namespace Scaffold.Artifact

open Options Template Text

/-! ## Reading -/

/-- The path and the router of a mount. -/
def mount? (l : List Char) : Option (String × List Char) :=
  match Call.read? l with
  | some ⟨function, [path, router]⟩ =>
    if function = "app.use".toList then (quotedText? path).map (·, router) else none
  | _ => none

/-- What is mounted in the entry of a service. -/
def mountsOf (content : String) : List (String × List Char) :=
  (lines content.toList).filterMap mount?

/-- The module that a name is imported from as a whole. -/
def moduleOf? (content : String) (name : List Char) : Option (List Char) :=
  ((lines content.toList).find? fun l =>
    List.isPrefixOf (importWord ++ name ++ " from ".toList) l).bind specifier

/-! ## Segments -/

/-- The segments under which a service has routers. -/
def segments (o : Generation) (models : List Model) : List String :=
  (if o.authEnabled then ["auth"] else []) ++ models.map Model.routeName

/-- The mount of the router of a segment. -/
def segmentMount (x : String) : Mount := ⟨"/" ++ x, x ++ "Routes", "./routes/" ++ x⟩

/-- A router is mounted under its segment, that of the login first. -/
theorem mounts_eq (o : Generation) (models : List Model) :
    mounts o models = (segments o models).map segmentMount := by
  have hauth : segmentMount "auth" = ⟨"/auth", "authRoutes", "./routes/auth"⟩ := by
    simp only [segmentMount, String.reduceAppend]
  rw [mounts, segments, List.map_append, List.map_map]
  split
  · rw [List.map_singleton, hauth]
    rfl
  · rfl

/-- The segments are plain if the names are. -/
theorem isPlain_of_mem_segments {o : Generation} {models : List Model}
    (h : ∀ m ∈ models, IsPlain m.name) : ∀ x ∈ segments o models, IsPlain x := by
  intro x hx
  obtain hx | hx := List.mem_append.mp hx
  · split at hx
    · exact List.mem_singleton.mp hx ▸ isPlain_ofList (by decide)
    · exact absurd hx List.not_mem_nil
  · obtain ⟨m, hm, rfl⟩ := List.mem_map.mp hx
    exact isPlain_lower (h m hm)

/-! ## Mounts -/

/-- The mount is read back from its line. -/
theorem mount?_segmentMount {x : String} (hx : IsPlain x) :
    mount? (segmentMount x).line.toList = some ("/" ++ x, (x ++ "Routes").toList) := by
  have hnotMem {c : Char} (hc : isPlainAlnum c = false) (hslash : c ≠ '/') :
      c ∉ ("/" ++ x).toList := by
    have hhead : "/".toList = ['/'] := by decide
    rw [String.toList_append, hhead, List.singleton_append, List.mem_cons]
    exact not_or.mpr ⟨hslash, hx.notMem hc⟩
  have hrouter : IsPlain (x ++ "Routes") := hx.append (isPlain_ofList (by decide))
  have hlevel : Level (quoted ("/" ++ x)).toList :=
    level_quoted (hnotMem (by decide) (by decide)) (hnotMem (by decide) (by decide))
      (hnotMem (by decide) (by decide))
  have hname : '(' ∉ "app.use".toList := by decide
  have hread := Call.read?_append hname (List.cons_ne_nil (quoted ("/" ++ x)).toList _)
    (List.forall_mem_cons.mpr ⟨⟨hlevel, flush_quoted _⟩, List.forall_mem_singleton.mpr
      (Call.level_and_flush_of_isPlain hrouter)⟩) [';']
  have hline : (segmentMount x).line.toList = "app.use".toList ++
      '(' :: (joinWith [',', ' '] [(quoted ("/" ++ x)).toList, (x ++ "Routes").toList] ++
        ')' :: [';']) := by
    have hopen : "app.use('".toList = "app.use".toList ++ ['(', '\''] := by decide
    have hcomma : "', ".toList = ['\'', ',', ' '] := by decide
    have hclose : ");".toList = [')', ';'] := by decide
    simp only [segmentMount, Mount.line, joinWith, toList_quoted, String.toList_append, hopen,
      hcomma, hclose, List.append_assoc, List.cons_append, List.nil_append]
  rw [hline, mount?, hread]
  dsimp only
  rw [if_pos rfl, quotedText?_quoted (hnotMem (by decide) (by decide)), Option.map_some]

/-- A mount begins with the application. -/
theorem mount?_eq_none {l : List Char} (h : l.head? ≠ some 'a') : mount? l = none := by
  unfold mount?
  split
  · rename_i hread
    obtain ⟨rest, rfl⟩ := Call.exists_eq_of_read? hread
    refine if_neg fun hfunction => h ?_
    rw [hfunction]
    rfl
  · rfl

/-- **The mounts of an entry.** -/
theorem mountsOf_application (o : Generation) {models : List Model}
    (h : ∀ m ∈ models, m.Routable) : mountsOf (application o models).text =
      (segments o models).map fun x => ("/" ++ x, (x ++ "Routes").toList) := by
  have hmounts : ((mounts o models).map Mount.line).filterMap (fun l => mount? l.toList) =
      (segments o models).map fun x => ("/" ++ x, (x ++ "Routes").toList) := by
    rw [mounts_eq, List.map_map, List.filterMap_map]
    refine (List.filterMap_congr fun x hx => ?_).trans (congrFun (List.filterMap_eq_map
      (f := fun x : String => ("/" ++ x, (x ++ "Routes").toList))) _)
    exact mount?_segmentMount (isPlain_of_mem_segments (fun m hm => (h m hm).name) x hx)
  -- Only lines that begin like a mount are read as calls.
  have hnone {ls : List String}
      (hls : ls.all (fun l => l.toList.head? != some 'a' || (mount? l.toList).isNone) = true) :
      ls.filterMap (fun l => mount? l.toList) = [] := by
    rw [List.filterMap_eq_nil_iff]
    intro l hl
    obtain hhead | hmount := (Bool.or_eq_true _ _).mp (List.all_eq_true.mp hls l hl)
    · exact mount?_eq_none (bne_iff_ne.mp hhead)
    · exact Option.isNone_iff_eq_none.mp hmount
  have hite {c : Prop} [Decidable c] {ls ms : List String}
      (hls : ls.filterMap (fun l => mount? l.toList) = [])
      (hms : ms.filterMap (fun l => mount? l.toList) = []) :
      (if c then ls else ms).filterMap (fun l => mount? l.toList) = [] := by
    split
    · exact hls
    · exact hms
  have hlisten : (listenLines o.database.value).filterMap (fun l => mount? l.toList) = [] := by
    cases o.database.value <;> exact hnone (by decide +kernel)
  refine (filterMap_lines_text (tidy_application o h) (fun i => mount?_eq_none ?_)
    (mount?_eq_none (by simp))).trans ?_
  · rw [head?_import]
    decide +kernel
  · rw [application]
    simp only [List.filterMap_append, hmounts, hlisten]
    rw [hnone, hite (hnone ?_) rfl, hite (hnone ?_) rfl, hnone, hnone]
    · simp only [List.nil_append, List.append_nil]
    all_goals decide +kernel

/-! ## Routers -/

theorem toList_from : " from ".toList = ' ' :: "from ".toList := by decide

/-- An import of a plain name as a whole is no other import. -/
theorem eq_whole_of_prefix {name : String} (hname : IsPlain name) (hne : name ≠ "") {i : Import}
    (hi : ∀ n s, i = .whole n s → ' ' ∉ n.toList)
    (h : importWord ++ name.toList ++ " from ".toList <+: i.line.toList) :
    ∃ s, i = .whole name s := by
  obtain ⟨c, cs, hcs⟩ := List.exists_cons_of_ne_nil (mt String.toList_eq_nil_iff.mp hne)
  have hplain : isPlainAlnum c = true := hname c (hcs ▸ List.mem_cons_self)
  obtain ⟨rest, hrest⟩ := h
  cases i with
  | effects s =>
    have hhead : "import '".toList = importWord ++ ['\''] := by decide
    rw [Import.line, String.toList_append, String.toList_append, hhead, hcs] at hrest
    simp only [List.append_assoc, List.append_cancel_left_eq, List.cons_append,
      List.cons.injEq] at hrest
    exact absurd hplain (hrest.1 ▸ by decide)
  | whole n s =>
    have hhead : "import ".toList = importWord := by decide
    have hfrom : " from '".toList = ' ' :: "from '".toList := by decide
    rw [Import.line, String.toList_append, String.toList_append, String.toList_append,
      String.toList_append, hhead, hfrom, toList_from] at hrest
    simp only [List.append_assoc, List.append_cancel_left_eq, List.cons_append] at hrest
    obtain ⟨heq, -⟩ := append_cons_inj (hname.notMem (by decide)) (hi n s rfl) hrest
    exact ⟨s, by rw [String.toList_injective heq]⟩
  | parts names s =>
    have hhead : r"import { ".toList = importWord ++ ['{', ' '] := by decide
    rw [Import.line, String.toList_append, String.toList_append, String.toList_append,
      String.toList_append, hhead, hcs] at hrest
    simp only [List.append_assoc, List.append_cancel_left_eq, List.cons_append,
      List.cons.injEq] at hrest
    exact absurd hplain (hrest.1 ▸ by decide)

theorem find?_eq_some_of_unique {α : Type} {p : α → Bool} {x : α} {xs : List α} (hx : x ∈ xs)
    (hp : p x = true) (hunique : ∀ y ∈ xs, p y = true → y = x) : xs.find? p = some x := by
  cases hfind : xs.find? p with
  | none => exact absurd hp (List.find?_eq_none.mp hfind x hx)
  | some y => exact congrArg some (hunique y (List.mem_of_find?_eq_some hfind) (List.find?_some hfind))

/-- What the entry imports as a whole, beside its routers. -/
theorem whole_applicationImports {o : Generation} {models : List Model} {n s : String}
    (h : .whole n s ∈ applicationImports o models) :
    n ∈ ["express", "session", "passport"] ∨
      ∃ x ∈ segments o models, Import.whole n s = (segmentMount x).importRouter := by
  obtain h | h := List.mem_append.mp h
  · simp only [List.mem_append, List.mem_ite_nil_right, List.mem_ite_nil_left, List.mem_cons,
      List.not_mem_nil, or_false, Import.whole.injEq, reduceCtorEq, false_or, and_false] at h ⊢
    grind
  · rw [mounts_eq, List.map_map] at h
    obtain ⟨x, hx, heq⟩ := List.mem_map.mp h
    exact .inr ⟨x, hx, heq.symm⟩

theorem router_notMem_fixed (x : String) : x ++ "Routes" ∉ ["express", "session", "passport"] := by
  intro hmem
  have hends : ∀ n ∈ ["express", "session", "passport"], ¬"Routes".toList <:+ n.toList := by decide
  refine hends _ hmem ?_
  rw [String.toList_append]
  exact List.suffix_append _ _

/-- How the import of a router begins. -/
theorem prefix_importRouter (x : String) :
    importWord ++ (x ++ "Routes").toList ++ " from ".toList <+:
      (segmentMount x).importRouter.line.toList := by
  have hhead : "import ".toList = importWord := by decide
  have hfrom : " from '".toList = " from ".toList ++ ['\''] := by decide
  refine ⟨'\'' :: ("./routes/" ++ x ++ "';").toList, ?_⟩
  simp only [Mount.importRouter, segmentMount, Import.line, String.toList_append, hhead, hfrom,
    List.append_assoc, List.cons_append, List.nil_append]

section Routers

variable {o : Generation} {models : List Model} (h : ∀ m ∈ models, m.Routable) {x : String}
  (hx : x ∈ segments o models)
include h hx

theorem isPlain_router : IsPlain (x ++ "Routes") :=
  (isPlain_of_mem_segments (fun m hm => (h m hm).name) x hx).append (isPlain_ofList (by decide))

/-- No other line of the entry begins like the import of a router. -/
theorem eq_importRouter_of_prefix {l : List Char}
    (hl : l ∈ lines (application o models).text.toList)
    (hstart : importWord ++ (x ++ "Routes").toList ++ " from ".toList <+: l) :
    l = (segmentMount x).importRouter.line.toList := by
  have hne : x ++ "Routes" ≠ "" := by
    rw [ne_eq, String.append_eq_empty_iff]
    exact fun h => absurd h.2 (by decide)
  have hword : importWord <+: l := by
    rw [List.append_assoc] at hstart
    exact (List.prefix_append _ _).trans hstart
  obtain ⟨i, hi, rfl⟩ := (tidy_application o h).importsAmong l hl hword
  have hapart : ∀ n s, i = .whole n s → ' ' ∉ n.toList := by
    rintro n s rfl
    obtain hfixed | ⟨y, hy, heq⟩ := whole_applicationImports hi
    · exact (by decide : ∀ n ∈ ["express", "session", "passport"], ' ' ∉ n.toList) n hfixed
    · cases heq
      exact (isPlain_router h hy).notMem (by decide)
  obtain ⟨s, rfl⟩ := eq_whole_of_prefix (isPlain_router h hx) hne hapart hstart
  obtain hfixed | ⟨y, hy, heq⟩ := whole_applicationImports hi
  · exact absurd hfixed (router_notMem_fixed x)
  · have hsame : x ++ "Routes" = y ++ "Routes" := (Import.whole.inj heq).1
    have hlist := congrArg String.toList hsame
    rw [String.toList_append, String.toList_append] at hlist
    rw [heq, String.toList_injective (List.append_cancel_right hlist)]

/-- **The module of a router of the entry.** -/
theorem moduleOf?_application :
    moduleOf? (application o models).text (x ++ "Routes").toList =
      some ("./routes/" ++ x).toList := by
  have htidy := tidy_application o h
  have himport : (segmentMount x).importRouter ∈ applicationImports o models := by
    refine List.mem_append_right _ (List.mem_map_of_mem ?_)
    rw [mounts_eq]
    exact List.mem_map_of_mem hx
  have hmem : (segmentMount x).importRouter.line.toList ∈
      lines (application o models).text.toList := by
    rw [Source.lines_text htidy.imports htidy.body]
    exact List.mem_append_left _
      (List.mem_map_of_mem (List.mem_append_left _ (List.mem_map_of_mem himport)))
  have hfits : (segmentMount x).importRouter.Fits := htidy.imports _ himport
  rw [moduleOf?, find?_eq_some_of_unique hmem
      (List.isPrefixOf_iff_prefix.mpr (prefix_importRouter x))
      fun l hl hstart => eq_importRouter_of_prefix h hx hl (List.isPrefixOf_iff_prefix.mp hstart),
    Option.bind_some, hfits.specifier_line]
  rfl

end Routers

end Scaffold.Artifact
