import Scaffold.Proofs.Document.Readings
import Scaffold.Proofs.Package.Omission
import Scaffold.Proofs.Schema.Spelling

/-!
# Proofs/Package/Metadata — what the metadata say about the manifest

A manifest that can be read supplies a dictionary for each of its three sections (`Supplies`).  They
stand in the metadata if they hold texts alone, and whatever else they hold is reported; if nothing
is supplied, the metadata can be made without (`describe_outcome`).  A manifest that is nested too
deeply is no such case: nothing comes of it.

The manifest of a project that is made supplies the tables that it was written from, so its
package has them (`exists_pack_of_isMade`).
-/

namespace Scaffold.Document.Json

/-- A document that is read has nothing in it that JSON cannot hold. -/
theorem Legible.isJson {levels : Nat} {v : Value} (h : Legible levels v) : v.IsJson := by
  induction h with
  | null => exact .null
  | bool _ b => exact .bool b
  | int _ _ => exact .int _
  | real _ _ => exact .real _
  | text _ s => exact .text s
  | list _ ih => exact .list ih
  | record _ _ ih => exact .record ih

end Scaffold.Document.Json

namespace Scaffold.Schema

open Document

variable {α β : Type}

/-! ## Readings with known issues -/

/-- The reading has these issues; without any it gives a result with the property. -/
inductive Checked.Yields (P : α → Prop) : List Issue → Checked α → Prop
  | ok {a : α} (h : P a) : Yields P [] (.ok a)
  | bad {is : List Issue} (h : is ≠ []) : Yields P is (.bad is)

namespace Checked.Yields

variable {P : α → Prop} {Q : β → Prop} {is js : List Issue} {x : Checked α}

theorem map (h : Yields P is x) {f : α → β} (hf : ∀ a, P a → Q (f a)) : Yields Q is (x.map f) := by
  cases h with
  | ok h => exact .ok (hf _ h)
  | bad h => exact .bad h

theorem under (h : Yields P is x) (step : Step) :
    Yields P (is.map (Issue.under step)) (x.under step) := by
  cases h with
  | ok h => exact .ok h
  | bad h => exact .bad fun hnil => h (List.map_eq_nil_iff.mp hnil)

/-- The issues of a function and of its argument are put together. -/
theorem apply {F : (α → β) → Prop} {f : Checked (α → β)} (hf : Yields F is f) (h : Yields P js x)
    (happly : ∀ g a, F g → P a → Q (g a)) : Yields Q (is ++ js) (f.apply x) := by
  cases hf with
  | ok hg => cases h with
    | ok ha => exact .ok (happly _ _ hg ha)
    | bad h => exact .bad h
  | bad hf => cases h with
    | ok ha =>
      rw [List.append_nil]
      exact .bad hf
    | bad h => exact .bad fun hnil => hf (List.append_eq_nil_iff.mp hnil).1

end Checked.Yields

/-! ## Tables of texts -/

/-- A table of texts, as entries. -/
def textEntries (t : List (String × String)) : List (Value × Value) :=
  t.map fun e => (.text e.1, .text e.2)

/-- What is wrong with a value that is to be a text. -/
def misfit (v : Value) : List Issue := if v.text?.isSome then [] else [⟨.notText, []⟩]

/-- What is wrong with entries that are to be texts: the keys and the values that are none. -/
def misfits (es : List (Value × Value)) : List Issue :=
  es.flatMap fun e =>
    ((misfit e.1).map (Issue.under (.name "[key]"))).map (Issue.under (stepOf e.1)) ++
      (misfit e.2).map (Issue.under (stepOf e.1))

theorem yields_text {v : Value} (h : v.IsJson) :
    (text v).Yields (fun s => v = .text s) (misfit v) := by
  cases h with
  | text s => exact .ok rfl
  | _ => exact .bad (List.cons_ne_nil _ _)

/-- Entries are a map of texts unless one of them is a misfit. -/
theorem yields_textMap_go {es : List (Value × Value)} (h : ∀ e ∈ es, e.1.IsJson ∧ e.2.IsJson) :
    (textMap.go es).Yields (fun t => es = textEntries t) (misfits es) := by
  induction es with
  | nil => exact .ok rfl
  | cons e es ih =>
    obtain ⟨k, x⟩ := e
    obtain ⟨⟨hk, hx⟩, hes⟩ := List.forall_mem_cons.mp h
    have hkey := (((yields_text hk).under (.name "[key]")).under (stepOf k)).map
      (f := fun s t ms => (s, t) :: ms) (Q := fun f => ∀ t ms,
        textEntries (f t ms) = (k, .text t) :: textEntries ms) (by
      rintro s rfl t ms
      rfl)
    have hentry := hkey.apply ((yields_text hx).under (stepOf k)) (Q := fun f => ∀ ms,
        textEntries (f ms) = (k, x) :: textEntries ms) (by
      rintro f t hf rfl ms
      exact hf t ms)
    refine hentry.apply (ih hes) ?_
    rintro f ms hf rfl
    exact (hf ms).symm

/-- Reading a mapping as one from texts to texts gives it, or what is wrong with its entries. -/
theorem yields_textMap {v : Value} {es : List (Value × Value)} (hentries : v.entries? = some es)
    (h : ∀ e ∈ es, e.1.IsJson ∧ e.2.IsJson) :
    (textMap v).Yields (fun t => es = textEntries t) (misfits es) := by
  rw [textMap, hentries]
  exact yields_textMap_go h

end Scaffold.Schema

namespace Scaffold.Package

open Artifact Catalog Document Options Project Schema

/-! ## Dictionaries -/

/-- The entries of a dictionary. -/
abbrev Entries := List (Value × Value)

/-- The value gives the dictionary: what counts as false an empty one, a mapping itself, and pairs
the one into which they are entered in turn. -/
inductive Gives : Value → Entries → Prop
  | falsy {v : Value} (h : v.isTruthy = false) : Gives v []
  | mapping (ms : Members) : Gives (.record ms) (ms.map fun e => (.text e.1, e.2))
  | pairs {items : List Value} {pairs : Entries}
    (h : List.Forall₂ (fun item e => pair? item = some e ∧ e.1.isKey = true) items pairs) :
    Gives (.list items) (pairs.foldl (fun es e => Value.putEntry e.1 e.2 es) [])

/-- Items are pairs if each of them is one with a key, and a later pair takes the place of an
earlier one. -/
theorem ofPairs?_eq_some_iff {items : List Value} {es : Entries} : ofPairs? items = some es ↔
    ∃ pairs, List.Forall₂ (fun item e => pair? item = some e ∧ e.1.isKey = true) items pairs ∧
      pairs.foldl (fun es e => Value.putEntry e.1 e.2 es) [] = es := by
  rw [ofPairs?]
  generalize ([] : Entries) = done
  induction items generalizing done with
  | nil =>
    constructor
    · rintro ⟨⟩
      exact ⟨[], .nil, rfl⟩
    · rintro ⟨pairs, hpairs, rfl⟩
      cases hpairs
      rfl
  | cons item items ih =>
    rw [List.foldlM_cons]
    constructor
    · intro h
      obtain ⟨next, hnext, hrest⟩ := Option.bind_eq_some_iff.mp h
      obtain ⟨⟨k, v⟩, hpair, hnext⟩ := Option.bind_eq_some_iff.mp hnext
      dsimp only at hnext
      split at hnext
      · rename_i hkey
        cases hnext
        obtain ⟨pairs, hpairs, rfl⟩ := (ih _).mp hrest
        exact ⟨(k, v) :: pairs, .cons ⟨hpair, hkey⟩ hpairs, rfl⟩
      · cases hnext
    · rintro ⟨_, hpairs, rfl⟩
      cases hpairs with
      | cons he hpairs =>
        obtain ⟨hpair, hkey⟩ := he
        refine Option.bind_eq_some_iff.mpr ⟨_, ?_, (ih _).mpr ⟨_, hpairs, rfl⟩⟩
        rw [hpair]
        exact if_pos hkey

/-! ### What is in a dictionary -/

/-- Both sides of a pair of a document are documents. -/
theorem isJson_of_pair? {item : Value} (h : item.IsJson) {e : Value × Value}
    (he : pair? item = some e) : e.1.IsJson ∧ e.2.IsJson := by
  rw [pair?.eq_def] at he
  split at he
  · cases he
    cases h with
    | list h => exact ⟨h _ List.mem_cons_self, h _ (List.mem_cons_of_mem _ List.mem_cons_self)⟩
  · split at he
    · cases he
      exact ⟨.text _, .text _⟩
    · cases he
  · cases he
    exact ⟨.text _, .text _⟩
  · cases he

/-- An entry after a change was there before, or it is the one put in. -/
theorem mem_putEntry {k v : Value} {es : Entries} {e : Value × Value}
    (h : e ∈ Value.putEntry k v es) :
    e ∈ es ∨ e.2 = v ∧ (e.1 = k ∨ ∃ w, (e.1, w) ∈ es) := by
  induction es with
  | nil =>
    obtain rfl := List.mem_singleton.mp h
    exact .inr ⟨rfl, .inl rfl⟩
  | cons e' es ih =>
    obtain ⟨k', w⟩ := e'
    rw [Value.putEntry] at h
    split at h
    · obtain rfl | h := List.mem_cons.mp h
      · exact .inr ⟨rfl, .inr ⟨w, List.mem_cons_self⟩⟩
      · exact .inl (List.mem_cons_of_mem _ h)
    · obtain rfl | h := List.mem_cons.mp h
      · exact .inl List.mem_cons_self
      · obtain h | ⟨hv, hk⟩ := ih h
        · exact .inl (List.mem_cons_of_mem _ h)
        · exact .inr ⟨hv, hk.imp_right fun ⟨w, hw⟩ => ⟨w, List.mem_cons_of_mem _ hw⟩⟩

/-- Entries of documents stay documents. -/
theorem isJson_putEntry {k v : Value} (hk : k.IsJson) (hv : v.IsJson) {es : Entries}
    (h : ∀ e ∈ es, e.1.IsJson ∧ e.2.IsJson) :
    ∀ e ∈ Value.putEntry k v es, e.1.IsJson ∧ e.2.IsJson := by
  intro e he
  obtain he | ⟨rfl, rfl | ⟨w, hw⟩⟩ := mem_putEntry he
  · exact h e he
  · exact ⟨hk, hv⟩
  · exact ⟨(h _ hw).1, hv⟩

/-- What a section gives are documents. -/
theorem Gives.isJson {v : Value} {es : Entries} (h : Gives v es) (hv : v.IsJson) :
    ∀ e ∈ es, e.1.IsJson ∧ e.2.IsJson := by
  cases h with
  | falsy _ => exact List.forall_mem_nil _
  | mapping ms =>
    cases hv with
    | record hms => exact List.forall_mem_map.mpr fun e he => ⟨.text e.1, hms e he⟩
  | @pairs items pairs hpairs =>
    cases hv with
    | list hitems =>
      refine List.foldlRecOn (motive := fun es : Entries => ∀ e ∈ es, e.1.IsJson ∧ e.2.IsJson) pairs
        _ (List.forall_mem_nil _) fun es hes e he => ?_
      obtain ⟨item, hitem, hpair, -⟩ := hpairs.exists_of_mem_right he
      obtain ⟨hk, hx⟩ := isJson_of_pair? (hitems item hitem) hpair
      exact isJson_putEntry hk hx hes

/-! ### Sections -/

/-- A document gives its members. -/
theorem entries?_record {ms : Members} (h : (Value.record ms).IsJson) :
    (Value.record ms).entries? = some (ms.map fun e => (.text e.1, e.2)) := by
  cases h with
  | record h =>
    rw [Value.entries?]
    refine congrArg some (List.map_congr_left fun e he => ?_)
    exact congrArg (Prod.mk _) ((h e he).takenOut_eq _)

theorem entries?_table {es : Entries} (h : ∀ e ∈ es, e.1.IsJson ∧ e.2.IsJson) :
    (Value.table es).entries? = some es := by
  rw [Value.entries?]
  refine congrArg some ((List.map_congr_left fun e he => ?_).trans (List.map_id es))
  exact congrArg (Prod.mk e.1) ((h e he).2.takenOut_eq _)

/-- A section that gives entries is one that is read. -/
theorem section?_of_gives {v : Value} (hv : v.IsJson) {es : Entries} (h : Gives v es) :
    ∃ w, section? v = some w ∧ w.entries? = some es := by
  have hjson := h.isJson hv
  rw [section?.eq_def]
  cases htruthy : v.isTruthy with
  | false =>
    refine ⟨.record [], rfl, congrArg some ?_⟩
    cases h with
    | falsy _ => rfl
    | mapping ms => cases ms with
      | nil => rfl
      | cons e ms => cases htruthy
    | pairs h => cases h with
      | nil => rfl
      | cons _ _ => cases htruthy
  | true =>
    cases h with
    | falsy h => rw [h] at htruthy; cases htruthy
    | mapping ms => exact ⟨_, rfl, entries?_record hv⟩
    | pairs h =>
      refine ⟨.table _, ?_, entries?_table hjson⟩
      exact Option.map_eq_some_iff.mpr ⟨_, ofPairs?_eq_some_iff.mpr ⟨_, h, rfl⟩, rfl⟩

/-- A section that is read gives entries. -/
theorem exists_gives_of_section? {v w : Value} (h : section? v = some w) : ∃ es, Gives v es := by
  rw [section?.eq_def] at h
  cases htruthy : v.isTruthy with
  | false => exact ⟨[], .falsy htruthy⟩
  | true =>
    rw [htruthy] at h
    cases v with
    | record ms => exact ⟨_, .mapping ms⟩
    | list items =>
      obtain ⟨es, hes, -⟩ := Option.map_eq_some_iff.mp h
      obtain ⟨pairs, hpairs, -⟩ := ofPairs?_eq_some_iff.mp hes
      exact ⟨_, .pairs hpairs⟩
    | _ => cases h

/-! ## What a manifest supplies -/

/-- The dictionaries of the dependencies, the development dependencies and the scripts. -/
structure Supply where
  dependencies : Entries
  devDependencies : Entries
  scripts : Entries

namespace Supply

def empty : Supply := ⟨[], [], []⟩

/-- What keeps the dictionaries from being tables of texts. -/
def misfits (s : Supply) : List Issue :=
  let named (name : String) (es : Entries) := (Schema.misfits es).map (Issue.under (.name name))
  named "dependencies" s.dependencies ++ named "dev_dependencies" s.devDependencies ++
    named "scripts" s.scripts

end Supply

/-- The tables that the metadata have. -/
def Metadata.supply (m : Metadata) : Supply :=
  ⟨textEntries m.dependencies, textEntries m.devDependencies, textEntries m.scripts⟩

/-- The manifest of the project is a document with these dictionaries as its sections; a section
that is not there counts as false. -/
def Supplies (p : Project) (s : Supply) : Prop :=
  ∃ f members, p.file? "package.json" = some f ∧
    Json.read f.content.toList = .ok (.record members) ∧
    Gives ((members.lookup "dependencies").getD .null) s.dependencies ∧
    Gives ((members.lookup "devDependencies").getD .null) s.devDependencies ∧
    Gives ((members.lookup "scripts").getD .null) s.scripts

theorem deepManifest?_of_read {p : Project} {f : File} (hf : p.file? "package.json" = some f)
    {v : Value} (h : Json.read f.content.toList = .ok v) : deepManifest? p = none := by
  rw [deepManifest?, hf, Option.map_some, h]

theorem Supplies.deepManifest?_eq_none {p : Project} {s : Supply} (h : Supplies p s) :
    deepManifest? p = none := by
  obtain ⟨f, members, hf, hread, -⟩ := h
  exact deepManifest?_of_read hf hread

/-! ### The sections of a manifest -/

/-- The sections that were found hold the dictionaries. -/
structure Sections.Hold (x : Sections) (s : Supply) : Prop where
  dependencies : x.dependencies.entries? = some s.dependencies
  devDependencies : x.devDependencies.entries? = some s.devDependencies
  scripts : x.scripts.entries? = some s.scripts

theorem member?_getD {members : Members} (h : (Value.record members).IsJson) (name : String) :
    ((Value.record members).member? name).getD .null = (members.lookup name).getD .null := by
  rw [member?_record h]

/-- A member of a document is a document, also one that is missing. -/
theorem isJson_getD {members : Members} (h : (Value.record members).IsJson) (name : String) :
    ((members.lookup name).getD .null).IsJson := by
  rw [← member?_record h]
  cases hx : (Value.record members).member? name with
  | none => exact .null
  | some x => exact h.of_member? hx

/-- The sections are read if each of the three members is one. -/
theorem read?_eq_some_iff {content : String} {members : Members}
    (hread : Json.read content.toList = .ok (.record members)) {x : Sections} :
    Sections.read? content = some x ↔
      (section? ((members.lookup "dependencies").getD .null) = some x.dependencies) ∧
      (section? ((members.lookup "devDependencies").getD .null) = some x.devDependencies) ∧
      (section? ((members.lookup "scripts").getD .null) = some x.scripts) := by
  have hjson : (Value.record members).IsJson := (Json.legible_of_read hread).isJson
  have hparse : Json.parse? content = some (.record members) := by rw [Json.parse?, hread]; rfl
  rw [Sections.read?, hparse]
  dsimp only
  rw [if_neg (by exact Bool.false_ne_true), member?_getD hjson, member?_getD hjson,
    member?_getD hjson]
  simp only [Option.bind_eq_bind, Option.bind_eq_some_iff, Option.pure_def, Option.some.injEq]
  constructor
  · rintro ⟨a, ha, b, hb, c, hc, rfl⟩
    exact ⟨ha, hb, hc⟩
  · rintro ⟨ha, hb, hc⟩
    exact ⟨_, ha, _, hb, _, hc, rfl⟩

/-- The sections of a manifest hold what it supplies. -/
theorem hold_manifestSections {p : Project} {s : Supply} (h : Supplies p s) :
    (manifestSections p).Hold s := by
  obtain ⟨f, members, hf, hread, hdependencies, hdevDependencies, hscripts⟩ := h
  have hjson := isJson_getD (Json.legible_of_read hread).isJson
  obtain ⟨a, ha, hentries⟩ := section?_of_gives (hjson _) hdependencies
  obtain ⟨b, hb, hdevEntries⟩ := section?_of_gives (hjson _) hdevDependencies
  obtain ⟨c, hc, hscriptEntries⟩ := section?_of_gives (hjson _) hscripts
  have hsections : Sections.read? f.content = some ⟨a, b, c⟩ :=
    (read?_eq_some_iff hread).mpr ⟨ha, hb, hc⟩
  rw [manifestSections, hf]
  dsimp only
  rw [hsections]
  exact ⟨hentries, hdevEntries, hscriptEntries⟩

/-- Sections are only read from a document with members. -/
theorem exists_record_of_read? {content : String} {x : Sections}
    (h : Sections.read? content = some x) :
    ∃ members, Json.read content.toList = .ok (.record members) := by
  rw [Sections.read?, Json.parse?] at h
  cases hread : Json.read content.toList with
  | error fault =>
    rw [hread] at h
    cases h
  | ok v =>
    rw [hread] at h
    cases (Json.legible_of_read hread).isJson with
    | @record members _ => exact ⟨members, rfl⟩
    | _ => cases h

/-- A manifest does not supply different dictionaries. -/
theorem Supplies.unique {p : Project} {s s' : Supply} (h : Supplies p s) (h' : Supplies p s') :
    s = s' := by
  obtain ⟨hdependencies, hdevDependencies, hscripts⟩ := hold_manifestSections h
  obtain ⟨hdependencies', hdevDependencies', hscripts'⟩ := hold_manifestSections h'
  rw [hdependencies, Option.some.injEq] at hdependencies'
  rw [hdevDependencies, Option.some.injEq] at hdevDependencies'
  rw [hscripts, Option.some.injEq] at hscripts'
  rw [Supply.mk.injEq]
  exact ⟨hdependencies', hdevDependencies', hscripts'⟩

/-- If nothing is supplied, there are no sections. -/
theorem manifestSections_eq_empty {p : Project} (h : ∀ s, ¬Supplies p s) :
    manifestSections p = .empty := by
  rw [manifestSections]
  cases hf : p.file? "package.json" with
  | none => rfl
  | some f =>
    dsimp only
    cases hsections : Sections.read? f.content with
    | none => rfl
    | some x =>
      obtain ⟨members, hread⟩ := exists_record_of_read? hsections
      obtain ⟨ha, hb, hc⟩ := (read?_eq_some_iff hread).mp hsections
      obtain ⟨a, ha⟩ := exists_gives_of_section? ha
      obtain ⟨b, hb⟩ := exists_gives_of_section? hb
      obtain ⟨c, hc⟩ := exists_gives_of_section? hc
      exact absurd ⟨f, members, hf, hread, ha, hb, hc⟩ (h ⟨a, b, c⟩)

/-- What is supplied are documents. -/
theorem Supplies.isJson {p : Project} {s : Supply} (h : Supplies p s) :
    ∀ es ∈ [s.dependencies, s.devDependencies, s.scripts], ∀ e ∈ es, e.1.IsJson ∧ e.2.IsJson := by
  obtain ⟨f, members, -, hread, hdependencies, hdevDependencies, hscripts⟩ := h
  have hjson := isJson_getD (Json.legible_of_read hread).isJson
  simp only [List.forall_mem_cons, List.not_mem_nil, false_implies, implies_true, and_true]
  exact ⟨hdependencies.isJson (hjson _), hdevDependencies.isJson (hjson _),
    hscripts.isJson (hjson _)⟩

/-! ## Metadata -/

/-- The metadata have the tables that the sections hold, or it is said why they cannot. -/
theorem yields_metadataOf (e : Export) {p : Project} {s : Supply}
    (h : (manifestSections p).Hold s)
    (hjson : ∀ es ∈ [s.dependencies, s.devDependencies, s.scripts],
      ∀ e ∈ es, e.1.IsJson ∧ e.2.IsJson) :
    (metadataOf e p).Yields (fun m => m.supply = s) s.misfits := by
  have htexts (name : String) {v : Value} {es : Entries} (hentries : v.entries? = some es)
      (hes : es ∈ [s.dependencies, s.devDependencies, s.scripts]) :
      ((textMap v).under (.name name)).Yields (fun t => es = textEntries t)
        ((Schema.misfits es).map (Issue.under (.name name))) :=
    (yields_textMap hentries (hjson es hes)).under (.name name)
  have hdependencies := htexts "dependencies" h.dependencies (by simp)
  have hdevDependencies := htexts "dev_dependencies" h.devDependencies (by simp)
  have hscripts := htexts "scripts" h.scripts (by simp)
  refine ((hdependencies.map (Q := fun f : Table → Table → Metadata =>
      ∀ t u, (f t u).supply = ⟨s.dependencies, textEntries t, textEntries u⟩) ?_).apply
    hdevDependencies (Q := fun f : Table → Metadata =>
      ∀ u, (f u).supply = ⟨s.dependencies, s.devDependencies, textEntries u⟩) ?_).apply hscripts ?_
  · rintro t ht _ _
    rw [ht]
    rfl
  · rintro f t hf ht u
    rw [hf, ht]
  · rintro f t hf ht
    rw [hf, ← ht]

/-- A manifest that supplies entries describes the project, unless one of them is a misfit. -/
theorem describe_of_supplies (e : Export) {p : Project} {s : Supply} (h : Supplies p s) :
    (∃ m, describe e p = .ok m ∧ m.supply = s ∧ s.misfits = []) ∨
      describe e p = .error (.metadata s.misfits) ∧ s.misfits ≠ [] := by
  have hyields := yields_metadataOf e (hold_manifestSections h) h.isJson
  rw [describe, h.deepManifest?_eq_none]
  dsimp only
  generalize hmisfits : s.misfits = is at hyields
  generalize metadataOf e p = x at hyields
  cases hyields with
  | ok h => exact .inl ⟨_, rfl, h, rfl⟩
  | bad h => exact .inr ⟨rfl, h⟩

/-- One that supplies nothing describes the project by nothing. -/
theorem describe_of_not_supplies (e : Export) {p : Project} (h : ∀ s, ¬Supplies p s)
    (hdeep : deepManifest? p = none) : ∃ m, describe e p = .ok m ∧ m.supply = .empty := by
  have hhold : (manifestSections p).Hold .empty := by
    rw [manifestSections_eq_empty h]
    exact ⟨rfl, rfl, rfl⟩
  have hyields := yields_metadataOf e hhold (by simp [Supply.empty])
  rw [describe, hdeep]
  dsimp only
  have hnone : Supply.empty.misfits = [] := rfl
  rw [hnone] at hyields
  generalize metadataOf e p = x at hyields
  cases hyields with
  | ok h => exact ⟨_, rfl, h⟩
  | bad h => exact absurd rfl h

/-- **Whether the metadata can be made, and what they say about the manifest.**  They can unless the
manifest is nested too deeply or one of its sections is a dictionary with a key or a value that is
no text.  They have the dictionaries of the manifest as tables, and empty ones if there are none;
otherwise every key and every value that is no text is reported, in order. -/
theorem describe_outcome (e : Export) (p : Project) :
    ((∃ m, describe e p = .ok m) ↔
        deepManifest? p = none ∧ ∀ s, Supplies p s → s.misfits = []) ∧
      match describe e p with
      | .ok m => Supplies p m.supply ∨ (∀ s, ¬Supplies p s) ∧ m.supply = .empty
      | .error (.metadata is) => is ≠ [] ∧ ∃ s, Supplies p s ∧ s.misfits = is
      | .error f => ∃ fault, f = .manifest fault ∧ deepManifest? p = some fault := by
  by_cases hsupplies : ∃ s, Supplies p s
  · obtain ⟨s, hs⟩ := hsupplies
    obtain ⟨m, hm, hsupply, hmisfits⟩ | ⟨herror, hmisfits⟩ := describe_of_supplies e hs
    · rw [hm]
      refine ⟨iff_of_true ⟨m, rfl⟩ ⟨hs.deepManifest?_eq_none, fun s' hs' => ?_⟩, ?_⟩
      · rw [← hs.unique hs', hmisfits]
      · exact .inl (hsupply ▸ hs)
    · rw [herror]
      refine ⟨iff_of_false nofun fun h => hmisfits (h.2 s hs), ?_⟩
      exact ⟨hmisfits, s, hs, rfl⟩
  · rw [not_exists] at hsupplies
    cases hdeep : deepManifest? p with
    | none =>
      obtain ⟨m, hm, hsupply⟩ := describe_of_not_supplies e hsupplies hdeep
      rw [hm]
      refine ⟨iff_of_true ⟨m, rfl⟩ ⟨rfl, fun s hs => absurd hs (hsupplies s)⟩, ?_⟩
      exact .inr ⟨hsupplies, hsupply⟩
    | some fault =>
      have herror : describe e p = .error (.manifest fault) := by rw [describe, hdeep]
      rw [herror]
      exact ⟨iff_of_false nofun fun h => Option.some_ne_none fault h.1, fault, rfl, rfl⟩

/-- A project with a manifest alone. -/
def manifestOnly (content : String) : Project :=
  { name := "notes-api", models := [], endpoints := [], auth := .default
    files := [.config "package.json" "json" content], openApi := .record [], options := .default }

/-- A version that is a number keeps the metadata from being made. -/
theorem describe_numbered :
    describe .default (manifestOnly "\x7b\"dependencies\": \x7b\"a\": 1\x7d\x7d") =
      .error (.metadata [⟨.notText, [.name "dependencies", .name "a"]⟩]) := by
  have hread : Json.read "\x7b\"dependencies\": \x7b\"a\": 1\x7d\x7d".toList =
      .ok (.record [("dependencies", .record [("a", .int 1)])]) := by
    rw [String.toList_ofList]
    rfl
  have hsupplies : Supplies (manifestOnly "\x7b\"dependencies\": \x7b\"a\": 1\x7d\x7d")
      ⟨[(.text "a", .int 1)], [], []⟩ :=
    ⟨_, _, rfl, hread, .mapping _, .falsy rfl, .falsy rfl⟩
  obtain ⟨-, -, -, hmisfits⟩ | ⟨herror, -⟩ := describe_of_supplies .default hsupplies
  · cases hmisfits
  · exact herror

/-! ## Projects that are made -/

section Made

variable {r : Template.Registry} {o : Generation} {models : List Model} {name : Value}
  {moment : Nat} {p : Project}

theorem options_of_isMade (h : IsMade r o models name moment p) : p.options = o := by
  obtain ⟨q, hq, rfl | ⟨fo, rfl⟩⟩ := h
  · exact (parts_of_buildNamed hq).2.1
  · exact (parts_of_buildNamed hq).2.1

/-- A package that is built has the metadata its project has and the instructions it is given. -/
theorem parts_of_build {e : Export} {k : Package} (h : build e p = .ok k) :
    metadataOf e p = .ok k.metadata ∧ k.setupInstructions = instructions e p := by
  rw [build] at h
  cases hm : metadataOf e p with
  | bad is =>
    rw [hm] at h
    cases h
  | ok m =>
    rw [hm] at h
    obtain ⟨fs, -, rfl⟩ := Checked.map_eq_ok_iff.mp h
    exact ⟨rfl, by dsimp only⟩

/-- A package is made where one can be built and the manifest is not nested too deeply. -/
theorem pack_eq_ok_iff {e : Export} {k : Package} :
    pack e p = .ok k ↔ deepManifest? p = none ∧ build e p = .ok k := by
  rw [pack, describe]
  cases deepManifest? p with
  | some fault => exact iff_of_false nofun fun h => Option.some_ne_none fault h.1
  | none =>
    rw [and_iff_right rfl]
    dsimp only
    cases hm : metadataOf e p with
    | bad is =>
      refine iff_of_false nofun fun hk => ?_
      rw [(parts_of_build hk).1] at hm
      cases hm
    | ok m =>
      change (build e p).toExcept.mapError Failure.package = .ok k ↔ _
      cases build e p with
      | bad is => exact iff_of_false nofun nofun
      | ok k' => exact ⟨fun h => by cases h; rfl, fun h => by cases h; rfl⟩

/-- The manifest of a project that is made is not nested too deeply. -/
theorem deepManifest?_of_isMade (h : IsMade r o models name moment p) : deepManifest? p = none := by
  obtain ⟨f, hfile, packageName, hparse⟩ := (isPackable_of_isMade h).manifest
  cases hread : Json.read f.content.toList with
  | ok v => exact deepManifest?_of_read hfile hread
  | error fault =>
    rw [Json.parse?, hread] at hparse
    cases hparse

/-- **The metadata of a project that is made have the tables of its options**, whether its files
were formatted or not. -/
theorem exists_pack_of_isMade (h : IsMade r o models name moment p) (e : Export) :
    ∃ m k, describe e p = .ok m ∧ pack e p = .ok k ∧ k.metadata = m ∧
      m.dependencies = dependencies o ∧ m.devDependencies = devDependencies o ∧
      m.scripts = scripts o := by
  have hp := isPackable_of_isMade h
  obtain ⟨f, hfile, packageName, hparse⟩ := hp.manifest
  obtain ⟨m, hm, hdependencies, hdevDependencies, hscripts⟩ := exists_metadataOf e hfile hparse
  obtain ⟨k, hk, -⟩ := exists_packs hp e
  have hdeep := deepManifest?_of_isMade h
  have hdescribe : describe e p = .ok m := by
    rw [describe, hdeep, hm]
    rfl
  have hmetadata : k.metadata = m := by
    rw [(parts_of_build hk).1] at hm
    exact Checked.ok.inj hm
  rw [options_of_isMade h] at hdependencies hdevDependencies hscripts
  exact ⟨m, k, hdescribe, pack_eq_ok_iff.mpr ⟨hdeep, hk⟩, hmetadata, hdependencies,
    hdevDependencies, hscripts⟩

/-- The name of this project has to be escaped in its manifest, which is then formatted. -/
theorem exists_pack_of_isMade_quoted :
    let name := "the \"notes\" \\ café"
    ∃ p, IsMade Template.Library.registry .default [named "Note"] (.text name) 0
        (formatted .default p) ∧
      ∃ m k, describe .default (formatted .default p) = .ok m ∧
        pack .default (formatted .default p) = .ok k ∧ k.metadata = m ∧
        m.dependencies = dependencies .default ∧ m.devDependencies = devDependencies .default ∧
        m.scripts = scripts .default := by
  intro name
  have hclashes : ¬Clashes .default [named "Note"] := by unfold Clashes; decide
  have hnames : ([named "Note"].map Model.routeName).Nodup := List.nodup_singleton _
  obtain ⟨p, hp, -⟩ := exists_build_of_not_clashes rfl hnames (by decide) hclashes (some name) 0
  have hnamed : buildNamed Template.Library.registry .default [named "Note"] (.text name) 0 =
      .ok p := by
    have htruthy : ¬(!(Value.text name).isTruthy) = true := by decide
    rw [buildNamed, if_neg htruthy]
    exact hp
  have hmade : IsMade Template.Library.registry .default [named "Note"] (.text name) 0
      (formatted .default p) := ⟨p, hnamed, .inr ⟨.default, rfl⟩⟩
  exact ⟨p, hmade, exists_pack_of_isMade hmade .default⟩

end Made

end Scaffold.Package
