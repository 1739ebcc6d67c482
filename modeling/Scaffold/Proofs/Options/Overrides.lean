import Scaffold.Job.Basic
import Scaffold.Proofs.Options.Omission

/-!
# Proofs/Options/Overrides — options that are overridden

An override takes both spellings of its option out of a section and puts its own value under the
name of the option (`part?_put_cleared`), so after all of them a section holds the overrides, and
what it held of the options that have none (`part?_foldl`, `Meets.member?_override`).  Whatever it
held of the others is gone: their values are not looked at, and no spelling is left over.  So if the
rest of the section gives options, the section with its overrides gives these, but for the options
that are overridden (`Job.coerce_merged`).
-/

namespace Scaffold.Document.Value

/-! ## Mappings with a member set -/

variable {v x : Value} {n m : String}

theorem keys_eq_map_parts (v : Value) : v.keys = v.parts.map (·.1) := by
  cases v with
  | record ms => rw [keys_record, parts, List.map_map]; rfl
  | table es => exact keys_table es
  | _ => rfl

theorem member?_eq_part? (h : ∀ x, v.member? n = some x → x.isScalar = true) :
    v.member? n = v.part? n := by
  cases hmember : v.member? n with
  | none => exact (member?_eq_none_iff_part?.mp hmember).symm
  | some x => exact ((member?_eq_some_iff (h x hmember)).mp hmember).symm

/-- What stands under a name in two mappings is the same member of both if it has no parts. -/
theorem member?_congr {w : Value} (h : v.part? n = w.part? n)
    (hw : ∀ x, w.member? n = some x → x.isScalar = true) : v.member? n = w.member? n := by
  cases hmember : w.member? n with
  | none => rw [member?_eq_none_iff_part?, h, ← member?_eq_none_iff_part?, hmember]
  | some x =>
    rw [member?_eq_some_iff (hw x hmember), h, ← member?_eq_some_iff (hw x hmember), hmember]

/-! ### A member that is set -/

theorem same_text_iff {v : Value} : v.same (text n) = true ↔ v = text n := by
  cases v <;> simp [same]

/-- Putting a member into a mapping puts it among its parts. -/
theorem parts_putMember (hv : v.isMapping = true) (n : String) (x : Value) :
    (v.putMember n x).parts = putEntry (text n) x v.parts := by
  cases v with
  | record ms =>
    clear hv
    change (record (Members.put n x ms)).parts = putEntry (text n) x (record ms).parts
    induction ms with
    | nil => rfl
    | cons e ms ih =>
      obtain ⟨k, y⟩ := e
      rw [Members.put]
      by_cases hk : k = n
      · rw [if_pos hk]
        simp [parts, putEntry, same, hk]
      · rw [if_neg hk]
        simpa [parts, putEntry, same, hk] using ih
  | table es => rfl
  | _ => cases hv

/-- What was put is found, and all else is found as before. -/
theorem find?_putEntry (es : List (Value × Value)) (n m : String) (x : Value) :
    ((putEntry (text n) x es).find? fun e => e.1.text? = some m).map (·.2) =
      if m = n then some x else (es.find? fun e => e.1.text? = some m).map (·.2) := by
  induction es with
  | nil =>
    by_cases hm : m = n
    · simp [putEntry, text?, hm]
    · simp [putEntry, text?, hm, Ne.symm hm]
  | cons e es ih =>
    obtain ⟨k, y⟩ := e
    rw [putEntry]
    by_cases hk : k = text n
    · rw [if_pos (same_text_iff.mpr hk)]
      subst hk
      by_cases hm : m = n
      · simp [text?, hm]
      · simp [text?, hm, Ne.symm hm]
    · rw [if_neg (mt same_text_iff.mp hk), List.find?_cons, List.find?_cons]
      by_cases hkm : k.text? = some m
      · have hm : m ≠ n := fun heq => hk (text?_eq_some_iff.mp (heq ▸ hkm))
        simp [hkm, hm]
      · simpa [hkm] using ih

theorem part?_putMember (hv : v.isMapping = true) (n m : String) (x : Value) :
    (v.putMember n x).part? m = if m = n then some x else v.part? m := by
  rw [part?, parts_putMember hv, find?_putEntry, part?]

/-- One key at most is new. -/
theorem mem_keys_putEntry {k y : Value} {es : List (Value × Value)}
    (h : k ∈ (putEntry y x es).map (·.1)) : k = y ∨ k ∈ es.map (·.1) := by
  induction es with
  | nil => exact .inl (List.mem_singleton.mp h)
  | cons e es ih =>
    rw [putEntry] at h
    split at h
    · exact .inr h
    · obtain rfl | h := List.mem_cons.mp h
      · exact .inr List.mem_cons_self
      · exact (ih h).imp_right (List.mem_cons_of_mem _)

theorem mem_keys_putMember {k : Value} (hv : v.isMapping = true)
    (h : k ∈ (v.putMember n x).keys) : k = text n ∨ k ∈ v.keys := by
  rw [keys_eq_map_parts, parts_putMember hv] at h
  rw [keys_eq_map_parts]
  exact mem_keys_putEntry h

theorem isMapping_putMember (v : Value) (n : String) (x : Value) :
    (v.putMember n x).isMapping = v.isMapping := by
  cases v <;> rfl

/-! ### Members that do not refer to their mapping -/

theorem isMapping_ofEntries (es : List (Value × Value)) : (ofEntries es).isMapping = true := by
  rw [ofEntries]
  split <;> rfl

theorem parts_ofEntries (es : List (Value × Value)) : (ofEntries es).parts = es := by
  rw [ofEntries]
  split
  · rename_i ms hms
    rw [parts]
    induction es generalizing ms with
    | nil =>
      cases hms
      rfl
    | cons e es ih =>
      simp only [List.mapM_cons, Option.bind_eq_bind, Option.bind_eq_some_iff, Option.pure_def,
        Option.map_eq_some_iff, Option.some.injEq, text?_eq_some_iff] at hms
      obtain ⟨_, ⟨k, hk, rfl⟩, ms, hrest, rfl⟩ := hms
      rw [List.map_cons, ih ms hrest]
      exact congrArg (· :: es) (Prod.ext hk.symm rfl)
  · rfl

theorem exists_separated_eq (hv : v.isMapping = true) :
    ∃ es, v.entries? = some es ∧ v.separated = ofEntries es := by
  cases v <;> first | exact ⟨_, rfl, rfl⟩ | cases hv

theorem isMapping_separated (hv : v.isMapping = true) : v.separated.isMapping = true := by
  obtain ⟨es, -, hes⟩ := exists_separated_eq hv
  rw [hes, isMapping_ofEntries]

theorem keys_separated (hv : v.isMapping = true) : v.separated.keys = v.keys := by
  obtain ⟨es, hentries, hes⟩ := exists_separated_eq hv
  rw [hes, keys_eq_map_parts, parts_ofEntries, keys, hentries]
  rfl

/-- A separated mapping has the parts that the mapping has members. -/
theorem part?_separated (hv : v.isMapping = true) (n : String) :
    v.separated.part? n = v.member? n := by
  obtain ⟨es, hentries, hes⟩ := exists_separated_eq hv
  rw [hes, part?, parts_ofEntries]
  cases v with
  | record ms =>
    cases hentries
    exact find?_map_text (fun k x => x.takenOut fun part => record (Members.put k part ms)) ms n
  | table es =>
    cases hentries
    rw [List.find?_map, Option.map_map]
    change Option.map _ (es.find? fun e => e.1.text? = some n) = _
    refine Option.map_congr fun e he => ?_
    have hkey : e.1 = text n := text?_eq_some_iff.mp (by simpa using List.find?_some he)
    rw [Function.comp_apply]
    dsimp only
    rw [hkey]
  | _ => cases hv

end Scaffold.Document.Value

namespace Scaffold.Document.Members

theorem has_iff {ms : Members} {n : String} : ms.has n = true ↔ n ∈ ms.map (·.1) := by
  rw [has, Option.isSome_iff_ne_none, ne_eq, List.lookup_eq_none_iff]
  simp only [bne_iff_ne, ne_eq, not_forall, not_not, List.mem_map, exists_prop]
  exact exists_congr fun e => and_congr_right fun _ => eq_comm

end Scaffold.Document.Members

namespace Scaffold.Options

open Document Schema

/-! ## Overrides, one after the other -/

namespace Section

variable {α : Type} {s : Section α} {v base : Value} {V : Members} {k : Key} {n m : String}

/-- The spellings of the options that have overrides. -/
def spellings (s : Section α) (V : Members) : List String :=
  (s.keys.filter fun k => V.has k.name).flatMap Key.spellings

/-- Overrides of options of a section, each option by its name. -/
structure Names (s : Section α) (V : Members) : Prop where
  nodup : (V.map (·.1)).Nodup
  named : ∀ n ∈ V.map (·.1), ∃ k ∈ s.keys, k.name = n

theorem Names.tail {e : String × Value} (h : s.Names (e :: V)) : s.Names V :=
  ⟨(List.nodup_cons.mp h.nodup).2, fun n hn => h.named n (List.mem_cons_of_mem _ hn)⟩

theorem mem_spellings : n ∈ s.spellings V ↔ ∃ k ∈ s.keys, V.has k.name ∧ n ∈ k.spellings := by
  simp [spellings, and_assoc]

/-- A setting is found under its name. -/
theorem keyOf?_name (hapart : Apart s.keys) (hk : k ∈ s.keys) : s.keyOf? k.name = some k := by
  cases hfind : s.keyOf? k.name with
  | none => exact absurd (List.find?_eq_none.mp hfind k hk) (by simp)
  | some k' =>
    have hname : k'.name = k.name ∨ k'.external = some k.name := by
      simpa using List.find?_some hfind
    have hspelled : k.name ∈ k'.spellings := by
      obtain h | h := hname <;> simp [Key.spellings, Key.spelling, h]
    exact congrArg some
      (hapart k' (List.mem_of_find?_eq_some hfind) k hk _ hspelled k.name_mem_spellings)

/-- Clearing the way for a member leaves spellings out. -/
theorem exists_cleared_eq (s : Section α) (n : String) (v : Value) :
    ∃ ns, s.cleared n v = v.without ns := by
  rw [cleared]
  split
  · rename_i k _
    exact ⟨[k.name, k.spelling], rfl⟩
  · exact ⟨[], rfl⟩

theorem isMapping_cleared (n : String) (v : Value) :
    (s.cleared n v).isMapping = v.isMapping := by
  obtain ⟨ns, hns⟩ := s.exists_cleared_eq n v
  rw [hns, Value.isMapping_without]

/-- Overridden options are a mapping. -/
theorem isMapping_override (V : Members) (h : base.isMapping = true) :
    (s.override base V).isMapping = true := by
  have hrun (v : Value) : (V.foldl (fun v e => (s.cleared e.1 v).putMember e.1 e.2) v).isMapping =
      v.isMapping := by
    induction V generalizing v with
    | nil => rfl
    | cons e V ih => rw [List.foldl_cons, ih, Value.isMapping_putMember, isMapping_cleared]
  exact (hrun _).trans (Value.isMapping_separated h)

/-- Overrides only bring in keys that are names. -/
theorem mem_keys_foldl {key : Value} (hv : v.isMapping = true)
    (h : key ∈ (V.foldl (fun v e => (s.cleared e.1 v).putMember e.1 e.2) v).keys) :
    (∃ n, key = .text n) ∨ key ∈ v.keys := by
  induction V generalizing v with
  | nil => exact .inr h
  | cons e V ih =>
    have hcleared : (s.cleared e.1 v).isMapping = true := by rw [isMapping_cleared, hv]
    obtain htext | hkey := ih (by rw [Value.isMapping_putMember, hcleared]) h
    · exact .inl htext
    · obtain rfl | hkey := Value.mem_keys_putMember hcleared hkey
      · exact .inl ⟨_, rfl⟩
      · obtain ⟨ns, hns⟩ := s.exists_cleared_eq e.1 v
        rw [hns] at hkey
        exact .inr (Value.mem_keys_without.mp hkey).1

section Apart

variable (hapart : Apart s.keys)

include hapart

theorem cleared_name (hk : k ∈ s.keys) (v : Value) :
    s.cleared k.name v = v.without [k.name, k.spelling] := by
  rw [cleared, keyOf?_name hapart hk]
  rfl

/-- An override names a setting exactly if all spellings of the setting are to be left out. -/
theorem mem_spellings_iff_has (hk : k ∈ s.keys) (hn : n ∈ k.spellings) :
    n ∈ s.spellings V ↔ V.has k.name = true := by
  rw [mem_spellings]
  constructor
  · rintro ⟨k', hk', hhas, hn'⟩
    rwa [hapart k hk k' hk' n hn hn']
  · intro hhas
    exact ⟨k, hk, hhas, hn⟩

/-- **One override**: its option has the value under its name only, and nothing else changes. -/
theorem part?_put_cleared (hk : k ∈ s.keys) (hv : v.isMapping = true) (x : Value) (m : String) :
    ((s.cleared k.name v).putMember k.name x).part? m =
      if m ∈ k.spellings then if m = k.name then some x else none else v.part? m := by
  rw [cleared_name hapart hk, Value.part?_putMember (by rw [Value.isMapping_without, hv]),
    Value.part?_without]
  by_cases hname : m = k.name
  · rw [if_pos hname, if_pos (hname ▸ k.name_mem_spellings), if_pos hname]
  · simp [Key.spellings, hname]

/-- Of the spellings of a key only its name can be that of an override. -/
theorem Names.lookup_eq_none (hV : s.Names V) (hk : k ∈ s.keys) (hn : n ∈ k.spellings)
    (hne : n ≠ k.name) : V.lookup n = none := by
  by_contra hfound
  obtain ⟨k', hk', rfl⟩ := hV.named n (Members.has_iff.mp (Option.isSome_iff_ne_none.mpr hfound))
  exact hne (congrArg Key.name (hapart k' hk' k hk _ k'.name_mem_spellings hn))

theorem mem_spellings_cons {e : String × Value} (hk : k ∈ s.keys) (he : k.name = e.1) :
    n ∈ s.spellings (e :: V) ↔ n ∈ k.spellings ∨ n ∈ s.spellings V := by
  have hkey {k' : Key} (hk' : k' ∈ s.keys) : k'.name = e.1 ↔ k' = k := by
    refine ⟨fun h => ?_, fun h => h ▸ he⟩
    exact hapart k' hk' k hk e.1 (h ▸ k'.name_mem_spellings) (he ▸ k.name_mem_spellings)
  simp only [mem_spellings, Members.has_iff, List.map_cons, List.mem_cons]
  constructor
  · rintro ⟨k', hk', hname | hname, hn⟩
    · rw [(hkey hk').mp hname] at hn
      exact .inl hn
    · exact .inr ⟨k', hk', hname, hn⟩
  · rintro (hn | ⟨k', hk', hname, hn⟩)
    · exact ⟨k, hk, .inl he, hn⟩
    · exact ⟨k', hk', .inr hname, hn⟩

/-- **A run of overrides**: what stands under a spelling of an option that has one is the override
under the name, and nothing else changes. -/
theorem part?_foldl (hV : s.Names V) (hv : v.isMapping = true) (m : String) :
    (V.foldl (fun v e => (s.cleared e.1 v).putMember e.1 e.2) v).part? m =
      if m ∈ s.spellings V then V.lookup m else v.part? m := by
  induction V generalizing v with
  | nil => simp [spellings, Members.has]
  | cons e V ih =>
    have hfresh := (List.nodup_cons.mp hV.nodup).1
    obtain ⟨k, hk, hname⟩ := hV.named e.1 List.mem_cons_self
    have hmapping : ((s.cleared k.name v).putMember k.name e.2).isMapping = true := by
      rw [Value.isMapping_putMember, isMapping_cleared, hv]
    rw [List.foldl_cons, ← hname, ih hV.tail hmapping, part?_put_cleared hapart hk hv,
      List.lookup_cons, ← hname]
    simp only [mem_spellings_cons hapart hk hname]
    by_cases hm : m ∈ k.spellings
    · have hold : m ∉ s.spellings V := by
        rw [mem_spellings_iff_has hapart hk hm, Members.has_iff, hname]
        exact hfresh
      rw [if_neg hold, if_pos hm, if_pos (Or.inl hm)]
      by_cases heq : m = k.name
      · rw [if_pos heq, beq_iff_eq.mpr heq]
      · rw [if_neg heq, beq_false_of_ne heq]
        exact (hV.tail.lookup_eq_none hapart hk hm heq).symm
    · have hne : m ≠ k.name := fun h => hm (h ▸ k.name_mem_spellings)
      rw [if_neg hm, beq_false_of_ne hne]
      simp only [hm, false_or]

end Apart

/-! ## Sections that are overridden -/

/-- A mapping and overrides of options; neither they nor what they leave of it hold a value with
parts. -/
structure Meets (s : Section α) (base : Value) (V : Members) : Prop extends s.Names V where
  apart : Apart s.keys
  mapping : base.isMapping = true
  scalar : ∀ n x, (Value.record V).member? n = some x → x.isScalar = true
  scalar_without : ∀ n x, (base.without (s.spellings V)).member? n = some x → x.isScalar = true

namespace Meets

variable (h : s.Meets base V)

include h

/-- **What a section holds under its overrides**: the overrides where it has some, and otherwise
what it held. -/
theorem member?_override (n : String) : (s.override base V).member? n =
    if n ∈ s.spellings V then (Value.record V).member? n
    else (base.without (s.spellings V)).member? n := by
  have hpart := part?_foldl h.apart h.toNames (Value.isMapping_separated h.mapping) n
  rw [Value.part?_separated h.mapping] at hpart
  split at hpart
  · rename_i hn
    rw [if_pos hn]
    exact Value.member?_congr (hpart.trans (Value.part?_record V n).symm) (h.scalar n)
  · rename_i hn
    rw [if_neg hn]
    have hkept : base.part? n = (base.without (s.spellings V)).part? n := by
      rw [Value.part?_without, if_neg hn]
    refine Value.member?_congr (hpart.trans ?_) (h.scalar_without n)
    rw [Value.member?_congr hkept (h.scalar_without n), Value.member?_eq_part? (h.scalar_without n)]

/-- What is found for a setting is the override, and else what the base has under spellings that no
override names. -/
theorem find?_override (hk : k ∈ s.keys) : k.find? (s.override base V) =
    if V.has k.name then k.find? (.record V) else k.find? (base.without (s.spellings V)) := by
  have hmember {n : String} (hn : n ∈ k.spellings) : (s.override base V).member? n =
      if V.has k.name then (Value.record V).member? n
      else (base.without (s.spellings V)).member? n := by
    rw [h.member?_override]
    simp only [mem_spellings_iff_has h.apart hk hn]
  rw [Key.find?, hmember k.spelling_mem_spellings, hmember k.name_mem_spellings]
  by_cases hhas : V.has k.name = true
  · rw [if_pos hhas, if_pos hhas, if_pos hhas]
    rfl
  · rw [if_neg hhas, if_neg hhas, if_neg hhas]
    rfl

/-- So a setting is read from the override if there is one, and from the base otherwise. -/
theorem optional_override {β : Type} {d a b : β} {read : Value → Checked β} (hk : k ∈ s.keys)
    (ha : optional (.record V) k d read = .ok a)
    (hb : optional (base.without (s.spellings V)) k d read = .ok b) :
    optional (s.override base V) k d read = .ok (if V.has k.name then a else b) := by
  have hfind := h.find?_override hk
  by_cases hhas : V.has k.name = true
  · rw [if_pos hhas] at hfind ⊢
    rwa [Schema.optional, hfind]
  · rw [if_neg hhas] at hfind ⊢
    rwa [Schema.optional, hfind]

/-- A choice outside its list that an override replaces is not met. -/
theorem unsupported?_override (hV : s.unsupported? (.record V) = none)
    (hbase : s.unsupported? (base.without (s.spellings V)) = none) :
    s.unsupported? (s.override base V) = none := by
  rw [unsupported?, List.findSome?_eq_none_iff] at hV hbase ⊢
  rintro ⟨option, allowed⟩ hmem
  dsimp only
  rw [h.member?_override]
  split_ifs
  · exact hV _ hmem
  · exact hbase _ hmem

/-- No spelling of an option that has an override is left over. -/
theorem closed_override (hV : closed (.record V) s.keys = .ok ())
    (hbase : closed (base.without (s.spellings V)) s.keys = .ok ()) :
    closed (s.override base V) s.keys = .ok () := by
  refine closed_eq_ok_iff.mpr fun key hkey => ?_
  have htext : ∃ n, key = .text n := by
    refine (mem_keys_foldl (Value.isMapping_separated h.mapping) hkey).elim id fun hold => ?_
    by_contra hother
    rw [Value.keys_separated h.mapping] at hold
    have hkept : key ∈ (base.without (s.spellings V)).keys :=
      Value.mem_keys_without.mpr ⟨hold, fun n _ h => hother ⟨n, Value.text?_eq_some_iff.mp h⟩⟩
    obtain ⟨n, -, hn⟩ := closed_eq_ok_iff.mp hbase key hkept
    exact hother ⟨n, hn⟩
  obtain ⟨n, rfl⟩ := htext
  refine ⟨n, ?_, rfl⟩
  have hmember : (s.override base V).member? n ≠ none :=
    fun hnone => Value.member?_eq_none_iff.mp hnone hkey
  rw [h.member?_override] at hmember
  split at hmember
  · rename_i hn
    obtain ⟨k, hk, x, hfound⟩ := exists_find?_of_closed hV hmember
    have hhas := (mem_spellings_iff_has h.apart hk (Key.mem_spellings_of_find? hfound)).mp hn
    exact List.mem_filterMap.mpr ⟨k, hk, by rw [h.find?_override hk, if_pos hhas, hfound]; rfl⟩
  · rename_i hn
    obtain ⟨k, hk, x, hfound⟩ := exists_find?_of_closed hbase hmember
    have hhas := mt (mem_spellings_iff_has h.apart hk (Key.mem_spellings_of_find? hfound)).mpr hn
    exact List.mem_filterMap.mpr ⟨k, hk, by rw [h.find?_override hk, if_neg hhas, hfound]; rfl⟩

end Meets

/-- Overrides of options of a section, which by themselves give some options. -/
structure Overrides (s : Section α) (V : Members) (w : α) : Prop extends s.Names V where
  valid : s.coerce (.record V) = .ok w

theorem coerce_eq_ok_iff_of_isMapping {o : α} (h : v.isMapping = true) :
    s.coerce v = .ok o ↔ s.unsupported? v = none ∧ s.read v = .ok o := by
  rw [coerce_eq_ok_iff, or_iff_right, and_iff_right h]
  rintro ⟨rfl, -⟩
  cases h

end Section

/-- Options of which those that have overrides are those of the overrides. -/
def Generation.overridden (o : Generation) (V : Members) (w : Generation) : Generation where
  framework := if V.has "framework" then w.framework else o.framework
  database := if V.has "database" then w.database else o.database
  authentication := if V.has "authentication" then w.authentication else o.authentication
  language := if V.has "language" then w.language else o.language
  includeTests := if V.has "include_tests" then w.includeTests else o.includeTests
  includeDocumentation :=
    if V.has "include_documentation" then w.includeDocumentation else o.includeDocumentation

/-- Options of which those that have overrides are those of the overrides. -/
def Export.overridden (o : Export) (V : Members) (w : Export) : Export where
  format := if V.has "format" then w.format else o.format
  includeTests := if V.has "include_tests" then w.includeTests else o.includeTests
  includeDocumentation :=
    if V.has "include_documentation" then w.includeDocumentation else o.includeDocumentation
  template := if V.has "template" then w.template else o.template

/-! ## The options of a job -/

section Merged

open Section

variable {base : Value} {V : Members} (hbase : base.isMapping = true)

include hbase

/-- Overridden generation options are read with the overrides in place. -/
theorem coerce_generation_override {w o : Generation} (hV : generationSection.Overrides V w)
    (h : generationSection.coerce (base.without (generationSection.spellings V)) = .ok o) :
    generationSection.coerce (generationSection.override base V) = .ok (o.overridden V w) := by
  obtain ⟨hu, hread⟩ := (coerce_eq_ok_iff_of_isMapping rfl).mp hV.valid
  obtain ⟨hu', hread'⟩ :=
    (coerce_eq_ok_iff_of_isMapping (by rw [Value.isMapping_without, hbase])).mp h
  obtain ⟨-, hframework, hdatabase, hauthentication, hlanguage, htests, hdocumentation, hclosed⟩ :=
    generation_read_eq_ok_iff.mp (show Generation.read (.record V) = .ok w from hread)
  obtain ⟨-, hframework', hdatabase', hauthentication', hlanguage', htests', hdocumentation',
    hclosed'⟩ := generation_read_eq_ok_iff.mp (show Generation.read _ = .ok o from hread')
  have hmeets : generationSection.Meets base V :=
    ⟨hV.toNames, by decide, hbase,
      fun _ _ => isScalar_of_closed hclosed (Generation.isScalar_of_read hread),
      fun _ _ => isScalar_of_closed hclosed' (Generation.isScalar_of_read hread')⟩
  have hmapping := isMapping_override (s := generationSection) V hbase
  refine (coerce_eq_ok_iff_of_isMapping hmapping).mpr
    ⟨hmeets.unsupported?_override hu hu', generation_read_eq_ok_iff.mpr ⟨hmapping, ?_⟩⟩
  exact ⟨hmeets.optional_override (k := .plain "framework") (by decide) hframework hframework',
    hmeets.optional_override (k := .plain "database") (by decide) hdatabase hdatabase',
    hmeets.optional_override (k := .plain "authentication") (by decide) hauthentication
      hauthentication',
    hmeets.optional_override (k := .plain "language") (by decide) hlanguage hlanguage',
    hmeets.optional_override (by decide) htests htests',
    hmeets.optional_override (by decide) hdocumentation hdocumentation',
    hmeets.closed_override hclosed hclosed'⟩

/-- So are overridden export options. -/
theorem coerce_export_override {w o : Export} (hV : exportSection.Overrides V w)
    (h : exportSection.coerce (base.without (exportSection.spellings V)) = .ok o) :
    exportSection.coerce (exportSection.override base V) = .ok (o.overridden V w) := by
  obtain ⟨hu, hread⟩ := (coerce_eq_ok_iff_of_isMapping rfl).mp hV.valid
  obtain ⟨hu', hread'⟩ :=
    (coerce_eq_ok_iff_of_isMapping (by rw [Value.isMapping_without, hbase])).mp h
  obtain ⟨-, hformat, htests, hdocumentation, htemplate, hclosed⟩ :=
    export_read_eq_ok_iff.mp (show Export.read (.record V) = .ok w from hread)
  obtain ⟨-, hformat', htests', hdocumentation', htemplate', hclosed'⟩ :=
    export_read_eq_ok_iff.mp (show Export.read _ = .ok o from hread')
  have hmeets : exportSection.Meets base V :=
    ⟨hV.toNames, by decide, hbase,
      fun _ _ => isScalar_of_closed hclosed (Export.isScalar_of_read hread),
      fun _ _ => isScalar_of_closed hclosed' (Export.isScalar_of_read hread')⟩
  have hmapping := isMapping_override (s := exportSection) V hbase
  refine (coerce_eq_ok_iff_of_isMapping hmapping).mpr
    ⟨hmeets.unsupported?_override hu hu', export_read_eq_ok_iff.mpr ⟨hmapping, ?_⟩⟩
  exact ⟨hmeets.optional_override (k := .plain "format") (by decide) hformat hformat',
    hmeets.optional_override (by decide) htests htests',
    hmeets.optional_override (by decide) hdocumentation hdocumentation',
    hmeets.optional_override (k := .plain "template") (by decide) htemplate htemplate',
    hmeets.closed_override hclosed hclosed'⟩

end Merged

end Scaffold.Options

namespace Scaffold.Job

open Document Options

/-- **Overrides win whatever the spelling**: if a section without all spellings of the options that
have overrides gives options, the section merged with its overrides gives these, with just the
overridden ones replaced. -/
theorem coerce_merged :
    (∀ (base : Value) (V : Members) (w o : Generation), base.isMapping = true →
      generationSection.Overrides V w →
      generationSection.coerce (base.without (generationSection.spellings V)) = .ok o →
      ∃ v, merged generationSection base V = .ok v ∧
        generationSection.coerce v = .ok (o.overridden V w)) ∧
    ∀ (base : Value) (V : Members) (w o : Export), base.isMapping = true →
      exportSection.Overrides V w →
      exportSection.coerce (base.without (exportSection.spellings V)) = .ok o →
      ∃ v, merged exportSection base V = .ok v ∧ exportSection.coerce v = .ok (o.overridden V w) :=
  ⟨fun _ _ _ _ hbase hV h => ⟨_, if_pos hbase, coerce_generation_override hbase hV h⟩,
    fun _ _ _ _ hbase hV h => ⟨_, if_pos hbase, coerce_export_override hbase hV h⟩⟩

/-- Tests in both spellings, neither of them a truth value, and a database that is none; an archive
format that is none. -/
theorem coerce_merged_malformed :
    (∃ v, merged generationSection (.record [("include_tests", .text "perhaps"),
          ("includeTests", .list []), ("database", .text "oracle"), ("framework", .text "koa")])
        [("include_tests", .bool false), ("database", .text "mysql")] = .ok v ∧
      generationSection.coerce v = .ok ⟨.made .koa, .made .mysql, .leftOpen .jwt,
        .leftOpen .typescript, false, true⟩) ∧
    ∃ v, merged exportSection (.record [("format", .text "rar"), ("includeTests", .bool false)])
        [("format", .text "tar")] = .ok v ∧
      exportSection.coerce v = .ok ⟨.made .tar, false, true, .leftOpen .basic⟩ :=
  ⟨coerce_merged.1 _ _
      ⟨.leftOpen .express, .made .mysql, .leftOpen .jwt, .leftOpen .typescript, false, true⟩
      ⟨.made .koa, .leftOpen .postgresql, .leftOpen .jwt, .leftOpen .typescript, true, true⟩
      rfl ⟨⟨by decide, by decide⟩, rfl⟩ rfl,
    coerce_merged.2 _ _ ⟨.made .tar, true, true, .leftOpen .basic⟩
      ⟨.leftOpen .zip, false, true, .leftOpen .basic⟩ rfl ⟨⟨by decide, by decide⟩, rfl⟩ rfl⟩

end Scaffold.Job
