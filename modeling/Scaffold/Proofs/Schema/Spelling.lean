import Mathlib.Data.List.Nodup
import Mathlib.Data.List.Pairwise
import Mathlib.Data.Option.Basic
import Scaffold.Proofs.Validation.Reading

/-!
# Proofs/Schema/Spelling — members under either of their spellings

An object is *respelled* by writing some of its members under the name of their key instead of the
spelling that documents use.  As long as no two keys share a spelling and the object does not have
the name already, every key finds what it found before (`Respelled.value?_rel`), so an entity reads
from the one object what it reads from the other.
-/

namespace Scaffold.Schema

open Document

variable {α : Type} {v v' x : Value} {k : Key} {read : Value → Checked α} {a default : α}

/-! ## Keys -/

namespace Key

/-- The names of a key: its own, and the one that documents use, if they use another. -/
def names (k : Key) : List String := k.name :: k.external.toList

/-- What a key finds, under whichever spelling. -/
def value? (k : Key) (v : Value) : Option Value := (k.find? v).map (·.2)

/-- A value stands under the spelling, or else under the name. -/
theorem value?_eq (k : Key) (v : Value) :
    k.value? v = (v.member? k.spelling).or (v.member? k.name) := by
  rw [value?, find?]
  cases v.member? k.spelling with
  | some x => rfl
  | none =>
    rw [Option.map_map]
    exact Option.map_id'

/-- No spelling belongs to two keys, or twice to one. -/
def Apart (keys : List Key) : Prop := (keys.flatMap names).Nodup

instance (keys : List Key) : Decidable (Apart keys) := inferInstanceAs (Decidable (List.Nodup _))

/-- The spelling that stands for `s` when the chosen keys are written by their names. -/
def rename (chosen : List Key) (s : String) : String :=
  ((chosen.find? fun k => k.external = some s).map (·.name)).getD s

variable {keys chosen : List Key} {s : String}

/-- Keys that share a spelling are one. -/
theorem Apart.eq (h : Apart keys) {k k' : Key} (hk : k ∈ keys) (hk' : k' ∈ keys)
    (hs : s ∈ k.names) (hs' : s ∈ k'.names) : k = k' := by
  by_contra hne
  obtain ⟨-, hdisjoint⟩ := List.nodup_flatMap.mp h
  have hsymm : Std.Symm (Function.onFun List.Disjoint names) :=
    ⟨fun _ _ hd _ hs hs' => hd hs' hs⟩
  exact hdisjoint.forall hk hk' hne hs hs'

/-- A spelling of one key is the name of no other. -/
theorem Apart.name_ne (h : Apart keys) (hk : k ∈ keys) (hs : k.external = some s) :
    s ≠ k.name := by
  rintro rfl
  have hnodup := (List.nodup_flatMap.mp h).1 k hk
  rw [names, hs] at hnodup
  exact (List.nodup_cons.mp hnodup).1 List.mem_cons_self

/-- A spelling stays, or it is that of a chosen key. -/
theorem rename_cases (chosen : List Key) (s : String) :
    (∃ k ∈ chosen, k.external = some s ∧ rename chosen s = k.name) ∨
      (∀ k ∈ chosen, k.external ≠ some s) ∧ rename chosen s = s := by
  rw [rename]
  cases hfind : chosen.find? fun k => k.external = some s with
  | some k =>
    have hexternal : k.external = some s := by simpa using List.find?_some hfind
    exact .inl ⟨k, List.mem_of_find?_eq_some hfind, hexternal, rfl⟩
  | none =>
    refine .inr ⟨fun k hk => ?_, rfl⟩
    simpa using List.find?_eq_none.mp hfind k hk

section Rename

variable (hapart : Apart keys) (hchosen : chosen ⊆ keys) (hk : k ∈ keys)
include hapart hchosen hk

/-- What is renamed to a name was the name, or the spelling of a chosen key. -/
theorem rename_eq_name_iff :
    rename chosen s = k.name ↔ s = k.name ∨ k ∈ chosen ∧ k.external = some s := by
  obtain ⟨k', hk', hexternal, hrename⟩ | ⟨hnone, hrename⟩ := rename_cases chosen s
  · have hs : s ∈ k'.names := by simp [names, hexternal]
    rw [hrename]
    constructor
    · intro hname
      obtain rfl := hapart.eq (hchosen hk') hk List.mem_cons_self (hname ▸ List.mem_cons_self)
      exact .inr ⟨hk', hexternal⟩
    · rintro (rfl | ⟨-, hs'⟩)
      · obtain rfl := hapart.eq (hchosen hk') hk hs List.mem_cons_self
        rfl
      · rw [hapart.eq (hchosen hk') hk hs (by simp [names, hs'])]
  · rw [hrename]
    refine ⟨.inl, ?_⟩
    rintro (hs | ⟨hmem, hs⟩)
    · exact hs
    · exact absurd hs (hnone k hmem)

/-- What is left under a spelling belongs to no chosen key. -/
theorem rename_eq_external_iff {e : String} (he : k.external = some e) :
    rename chosen s = e ↔ s = e ∧ k ∉ chosen := by
  have hmem : e ∈ k.names := by simp [names, he]
  obtain ⟨k', hk', hexternal, hrename⟩ | ⟨hnone, hrename⟩ := rename_cases chosen s
  · rw [hrename]
    constructor
    · rintro rfl
      obtain rfl := hapart.eq (hchosen hk') hk List.mem_cons_self hmem
      exact absurd rfl (hapart.name_ne hk he)
    · rintro ⟨rfl, hnot⟩
      obtain rfl := hapart.eq (hchosen hk') hk (by simp [names, hexternal]) hmem
      exact absurd hk' hnot
  · rw [hrename]
    refine ⟨?_, And.left⟩
    rintro rfl
    exact ⟨rfl, fun hin => hnone k hin he⟩

end Rename

end Key

/-! ## What is read under a key -/

/-- A setting is missing and has its default, or it is read. -/
theorem optional_eq_ok_iff (v : Value) (k : Key) (default : α) (read : Value → Checked α) :
    optional v k default read = .ok a ↔
      (k.value? v = none ∧ a = default) ∨ ∃ x, k.value? v = some x ∧ read x = .ok a := by
  rw [optional, Key.value?]
  cases k.find? v with
  | none => simp [eq_comm]
  | some e => simp [Checked.under_eq_ok_iff]

theorem required_eq_ok_iff_value? (v : Value) (k : Key) (read : Value → Checked α) :
    required v k read = .ok a ↔ ∃ x, k.value? v = some x ∧ read x = .ok a := by
  rw [required_eq_ok_iff, Key.value?]
  rcases k.find? v with - | ⟨used, x⟩ <;> simp

theorem isJson_of_value? (hv : v.IsJson) (hx : k.value? v = some x) : x.IsJson := by
  obtain ⟨⟨used, y⟩, hy, rfl⟩ := Option.map_eq_some_iff.mp hx
  exact hv.of_find? hy

theorem member?_record {ms : Members} (h : (Value.record ms).IsJson) (key : String) :
    (Value.record ms).member? key = ms.lookup key := by
  change (ms.lookup key).map _ = _
  cases hx : ms.lookup key with
  | none => rfl
  | some x =>
    obtain ⟨before, after, heq, -⟩ := List.lookup_eq_some_iff.mp hx
    cases h with
    | record h =>
      have hjson : x.IsJson := h (key, x) (heq ▸ List.mem_append_right before List.mem_cons_self)
      exact congrArg some (hjson.takenOut_eq _)

namespace Checked

variable {β : Type} {x y : Checked α}

/-- What the one result is, the other is, unless there was none. -/
def Below (x y : Checked α) : Prop := ∀ a, x = .ok a → y = .ok a

theorem Below.map (h : x.Below y) (f : α → β) : Below (f <$> x) (f <$> y) := by
  intro b hb
  obtain ⟨a, ha, rfl⟩ := map_eq_ok_iff.mp hb
  exact map_eq_ok_iff.mpr ⟨a, h a ha, rfl⟩

theorem Below.seq {f g : Checked (α → β)} (hfg : f.Below g) (h : x.Below y) :
    Below (f <*> x) (g <*> y) := by
  intro b hb
  obtain ⟨f', a, hf, ha, rfl⟩ := apply_eq_ok_iff.mp hb
  exact apply_eq_ok_iff.mpr ⟨f', a, hfg f' hf, h a ha, rfl⟩

end Checked

/-- What is read from the one value is read from the other. -/
def Reads (read : Value → Checked α) (v v' : Value) : Prop := (read v).Below (read v')

/-- A required setting is read no worse if its value is. -/
theorem Checked.Below.required (h : Option.Rel (Reads read) (k.value? v) (k.value? v')) :
    (Schema.required v k read).Below (Schema.required v' k read) := by
  intro a hok
  rw [required_eq_ok_iff_value?] at hok ⊢
  generalize k.value? v = x, k.value? v' = x' at h hok
  obtain ⟨x, rfl, hok⟩ := hok
  cases h with
  | some hreads => exact ⟨_, rfl, hreads a hok⟩

/-- Nor is one that may be missing. -/
theorem Checked.Below.optional (h : Option.Rel (Reads read) (k.value? v) (k.value? v')) :
    (Schema.optional v k default read).Below (Schema.optional v' k default read) := by
  intro a hok
  rw [optional_eq_ok_iff] at hok ⊢
  generalize k.value? v = x, k.value? v' = x' at h hok
  obtain ⟨rfl, hok⟩ | ⟨x, rfl, hok⟩ := hok
  · cases h
    exact .inl ⟨rfl, hok⟩
  · cases h with
    | some hreads => exact .inr ⟨_, rfl, hreads a hok⟩

/-- An entity is read no worse if the reader of its members does no worse. -/
theorem Reads.entity {kind : String} (hv : v'.isMapping) (h : (read v).Below (read v')) :
    Reads (entity kind read) v v' := by
  intro a hok
  rw [Schema.entity] at hok ⊢
  split at hok
  · rw [if_pos hv]
    exact h a hok
  · cases hok

/-! ## Lists -/

/-- Two lists whose items are related one by one. -/
inductive Itemwise (R : Value → Value → Prop) : Value → Value → Prop
  | list {xs ys : List Value} (h : List.Forall₂ R xs ys) : Itemwise R (.list xs) (.list ys)

namespace Itemwise

variable {R : Value → Value → Prop}

/-- What takes the place of a document item by item is a document. -/
theorem isJson (h : Itemwise R v v') (hv : v.IsJson) (hR : ∀ x x', R x x' → x.IsJson → x'.IsJson) :
    v'.IsJson := by
  obtain ⟨h⟩ := h
  cases hv with
  | list hxs =>
    refine .list fun y hy => ?_
    obtain ⟨x, hx, hrel⟩ := h.exists_of_mem_right hy
    exact hR x y hrel (hxs x hx)

/-- Items are read no worse. -/
theorem itemsFrom_eq_ok {xs ys : List Value} (h : List.Forall₂ (Reads read) xs ys) {i : Nat}
    {as : List α} (hok : itemsFrom read i xs = .ok as) : itemsFrom read i ys = .ok as := by
  induction h generalizing i as with
  | nil => exact hok
  | @cons x y xs ys hreads _ ih =>
    obtain ⟨f, bs, hf, hbs, rfl⟩ := Checked.apply_eq_ok_iff.mp hok
    obtain ⟨b, hb, rfl⟩ := Checked.map_eq_ok_iff.mp hf
    have hy : read y = .ok b := hreads b (Checked.under_eq_ok_iff.mp hb)
    rw [itemsFrom, hy, ih hbs]
    rfl

/-- Lists are read alike if their items are. -/
theorem reads (h : Itemwise R v v') (hv : v.IsJson) (hv' : v'.IsJson)
    (hread : ∀ x x', R x x' → x.IsJson → x'.IsJson → Reads read x x') :
    Reads (listOf read) v v' := by
  obtain ⟨h⟩ := h
  intro as hok
  rw [listOf, Value.sequence?, hv.items_eq] at hok
  rw [listOf, Value.sequence?, hv'.items_eq]
  refine itemsFrom_eq_ok ?_ hok
  cases hv with | list hxs => cases hv' with | list hys =>
  clear hok
  induction h with
  | nil => exact .nil
  | cons hrel _ ih =>
    obtain ⟨hx, hxs⟩ := List.forall_mem_cons.mp hxs
    obtain ⟨hy, hys⟩ := List.forall_mem_cons.mp hys
    exact .cons (hread _ _ hrel hx hy) (ih hxs hys)

end Itemwise

/-! ## Respelled objects -/

/-- An object with the members of another, in order, some of them under the names of their keys.
`part s` relates what is in the members that the first object spells `s`. -/
inductive Respelled (keys : List Key) (part : String → Value → Value → Prop) :
    Value → Value → Prop
  | record {ms ms' : Members} (chosen : List Key) (hchosen : chosen ⊆ keys)
      (hfree : ∀ k ∈ chosen, k.name ∉ ms.map (·.1))
      (h : List.Forall₂ (fun e e' => e'.1 = Key.rename chosen e.1 ∧ part e.1 e.2 e'.2) ms ms') :
      Respelled keys part (.record ms) (.record ms')

section Lookup

variable {part : String → Value → Value → Prop} {f : String → String} {ms ms' : Members}
  {s t : String}

/-- Related members are found under related names. -/
theorem lookup_rel
    (h : List.Forall₂ (fun e e' => e'.1 = f e.1 ∧ part e.1 e.2 e'.2) ms ms')
    (hs : ∀ e ∈ ms, f e.1 = t ↔ e.1 = s) :
    Option.Rel (part s) (ms.lookup s) (ms'.lookup t) := by
  induction h with
  | nil => exact .none
  | @cons e e' ms ms' he _ ih =>
    obtain ⟨hkey, hpart⟩ := he
    obtain ⟨hfirst, hrest⟩ := List.forall_mem_cons.mp hs
    rw [List.lookup_cons, List.lookup_cons, hkey]
    by_cases heq : e.1 = s
    · rw [beq_iff_eq.mpr heq.symm, beq_iff_eq.mpr (hfirst.mpr heq).symm]
      exact .some (heq ▸ hpart)
    · rw [beq_eq_false_iff_ne.mpr (Ne.symm heq),
        beq_eq_false_iff_ne.mpr (fun h => heq (hfirst.mp h.symm))]
      exact ih hrest

/-- What has no relation is not found. -/
theorem lookup_eq_none
    (h : List.Forall₂ (fun e e' => e'.1 = f e.1 ∧ part e.1 e.2 e'.2) ms ms')
    (ht : ∀ e ∈ ms, f e.1 ≠ t) : ms'.lookup t = none := by
  rw [List.lookup_eq_none_iff]
  intro e' he'
  obtain ⟨e, he, hkey, -⟩ := h.flip.exists_of_mem_left he'
  exact bne_iff_ne.mpr fun heq => ht e he (hkey.symm.trans heq.symm)

end Lookup

namespace Respelled

variable {keys : List Key} {part : String → Value → Value → Prop}

theorem isMapping (h : Respelled keys part v v') : v'.isMapping = true := by
  cases h
  rfl

/-- A respelled document is a document. -/
theorem isJson (h : Respelled keys part v v') (hv : v.IsJson)
    (hpart : ∀ s x x', part s x x' → x.IsJson → x'.IsJson) : v'.IsJson := by
  obtain ⟨chosen, -, -, h⟩ := h
  cases hv with
  | record hms =>
    refine .record fun e' he' => ?_
    obtain ⟨e, he, -, hrel⟩ := h.flip.exists_of_mem_left he'
    exact hpart e.1 e.2 e'.2 hrel (hms e he)

/-- **Every key finds what it found before.** -/
theorem value?_rel (h : Respelled keys part v v') (hv : v.IsJson) (hv' : v'.IsJson)
    (hapart : Key.Apart keys) (hk : k ∈ keys) :
    ∃ s ∈ k.names, Option.Rel (part s) (k.value? v) (k.value? v') := by
  obtain @⟨ms, ms', chosen, hchosen, hfree, h⟩ := h
  rw [Key.value?_eq, Key.value?_eq, member?_record hv, member?_record hv, member?_record hv',
    member?_record hv', Key.spelling]
  cases he : k.external with
  | none =>
    -- the name is the only spelling, and no chosen key gives it to another member
    refine ⟨k.name, List.mem_cons_self, ?_⟩
    rw [Option.getD_none, Option.or_self, Option.or_self]
    refine lookup_rel h fun e _ => ?_
    simp [Key.rename_eq_name_iff hapart hchosen hk, he]
  | some s =>
    have hs : s ∈ k.names := by simp [Key.names, he]
    rw [Option.getD_some]
    by_cases hin : k ∈ chosen
    · -- the member has moved from the one spelling to the other, which was free
      have hkeys : ∀ e ∈ ms, e.1 ≠ k.name :=
        fun e hmem heq => hfree k hin (heq ▸ List.mem_map_of_mem hmem)
      have hname : ms.lookup k.name = none :=
        List.lookup_eq_none_iff.mpr fun e hmem => bne_iff_ne.mpr (hkeys e hmem).symm
      have hexternal : ms'.lookup s = none := lookup_eq_none h fun e _ => by
        simp [Key.rename_eq_external_iff hapart hchosen hk he, hin]
      rw [hname, hexternal, Option.or_none, Option.none_or]
      refine ⟨s, hs, lookup_rel h fun e hmem => ?_⟩
      simp [Key.rename_eq_name_iff hapart hchosen hk, he, hin, hkeys e hmem, eq_comm]
    · have hexternal : Option.Rel (part s) (ms.lookup s) (ms'.lookup s) :=
        lookup_rel h fun e _ => by
          simp [Key.rename_eq_external_iff hapart hchosen hk he, hin]
      have hname : Option.Rel (part k.name) (ms.lookup k.name) (ms'.lookup k.name) :=
        lookup_rel h fun e _ => by simp [Key.rename_eq_name_iff hapart hchosen hk, hin]
      generalize ms.lookup s = x, ms'.lookup s = x' at hexternal
      cases hexternal with
      | some hrel => exact ⟨s, hs, .some hrel⟩
      | none => exact ⟨k.name, List.mem_cons_self, hname⟩

/-- So whatever is read from what it found is read again. -/
theorem reads_rel (h : Respelled keys part v v') (hv : v.IsJson) (hv' : v'.IsJson)
    (hapart : Key.Apart keys) (hk : k ∈ keys)
    (hread : ∀ s ∈ k.names, ∀ x x', part s x x' → x.IsJson → x'.IsJson → Reads read x x') :
    Option.Rel (Reads read) (k.value? v) (k.value? v') := by
  obtain ⟨s, hs, hrel⟩ := h.value?_rel hv hv' hapart hk
  have hx : ∀ x, k.value? v = some x → x.IsJson := fun x => isJson_of_value? hv
  have hx' : ∀ x, k.value? v' = some x → x.IsJson := fun x => isJson_of_value? hv'
  generalize k.value? v = x, k.value? v' = x' at hrel hx hx'
  cases hrel with
  | some hpart => exact .some (hread s hs _ _ hpart (hx _ rfl) (hx' _ rfl))
  | none => exact .none

end Respelled

end Scaffold.Schema
