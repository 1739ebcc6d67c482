import Scaffold.Document.Literal
import Scaffold.Validation.Subject
import Scaffold.Schema.Lax

/-!
# Proofs/Document/Json — documents without references

A JSON document is made of null, truth values, numbers, texts, lists and records with text keys.
Nothing in it refers to what is around it (`IsJson.reaches_eq`), so its members and items are what
stands there, a text is read from a text only, and no part is without a form but a whole number of
too many digits (`unwritable?_of_isJson`).
-/

namespace Scaffold.Document.Value

/-- The value can be written as JSON. -/
inductive IsJson : Value → Prop
  | null : IsJson null
  | bool (b : Bool) : IsJson (bool b)
  | int (n : Int) : IsJson (int n)
  | real (x : Number.Binary64) : IsJson (real x)
  | text (s : String) : IsJson (text s)
  | list {xs : List Value} (h : ∀ x ∈ xs, IsJson x) : IsJson (list xs)
  | record {ms : Members} (h : ∀ e ∈ ms, IsJson e.2) : IsJson (record ms)

/-- A property that a list or a record has if its parts have it. -/
structure Partwise (P : Value → Prop) : Prop where
  list : ∀ {xs : List Value}, P (.list xs) → ∀ x ∈ xs, P x
  record : ∀ {ms : Members}, P (.record ms) ↔ ∀ e ∈ ms, P e.2

theorem partwise_isJson : Partwise IsJson where
  list := by rintro _ ⟨⟩; assumption
  record := ⟨by rintro ⟨⟩; assumption, .record⟩

namespace IsJson

variable {v x : Value}

/-- Items that do not reach the level one by one. -/
theorem itemsReach_eq {level : Nat} {xs : List Value} (h : ∀ x ∈ xs, x.reaches level = false) :
    itemsReach level xs = false := by
  induction xs with
  | nil => rfl
  | cons x xs ih =>
    obtain ⟨hx, hxs⟩ := List.forall_mem_cons.mp h
    rw [itemsReach, hx, ih hxs]
    rfl

/-- Members that do not reach the level one by one. -/
theorem membersReach_eq {level : Nat} {ms : Members} (h : ∀ e ∈ ms, e.2.reaches level = false) :
    membersReach level ms = false := by
  induction ms with
  | nil => rfl
  | cons e ms ih =>
    obtain ⟨he, hms⟩ := List.forall_mem_cons.mp h
    rw [membersReach, he, ih hms]
    rfl

/-- Nothing in the value refers to what is around it. -/
theorem reaches_eq (h : v.IsJson) (level : Nat) : v.reaches level = false := by
  induction h generalizing level with
  | null => rfl
  | bool b => rfl
  | int n => rfl
  | real x => rfl
  | text s => rfl
  | list _ ih =>
    rw [reaches]
    exact itemsReach_eq fun x hx => ih x hx (level + 1)
  | record _ ih =>
    rw [reaches]
    exact membersReach_eq fun e he => ih e he (level + 1)

theorem takenOut_eq (h : v.IsJson) (whole : Value → Value) : v.takenOut whole = v :=
  takenOut_of_not_reaches (h.reaches_eq 0) whole

/-- The items of a list are those that stand in it. -/
theorem items_eq {xs : List Value} (h : (Value.list xs).IsJson) : (Value.list xs).items = xs := by
  cases h with
  | list h =>
    have hitem : ∀ e ∈ xs.zipIdx,
        e.1.takenOut (fun part => Value.list (xs.set e.2 part)) = e.1 :=
      fun e he => (h e.1 (List.fst_mem_of_mem_zipIdx he)).takenOut_eq _
    exact (List.map_congr_left hitem).trans (List.zipIdx_map_fst 0 xs)

end IsJson

namespace Partwise

variable {P : Value → Prop} (hP : Partwise P) {v x : Value}

include hP

/-- A member of a document has what the document has. -/
theorem of_member? (hv : v.IsJson) (h : P v) {key : String} (hx : v.member? key = some x) : P x := by
  cases v with
  | record ms =>
    obtain ⟨y, hy, rfl⟩ := Option.map_eq_some_iff.mp hx
    obtain ⟨before, after, heq, -⟩ := List.lookup_eq_some_iff.mp hy
    have hmem : (key, y) ∈ ms := by
      rw [heq]
      exact List.mem_append_right before List.mem_cons_self
    rw [(partwise_isJson.record.mp hv _ hmem).takenOut_eq]
    exact hP.record.mp h _ hmem
  | table es => cases hv
  | _ => cases hx

/-- So has an item. -/
theorem of_mem_items (hv : v.IsJson) (h : P v) (hx : x ∈ v.items) : P x := by
  cases v with
  | list xs =>
    rw [hv.items_eq] at hx
    exact hP.list h x hx
  | _ => exact absurd hx List.not_mem_nil

/-- So has a member under one of two spellings. -/
theorem of_find? (hv : v.IsJson) (h : P v) {k : Schema.Key} {used : String}
    (hx : k.find? v = some (used, x)) : P x := by
  rw [Schema.Key.find?] at hx
  split at hx
  · rename_i y hy
    cases hx
    exact hP.of_member? hv h hy
  · obtain ⟨y, hy, heq⟩ := Option.map_eq_some_iff.mp hx
    cases heq
    exact hP.of_member? hv h hy

end Partwise

namespace IsJson

variable {v x : Value}

/-- A member of a value is again such a value. -/
theorem of_member? (h : v.IsJson) {key : String} (hx : v.member? key = some x) : x.IsJson :=
  partwise_isJson.of_member? h h hx

/-- So is a member under one of two spellings. -/
theorem of_find? (h : v.IsJson) {k : Schema.Key} {used : String} (hx : k.find? v = some (used, x)) :
    x.IsJson :=
  partwise_isJson.of_find? h h hx

section FindSome

variable {ε : Type} {ask ask' askKey askKey' : Value → Option ε}

/-- Searches that agree on every item agree on the list. -/
theorem findInItems?_congr {xs : List Value}
    (h : ∀ x ∈ xs, x.findSome? ask askKey = x.findSome? ask' askKey') :
    findInItems? ask askKey xs = findInItems? ask' askKey' xs := by
  induction xs with
  | nil => rfl
  | cons x xs ih =>
    obtain ⟨hx, hxs⟩ := List.forall_mem_cons.mp h
    rw [findInItems?, findInItems?, hx, ih hxs]

/-- Searches that agree on every member agree on the record, whatever they ask of keys. -/
theorem findInMembers?_congr {ms : Members}
    (h : ∀ e ∈ ms, e.2.findSome? ask askKey = e.2.findSome? ask' askKey') :
    findInMembers? ask askKey ms = findInMembers? ask' askKey' ms := by
  induction ms with
  | nil => rfl
  | cons e ms ih =>
    obtain ⟨he, hms⟩ := List.forall_mem_cons.mp h
    rw [findInMembers?, findInMembers?, he, ih hms]

/-- What is asked about other values does not matter. -/
theorem findSome?_congr (hask : ∀ x : Value, x.IsJson → ask x = ask' x) (h : v.IsJson) :
    v.findSome? ask askKey = v.findSome? ask' askKey' := by
  induction h with
  | list h ih => rw [findSome?, findSome?, hask _ (.list h), findInItems?_congr ih]
  | record h ih => rw [findSome?, findSome?, hask _ (.record h), findInMembers?_congr ih]
  | null => exact hask _ .null
  | bool b => exact hask _ (.bool b)
  | int n => exact hask _ (.int n)
  | real x => exact hask _ (.real x)
  | text s => exact hask _ (.text s)

end FindSome

end IsJson

/-! ## What can be spelled -/

theorem findInItems?_eq_none_iff {ε : Type} {ask askKey : Value → Option ε} {xs : List Value} :
    findInItems? ask askKey xs = none ↔ ∀ x ∈ xs, x.findSome? ask askKey = none := by
  induction xs with
  | nil => exact iff_of_true rfl (List.forall_mem_nil _)
  | cons x xs ih => rw [findInItems?, Option.or_eq_none_iff, ih, List.forall_mem_cons]

theorem findInMembers?_eq_none_iff {ε : Type} {ask askKey : Value → Option ε} {ms : Members} :
    findInMembers? ask askKey ms = none ↔ ∀ e ∈ ms, e.2.findSome? ask askKey = none := by
  induction ms with
  | nil => exact iff_of_true rfl (List.forall_mem_nil _)
  | cons e ms ih => rw [findInMembers?, Option.or_eq_none_iff, ih, List.forall_mem_cons]

/-- A list or a record can be spelled if its parts can. -/
theorem partwise_unspelled? : Partwise fun v => v.unspelled? = none where
  list := findInItems?_eq_none_iff.mp
  record := findInMembers?_eq_none_iff

end Scaffold.Document.Value

namespace Scaffold.Document.Json

/-- **A JSON document can be written, and shown, if its whole numbers can.** -/
theorem unwritable?_of_isJson {v : Value} (h : v.IsJson) : unwritable? v = v.unspelled? :=
  h.findSome?_congr fun x hx => by cases hx <;> rfl

end Scaffold.Document.Json

namespace Scaffold.Schema

open Document

variable {α : Type} {v : Value}

/-- A text is read from a text. -/
theorem eq_of_text_eq_ok (hv : v.IsJson) {s : String} (h : text v = .ok s) : v = .text s := by
  cases hv with
  | text t => cases h; rfl
  | _ => cases h

/-- A text within bounds is a text. -/
theorem text_eq_ok_of_boundedText {least : Nat} {most : Option Nat} {s : String}
    (h : boundedText least most v = .ok s) : text v = .ok s := by
  rw [boundedText] at h
  cases htext : text v with
  | bad issues =>
    rw [htext] at h
    cases h
  | ok t =>
    rw [htext, Checked.andThen] at h
    split at h
    · cases h
    · split at h
      · split at h
        · cases h
        · exact h
      · exact h

end Scaffold.Schema
