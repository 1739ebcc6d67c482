import Scaffold.Model.Basic

/-!
# Proofs/Schema/Explained — whatever is refused is refused for a reason

A reader refuses a document with a list of issues.  That list is never empty: every basic reader
fails with an issue, and what readers are put together with keeps the issues of its parts.  So a
model about which nothing is reported has been read (`explained_read`).
-/

namespace Scaffold.Schema

open Document

variable {α β : Type}

/-- If the document is refused, there is an issue with it. -/
def Checked.Explained (x : Checked α) : Prop := x ≠ .bad []

namespace Checked

theorem explained_ok (a : α) : (ok a).Explained := nofun

theorem explained_fail (cause : Cause) : (fail cause : Checked α).Explained := nofun

theorem Explained.map {f : α → β} {x : Checked α} (h : x.Explained) : (x.map f).Explained := by
  cases x with
  | ok a => exact explained_ok (f a)
  | bad issues =>
    intro hbad
    exact h (congrArg bad (bad.inj hbad))

/-- What is read in two parts is explained if both are. -/
theorem Explained.apply {f : Checked (α → β)} {x : Checked α} (hf : f.Explained)
    (hx : x.Explained) : (f.apply x).Explained := by
  cases f with
  | ok f => cases x with
    | ok a => exact explained_ok (f a)
    | bad issues => exact fun hbad => hx (congrArg bad (bad.inj hbad))
  | bad issues => cases x with
    | ok a => exact fun hbad => hf (congrArg bad (bad.inj hbad))
    | bad others =>
      intro hbad
      exact hf (congrArg bad (List.append_eq_nil_iff.mp (bad.inj hbad)).1)

/-- An explanation holds further up with the step in front. -/
theorem Explained.under {step : Step} {x : Checked α} (h : x.Explained) :
    (x.under step).Explained := by
  cases x with
  | ok a => exact explained_ok a
  | bad issues =>
    intro hbad
    exact h (congrArg bad (List.map_eq_nil_iff.mp (bad.inj hbad)))

theorem Explained.andThen {x : Checked α} {f : α → Checked β} (hx : x.Explained)
    (hf : ∀ a, (f a).Explained) : (x.andThen f).Explained := by
  cases x with
  | ok a => exact hf a
  | bad issues => exact fun hbad => hx (congrArg bad (bad.inj hbad))

theorem explained_elim {x : Option α} {cause : Cause} {f : α → Checked β}
    (hf : ∀ a, (f a).Explained) : (x.elim (fail cause) f).Explained := by
  cases x with
  | none => exact explained_fail cause
  | some a => exact hf a

end Checked

open Checked

section Members

variable {read : Value → Checked α} (h : ∀ v, (read v).Explained)

include h

theorem explained_required (v : Value) (k : Key) : (required v k read).Explained := by
  unfold required
  split
  · exact nofun
  · exact (h _).under

/-- A setting that may be missing is explained if its reader is. -/
theorem explained_optional (v : Value) (k : Key) (default : α) :
    (optional v k default read).Explained := by
  unfold optional
  split
  · exact explained_ok default
  · exact (h _).under

theorem explained_entity (kind : String) (v : Value) : (entity kind read v).Explained := by
  unfold entity
  split
  · exact h v
  · exact explained_fail _

theorem explained_nullable (v : Value) : (nullable read v).Explained := by
  unfold nullable
  split
  · exact explained_ok none
  · exact (h _).map

theorem explained_itemsFrom (i : Nat) (xs : List Value) : (itemsFrom read i xs).Explained := by
  induction xs generalizing i with
  | nil => exact explained_ok []
  | cons x xs ih => exact (h x).under.map.apply (ih (i + 1))

theorem explained_listOf (v : Value) : (listOf read v).Explained := by
  unfold listOf
  split
  · exact explained_itemsFrom h 0 _
  · exact explained_fail _

end Members

/-! ## Plain values -/

theorem explained_text (v : Value) : (text v).Explained := by
  unfold text
  split
  · exact explained_ok _
  · exact explained_elim explained_ok
  · exact explained_fail _

theorem explained_boundedText (least : Nat) (most : Option Nat) (v : Value) :
    (boundedText least most v).Explained := by
  refine (explained_text v).andThen fun s => ?_
  split
  · exact explained_fail _
  · split
    · split
      · exact explained_fail _
      · exact explained_ok s
    · exact explained_ok s

theorem explained_optionalText (v : Value) (k : Key) :
    (optional v k none (nullable text)).Explained :=
  explained_optional (explained_nullable explained_text) v k none

theorem explained_bool (v : Value) : (bool v).Explained := by
  unfold bool
  split
  · exact explained_ok _
  · split
    · exact explained_elim explained_ok
    · exact explained_fail _
  · exact explained_elim explained_ok
  · exact explained_elim explained_ok
  · split
    · exact explained_elim explained_ok
    · exact explained_fail _
  · exact explained_fail _

theorem explained_choice [Named α] (v : Value) : (choice v : Checked α).Explained := by
  unfold choice
  split
  · exact explained_ok _
  · exact explained_fail _

theorem explained_inCalendar (cause : String → Cause) (x : Except Moments.Fault Calendar.Moment) :
    (Moments.inCalendar cause x).Explained := by
  unfold Moments.inCalendar
  split
  · split
    · exact explained_fail _
    · exact explained_ok _
  · exact explained_fail _

theorem explained_moment (v : Value) : (moment v).Explained := by
  unfold moment
  split
  · exact explained_ok _
  · exact explained_ok _
  · exact explained_inCalendar _ _
  · exact explained_inCalendar _ _
  · split
    · exact explained_inCalendar _ _
    · split
      · exact explained_inCalendar _ _
      · exact explained_fail _
  · exact explained_inCalendar _ _
  · exact explained_fail _

end Scaffold.Schema

namespace Scaffold.Model

open Document Schema Checked

/-- Operands are. -/
theorem Operand.explained_read (v : Value) : (Operand.read v).Explained := by
  unfold read
  split
  · exact explained_ok _
  · exact explained_ok _
  · exact explained_ok _
  · exact explained_ok _
  · rename_i bs
    cases Value.textOfBytes? bs with
    | none => exact nofun
    | some s => exact explained_ok _
  · exact nofun

theorem Rule.explained_read (v : Value) : (Rule.read v).Explained := by
  refine explained_entity (fun v => ?_) _ v
  exact (explained_required explained_choice v _).map
    |>.apply (explained_required Operand.explained_read v _)
    |>.apply (explained_optionalText v _)

/-- Fields are. -/
theorem Field.explained_read (v : Value) : (Field.read v).Explained := by
  refine explained_entity (fun v => ?_) _ v
  exact (explained_optionalText v _).map
    |>.apply (explained_required (explained_boundedText _ _) v _)
    |>.apply (explained_required explained_choice v _)
    |>.apply (explained_optional explained_bool v _ _)
    |>.apply (explained_optional explained_bool v _ _)
    |>.apply (explained_optional explained_ok v _ _)
    |>.apply (explained_optional (explained_listOf Rule.explained_read) v _ _)
    |>.apply (explained_optionalText v _)

/-- So are relationships. -/
theorem Relationship.explained_read (v : Value) : (Relationship.read v).Explained := by
  refine explained_entity (fun v => ?_) _ v
  exact (explained_optionalText v _).map
    |>.apply (explained_required explained_choice v _)
    |>.apply (explained_required explained_text v _)
    |>.apply (explained_required explained_text v _)
    |>.apply (explained_required explained_text v _)
    |>.apply (explained_required explained_text v _)
    |>.apply (explained_optional explained_bool v _ _)

/-- So are the metadata. -/
theorem Metadata.explained_read (v : Value) : (Metadata.read v).Explained := by
  refine explained_entity (fun v => ?_) _ v
  exact (explained_optionalText v _).map
    |>.apply (explained_optional explained_bool v _ _)
    |>.apply (explained_optional explained_bool v _ _)
    |>.apply (explained_optionalText v _)
    |>.apply (explained_optional explained_bool v _ _)
    |>.apply (explained_optional (explained_listOf explained_text) v _ _)

/-- **A model that is refused has an issue.** -/
theorem explained_read (v : Value) : (Model.read v).Explained := by
  refine explained_entity (fun v => ?_) _ v
  exact (explained_optionalText v _).map
    |>.apply (explained_required (explained_boundedText _ _) v _)
    |>.apply (explained_optional (explained_listOf Field.explained_read) v _ _)
    |>.apply (explained_optional (explained_listOf Relationship.explained_read) v _ _)
    |>.apply (explained_optional Metadata.explained_read v _ _)
    |>.apply (explained_optional (explained_nullable explained_moment) v _ _)
    |>.apply (explained_optional (explained_nullable explained_moment) v _ _)

end Scaffold.Model
