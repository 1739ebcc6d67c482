import Scaffold.Proofs.Document.RoundTrip
import Scaffold.Proofs.Firsts
import Scaffold.Proofs.Outcome

/-!
# Proofs/Document/Readings — what is read can be written and read again

What the reader takes for a value leaves less of the text (`Takes`), so two steps for each character
suffice (`readValue_of_le`).  The value itself is one that can be read back: its records have
distinct keys, and its numbers are short enough and proper (`legible_of_read`).
-/

namespace Scaffold.Document.Json

open Number Text

/-! ## Brackets, colons and commas -/

section Parts

variable {α : Type}

/-- What stands behind an opening bracket: the closing one, or more. -/
def readInside (closer : Char) (empty : α) (more : List Char → Read α) (cs : List Char) : Read α :=
  match skipSpace cs with
  | [] => more []
  | c :: r => if c = closer then .ok (empty, r) else more (c :: r)

/-- What stands behind an item: the closing bracket, or a comma and more. -/
def readNext (closer : Char) (last : α) (more : List Char → Read α) (cs : List Char) : Read α :=
  match skipSpace cs with
  | [] => .error ⟨.comma, []⟩
  | c :: r =>
    if c = closer then .ok (last, r)
    else if c = ',' then more (skipSpace r)
    else .error ⟨.comma, c :: r⟩

/-- What stands behind a key: a colon and more. -/
def readColon (more : List Char → Read α) (cs : List Char) : Read α :=
  match skipSpace cs with
  | [] => .error ⟨.colon, []⟩
  | c :: r => if c = ':' then more (skipSpace r) else .error ⟨.colon, c :: r⟩

end Parts

/-- A list is what stands inside its brackets. -/
theorem readValue_list (levels n : Nat) (cs : List Char) :
    readValue (levels + 1) (n + 1) ('[' :: cs) =
      readInside ']' (.list []) (fun r => (readItems levels n r).map fun (xs, r) => (.list xs, r))
        cs := by
  rw [readValue, readInside]
  cases skipSpace cs with
  | nil => rfl
  | cons c r => by_cases hclose : c = ']' <;> simp [hclose]

/-- A record is what stands inside its braces; of members with one key the last one counts. -/
theorem readValue_record (levels n : Nat) (cs : List Char) :
    readValue (levels + 1) (n + 1) ('{' :: cs) =
      readInside '}' (.record [])
        (fun r => (readMembers levels n r).map fun (ms, r) => (.record (Members.ofPairs ms), r))
        cs := by
  rw [readValue, readInside]
  cases skipSpace cs with
  | nil => rfl
  | cons c r => by_cases hclose : c = '}' <;> simp [hclose]

/-- Items are an item and what stands behind it. -/
theorem readItems_eq (levels n : Nat) (cs : List Char) :
    readItems levels (n + 1) cs = (readValue levels n cs).bind fun (x, r) =>
      readNext ']' [x] (fun r => (readItems levels n r).map fun (xs, r) => (x :: xs, r)) r := by
  rw [readItems]
  cases readValue levels n cs with
  | error f => rfl
  | ok found =>
    obtain ⟨x, r⟩ := found
    simp only [Except.bind, readNext]
    cases skipSpace r with
    | nil => rfl
    | cons c r => by_cases hclose : c = ']' <;> by_cases hcomma : c = ',' <;> simp [hclose, hcomma]

/-- Members are a key, a colon, a value and what stands behind it. -/
theorem readMembers_eq (levels n : Nat) (cs : List Char) :
    readMembers levels (n + 1) ('"' :: cs) = (readText cs).bind fun (key, r) =>
      readColon (fun r => (readValue levels n r).bind fun (x, r) =>
        readNext '}' [(key, x)]
          (fun r => (readMembers levels n r).map fun (ms, r) => ((key, x) :: ms, r)) r) r := by
  rw [readMembers]
  cases readText cs with
  | error f => rfl
  | ok found =>
    obtain ⟨key, r⟩ := found
    simp only [Except.bind, readColon]
    cases skipSpace r with
    | nil => rfl
    | cons c r =>
      by_cases hcolon : c = ':'
      · subst hcolon
        simp only [if_true]
        cases readValue levels n (skipSpace r) with
        | error f => rfl
        | ok found =>
          obtain ⟨x, r⟩ := found
          simp only [readNext]
          cases skipSpace r with
          | nil => rfl
          | cons c r =>
            by_cases hclose : c = '}' <;> by_cases hcomma : c = ',' <;> simp [hclose, hcomma]
      · simp [hcolon]

theorem readMembers_error (levels n : Nat) {cs : List Char} (h : ∀ r, cs ≠ '"' :: r) :
    readMembers levels (n + 1) cs = .error ⟨.propertyName, cs⟩ := by
  rw [readMembers]
  exact h

/-! ## What is left -/

/-- What was read is as described, and less than the whole text is left. -/
def Takes {α : Type} (p : α → Prop) (cs : List Char) (x : Read α) : Prop :=
  ∀ a r, x = .ok (a, r) → p a ∧ r.length < cs.length

section Takes

variable {α β : Type} {p : α → Prop} {cs : List Char}

theorem takes_error {f : Failure} : Takes p cs (.error f) := by
  rintro a r ⟨⟩

theorem takes_ok {a : α} {r : List Char} (ha : p a) (h : r.length < cs.length) :
    Takes p cs (.ok (a, r)) := by
  rintro _ _ ⟨⟩
  exact ⟨ha, h⟩

theorem Takes.map {x : Read α} (h : Takes p cs x) {f : α → β} {q : β → Prop}
    (hf : ∀ a, p a → q (f a)) : Takes q cs (x.map fun (a, r) => (f a, r)) := by
  rintro b r heq
  obtain ⟨⟨a, r'⟩, hx, hr⟩ := Except.map_eq_ok_iff.mp heq
  cases hr
  exact ⟨hf a (h a r hx).1, (h a r hx).2⟩

theorem Takes.mono {x : Read α} (h : Takes p cs x) {ds : List Char}
    (hlength : cs.length ≤ ds.length) : Takes p ds x := fun a r hx =>
  ⟨(h a r hx).1, (h a r hx).2.trans_le hlength⟩

theorem Takes.bind {x : Read α} (h : Takes p cs x) {f : α × List Char → Read β} {q : β → Prop}
    (hf : ∀ a r, p a → r.length < cs.length → Takes q cs (f (a, r))) : Takes q cs (x.bind f) := by
  rcases x with e | ⟨a, r⟩
  · exact takes_error
  · obtain ⟨ha, hr⟩ := h a r rfl
    exact hf a r ha hr

end Takes

theorem length_skipSpace (cs : List Char) : (skipSpace cs).length ≤ cs.length :=
  (List.dropWhile_suffix isSpace).length_le

section Parts

variable {α : Type} {closer : Char} {empty last : α} {more : List Char → Read α} {p : α → Prop}
  (hmore : ∀ r, Takes p r (more r)) (cs : List Char)

include hmore

/-- Something is taken if an empty pair of brackets and all that can stand in them will do. -/
theorem takes_readInside (hempty : p empty) : Takes p cs (readInside closer empty more cs) := by
  have hskip := length_skipSpace cs
  rw [readInside]
  split
  · rename_i hnil
    exact (hmore []).mono (Nat.zero_le _)
  · rename_i c r hcons
    rw [hcons] at hskip
    split
    · exact takes_ok hempty hskip
    · exact (hmore _).mono hskip

/-- Something is taken if the item and all that can follow it will do. -/
theorem takes_readNext (hlast : p last) : Takes p cs (readNext closer last more cs) := by
  have hskip := length_skipSpace cs
  rw [readNext]
  split
  · exact takes_error
  · rename_i c r hcons
    rw [hcons] at hskip
    have hshort : (skipSpace r).length ≤ cs.length :=
      (length_skipSpace r).trans (Nat.le_of_succ_le hskip)
    split
    · exact takes_ok hlast hskip
    split
    · exact (hmore _).mono hshort
    · exact takes_error

/-- A colon is taken before the value. -/
theorem takes_readColon : Takes p cs (readColon more cs) := by
  have hskip := length_skipSpace cs
  rw [readColon]
  split
  · exact takes_error
  · rename_i c r hcons
    rw [hcons] at hskip
    split
    · exact (hmore _).mono ((length_skipSpace r).trans (Nat.le_of_succ_le hskip))
    · exact takes_error

end Parts

/-! ## Texts -/

/-- The rest of a text. -/
theorem takes_readUnits (start cs : List Char) :
    Takes (fun _ => True) cs (readUnits start cs) := by
  fun_induction readUnits start cs with
  | case2 cs => exact takes_ok trivial (Nat.lt_succ_self _)
  | case4 a b c d e cs n hquad ih =>
    exact (ih.mono (by simp only [List.length_cons]; omega)).map fun _ _ => trivial
  | case7 e cs _ _ c hescaped ih =>
    exact (ih.mono (by simp only [List.length_cons]; omega)).map fun _ _ => trivial
  | case10 c cs _ _ _ _ _ _ ih =>
    exact (ih.mono (by simp only [List.length_cons]; omega)).map fun _ _ => trivial
  | _ => exact takes_error

theorem takes_readText (cs : List Char) : Takes (fun _ => True) cs (readText cs) :=
  (takes_readUnits ('"' :: cs) cs).map (f := fun ns => String.ofList (joinUnits ns)) fun _ _ =>
    trivial

/-! ## Numbers -/

/-- Digits are read to the last one. -/
theorem exists_of_readDigits? {cs ds r : List Char} (h : readDigits? cs = some (ds, r)) :
    IsDigits ds ∧ cs = ds ++ r := by
  have hsplit : (spanDigits cs).1 ++ (spanDigits cs).2 = cs := List.takeWhile_append_dropWhile
  have hdigits : ∀ c ∈ (spanDigits cs).1, isPlainDigit c = true := fun _ => List.mem_takeWhile_imp
  rw [readDigits?] at h
  split at h
  · cases h
  · rename_i hne hspan
    cases h
    rw [hspan] at hsplit hdigits
    exact ⟨⟨hne, hdigits⟩, hsplit.symm⟩

theorem exists_of_readWhole? {cs whole r : List Char} (h : readWhole? cs = some (whole, r)) :
    IsDigits whole ∧ cs = whole ++ r := by
  rw [readWhole?.eq_def] at h
  split at h
  · cases h
    exact ⟨isWhole_zero.1, rfl⟩
  · exact exists_of_readDigits? h

theorem suffix_of_readFraction {cs ds r : List Char} (h : readFraction cs = some (ds, r)) :
    r <:+ cs := by
  rw [readFraction.eq_def] at h
  split at h
  · obtain ⟨-, rfl⟩ := exists_of_readDigits? h
    exact (List.suffix_append _ _).trans (List.suffix_cons _ _)
  · cases h

theorem suffix_of_signed (cs : List Char) : (Numeral.signed cs).2 <:+ cs := by
  rw [Numeral.signed.eq_def]
  split
  · exact List.suffix_cons _ _
  · exact List.suffix_cons _ _
  · exact List.suffix_refl _

/-- Behind an exponent the end of the text is left. -/
theorem suffix_of_readExponent {cs r : List Char} {n : Int} (h : readExponent cs = some (n, r)) :
    r <:+ cs := by
  rw [readExponent.eq_def] at h
  split at h
  · rename_i e cs
    split at h
    · have hsigned := suffix_of_signed cs
      have hspan : (spanDigits (Numeral.signed cs).2).2 <:+ (Numeral.signed cs).2 :=
        List.dropWhile_suffix _
      dsimp only at h
      split at h
      · cases h
      · rename_i hdigits
        cases h
        rw [hdigits] at hspan
        exact (hspan.trans hsigned).trans (List.suffix_cons _ _)
    · cases h
  · cases h

/-- A number has a digit in front of its point. -/
theorem takes_readMagnitude {cs r : List Char} {m : Magnitude}
    (h : readMagnitude cs = some (m, r)) : IsDigits m.whole ∧ r.length < cs.length := by
  rw [readMagnitude_eq] at h
  obtain ⟨⟨whole, r'⟩, hwhole, hread⟩ := Option.map_eq_some_iff.mp h
  obtain ⟨hdigits, rfl⟩ := exists_of_readWhole? hwhole
  have hfraction : ((readFraction r').map (·.2)).getD r' <:+ r' := by
    cases hread : readFraction r' with
    | none => exact List.suffix_refl _
    | some fraction => exact suffix_of_readFraction hread
  have hexponent (r : List Char) : ((readExponent r).map (·.2)).getD r <:+ r := by
    cases hread : readExponent r with
    | none => exact List.suffix_refl _
    | some exponent => exact suffix_of_readExponent hread
  obtain ⟨rfl, rfl⟩ := Prod.mk.inj hread
  have hlength := ((hexponent _).trans hfraction).length_le
  have hpos := List.length_pos_iff.mpr hdigits.1
  refine ⟨hdigits, ?_⟩
  rw [List.length_append]
  omega

/-- A number that was read is short enough to be read again. -/
theorem legible_value (levels : Nat) {m : Magnitude} (hdigits : IsDigits m.whole)
    (hlimit : m.isWhole = true → m.whole.length ≤ Numeral.digitLimit) (negative : Bool) :
    Legible levels (m.value negative) := by
  rw [Magnitude.value]
  split
  · rename_i hwhole
    have habs : (Numeral.withSign negative (Numeral.natOfDigits m.whole)).natAbs =
        Numeral.natOfDigits m.whole := by
      rw [Numeral.withSign]
      split <;> omega
    refine .int levels ?_
    rw [habs]
    exact (length_toDigits_natOfDigits hdigits).trans (hlimit hwhole)
  · exact .real levels (Binary64.isProper_ofDecimal _ _ _)

theorem length_readMinus (cs : List Char) : (readMinus cs).2.length ≤ cs.length := by
  rw [readMinus.eq_def]
  split
  · exact Nat.le_succ _
  · exact le_rfl

/-- What is not in brackets, and can be read back. -/
theorem takes_readScalar (levels : Nat) (cs : List Char) :
    Takes (Legible levels) cs (readScalar cs) := by
  rw [readScalar_eq]
  split
  · rename_i found hword
    obtain ⟨⟨w, v⟩, hmem, hw⟩ := List.exists_of_findSome?_eq_some hword
    obtain ⟨r, hafter, rfl⟩ := Option.map_eq_some_iff.mp hw
    have hwords : ∀ w ∈ words, w.1 ≠ [] := by decide
    have hvalues : ∀ w ∈ words, Legible levels w.2 := by
      simp only [words, List.forall_mem_cons, List.not_mem_nil, false_implies, implies_true,
        and_true]
      exact ⟨.null _, .bool _ _, .bool _ _, .real _ trivial, .real _ trivial, .real _ trivial⟩
    have hpos : 0 < w.length := List.length_pos_iff.mpr (hwords _ hmem)
    refine takes_ok (hvalues _ hmem) ?_
    rw [eq_append_of_afterWord? hafter, List.length_append]
    omega
  · split
    · rename_i m r hread
      obtain ⟨hdigits, hlength⟩ := takes_readMagnitude hread
      split
      · exact takes_error
      · rename_i hlimit
        refine takes_ok (legible_value levels hdigits (fun hwhole => ?_) _)
          (hlength.trans_le (length_readMinus cs))
        rw [hwhole, Bool.true_and, decide_eq_true_eq] at hlimit
        exact not_lt.mp hlimit
    · exact takes_error

/-! ## Members -/

/-- A key keeps its place, and a new one comes last. -/
theorem keys_put (k : String) (v : Value) (ms : Members) :
    (Members.put k v ms).map (·.1) =
      if (ms.map (·.1)).contains k then ms.map (·.1) else ms.map (·.1) ++ [k] := by
  induction ms with
  | nil => rfl
  | cons e ms ih =>
    by_cases hkey : e.1 = k
    · rw [Members.put, if_pos hkey, List.map_cons, List.map_cons, if_pos (by simp [hkey])]
    · rw [Members.put, if_neg hkey, List.map_cons, List.map_cons, ih]
      simp only [List.contains_cons, beq_false_of_ne (Ne.symm hkey), Bool.false_or]
      split <;> rfl

/-- The keys stand where each first occurs. -/
theorem keys_ofPairs (pairs : Members) :
    (Members.ofPairs pairs).map (·.1) =
      (pairs.map (·.1)).foldl (fun seen k => if seen.contains k then seen else seen ++ [k]) [] := by
  rw [Members.ofPairs]
  induction pairs using List.reverseRecOn with
  | nil => rfl
  | append_singleton pairs e ih =>
    rw [List.foldl_append, List.foldl_cons, List.foldl_nil, keys_put, ih, List.map_append,
      List.foldl_append]
    rfl

theorem nodup_keys_ofPairs (pairs : Members) : ((Members.ofPairs pairs).map (·.1)).Nodup := by
  rw [keys_ofPairs]
  exact (List.pairwise_foldl_addNew _).imp fun h heq => absurd (heq ▸ h) (lt_irrefl _)

/-- A member that is put among others is new or was there. -/
theorem mem_put {k : String} {v : Value} {ms : Members} {e : String × Value}
    (h : e ∈ Members.put k v ms) : e = (k, v) ∨ e ∈ ms := by
  induction ms with
  | nil => exact .inl (List.mem_singleton.mp h)
  | cons e' ms ih =>
    rw [Members.put] at h
    split at h
    · rename_i hkey
      rw [← hkey]
      exact (List.mem_cons.mp h).imp_right (List.mem_cons_of_mem e')
    · obtain rfl | h := List.mem_cons.mp h
      · exact .inr List.mem_cons_self
      · exact (ih h).imp_right (List.mem_cons_of_mem e')

/-- A record has no member that was not read. -/
theorem mem_of_mem_ofPairs {pairs : Members} {e : String × Value}
    (h : e ∈ Members.ofPairs pairs) : e ∈ pairs := by
  rw [Members.ofPairs] at h
  induction pairs using List.reverseRecOn with
  | nil => cases h
  | append_singleton pairs e' ih =>
    rw [List.foldl_append, List.foldl_cons, List.foldl_nil] at h
    obtain rfl | h := mem_put h
    · exact List.mem_append_right _ (List.mem_singleton_self e')
    · exact List.mem_append_left _ (ih h)

/-! ## Values -/

/-- How a value starts. -/
theorem value_cases (cs : List Char) :
    (∃ r, cs = '"' :: r) ∨ (∃ r, cs = '[' :: r) ∨ (∃ r, cs = '{' :: r) ∨
      ∀ c ∈ cs.head?, c ∉ markers := by
  rcases cs with _ | ⟨c, r⟩
  · exact .inr (.inr (.inr (by simp)))
  · by_cases hc : c ∈ markers
    · simp only [markers, List.mem_cons, List.not_mem_nil, or_false] at hc
      rcases hc with rfl | rfl | rfl
      · exact .inl ⟨r, rfl⟩
      · exact .inr (.inl ⟨r, rfl⟩)
      · exact .inr (.inr (.inl ⟨r, rfl⟩))
    · refine .inr (.inr (.inr ?_))
      rintro _ ⟨⟩
      exact hc

section Values

variable {levels n : Nat}

/-- One more step for a value, given those for its items and members. -/
theorem takes_readValue
    (hitems : ∀ levels cs, Takes (fun xs => ∀ x ∈ xs, Legible levels x) cs (readItems levels n cs))
    (hmembers : ∀ levels cs,
      Takes (fun ms => ∀ e ∈ ms, Legible levels e.2) cs (readMembers levels n cs))
    (cs : List Char) : Takes (Legible levels) cs (readValue levels (n + 1) cs) := by
  obtain ⟨r, rfl⟩ | ⟨r, rfl⟩ | ⟨r, rfl⟩ | hscalar := value_cases cs
  · rw [readValue]
    exact ((takes_readText r).mono (Nat.le_succ _)).map fun s _ => .text levels s
  · rcases levels with _ | levels
    · exact takes_error
    · rw [readValue_list]
      refine (takes_readInside (fun r => ?_) r (.list (List.forall_mem_nil _))).mono (Nat.le_succ _)
      exact (hitems levels r).map fun xs hxs => .list hxs
  · rcases levels with _ | levels
    · exact takes_error
    · rw [readValue_record]
      refine (takes_readInside (fun r => ?_) r (.record List.nodup_nil (List.forall_mem_nil _))).mono
        (Nat.le_succ _)
      refine (hmembers levels r).map (f := fun ms => Value.record (Members.ofPairs ms))
        fun ms hms => ?_
      exact .record (nodup_keys_ofPairs ms) fun e he => hms e (mem_of_mem_ofPairs he)
  · rw [readValue_scalar levels n hscalar]
    exact takes_readScalar levels cs

variable (hvalue : ∀ cs, Takes (Legible levels) cs (readValue levels n cs))

include hvalue

/-- One more step for items. -/
theorem takes_readItems
    (hitems : ∀ cs, Takes (fun xs => ∀ x ∈ xs, Legible levels x) cs (readItems levels n cs))
    (cs : List Char) :
    Takes (fun xs => ∀ x ∈ xs, Legible levels x) cs (readItems levels (n + 1) cs) := by
  rw [readItems_eq]
  refine (hvalue cs).bind fun x r hx hr => Takes.mono ?_ hr.le
  refine takes_readNext (fun r => ?_) r (List.forall_mem_singleton.mpr hx)
  exact (hitems r).map fun xs hxs => List.forall_mem_cons.mpr ⟨hx, hxs⟩

/-- One more step for members. -/
theorem takes_readMembers
    (hmembers : ∀ cs, Takes (fun ms => ∀ e ∈ ms, Legible levels e.2) cs (readMembers levels n cs))
    (cs : List Char) :
    Takes (fun ms => ∀ e ∈ ms, Legible levels e.2) cs (readMembers levels (n + 1) cs) := by
  by_cases hquote : ∃ r, cs = '"' :: r
  · obtain ⟨text, rfl⟩ := hquote
    rw [readMembers_eq]
    refine Takes.mono ?_ (Nat.le_succ text.length)
    refine (takes_readText text).bind fun key r _ hr => Takes.mono ?_ hr.le
    refine takes_readColon (fun r => ?_) r
    refine (hvalue r).bind fun x r hx hr => Takes.mono ?_ hr.le
    refine takes_readNext (fun r => ?_) r (List.forall_mem_singleton.mpr hx)
    exact (hmembers r).map fun ms hms => List.forall_mem_cons.mpr ⟨hx, hms⟩
  · rw [readMembers_error levels n fun r hr => hquote ⟨r, hr⟩]
    exact takes_error

end Values

/-- **What is read can be read back**, and less than the whole text is left. -/
theorem takes_read (n : Nat) : ∀ (levels : Nat) (cs : List Char),
    Takes (Legible levels) cs (readValue levels n cs) ∧
      Takes (fun xs => ∀ x ∈ xs, Legible levels x) cs (readItems levels n cs) ∧
      Takes (fun ms => ∀ e ∈ ms, Legible levels e.2) cs (readMembers levels n cs) := by
  induction n with
  | zero => exact fun levels cs => ⟨takes_error, takes_error, takes_error⟩
  | succ n ih =>
    exact fun levels cs =>
      ⟨takes_readValue (fun levels cs => (ih levels cs).2.1) (fun levels cs => (ih levels cs).2.2) cs,
        takes_readItems (fun cs => (ih levels cs).1) (fun cs => (ih levels cs).2.1) cs,
        takes_readMembers (fun cs => (ih levels cs).1) (fun cs => (ih levels cs).2.2) cs⟩

/-- A document that is read can be read back. -/
theorem legible_of_read {cs : List Char} {v : Value} (h : read cs = .ok v) :
    Legible depthLimit v := by
  rw [read.eq_def] at h
  split at h
  · cases h
  · obtain ⟨⟨v', r⟩, hread, hrest⟩ := Except.bind_eq_ok_iff.mp h
    dsimp only at hrest
    split at hrest
    · cases hrest
      exact ((takes_read _ depthLimit _).1 v r hread).1
    · cases hrest

/-! ## Steps -/

section Parts

variable {α β : Type} {cs : List Char}

theorem bind_congr {x : Read α} {f g : α × List Char → Read β}
    (h : ∀ a r, x = .ok (a, r) → f (a, r) = g (a, r)) : x.bind f = x.bind g := by
  rcases x with e | ⟨a, r⟩
  · rfl
  · exact h a r rfl

/-- How the rest is read only matters for the rest. -/
theorem readInside_congr {closer : Char} {empty : α} {more more' : List Char → Read α}
    (h : ∀ r : List Char, r.length ≤ cs.length → more r = more' r) :
    readInside closer empty more cs = readInside closer empty more' cs := by
  have hskip := length_skipSpace cs
  rw [readInside, readInside]
  split
  · exact h [] (Nat.zero_le _)
  · rename_i c r hcons
    rw [hcons] at hskip
    rw [h _ hskip]

section Shorter

variable {more more' : List Char → Read α}
  (h : ∀ r : List Char, r.length < cs.length → more r = more' r)

include h

/-- How the rest is read only matters for the rest, which is shorter. -/
theorem readNext_congr {closer : Char} {last : α} :
    readNext closer last more cs = readNext closer last more' cs := by
  have hskip := length_skipSpace cs
  rw [readNext, readNext]
  split
  · rfl
  · rename_i c r hcons
    rw [hcons] at hskip
    rw [h _ ((length_skipSpace r).trans_lt hskip)]

/-- The same for a colon. -/
theorem readColon_congr : readColon more cs = readColon more' cs := by
  have hskip := length_skipSpace cs
  rw [readColon, readColon]
  split
  · rfl
  · rename_i c r hcons
    rw [hcons] at hskip
    rw [h _ ((length_skipSpace r).trans_lt hskip)]

end Shorter

end Parts

/-- A step more than two for each character changes no value, -/
theorem readValue_succ {n : Nat}
    (hitems : ∀ levels (cs : List Char), 2 * cs.length + 2 ≤ n →
      readItems levels (n + 1) cs = readItems levels n cs)
    (hmembers : ∀ levels (cs : List Char), 2 * cs.length + 2 ≤ n →
      readMembers levels (n + 1) cs = readMembers levels n cs)
    (levels : Nat) {cs : List Char} (hn : 2 * cs.length ≤ n) :
    readValue levels (n + 1 + 1) cs = readValue levels (n + 1) cs := by
  obtain ⟨r, rfl⟩ | ⟨r, rfl⟩ | ⟨r, rfl⟩ | hscalar := value_cases cs
  · rw [readValue, readValue]
  · rw [List.length_cons] at hn
    rcases levels with _ | levels
    · rfl
    · rw [readValue_list, readValue_list]
      exact readInside_congr fun r hr => by rw [hitems levels r (by omega)]
  · rw [List.length_cons] at hn
    rcases levels with _ | levels
    · rfl
    · rw [readValue_record, readValue_record]
      exact readInside_congr fun r hr => by rw [hmembers levels r (by omega)]
  · rw [readValue_scalar levels _ hscalar, readValue_scalar levels _ hscalar]

section Succ

variable {levels n : Nat}
  (hvalue : ∀ cs : List Char, 2 * cs.length + 1 ≤ n →
    readValue levels (n + 1) cs = readValue levels n cs)

include hvalue

/-- no items, -/
theorem readItems_succ
    (hitems : ∀ cs : List Char, 2 * cs.length + 2 ≤ n →
      readItems levels (n + 1) cs = readItems levels n cs)
    {cs : List Char} (hn : 2 * cs.length + 1 ≤ n) :
    readItems levels (n + 1 + 1) cs = readItems levels (n + 1) cs := by
  rw [readItems_eq, readItems_eq, hvalue cs hn]
  refine bind_congr fun x r hread => ?_
  have hr := ((takes_read n levels cs).1 x r hread).2
  exact readNext_congr fun r' hr' => by rw [hitems r' (by omega)]

/-- and no members. -/
theorem readMembers_succ
    (hmembers : ∀ cs : List Char, 2 * cs.length + 2 ≤ n →
      readMembers levels (n + 1) cs = readMembers levels n cs)
    {cs : List Char} (hn : 2 * cs.length + 1 ≤ n) :
    readMembers levels (n + 1 + 1) cs = readMembers levels (n + 1) cs := by
  by_cases hquote : ∃ r, cs = '"' :: r
  · obtain ⟨text, rfl⟩ := hquote
    rw [List.length_cons] at hn
    rw [readMembers_eq, readMembers_eq]
    refine bind_congr fun key r hkey => readColon_congr fun r₁ hr₁ => ?_
    have hr := (takes_readText text key r hkey).2
    rw [hvalue r₁ (by omega)]
    refine bind_congr fun x r₂ hread => readNext_congr fun r₃ hr₃ => ?_
    have hr₂ := ((takes_read n levels r₁).1 x r₂ hread).2
    rw [hmembers r₃ (by omega)]
  · have hnone : ∀ r, cs ≠ '"' :: r := fun r hr => hquote ⟨r, hr⟩
    rw [readMembers_error levels _ hnone, readMembers_error levels _ hnone]

end Succ

/-- **Two steps for each character suffice.** -/
theorem read_succ (n : Nat) : ∀ (levels : Nat) (cs : List Char),
    (2 * cs.length + 1 ≤ n → readValue levels (n + 1) cs = readValue levels n cs) ∧
      (2 * cs.length + 2 ≤ n → readItems levels (n + 1) cs = readItems levels n cs) ∧
      (2 * cs.length + 2 ≤ n → readMembers levels (n + 1) cs = readMembers levels n cs) := by
  induction n with
  | zero =>
    exact fun levels cs => ⟨fun h => absurd h (Nat.not_succ_le_zero _),
      fun h => absurd h (Nat.not_succ_le_zero _), fun h => absurd h (Nat.not_succ_le_zero _)⟩
  | succ n ih =>
    exact fun levels cs =>
      ⟨fun h => readValue_succ (fun levels cs => (ih levels cs).2.1)
          (fun levels cs => (ih levels cs).2.2) levels (Nat.le_of_succ_le_succ h),
        fun h => readItems_succ (fun cs => (ih levels cs).1) (fun cs => (ih levels cs).2.1)
          (Nat.le_of_succ_le_succ h),
        fun h => readMembers_succ (fun cs => (ih levels cs).1) (fun cs => (ih levels cs).2.2)
          (Nat.le_of_succ_le_succ h)⟩

/-- **Two steps for each character suffice.** -/
theorem readValue_of_le (levels : Nat) {cs : List Char} {n : Nat} (h : 2 * cs.length + 1 ≤ n) :
    readValue levels n cs = readValue levels (2 * cs.length + 1) cs := by
  induction n, h using Nat.le_induction with
  | base => rfl
  | succ n hn ih => rw [(read_succ n levels cs).1 hn, ih]

end Scaffold.Document.Json
