import Scaffold.Options.Coerce
import Scaffold.Proofs.Validation.Reading

/-!
# Proofs/Options/Omission — options of which some are left out

A section of an input is read member by member, so leaving some members out changes what is read of
these and of no other (`find?_without`).  An option that is left out has its default.  If it had
been given as just that, all options have the values that they had, and only the choices that were
left out are open now (`exists_coerce_generation`, `exists_coerce_export`).
-/

namespace Scaffold.Document.Value

/-! ## Mappings without some members -/

/-- A mapping without the members of some names. -/
def without (v : Value) (ns : List String) : Value := ns.foldl eraseMember v

/-- The keys of a mapping. -/
def keys (v : Value) : List Value := (v.entries?.getD []).map (·.1)

/-- A value that has no parts. -/
def isScalar : Value → Bool
  | bool _ | int _ | real _ | text _ | bytes _ => true
  | _ => false

theorem isMapping_without (v : Value) (ns : List String) :
    (v.without ns).isMapping = v.isMapping := by
  induction ns generalizing v with
  | nil => rfl
  | cons n ns ih =>
    refine (ih _).trans ?_
    cases v <;> rfl

theorem null_without (ns : List String) : null.without ns = null := by
  induction ns with
  | nil => rfl
  | cons n ns ih => exact ih

theorem keys_record (ms : Members) : (record ms).keys = ms.map fun e => text e.1 := by
  rw [keys, entries?, Option.getD_some, List.map_map]
  rfl

theorem keys_table (es : List (Value × Value)) : (table es).keys = es.map (·.1) := by
  rw [keys, entries?, Option.getD_some, List.map_map]
  rfl

/-- Erasing a member leaves the other keys. -/
theorem keys_eraseMember (v : Value) (n : String) :
    (v.eraseMember n).keys = v.keys.filter fun k => k.text? ≠ some n := by
  cases v with
  | record ms =>
    rw [eraseMember, keys_record, keys_record, Members.erase, List.filter_map]
    congr 1
    refine List.filter_congr fun e _ => ?_
    simp [text?]
  | table es => rw [eraseMember, keys_table, keys_table, List.filter_map]; rfl
  | _ => rfl

theorem mem_keys_without {v k : Value} {ns : List String} :
    k ∈ (v.without ns).keys ↔ k ∈ v.keys ∧ ∀ n ∈ ns, k.text? ≠ some n := by
  induction ns generalizing v with
  | nil => simp [without]
  | cons n ns ih =>
    rw [without, List.foldl_cons, ← without, ih, keys_eraseMember]
    simp [and_assoc]

theorem text?_eq_some_iff {v : Value} {n : String} : v.text? = some n ↔ v = text n := by
  cases v <;> simp [text?]

/-- A member is missing exactly if its name is no key. -/
theorem member?_eq_none_iff {v : Value} {n : String} : v.member? n = none ↔ text n ∉ v.keys := by
  cases v with
  | record ms =>
    rw [member?, Option.map_eq_none_iff, Members.get?, List.lookup_eq_none_iff, keys_record]
    simp only [bne_iff_ne, List.mem_map, text.injEq, not_exists, not_and, ne_eq]
    exact forall₂_congr fun e _ => not_congr eq_comm
  | table es =>
    rw [member?, Option.map_eq_none_iff, List.find?_eq_none, keys_table]
    simp only [decide_eq_true_eq, text?_eq_some_iff, List.mem_map, not_exists, not_and]
  | _ => exact iff_of_true rfl List.not_mem_nil

theorem isScalar_eq_false {v : Value} (h : v.isMapping = true) : v.isScalar = false := by
  cases v <;> first | rfl | cases h

/-- A part that stands as it is in the whole if it has no parts of its own. -/
theorem eq_of_takenOut {part x : Value} {whole : Value → Value}
    (hwhole : ∀ y, (whole y).isMapping = true) (hx : x.isScalar = true)
    (h : part.takenOut whole = x) : part = x := by
  rw [takenOut] at h
  split at h
  · subst h
    cases part with
    | again n =>
      rw [fill] at hx
      split at hx
      · exact Bool.noConfusion ((isScalar_eq_false (hwhole (again 0))).symm.trans hx)
      · cases hx
    | _ => first | rfl | cases hx
  · exact h

theorem takenOut_of_isScalar {x : Value} (h : x.isScalar = true) (whole : Value → Value) :
    x.takenOut whole = x := by
  refine takenOut_of_not_reaches ?_ whole
  cases x <;> first | rfl | cases h

/-! ### Members as they stand -/

/-- The members of a mapping as they stand in it. -/
def parts : Value → List (Value × Value)
  | record ms => ms.map fun e => (text e.1, e.2)
  | table es => es
  | _ => []

/-- The first member of a name. -/
def part? (v : Value) (n : String) : Option Value :=
  (v.parts.find? fun e => e.1.text? = some n).map (·.2)

/-- The last member that is converted is the conversion of the one that is found. -/
theorem find?_map_text (f : String → Value → Value) (ms : Members) (n : String) :
    ((ms.map fun e => (text e.1, f e.1 e.2)).find? fun e => e.1.text? = some n).map (·.2) =
      (ms.lookup n).map (f n) := by
  induction ms with
  | nil => rfl
  | cons e ms ih =>
    rw [List.lookup_cons]
    by_cases hn : n = e.1
    · simp [text?, hn]
    · simpa [text?, Ne.symm hn, beq_false_of_ne hn] using ih

theorem part?_record (ms : Members) (n : String) : (record ms).part? n = ms.lookup n :=
  (find?_map_text (fun _ x => x) ms n).trans Option.map_id'

section Parts

variable {v x : Value} {n : String}

/-- A member is what stands under its name, taken out of the mapping. -/
theorem exists_member?_eq_map (v : Value) (n : String) : ∃ whole : Value → Value,
    (∀ y, (whole y).isMapping = true) ∧ v.member? n = (v.part? n).map (·.takenOut whole) := by
  cases v with
  | record ms =>
    refine ⟨fun part => record (Members.put n part ms), fun _ => rfl, ?_⟩
    rw [part?_record]
    rfl
  | table es =>
    refine ⟨fun part => table (putEntry (text n) part es), fun _ => rfl, ?_⟩
    rw [part?, Option.map_map]
    rfl
  | _ => exact ⟨fun _ => record [], fun _ => rfl, rfl⟩

theorem member?_eq_none_iff_part? : v.member? n = none ↔ v.part? n = none := by
  obtain ⟨whole, -, h⟩ := exists_member?_eq_map v n
  rw [h, Option.map_eq_none_iff]

/-- For scalars it makes no difference where a member is found. -/
theorem member?_eq_some_iff (hx : x.isScalar = true) :
    v.member? n = some x ↔ v.part? n = some x := by
  obtain ⟨whole, hwhole, h⟩ := exists_member?_eq_map v n
  rw [h, Option.map_eq_some_iff]
  constructor
  · rintro ⟨y, hy, htaken⟩
    rw [hy, eq_of_takenOut hwhole hx htaken]
  · intro hpart
    exact ⟨x, hpart, takenOut_of_isScalar hx whole⟩

end Parts

/-- Erasing a member leaves the other parts. -/
theorem parts_eraseMember (v : Value) (n : String) :
    (v.eraseMember n).parts = v.parts.filter fun e => e.1.text? ≠ some n := by
  cases v with
  | record ms =>
    rw [eraseMember, parts, parts, Members.erase, List.filter_map]
    congr 1
    exact List.filter_congr fun e _ => by simp [text?]
  | _ => rfl

/-- What is erased is not found, and all else is. -/
theorem part?_eraseMember (v : Value) (n m : String) :
    (v.eraseMember n).part? m = if m = n then none else v.part? m := by
  rw [part?, parts_eraseMember, List.find?_filter]
  split
  · rename_i heq
    subst heq
    rw [Option.map_eq_none_iff, List.find?_eq_none]
    simp
  · rename_i hne
    rw [part?]
    congr 2
    funext e
    by_cases he : e.1.text? = some m <;> simp [he, hne]

theorem part?_without (v : Value) (ns : List String) (m : String) :
    (v.without ns).part? m = if m ∈ ns then none else v.part? m := by
  induction ns generalizing v with
  | nil => rfl
  | cons n ns ih =>
    rw [without, List.foldl_cons, ← without, ih, part?_eraseMember]
    by_cases hm : m = n <;> simp [hm]

/-- A member without parts stays when others are left out. -/
theorem member?_without {v x : Value} {k : String} {ns : List String} (hk : k ∉ ns)
    (h : v.member? k = some x) (hx : x.isScalar = true) : (v.without ns).member? k = some x := by
  rw [member?_eq_some_iff hx, part?_without, if_neg hk]
  exact (member?_eq_some_iff hx).mp h

theorem member?_without_of_mem {k : String} {ns : List String} (v : Value) (hk : k ∈ ns) :
    (v.without ns).member? k = none :=
  member?_eq_none_iff.mpr fun hmem => (mem_keys_without.mp hmem).2 k hk rfl

theorem member?_without_of_none {v : Value} {k : String} (ns : List String)
    (h : v.member? k = none) : (v.without ns).member? k = none :=
  member?_eq_none_iff.mpr fun hmem => member?_eq_none_iff.mp h (mem_keys_without.mp hmem).1

end Scaffold.Document.Value

namespace Scaffold.Schema

open Document

variable {α : Type} {v : Value} {keys : List Key} {ns : List String}

/-! ## Reading what is left -/

/-- The spellings under which the keys are found. -/
def found (keys : List Key) (v : Value) : List String :=
  keys.filterMap fun k => (k.find? v).map (·.1)

/-- A mapping is closed exactly if each of its keys is one under which something was found. -/
theorem closed_eq_ok_iff :
    closed v keys = .ok () ↔ ∀ k ∈ v.keys, ∃ n ∈ found keys v, k = .text n := by
  rw [Value.keys, List.forall_mem_map, closed, found]
  dsimp only
  split
  · rename_i hempty
    rw [List.isEmpty_iff, List.filterMap_eq_nil_iff] at hempty
    refine iff_of_true rfl fun e he => ?_
    have hissue := hempty e he
    revert hissue
    cases e.1 <;> simp
  · rename_i hempty
    rw [List.isEmpty_iff, List.filterMap_eq_nil_iff] at hempty
    refine iff_of_false (by rintro ⟨⟩) fun h => hempty fun e he => ?_
    obtain ⟨n, hn, hkey⟩ := h e he
    rw [hkey]
    simp [hn]

/-- The spellings of a key. -/
def Key.spellings (k : Key) : List String := [k.spelling, k.name]

@[simp] theorem Key.spelling_mem_spellings (k : Key) : k.spelling ∈ k.spellings :=
  List.mem_cons_self

@[simp] theorem Key.name_mem_spellings (k : Key) : k.name ∈ k.spellings :=
  List.mem_cons_of_mem _ List.mem_cons_self

/-- No key has a spelling of another one. -/
def Apart (keys : List Key) : Prop :=
  ∀ k ∈ keys, ∀ k' ∈ keys, ∀ n ∈ k.spellings, n ∈ k'.spellings → k = k'

instance (keys : List Key) : Decidable (Apart keys) :=
  inferInstanceAs (Decidable
    (∀ k ∈ keys, ∀ k' ∈ keys, ∀ n ∈ k.spellings, n ∈ k'.spellings → k = k'))

/-- A key is found under its spelling, or else under its name. -/
theorem find?_eq_some_iff {k : Key} {n : String} {x : Value} : k.find? v = some (n, x) ↔
    v.member? n = some x ∧ (n = k.spelling ∨ n = k.name ∧ v.member? k.spelling = none) := by
  rw [Key.find?]
  cases hspelling : v.member? k.spelling with
  | some y =>
    constructor
    · rintro ⟨⟩
      exact ⟨hspelling, .inl rfl⟩
    · rintro ⟨hn, rfl | ⟨-, ⟨⟩⟩⟩
      rw [hspelling] at hn
      cases hn
      rfl
  | none =>
    constructor
    · intro h
      obtain ⟨y, hy, heq⟩ := Option.map_eq_some_iff.mp h
      cases heq
      exact ⟨hy, .inr ⟨rfl, rfl⟩⟩
    · rintro ⟨hn, rfl | ⟨rfl, -⟩⟩
      · rw [hspelling] at hn
        cases hn
      · rw [hn]
        rfl

theorem Key.mem_spellings_of_find? {k : Key} {n : String} {x : Value}
    (h : k.find? v = some (n, x)) : n ∈ k.spellings := by
  obtain ⟨-, rfl | ⟨rfl, -⟩⟩ := find?_eq_some_iff.mp h <;> simp

/-- A mapping without other members has each of its members under the spelling of a key. -/
theorem exists_find?_of_closed (hclosed : closed v keys = .ok ()) {n : String}
    (h : v.member? n ≠ none) : ∃ k ∈ keys, ∃ x, k.find? v = some (n, x) := by
  have hmem := not_not.mp (mt Value.member?_eq_none_iff.mpr h)
  obtain ⟨m, hm, heq⟩ := closed_eq_ok_iff.mp hclosed _ hmem
  cases heq
  obtain ⟨k, hk, hfound⟩ := List.mem_filterMap.mp hm
  obtain ⟨⟨n, x⟩, hfind, rfl⟩ := Option.map_eq_some_iff.mp hfound
  exact ⟨k, hk, x, hfind⟩

theorem isScalar_of_closed (hclosed : closed v keys = .ok ())
    (hscalar : ∀ k ∈ keys, ∀ n x, k.find? v = some (n, x) → x.isScalar = true) {n : String}
    {x : Value} (h : v.member? n = some x) : x.isScalar = true := by
  obtain ⟨k, hk, y, hfind⟩ := exists_find?_of_closed hclosed (by rw [h]; nofun)
  obtain rfl := Option.some.inj (h.symm.trans (find?_eq_some_iff.mp hfind).1)
  exact hscalar k hk n x hfind

section Closed

variable (hapart : Apart keys) (hclosed : closed v keys = .ok ())

include hapart hclosed

/-- A mapping without other members has a member under no spelling but the one that is read. -/
theorem member?_eq_none {k : Key} (hk : k ∈ keys) {n : String} (hn : n ∈ k.spellings)
    (hfind : ∀ x, k.find? v ≠ some (n, x)) : v.member? n = none := by
  by_contra hmember
  obtain ⟨k', hk', x, hfind'⟩ := exists_find?_of_closed hclosed hmember
  obtain rfl := hapart k hk k' hk' n hn (Key.mem_spellings_of_find? hfind')
  exact hfind x hfind'

variable (hscalar : ∀ k ∈ keys, ∀ n x, k.find? v = some (n, x) → x.isScalar = true)

include hscalar

/-- **What is read of a member when others are left out**: nothing if its spelling is among them,
and otherwise what was read before. -/
theorem find?_without {k : Key} (hk : k ∈ keys) (ns : List String) :
    k.find? (v.without ns) = (k.find? v).filter fun e => e.1 ∉ ns := by
  have hnone {n : String} (hn : n ∈ k.spellings) (hfind : ∀ x, k.find? v = some (n, x) → n ∈ ns) :
      (v.without ns).member? n = none := by
    by_cases hmem : n ∈ ns
    · exact Value.member?_without_of_mem v hmem
    · refine Value.member?_without_of_none ns (member?_eq_none hapart hclosed hk hn fun x hx => ?_)
      exact hmem (hfind x hx)
  cases hfind : k.find? v with
  | none =>
    rw [Key.find?, hnone k.spelling_mem_spellings (by simp [hfind]),
      hnone k.name_mem_spellings (by simp [hfind])]
    rfl
  | some e =>
    obtain ⟨n, x⟩ := e
    by_cases hn : n ∈ ns
    · have hall {m : String} (hm : m ∈ k.spellings) : (v.without ns).member? m = none := by
        refine hnone hm fun y hy => ?_
        rw [hfind] at hy
        cases hy
        exact hn
      rw [Key.find?, hall k.spelling_mem_spellings, hall k.name_mem_spellings]
      simp [Option.filter, hn]
    · obtain ⟨hmember, hused⟩ := find?_eq_some_iff.mp hfind
      have hkept : (v.without ns).member? n = some x :=
        Value.member?_without hn hmember (hscalar k hk n x hfind)
      have hfiltered : (some (n, x)).filter (fun e => decide (e.1 ∉ ns)) = some (n, x) := by
        simp [Option.filter, hn]
      rw [hfiltered]
      refine find?_eq_some_iff.mpr ⟨hkept, ?_⟩
      obtain hread | ⟨hread, hspelled⟩ := hused
      · exact .inl hread
      · refine .inr ⟨hread, hnone k.spelling_mem_spellings fun y hy => ?_⟩
        rw [(find?_eq_some_iff.mp hy).1] at hspelled
        cases hspelled

/-- Nothing new is left open by what is left out. -/
theorem closed_without (ns : List String) : closed (v.without ns) keys = .ok () := by
  refine closed_eq_ok_iff.mpr fun y hy => ?_
  obtain ⟨hy, hleft⟩ := Value.mem_keys_without.mp hy
  obtain ⟨n, hn, rfl⟩ := closed_eq_ok_iff.mp hclosed y hy
  refine ⟨n, ?_, rfl⟩
  obtain ⟨k, hk, hfound⟩ := List.mem_filterMap.mp hn
  obtain ⟨⟨m, x⟩, hfind, rfl⟩ := Option.map_eq_some_iff.mp hfound
  have hkept : m ∉ ns := fun hm => hleft m hm rfl
  refine List.mem_filterMap.mpr ⟨k, hk, ?_⟩
  rw [find?_without hapart hclosed hscalar hk, hfind]
  simp [hkept]

end Closed

/-- A member is left out. -/
def leftOut (v : Value) (k : Key) (ns : List String) : Bool :=
  (k.find? v).any fun e => decide (e.1 ∈ ns)

theorem leftOut_iff {k : Key} :
    leftOut v k ns = true ↔ ∃ n ∈ ns, ∃ x, k.find? v = some (n, x) := by
  rw [leftOut]
  cases k.find? v with
  | none => simp
  | some e => simp [Prod.ext_iff]

/-- A choice keeps its value; if it is left out, it had been made and is open now. -/
structure Reopens {β : Type} (out : Bool) (s s' : Setting β) : Prop where
  eq : s' = if out then .leftOpen s.value else s
  made : out = true → s.isOpen = false

theorem Reopens.value_eq {β : Type} {out : Bool} {s s' : Setting β} (h : Reopens out s s') :
    s'.value = s.value := by
  rw [h.eq]
  split <;> rfl

theorem Reopens.refl {β : Type} (s : Setting β) : Reopens false s s := ⟨rfl, nofun⟩

theorem Reopens.eq_self {β : Type} {s s' : Setting β} (h : Reopens false s s') : s' = s := h.eq

/-- An open choice takes more room than one that is made. -/
theorem Reopens.length_shown {β : Type} [NamedKind β] {out : Bool} {s s' : Setting β}
    (h : Reopens out s s')
    (hlt : ∀ b : β, (Setting.made b).shown.length < (Setting.leftOpen b).shown.length) :
    s.shown.length + out.toNat ≤ s'.shown.length := by
  rw [h.eq]
  cases out with
  | false => exact Nat.le_refl _
  | true =>
    obtain ⟨b, isOpen⟩ := s
    obtain rfl : isOpen = false := h.made rfl
    exact hlt b

theorem isScalar_of_choice {β : Type} [Named β] {x : Value} {b : β} (h : choice x = .ok b) :
    x.isScalar = true := by
  cases x <;> first | rfl | cases h

theorem isScalar_of_bool {x : Value} {b : Bool} (h : bool x = .ok b) : x.isScalar = true := by
  cases x <;> first | rfl | cases h

section Left

variable {k : Key} (hfind : k.find? (v.without ns) = (k.find? v).filter fun e => e.1 ∉ ns)

include hfind

/-- What is left out has its default, and all else is read as before. -/
theorem optional_without {d a : α} {read : Value → Checked α} (h : optional v k d read = .ok a) :
    optional (v.without ns) k d read = .ok (if leftOut v k ns then d else a) := by
  rw [optional, hfind, leftOut]
  rw [optional] at h
  cases hfound : k.find? v with
  | none =>
    rw [hfound] at h
    cases h
    rfl
  | some e =>
    rw [hfound] at h
    by_cases hn : e.1 ∈ ns
    · simp [Option.filter, hn]
    · simpa [Option.filter, hn] using h

/-- An option that is left out as its default is read as before. -/
theorem optional_without_default {x : Value} {d a : α} {read : Value → Checked α}
    (h : optional v k d read = .ok a) (hread : read x = .ok d)
    (hdefault : ∀ n ∈ ns, ∀ y, k.find? v = some (n, y) → y = x) :
    optional (v.without ns) k d read = .ok a := by
  rw [optional_without hfind h]
  split
  · rename_i hout
    obtain ⟨n, hn, y, hfound⟩ := leftOut_iff.mp hout
    obtain rfl := hdefault n hn y hfound
    rw [optional, hfound, Checked.under_eq_ok_iff, hread] at h
    exact h
  · rfl

/-- A choice that is left out as its default keeps its value and is open. -/
theorem exists_setting_without {β : Type} [Named β] {d : β} {s : Setting β}
    (h : setting v k d = .ok s) (hread : choice (.text (Named.text d)) = .ok d)
    (hdefault : ∀ n ∈ ns, ∀ y, k.find? v = some (n, y) → y = .text (Named.text d)) :
    ∃ s', setting (v.without ns) k d = .ok s' ∧ Reopens (leftOut v k ns) s s' := by
  refine ⟨_, optional_without hfind h, ?_⟩
  by_cases hout : leftOut v k ns = true
  · obtain ⟨n, hn, y, hfound⟩ := leftOut_iff.mp hout
    obtain rfl := hdefault n hn y hfound
    rw [setting, optional, hfound, Checked.under_eq_ok_iff, hread] at h
    cases h
    rw [hout]
    exact ⟨rfl, fun _ => rfl⟩
  · exact ⟨by rw [if_neg hout, if_neg hout], fun h => absurd h hout⟩

end Left

end Scaffold.Schema

namespace Scaffold.Options

open Document Schema

/-! ## Sections -/

namespace Section

variable {α : Type} {s : Section α} {v : Value} {ns : List String} {o : α}

/-- Of the members of some names, each has the value that the section has by default. -/
def GivesDefaults (s : Section α) (v : Value) (ns : List String) : Prop :=
  ∀ k ∈ s.keys, ∀ n ∈ ns, ∀ x, k.find? v = some (n, x) →
    (s.document s.default).member? k.spelling = some x

/-- A member of some names has the value that its option has by default. -/
theorem GivesDefaults.eq_default (h : s.GivesDefaults v ns) {k : Key} (hk : k ∈ s.keys) {x : Value}
    (hx : (s.document s.default).member? k.spelling = some x) :
    ∀ n ∈ ns, ∀ y, k.find? v = some (n, y) → y = x :=
  fun n hn y hy => Option.some.inj ((h k hk n hn y hy).symm.trans hx)

/-- Of the members of one name, only the key that is spelled so counts. -/
theorem givesDefaults_singleton {n : String} {k : Key} {x : Value}
    (hkey : ∀ k' ∈ s.keys, (k'.find? v).map (·.1) = some n → k' = k)
    (hfind : k.find? v = some (n, x))
    (hdefault : (s.document s.default).member? k.spelling = some x) : s.GivesDefaults v [n] := by
  intro k' hk' m hm y hy
  obtain rfl := List.mem_singleton.mp hm
  obtain rfl := hkey k' hk' (by rw [hy]; rfl)
  rw [hfind] at hy
  cases hy
  exact hdefault

theorem coerce_of_ne_null (h : v ≠ .null) : s.coerce v =
    if !v.isMapping then .error (.notMapping s.kind v.kind)
    else match s.unsupported? v with
      | some r => .error r
      | none => (s.read v).toExcept.mapError (.invalid s.kind) := by
  cases v <;> first | exact absurd rfl h | rfl

/-- Options are the default ones for nothing, and otherwise read from a mapping in which nothing is
unsupported. -/
theorem coerce_eq_ok_iff : s.coerce v = .ok o ↔ v = .null ∧ o = s.default ∨
    v.isMapping = true ∧ s.unsupported? v = none ∧ s.read v = .ok o := by
  by_cases hnull : v = .null
  · subst hnull
    have hcoerce : s.coerce .null = .ok s.default := rfl
    simp [hcoerce, eq_comm, Value.isMapping]
  · rw [coerce_of_ne_null hnull]
    by_cases hmapping : v.isMapping = true
    · simp only [hnull, hmapping, Bool.not_true, Bool.false_eq_true, if_false, false_and, true_and,
        false_or]
      cases s.unsupported? v with
      | some r => simp
      | none => cases s.read v <;> simp [Checked.toExcept, Except.mapError]
    · simp [hnull, hmapping]

/-- What is left out is not unsupported. -/
theorem unsupported?_without (ns : List String) (h : s.unsupported? v = none) :
    s.unsupported? (v.without ns) = none := by
  rw [unsupported?, List.findSome?_eq_none_iff] at h ⊢
  rintro ⟨option, allowed⟩ hmem
  have hoption := h _ hmem
  dsimp only at hoption ⊢
  by_cases hn : option ∈ ns
  · rw [Value.member?_without_of_mem v hn]
  cases hmember : v.member? option with
  | none => rw [Value.member?_without_of_none ns hmember]
  | some x =>
    rw [hmember] at hoption
    have hscalar : x.isScalar = true := by
      cases x <;> first | rfl | cases hoption
    rw [Value.member?_without hn hmember hscalar]
    exact hoption

/-- A section without some members gives the options that are read from it. -/
theorem coerce_without_eq_ok {o' : α} (hmapping : v.isMapping = true)
    (hunsupported : s.unsupported? v = none) (hread : s.read (v.without ns) = .ok o') :
    s.coerce (v.without ns) = .ok o' := by
  refine coerce_eq_ok_iff.mpr (.inr ⟨?_, unsupported?_without ns hunsupported, hread⟩)
  rw [Value.isMapping_without, hmapping]

end Section

/-- Options for the generation are read setting by setting. -/
theorem generation_read_eq_ok_iff {v : Value} {o : Generation} : Generation.read v = .ok o ↔
    v.isMapping = true ∧ setting v (.plain "framework") .express = .ok o.framework ∧
      setting v (.plain "database") .postgresql = .ok o.database ∧
      setting v (.plain "authentication") .jwt = .ok o.authentication ∧
      setting v (.plain "language") .typescript = .ok o.language ∧
      optional v includeTestsKey true bool = .ok o.includeTests ∧
      optional v includeDocumentationKey true bool = .ok o.includeDocumentation ∧
      closed v Generation.keys = .ok () := by
  rw [Generation.read, entity]
  split
  · rename_i hmapping
    constructor
    · intro h
      obtain ⟨_, _, h₁, hclosed, rfl⟩ := Checked.apply_eq_ok_iff.mp h
      obtain ⟨_, _, h₂, hdocumentation, rfl⟩ := Checked.apply_eq_ok_iff.mp h₁
      obtain ⟨_, _, h₃, htests, rfl⟩ := Checked.apply_eq_ok_iff.mp h₂
      obtain ⟨_, _, h₄, hlanguage, rfl⟩ := Checked.apply_eq_ok_iff.mp h₃
      obtain ⟨_, _, h₅, hauthentication, rfl⟩ := Checked.apply_eq_ok_iff.mp h₄
      obtain ⟨_, _, h₆, hdatabase, rfl⟩ := Checked.apply_eq_ok_iff.mp h₅
      obtain ⟨_, hframework, rfl⟩ := Checked.map_eq_ok_iff.mp h₆
      exact ⟨hmapping, hframework, hdatabase, hauthentication, hlanguage, htests, hdocumentation,
        hclosed⟩
    · rintro ⟨-, hframework, hdatabase, hauthentication, hlanguage, htests, hdocumentation, hclosed⟩
      rw [hframework, hdatabase, hauthentication, hlanguage, htests, hdocumentation, hclosed]
      rfl
  · rename_i hmapping
    exact iff_of_false (by rintro ⟨⟩) fun h => hmapping h.1

/-- So are options for the export. -/
theorem export_read_eq_ok_iff {v : Value} {o : Export} : Export.read v = .ok o ↔
    v.isMapping = true ∧ setting v (.plain "format") .zip = .ok o.format ∧
      optional v includeTestsKey true bool = .ok o.includeTests ∧
      optional v includeDocumentationKey true bool = .ok o.includeDocumentation ∧
      setting v (.plain "template") .basic = .ok o.template ∧
      closed v Export.keys = .ok () := by
  rw [Export.read, entity]
  split
  · rename_i hmapping
    constructor
    · intro h
      obtain ⟨_, _, h₁, hclosed, rfl⟩ := Checked.apply_eq_ok_iff.mp h
      obtain ⟨_, _, h₂, htemplate, rfl⟩ := Checked.apply_eq_ok_iff.mp h₁
      obtain ⟨_, _, h₃, hdocumentation, rfl⟩ := Checked.apply_eq_ok_iff.mp h₂
      obtain ⟨_, _, h₄, htests, rfl⟩ := Checked.apply_eq_ok_iff.mp h₃
      obtain ⟨_, hformat, rfl⟩ := Checked.map_eq_ok_iff.mp h₄
      exact ⟨hmapping, hformat, htests, hdocumentation, htemplate, hclosed⟩
    · rintro ⟨-, hformat, htests, hdocumentation, htemplate, hclosed⟩
      rw [hformat, htests, hdocumentation, htemplate, hclosed]
      rfl
  · rename_i hmapping
    exact iff_of_false (by rintro ⟨⟩) fun h => hmapping h.1

/-! ## Options that are left out -/

/-- Options keep their values, and the choices that are left out are open now. -/
structure Generation.Reopens (out : Key → Bool) (o o' : Generation) : Prop where
  framework : Schema.Reopens (out (.plain "framework")) o.framework o'.framework
  database : Schema.Reopens (out (.plain "database")) o.database o'.database
  authentication : Schema.Reopens (out (.plain "authentication")) o.authentication o'.authentication
  language : Schema.Reopens (out (.plain "language")) o.language o'.language
  includeTests : o'.includeTests = o.includeTests
  includeDocumentation : o'.includeDocumentation = o.includeDocumentation

/-- Options keep their values, and the choices that are left out are open now. -/
structure Export.Reopens (out : Key → Bool) (o o' : Export) : Prop where
  format : Schema.Reopens (out (.plain "format")) o.format o'.format
  template : Schema.Reopens (out (.plain "template")) o.template o'.template
  includeTests : o'.includeTests = o.includeTests
  includeDocumentation : o'.includeDocumentation = o.includeDocumentation

/-- Options with every choice made as it stands. -/
def Generation.settled (o : Generation) : Generation :=
  ⟨.made o.framework.value, .made o.database.value, .made o.authentication.value,
    .made o.language.value, o.includeTests, o.includeDocumentation⟩

/-- Options with every choice made as it stands. -/
def Export.settled (e : Export) : Export :=
  ⟨.made e.format.value, e.includeTests, e.includeDocumentation, .made e.template.value⟩

theorem Generation.settled_eq_iff {o o' : Generation} : o'.settled = o.settled ↔
    o'.framework.value = o.framework.value ∧ o'.database.value = o.database.value ∧
      o'.authentication.value = o.authentication.value ∧ o'.language.value = o.language.value ∧
      o'.includeTests = o.includeTests ∧ o'.includeDocumentation = o.includeDocumentation := by
  simp [settled, Setting.made]

theorem Export.settled_eq_iff {e e' : Export} : e'.settled = e.settled ↔
    e'.format.value = e.format.value ∧ e'.includeTests = e.includeTests ∧
      e'.includeDocumentation = e.includeDocumentation ∧
      e'.template.value = e.template.value := by
  simp [settled, Setting.made]

/-- What the choices do not change by being made depends on their values only. -/
theorem Generation.eq_of_settled {β : Type} {f : Generation → β} (hf : ∀ o, f o.settled = f o)
    {o o' : Generation} (h : o'.settled = o.settled) : f o' = f o := by
  rw [← hf o', h, hf]

theorem Export.eq_of_settled {β : Type} {f : Export → β} (hf : ∀ e, f e.settled = f e)
    {e e' : Export} (h : e'.settled = e.settled) : f e' = f e := by
  rw [← hf e', h, hf]

theorem Generation.Reopens.settled_eq {out : Key → Bool} {o o' : Generation}
    (h : o.Reopens out o') : o'.settled = o.settled := by
  rw [Generation.settled, h.framework.value_eq, h.database.value_eq, h.authentication.value_eq,
    h.language.value_eq, h.includeTests, h.includeDocumentation]
  rfl

theorem Export.Reopens.settled_eq {out : Key → Bool} {e e' : Export} (h : e.Reopens out e') :
    e'.settled = e.settled := by
  rw [Export.settled, h.format.value_eq, h.template.value_eq, h.includeTests,
    h.includeDocumentation]
  rfl

theorem scalar_of_optional {α : Type} {v : Value} {k : Key} {d a : α} {read : Value → Checked α}
    (h : optional v k d read = .ok a) (hread : ∀ x b, read x = .ok b → x.isScalar = true) :
    ∀ n x, k.find? v = some (n, x) → x.isScalar = true := by
  intro n x hfind
  rw [Schema.optional, hfind, Checked.under_eq_ok_iff] at h
  exact hread x a h

theorem scalar_of_setting {α : Type} [Named α] {v : Value} {k : Key} {d : α} {s : Setting α}
    (h : setting v k d = .ok s) : ∀ n x, k.find? v = some (n, x) → x.isScalar = true := by
  refine scalar_of_optional h fun x b hread => ?_
  obtain ⟨a, ha, -⟩ := Checked.map_eq_ok_iff.mp hread
  exact isScalar_of_choice ha

theorem scalar_of_flag {v : Value} {k : Key} {d b : Bool} (h : optional v k d bool = .ok b) :
    ∀ n x, k.find? v = some (n, x) → x.isScalar = true :=
  scalar_of_optional h fun _ _ => isScalar_of_bool

/-- All settings that were read are scalars. -/
theorem Generation.isScalar_of_read {v : Value} {o : Generation} (h : Generation.read v = .ok o) :
    ∀ k ∈ Generation.keys, ∀ n x, k.find? v = some (n, x) → x.isScalar = true := by
  obtain ⟨-, hframework, hdatabase, hauthentication, hlanguage, htests, hdocumentation, -⟩ :=
    generation_read_eq_ok_iff.mp h
  simp only [Generation.keys, List.forall_mem_cons, List.not_mem_nil, false_implies, implies_true,
    and_true]
  exact ⟨scalar_of_setting hframework, scalar_of_setting hdatabase,
    scalar_of_setting hauthentication, scalar_of_setting hlanguage, scalar_of_flag htests,
    scalar_of_flag hdocumentation⟩

theorem Export.isScalar_of_read {v : Value} {o : Export} (h : Export.read v = .ok o) :
    ∀ k ∈ Export.keys, ∀ n x, k.find? v = some (n, x) → x.isScalar = true := by
  obtain ⟨-, hformat, htests, hdocumentation, htemplate, -⟩ := export_read_eq_ok_iff.mp h
  simp only [Export.keys, List.forall_mem_cons, List.not_mem_nil, false_implies, implies_true,
    and_true]
  exact ⟨scalar_of_setting hformat, scalar_of_flag htests, scalar_of_flag hdocumentation,
    scalar_of_setting htemplate⟩

/-- **Leaving out options of a generation that have their defaults opens choices and changes nothing
else.** -/
theorem exists_coerce_generation {v : Value} {ns : List String} {o : Generation}
    (h : generationSection.coerce v = .ok o) (hdefault : generationSection.GivesDefaults v ns) :
    ∃ o', generationSection.coerce (v.without ns) = .ok o' ∧
      o.Reopens (fun k => leftOut v k ns) o' := by
  obtain ⟨rfl, rfl⟩ | ⟨hmapping, hunsupported, hread⟩ := Section.coerce_eq_ok_iff.mp h
  · refine ⟨_, by rw [Value.null_without, h], ?_⟩
    exact ⟨.refl _, .refl _, .refl _, .refl _, rfl, rfl⟩
  · obtain ⟨-, hframework, hdatabase, hauthentication, hlanguage, htests, hdocumentation,
      hclosed⟩ := generation_read_eq_ok_iff.mp hread
    have hapart : Apart Generation.keys := by decide
    have hscalar := Generation.isScalar_of_read hread
    have hfind {k : Key} (hk : k ∈ Generation.keys) := find?_without hapart hclosed hscalar hk ns
    obtain ⟨framework, hframework', hf⟩ := exists_setting_without
      (hfind (by decide)) hframework rfl (hdefault.eq_default (by decide) rfl)
    obtain ⟨database, hdatabase', hd⟩ := exists_setting_without
      (hfind (by decide)) hdatabase rfl (hdefault.eq_default (by decide) rfl)
    obtain ⟨authentication, hauthentication', ha⟩ := exists_setting_without
      (hfind (by decide)) hauthentication rfl (hdefault.eq_default (by decide) rfl)
    obtain ⟨language, hlanguage', hl⟩ := exists_setting_without
      (hfind (by decide)) hlanguage rfl (hdefault.eq_default (by decide) rfl)
    have htests' := optional_without_default (hfind (by decide)) htests rfl
      (hdefault.eq_default (by decide) rfl)
    have hdocumentation' := optional_without_default (hfind (by decide)) hdocumentation rfl
      (hdefault.eq_default (by decide) rfl)
    refine ⟨⟨framework, database, authentication, language, o.includeTests,
      o.includeDocumentation⟩, ?_, hf, hd, ha, hl, rfl, rfl⟩
    refine Section.coerce_without_eq_ok hmapping hunsupported (generation_read_eq_ok_iff.mpr
      ⟨?_, hframework', hdatabase', hauthentication', hlanguage', htests', hdocumentation',
        closed_without hapart hclosed hscalar ns⟩)
    rw [Value.isMapping_without, hmapping]

/-- **Leaving out options of an export that have their defaults opens choices and changes nothing
else.** -/
theorem exists_coerce_export {v : Value} {ns : List String} {o : Export}
    (h : exportSection.coerce v = .ok o) (hdefault : exportSection.GivesDefaults v ns) :
    ∃ o', exportSection.coerce (v.without ns) = .ok o' ∧
      o.Reopens (fun k => leftOut v k ns) o' := by
  obtain ⟨rfl, rfl⟩ | ⟨hmapping, hunsupported, hread⟩ := Section.coerce_eq_ok_iff.mp h
  · refine ⟨_, by rw [Value.null_without, h], ?_⟩
    exact ⟨.refl _, .refl _, rfl, rfl⟩
  · obtain ⟨-, hformat, htests, hdocumentation, htemplate, hclosed⟩ :=
      export_read_eq_ok_iff.mp hread
    have hapart : Apart Export.keys := by decide
    have hscalar := Export.isScalar_of_read hread
    have hfind {k : Key} (hk : k ∈ Export.keys) := find?_without hapart hclosed hscalar hk ns
    obtain ⟨format, hformat', hf⟩ := exists_setting_without
      (hfind (by decide)) hformat rfl (hdefault.eq_default (by decide) rfl)
    obtain ⟨template, htemplate', ht⟩ := exists_setting_without
      (hfind (by decide)) htemplate rfl (hdefault.eq_default (by decide) rfl)
    have htests' := optional_without_default (hfind (by decide)) htests rfl
      (hdefault.eq_default (by decide) rfl)
    have hdocumentation' := optional_without_default (hfind (by decide)) hdocumentation rfl
      (hdefault.eq_default (by decide) rfl)
    refine ⟨⟨format, o.includeTests, o.includeDocumentation, template⟩, ?_, hf, ht, rfl, rfl⟩
    refine Section.coerce_without_eq_ok hmapping hunsupported (export_read_eq_ok_iff.mpr
      ⟨?_, hformat', htests', hdocumentation', htemplate',
        closed_without hapart hclosed hscalar ns⟩)
    rw [Value.isMapping_without, hmapping]

end Scaffold.Options
