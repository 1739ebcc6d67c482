import Mathlib.Data.List.Nodup
import Scaffold.Validation.Result

/-!
# Proofs/Validation/Merging — results that are merged into each other

Places that stand in each other make up a place (`placeUnder_assoc`), so a finding that is moved
outwards twice is moved once by the place of both.  Cycles are added one by one, each only if it is
not there yet; what is added is what was not there (`exists_addCycles_eq`), and it does not matter
whether cycles are added to those that are added later (`addCycles_addCycles`).  Together this makes
merging an action of the places on results (`merge_action`).
-/

namespace Scaffold.Validation

/-! ## Places -/

theorem placeUnder_empty_left (place : String) : placeUnder "" place = place := if_pos rfl

theorem placeUnder_empty_right (outer : String) : placeUnder outer "" = outer := by
  rw [placeUnder]
  split
  · exact Eq.symm ‹_›
  · rfl

theorem placeUnder_of_ne {outer place : String} (houter : outer ≠ "") (hplace : place ≠ "") :
    placeUnder outer place = outer ++ "." ++ place := by
  rw [placeUnder, if_neg houter, if_neg hplace]

theorem placeUnder_ne_empty {outer : String} (houter : outer ≠ "") (place : String) :
    placeUnder outer place ≠ "" := by
  by_cases hplace : place = ""
  · rwa [hplace, placeUnder_empty_right]
  · rw [placeUnder_of_ne houter hplace, String.append_assoc]
    exact fun h => houter (String.append_eq_empty_iff.mp h).1

/-- Places that stand in each other make up one place. -/
theorem placeUnder_assoc (p q place : String) :
    placeUnder p (placeUnder q place) = placeUnder (placeUnder p q) place := by
  by_cases hp : p = ""
  · rw [hp, placeUnder_empty_left, placeUnder_empty_left]
  by_cases hq : q = ""
  · rw [hq, placeUnder_empty_left, placeUnder_empty_right]
  by_cases hplace : place = ""
  · rw [hplace, placeUnder_empty_right, placeUnder_empty_right]
  -- none of them is empty, so a point stands between any two
  rw [placeUnder_of_ne hp (placeUnder_ne_empty hq place), placeUnder_of_ne hq hplace,
    placeUnder_of_ne (placeUnder_ne_empty hp q) hplace, placeUnder_of_ne hp hq]
  simp only [String.append_assoc]

theorem Finding.under_under (p q : String) (f : Finding) :
    (f.under q).under p = f.under (placeUnder p q) :=
  congrArg (fun place => { f with place := place }) (placeUnder_assoc p q f.place)

namespace Result

/-! ## Cycles -/

theorem addCycles_append (cs ds es : List String) :
    addCycles cs (ds ++ es) = addCycles (addCycles cs ds) es := by
  induction ds generalizing cs with
  | nil => rfl
  | cons d ds ih => exact ih _

/-- **What is added to some cycles**: in order and once each, those that were not there. -/
theorem exists_addCycles_eq (cs ds : List String) : ∃ added, addCycles cs ds = cs ++ added ∧
    added.Nodup ∧ added.Sublist ds ∧ ∀ c, c ∈ added ↔ c ∈ ds ∧ c ∉ cs := by
  induction ds generalizing cs with
  | nil => exact ⟨[], (List.append_nil cs).symm, List.nodup_nil, .slnil, by simp⟩
  | cons d ds ih =>
    by_cases hd : d ∈ cs
    · obtain ⟨added, heq, hnodup, hsublist, hmem⟩ := ih cs
      refine ⟨added, ?_, hnodup, hsublist.cons d, fun c => ?_⟩
      · rw [addCycles, if_pos (List.contains_iff_mem.mpr hd), heq]
      · rw [hmem, List.mem_cons]
        exact ⟨fun h => ⟨.inr h.1, h.2⟩,
          fun h => ⟨h.1.resolve_left fun hc => h.2 (hc ▸ hd), h.2⟩⟩
    · obtain ⟨added, heq, hnodup, hsublist, hmem⟩ := ih (cs ++ [d])
      have hnew : d ∉ added := fun h =>
        ((hmem d).mp h).2 (List.mem_append_right _ (List.mem_singleton_self d))
      refine ⟨d :: added, ?_, List.nodup_cons.mpr ⟨hnew, hnodup⟩, hsublist.cons_cons d, fun c => ?_⟩
      · rw [addCycles, if_neg (mt List.contains_iff_mem.mp hd), heq, List.append_assoc]
        rfl
      · rw [List.mem_cons, List.mem_cons, hmem, List.mem_append, List.mem_singleton]
        grind

theorem mem_addCycles {c : String} {cs ds : List String} :
    c ∈ addCycles cs ds ↔ c ∈ cs ∨ c ∈ ds := by
  obtain ⟨added, heq, -, -, hmem⟩ := exists_addCycles_eq cs ds
  rw [heq, List.mem_append, hmem, or_and_left, and_iff_left (Classical.em (c ∈ cs))]

/-- Cycles may be added to those that are added: what would be new to both is added once. -/
theorem addCycles_addCycles (cs ds es : List String) :
    addCycles cs (addCycles ds es) = addCycles (addCycles cs ds) es := by
  induction es generalizing ds with
  | nil => rfl
  | cons e es ih =>
    rw [addCycles, ih, addCycles]
    congr 1
    by_cases he : e ∈ ds
    · have hthere : e ∈ addCycles cs ds := mem_addCycles.mpr (.inr he)
      rw [if_pos (List.contains_iff_mem.mpr he), if_pos (List.contains_iff_mem.mpr hthere)]
    · rw [if_neg (mt List.contains_iff_mem.mp he), addCycles_append]
      rfl

/-! ## Results -/

/-- Merging is associative up to the place at which it is done. -/
theorem merge_merge (r a b : Result) (p q : String) :
    r.merge p (a.merge q b) = (r.merge p a).merge (placeUnder p q) b := by
  have hunder : ((·.under p) ∘ (·.under q) : Finding → Finding) = (·.under (placeUnder p q)) :=
    funext fun f => f.under_under p q
  simp only [merge, List.map_append, List.map_map, List.append_assoc, hunder, addCycles_addCycles]

theorem length_errors_merge (r a : Result) (p : String) :
    (r.merge p a).errors.length = r.errors.length + a.errors.length := by
  rw [errors, merge, List.filter_append, List.filter_map, List.length_append, List.length_map]
  rfl

theorem length_warnings_merge (r a : Result) (p : String) :
    (r.merge p a).warnings.length = r.warnings.length + a.warnings.length := by
  rw [warnings, merge, List.filter_append, List.filter_map, List.length_append, List.length_map]
  rfl

theorem isValid_iff_length_errors (r : Result) : r.isValid = true ↔ r.errors.length = 0 := by
  rw [List.length_eq_zero_iff, errors, List.filter_eq_nil_iff]
  simp [isValid]

/-- **Merging is an action of places on results.**  It does not matter whether a result is merged
into another one before or after that one is merged itself, if its place is put together; findings
and cycles keep their order.  Merging adds each cycle that was not there once, and the counts of
errors and of warnings add up; a result is valid if it counts no error. -/
theorem merge_action (r a b : Result) (p q : String) :
    r.merge p (a.merge q b) =
        (r.merge p a).merge (if p = "" then q else if q = "" then p else p ++ "." ++ q) b ∧
      (∃ added, (r.merge p a).cycles = r.cycles ++ added ∧ added.Nodup ∧
        added.Sublist a.cycles ∧ ∀ c, c ∈ added ↔ c ∈ a.cycles ∧ c ∉ r.cycles) ∧
      (r.merge p a).errors.length = r.errors.length + a.errors.length ∧
      (r.merge p a).warnings.length = r.warnings.length + a.warnings.length ∧
      (r.isValid = true ↔ r.errors.length = 0) :=
  ⟨merge_merge r a b p q, exists_addCycles_eq r.cycles a.cycles, length_errors_merge r a p,
    length_warnings_merge r a p, isValid_iff_length_errors r⟩

end Result

end Scaffold.Validation
