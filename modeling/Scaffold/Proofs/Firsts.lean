import Mathlib.Data.List.Basic
import Mathlib.Data.List.Induction

/-!
# Proofs/Firsts — the members of a list, each where it first occurs

Several functions collect names by adding each that is not there yet.  The result has the members
of the list (`mem_foldl_addNew`), in the order of their first occurrences
(`pairwise_foldl_addNew`).  The other members are repeats of what comes before them (`repeats`); a
function that keeps what it has seen finds them one by one (`repeatsAfter_cons`).
-/

namespace List

variable {α : Type} [DecidableEq α]

/-- Adding what is new loses nothing and adds nothing else. -/
theorem mem_foldl_addNew {xs seen : List α} {x : α} :
    x ∈ xs.foldl (fun seen x => if seen.contains x then seen else seen ++ [x]) seen ↔
      x ∈ seen ∨ x ∈ xs := by
  induction xs generalizing seen with
  | nil => simp
  | cons k xs ih =>
    rw [List.foldl_cons, ih]
    split
    · rename_i hk
      rw [List.contains_eq_mem, decide_eq_true_eq] at hk
      constructor
      · rintro (h | h)
        · exact Or.inl h
        · exact Or.inr (List.mem_cons_of_mem k h)
      · rintro (h | h)
        · exact Or.inl h
        · rcases List.mem_cons.1 h with rfl | h
          · exact Or.inl hk
          · exact Or.inr h
    · simp [or_assoc]

/-- What is new is added in the order in which it is first met. -/
theorem pairwise_foldl_addNew (xs : List α) :
    (xs.foldl (fun seen x => if seen.contains x then seen else seen ++ [x]) []).Pairwise
      fun x y => xs.idxOf x < xs.idxOf y := by
  induction xs using List.reverseRecOn with
  | nil => exact List.Pairwise.nil
  | append_singleton xs x ih =>
    rw [List.foldl_append, List.foldl_cons, List.foldl_nil]
    set seen := xs.foldl (fun seen x => if seen.contains x then seen else seen ++ [x]) []
    have hmem {y : α} (hy : y ∈ seen) : y ∈ xs :=
      (mem_foldl_addNew.mp hy).resolve_left List.not_mem_nil
    have hold : seen.Pairwise fun y z => (xs ++ [x]).idxOf y < (xs ++ [x]).idxOf z := by
      refine ih.imp_of_mem fun {y z} hy hz hyz => ?_
      rwa [List.idxOf_append_of_mem (hmem hy), List.idxOf_append_of_mem (hmem hz)]
    split
    · exact hold
    · rename_i hx
      rw [List.contains_eq_mem, decide_eq_true_eq] at hx
      have hnew : x ∉ xs := fun h => hx (mem_foldl_addNew.mpr (.inr h))
      refine List.pairwise_append.mpr ⟨hold, List.pairwise_singleton _ x, fun y hy z hz => ?_⟩
      rw [List.mem_singleton.mp hz, List.idxOf_append_of_mem (hmem hy),
        List.idxOf_append_of_notMem hnew]
      exact Nat.lt_of_lt_of_le (List.idxOf_lt_length_of_mem (hmem hy)) (Nat.le_add_right _ _)

/-! ## Repeats -/

section Repeats

variable {β : Type} (key : β → α)

/-- The members with the key of one before them, each with its index. -/
def repeats (xs : List β) : List (β × Nat) :=
  xs.zipIdx.filter fun e => key e.1 ∈ (xs.take e.2).map key

/-- The same for a list that goes on after others with the keys `before`; the first member has the
index `i`. -/
def repeatsAfter (before : List α) (i : Nat) (xs : List β) : List (β × Nat) :=
  (xs.zipIdx i).filter fun e => key e.1 ∈ before ++ (xs.take (e.2 - i)).map key

variable {key}

theorem repeats_eq (xs : List β) : repeats key xs = repeatsAfter key [] 0 xs := rfl

/-- A first item is a repeat if its key is known, and makes it known. -/
theorem repeatsAfter_cons (before : List α) (i : Nat) (x : β) (xs : List β) :
    repeatsAfter key before i (x :: xs) =
      (if key x ∈ before then [(x, i)] else []) ++
        repeatsAfter key (before ++ [key x]) (i + 1) xs := by
  have hrest : (xs.zipIdx (i + 1)).filter
        (fun e => key e.1 ∈ before ++ ((x :: xs).take (e.2 - i)).map key) =
      repeatsAfter key (before ++ [key x]) (i + 1) xs := by
    refine List.filter_congr fun e he => ?_
    have hindex : e.2 - i = e.2 - (i + 1) + 1 := by
      have := List.le_snd_of_mem_zipIdx he
      omega
    rw [hindex, List.take_succ_cons, List.map_cons, List.append_assoc, List.singleton_append]
  rw [repeatsAfter, List.zipIdx_cons, List.filter_cons, hrest, Nat.sub_self, List.take_zero,
    List.map_nil, List.append_nil]
  split <;> simp_all

/-- There are no repeats exactly if the keys differ, and differ from the known ones. -/
theorem repeatsAfter_eq_nil_iff {before : List α} {i : Nat} {xs : List β} :
    repeatsAfter key before i xs = [] ↔ (xs.map key).Nodup ∧ ∀ x ∈ xs, key x ∉ before := by
  induction xs generalizing before i with
  | nil => simp [repeatsAfter]
  | cons x xs ih =>
    rw [repeatsAfter_cons, List.append_eq_nil_iff, ih, List.map_cons, List.nodup_cons,
      List.forall_mem_cons, List.mem_map]
    have hfirst : (if key x ∈ before then [(x, i)] else []) = [] ↔ key x ∉ before := by
      split <;> simp_all
    rw [hfirst]
    constructor
    · rintro ⟨hx, hnodup, hnew⟩
      refine ⟨⟨?_, hnodup⟩, hx, fun y hy hmem => hnew y hy (List.mem_append_left _ hmem)⟩
      rintro ⟨y, hy, heq⟩
      exact hnew y hy (List.mem_append_right _ (List.mem_singleton.mpr heq))
    · rintro ⟨⟨hx, hnodup⟩, hbefore, hrest⟩
      refine ⟨hbefore, hnodup, fun y hy hmem => ?_⟩
      rcases List.mem_append.mp hmem with h | h
      · exact hrest y hy h
      · exact hx ⟨y, hy, List.mem_singleton.mp h⟩

/-- Nothing repeats exactly if the keys differ. -/
theorem repeats_eq_nil_iff {xs : List β} : repeats key xs = [] ↔ (xs.map key).Nodup := by
  rw [repeats_eq, repeatsAfter_eq_nil_iff]
  exact and_iff_left fun x _ => List.not_mem_nil

end Repeats

end List
