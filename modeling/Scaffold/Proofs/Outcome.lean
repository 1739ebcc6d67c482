import Mathlib.Data.List.Forall2

/-!
# Proofs/Outcome — computations that give a result

A chain of computations gives a result exactly when each of its links does; these lemmas take the
links apart.  Where one thing at most stands in the way of each result, the first of them stands in
the way of the whole (`mapM_barring`).
-/

namespace List.Forall₂

variable {α β : Type} {R : α → β → Prop} {xs : List α} {ys : List β}

/-- What stands in the left list has a partner in the right one. -/
theorem exists_of_mem_left (h : List.Forall₂ R xs ys) {x : α} (hx : x ∈ xs) :
    ∃ y ∈ ys, R x y := by
  induction h with
  | nil => exact absurd hx List.not_mem_nil
  | @cons _ y _ ys hxy _ ih =>
    obtain rfl | hx := List.mem_cons.mp hx
    · exact ⟨y, List.mem_cons_self, hxy⟩
    · obtain ⟨y', hy', hrel⟩ := ih hx
      exact ⟨y', List.mem_cons_of_mem y hy', hrel⟩

theorem exists_of_mem_right (h : List.Forall₂ R xs ys) {y : β} (hy : y ∈ ys) :
    ∃ x ∈ xs, R x y :=
  h.flip.exists_of_mem_left hy

end List.Forall₂

namespace Option.Rel

variable {α β γ δ : Type} {R : α → β → Prop} {S : γ → δ → Prop} {x : Option α} {y : Option β}

/-- Functions take partners to partners. -/
theorem map (h : Option.Rel R x y) {f : α → γ} {g : β → δ}
    (hfg : ∀ a ∈ x, ∀ b ∈ y, R a b → S (f a) (g b)) : Option.Rel S (x.map f) (y.map g) := by
  cases h with
  | none => exact .none
  | some hab => exact .some (hfg _ rfl _ rfl hab)

end Option.Rel

namespace Except

variable {α β ε ε' : Type}

theorem bind_eq_ok_iff {x : Except ε α} {f : α → Except ε β} {b : β} :
    x >>= f = .ok b ↔ ∃ a, x = .ok a ∧ f a = .ok b := by
  cases x with
  | error e => exact iff_of_false (by rintro ⟨⟩) (by rintro ⟨_, ⟨⟩, _⟩)
  | ok a =>
    constructor
    · exact fun h => ⟨a, rfl, h⟩
    · rintro ⟨_, ⟨⟩, h⟩
      exact h

theorem map_eq_ok_iff {x : Except ε α} {f : α → β} {b : β} :
    x.map f = .ok b ↔ ∃ a, x = .ok a ∧ f a = b := by
  cases x with
  | error e => exact iff_of_false (by rintro ⟨⟩) (by rintro ⟨_, ⟨⟩, _⟩)
  | ok a =>
    constructor
    · exact fun h => ⟨a, rfl, Except.ok.inj h⟩
    · rintro ⟨_, ⟨⟩, rfl⟩
      rfl

theorem mapError_eq_ok_iff {x : Except ε α} {f : ε → ε'} {a : α} :
    x.mapError f = .ok a ↔ x = .ok a := by
  cases x with
  | error e => exact iff_of_false (by rintro ⟨⟩) (by rintro ⟨⟩)
  | ok a' =>
    constructor <;> rintro ⟨⟩ <;> rfl

/-- The results of a list of computations stand in its order. -/
theorem forall₂_of_mapM_eq_ok {f : α → Except ε β} {xs : List α} {ys : List β}
    (h : xs.mapM f = .ok ys) : List.Forall₂ (fun x y => f x = .ok y) xs ys := by
  induction xs generalizing ys with
  | nil => cases h; exact .nil
  | cons x xs ih =>
    rw [List.mapM_cons] at h
    obtain ⟨y, hy, h⟩ := bind_eq_ok_iff.mp h
    obtain ⟨zs, hzs, h⟩ := bind_eq_ok_iff.mp h
    cases h
    exact .cons hy (ih hzs)

/-- A list is run through if each of its members is. -/
theorem mapM_eq_ok_iff {f : α → Except ε β} {xs : List α} {ys : List β} :
    xs.mapM f = .ok ys ↔ List.Forall₂ (fun x y => f x = .ok y) xs ys := by
  refine ⟨forall₂_of_mapM_eq_ok, fun h => ?_⟩
  induction h with
  | nil => rfl
  | cons hxy _ ih => rw [List.mapM_cons, hxy, ih]; rfl

theorem exists_of_mem_mapM {f : α → Except ε β} {xs : List α} {ys : List β}
    (h : xs.mapM f = .ok ys) {y : β} (hy : y ∈ ys) : ∃ x ∈ xs, f x = .ok y :=
  (forall₂_of_mapM_eq_ok h).exists_of_mem_right hy

theorem exists_result_of_mem_mapM {f : α → Except ε β} {xs : List α} {ys : List β}
    (h : xs.mapM f = .ok ys) {x : α} (hx : x ∈ xs) : ∃ y ∈ ys, f x = .ok y :=
  (forall₂_of_mapM_eq_ok h).exists_of_mem_left hx

/-- Nothing fails in a list where nothing fails at any member. -/
theorem exists_mapM_eq_ok {f : α → Except ε β} {xs : List α} (h : ∀ x ∈ xs, ∃ y, f x = .ok y) :
    ∃ ys, xs.mapM f = .ok ys := by
  induction xs with
  | nil => exact ⟨[], rfl⟩
  | cons x xs ih =>
    obtain ⟨y, hy⟩ := h x List.mem_cons_self
    obtain ⟨ys, hys⟩ := ih fun x' hx' => h x' (List.mem_cons_of_mem x hx')
    exact ⟨y :: ys, by rw [List.mapM_cons, hy, hys]; rfl⟩

/-- A list of computations fails as the first that fails. -/
theorem mapM_eq_error {γ : Type} {f : α → Except ε β} {g : α → Option γ} {err : γ → ε}
    (hsome : ∀ x c, g x = some c → f x = .error (err c))
    (hnone : ∀ x, g x = none → ∃ y, f x = .ok y) {xs : List α} {c : γ}
    (h : xs.findSome? g = some c) : xs.mapM f = .error (err c) := by
  induction xs with
  | nil => cases h
  | cons x xs ih =>
    rw [List.findSome?_cons] at h
    rw [List.mapM_cons]
    cases hx : g x with
    | some c' =>
      rw [hx] at h
      cases h
      rw [hsome x c hx]
      rfl
    | none =>
      rw [hx] at h
      obtain ⟨y, hy⟩ := hnone x hx
      rw [hy, ih h]
      rfl

/-! ## Results and what stands in their way -/

/-- The result, unless something stands in the way of it. -/
def barring (obstacle : Option ε) (a : α) : Except ε α := obstacle.elim (.ok a) .error

theorem map_barring (o : Option ε) (a : α) (f : α → β) :
    (barring o a).map f = barring o (f a) := by
  cases o <;> rfl

theorem barring_bind₂ {γ : Type} (o p : Option ε) (a : α) (b : γ) (f : α → γ → β) :
    (do return f (← barring o a) (← barring p b)) = barring (o.or p) (f a b) := by
  cases o <;> cases p <;> rfl

/-- What stands in the way of the first result stands in the way of all. -/
theorem mapM_barring {f : α → Except ε β} {o : α → Option ε} {r : α → β} {xs : List α}
    (h : ∀ x ∈ xs, f x = barring (o x) (r x)) : xs.mapM f = barring (xs.findSome? o) (xs.map r) := by
  induction xs with
  | nil => rfl
  | cons x xs ih =>
    obtain ⟨hx, hxs⟩ := List.forall_mem_cons.mp h
    rw [List.mapM_cons, hx, ih hxs, List.findSome?_cons]
    cases o x with
    | some e => rfl
    | none => cases xs.findSome? o <;> rfl

end Except
