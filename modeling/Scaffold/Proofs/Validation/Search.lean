import Mathlib.Data.List.Cycle
import Mathlib.Data.List.MinMax
import Scaffold.Validation.Cycles

/-!
# Proofs/Validation/Search — the search finds every elementary cycle of a graph, once

`cyclesThrough` walks on from the end of a path, never onto the path and never to a node that comes
before its start.  `mem_cyclesThrough` says which closed paths that are; the bound on the number of
further nodes is no restriction, since a path has no node twice.  A `Cycle` of nodes has one place
where the first of them in order stands, so each elementary cycle is found from there alone
(`exists_around_cycles_iff`, `nodup_map_around_cycles`).
-/

namespace Scaffold.Validation.Graph

/-- An edge leads from the first node to the second. -/
def Leads (g : Graph) (a b : String) : Prop := b ∈ g.targets a

/-- Every node is there once, and edges lead to nodes, to each at most once. -/
structure Proper (g : Graph) : Prop where
  nodup_nodes : g.nodes.Nodup
  nodup_targets : ∀ a, (g.targets a).Nodup
  targets_subset : ∀ a, g.targets a ⊆ g.nodes

/-! ## One search -/

/-- From the end `node` of a path, `vs` lead back to `start`: they are off the path, distinct, and
come after `start`. -/
structure Returns (g : Graph) (start : String) (path : List String) (node : String)
    (vs : List String) : Prop where
  chain : List.IsChain g.Leads (node :: (vs ++ [start]))
  nodup : vs.Nodup
  fresh : ∀ v ∈ vs, v ∉ path
  later : ∀ v ∈ vs, g.position start < g.position v

/-- A walk of one step returns if it leads back. -/
theorem returns_nil_iff {g : Graph} {start node : String} {path : List String} :
    Returns g start path node [] ↔ start ∈ g.targets node := by
  constructor
  · intro h
    simpa [Leads] using h.chain
  · intro h
    exact ⟨by simpa [Leads] using h, List.nodup_nil, by simp, by simp⟩

/-- A way back by `v` is an edge to `v` and a way back from there. -/
theorem returns_cons_iff {g : Graph} {start node v : String} {path vs : List String} :
    Returns g start path node (v :: vs) ↔
      v ∈ g.targets node ∧ v ∉ path ∧ g.position start < g.position v ∧
        Returns g start (v :: path) v vs := by
  constructor
  · intro h
    have hc := h.chain
    rw [List.cons_append, List.isChain_cons_cons] at hc
    obtain ⟨hv, hvs⟩ := List.nodup_cons.1 h.nodup
    refine ⟨hc.1, h.fresh v List.mem_cons_self, h.later v List.mem_cons_self, hc.2, hvs, ?_,
      fun w hw => h.later w (List.mem_cons_of_mem v hw)⟩
    intro w hw hwp
    rcases List.mem_cons.1 hwp with rfl | hwp
    · exact hv hw
    · exact h.fresh w (List.mem_cons_of_mem v hw) hwp
  · rintro ⟨hv, hp, hpos, h⟩
    refine ⟨by rw [List.cons_append, List.isChain_cons_cons]; exact ⟨hv, h.chain⟩,
      List.nodup_cons.2 ⟨fun hw => h.fresh v hw List.mem_cons_self, h.nodup⟩, ?_, ?_⟩
    · rintro w (_ | ⟨_, hw⟩) hwp
      · exact hp hwp
      · exact h.fresh w hw (List.mem_cons_of_mem v hwp)
    · rintro w (_ | ⟨_, hw⟩)
      · exact hpos
      · exact h.later w hw

/-- What one step of the search gives for one target of the last node. -/
theorem cyclesThrough_succ (g : Graph) (start : String) (n : Nat) (node : String)
    (before : List String) :
    g.cyclesThrough start (n + 1) (node :: before) = (g.targets node).flatMap fun next =>
      if next = start then [(node :: before).reverse ++ [start]]
      else if (node :: before).contains next || g.position next ≤ g.position start then []
      else g.cyclesThrough start n (next :: node :: before) := rfl

/-- **A search finds exactly the ways back to its start**, up to its bound. -/
theorem mem_cyclesThrough {g : Graph} {start : String} {n : Nat} {node : String}
    {before c : List String} :
    c ∈ g.cyclesThrough start n (node :: before) ↔
      ∃ vs, vs.length < n ∧ Returns g start (node :: before) node vs ∧
        c = (node :: before).reverse ++ (vs ++ [start]) := by
  induction n generalizing node before with
  | zero => simp [cyclesThrough]
  | succ n ih =>
    rw [cyclesThrough_succ, List.mem_flatMap]
    constructor
    · rintro ⟨next, hnext, hc⟩
      by_cases hs : next = start
      · subst hs
        rw [if_pos rfl, List.mem_singleton] at hc
        exact ⟨[], Nat.succ_pos n, returns_nil_iff.2 hnext, hc⟩
      · rw [if_neg hs] at hc
        split at hc
        · simp at hc
        · rename_i hfree
          obtain ⟨vs, hlen, hvs, rfl⟩ := ih.1 hc
          simp only [List.contains_eq_mem, Bool.or_eq_true, decide_eq_true_eq, not_or,
            Nat.not_le] at hfree
          refine ⟨next :: vs, Nat.succ_lt_succ hlen,
            returns_cons_iff.2 ⟨hnext, hfree.1, hfree.2, hvs⟩, by simp⟩
    · rintro ⟨vs, hlen, hvs, rfl⟩
      cases vs with
      | nil => exact ⟨start, returns_nil_iff.1 hvs, by simp⟩
      | cons v vs =>
        obtain ⟨hv, hp, hpos, hrest⟩ := returns_cons_iff.1 hvs
        have hs : v ≠ start := by rintro rfl; exact Nat.lt_irrefl _ hpos
        refine ⟨v, hv, ?_⟩
        rw [if_neg hs, if_neg (by simp [List.contains_eq_mem] at hp ⊢; exact ⟨hp, hpos⟩)]
        exact ih.2 ⟨vs, Nat.lt_of_succ_lt_succ hlen, hrest, by simp⟩

/-- No cycle is found twice from one start. -/
theorem nodup_cyclesThrough {g : Graph} (hg : ∀ a, (g.targets a).Nodup) (start : String) (n : Nat)
    (node : String) (before : List String) :
    (g.cyclesThrough start n (node :: before)).Nodup := by
  induction n generalizing node before with
  | zero => exact List.nodup_nil
  | succ n ih =>
    rw [cyclesThrough_succ, List.nodup_flatMap]
    constructor
    · intro next _
      split
      · exact List.nodup_singleton _
      · split
        · exact List.nodup_nil
        · exact ih next (node :: before)
    · -- the node after the path tells by which target a cycle goes on
      have hat : ∀ next cycle, cycle ∈ (if next = start then [(node :: before).reverse ++ [start]]
          else if (node :: before).contains next || g.position next ≤ g.position start then []
          else g.cyclesThrough start n (next :: node :: before)) →
          cycle[(node :: before).length]? = some next := by
        intro next cycle hc
        split at hc
        · rename_i hs
          rw [List.mem_singleton.1 hc, hs, List.getElem?_append_right (by simp)]
          simp
        · split at hc
          · simp at hc
          · obtain ⟨vs, -, -, rfl⟩ := mem_cyclesThrough.1 hc
            rw [List.reverse_cons, List.append_assoc, List.getElem?_append_right (by simp)]
            simp
      refine (hg node).imp fun {a b} hab => ?_
      intro c ha hb
      exact hab (Option.some.inj ((hat a c ha).symm.trans (hat b c hb)))

/-! ## All searches -/

theorem length_nodes (g : Graph) : g.nodes.length = g.length := List.length_map _

/-- Whatever an edge leads to is a node. -/
theorem subset_nodes_of_isChain {g : Graph} (hg : g.Proper) {a : String} {l : List String}
    (h : List.IsChain g.Leads (a :: l)) : l ⊆ g.nodes := by
  induction l generalizing a with
  | nil => exact List.nil_subset _
  | cons b l ih =>
    rw [List.isChain_cons_cons] at h
    exact List.cons_subset.2 ⟨hg.targets_subset a h.1, ih h.2⟩

/-- The nodes of a way back are distinct nodes of the graph, so there are not more of them. -/
theorem Returns.length_le {g : Graph} (hg : g.Proper) {start node : String}
    {path vs : List String} (h : Returns g start path node vs) : vs.length ≤ g.length := by
  have hsub : vs ⊆ g.nodes := fun v hv =>
    subset_nodes_of_isChain hg h.chain (List.mem_append_left [start] hv)
  rw [← length_nodes]
  exact (h.nodup.subperm hsub).length_le

/-- A node is the first, in the order of the graph, of those that lead back to it. -/
def IsClosed (g : Graph) (c : List String) : Prop :=
  ∃ s vs, s ∈ g.nodes ∧ Returns g s [s] s vs ∧ c = s :: (vs ++ [s])

/-- **The cycles are the closed paths** from their first node in order. -/
theorem mem_cycles_iff {g : Graph} (hg : g.Proper) {c : List String} :
    c ∈ g.cycles ↔ g.IsClosed c := by
  rw [cycles, List.mem_flatMap]
  constructor
  · rintro ⟨s, hs, hc⟩
    obtain ⟨vs, -, hvs, rfl⟩ := mem_cyclesThrough.1 hc
    exact ⟨s, vs, hs, hvs, rfl⟩
  · rintro ⟨s, vs, hs, hvs, rfl⟩
    exact ⟨s, hs, mem_cyclesThrough.2 ⟨vs, Nat.lt_succ_of_le (hvs.length_le hg), hvs, rfl⟩⟩

/-- Cycles from one start stand together, and the starts are in order. -/
theorem pairwise_head_cycles (g : Graph) (hg : g.nodes.Nodup) :
    g.cycles.Pairwise fun c d => ∀ a ∈ c.head?, ∀ b ∈ d.head?, g.position a ≤ g.position b := by
  have hhead : ∀ s, ∀ c ∈ g.cyclesThrough s (g.length + 1) [s], c.head? = some s := by
    intro s c hc
    obtain ⟨vs, -, -, rfl⟩ := mem_cyclesThrough.1 hc
    rfl
  rw [cycles, List.pairwise_flatMap]
  constructor
  · intro s _
    refine List.Pairwise.imp_of_mem (R := fun _ _ => True) ?_ (List.pairwise_of_forall (by simp))
    intro c d hc hd _ a ha b hb
    rw [hhead s c hc, Option.mem_some_iff] at ha
    rw [hhead s d hd, Option.mem_some_iff] at hb
    rw [← ha, ← hb]
  · refine List.pairwise_iff_getElem.2 fun i j hi hj hij c hc d hd a ha b hb => ?_
    rw [hhead _ c hc, Option.mem_some_iff] at ha
    rw [hhead _ d hd, Option.mem_some_iff] at hb
    rw [← ha, ← hb, position, position, hg.idxOf_getElem i hi, hg.idxOf_getElem j hj]
    exact Nat.le_of_lt hij

/-! ## Cycles without a start -/

/-- The nodes of a closed path, around. -/
def around (c : List String) : Cycle String := (c.dropLast : Cycle String)

@[simp] theorem around_cons_append (s : String) (vs : List String) :
    around (s :: (vs ++ [s])) = ((s :: vs : List String) : Cycle String) := by
  rw [around, ← List.cons_append, List.dropLast_concat]

/-- A cycle of the graph that has no node twice. -/
structure IsElementary (g : Graph) (C : Cycle String) : Prop where
  ne_nil : C ≠ Cycle.nil
  nodup : C.Nodup
  chain : C.Chain g.Leads

/-- What returns is an elementary cycle. -/
theorem isElementary_of_returns {g : Graph} {s : String} {vs : List String}
    (h : Returns g s [s] s vs) : g.IsElementary ((s :: vs : List String) : Cycle String) where
  ne_nil := by simp
  nodup := by
    rw [Cycle.nodup_coe_iff, List.nodup_cons]
    exact ⟨fun hs => h.fresh s hs List.mem_cons_self, h.nodup⟩
  chain := by
    rw [Cycle.chain_coe_cons]
    exact h.chain

/-- The nodes of an elementary cycle, from any one of them. -/
theorem exists_cons_of_mem {C : Cycle String} {s : String} (hs : s ∈ C) :
    ∃ vs : List String, C = ((s :: vs : List String) : Cycle String) := by
  induction C using Quotient.inductionOn with
  | h l =>
    obtain ⟨a, b, rfl⟩ := List.append_of_mem (Cycle.mem_coe_iff.1 hs)
    exact ⟨b ++ a, Cycle.coe_eq_coe.2 List.isRotated_append⟩

/-- The first, in the order of the graph, of the members of a cycle. -/
theorem exists_first (g : Graph) {C : Cycle String} (hC : C ≠ Cycle.nil) :
    ∃ s ∈ C, ∀ v ∈ C, g.position s ≤ g.position v := by
  induction C using Quotient.inductionOn with
  | h l =>
    have hl : l ≠ [] := fun h => hC ((Cycle.coe_eq_nil l).2 h)
    have hsome : l.argmin g.position ≠ none := fun h => hl (List.argmin_eq_none.1 h)
    obtain ⟨s, hs⟩ := Option.ne_none_iff_exists'.1 hsome
    exact ⟨s, Cycle.mem_coe_iff.2 (List.argmin_mem hs),
      fun v hv => List.le_of_mem_argmin (Cycle.mem_coe_iff.1 hv) hs⟩

/-- An elementary cycle, from the first of its members. -/
theorem IsElementary.exists_returns {g : Graph} (hg : g.Proper) {C : Cycle String}
    (h : g.IsElementary C) :
    ∃ s vs, s ∈ g.nodes ∧ Returns g s [s] s vs ∧ C = ((s :: vs : List String) : Cycle String) := by
  obtain ⟨s, hs, hmin⟩ := exists_first g h.ne_nil
  obtain ⟨vs, rfl⟩ := exists_cons_of_mem hs
  have hchain : List.IsChain g.Leads (s :: (vs ++ [s])) := (Cycle.chain_coe_cons _ s vs).1 h.chain
  obtain ⟨hsv, hvs⟩ := List.nodup_cons.1 (Cycle.nodup_coe_iff.1 h.nodup)
  have hnodes : vs ++ [s] ⊆ g.nodes := subset_nodes_of_isChain hg hchain
  have hsn : s ∈ g.nodes := hnodes (List.mem_append_right vs List.mem_cons_self)
  refine ⟨s, vs, hsn, ⟨hchain, hvs, ?_, ?_⟩, rfl⟩
  · intro v hv hvp
    rw [List.mem_singleton.1 hvp] at hv
    exact hsv hv
  · intro v hv
    refine lt_of_le_of_ne (hmin v (Cycle.mem_coe_iff.2 (List.mem_cons_of_mem s hv))) fun hp => ?_
    rw [(List.idxOf_inj hsn).1 hp] at hsv
    exact hsv hv

/-- **The cycles found are the elementary cycles.** -/
theorem exists_around_cycles_iff {g : Graph} (hg : g.Proper) {C : Cycle String} :
    (∃ c ∈ g.cycles, around c = C) ↔ g.IsElementary C := by
  constructor
  · rintro ⟨c, hc, rfl⟩
    obtain ⟨s, vs, -, hvs, rfl⟩ := (mem_cycles_iff hg).1 hc
    rw [around_cons_append]
    exact isElementary_of_returns hvs
  · intro h
    obtain ⟨s, vs, hs, hvs, rfl⟩ := h.exists_returns hg
    exact ⟨s :: (vs ++ [s]), (mem_cycles_iff hg).2 ⟨s, vs, hs, hvs, rfl⟩, around_cons_append s vs⟩

/-- A cycle without repetition has one place for its start. -/
theorem eq_of_isRotated_cons {α : Type} {a : α} {xs ys : List α} (h : (a :: xs) ~r (a :: ys))
    (hxs : (a :: xs).Nodup) : xs = ys := by
  obtain ⟨n, hn⟩ := h
  have hlen : 0 < (a :: xs).length := Nat.succ_pos _
  have hmod : n % (a :: xs).length < (a :: xs).length := Nat.mod_lt n hlen
  have hhead : (a :: xs)[n % (a :: xs).length]? = some a := by
    rw [← List.rotate_mod] at hn
    have := congrArg List.head? hn
    rwa [List.head?_rotate hmod] at this
  have hzero : n % (a :: xs).length = 0 := by
    refine (@List.Nodup.getElem_inj_iff _ _ hxs _ hmod _ hlen).1 ?_
    exact Option.some.inj ((List.getElem?_eq_getElem hmod).symm.trans hhead)
  rw [← List.rotate_mod, hzero, List.rotate_zero] at hn
  exact (List.cons.inj hn).2

/-- **A closed path is known by its nodes, around** — it starts at the first of them. -/
theorem eq_of_around_eq {g : Graph} {c d : List String} (hc : g.IsClosed c) (hd : g.IsClosed d)
    (h : around c = around d) : c = d := by
  obtain ⟨s, vs, -, hvs, rfl⟩ := hc
  obtain ⟨t, ws, -, hws, rfl⟩ := hd
  rw [around_cons_append, around_cons_append, Cycle.coe_eq_coe] at h
  have hst : s = t := by
    rcases List.mem_cons.1 (h.mem_iff.1 (List.mem_cons_self : s ∈ s :: vs)) with hs | hs
    · exact hs
    · rcases List.mem_cons.1 (h.mem_iff.2 (List.mem_cons_self : t ∈ t :: ws)) with ht | ht
      · exact ht.symm
      · exact absurd (hws.later s hs) (Nat.lt_asymm (hvs.later t ht))
  subst hst
  have hnodup : (s :: vs).Nodup := Cycle.nodup_coe_iff.1 (isElementary_of_returns hvs).nodup
  rw [eq_of_isRotated_cons h hnodup]

/-- No cycle of a proper graph is found twice. -/
theorem nodup_cycles {g : Graph} (hg : g.Proper) : g.cycles.Nodup := by
  rw [cycles, List.nodup_flatMap]
  refine ⟨fun s _ => nodup_cyclesThrough hg.nodup_targets s _ s [], ?_⟩
  refine hg.nodup_nodes.imp fun {s t} hst => ?_
  intro c hs ht
  obtain ⟨vs, -, -, rfl⟩ := mem_cyclesThrough.1 hs
  obtain ⟨ws, -, -, hcd⟩ := mem_cyclesThrough.1 ht
  exact hst (List.cons.inj hcd).1

/-- **No elementary cycle is found twice.** -/
theorem nodup_map_around_cycles {g : Graph} (hg : g.Proper) : (g.cycles.map around).Nodup := by
  refine List.Nodup.map_on (fun c hc d hd h => ?_) (nodup_cycles hg)
  exact eq_of_around_eq ((mem_cycles_iff hg).1 hc) ((mem_cycles_iff hg).1 hd) h

end Scaffold.Validation.Graph
