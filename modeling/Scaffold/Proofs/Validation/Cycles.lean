import Scaffold.Proofs.Firsts
import Scaffold.Proofs.Validation.Search
import Scaffold.Validation.Rules

/-!
# Proofs/Validation/Cycles — the cycles reported for models are those of their relationships

The graph of a list of models is read off the documents here without the program: a name leads to
another if the first model of that name has a relationship to it and some model is called so.  The
program builds the same graph (`leads_graphOf_iff`), with its nodes in input order
(`position_lt_iff`), whenever every target can be looked up; so the search in it reports each
elementary cycle once (`circularReferences_enumerate`).
-/

namespace Scaffold.Validation

open Document

/-! ## The graph of models -/

/-- The name of a model, if it is a text. -/
def nameOf? (m : Value) : Option String := (look m "name").text?

/-- The names of models as they come, repetitions included. -/
def namesInOrder (models : List Value) : List String := models.filterMap nameOf?

/-- The target of a relationship, whatever it is. -/
def targetOf (rel : Value) : Value := look rel "target_model" "targetModel"

/-- Every relationship has a target that can be looked up: no list, no mapping. -/
def HasFitTargets (m : Value) : Prop := ∀ rel ∈ lookItems m "relationships", (targetOf rel).isKey

instance : DecidablePred HasFitTargets := fun m =>
  inferInstanceAs (Decidable (∀ rel ∈ lookItems m "relationships", (targetOf rel).isKey))

/-- The first model called `a` has a relationship to `b`, and some model is called `b`. -/
def Refers (models : List Value) (a b : String) : Prop :=
  b ∈ namesInOrder models ∧ ∃ m, modelNamed? models a = some m ∧
    ∃ rel ∈ lookItems m "relationships", targetOf rel = .text b

/-- The first model called `a` comes before the first one called `b`. -/
def ComesBefore (models : List Value) (a b : String) : Prop :=
  (namesInOrder models).idxOf a < (namesInOrder models).idxOf b

/-- A cycle of references that has no name twice. -/
structure IsReferenceCycle (models : List Value) (C : Cycle String) : Prop where
  ne_nil : C ≠ Cycle.nil
  nodup : C.Nodup
  chain : C.Chain (Refers models)

/-- A list of node sequences that shows every elementary cycle of models once: each from its member
that comes first and back to it, in the order of their starts. -/
structure Enumerates (models : List Value) (cs : List (List String)) : Prop where
  closed : ∀ c ∈ cs, ∃ s vs, c = s :: (vs ++ [s]) ∧ ∀ v ∈ vs, ComesBefore models s v
  complete : ∀ C, (∃ c ∈ cs, Graph.around c = C) ↔ IsReferenceCycle models C
  once : (cs.map Graph.around).Nodup
  ordered : cs.Pairwise fun c d => ∀ a ∈ c.head?, ∀ b ∈ d.head?, ¬ ComesBefore models b a

/-! ## Names -/

theorem nameOf?_eq_some_iff {m : Value} {n : String} :
    nameOf? m = some n ↔ look m "name" = .text n := by
  unfold nameOf?
  cases look m "name" <;> simp [Value.text?]

theorem namesInOrder_cons_of_eq_none {m : Value} (h : nameOf? m = none) (ms : List Value) :
    namesInOrder (m :: ms) = namesInOrder ms := List.filterMap_cons_none h

theorem namesInOrder_cons_of_eq_some {m : Value} {n : String} (h : nameOf? m = some n)
    (ms : List Value) : namesInOrder (m :: ms) = n :: namesInOrder ms := List.filterMap_cons_some h

theorem modelNamed?_eq_find? (models : List Value) (n : String) :
    modelNamed? models n = models.find? fun m => nameOf? m == some n := by
  refine congrArg (fun p => models.find? p) (funext fun m => ?_)
  unfold nameOf?
  cases look m "name" <;> simp [Value.text?]

theorem mem_modelNames {models : List Value} {n : String} :
    n ∈ modelNames models ↔ n ∈ namesInOrder models := by
  rw [modelNames, List.mem_foldl_addNew]
  exact or_iff_right List.not_mem_nil

/-! ## The first model of each name -/

/-- What the first model of a list adds, by the name that it has. -/
theorem firstOfName_cons_of_eq_none (seen : List String) {m : Value} (h : nameOf? m = none)
    (ms : List Value) : firstOfName seen (m :: ms) = firstOfName seen ms := by
  rw [firstOfName]
  split
  · rename_i n hn
    rw [nameOf?_eq_some_iff.2 hn] at h
    cases h
  · rfl

theorem firstOfName_cons_of_eq_some (seen : List String) {m : Value} {n : String}
    (h : nameOf? m = some n) (ms : List Value) :
    firstOfName seen (m :: ms) =
      if seen.contains n then firstOfName seen ms else (n, m) :: firstOfName (n :: seen) ms := by
  rw [firstOfName, nameOf?_eq_some_iff.1 h]

/-- Every name has a first model. -/
theorem mem_keys_firstOfName {seen : List String} {ms : List Value} {n : String} :
    n ∈ (firstOfName seen ms).map (·.1) ↔ n ∉ seen ∧ n ∈ namesInOrder ms := by
  induction ms generalizing seen with
  | nil => simp [firstOfName, namesInOrder]
  | cons m ms ih =>
    cases hm : nameOf? m with
    | none =>
      rw [firstOfName_cons_of_eq_none seen hm, ih, namesInOrder_cons_of_eq_none hm]
    | some k =>
      rw [firstOfName_cons_of_eq_some seen hm, namesInOrder_cons_of_eq_some hm]
      split
      · rename_i hk
        rw [List.contains_eq_mem, decide_eq_true_eq] at hk
        rw [ih, List.mem_cons]
        refine and_congr_right fun hn => (or_iff_right ?_).symm
        rintro rfl
        exact hn hk
      · rename_i hk
        rw [List.contains_eq_mem, decide_eq_true_eq] at hk
        rw [List.map_cons, List.mem_cons, ih, List.mem_cons, List.mem_cons]
        by_cases hnk : n = k
        · simp [hnk, hk]
        · simp [hnk]

/-- It has one. -/
theorem nodup_keys_firstOfName (seen : List String) (ms : List Value) :
    ((firstOfName seen ms).map (·.1)).Nodup := by
  induction ms generalizing seen with
  | nil => exact List.nodup_nil
  | cons m ms ih =>
    cases hm : nameOf? m with
    | none => rw [firstOfName_cons_of_eq_none seen hm]; exact ih seen
    | some k =>
      rw [firstOfName_cons_of_eq_some seen hm]
      split
      · exact ih seen
      · rw [List.map_cons, List.nodup_cons]
        exact ⟨fun h => (mem_keys_firstOfName.1 h).1 List.mem_cons_self, ih (k :: seen)⟩

/-- The model that stands for a name is the first of it. -/
theorem lookup_firstOfName {seen : List String} {ms : List Value} {n : String} (hn : n ∉ seen) :
    (firstOfName seen ms).lookup n = modelNamed? ms n := by
  induction ms generalizing seen with
  | nil => rfl
  | cons m ms ih =>
    cases hm : nameOf? m with
    | none =>
      rw [firstOfName_cons_of_eq_none seen hm, ih hn, modelNamed?_eq_find?, modelNamed?_eq_find?,
        List.find?_cons, hm]
      rfl
    | some k =>
      rw [firstOfName_cons_of_eq_some seen hm, modelNamed?_eq_find?, List.find?_cons, hm]
      by_cases hnk : n = k
      · subst hnk
        rw [if_neg (by simpa [List.contains_eq_mem] using hn)]
        simp
      · rw [show (some k == some n) = false by simpa using Ne.symm hnk]
        simp only [← modelNamed?_eq_find?]
        split
        · exact ih hn
        · rw [List.lookup_cons, show (n == k) = false by simpa using hnk]
          exact ih (by simpa [hnk] using hn)

/-- The order of the names that are kept is that in which they first come. -/
theorem idxOf_keys_firstOfName_lt_iff {seen : List String} {ms : List Value} {a b : String}
    (ha : a ∉ seen) (hb : b ∉ seen) :
    ((firstOfName seen ms).map (·.1)).idxOf a < ((firstOfName seen ms).map (·.1)).idxOf b ↔
      (namesInOrder ms).idxOf a < (namesInOrder ms).idxOf b := by
  induction ms generalizing seen with
  | nil => rfl
  | cons m ms ih =>
    cases hm : nameOf? m with
    | none =>
      rw [firstOfName_cons_of_eq_none seen hm, namesInOrder_cons_of_eq_none hm]
      exact ih ha hb
    | some k =>
      rw [firstOfName_cons_of_eq_some seen hm, namesInOrder_cons_of_eq_some hm]
      by_cases hk : k ∈ seen
      · have hka : k ≠ a := fun h => ha (h ▸ hk)
        have hkb : k ≠ b := fun h => hb (h ▸ hk)
        rw [if_pos (by simpa [List.contains_eq_mem] using hk), List.idxOf_cons_ne _ hka,
          List.idxOf_cons_ne _ hkb, Nat.succ_lt_succ_iff]
        exact ih ha hb
      · rw [if_neg (by simpa [List.contains_eq_mem] using hk), List.map_cons]
        by_cases hka : k = a
        · subst hka
          by_cases hkb : k = b
          · subst hkb; simp
          · simp [List.idxOf_cons_ne _ hkb]
        · by_cases hkb : k = b
          · subst hkb; simp
          · rw [List.idxOf_cons_ne _ hka, List.idxOf_cons_ne _ hkb, List.idxOf_cons_ne _ hka,
              List.idxOf_cons_ne _ hkb, Nat.succ_lt_succ_iff, Nat.succ_lt_succ_iff]
            exact ih (by simpa [Ne.symm hka] using ha) (by simpa [Ne.symm hkb] using hb)

/-! ## Edges -/

/-- The names that the relationships lead to, each once, after those that were found before. -/
structure EdgesFrom (names found : List String) (rels : List Value) (ts : List String) : Prop where
  nodup : found.Nodup → ts.Nodup
  mem_iff : ∀ t, t ∈ ts ↔ t ∈ found ∨ t ∈ names ∧ ∃ rel ∈ rels, targetOf rel = .text t

/-- **Fit targets are all looked up.** -/
theorem exists_edgesAmong (names : List String) (found : List String) {rels : List Value}
    (h : ∀ rel ∈ rels, (targetOf rel).isKey) :
    ∃ ts, edgesAmong names found rels = .ok ts ∧ EdgesFrom names found rels ts := by
  induction rels generalizing found with
  | nil => exact ⟨found, rfl, id, by simp⟩
  | cons rel rels ih =>
    have hrel : (look rel "target_model" "targetModel").isKey := h rel List.mem_cons_self
    have hrels : ∀ r ∈ rels, (targetOf r).isKey := fun r hr => h r (List.mem_cons_of_mem rel hr)
    rw [edgesAmong]
    simp only [hrel, Bool.not_true, Bool.false_eq_true, if_false]
    split
    · rename_i t ht
      obtain ⟨ts, hts, hnodup, hmem⟩ := ih
        (if names.contains t && !found.contains t then found ++ [t] else found) hrels
      refine ⟨ts, hts, fun hf => hnodup ?_, fun u => (hmem u).trans ?_⟩
      · split
        · rename_i hnew
          simp only [List.contains_eq_mem, Bool.and_eq_true, decide_eq_true_eq,
            Bool.not_eq_true', decide_eq_false_iff_not] at hnew
          exact List.nodup_append.2 ⟨hf, List.nodup_singleton t, by
            intro x hx y hy hxy
            rw [List.mem_singleton.1 hy] at hxy
            exact hnew.2 (hxy ▸ hx)⟩
        · exact hf
      · have hrelt : ∀ u, targetOf rel = .text u ↔ u = t := fun u => by
          rw [targetOf, ht, Value.text.injEq]; exact eq_comm
        simp only [List.exists_mem_cons_iff, hrelt]
        by_cases hn : t ∈ names <;> by_cases hf : t ∈ found <;> by_cases hu : u = t <;>
          simp [List.contains_eq_mem, hn, hf, hu]
    · rename_i hno
      obtain ⟨ts, hts, hnodup, hmem⟩ := ih found hrels
      refine ⟨ts, hts, hnodup, fun u => (hmem u).trans ?_⟩
      simp only [List.exists_mem_cons_iff]
      have hrelu : targetOf rel ≠ .text u := fun hu => hno u hu
      simp [hrelu]

/-! ## The graph that is built -/

/-- That is one of the models. -/
theorem mem_of_mem_firstOfName {seen : List String} {ms : List Value} {e : String × Value}
    (h : e ∈ firstOfName seen ms) : e.2 ∈ ms := by
  induction ms generalizing seen with
  | nil => simp [firstOfName] at h
  | cons m ms ih =>
    cases hm : nameOf? m with
    | none =>
      rw [firstOfName_cons_of_eq_none seen hm] at h
      exact List.mem_cons_of_mem m (ih h)
    | some k =>
      rw [firstOfName_cons_of_eq_some seen hm] at h
      split at h
      · exact List.mem_cons_of_mem m (ih h)
      · rcases List.mem_cons.1 h with rfl | h
        · exact List.mem_cons_self
        · exact List.mem_cons_of_mem m (ih h)

/-- The nodes that an entry for each name has, and the edges from each. -/
structure GraphFrom (names : List String) (entries : List (String × Value)) (g : Graph) :
    Prop where
  nodes_eq : g.nodes = entries.map (·.1)
  targets_of_none : ∀ a, entries.lookup a = none → g.targets a = []
  targets_of_some : ∀ a m, entries.lookup a = some m →
    EdgesFrom names [] (lookItems m "relationships") (g.targets a)

/-- Models with fit targets have edges. -/
theorem exists_mapM_edgesAmong (names : List String) {entries : List (String × Value)}
    (h : ∀ e ∈ entries, HasFitTargets e.2) :
    ∃ g : Graph, entries.mapM (fun (n, m) =>
        (edgesAmong names [] (lookItems m "relationships")).map fun ts => (n, ts)) = .ok g ∧
      GraphFrom names entries g := by
  induction entries with
  | nil => exact ⟨[], rfl, rfl, fun _ _ => rfl, fun _ _ h => by simp at h⟩
  | cons e entries ih =>
    obtain ⟨n, m⟩ := e
    obtain ⟨ts, hts, hedges⟩ := exists_edgesAmong names [] (h (n, m) List.mem_cons_self)
    obtain ⟨g, hg, hnodes, hnone, hsome⟩ := ih fun e he => h e (List.mem_cons_of_mem (n, m) he)
    have htargets : ∀ a, Graph.targets ((n, ts) :: g) a = if a = n then ts else g.targets a := by
      intro a
      by_cases ha : a = n
      · simp [Graph.targets, ha]
      · simp [Graph.targets, ha, List.lookup_cons, show (a == n) = false by simpa using ha]
    refine ⟨(n, ts) :: g, ?_, ?_, fun a ha => ?_, fun a m' ha => ?_⟩
    · rw [List.mapM_cons]
      simp only [hts, hg]
      rfl
    · rw [List.map_cons, ← hnodes]
      rfl
    · rw [List.lookup_cons] at ha
      rw [htargets]
      split at ha
      · cases ha
      · rename_i hne
        rw [if_neg (by simpa using hne)]
        exact hnone a ha
    · rw [List.lookup_cons] at ha
      rw [htargets]
      split at ha
      · rename_i heq
        rw [if_pos (by simpa using heq), ← Option.some.inj ha]
        exact hedges
      · rename_i hne
        rw [if_neg (by simpa using hne)]
        exact hsome a m' ha

section GraphOf

variable {models : List Value} {g : Graph}

/-- **Models with fit targets have a graph.** -/
theorem exists_graphOf (h : ∀ m ∈ models, HasFitTargets m) :
    ∃ g, graphOf models = .ok g ∧ GraphFrom (modelNames models) (firstOfName [] models) g :=
  exists_mapM_edgesAmong (modelNames models) fun e he => h e.2 (mem_of_mem_firstOfName he)

variable (hg : GraphFrom (modelNames models) (firstOfName [] models) g)
include hg

theorem mem_nodes_graphOf_iff {n : String} : n ∈ g.nodes ↔ n ∈ namesInOrder models := by
  rw [hg.nodes_eq, mem_keys_firstOfName]
  exact and_iff_right List.not_mem_nil

/-- **The edges of the graph are the references.** -/
theorem leads_graphOf_iff {a b : String} : g.Leads a b ↔ Refers models a b := by
  have hlookup : (firstOfName [] models).lookup a = modelNamed? models a :=
    lookup_firstOfName List.not_mem_nil
  rw [Graph.Leads, Refers]
  cases ha : modelNamed? models a with
  | none => simp [hg.targets_of_none a (hlookup.trans ha)]
  | some m =>
    rw [(hg.targets_of_some a m (hlookup.trans ha)).mem_iff, mem_modelNames]
    simp

/-- The graph of models is proper. -/
theorem proper_graphOf : g.Proper where
  nodup_nodes := by
    rw [hg.nodes_eq]
    exact nodup_keys_firstOfName [] models
  nodup_targets a := by
    cases ha : (firstOfName [] models).lookup a with
    | none => rw [hg.targets_of_none a ha]; exact List.nodup_nil
    | some m => exact (hg.targets_of_some a m ha).nodup List.nodup_nil
  targets_subset a b hb :=
    (mem_nodes_graphOf_iff hg).2 ((leads_graphOf_iff hg).1 hb).1

/-- **The nodes are in input order.** -/
theorem position_lt_iff {a b : String} :
    g.position a < g.position b ↔ ComesBefore models a b := by
  rw [Graph.position, Graph.position, hg.nodes_eq]
  exact idxOf_keys_firstOfName_lt_iff List.not_mem_nil List.not_mem_nil

/-- Its elementary cycles are the cycles of references. -/
theorem isElementary_graphOf_iff {C : Cycle String} :
    g.IsElementary C ↔ IsReferenceCycle models C := by
  have hchain : C.Chain g.Leads ↔ C.Chain (Refers models) :=
    ⟨Cycle.Chain.imp fun _ _ h => (leads_graphOf_iff hg).1 h,
      Cycle.Chain.imp fun _ _ h => (leads_graphOf_iff hg).2 h⟩
  exact ⟨fun h => ⟨h.ne_nil, h.nodup, hchain.1 h.chain⟩,
    fun h => ⟨h.ne_nil, h.nodup, hchain.2 h.chain⟩⟩

/-- So the search enumerates them. -/
theorem enumerates_cycles : Enumerates models g.cycles where
  closed c hc := by
    obtain ⟨s, vs, -, hvs, rfl⟩ := (Graph.mem_cycles_iff (proper_graphOf hg)).1 hc
    exact ⟨s, vs, rfl, fun v hv => (position_lt_iff hg).1 (hvs.later v hv)⟩
  complete _ := (Graph.exists_around_cycles_iff (proper_graphOf hg)).trans
    (isElementary_graphOf_iff hg)
  once := Graph.nodup_map_around_cycles (proper_graphOf hg)
  ordered := (Graph.pairwise_head_cycles g (proper_graphOf hg).nodup_nodes).imp
    fun h a ha b hb hba => Nat.not_lt.2 (h a ha b hb) ((position_lt_iff hg).2 hba)

end GraphOf

/-- **Every elementary cycle of the references among models is reported once, and nothing else**:
from its member that comes first in input order, the starts in input order. -/
theorem circularReferences_enumerate (models : List (Subject Model))
    (h : ∀ m ∈ models, HasFitTargets (m.document Model.document)) :
    ∃ cs, circularReferences (models.map (·.document Model.document)) =
        .ok (cs.map (" -> ".intercalate ·)) ∧
      Enumerates (models.map (·.document Model.document)) cs := by
  have hfit : ∀ v ∈ models.map (·.document Model.document), HasFitTargets v :=
    List.forall_mem_map.2 h
  obtain ⟨g, hg, hfrom⟩ := exists_graphOf hfit
  refine ⟨g.cycles, ?_, enumerates_cycles hfrom⟩
  rw [circularReferences, hg]
  rfl

/-- A model that refers to others and has nothing else. -/
def referring (name : String) (targets : List String) : Subject Model :=
  .raw (.record [("name", .text name), ("relationships",
    .list (targets.map fun t => .record [("targetModel", .text t)]))])

/-- Two models that refer to each other, one also to itself and one to a model that is missing. -/
def twoReferring : List (Subject Model) := [referring "A" ["A", "B"], referring "B" ["A", "C"]]

/-- Two models that refer to each other, and their cycle. -/
theorem circularReferences_enumerate_twoReferring :
    (∀ m ∈ twoReferring, HasFitTargets (m.document Model.document)) ∧
      ∃ cs, circularReferences (twoReferring.map (·.document Model.document)) =
          .ok (cs.map (" -> ".intercalate ·)) ∧
        Enumerates (twoReferring.map (·.document Model.document)) cs :=
  have h : ∀ m ∈ twoReferring, HasFitTargets (m.document Model.document) := by decide
  ⟨h, circularReferences_enumerate twoReferring h⟩

example : (circularReferences (twoReferring.map (·.document Model.document))).toOption =
    some ["A -> A", "A -> B -> A"] := by decide

end Scaffold.Validation
