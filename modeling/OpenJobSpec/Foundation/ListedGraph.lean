import Mathlib.Data.List.Nodup
import Mathlib.Logic.Relation

/-! # Graphs listed in an order of their dependencies

A node has an id and names the ids that it depends on. When a list of nodes has
distinct ids, and each node names none but nodes before it, the graph has no
cycle: a path of dependencies only leads towards the front of the list.
-/
namespace OpenJobSpec.ListedGraph
variable {ν κ : Type*} (id : ν → κ) (deps : ν → List κ)

/-- `a` names `b` as one of its dependencies, and both are nodes of the list. -/
structure DependsOn (nodes : List ν) (a b : ν) : Prop where
  left : a ∈ nodes
  right : b ∈ nodes
  named : id b ∈ deps a

/-- Distinct ids, and no dependency but on an earlier node. -/
structure Ordered (nodes : List ν) : Prop where
  ids_nodup : (nodes.map id).Nodup
  earlier : ∀ (i : ℕ) (a : ν), nodes[i]? = some a → ∀ d ∈ deps a,
    ∃ j b, j < i ∧ nodes[j]? = some b ∧ id b = d

variable {id deps} {nodes : List ν}

theorem Ordered.position_unique (h : Ordered id deps nodes) {i j : ℕ} {a b : ν}
    (ha : nodes[i]? = some a) (hb : nodes[j]? = some b) (hid : id a = id b) : i = j := by
  obtain ⟨hi, rfl⟩ := List.getElem?_eq_some_iff.mp ha
  obtain ⟨hj, rfl⟩ := List.getElem?_eq_some_iff.mp hb
  have hi' : i < (nodes.map id).length := by rwa [List.length_map]
  have hj' : j < (nodes.map id).length := by rwa [List.length_map]
  have hsame : (nodes.map id)[i] = (nodes.map id)[j] := by
    rw [List.getElem_map, List.getElem_map]
    exact hid
  exact (List.Nodup.getElem_inj_iff h.ids_nodup).mp hsame

theorem Ordered.step (h : Ordered id deps nodes) {a b : ν} (hab : DependsOn id deps nodes a b)
    {i j : ℕ} (ha : nodes[i]? = some a) (hb : nodes[j]? = some b) : j < i := by
  obtain ⟨k, c, hk, hc, hid⟩ := h.earlier i a ha (id b) hab.named
  exact h.position_unique hc hb hid ▸ hk

/-- A path of dependencies leads to an earlier node. -/
theorem Ordered.path (h : Ordered id deps nodes) {a b : ν}
    (hab : Relation.TransGen (DependsOn id deps nodes) a b) {i j : ℕ} (ha : nodes[i]? = some a)
    (hb : nodes[j]? = some b) : j < i := by
  induction hab generalizing j with
  | single hstep => exact h.step hstep ha hb
  | tail _ hstep ih =>
    obtain ⟨k, hk⟩ := List.getElem?_of_mem hstep.left
    exact Nat.lt_trans (h.step hstep hk hb) (ih hk)

/-- No node depends on itself, through whatever others. -/
theorem Ordered.acyclic (h : Ordered id deps nodes) (a : ν) :
    ¬ Relation.TransGen (DependsOn id deps nodes) a a := by
  intro hcycle
  have hmem : a ∈ nodes := by
    cases hcycle with
    | single hstep => exact hstep.left
    | tail _ hstep => exact hstep.right
  obtain ⟨i, hi⟩ := List.getElem?_of_mem hmem
  exact Nat.lt_irrefl i (h.path hcycle hi hi)

/-- Where each node depends on the one before it, it depends on all before it. -/
theorem path_of_chain
    (hchain : ∀ (i : ℕ) (a b : ν), nodes[i]? = some a → nodes[i + 1]? = some b → id a ∈ deps b)
    {i j : ℕ} {a b : ν} (ha : nodes[i]? = some a) (hb : nodes[j]? = some b) (hij : i < j) :
    Relation.TransGen (DependsOn id deps nodes) b a := by
  obtain ⟨k, rfl⟩ := Nat.exists_eq_add_of_lt hij
  induction k generalizing b with
  | zero => exact .single ⟨List.mem_of_getElem? hb, List.mem_of_getElem? ha, hchain i a b ha hb⟩
  | succ k ih =>
    have hk : i + k + 1 < nodes.length :=
      Nat.lt_of_succ_lt (List.getElem?_eq_some_iff.mp hb).1
    have hc : nodes[i + k + 1]? = some nodes[i + k + 1] := List.getElem?_eq_getElem hk
    have hstep : DependsOn id deps nodes b nodes[i + k + 1] :=
      ⟨List.mem_of_getElem? hb, List.mem_of_getElem? hc, hchain _ _ b hc hb⟩
    exact .head hstep (ih hc (by omega))

end OpenJobSpec.ListedGraph
