import Mathlib.Data.Fintype.Card
import Mathlib.Data.Set.Finite.Basic
import Mathlib.Logic.Relation

/-!
# Unfoldings of graphs

A graph is given by the children of each node, in order. A node from which no
cycle is reached unfolds to a finite tree, in which a shared node stands once
for each way to it.

* `Unfolds.acyclic`: what unfolds reaches no cycle;
* `Acyclic.unfolds`: with finitely many inner nodes, what reaches no cycle unfolds.
-/

namespace Mpas.Unfolding

/-! ## Trees -/

/-- A tree of which only the shape is told. -/
inductive Tree
  | node (children : List Tree)

namespace Tree

mutual

def nodes : Tree → Nat
  | .node children => 1 + nodesOf children

def nodesOf : List Tree → Nat
  | [] => 0
  | tree :: rest => tree.nodes + nodesOf rest

end

mutual

/-- The number of edges on the longest way down. -/
def depth : Tree → Nat
  | .node children => depthOf children

/-- The depth of a node above these trees. -/
def depthOf : List Tree → Nat
  | [] => 0
  | tree :: rest => max (tree.depth + 1) (depthOf rest)

end

end Tree

section Graph

variable {ν : Type*} (children : ν → List ν)

mutual

/-- The tree is the unfolding of the graph from `v`. -/
def Unfolds : ν → Tree → Prop
  | v, .node trees => UnfoldAll (children v) trees

def UnfoldAll : List ν → List Tree → Prop
  | [], [] => True
  | v :: rest, tree :: trees => Unfolds v tree ∧ UnfoldAll rest trees
  | [], _ :: _ | _ :: _, [] => False

end

/-- `w` is a child of `v`, in the order of the arguments that well-foundedness asks for. -/
def Child (w v : ν) : Prop := w ∈ children v

/-- `v` is `w` or above it. -/
def Reaches (v w : ν) : Prop := Relation.ReflTransGen (fun a b => Child children b a) v w

/-- No node that is reached is below itself. -/
def Acyclic (v : ν) : Prop :=
  ∀ w, Reaches children v w → ¬ Relation.TransGen (Child children) w w

variable {children} {v w : ν} {vs : List ν}

theorem Reaches.child (h : w ∈ children v) : Reaches children v w := .single h

theorem Reaches.trans {x : ν} (h : Reaches children v w) (h' : Reaches children w x) :
    Reaches children v x := Relation.ReflTransGen.trans h h'

/-! ## What unfolds -/

mutual

theorem Unfolds.acc : ∀ {v : ν} {tree : Tree}, Unfolds children v tree → Acc (Child children) v
  | v, .node _, h => by
    simp only [Unfolds] at h
    exact .intro v fun w hw => UnfoldAll.acc h w hw

theorem UnfoldAll.acc : ∀ {vs : List ν} {trees : List Tree}, UnfoldAll children vs trees →
    ∀ w ∈ vs, Acc (Child children) w
  | [], _, _, _, hw => by cases hw
  | v :: vs, tree :: trees, h, w, hw => by
    simp only [UnfoldAll] at h
    rcases List.mem_cons.mp hw with rfl | hw
    · exact Unfolds.acc h.1
    · exact UnfoldAll.acc h.2 w hw
  | _ :: _, [], h, _, _ => by simp [UnfoldAll] at h

end

theorem acc_of_reaches (h : Acc (Child children) v) (hw : Reaches children v w) :
    Acc (Child children) w := by
  induction hw with
  | refl => exact h
  | tail _ hchild ih => exact ih.inv hchild

theorem not_below_of_acc {r : ν → ν → Prop} (h : Acc r v) : ¬ r v v := by
  induction h with
  | intro v _ ih => exact fun hself => ih v hself hself

/-- **What unfolds reaches no cycle.** -/
theorem Unfolds.acyclic {tree : Tree} (h : Unfolds children v tree) : Acyclic children v :=
  fun _ hw => not_below_of_acc (acc_of_reaches h.acc hw).transGen

/-! ## What reaches no cycle -/

theorem exists_unfoldAll (h : ∀ v ∈ vs, ∃ tree, Unfolds children v tree) :
    ∃ trees, UnfoldAll children vs trees := by
  induction vs with
  | nil => exact ⟨[], by simp [UnfoldAll]⟩
  | cons v vs ih =>
    obtain ⟨tree, htree⟩ := h v List.mem_cons_self
    obtain ⟨trees, htrees⟩ := ih fun w hw => h w (List.mem_cons_of_mem v hw)
    exact ⟨tree :: trees, by simp [UnfoldAll, htree, htrees]⟩

/-- The inner nodes below `v` are in a well-founded order, as they are finitely many. -/
theorem Acyclic.wellFounded (h : Acyclic children v) (hfin : {w | children w ≠ []}.Finite) :
    WellFounded fun a b : {w // children w ≠ [] ∧ Reaches children v w} =>
      Relation.TransGen (Child children) a.1 b.1 := by
  have : Finite {w // children w ≠ [] ∧ Reaches children v w} :=
    (hfin.subset fun _ hw => hw.1).to_subtype
  have : IsTrans {w // children w ≠ [] ∧ Reaches children v w}
      fun a b => Relation.TransGen (Child children) a.1 b.1 := ⟨fun _ _ _ => .trans⟩
  have : Std.Irrefl fun a b : {w // children w ≠ [] ∧ Reaches children v w} =>
      Relation.TransGen (Child children) a.1 b.1 := ⟨fun a => h a.1 a.2.2⟩
  exact Finite.wellFounded_of_trans_of_irrefl _

/-- **What reaches no cycle unfolds**, with finitely many inner nodes. -/
theorem Acyclic.unfolds (h : Acyclic children v) (hfin : {w | children w ≠ []}.Finite) :
    ∃ tree, Unfolds children v tree := by
  have hinner : ∀ a : {w // children w ≠ [] ∧ Reaches children v w},
      ∃ tree, Unfolds children a.1 tree := by
    intro a
    induction a using (h.wellFounded hfin).induction with
    | _ a ih =>
      obtain ⟨trees, htrees⟩ : ∃ trees, UnfoldAll children (children a.1) trees := by
        refine exists_unfoldAll fun w hw => ?_
        by_cases hleaf : children w = []
        · exact ⟨.node [], by simp [Unfolds, UnfoldAll, hleaf]⟩
        · exact ih ⟨w, hleaf, a.2.2.trans (.child hw)⟩ (.single hw)
      exact ⟨.node trees, by simpa [Unfolds] using htrees⟩
  by_cases hleaf : children v = []
  · exact ⟨.node [], by simp [Unfolds, UnfoldAll, hleaf]⟩
  · exact hinner ⟨v, hleaf, .refl⟩

end Graph

end Mpas.Unfolding
