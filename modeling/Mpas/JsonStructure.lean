import Mathlib.Data.Fintype.Card
import Mathlib.Data.Set.Finite.Range
import Mpas.Json
import Mpas.Library.Unfoldings

/-!
# The measure of a JSON structure

`measureJsonStructure` counts the values below a value and how deep they lie, on
a stack of frames: a value is entered, and an array or a record is left again
after what it contains, as it is on the active path in between. Arrays and
records are addresses, so they may be shared, or contain themselves.

* `step`, `loop`: the walk;
* `visit_acyclic`: what the walk does with a value that unfolds to a tree;
* `visit_settles`: the walk comes to an end on every value;
* `measureJsonStructure_correct`: the measure is that of the unfolding.
-/

namespace Mpas.JsonStructure

open Unfolding

/-! ## Values -/

inductive Value (α : Type)
  | undefined
  | null
  | bool (b : Bool)
  | num (n : JsNumber)
  | str (s : String)
  | reference (address : α)
  deriving DecidableEq

inductive Object (α : Type)
  | array (items : List (Value α))
  /-- the members in the order of `Object.keys` -/
  | record (members : List (String × Value α))

/-- The arrays and records that there are. -/
structure ValueGraph where
  size : Nat
  objects : Fin size → Object (Fin size)

/-- A number that something can exceed, such as `Infinity`. -/
structure Bound where
  number : JsNumber
  isNumber : number ≠ .nan

/-- `n > bound` -/
def Bound.exceededBy (bound : Bound) (n : Nat) : Bool := bound.number.lt (.ofNat n)

/-- `n <= bound` -/
def Bound.admits (bound : Bound) (n : Nat) : Bool := (JsNumber.ofNat n).le bound.number

inductive StructureFailure
  | depth
  | nodes
  | cyclic
  deriving DecidableEq

inductive JsonStructureResult
  | ok (depth nodes : Nat)
  | failed (reason : StructureFailure)
  deriving DecidableEq

/-! ## The walk -/

section Walk

variable (graph : ValueGraph) (maxDepth maxNodes : Bound)

inductive Frame
  | enter (value : Value (Fin graph.size)) (depth : Nat)
  | exit (address : Fin graph.size)

/-- The variables of the loop; the head of the list is the top of the stack. -/
structure Walk where
  nodes : Nat := 0
  depth : Nat := 0
  active : Finset (Fin graph.size) := ∅
  stack : List (Frame graph)

inductive Outcome
  | continues (walk : Walk graph)
  | returned (result : JsonStructureResult)

variable {graph}

/-- From the last item to the first. -/
def pushItems (items : List (Value (Fin graph.size))) (depth : Nat) (stack : List (Frame graph)) :
    List (Frame graph) := items.foldr (fun item stack => .enter item depth :: stack) stack

/-- From the first key to the last. -/
def pushMembers (members : List (String × Value (Fin graph.size))) (depth : Nat)
    (stack : List (Frame graph)) : List (Frame graph) :=
  members.foldl (fun stack member => .enter member.2 depth :: stack) stack

def pushContents (object : Object (Fin graph.size)) (depth : Nat) (stack : List (Frame graph)) :
    List (Frame graph) :=
  match object with
  | .array items => pushItems items depth stack
  | .record members => pushMembers members depth stack

/-- One turn of the loop. -/
def step (walk : Walk graph) : Outcome graph :=
  match walk.stack with
  | [] => .returned (.ok walk.depth walk.nodes)
  | .exit address :: stack =>
    .continues { walk with active := walk.active.erase address, stack }
  | .enter value depth :: stack =>
    let nodes := walk.nodes + 1
    if maxNodes.exceededBy nodes then .returned (.failed .nodes)
    else
      let deepest := if depth > walk.depth then depth else walk.depth
      if maxDepth.exceededBy deepest then .returned (.failed .depth)
      else match value with
        | .reference address =>
          if address ∈ walk.active then .returned (.failed .cyclic)
          else .continues {
            nodes
            depth := deepest
            active := insert address walk.active
            stack := pushContents (graph.objects address) (depth + 1) (.exit address :: stack) }
        | _ => .continues { walk with nodes, depth := deepest, stack }

def loop : Nat → Walk graph → Option JsonStructureResult
  | 0, _ => none
  | fuel + 1, walk =>
    match step maxDepth maxNodes walk with
    | .continues walk => loop fuel walk
    | .returned result => some result

/-- The call, for so many turns of its loop. -/
def measureJsonStructure (root : Value (Fin graph.size)) (fuel : Nat) :
    Option JsonStructureResult := loop maxDepth maxNodes fuel { stack := [.enter root 0] }

/-! ## The values below a value -/

/-- What an object contains, in the order in which it is entered. -/
def Object.contents : Object (Fin graph.size) → List (Value (Fin graph.size))
  | .array items => items
  | .record members => (members.map Prod.snd).reverse

def children (graph : ValueGraph) : Value (Fin graph.size) → List (Value (Fin graph.size))
  | .reference address => (graph.objects address).contents
  | _ => []

def enters (values : List (Value (Fin graph.size))) (depth : Nat) : List (Frame graph) :=
  values.map fun value => .enter value depth

theorem pushContents_eq (object : Object (Fin graph.size)) (depth : Nat)
    (stack : List (Frame graph)) :
    pushContents object depth stack = enters object.contents depth ++ stack := by
  cases object with
  | array items =>
    show pushItems items depth stack = enters items depth ++ stack
    induction items with
    | nil => rfl
    | cons item items ih =>
      simp only [pushItems, List.foldr_cons, enters, List.map_cons, List.cons_append] at ih ⊢
      rw [ih]
  | record members =>
    show pushMembers members depth stack = enters (members.map Prod.snd).reverse depth ++ stack
    induction members generalizing stack with
    | nil => rfl
    | cons member members ih =>
      simp only [pushMembers, List.foldl_cons] at ih ⊢
      rw [ih]
      simp [enters]

theorem inner_finite (graph : ValueGraph) : {v | children graph v ≠ []}.Finite := by
  refine (Set.finite_range fun address : Fin graph.size => Value.reference address).subset ?_
  intro v hv
  cases v with
  | reference address => exact ⟨address, rfl⟩
  | undefined | null | bool | num | str => exact absurd rfl hv

/-! ## Bounds -/

theorem Bound.admits_iff (bound : Bound) (n : Nat) :
    bound.admits n = true ↔ bound.exceededBy n = false := by
  obtain ⟨number, hnumber⟩ := bound
  cases number with
  | finite q => simp [Bound.admits, Bound.exceededBy, JsNumber.ofNat, JsNumber.le, JsNumber.lt]
  | infinity negative =>
    simp [Bound.admits, Bound.exceededBy, JsNumber.ofNat, JsNumber.le, JsNumber.lt]
  | nan => exact absurd rfl hnumber

theorem Bound.exceededBy_mono (bound : Bound) {m n : Nat} (hle : m ≤ n)
    (h : bound.exceededBy m = true) : bound.exceededBy n = true := by
  obtain ⟨number, hnumber⟩ := bound
  cases number with
  | finite q =>
    simp only [Bound.exceededBy, JsNumber.ofNat, JsNumber.lt, decide_eq_true_eq] at h ⊢
    have hcast : (m : ℚ) ≤ n := by exact_mod_cast hle
    exact lt_of_lt_of_le h hcast
  | infinity negative => simpa [Bound.exceededBy, JsNumber.ofNat, JsNumber.lt] using h
  | nan => exact absurd rfl hnumber

/-! ## Ends of the loop -/

variable {maxDepth maxNodes} {walk mid after : Walk graph} {result result' : JsonStructureResult}

def Returns (maxDepth maxNodes : Bound) (walk : Walk graph) (result : JsonStructureResult) : Prop :=
  ∃ fuel, loop maxDepth maxNodes fuel walk = some result

theorem loop_mono {fuel more : Nat} (hle : fuel ≤ more)
    (h : loop maxDepth maxNodes fuel walk = some result) :
    loop maxDepth maxNodes more walk = some result := by
  induction fuel generalizing walk more with
  | zero => simp [loop] at h
  | succ fuel ih =>
    obtain ⟨more, rfl⟩ : ∃ k, more = k + 1 := ⟨more - 1, by omega⟩
    rw [loop] at h ⊢
    cases hstep : step maxDepth maxNodes walk with
    | continues walk' =>
      rw [hstep] at h
      exact ih (by omega) h
    | returned result' =>
      rw [hstep] at h
      exact h

theorem Returns.unique (h : Returns maxDepth maxNodes walk result)
    (h' : Returns maxDepth maxNodes walk result') : result = result' := by
  obtain ⟨fuel, h⟩ := h
  obtain ⟨fuel', h'⟩ := h'
  have hmax := loop_mono (Nat.le_max_left fuel fuel') h
  have hmax' := loop_mono (Nat.le_max_right fuel fuel') h'
  rw [hmax] at hmax'
  exact Option.some.inj hmax'

theorem returns_of_returned (h : step maxDepth maxNodes walk = .returned result) :
    Returns maxDepth maxNodes walk result := ⟨1, by simp [loop, h]⟩

/-- The loop gets from `walk` to `after`, if it does not end before. -/
def Leads (maxDepth maxNodes : Bound) (walk after : Walk graph) : Prop :=
  ∀ result, Returns maxDepth maxNodes after result → Returns maxDepth maxNodes walk result

theorem Leads.refl (walk : Walk graph) : Leads maxDepth maxNodes walk walk := fun _ h => h

theorem Leads.trans (h : Leads maxDepth maxNodes walk mid)
    (h' : Leads maxDepth maxNodes mid after) : Leads maxDepth maxNodes walk after :=
  fun result hresult => h result (h' result hresult)

theorem leads_of_continues (h : step maxDepth maxNodes walk = .continues after) :
    Leads maxDepth maxNodes walk after := by
  rintro result ⟨fuel, hfuel⟩
  exact ⟨fuel + 1, by simp [loop, h, hfuel]⟩

/-! ## One turn -/

/-- The walk has exceeded no bound. -/
def Within (maxDepth maxNodes : Bound) (walk : Walk graph) : Prop :=
  maxNodes.exceededBy walk.nodes = false ∧ maxDepth.exceededBy walk.depth = false

theorem deepest_eq (depth before : Nat) :
    (if depth > before then depth else before) = max before depth := by
  split <;> omega

theorem step_exit (nodes depth : Nat) (active : Finset (Fin graph.size)) (address : Fin graph.size)
    (rest : List (Frame graph)) :
    step maxDepth maxNodes ⟨nodes, depth, active, .exit address :: rest⟩ =
      .continues ⟨nodes, depth, active.erase address, rest⟩ := rfl

/-- Where a bound is exceeded by a value alone. -/
theorem step_exceeded (value : Value (Fin graph.size)) {nodes depth before : Nat}
    (active : Finset (Fin graph.size)) (rest : List (Frame graph))
    (h : maxNodes.exceededBy (nodes + 1) = true ∨ maxDepth.exceededBy (max before depth) = true) :
    ∃ reason, step maxDepth maxNodes ⟨nodes, before, active, .enter value depth :: rest⟩ =
        .returned (.failed reason) ∧
      (reason = .nodes ∧ maxNodes.exceededBy (nodes + 1) = true ∨
        reason = .depth ∧ maxDepth.exceededBy (max before depth) = true) := by
  by_cases hnodes : maxNodes.exceededBy (nodes + 1) = true
  · exact ⟨.nodes, by simp [step, hnodes], Or.inl ⟨rfl, hnodes⟩⟩
  · have hdepth := h.resolve_left hnodes
    exact ⟨.depth, by simp [step, hnodes, deepest_eq, hdepth], Or.inr ⟨rfl, hdepth⟩⟩

/-- What entering a value leads to, where it exceeds no bound. -/
theorem step_enter (value : Value (Fin graph.size)) {nodes depth before : Nat}
    (active : Finset (Fin graph.size)) (rest : List (Frame graph))
    (hnodes : maxNodes.exceededBy (nodes + 1) = false)
    (hdepth : maxDepth.exceededBy (max before depth) = false) :
    step maxDepth maxNodes ⟨nodes, before, active, .enter value depth :: rest⟩ =
      match value with
      | .reference address =>
        if address ∈ active then .returned (.failed .cyclic)
        else .continues ⟨nodes + 1, max before depth, insert address active,
          enters (graph.objects address).contents (depth + 1) ++ .exit address :: rest⟩
      | _ => .continues ⟨nodes + 1, max before depth, active, rest⟩ := by
  cases value <;> simp [step, hnodes, hdepth, deepest_eq, pushContents_eq]

/-! ## Values that unfold -/

/-- Between the two the walk has counted what lies between them, or it has ended at a bound that
`after` exceeds. -/
structure Measures (maxDepth maxNodes : Bound) (walk after : Walk graph) : Prop where
  within : Within maxDepth maxNodes after → Leads maxDepth maxNodes walk after
  exceeded : ¬ Within maxDepth maxNodes after → ∃ reason,
    Returns maxDepth maxNodes walk (.failed reason) ∧
      (reason = .nodes ∧ maxNodes.exceededBy after.nodes = true ∨
        reason = .depth ∧ maxDepth.exceededBy after.depth = true)

theorem Within.of_le (h : Within maxDepth maxNodes after) (hnodes : mid.nodes ≤ after.nodes)
    (hdepth : mid.depth ≤ after.depth) : Within maxDepth maxNodes mid := by
  constructor
  · cases hmid : maxNodes.exceededBy mid.nodes with
    | false => rfl
    | true => exact absurd (maxNodes.exceededBy_mono hnodes hmid) (by simp [h.1])
  · cases hmid : maxDepth.exceededBy mid.depth with
    | false => rfl
    | true => exact absurd (maxDepth.exceededBy_mono hdepth hmid) (by simp [h.2])

theorem Measures.refl (h : Within maxDepth maxNodes walk) : Measures maxDepth maxNodes walk walk :=
  ⟨fun _ => .refl walk, fun hnot => absurd h hnot⟩

theorem Measures.trans (h : Measures maxDepth maxNodes walk mid)
    (h' : Within maxDepth maxNodes mid → Measures maxDepth maxNodes mid after)
    (hnodes : mid.nodes ≤ after.nodes) (hdepth : mid.depth ≤ after.depth) :
    Measures maxDepth maxNodes walk after := by
  constructor
  · intro hafter
    have hmid : Within maxDepth maxNodes mid := hafter.of_le hnodes hdepth
    exact (h.within hmid).trans ((h' hmid).within hafter)
  · intro hafter
    by_cases hmid : Within maxDepth maxNodes mid
    · obtain ⟨reason, hreturns, hreason⟩ := (h' hmid).exceeded hafter
      exact ⟨reason, h.within hmid _ hreturns, hreason⟩
    · obtain ⟨reason, hreturns, hreason⟩ := h.exceeded hmid
      refine ⟨reason, hreturns, hreason.imp ?_ ?_⟩
      · exact fun hn => ⟨hn.1, maxNodes.exceededBy_mono hnodes hn.2⟩
      · exact fun hd => ⟨hd.1, maxDepth.exceededBy_mono hdepth hd.2⟩

/-- A turn that continues, followed by the rest. -/
theorem Measures.continues (hstep : step maxDepth maxNodes walk = .continues mid)
    (h : Measures maxDepth maxNodes mid after) : Measures maxDepth maxNodes walk after := by
  have hleads := leads_of_continues hstep
  refine ⟨fun hafter => hleads.trans (h.within hafter), fun hafter => ?_⟩
  obtain ⟨reason, hreturns, hreason⟩ := h.exceeded hafter
  exact ⟨reason, hleads _ hreturns, hreason⟩

/-- No object that the value reaches is on the active path. -/
def Fresh (graph : ValueGraph) (active : Finset (Fin graph.size)) (value : Value (Fin graph.size)) :
    Prop := ∀ address, Reaches (children graph) value (.reference address) → address ∉ active

/-- The contents of an object that reaches no cycle do not reach the object. -/
theorem Fresh.contents {active : Finset (Fin graph.size)} {address : Fin graph.size}
    (h : Fresh graph active (.reference address))
    (hacyclic : Acyclic (children graph) (.reference address)) :
    ∀ child ∈ (graph.objects address).contents, Fresh graph (insert address active) child := by
  intro child hchild other hreach
  have hchild' : child ∈ children graph (.reference address) := hchild
  rw [Finset.mem_insert, not_or]
  refine ⟨?_, h other ((Reaches.child hchild').trans hreach)⟩
  rintro rfl
  have hbelow : ∀ w, Reaches (children graph) child w →
      Relation.TransGen (Child (children graph)) w (.reference other) := by
    intro w hw
    induction hw with
    | refl => exact .single hchild'
    | tail _ hlast ih => exact .head hlast ih
  exact hacyclic _ .refl (hbelow _ hreach)

/-- A value by itself, which exceeds a bound. -/
theorem Measures.stopped {value : Value (Fin graph.size)} {nodes depth before : Nat}
    {active : Finset (Fin graph.size)} {rest : List (Frame graph)}
    (h : maxNodes.exceededBy (nodes + 1) = true ∨ maxDepth.exceededBy (max before depth) = true)
    (hnodes : nodes + 1 ≤ after.nodes) (hdepth : max before depth ≤ after.depth) :
    Measures maxDepth maxNodes ⟨nodes, before, active, .enter value depth :: rest⟩ after := by
  obtain ⟨reason, hstep, hreason⟩ := step_exceeded value active rest h
  have hafter : reason = .nodes ∧ maxNodes.exceededBy after.nodes = true ∨
      reason = .depth ∧ maxDepth.exceededBy after.depth = true := by
    refine hreason.imp ?_ ?_
    · exact fun hn => ⟨hn.1, maxNodes.exceededBy_mono hnodes hn.2⟩
    · exact fun hd => ⟨hd.1, maxDepth.exceededBy_mono hdepth hd.2⟩
  refine ⟨fun hwithin => ?_, fun _ => ⟨reason, returns_of_returned hstep, hafter⟩⟩
  rcases hafter with ⟨_, hexceeded⟩ | ⟨_, hexceeded⟩
  · exact absurd hexceeded (by simp [hwithin.1])
  · exact absurd hexceeded (by simp [hwithin.2])

/-- A value that contains nothing is one node. -/
theorem Measures.leaf {value : Value (Fin graph.size)} {nodes depth before : Nat}
    {active : Finset (Fin graph.size)} {rest : List (Frame graph)}
    (hleaf : ∀ address, value ≠ .reference address)
    (hnodes : maxNodes.exceededBy (nodes + 1) = false)
    (hdepth : maxDepth.exceededBy (max before depth) = false) :
    Measures maxDepth maxNodes ⟨nodes, before, active, .enter value depth :: rest⟩
      ⟨nodes + 1, max before depth, active, rest⟩ := by
  refine .continues ?_ (.refl ⟨hnodes, hdepth⟩)
  rw [step_enter value active rest hnodes hdepth]
  cases value with
  | reference address => exact absurd rfl (hleaf address)
  | undefined | null | bool | num | str => rfl

/-- The frame that leaves an object takes it off the active path. -/
theorem Measures.exit {address : Fin graph.size} {nodes depth : Nat}
    {active : Finset (Fin graph.size)} {rest : List (Frame graph)} (h : address ∉ active)
    (hwithin : Within maxDepth maxNodes
      ⟨nodes, depth, insert address active, .exit address :: rest⟩) :
    Measures maxDepth maxNodes ⟨nodes, depth, insert address active, .exit address :: rest⟩
      ⟨nodes, depth, active, rest⟩ := by
  refine .continues ?_ (.refl hwithin)
  rw [step_exit, Finset.erase_insert h]

mutual

/-- **A value that unfolds** adds the nodes of its tree, as deep as they are. -/
theorem visit_unfolding : ∀ {value : Value (Fin graph.size)} {tree : Tree},
    Unfolds (children graph) value tree → ∀ {active : Finset (Fin graph.size)},
    Fresh graph active value → ∀ (nodes before depth : Nat) (rest : List (Frame graph)),
    Measures maxDepth maxNodes ⟨nodes, before, active, .enter value depth :: rest⟩
      ⟨nodes + tree.nodes, max before (depth + tree.depth), active, rest⟩
  | value, .node trees, htree, active, hfresh, nodes, before, depth, rest => by
    have hcontents : UnfoldAll (children graph) (children graph value) trees := by
      simpa [Unfolds] using htree
    simp only [Tree.nodes, Tree.depth]
    by_cases hfirst : maxNodes.exceededBy (nodes + 1) = true ∨
        maxDepth.exceededBy (max before depth) = true
    · exact .stopped hfirst (show nodes + 1 ≤ nodes + (1 + Tree.nodesOf trees) by omega)
        (show max before depth ≤ max before (depth + Tree.depthOf trees) by omega)
    · obtain ⟨hnodes, hdepth⟩ := not_or.mp hfirst
      rw [Bool.not_eq_true] at hnodes hdepth
      by_cases hleaf : ∀ address, value ≠ .reference address
      · have hnone : trees = [] := by
          cases value with
          | reference address => exact absurd rfl (hleaf address)
          | undefined | null | bool | num | str =>
            cases trees with
            | nil => rfl
            | cons => simp [children, UnfoldAll] at hcontents
        subst hnone
        exact .leaf hleaf hnodes hdepth
      · obtain ⟨address, hvalue⟩ := not_forall.mp hleaf
        obtain rfl := not_not.mp hvalue
        have hfree : address ∉ active := hfresh address .refl
        have hstep := step_enter (.reference address) active rest hnodes hdepth
        simp only [hfree, ↓reduceIte] at hstep
        have hbelow := visit_unfoldings hcontents (hfresh.contents htree.acyclic) (nodes + 1)
          (max before depth) depth (.exit address :: rest) (Nat.le_max_right _ _) ⟨hnodes, hdepth⟩
        have hsame : max (max before depth) (depth + Tree.depthOf trees) =
            max before (depth + Tree.depthOf trees) := by omega
        rw [hsame, Nat.add_assoc] at hbelow
        exact .continues hstep (hbelow.trans (.exit hfree) (Nat.le_refl _) (Nat.le_refl _))

theorem visit_unfoldings : ∀ {values : List (Value (Fin graph.size))} {trees : List Tree},
    UnfoldAll (children graph) values trees → ∀ {active : Finset (Fin graph.size)},
    (∀ value ∈ values, Fresh graph active value) →
    ∀ (nodes before depth : Nat) (rest : List (Frame graph)), depth ≤ before →
    Within maxDepth maxNodes ⟨nodes, before, active, enters values (depth + 1) ++ rest⟩ →
    Measures maxDepth maxNodes ⟨nodes, before, active, enters values (depth + 1) ++ rest⟩
      ⟨nodes + Tree.nodesOf trees, max before (depth + Tree.depthOf trees), active, rest⟩
  | [], [], _, active, _, nodes, before, depth, rest, hle, hwithin => by
    have hsame : max before (depth + Tree.depthOf []) = before := by
      simp only [Tree.depthOf]; omega
    rw [hsame]
    exact .refl hwithin
  | value :: values, tree :: trees, h, active, hfresh, nodes, before, depth, rest, hle, _ => by
    simp only [UnfoldAll] at h
    obtain ⟨hvalue, hvalues⟩ := List.forall_mem_cons.mp hfresh
    have hfirst := visit_unfolding h.1 hvalue nodes
      before (depth + 1) (enters values (depth + 1) ++ rest)
    have hle' : depth ≤ max before (depth + 1 + tree.depth) := by omega
    have hothers := visit_unfoldings h.2 hvalues
      (nodes + tree.nodes) (max before (depth + 1 + tree.depth)) depth rest hle'
    have hsame : max (max before (depth + 1 + tree.depth)) (depth + Tree.depthOf trees) =
        max before (depth + Tree.depthOf (tree :: trees)) := by
      simp only [Tree.depthOf]; omega
    rw [hsame, Nat.add_assoc nodes] at hothers
    refine hfirst.trans hothers ?_ ?_
    · show nodes + tree.nodes ≤ nodes + (tree.nodes + Tree.nodesOf trees)
      omega
    · show max before (depth + 1 + tree.depth) ≤ max before (depth + Tree.depthOf (tree :: trees))
      simp only [Tree.depthOf]; omega
  | [], _ :: _, h, _, _, _, _, _, _, _, _ => by simp [UnfoldAll] at h
  | _ :: _, [], h, _, _, _, _, _, _, _, _ => by simp [UnfoldAll] at h

end

/-! ## All values -/

/-- The walk ends without a measure, or it takes the values off the stack, and they unfold. -/
def Settles (maxDepth maxNodes : Bound) (walk : Walk graph)
    (values : List (Value (Fin graph.size))) (active : Finset (Fin graph.size))
    (rest : List (Frame graph)) : Prop :=
  (∃ reason, Returns maxDepth maxNodes walk (.failed reason)) ∨
    ∃ nodes depth, Leads maxDepth maxNodes walk ⟨nodes, depth, active, rest⟩ ∧
      ∃ trees, UnfoldAll (children graph) values trees

theorem Settles.leads {values : List (Value (Fin graph.size))} {active : Finset (Fin graph.size)}
    {rest : List (Frame graph)} (hleads : Leads maxDepth maxNodes walk mid)
    (h : Settles maxDepth maxNodes mid values active rest) :
    Settles maxDepth maxNodes walk values active rest := by
  rcases h with ⟨reason, hreason⟩ | ⟨nodes, depth, hafter, htrees⟩
  · exact Or.inl ⟨reason, hleads _ hreason⟩
  · exact Or.inr ⟨nodes, depth, hleads.trans hafter, htrees⟩

/-- Values one after another, if each of them settles. -/
theorem settles_all {active : Finset (Fin graph.size)} {depth : Nat}
    (hone : ∀ value nodes before rest, Settles maxDepth maxNodes
      ⟨nodes, before, active, .enter value depth :: rest⟩ [value] active rest)
    (values : List (Value (Fin graph.size))) (nodes before : Nat) (rest : List (Frame graph)) :
    Settles maxDepth maxNodes ⟨nodes, before, active, enters values depth ++ rest⟩ values active
      rest := by
  induction values generalizing nodes before with
  | nil => exact Or.inr ⟨nodes, before, .refl _, [], by simp [UnfoldAll]⟩
  | cons value values ih =>
    rcases hone value nodes before (enters values depth ++ rest) with
      hreason | ⟨nodes', before', hleads, trees, htree⟩
    · exact Or.inl hreason
    · rcases (ih nodes' before').leads hleads with
        hreason | ⟨nodes'', before'', hafter, others, hothers⟩
      · exact Or.inl hreason
      · cases trees with
        | nil => simp [UnfoldAll] at htree
        | cons tree trees =>
          simp only [UnfoldAll] at htree
          exact Or.inr ⟨nodes'', before'', hafter, tree :: others, by
            simp only [UnfoldAll]
            exact ⟨htree.1, hothers⟩⟩

/-- A value settles where the contents of each object do that is not on the active path. -/
theorem settles_value {active : Finset (Fin graph.size)}
    (hbelow : ∀ address ∉ active, ∀ nodes before depth rest, Settles maxDepth maxNodes
      ⟨nodes, before, insert address active,
        enters (graph.objects address).contents depth ++ rest⟩
      (graph.objects address).contents (insert address active) rest)
    (value : Value (Fin graph.size)) (nodes before depth : Nat) (rest : List (Frame graph)) :
    Settles maxDepth maxNodes ⟨nodes, before, active, .enter value depth :: rest⟩ [value] active
      rest := by
  by_cases hfirst : maxNodes.exceededBy (nodes + 1) = true ∨
      maxDepth.exceededBy (max before depth) = true
  · obtain ⟨reason, hstep, _⟩ := step_exceeded value active rest hfirst
    exact Or.inl ⟨reason, returns_of_returned hstep⟩
  · obtain ⟨hnodes, hdepth⟩ := not_or.mp hfirst
    rw [Bool.not_eq_true] at hnodes hdepth
    have hstep := step_enter value active rest hnodes hdepth
    by_cases hleaf : ∀ address, value ≠ .reference address
    · refine Or.inr ⟨nodes + 1, max before depth, leads_of_continues ?_, [.node []], ?_⟩
      · rw [hstep]
        cases value with
        | reference address => exact absurd rfl (hleaf address)
        | undefined | null | bool | num | str => rfl
      · cases value with
        | reference address => exact absurd rfl (hleaf address)
        | undefined | null | bool | num | str => simp [UnfoldAll, Unfolds, children]
    · obtain ⟨address, hvalue⟩ := not_forall.mp hleaf
      obtain rfl := not_not.mp hvalue
      by_cases hactive : address ∈ active
      · exact Or.inl ⟨.cyclic, returns_of_returned (by simpa [hactive] using hstep)⟩
      · simp only [hactive, ↓reduceIte] at hstep
        refine .leads (leads_of_continues hstep) ?_
        rcases hbelow address hactive (nodes + 1) (max before depth) (depth + 1)
          (.exit address :: rest) with hreason | ⟨nodes', before', hleads, trees, htrees⟩
        · exact Or.inl hreason
        · have hexit : step maxDepth maxNodes
              ⟨nodes', before', insert address active, .exit address :: rest⟩ =
              .continues ⟨nodes', before', active, rest⟩ := by
            rw [step_exit, Finset.erase_insert hactive]
          exact Or.inr ⟨nodes', before', hleads.trans (leads_of_continues hexit), [.node trees], by
            simp only [UnfoldAll, Unfolds, and_true]
            exact htrees⟩

/-- **The walk comes to an end**: each object on the active path leaves fewer to be entered. -/
theorem visit_settles (room : Nat) : ∀ {active : Finset (Fin graph.size)},
    graph.size ≤ active.card + room → ∀ value nodes before depth rest, Settles maxDepth maxNodes
      ⟨nodes, before, active, .enter value depth :: rest⟩ [value] active rest := by
  induction room with
  | zero =>
    intro active hroom
    refine settles_value fun address hfree => ?_
    have hlt := Finset.card_lt_univ_of_notMem hfree
    rw [Fintype.card_fin] at hlt
    omega
  | succ room ih =>
    intro active hroom
    refine settles_value fun address hfree nodes before depth rest => ?_
    have hcard : (insert address active).card = active.card + 1 :=
      Finset.card_insert_of_notMem hfree
    exact settles_all (fun value nodes before rest => ih (by omega) value nodes before depth rest) _
      nodes before rest

/-! ## The measure -/

theorem ended (nodes depth : Nat) : Returns maxDepth maxNodes
    (⟨nodes, depth, ∅, []⟩ : Walk graph) (.ok depth nodes) := returns_of_returned rfl

/-- The measure of a value that unfolds to `tree`. -/
structure MeasureOf (maxDepth maxNodes : Bound) (tree : Tree) (result : JsonStructureResult) :
    Prop where
  ok_iff : ∀ depth nodes, result = .ok depth nodes ↔
    depth = tree.depth ∧ nodes = tree.nodes ∧ maxNodes.admits tree.nodes = true ∧
      maxDepth.admits tree.depth = true
  nodes : result = .failed .nodes → maxNodes.exceededBy tree.nodes = true
  depth : result = .failed .depth → maxDepth.exceededBy tree.depth = true
  not_cyclic : result ≠ .failed .cyclic

theorem measure_unfolding {root : Value (Fin graph.size)} {tree : Tree}
    (htree : Unfolds (children graph) root tree)
    (h : Returns maxDepth maxNodes { stack := [.enter root 0] } result) :
    MeasureOf maxDepth maxNodes tree result := by
  have hfresh : Fresh graph ∅ root := fun _ _ => Finset.notMem_empty _
  have hvisit : Measures maxDepth maxNodes { stack := [.enter root 0] } _ :=
    visit_unfolding htree hfresh 0 0 0 []
  simp only [Nat.zero_add, Nat.zero_max] at hvisit
  by_cases hwithin : Within maxDepth maxNodes (⟨tree.nodes, tree.depth, ∅, []⟩ : Walk graph)
  · have hresult := h.unique (hvisit.within hwithin _ (ended tree.nodes tree.depth))
    have hadmits : maxNodes.admits tree.nodes = true ∧ maxDepth.admits tree.depth = true := by
      rw [Bound.admits_iff, Bound.admits_iff]
      exact hwithin
    subst hresult
    refine ⟨fun depth nodes => ?_, by simp, by simp, by simp⟩
    simp only [JsonStructureResult.ok.injEq, hadmits, and_true]
    exact ⟨fun heq => ⟨heq.1.symm, heq.2.symm⟩, fun heq => ⟨heq.1.symm, heq.2.symm⟩⟩
  · obtain ⟨reason, hreturns, hreason⟩ := hvisit.exceeded hwithin
    have hresult := h.unique hreturns
    have hrefused : ¬ (maxNodes.admits tree.nodes = true ∧ maxDepth.admits tree.depth = true) := by
      rw [Bound.admits_iff, Bound.admits_iff]
      exact hwithin
    subst hresult
    rcases hreason with ⟨rfl, hexceeded⟩ | ⟨rfl, hexceeded⟩
    · constructor <;> simp_all
    · constructor <;> simp_all

end Walk

/-- **The measure agrees with the unfolding.** It comes to one result, for every graph of values. Of
a value that reaches no cycle, this is the measure of the tree that the value unfolds to; a value
that reaches a cycle is never reported `ok`. -/
theorem measureJsonStructure_correct (graph : ValueGraph) (maxDepth maxNodes : Bound)
    (root : Value (Fin graph.size)) :
    ∃ result, (∃ fuel, measureJsonStructure maxDepth maxNodes root fuel = some result) ∧
      (∀ fuel other, measureJsonStructure maxDepth maxNodes root fuel = some other →
        other = result) ∧
      (Acyclic (children graph) root → ∃ tree, Unfolds (children graph) root tree ∧
        MeasureOf maxDepth maxNodes tree result) ∧
      (¬ Acyclic (children graph) root → ∀ depth nodes, result ≠ .ok depth nodes) := by
  have hsettles : Settles maxDepth maxNodes { stack := [.enter root 0] } [root] ∅ [] :=
    visit_settles graph.size (by simp) root 0 0 0 []
  have hreturns : ∃ result, Returns maxDepth maxNodes { stack := [.enter root 0] } result := by
    rcases hsettles with ⟨reason, hreason⟩ | ⟨nodes, depth, hleads, _⟩
    · exact ⟨_, hreason⟩
    · exact ⟨_, hleads _ (ended nodes depth)⟩
  obtain ⟨result, hresult⟩ := hreturns
  refine ⟨result, hresult, fun fuel other hother => ?_, fun hacyclic => ?_, ?_⟩
  · exact Returns.unique ⟨fuel, hother⟩ hresult
  · obtain ⟨tree, htree⟩ := hacyclic.unfolds (inner_finite graph)
    exact ⟨tree, htree, measure_unfolding htree hresult⟩
  · rintro hcyclic depth nodes rfl
    rcases hsettles with ⟨reason, hreason⟩ | ⟨_, _, _, trees, htrees⟩
    · cases hresult.unique hreason
    · cases trees with
      | nil => simp [UnfoldAll] at htrees
      | cons tree trees =>
        simp only [UnfoldAll] at htrees
        exact hcyclic htrees.1.acyclic

end Mpas.JsonStructure
