import Graft.Forest
import Mathlib.Data.List.Nodup
import Mathlib.Data.List.Perm.Subperm
import Mathlib.Logic.Relation

/-!
# Preorder

A walk visits the nodes of a forest in preorder, which is defined by recursion over the forest, knows
of no stack and no steps (`Preorder`), and is unique (`Preorder.unique`): if the walk may make as many
visits as there are nodes it lists them in this order (`Preorder.visit_eq`), and if it stops before it
has to it has listed them in this order (`preorder_visit`). Below nodes that no other node is above,
each node is listed once (`Branching.preorder`), since a walk never comes to a node that it has visited
(`Branching.Walked.next`). Below any node that is not below itself there are no more nodes than are
known (`Branching.preorder_of_roots`).
-/

namespace Graft.Forest

variable {α β : Type} {children : α → List α}

/-! ## What a walk visits -/

/-- What holds of the nodes of a stack and of the children of what it holds of, holds of all that is
visited. -/
theorem forall_mem_visit {P : α → Prop} {steps : Nat} {stack : List α}
    (hstack : ∀ node ∈ stack, P node)
    (hchildren : ∀ node, P node → ∀ child ∈ children node, P child) :
    ∀ node ∈ visit children steps stack, P node := by
  induction steps generalizing stack with
  | zero => simp [visit]
  | succ steps ih =>
      cases stack with
      | nil => simp
      | cons first rest =>
          have hfirst := hstack first List.mem_cons_self
          rw [visit, List.forall_mem_cons]
          refine ⟨hfirst, ih (List.forall_mem_append.mpr ⟨hchildren first hfirst, ?_⟩)⟩
          exact fun node hmem => hstack node (List.mem_cons_of_mem _ hmem)

/-- A walk through nodes that stand for others is a walk through those, if their children do. -/
theorem map_visit (children' : β → List β) (f : α → β)
    (hchildren : ∀ node, (children node).map f = children' (f node)) (steps : Nat)
    (stack : List α) :
    (visit children steps stack).map f = visit children' steps (stack.map f) := by
  induction steps generalizing stack with
  | zero => rfl
  | succ steps ih =>
      cases stack with
      | nil => rfl
      | cons node rest =>
          rw [visit, List.map_cons, ih, List.map_append, hchildren]
          rfl

/-! ## Preorder -/

/-- The listing of some trees, one after the other: for each its root, then the trees below that. A
node stands for a list of its own. -/
inductive Preorder (own : α → List β) (children : α → List α) : List α → List β → Prop where
  | nil : Preorder own children [] []
  | node {node : α} {rest : List α} {below after : List β}
      (hbelow : Preorder own children (children node) below)
      (hafter : Preorder own children rest after) :
      Preorder own children (node :: rest) (own node ++ (below ++ after))

section Preorder

variable {own : α → List β} {stack stack' nodes nodes' : List α} {listing listing' : List β}
  {steps : Nat}

theorem Preorder.append (h : Preorder own children stack listing)
    (h' : Preorder own children stack' listing') :
    Preorder own children (stack ++ stack') (listing ++ listing') := by
  induction h with
  | nil => exact h'
  | node hbelow _ _ ih =>
      rw [List.append_assoc, List.append_assoc]
      exact .node hbelow ih

theorem Preorder.of_append (h : Preorder own children (stack ++ stack') listing) :
    ∃ first second, listing = first ++ second ∧ Preorder own children stack first ∧
      Preorder own children stack' second := by
  induction stack generalizing listing with
  | nil => exact ⟨[], listing, rfl, .nil, h⟩
  | cons node rest ih =>
      cases h with
      | node hbelow hafter =>
          obtain ⟨first, second, rfl, hfirst, hsecond⟩ := ih hafter
          exact ⟨_, second, by simp only [List.append_assoc], .node hbelow hfirst, hsecond⟩

/-- Nodes that stand for others are listed as those are, if their children stand for the children of
those. -/
theorem Preorder.of_map (children : α → List α) {children' : β → List β} {f : α → β}
    {images : List β} (hchildren : ∀ node, (children node).map f = children' (f node))
    (h : Preorder (fun node => [node]) children' (stack.map f) images) :
    ∃ nodes, Preorder (fun node => [node]) children stack nodes ∧ nodes.map f = images := by
  generalize himages : stack.map f = roots at h
  induction h generalizing stack with
  | nil =>
      rw [List.map_eq_nil_iff] at himages
      subst himages
      exact ⟨[], .nil, rfl⟩
  | node _ _ ihbelow ihafter =>
      obtain ⟨node, rest, rfl, rfl, rfl⟩ := List.map_eq_cons_iff.mp himages
      obtain ⟨below, hbelow, rfl⟩ := ihbelow (hchildren node)
      obtain ⟨after, hafter, rfl⟩ := ihafter rfl
      exact ⟨_, .node hbelow hafter, by simp⟩

/-- A walk that may make enough visits lists the nodes in preorder. -/
theorem Preorder.visit_eq (h : Preorder (fun node => [node]) children stack nodes)
    (hsteps : nodes.length ≤ steps) : visit children steps stack = nodes := by
  induction steps generalizing stack nodes with
  | zero => exact (List.length_eq_zero_iff.mp (Nat.le_zero.mp hsteps)).symm
  | succ steps ih =>
      cases h with
      | nil => exact visit_nil children _
      | @node node rest below after hbelow hafter =>
          have hlength : (below ++ after).length ≤ steps := by
            simpa [Nat.add_comm 1] using hsteps
          rw [visit, ih (hbelow.append hafter) hlength, List.singleton_append]

/-- A walk that makes fewer visits than it may lists the nodes in preorder. -/
theorem preorder_visit (h : (visit children steps stack).length < steps) :
    Preorder (fun node => [node]) children stack (visit children steps stack) := by
  induction steps generalizing stack with
  | zero => cases h
  | succ steps ih =>
      cases stack with
      | nil =>
          rw [visit_nil]
          exact .nil
      | cons node rest =>
          rw [visit] at h ⊢
          obtain ⟨below, after, heq, hbelow, hafter⟩ := (ih (Nat.lt_of_succ_lt_succ h)).of_append
          rw [heq]
          exact .node hbelow hafter

theorem Preorder.flatMap (own : α → List β)
    (h : Preorder (fun node => [node]) children stack nodes) :
    Preorder own children stack (nodes.flatMap own) := by
  induction h with
  | nil => exact .nil
  | node _ _ ihbelow ihafter =>
      simp only [List.flatMap_append, List.flatMap_singleton]
      exact .node ihbelow ihafter

/-- Some trees have one listing at most. -/
theorem Preorder.unique (h : Preorder own children stack listing)
    (h' : Preorder own children stack listing') : listing = listing' := by
  induction h generalizing listing' with
  | nil =>
      cases h'
      rfl
  | node _ _ ihbelow ihafter =>
      cases h' with
      | node hbelow hafter => rw [ihbelow hbelow, ihafter hafter]

theorem Preorder.subset (h : Preorder (fun node => [node]) children stack nodes) :
    stack ⊆ nodes := by
  induction h with
  | nil => exact List.Subset.refl _
  | @node node rest below after _ _ _ ih =>
      refine List.cons_subset_cons node fun other hmem => ?_
      exact List.mem_append_right below (ih hmem)

/-- After a node comes what is below it. -/
theorem Preorder.sublist (h : Preorder (fun node => [node]) children stack nodes) :
    ∀ node ∈ nodes, ∀ child ∈ children node, [node, child].Sublist nodes := by
  induction h with
  | nil => simp
  | @node node rest below after hbelow _ ihbelow ihafter =>
      intro other hother child hchild
      simp only [List.singleton_append, List.mem_cons, List.mem_append] at hother ⊢
      obtain rfl | hother | hother := hother
      · refine List.Sublist.cons_cons other (List.singleton_sublist.mpr ?_)
        exact List.mem_append_left after (hbelow.subset hchild)
      · exact ((ihbelow other hother child hchild).trans (List.sublist_append_left ..)).cons node
      · exact ((ihafter other hother child hchild).trans (List.sublist_append_right ..)).cons node

end Preorder

/-! ## Forests -/

/-- There are no more different nodes than numbers for them. -/
theorem length_le_of_lt {index : α → Nat} (hinjective : Function.Injective index) {nodes : List α}
    (hnodup : nodes.Nodup) {bound : Nat} (hlt : ∀ node ∈ nodes, index node < bound) :
    nodes.length ≤ bound := by
  have hsubset : nodes.map index ⊆ List.range bound := by
    intro number hmem
    obtain ⟨node, hnode, rfl⟩ := List.mem_map.mp hmem
    exact List.mem_range.mpr (hlt node hnode)
  simpa using ((hnodup.map hinjective).subperm hsubset).length_le

/-- Whether every node below a known one is known, and is below one node only, and there are no more
than `bound` known nodes. -/
structure Branching (children : α → List α) (known : α → Prop) (bound : Nat) : Prop where
  closed : ∀ node, known node → ∀ child ∈ children node, known child
  nodup : ∀ node, known node → (children node).Nodup
  once : ∀ node other child, known node → known other → child ∈ children node →
    child ∈ children other → node = other
  bounded : ∀ nodes : List α, nodes.Nodup → (∀ node ∈ nodes, known node) → nodes.length ≤ bound

namespace Branching

variable {known known' : α → Prop} {roots : List α} {bound : Nat}

theorem restrict (h : Branching children known bound) (hknown : ∀ node, known' node → known node)
    (hclosed : ∀ node, known' node → ∀ child ∈ children node, known' child) :
    Branching children known' bound where
  closed := hclosed
  nodup node hnode := h.nodup node (hknown node hnode)
  once node other child hnode hother :=
    h.once node other child (hknown node hnode) (hknown other hother)
  bounded nodes hnodup hnodes :=
    h.bounded nodes hnodup fun node hmem => hknown node (hnodes node hmem)

/-- Whether a walk has come this far: every node is visited once, and after the one above it. -/
structure Walked (children : α → List α) (known : α → Prop) (done stack : List α) : Prop where
  reaches : ∀ node ∈ done ++ stack, known node
  nodup : (done ++ stack).Nodup
  above : ∀ node ∈ done ++ stack, ∀ outer, known outer → node ∈ children outer → outer ∈ done

/-- A walk goes on to what is below the node that it visits. -/
theorem Walked.next {done rest : List α} {node : α} (h : Branching children known bound)
    (hwalked : Walked children known done (node :: rest)) :
    Walked children known (done ++ [node]) (children node ++ rest) := by
  have hknown : known node := hwalked.reaches _ (by simp)
  -- What has been visited or waits has something visited above it, and `node` has not been visited.
  have hnew : ∀ child ∈ children node, child ∉ done ++ node :: rest := by
    intro child hchild hmem
    have hdone := hwalked.above child hmem node hknown hchild
    exact (List.nodup_append.mp hwalked.nodup).2.2 _ hdone _ (by simp) rfl
  have hperm : (done ++ [node] ++ (children node ++ rest)).Perm
      (children node ++ (done ++ node :: rest)) := by
    rw [List.append_cons done node rest, ← List.append_assoc, ← List.append_assoc (children node)]
    exact List.perm_append_comm.append_right _
  refine ⟨fun other hmem => ?reaches, hperm.nodup_iff.mpr ?nodup,
    fun other hmem outer houter habove => ?above⟩
  case reaches =>
    obtain hchild | hold := List.mem_append.mp (hperm.mem_iff.mp hmem)
    · exact h.closed node hknown other hchild
    · exact hwalked.reaches other hold
  case nodup =>
    exact List.nodup_append.mpr ⟨h.nodup node hknown, hwalked.nodup,
      fun child hchild _ hmem heq => hnew child hchild (heq ▸ hmem)⟩
  case above =>
    rw [List.mem_append, List.mem_singleton]
    obtain hchild | hold := List.mem_append.mp (hperm.mem_iff.mp hmem)
    · exact .inr (h.once outer node other houter hknown habove hchild)
    · exact .inl (hwalked.above other hold outer houter habove)

/-- However far it goes, a walk visits each node once. -/
theorem Walked.nodup_visit {done stack : List α} (h : Branching children known bound)
    (hwalked : Walked children known done stack) (steps : Nat) :
    (done ++ visit children steps stack).Nodup := by
  induction steps generalizing done stack with
  | zero => simpa [visit] using hwalked.nodup.of_append_left
  | succ steps ih =>
      cases stack with
      | nil => simpa using hwalked.nodup
      | cons node rest => simpa [visit] using ih (hwalked.next h)

/-- Below different nodes that no node is above, each node is listed once. -/
theorem preorder (h : Branching children known bound) (hknown : ∀ root ∈ roots, known root)
    (hnodup : roots.Nodup)
    (htop : ∀ root ∈ roots, ∀ outer, known outer → root ∉ children outer) :
    ∃ nodes, Preorder (fun node => [node]) children roots nodes ∧ nodes.Nodup ∧
      nodes.length ≤ bound := by
  have hwalked : Walked children known [] roots :=
    ⟨hknown, hnodup, fun root hroot outer houter hmem => absurd hmem (htop root hroot outer houter)⟩
  have hnodes : (visit children (bound + 1) roots).Nodup := hwalked.nodup_visit h (bound + 1)
  have hlength : (visit children (bound + 1) roots).length ≤ bound :=
    h.bounded _ hnodes (forall_mem_visit hknown h.closed)
  exact ⟨_, preorder_visit (by omega), hnodes, hlength⟩

/-- Below any nodes that are not below themselves there is a forest, even if some are below others or
come twice. -/
theorem preorder_of_roots (h : Branching children known bound) (hknown : ∀ root ∈ roots, known root)
    (hapart : ∀ root ∈ roots, ∀ outer,
      Relation.ReflTransGen (fun node child => child ∈ children node) root outer →
        root ∉ children outer) :
    ∃ nodes, Preorder (fun node => [node]) children roots nodes ∧
      nodes.length ≤ roots.length * bound := by
  induction roots with
  | nil => exact ⟨[], .nil, by simp⟩
  | cons root rest ih =>
      obtain ⟨after, hafter, hafterLength⟩ := ih (fun other hmem => hknown other (.tail _ hmem))
        fun other hmem => hapart other (.tail _ hmem)
      -- Below this one root alone each node is listed once.
      have hroot : known root := hknown root List.mem_cons_self
      have hbelow : Branching children (fun node => known node ∧
          Relation.ReflTransGen (fun node child => child ∈ children node) root node) bound :=
        h.restrict (fun _ => And.left) fun node hnode child hchild =>
          ⟨h.closed node hnode.1 child hchild, hnode.2.tail hchild⟩
      obtain ⟨nodes, hnodes, -, hlength⟩ := hbelow.preorder
        (List.forall_mem_singleton.mpr ⟨hroot, .refl⟩) (List.nodup_singleton root)
        (List.forall_mem_singleton.mpr fun outer houter =>
          hapart root List.mem_cons_self outer houter.2)
      refine ⟨nodes ++ after, hnodes.append hafter, ?_⟩
      rw [List.length_append, List.length_cons, Nat.succ_mul]
      omega

/-- A walk that may visit every known node from each root lists in preorder what is below different
nodes that no node is above, and each node once. -/
theorem preorder_visit (h : Branching children known bound) (hknown : ∀ root ∈ roots, known root)
    (hnodup : roots.Nodup)
    (htop : ∀ root ∈ roots, ∀ outer, known outer → root ∉ children outer) :
    Preorder (fun node => [node]) children roots (visit children (roots.length * bound) roots) ∧
      (visit children (roots.length * bound) roots).Nodup := by
  obtain ⟨nodes, hnodes, hnodup, hlength⟩ := h.preorder hknown hnodup htop
  have hsteps : nodes.length ≤ roots.length * bound := by
    cases roots with
    | nil => cases hnodes; simp
    | cons root rest => exact Nat.le_trans hlength (Nat.le_mul_of_pos_left bound (by simp))
  rw [hnodes.visit_eq hsteps]
  exact ⟨hnodes, hnodup⟩

end Branching

end Graft.Forest
