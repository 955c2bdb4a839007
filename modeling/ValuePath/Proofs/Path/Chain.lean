import ValuePath.Query

/-!
# Chains of nodes

A node is copied, compared and read into a query in a walk along its chain, link by link. What these
walks give is what the structure of the node says. Nothing of a node is lost in its links, whatever
their number and order, and only the innermost link can be a root marker.

* `Node.ofLinks?_links`: the chain that is built from the links of a node is this node.
* `Node.copy_eq`: a copy is the node itself.
* `Node.same_iff`: two nodes compare as equal exactly if they are the same.
* `Query.extend_eq`: a query is extended by the steps of a node and by the marker at its inner end.
* `Node.walks_agree_with_structure` says all of this at once.
-/

namespace ValuePath

theorem Link.isRoot_iff {link : Link} : link.isRoot = true ↔ ∃ pos, link = .root pos := by
  cases link <;> simp [isRoot]

namespace Node

/-! ## Structure -/

/-- The steps of a node, innermost first: those of the node below it, and then its own. -/
def steps : Node → List Step
  | root _ => []
  | first _ step => [step]
  | access parent _ step => parent.steps ++ [step]

/-- The link below which there is none. -/
def innermost : Node → Link
  | root pos => .root pos
  | first pos step => .step pos step
  | access parent _ _ => parent.innermost

/-! ## Copies -/

/-- The chain that is built from the links of a node is this node. -/
theorem ofLinks?_links (node : Node) : ofLinks? node.links = some node := by
  induction node with
  | root pos => rfl
  | first pos step => rfl
  | access parent pos step ih =>
    -- the outermost link comes last, and it is a step, so that the chain below it is kept
    rw [links_access, ofLinks?_append_singleton, ih]
    rfl

/-- A copy is the node itself, all the way down. -/
theorem copy_eq (node : Node) : node.copy = node := by
  rw [copy, ofLinks?_links, Option.getD_some]

/-! ## Comparisons -/

/-- The links of a node determine it. -/
theorem eq_of_links_eq {a b : Node} (h : a.links = b.links) : a = b := by
  have hsome : some a = some b := by rw [← ofLinks?_links a, h, ofLinks?_links b]
  exact Option.some.inj hsome

/-- Two lists of nodes compare as equal exactly if they have the same links one by one, so that
neither ends before the other. -/
theorem sameLinks_iff {as bs : List Node} :
    sameLinks as bs = true ↔ as.map link = bs.map link := by
  induction as generalizing bs with
  | nil => cases bs <;> simp [sameLinks]
  | cons a as ih => cases bs <;> simp [sameLinks, ih]

/-- Two nodes compare as equal exactly if they are the same, all the way down. -/
theorem same_iff {a b : Node} : a.same b = true ↔ a = b := by
  rw [same, sameLinks_iff]
  constructor
  · intro h
    exact eq_of_links_eq (congrArg List.reverse h)
  · rintro rfl
    rfl

/-- A chain differs from the one that goes on below it. -/
example : (first 2 (.index 0)).same (access (first 1 (.key "a")) 2 (.index 0)) = false := by
  decide

end Node

/-! ## Queries -/

namespace Query

/-- A root marker sets that of the query, and is no step. -/
theorem extend_root (q : Query) (pos : Nat) : q.extend (.root pos) = q.withRoot := by
  simp [extend, withRoot, Link.step?, Link.isRoot]

/-- A step with nothing before it is put behind the steps of the query. -/
theorem extend_first (q : Query) (pos : Nat) (step : Step) :
    q.extend (.first pos step) = q.append step := by
  simp [extend, append, appendAll, Link.step?, Link.isRoot]

/-- A step is put behind what the node before it makes of the query. -/
theorem extend_access (q : Query) (parent : Node) (pos : Nat) (step : Step) :
    q.extend (.access parent pos step) = (q.extend parent).append step := by
  simp [extend, append, appendAll, Link.step?, Link.isRoot]

/-- A query is extended by the steps of a node, and by a root marker if the innermost link is
one. -/
theorem extend_eq (q : Query) (node : Node) :
    q.extend node =
      { q with steps := q.steps ++ node.steps, root := q.root || node.innermost.isRoot } := by
  induction node with
  | root pos =>
    rw [extend_root, Node.steps, List.append_nil, Node.innermost, Link.isRoot, Bool.or_true]
    rfl
  | first pos step =>
    rw [extend_first, Node.innermost, Link.isRoot, Bool.or_false]
    rfl
  | access parent pos step ih =>
    -- the innermost link is that of the node below
    rw [extend_access, ih, append, appendAll, List.append_assoc]
    rfl

/-- The steps of a node come in the order in which the path has them. -/
example :
    let q := (new {}).extend (.access (.access (.root 1) 2 (.key "a")) 4 (.index 7))
    q.root = true ∧ q.steps = [.key "a", .index 7] := by
  decide

end Query

/-- The walks along a chain agree with the structure of its nodes. A copy is the node itself, with
the same links all the way down. Two nodes compare as equal exactly if they are the same. A query
that is extended by a node has its own steps and then those of the node, from the innermost to the
outermost. It has the root marker exactly if it had it before or the innermost link is one. -/
theorem Node.walks_agree_with_structure (q : Query) (a b : Node) :
    a.copy = a ∧ (a.same b = true ↔ a = b) ∧
      (q.extend a).steps = q.steps ++ a.steps ∧
      ((q.extend a).root = true ↔ q.root = true ∨ ∃ pos, a.innermost = .root pos) ∧
      (q.extend a).options = q.options := by
  rw [Query.extend_eq]
  refine ⟨a.copy_eq, same_iff, rfl, ?_, rfl⟩
  rw [Bool.or_eq_true, Link.isRoot_iff]

end ValuePath
