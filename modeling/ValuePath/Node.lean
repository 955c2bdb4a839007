import ValuePath.Step
import ValuePath.Text.Quoted

/-!
# Syntax trees of paths

A parsed path is a chain of nodes. The outermost node is the last step of the path, and each node
holds the node that it is applied to. Read the other way, from the innermost node on, the chain is
a list of links.

* `Node.chain` lists a node and all nodes below it, outermost first; `Node.links` lists their links,
  innermost first.
* `Node.ofLinks?` builds a chain from its links.
* `Node.same` compares two chains link by link, and `Node.copy` builds a chain anew.
-/

namespace ValuePath

/-- A node without the node below it. -/
inductive Link where
  /-- The root marker. -/
  | root (pos : Nat)
  /-- A step and the place where it stands. -/
  | step (pos : Nat) (step : Step)
  deriving DecidableEq

/-- A node of a parsed path. -/
inductive Node where
  /-- The root marker at the beginning of the path. -/
  | root (pos : Nat)
  /-- A step with nothing before it. -/
  | first (pos : Nat) (step : Step)
  /-- A step that is applied to the node before it. -/
  | access (parent : Node) (pos : Nat) (step : Step)
  deriving DecidableEq

namespace Node

/-- The number of the first character of the node, counted from one. -/
def pos : Node → Nat
  | root pos => pos
  | first pos _ => pos
  | access _ pos _ => pos

/-- The node that this one is applied to. -/
def parent? : Node → Option Node
  | access parent _ _ => some parent
  | _ => none

/-- The node alone. -/
def link : Node → Link
  | root pos => .root pos
  | first pos step => .step pos step
  | access _ pos step => .step pos step

/-- The node and all nodes below it, outermost first. -/
def chain : Node → List Node
  | access parent pos step => access parent pos step :: parent.chain
  | node => [node]

/-- The links of the chain, innermost first. -/
def links (node : Node) : List Link :=
  (node.chain.map link).reverse

@[simp]
theorem links_root (pos : Nat) : (root pos).links = [.root pos] :=
  rfl

@[simp]
theorem links_first (pos : Nat) (step : Step) : (first pos step).links = [.step pos step] :=
  rfl

/-- The outermost link comes last. -/
@[simp]
theorem links_access (parent : Node) (pos : Nat) (step : Step) :
    (access parent pos step).links = parent.links ++ [.step pos step] := by
  simp [links, chain, link]

end Node

/-- The node of a link, applied to the node before it. A root marker has nothing before it, so
that what stands there is dropped. -/
def Link.under (parent? : Option Node) : Link → Node
  | root pos => .root pos
  | step pos s =>
    match parent? with
    | some parent => .access parent pos s
    | none => .first pos s

namespace Node

/-- The chain with the given links, innermost first. Without a link there is none. -/
def ofLinks? (links : List Link) : Option Node :=
  links.foldl (fun below link => some (link.under below)) none

/-- The last link is put above the chain of the links before it. -/
theorem ofLinks?_append_singleton (links : List Link) (link : Link) :
    ofLinks? (links ++ [link]) = some (link.under (ofLinks? links)) := by
  rw [ofLinks?, List.foldl_append]
  rfl

/-- The chain built anew from its links. If there were none, it would be the node alone. -/
def copy (node : Node) : Node :=
  (ofLinks? node.links).getD (node.link.under none)

/-- Whether two lists of nodes have the same length and the same link at each place. -/
def sameLinks : List Node → List Node → Bool
  | [], [] => true
  | a :: as, b :: bs => a.link = b.link && sameLinks as bs
  | _, _ => false

/-- Whether two chains have the same links. -/
def same (a b : Node) : Bool :=
  sameLinks a.chain b.chain

end Node

/-- A link with its place and its step. -/
def Link.description : Link → String
  | root pos => "Root \x7b pos: " ++ toString pos ++ " \x7d"
  | step pos (.key name) =>
    "Selector \x7b pos: " ++ toString pos ++ ", name: " ++ Text.quoted name ++ " \x7d"
  | step pos (.index position) =>
    "Index \x7b pos: " ++ toString pos ++ ", index: " ++ toString position.toNat ++ " \x7d"

/-- The links of a chain, innermost first, between brackets. -/
def Node.description (node : Node) : String :=
  "[" ++ ", ".intercalate (node.links.map Link.description) ++ "]"

end ValuePath
