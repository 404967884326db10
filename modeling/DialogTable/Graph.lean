import DialogTable.Node
import DialogTable.RichContent
import DialogTable.Text.Line
import Std.Data.HashMap
import Std.Data.HashSet

/-!
# The dialog graph

A node declares references to other nodes: its next nodes, then its routes, then the choices of its
rich content. The references to nodes that exist are the edges of the graph. The order of edges is
the order of declaration, so that the edges from a node run through its branches from left to right.

The nodes may be those of a whole table or of one flow.
-/

namespace DialogTable

/-- The column that a reference was declared in. -/
inductive Origin
  | nextNode
  | route
  | choice
  deriving DecidableEq, Repr

/-- The name of an origin in reports. -/
def Origin.text : Origin → String
  | nextNode => "next-node"
  | route => "what-next"
  | choice => "rich-content"

/-- A declared branch, whether its target exists or not. -/
structure Reference where
  target : Int
  origin : Origin
  /-- The label of the route or of the choice. -/
  label : Option String
  deriving DecidableEq, Repr

namespace Node

/-- The references of a node, in the order of declaration. -/
def references (node : Node) : List Reference :=
  node.nextNodes.map (fun target => { target, origin := .nextNode, label := none })
    ++ node.routes.map (fun route =>
      { target := route.target, origin := .route, label := some route.label })
    ++ (match RichContent.parse node.richContentType node.richContent with
      | none => []
      | some content => content.destinations.map fun (label, target) =>
        { target, origin := .choice, label := some label })

end Node

/-- A reference to a node that exists, with the node that declares it. -/
structure Edge where
  source : Int
  target : Int
  origin : Origin
  label : Option String
  deriving DecidableEq, Repr

namespace Edge

/-- Longer labels are shortened where an edge is shown. -/
def labelWidth : Nat := 24

/-- Shortens a label to the width, three dots included. -/
def shorten (label : String) : String :=
  if label.length ≤ labelWidth then label
  else .ofList (label.toList.take (labelWidth - 3)) ++ "..."

/-- The label to show. -/
def displayLabel (edge : Edge) : Option String :=
  edge.label.map shorten

/-- The text of an edge. -/
def text (edge : Edge) : String :=
  let label := match edge.displayLabel with
    | none => ""
    | some label => ": " ++ label
  s!"{edge.source} -> {edge.target} [{edge.origin.text}{label}]"

end Edge

/-- Nodes, the edges between them, and the positions of both by number. -/
structure Graph where
  nodes : List Node
  /-- The position of the first node of each number. -/
  index : Std.HashMap Int Nat
  edges : List Edge
  /-- The positions of the edges by source, in edge order. -/
  outgoing : Std.HashMap Int (List Nat)
  /-- The positions of the edges by target, in edge order. -/
  incoming : Std.HashMap Int (List Nat)

namespace Graph

/-- The numbers of nodes. -/
def numbers (nodes : List Node) : List Int :=
  nodes.map (·.number)

/-- The position of the first node of each number. -/
def indexNodes (nodes : List Node) : Std.HashMap Int Nat :=
  nodes.zipIdx.foldl (fun index (node, position) => index.insertIfNew node.number position) ∅

/-- The positions of edges by an end, in edge order. -/
def indexEdges (numberOf : Edge → Int) (edges : List Edge) : Std.HashMap Int (List Nat) :=
  edges.zipIdx.foldl
    (fun index (edge, position) =>
      index.alter (numberOf edge) fun positions => some (positions.getD [] ++ [position]))
    ∅

/-- The edge of a reference. -/
def edgeOf (source : Int) (reference : Reference) : Edge :=
  { source, target := reference.target, origin := reference.origin, label := reference.label }

/-- The edges of nodes: the references, node by node, whose target satisfies a condition. -/
def edgesOf (known : Int → Bool) (nodes : List Node) : List Edge :=
  nodes.flatMap fun node =>
    (node.references.filter fun reference => known reference.target).map (edgeOf node.number)

/-- The graph of nodes. References to other numbers are left out. -/
def ofNodes (nodes : List Node) : Graph :=
  let known : Std.HashSet Int := .ofList (numbers nodes)
  let edges := edgesOf known.contains nodes
  { nodes, edges
    index := indexNodes nodes
    outgoing := indexEdges Edge.source edges
    incoming := indexEdges Edge.target edges }

/-- The first node with a number. -/
def find? (graph : Graph) (number : Int) : Option Node :=
  graph.index[number]?.bind (graph.nodes[·]?)

/-- Whether a node has the number. -/
def contains (graph : Graph) (number : Int) : Bool :=
  graph.index.contains number

/-- The edges at the positions that are held for a number. -/
def adjacent (graph : Graph) (positions : Std.HashMap Int (List Nat)) (number : Int) : List Edge :=
  (positions.getD number []).filterMap (graph.edges[·]?)

/-- The edges that leave a number. -/
def edgesFrom (graph : Graph) (number : Int) : List Edge :=
  graph.adjacent graph.outgoing number

/-- The edges that reach a number. -/
def edgesTo (graph : Graph) (number : Int) : List Edge :=
  graph.adjacent graph.incoming number

/-- The targets of the edges that leave a number, each once. -/
def successors (graph : Graph) (number : Int) : List Int :=
  ((graph.edgesFrom number).map (·.target)).eraseDups

/-- The sources of the edges that reach a number, each once. -/
def predecessors (graph : Graph) (number : Int) : List Int :=
  ((graph.edgesTo number).map (·.source)).eraseDups

/-- The number of edges that leave a number. -/
def outDegree (graph : Graph) (number : Int) : Nat :=
  (graph.outgoing.getD number []).length

/-- The number of edges that reach a number. -/
def inDegree (graph : Graph) (number : Int) : Nat :=
  (graph.incoming.getD number []).length

/-- One line a node, followed by its outgoing edges. -/
def listing (graph : Graph) : String :=
  Text.closeLines (graph.nodes.flatMap fun node =>
    s!"{node.number} {node.kind.letter} {node.name}"
      :: (graph.edgesFrom node.number).map fun edge => "    " ++ edge.text)

end Graph

end DialogTable
