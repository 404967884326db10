import DialogTable.Graph
import DialogTable.Proofs.Distinct
import Std.Data.HashMap.Lemmas
import Std.Data.HashSet.Lemmas

/-!
# The indices of the dialog graph

The indices hold positions, collected in one pass over the nodes and one over the edges: for a
number the position of the first node that has it (`getElem?_indexNodes`), and the positions of the
edges with that end, in edge order (`getD_indexEdges`). So every query answers what the nodes
and the edge list say (`queries_ofNodes`). The graph of a part of the nodes has the edges that both
start and end in this part, if it is chosen by number (`edges_ofNodes_filter`).
-/

namespace DialogTable.Graph

theorem numbers_map {g : Node → Node} (h : ∀ node, (g node).number = node.number)
    (nodes : List Node) : numbers (nodes.map g) = numbers nodes := by
  rw [numbers, List.map_map, numbers]
  exact List.map_congr_left fun node _ => h node

/-! ### The indices -/

/-- Of the nodes with a number the position of the first one is held. -/
theorem getElem?_indexNodes (nodes : List Node) (number : Int) :
    (indexNodes nodes)[number]? = nodes.findIdx? (·.number = number) := by
  induction nodes using List.reverseRecOn with
  | nil => simp [indexNodes]
  | append_singleton earlier node ih =>
    have hlast : indexNodes (earlier ++ [node]) =
        (indexNodes earlier).insertIfNew node.number earlier.length := by
      simp [indexNodes, List.zipIdx_append]
    rw [hlast, Std.HashMap.getElem?_insertIfNew, List.findIdx?_append]
    simp only [Std.HashMap.mem_iff_isSome_getElem?, ih]
    by_cases h : node.number = number
    · subst h
      cases hfound : earlier.findIdx? (·.number = node.number) with
      | none => simp [ih, hfound]
      | some position => simp [ih, hfound]
    · simp [h]

theorem contains_indexNodes (nodes : List Node) (number : Int) :
    (indexNodes nodes).contains number = decide (number ∈ numbers nodes) := by
  rw [Std.HashMap.contains_eq_isSome_getElem?, getElem?_indexNodes, List.findIdx?_isSome,
    Bool.eq_iff_iff]
  simp [numbers]

theorem contains_ofNodes (nodes : List Node) (number : Int) :
    (ofNodes nodes).contains number = decide (number ∈ numbers nodes) :=
  contains_indexNodes nodes number

theorem contains_ofNodes_iff {nodes : List Node} {number : Int} :
    (ofNodes nodes).contains number = true ↔ ∃ node ∈ nodes, node.number = number := by
  rw [contains_ofNodes, decide_eq_true_eq, numbers, List.mem_map]

/-- Of the nodes with a number the first one is found. -/
theorem find?_ofNodes (nodes : List Node) (number : Int) :
    (ofNodes nodes).find? number = nodes.find? (·.number = number) := by
  rw [List.find?_eq_bind_findIdx?_getElem?, ← getElem?_indexNodes]
  rfl

/-- The positions of the edges with an end. -/
def positionsOf (numberOf : Edge → Int) (edges : List Edge) (number : Int) : List Nat :=
  (edges.zipIdx.filter fun (edge, _) => numberOf edge = number).map Prod.snd

/-- The pass over the edges collects their positions. -/
theorem getD_indexEdges (numberOf : Edge → Int) (edges : List Edge) (number : Int) :
    (indexEdges numberOf edges).getD number [] = positionsOf numberOf edges number := by
  induction edges using List.reverseRecOn with
  | nil => simp [indexEdges, positionsOf]
  | append_singleton earlier edge ih =>
    have hlast : indexEdges numberOf (earlier ++ [edge]) =
        (indexEdges numberOf earlier).alter (numberOf edge) fun positions =>
          some (positions.getD [] ++ [earlier.length]) := by
      simp [indexEdges, List.zipIdx_append]
    have hpositions : positionsOf numberOf (earlier ++ [edge]) number =
        positionsOf numberOf earlier number ++
          if numberOf edge = number then [earlier.length] else [] := by
      by_cases h : numberOf edge = number
      · simp [positionsOf, List.zipIdx_append, h]
      · simp [positionsOf, List.zipIdx_append, h]
    rw [hlast, Std.HashMap.getD_alter, hpositions, ← ih]
    by_cases h : numberOf edge = number
    · subst h
      simp [Std.HashMap.getD_eq_getD_getElem?]
    · simp [h]

/-- The edges at the positions of an end. -/
theorem filterMap_positionsOf (numberOf : Edge → Int) (edges : List Edge) (number : Int) :
    (positionsOf numberOf edges number).filterMap (edges[·]?) =
      edges.filter (numberOf · = number) := by
  have hedge : ∀ entry ∈ edges.zipIdx.filter (fun (edge, _) => numberOf edge = number),
      edges[entry.2]? = some entry.1 := fun entry hentry =>
    List.mem_zipIdx_iff_getElem?.1 (List.mem_filter.1 hentry).1
  rw [positionsOf, List.filterMap_map]
  calc (edges.zipIdx.filter fun (edge, _) => numberOf edge = number).filterMap
        ((edges[·]?) ∘ Prod.snd)
      = (edges.zipIdx.filter fun (edge, _) => numberOf edge = number).filterMap
          (some ∘ Prod.fst) := List.filterMap_congr hedge
    _ = (edges.zipIdx.map Prod.fst).filter (numberOf · = number) := by
      rw [List.filterMap_eq_map, List.filter_map]
      rfl
    _ = edges.filter (numberOf · = number) := by rw [List.zipIdx_map_fst]

/-- The edges that the index of an end leads to. -/
theorem adjacent_indexEdges (graph : Graph) (numberOf : Edge → Int) (number : Int) :
    graph.adjacent (indexEdges numberOf graph.edges) number =
      graph.edges.filter (numberOf · = number) := by
  rw [adjacent, getD_indexEdges, filterMap_positionsOf]

theorem length_getD_indexEdges (numberOf : Edge → Int) (edges : List Edge) (number : Int) :
    ((indexEdges numberOf edges).getD number []).length =
      (edges.filter (numberOf · = number)).length := by
  conv_rhs => rw [← List.zipIdx_map_fst 0 edges, List.filter_map, List.length_map]
  rw [getD_indexEdges, positionsOf, List.length_map]
  rfl

theorem edgesFrom_ofNodes (nodes : List Node) (number : Int) :
    (ofNodes nodes).edgesFrom number = (ofNodes nodes).edges.filter (·.source = number) :=
  adjacent_indexEdges (ofNodes nodes) Edge.source number

theorem edgesTo_ofNodes (nodes : List Node) (number : Int) :
    (ofNodes nodes).edgesTo number = (ofNodes nodes).edges.filter (·.target = number) :=
  adjacent_indexEdges (ofNodes nodes) Edge.target number

theorem outDegree_ofNodes (nodes : List Node) (number : Int) :
    (ofNodes nodes).outDegree number =
      ((ofNodes nodes).edges.filter (·.source = number)).length :=
  length_getD_indexEdges Edge.source (ofNodes nodes).edges number

theorem inDegree_ofNodes (nodes : List Node) (number : Int) :
    (ofNodes nodes).inDegree number =
      ((ofNodes nodes).edges.filter (·.target = number)).length :=
  length_getD_indexEdges Edge.target (ofNodes nodes).edges number

/-! ### The queries -/

/-- A number has no outgoing edges if no edge of the list leaves it. -/
theorem outDegree_eq_zero_iff_forall {nodes : List Node} {number : Int} :
    (ofNodes nodes).outDegree number = 0 ↔
      ∀ edge ∈ (ofNodes nodes).edges, edge.source ≠ number := by
  rw [outDegree_ofNodes, List.length_eq_zero_iff, List.filter_eq_nil_iff]
  simp only [decide_eq_true_eq, ne_eq]

theorem mem_edgesTo {nodes : List Node} {number : Int} {edge : Edge} :
    edge ∈ (ofNodes nodes).edgesTo number ↔
      edge ∈ (ofNodes nodes).edges ∧ edge.target = number := by
  rw [edgesTo_ofNodes, List.mem_filter, decide_eq_true_eq]

/-- The references of all nodes in the order of declaration, each as the edge that it is if its
target exists. -/
def declared (nodes : List Node) : List Edge :=
  nodes.flatMap fun node => node.references.map (edgeOf node.number)

/-- The edges are the references to known numbers, in the order of declaration. -/
theorem edges_ofNodes (nodes : List Node) :
    (ofNodes nodes).edges = (declared nodes).filter (·.target ∈ numbers nodes) := by
  have hknown : (Std.HashSet.ofList (numbers nodes)).contains =
      fun number => decide (number ∈ numbers nodes) := by
    funext number
    rw [Std.HashSet.contains_ofList, List.contains_eq_mem]
  rw [ofNodes, declared, List.filter_flatMap]
  dsimp only
  rw [edgesOf, hknown]
  congr 1
  funext node
  rw [List.filter_map]
  rfl

theorem mem_edges {nodes : List Node} {edge : Edge} :
    edge ∈ (ofNodes nodes).edges ↔ ∃ node ∈ nodes, ∃ reference ∈ node.references,
      reference.target ∈ numbers nodes ∧ edge = edgeOf node.number reference := by
  rw [edges_ofNodes, List.mem_filter, decide_eq_true_eq, declared, List.mem_flatMap]
  constructor
  · rintro ⟨⟨node, hnode, hmem⟩, hknown⟩
    obtain ⟨reference, href, rfl⟩ := List.mem_map.1 hmem
    exact ⟨node, hnode, reference, href, hknown, rfl⟩
  · rintro ⟨node, hnode, reference, href, hknown, rfl⟩
    exact ⟨⟨node, hnode, List.mem_map_of_mem href⟩, hknown⟩

theorem contains_of_mem_edges {nodes : List Node} {edge : Edge}
    (h : edge ∈ (ofNodes nodes).edges) :
    (ofNodes nodes).contains edge.source = true ∧ (ofNodes nodes).contains edge.target = true := by
  obtain ⟨node, hnode, reference, -, hknown, rfl⟩ := mem_edges.1 h
  refine ⟨contains_ofNodes_iff.2 ⟨node, hnode, rfl⟩, ?_⟩
  rw [contains_ofNodes]
  exact decide_eq_true hknown

/-- **The queries answer what the edge list says.** Whether a number is in the graph or not, the
edges from and to it are those of the list with this end, in the order of the list; the degrees
count them, and the neighbours are their other ends, each once, in the order in which they first
occur. A number is contained if a node has it, and the first such node is found. Both ends of an
edge are contained. -/
theorem queries_ofNodes (nodes : List Node) (number : Int) :
    let graph := ofNodes nodes
    let outgoing := graph.edges.filter (·.source = number)
    let incoming := graph.edges.filter (·.target = number)
    graph.edgesFrom number = outgoing ∧ graph.edgesTo number = incoming ∧
      graph.outDegree number = outgoing.length ∧ graph.inDegree number = incoming.length ∧
      EachOnce (graph.successors number) (outgoing.map (·.target)) ∧
      EachOnce (graph.predecessors number) (incoming.map (·.source)) ∧
      (graph.contains number = true ↔ ∃ node ∈ nodes, node.number = number) ∧
      graph.find? number = nodes.find? (·.number = number) ∧
      ∀ edge ∈ graph.edges,
        graph.contains edge.source = true ∧ graph.contains edge.target = true := by
  intro graph outgoing incoming
  have hfrom : graph.edgesFrom number = outgoing := edgesFrom_ofNodes nodes number
  have hto : graph.edgesTo number = incoming := edgesTo_ofNodes nodes number
  refine ⟨hfrom, hto, outDegree_ofNodes nodes number, inDegree_ofNodes nodes number, ?_, ?_,
    contains_ofNodes_iff, find?_ofNodes nodes number, fun _ => contains_of_mem_edges⟩
  · rw [successors, hfrom]
    exact eachOnce_eraseDups _
  · rw [predecessors, hto]
    exact eachOnce_eraseDups _

/-! ### The nodes with some numbers -/

theorem numbers_filter (keep : Int → Bool) (nodes : List Node) :
    numbers (nodes.filter (keep ·.number)) = (numbers nodes).filter keep :=
  List.filter_map.symm

theorem declared_cons (node : Node) (rest : List Node) :
    declared (node :: rest) = node.references.map (edgeOf node.number) ++ declared rest :=
  List.flatMap_cons

theorem declared_filter (keep : Int → Bool) (nodes : List Node) :
    declared (nodes.filter (keep ·.number)) = (declared nodes).filter (keep ·.source) := by
  have hnode (node : Node) : (node.references.map (edgeOf node.number)).filter (keep ·.source) =
      if keep node.number then node.references.map (edgeOf node.number) else [] := by
    rw [List.filter_map]
    show (node.references.filter fun _ => keep node.number).map (edgeOf node.number) = _
    cases keep node.number with
    | true => exact congrArg _ (List.filter_eq_self.2 fun _ _ => rfl)
    | false => exact congrArg _ (List.filter_eq_nil_iff.2 fun _ _ => Bool.false_ne_true)
  induction nodes with
  | nil => rfl
  | cons node rest ih =>
    rw [declared_cons, List.filter_append, hnode, ← ih, List.filter_cons]
    split
    · rfl
    · rfl

/-- The graph of the nodes with some numbers has the edges between these numbers. -/
theorem edges_ofNodes_filter (keep : Int → Bool) (nodes : List Node) :
    (ofNodes (nodes.filter (keep ·.number))).edges =
      (ofNodes nodes).edges.filter fun edge => keep edge.source && keep edge.target := by
  rw [edges_ofNodes, edges_ofNodes, declared_filter, List.filter_filter, List.filter_filter]
  refine List.filter_congr fun edge _ => ?_
  rw [numbers_filter, Bool.eq_iff_iff]
  simp only [List.mem_filter, Bool.and_eq_true, decide_eq_true_eq]
  constructor
  · rintro ⟨⟨hknown, htarget⟩, hsource⟩
    exact ⟨⟨hsource, htarget⟩, hknown⟩
  · rintro ⟨⟨hsource, htarget⟩, hknown⟩
    exact ⟨⟨hknown, htarget⟩, hsource⟩

end DialogTable.Graph
