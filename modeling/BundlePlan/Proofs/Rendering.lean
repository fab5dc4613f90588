import BundlePlan.Proofs.Edges
import BundlePlan.Proofs.Pieces

/-! Rendered graphs can be read back. Neither numbers nor identifiers hold a blank or a newline, so
the text falls into its lines and each line into its words; the words give the numbers and the
labels, and these the graph. What resolution renders are its modules and their dependencies. -/
namespace BundlePlan

theorem EdgeKind.name_injective : Function.Injective EdgeKind.name := by
  intro kind other same
  cases kind <;> cases other <;> first | rfl | exact absurd same (by decide)

/-- What a line of a rendered graph says; the text ends with an empty line. -/
inductive DotLine
  | opening
  | vertex (number : Nat) (id : ModuleId)
  | edge (joins : Edge)
  | closing
  | blank
deriving DecidableEq

namespace DotLine

def words : DotLine → List String
  | opening => ["digraph", "\x7b"]
  | vertex number id =>
    ["", "", "", "", toString number, "[", "label", "=", "\"" ++ id.text ++ "\"", "]"]
  | edge joins =>
    ["", "", "", "", toString joins.source, "->", toString joins.target, "[", "label", "=",
      "\"" ++ joins.kind.name ++ "\"", "]"]
  | closing => ["\x7d"]
  | blank => [""]

def text (line : DotLine) : String := " ".intercalate line.words

theorem toString_inj {n m : Nat} : toString n = toString m ↔ n = m := by
  refine ⟨fun same => ?_, congrArg toString⟩
  rw [← Nat.ofDigitChars_ten_toDigits (n := n), ← Nat.ofDigitChars_ten_toDigits (n := m),
    ← Nat.toList_repr, ← Nat.toList_repr]
  exact congrArg (fun digits : String => Nat.ofDigitChars 10 digits.toList 0) same

theorem words_injective : Function.Injective words := by
  intro line other same
  cases line <;> cases other
  case vertex.vertex number id second other =>
    simp only [words, List.cons.injEq, true_and, and_true, String.append_left_inj,
      String.append_right_inj, toString_inj, ModuleId.text_inj] at same
    rw [same.1, same.2]
  case edge.edge joins other =>
    obtain ⟨source, target, kind⟩ := joins
    obtain ⟨origin, goal, label⟩ := other
    simp only [words, List.cons.injEq, true_and, and_true, String.append_left_inj,
      String.append_right_inj, toString_inj, EdgeKind.name_injective.eq_iff] at same
    rw [same.1, same.2.1, same.2.2]
  -- Two lines of different kinds differ in their words.
  all_goals first | rfl | simp [words] at same

/-- A text that ends neither a word nor a line. -/
def isPlain (text : String) : Bool := text.toList.all fun c => c ≠ ' ' ∧ c ≠ '\n'

theorem isPlain_iff {text : String} :
    isPlain text = true ↔ ∀ c ∈ text.toList, c ≠ ' ' ∧ c ≠ '\n' := by
  simp [isPlain]

@[simp] theorem isPlain_toString (n : Nat) : isPlain (toString n) = true := by
  refine isPlain_iff.2 fun c member => ?_
  rw [Nat.toString_eq_repr, Nat.toList_repr] at member
  have digit := Nat.isDigit_of_mem_toDigits (by decide) (by decide) member
  constructor <;> rintro rfl <;> exact absurd digit (by decide)

@[simp] theorem isPlain_append {first second : String} :
    isPlain (first ++ second) = (isPlain first && isPlain second) := by
  simp [isPlain]

@[simp] theorem isPlain_id (id : ModuleId) : isPlain ("\"" ++ id.text ++ "\"") = true := by
  have own : isPlain id.text = true := by
    refine isPlain_iff.2 fun c member => ?_
    rcases char_of_readsAsId id.wellFormed c member with segment | rfl
    · constructor <;> rintro rfl <;> exact absurd segment (by decide)
    · decide
  rw [isPlain_append, isPlain_append, own]
  rfl

@[simp] theorem isPlain_kind (kind : EdgeKind) : isPlain ("\"" ++ kind.name ++ "\"") = true := by
  cases kind <;> rfl

private theorem isPlain_words (line : DotLine) : ∀ word ∈ line.words, isPlain word = true := by
  rw [← List.all_eq_true]
  cases line with
  | vertex number id =>
    simp only [words, List.all_cons, isPlain_toString, isPlain_id]
    rfl
  | edge joins =>
    simp only [words, List.all_cons, isPlain_toString, isPlain_kind]
    rfl
  | _ => rfl

private theorem words_ne_nil (line : DotLine) : line.words ≠ [] := by cases line <;> simp [words]

@[simp] theorem piecesBy_text (line : DotLine) : piecesBy ' ' line.text = line.words :=
  piecesBy_intercalate line.words_ne_nil fun word listed blank =>
    (isPlain_iff.1 (line.isPlain_words word listed) ' ' blank).1 rfl

theorem text_injective : Function.Injective text := by
  intro line other same
  apply words_injective
  rw [← piecesBy_text, ← piecesBy_text, same]

private theorem newline_not_mem (line : DotLine) : '\n' ∉ line.text.toList := by
  rw [text, String.toList_intercalate]
  refine not_mem_intercalate (by decide) (List.forall_mem_map.2 fun word listed member => ?_)
  exact (isPlain_iff.1 (line.isPlain_words word listed) '\n' member).2 rfl

private theorem text_vertex (number : Nat) (id : ModuleId) : (vertex number id).text =
    "    " ++ toString number ++ " [ label = \"" ++ id.text ++ "\" ]" := by
  apply String.toList_injective
  simp [text, words]

private theorem text_edge (joins : Edge) : (edge joins).text =
    "    " ++ toString joins.source ++ " -> " ++ toString joins.target ++
      " [ label = \"" ++ joins.kind.name ++ "\" ]" := by
  apply String.toList_injective
  simp [text, words]

/-- What the line says about the vertices. -/
def vertex? : DotLine → Option ModuleId
  | vertex _ id => some id
  | _ => none

def edge? : DotLine → Option Edge
  | edge joins => some joins
  | _ => none

end DotLine

namespace Graph

def dotLines (graph : Graph) : List DotLine :=
  .opening :: (graph.vertices.mapIdx .vertex ++ graph.edges.map .edge ++ [.closing, .blank])

private theorem intercalate_append (lines : List String) {last : List String} (some : last ≠ []) :
    "\n".intercalate (lines ++ last) =
      String.join (lines.map (· ++ "\n")) ++ "\n".intercalate last := by
  induction lines with
  | nil => simp
  | cons line rest ih =>
    have more : rest ++ last ≠ [] := List.append_ne_nil_of_right_ne_nil rest some
    rw [List.cons_append, String.intercalate_cons_of_ne_nil more, ih, List.map_cons,
      String.join_cons, String.append_assoc, String.append_assoc, String.append_assoc]

private theorem dot_eq (graph : Graph) :
    graph.dot = "\n".intercalate (graph.dotLines.map DotLine.text) := by
  have split : graph.dotLines.map DotLine.text = (DotLine.opening ::
      (graph.vertices.mapIdx .vertex ++ graph.edges.map .edge)).map DotLine.text ++
        [DotLine.closing.text, DotLine.blank.text] := by
    simp [dotLines]
  rw [split, intercalate_append _ (by simp), List.map_map]
  simp only [List.map_cons, List.map_append, String.join_cons, String.join_append, List.map_map,
    List.mapIdx_eq_zipIdx_map, Function.comp_def, DotLine.text_vertex, DotLine.text_edge]
  rw [dot]
  simp only [List.mapIdx_eq_zipIdx_map, String.append_assoc]
  rfl

private theorem piecesBy_dot (graph : Graph) :
    piecesBy '\n' graph.dot = graph.dotLines.map DotLine.text := by
  rw [dot_eq]
  refine piecesBy_intercalate (by simp [dotLines]) ?_
  exact List.forall_mem_map.2 fun line _ => line.newline_not_mem

private theorem vertices_of_dotLines (graph : Graph) :
    graph.dotLines.filterMap DotLine.vertex? = graph.vertices := by
  have none : (graph.edges.map DotLine.edge).filterMap DotLine.vertex? = [] := by
    simp [DotLine.vertex?]
  have each : (graph.vertices.mapIdx DotLine.vertex).filterMap DotLine.vertex? =
      graph.vertices := by
    simp [List.mapIdx_eq_zipIdx_map, List.filterMap_map, Function.comp_def, DotLine.vertex?]
  simp only [dotLines, List.filterMap_cons, List.filterMap_append, each, none]
  simp [DotLine.vertex?]

private theorem edges_of_dotLines (graph : Graph) :
    graph.dotLines.filterMap DotLine.edge? = graph.edges := by
  have none : (graph.vertices.mapIdx DotLine.vertex).filterMap DotLine.edge? = [] := by
    refine List.filterMap_eq_nil_iff.2 fun line member => ?_
    obtain ⟨n, _, rfl⟩ := List.mem_mapIdx.1 member
    rfl
  have each : (graph.edges.map DotLine.edge).filterMap DotLine.edge? = graph.edges := by
    simp [List.filterMap_map, Function.comp_def, DotLine.edge?]
  simp only [dotLines, List.filterMap_cons, List.filterMap_append, each, none]
  simp [DotLine.edge?]

/-- No two graphs are rendered alike. -/
theorem dot_injective : Function.Injective dot := by
  intro graph other same
  have lines : graph.dotLines = other.dotLines := by
    apply List.map_injective_iff.2 DotLine.text_injective
    rw [← piecesBy_dot, ← piecesBy_dot, same]
  have vertices : graph.vertices = other.vertices := by
    rw [← vertices_of_dotLines, ← vertices_of_dotLines, lines]
  have edges : graph.edges = other.edges := by
    rw [← edges_of_dotLines, ← edges_of_dotLines, lines]
  exact eq_of_vertices vertices edges

variable {graph : Graph} {arcs : List Arc} {number : Nat} {id : ModuleId}

private theorem mem_lines {line : DotLine} :
    line.text ∈ piecesBy '\n' graph.dot ↔ line ∈ graph.dotLines := by
  rw [piecesBy_dot]
  exact List.mem_map_of_injective DotLine.text_injective

private theorem Records.vertex_mem (records : graph.Records arcs) :
    .vertex number id ∈ graph.dotLines ↔
      id ∈ graph.vertices ∧ graph.vertices.idxOf id = number := by
  have listed : .vertex number id ∈ graph.dotLines ↔
      .vertex number id ∈ graph.vertices.mapIdx DotLine.vertex := by
    simp [dotLines]
  rw [listed, List.mem_mapIdx]
  constructor
  · rintro ⟨n, inside, same⟩
    obtain ⟨rfl, rfl⟩ := DotLine.vertex.inj same
    exact ⟨List.getElem_mem inside, records.distinct.idxOf_getElem n inside⟩
  · rintro ⟨member, rfl⟩
    have inside := List.idxOf_lt_length_of_mem member
    exact ⟨_, inside, congrArg _ (List.getElem_idxOf inside)⟩

private theorem Records.edge_mem (records : graph.Records arcs) {joins : Edge} :
    .edge joins ∈ graph.dotLines ↔ ∃ arc ∈ arcs, arc.numbered graph.vertices = joins := by
  have listed : .edge joins ∈ graph.dotLines ↔ joins ∈ graph.edges := by
    simp [dotLines]
  rw [listed, records.edges, List.mem_map]

private theorem Records.edges_nodup (records : graph.Records arcs)
    (apart : arcs.Pairwise fun first second => ¬ first.Parallel second) : graph.edges.Nodup := by
  rw [records.edges]
  refine List.pairwise_map.2 (apart.imp_of_mem fun {first second} member _ different same => ?_)
  have source : graph.vertices.idxOf first.source = graph.vertices.idxOf second.source :=
    congrArg Edge.source same
  have target : graph.vertices.idxOf first.target = graph.vertices.idxOf second.target :=
    congrArg Edge.target same
  exact different ⟨(List.idxOf_inj (records.sources first member)).1 source,
    (List.idxOf_inj (records.targets first member)).1 target⟩

/-- No line is written twice. -/
theorem Records.dotLines_nodup (records : graph.Records arcs)
    (apart : arcs.Pairwise fun first second => ¬ first.Parallel second) :
    graph.dotLines.Nodup := by
  have edges : (graph.edges.map DotLine.edge).Nodup :=
    (records.edges_nodup apart).map fun _ _ same => DotLine.edge.inj same
  have vertices : (graph.vertices.mapIdx DotLine.vertex).Nodup := by
    rw [List.mapIdx_eq_zipIdx_map]
    refine (List.Nodup.of_map Prod.fst ?_).map fun entry other same => ?_
    · rw [List.zipIdx_map_fst]
      exact records.distinct
    · obtain ⟨number, id⟩ := DotLine.vertex.inj same
      exact Prod.ext id number
  have ends : [DotLine.closing, DotLine.blank].Nodup := by decide
  refine List.nodup_cons.2 ⟨by simp, ?_⟩
  refine (vertices.append edges ?_).append ends ?_
  · intro line first second
    obtain ⟨n, _, rfl⟩ := List.mem_mapIdx.1 first
    obtain ⟨joins, _, same⟩ := List.mem_map.1 second
    cases same
  · intro line inside last
    simp only [List.mem_cons, List.not_mem_nil, or_false] at last
    rcases last with rfl | rfl <;> simp at inside

end Graph

namespace Resolver

variable {resolver : Resolver} {platform : Platform} {initial : ModuleSet}
  {resolution : Resolution}

/-- A finished run has recorded one arc at most from one module to another. -/
theorem Accounts.exists_records
    (accounts : Accounts resolver platform initial resolution.graph.vertices [] [] resolution) :
    ∃ arcs, resolution.graph.Records arcs ∧
      arcs.Pairwise fun first second => ¬ first.Parallel second := by
  obtain ⟨arcs, records, split⟩ := accounts.recorded
  rw [List.append_nil] at split
  refine ⟨arcs, records, ?_⟩
  rw [split]
  exact arcsFrom_distinct accounts.followed_nodup

private theorem Accounts.modules_eq {second : Resolver} {secondPlatform : Platform}
    {secondInitial : ModuleSet} {other : Resolution}
    (accounts : Accounts resolver platform initial resolution.graph.vertices [] [] resolution)
    (accountsToo : Accounts second secondPlatform secondInitial other.graph.vertices [] [] other)
    (same : other.graph = resolution.graph) : other.modules = resolution.modules := by
  apply ModuleSet.ext_mem
  intro id
  rw [accounts.members, accountsToo.members, same]

/-- The text of a resolution lists each module under a number of its own and each dependency
between two numbers, once and nothing else; and no other resolution has this text. -/
theorem dot_lossless (resolver : Resolver) (platform : Platform) (initial : ModuleSet)
    (bounded : resolver.Bounded platform initial) :
    let result := (resolver.resolve platform initial bounded).value
    let lines := piecesBy '\n' result.dot
    Function.Injective DotLine.text ∧ lines.Nodup ∧
    (∀ line ∈ lines, ∃ said : DotLine, said.text = line) ∧
    (∀ id target kind, (target, kind) ∈ result.dependenciesOf id →
      id ∈ result.modules ∧ target ∈ result.modules) ∧
    (∃ number : ModuleId → Nat,
      (∀ id ∈ result.modules, ∀ other ∈ result.modules, number id = number other → id = other) ∧
      (∀ n id, (DotLine.vertex n id).text ∈ lines ↔ id ∈ result.modules ∧ number id = n) ∧
      ∀ source target kind, (DotLine.edge ⟨source, target, kind⟩).text ∈ lines ↔
        ∃ id other, (other, kind) ∈ result.dependenciesOf id ∧
          number id = source ∧ number other = target) ∧
    ∀ (second : Resolver) secondPlatform secondInitial
      (secondBounded : second.Bounded secondPlatform secondInitial),
      let resultToo := (second.resolve secondPlatform secondInitial secondBounded).value
      resultToo.dot = result.dot → resultToo.modules = result.modules ∧
        ∀ id, resultToo.dependenciesOf id = result.dependenciesOf id := by
  intro result lines
  have accounts : Accounts resolver platform initial result.graph.vertices [] [] result :=
    accounts_resolve bounded
  obtain ⟨arcs, records, apart⟩ := accounts.exists_records
  have reported (id target : ModuleId) (kind : EdgeKind) :
      (target, kind) ∈ result.dependenciesOf id ↔ ⟨id, target, kind⟩ ∈ arcs :=
    records.mem_dependenciesOf
  have rendered : lines = result.graph.dotLines.map DotLine.text :=
    result.graph.piecesBy_dot
  refine ⟨DotLine.text_injective, ?_, fun line member => ?_, fun id target kind listed => ?_,
    ⟨result.graph.vertices.idxOf, ?_, fun n id => ?_, fun source target kind => ?_⟩, ?_⟩
  · rw [rendered]
    exact (records.dotLines_nodup apart).map DotLine.text_injective
  · rw [rendered] at member
    obtain ⟨said, _, same⟩ := List.mem_map.1 member
    exact ⟨said, same⟩
  · have recorded := (reported id target kind).1 listed
    rw [accounts.members, accounts.members]
    exact ⟨records.sources _ recorded, records.targets _ recorded⟩
  · intro id member other _ same
    exact (List.idxOf_inj ((accounts.members id).1 member)).1 same
  · rw [accounts.members]
    exact Graph.mem_lines.trans records.vertex_mem
  · refine (Graph.mem_lines.trans records.edge_mem).trans ?_
    constructor
    · rintro ⟨arc, recorded, joined⟩
      obtain ⟨rfl, rfl, rfl⟩ := Edge.mk.inj joined
      exact ⟨arc.source, arc.target, (reported _ _ _).2 recorded, rfl, rfl⟩
    · rintro ⟨id, other, listed, rfl, rfl⟩
      exact ⟨_, (reported _ _ _).1 listed, rfl⟩
  · intro second secondPlatform secondInitial secondBounded resultToo same
    have graphs : resultToo.graph = result.graph := Graph.dot_injective same
    refine ⟨accounts.modules_eq (accounts_resolve secondBounded) graphs, fun id => ?_⟩
    rw [Resolution.dependenciesOf, Resolution.dependenciesOf, graphs]

theorem dot_lossless_tangle :
    ∃ bounded : tangle.Bounded .linux (.ofList [extA]),
      let lines := piecesBy '\n' (tangle.resolve .linux (.ofList [extA]) bounded).value.dot
      ∃ first second, first ≠ second ∧ (DotLine.vertex first extA).text ∈ lines ∧
        (DotLine.vertex second driver).text ∈ lines ∧
        (DotLine.edge ⟨first, second, .platform⟩).text ∈ lines ∧
        (DotLine.edge ⟨first, first, .declared⟩).text ∈ lines := by
  have bounded : tangle.Bounded .linux (.ofList [extA]) := bounded_ofCatalog _ _ _ _ _ _
  have accounts := accounts_resolve bounded
  obtain ⟨_, _, _, inside, ⟨number, distinct, vertices, edges⟩, _⟩ :=
    dot_lossless tangle .linux (.ofList [extA]) bounded
  have found := accounts.initial_mem (by decide : extA ∈ ModuleSet.ofList [extA])
  have needs := accounts.mem_dependenciesOf.2
    ⟨found, by decide, (by decide : (driver, .platform) ∈ tangle.contribution .linux extA)⟩
  have own := accounts.mem_dependenciesOf.2
    ⟨found, by decide, (by decide : (extA, .declared) ∈ tangle.contribution .linux extA)⟩
  have reached := (inside extA driver .platform needs).2
  refine ⟨bounded, number extA, number driver, fun same => ?_, (vertices _ _).2 ⟨found, rfl⟩,
    (vertices _ _).2 ⟨reached, rfl⟩, (edges _ _ _).2 ⟨extA, driver, needs, rfl, rfl⟩,
    (edges _ _ _).2 ⟨extA, extA, own, rfl, rfl⟩⟩
  exact absurd (distinct _ found _ reached same) (by decide)

end Resolver
end BundlePlan
