import SourceSurvey.Proofs.Outline.Levels
import SourceSurvey.Proofs.Tree.Ancestry

/-!
# Outlines and nesting

The levels of an outline are found from the depths of the outlined nodes alone. The level of an entry is the number
of earlier outlined nodes that are less deep than all outlined nodes after them, up to the node of the entry
(`Outline.above`). The outlined nodes around the node are among these (`Outline.around`), and the level is their number
if and only if there are no others (`Outline.level_entries`). Others there can be: a return deep in one statement and
another one, deeper, in the next (`Outline.level_not_nested`).
-/

namespace SourceSurvey.Outline

open Arena

variable {nodes : List FlatNode} {i j k : Nat}

def outlined (nodes : List FlatNode) : List Nat :=
  (List.range nodes.length).filter fun i => (entryOf? (ofNodes nodes) i 0).isSome

def around (nodes : List FlatNode) (i : Nat) : List Nat :=
  (outlined nodes).filter fun j => j ≠ i ∧ j ∈ (ofNodes nodes).lineage i

/-- The outlined nodes before node `i` that are less deep than all outlined nodes from there up to `i`. -/
def above (nodes : List FlatNode) (i : Nat) : List Nat :=
  Levels.above (fun j => ((ofNodes nodes).depth j : Int)) (outlined nodes) i

/-! ## The entries of the outlined nodes -/

def entryAt (nodes : List FlatNode) (i level : Nat) : OutlineEntry :=
  { (entryOf? (ofNodes nodes) i 0).getD ⟨0, "", none, false⟩ with level }

theorem level_only (a : Arena) (i depth : Nat) :
    entryOf? a i depth = (entryOf? a i 0).map fun e => { e with level := depth } := by
  unfold entryOf?
  dsimp only
  split
  · rfl
  split
  · rfl
  split
  · rw [Option.map_map]
    rfl
  split
  · rfl
  split
  · rfl
  · rfl

theorem entryAt_of_mem_outlined (h : i ∈ outlined nodes) (level : Nat) :
    entryOf? (ofNodes nodes) i level = some (entryAt nodes i level) := by
  obtain ⟨e, found⟩ := Option.isSome_iff_exists.mp (List.mem_filter.mp h).2
  rw [level_only, entryAt, found]
  rfl

theorem pairwise_outlined (nodes : List FlatNode) : (outlined nodes).Pairwise (· < ·) :=
  List.pairwise_lt_range.filter _

theorem zipIdx_eq_map_range : nodes.zipIdx = (List.range nodes.length).map fun i => (nodes.getD i default, i) := by
  apply List.ext_getElem
  · rw [List.length_zipIdx, List.length_map, List.length_range]
  · intro i h _
    rw [List.length_zipIdx] at h
    simp [h]

theorem rawEntries_eq (nodes : List FlatNode) :
    rawEntries nodes = (outlined nodes).map fun i => entryAt nodes i ((ofNodes nodes).depth i) := by
  have listed : rawEntries nodes =
      (outlined nodes).filterMap fun i => entryOf? (ofNodes nodes) i ((ofNodes nodes).depth i) := by
    rw [rawEntries, outlined, List.filterMap_filter, zipIdx_eq_map_range, List.filterMap_map]
    refine List.filterMap_congr fun i _ => ?_
    show entryOf? (ofNodes nodes) i (nodes.getD i default).depth = _
    rw [Arena.depth, getD_nodes, level_only]
    cases entryOf? (ofNodes nodes) i 0 <;> rfl
  rw [listed, ← List.filterMap_eq_map]
  exact List.filterMap_congr fun i hi => entryAt_of_mem_outlined hi _

/-- **The entries of an outline are those of the outlined nodes, each at the level that counts the nodes above its
own.** -/
theorem entries_eq (nodes : List FlatNode) :
    entries nodes = (outlined nodes).map fun i => entryAt nodes i (above nodes i).length := by
  have depths : (rawEntries nodes).map (fun e => (e.level : Int)) =
      (outlined nodes).map fun i => ((ofNodes nodes).depth i : Int) := by
    rw [rawEntries_eq, List.map_map]
    rfl
  rw [entries, depths, Levels.compressLevels_eq (pairwise_outlined nodes), rawEntries_eq, List.zip_map', List.map_map]
  rfl

theorem getElem?_entries (k : Nat) :
    (entries nodes)[k]? = (outlined nodes)[k]?.map fun i => entryAt nodes i (above nodes i).length := by
  rw [entries_eq, List.getElem?_map]

/-! ## The outlined nodes around a node -/

/-- What is around a node is less deep than all that comes after it, up to the node. -/
theorem around_eq (nodes : List FlatNode) (i : Nat) : around nodes i =
    (above nodes i).filter fun j => j ≠ i ∧ j ∈ (ofNodes nodes).lineage i := by
  rw [around, above, Levels.above, List.filter_filter]
  refine List.filter_congr fun j _ => ?_
  rw [← Bool.decide_and, decide_eq_decide, iff_self_and]
  rintro ⟨other, line⟩
  obtain ⟨le, deeper⟩ := deeper_of_mem_lineage line
  refine ⟨Nat.lt_of_le_of_ne le other, fun m _ next upTo => ?_⟩
  exact Int.ofNat_lt.mpr (deeper m next upTo)

theorem mem_above_of_mem_around (h : j ∈ around nodes i) : j ∈ above nodes i := by
  rw [around_eq] at h
  exact List.mem_of_mem_filter h

theorem length_around_eq_iff : (above nodes i).length = (around nodes i).length ↔
    ∀ j ∈ above nodes i, j ∈ around nodes i := by
  rw [around_eq, eq_comm, List.length_filter_eq_length_iff]
  constructor
  · exact fun all j hj => List.mem_filter.mpr ⟨hj, all j hj⟩
  · exact fun all j hj => (List.mem_filter.mp (all j hj)).2

/-! ## Indentation -/

theorem lt_iff_of_getElem? {k' : Nat} (hi : (outlined nodes)[k]? = some i) (hj : (outlined nodes)[k']? = some j) :
    k' < k ↔ j < i := by
  have ordered {k k' i j : Nat} (hi : (outlined nodes)[k]? = some i) (hj : (outlined nodes)[k']? = some j)
      (less : k' < k) : j < i := by
    obtain ⟨bound, rfl⟩ := List.getElem?_eq_some_iff.mp hi
    obtain ⟨bound', rfl⟩ := List.getElem?_eq_some_iff.mp hj
    exact List.pairwise_iff_getElem.mp (pairwise_outlined nodes) k' k bound' bound less
  refine ⟨ordered hi hj, fun less => ?_⟩
  rcases Nat.lt_trichotomy k' k with before | rfl | after
  · exact before
  · rw [hi] at hj
    exact absurd (Option.some.inj hj) (Nat.ne_of_gt less)
  · exact absurd (ordered hj hi after) (Nat.lt_asymm less)

/-- The entry at place `k` is indented below the one at `k'`: all entries from there up to it are at greater levels. -/
def IndentedBelow (entries : List OutlineEntry) (k k' : Nat) : Prop :=
  k' < k ∧ ∀ m, k' < m → m ≤ k → ∀ outer ∈ entries[k']?, ∀ e ∈ entries[m]?, outer.level < e.level

/-- An entry is indented below another one if and only if the node of that is above its own. -/
theorem mem_above_iff_indentedBelow {k' : Nat} (hi : (outlined nodes)[k]? = some i)
    (hj : (outlined nodes)[k']? = some j) : j ∈ above nodes i ↔ IndentedBelow (entries nodes) k k' := by
  have entry {m x : Nat} (hx : (outlined nodes)[m]? = some x) :
      (entries nodes)[m]? = some (entryAt nodes x (above nodes x).length) := by
    rw [getElem?_entries, hx]
    rfl
  rw [above, Levels.mem_above_iff (List.mem_of_getElem? hj), IndentedBelow, lt_iff_of_getElem? hi hj, entry hj]
  refine and_congr_right fun _ => ?_
  constructor
  · rintro greater m after upTo _ ⟨⟩ e found
    rw [getElem?_entries] at found
    obtain ⟨x, hx, rfl⟩ := Option.map_eq_some_iff.mp found
    refine greater x (List.mem_of_getElem? hx) ((lt_iff_of_getElem? hx hj).mp after) ?_
    exact Nat.not_lt.mp fun less => Nat.not_lt.mpr upTo ((lt_iff_of_getElem? hx hi).mpr less)
  · intro greater x hx after upTo
    obtain ⟨m, found⟩ := List.mem_iff_getElem?.mp hx
    refine greater m ((lt_iff_of_getElem? found hj).mpr after) ?_ _ rfl _ (entry found)
    exact Nat.not_lt.mp fun less => Nat.not_lt.mpr upTo ((lt_iff_of_getElem? found hi).mp less)

/-- **Levels follow the depths, and the nesting only as far as the depths tell it.** The entries of an outline belong
to the outlined nodes in order. The level of an entry is the number of outlined nodes above its node, and it is
indented below the entries of just these. The outlined nodes around its node are above it; the level is the number of
these if and only if no others are. -/
theorem level_entries (nodes : List FlatNode) : (entries nodes).length = (outlined nodes).length ∧
    ∀ (k i : Nat) (e : OutlineEntry), (outlined nodes)[k]? = some i → (entries nodes)[k]? = some e →
      entryOf? (ofNodes nodes) i e.level = some e ∧
      e.level = (above nodes i).length ∧
      (∀ k' j, (outlined nodes)[k']? = some j → (j ∈ above nodes i ↔ IndentedBelow (entries nodes) k k')) ∧
      (∀ j ∈ around nodes i, j ∈ above nodes i) ∧
      (e.level = (around nodes i).length ↔ ∀ j ∈ above nodes i, j ∈ around nodes i) := by
  refine ⟨by rw [entries_eq, List.length_map], fun k i e hi he => ?_⟩
  rw [getElem?_entries, hi] at he
  obtain rfl := Option.some.inj he
  exact ⟨entryAt_of_mem_outlined (List.mem_of_getElem? hi) _, rfl, fun k' j => mem_above_iff_indentedBelow hi,
    fun j => mem_above_of_mem_around, length_around_eq_iff⟩

/-- The tree of a function with two returns, each in a statement of its own, the second one deeper. -/
def returnsInStatements : List FlatNode :=
  [⟨0, "program", "", 1, 1, 0, 53, true, none⟩,
   ⟨1, "function_declaration", "", 1, 1, 0, 53, true, none⟩,
   ⟨2, "identifier", "f", 1, 1, 9, 10, false, some "name"⟩,
   ⟨2, "statement_block", "", 1, 1, 13, 53, true, some "body"⟩,
   ⟨3, "if_statement", "", 1, 1, 15, 31, true, none⟩,
   ⟨4, "return_statement", "", 1, 1, 22, 31, true, some "consequence"⟩,
   ⟨3, "if_statement", "", 1, 1, 32, 51, true, none⟩,
   ⟨4, "statement_block", "", 1, 1, 39, 51, true, some "consequence"⟩,
   ⟨5, "return_statement", "", 1, 1, 41, 50, true, none⟩]

theorem level_entries_returnsInStatements : (outlined returnsInStatements)[1]? = some 5 ∧
    (outlined returnsInStatements)[2]? = some 8 ∧
    (entries returnsInStatements)[2]? = some ⟨2, "return_statement", none, false⟩ ∧
    5 ∈ above returnsInStatements 8 ∧ IndentedBelow (entries returnsInStatements) 2 1 := by
  have first : (outlined returnsInStatements)[1]? = some 5 := by decide +kernel
  have second : (outlined returnsInStatements)[2]? = some 8 := by decide +kernel
  have entry : (entries returnsInStatements)[2]? = some ⟨2, "return_statement", none, false⟩ := by decide +kernel
  have mem : 5 ∈ above returnsInStatements 8 := by decide +kernel
  obtain ⟨-, -, indented, -⟩ := (level_entries returnsInStatements).2 2 8 _ second entry
  exact ⟨first, second, entry, mem, (indented 1 5 first).mp mem⟩

/-- The second return stands in the function only, one node around it, but is indented below the first return. -/
theorem level_not_nested : TreeShaped returnsInStatements ∧
    outlined returnsInStatements = [1, 5, 8] ∧
    (entries returnsInStatements).map OutlineEntry.level = [0, 1, 2] ∧
    around returnsInStatements 8 = [1] := by
  refine ⟨⟨by decide, by decide⟩, ?_⟩
  decide +kernel

end SourceSurvey.Outline
