import Mathlib.Data.List.TakeWhile
import SourceSurvey.Proofs.Text.Encoding
import SourceSurvey.Proofs.Tree.Positions
import SourceSurvey.Tree.Respacing

/-!
# When respacing gives the source back

The terminals of a tree are written out again, set apart by line feeds and spaces. What is written for a
gap never takes more bytes than the gap (`Gap.length_respaced_le`), so bytes that are lost in one gap are
not made up for in another: the source comes back exactly if every single gap does
(`ParsedSource.respace_flatten`), and a gap does exactly if it is a run of line feeds followed by a run of
spaces (`Gap.respaced_eq_iff`).
-/

namespace SourceSurvey

open Text

/-! ## Gaps -/

namespace Gap

/-- The bytes are a run of line feeds followed by a run of spaces. -/
def IsPlain (g : List UInt8) : Prop :=
  ∃ lines spaces, g = Utf8.encode (fill lines '\n' ++ fill spaces ' ')

/-- What is written for a gap: its line feeds, and a space for every byte after the last of them. -/
def respaced (g : List UInt8) : List UInt8 :=
  List.replicate (g.count 0x0A) 0x0A ++ List.replicate (g.reverse.takeWhile (· != 0x0A)).length 0x20

variable {g : List UInt8}

theorem encode_fill {c : Char} (ascii : c.toNat ≤ 0x7F) (n : Nat) :
    Utf8.encode (fill n c) = List.replicate n (UInt8.ofNat c.toNat) := by
  rw [fill, Utf8.encode_ofList]
  induction n with
  | zero => rfl
  | succ n ih =>
      rw [List.replicate_succ, List.replicate_succ, List.flatMap_cons, ih, Utf8.utf8EncodeChar_ascii ascii]
      rfl

theorem encode_spacing (lines spaces : Nat) : Utf8.encode (fill lines '\n' ++ fill spaces ' ') =
    List.replicate lines 0x0A ++ List.replicate spaces 0x20 := by
  rw [Utf8.encode_append, encode_fill (by decide), encode_fill (by decide)]
  rfl

/-- The line feeds all stand before what comes after the last of them. -/
theorem length_respaced_le (g : List UInt8) : (respaced g).length ≤ g.length := by
  have apart := List.takeWhile_append_dropWhile (p := (· != (0x0A : UInt8))) (l := g.reverse)
  have counted : g.count 0x0A = (g.reverse.dropWhile (· != 0x0A)).count 0x0A := by
    have none : (g.reverse.takeWhile (· != 0x0A)).count 0x0A = 0 := by
      rw [List.count_eq_zero]
      intro found
      have := List.all_takeWhile (p := (· != (0x0A : UInt8))) (l := g.reverse)
      rw [List.all_eq_true] at this
      exact absurd (this _ found) (by decide)
    rw [← List.count_reverse, ← apart, List.count_append, none, Nat.zero_add, apart]
  have whole := congrArg List.length apart
  rw [List.length_append, List.length_reverse] at whole
  have few := List.count_le_length (a := (0x0A : UInt8)) (l := g.reverse.dropWhile (· != 0x0A))
  rw [respaced, List.length_append, List.length_replicate, List.length_replicate, counted]
  omega

/-- **A gap comes back exactly if it is a run of line feeds followed by a run of spaces.** -/
theorem respaced_eq_iff : respaced g = g ↔ IsPlain g := by
  constructor
  · intro same
    refine ⟨g.count 0x0A, (g.reverse.takeWhile (· != 0x0A)).length, ?_⟩
    rw [encode_spacing]
    exact same.symm
  · rintro ⟨lines, spaces, rfl⟩
    rw [encode_spacing]
    have blanks : (List.replicate lines (0x0A : UInt8) ++ List.replicate spaces 0x20).reverse.takeWhile
        (· != 0x0A) = List.replicate spaces 0x20 := by
      rw [List.reverse_append, List.reverse_replicate, List.reverse_replicate]
      induction spaces with
      | zero => cases lines <;> rfl
      | succ spaces ih =>
          rw [List.replicate_succ, List.cons_append, List.takeWhile_cons_of_pos (by decide), ih]
    have feeds : (List.replicate lines (0x0A : UInt8) ++ List.replicate spaces 0x20).count 0x0A = lines := by
      rw [List.count_append, List.count_replicate_self, List.count_replicate]
      rfl
    rw [respaced, feeds, blanks, List.length_replicate]

end Gap

/-! ## Places in the source -/

namespace ParsedSource

open Gap

variable {source : ParsedSource} {o k m : Nat}

def between (source : ParsedSource) (o k : Nat) : List UInt8 :=
  (source.bytes.take k).drop o

def placeAt (source : ParsedSource) (o : Nat) : Place :=
  ⟨source.rowAt o + 1, source.columnAt o⟩

theorem length_between (within : k ≤ source.bytes.length) : (source.between o k).length = k - o := by
  rw [between, List.length_drop, List.length_take, Nat.min_eq_left within]

theorem take_eq_append_between (le : o ≤ k) :
    source.bytes.take k = source.bytes.take o ++ source.between o k := by
  have apart := List.take_append_drop o (source.bytes.take k)
  rw [List.take_take, Nat.min_eq_left le] at apart
  exact apart.symm

theorem between_append (le : o ≤ k) (le' : k ≤ m) (within : k ≤ source.bytes.length) :
    source.between o m = source.between o k ++ source.between k m := by
  have start : o ≤ (source.bytes.take k).length := by rwa [List.length_take, Nat.min_eq_left within]
  rw [between, take_eq_append_between le', List.drop_append_of_le_length start]
  rfl

theorem rowAt_eq (source : ParsedSource) (le : o ≤ k) :
    source.rowAt k = source.rowAt o + (source.between o k).count 0x0A := by
  rw [rowAt, take_eq_append_between le, List.count_append, rowAt]

/-- A line feed in between starts the columns anew. -/
theorem columnAt_eq (source : ParsedSource) (le : o ≤ k) : source.columnAt k =
    ((source.between o k).reverse.takeWhile (· != 0x0A)).length +
      if (source.between o k).count 0x0A = 0 then source.columnAt o else 0 := by
  rw [columnAt, take_eq_append_between le, List.reverse_append]
  split
  · next none =>
    have all : ∀ b ∈ (source.between o k).reverse, (b != 0x0A) = true := by
      intro b hb
      rw [bne_iff_ne]
      rintro rfl
      exact List.count_eq_zero.mp none (List.mem_reverse.mp hb)
    rw [List.takeWhile_append_of_pos all, List.takeWhile_eq_self_iff.mpr all, List.length_append, columnAt]
  · next some =>
    have cut : (List.takeWhile (· != 0x0A) (source.between o k).reverse).length ≠
        (source.between o k).reverse.length := by
      intro same
      have all := List.takeWhile_eq_self_iff.mp
        ((List.takeWhile_prefix (· != (0x0A : UInt8))).eq_of_length same)
      apply some
      rw [List.count_eq_zero]
      intro found
      exact absurd (all _ (List.mem_reverse.mpr found)) (by decide)
    rw [List.takeWhile_append, if_neg cut, Nat.add_zero]

/-- **What is written between two offsets is the gap between them, respaced.** -/
theorem encode_gap (le : o ≤ k) {n : FlatNode} (line : n.startLine = source.rowAt k + 1)
    (column : n.startColumn = source.columnAt k) :
    Utf8.encode ((source.placeAt o).gap n) = respaced (source.between o k) := by
  have rows := rowAt_eq source le
  have columns := columnAt_eq source le
  have feeds : (n.startLine - (source.placeAt o).line).toNat = (source.between o k).count 0x0A := by
    rw [line]
    show ((source.rowAt k + 1 : Int) - (source.rowAt o + 1)).toNat = _
    omega
  have blanks : (n.startColumn - if (source.placeAt o).line < n.startLine then 0
      else (source.placeAt o).column).toNat =
        ((source.between o k).reverse.takeWhile (· != 0x0A)).length := by
    rw [line, column]
    show ((source.columnAt k : Int) - if (source.rowAt o + 1 : Int) < source.rowAt k + 1 then 0
      else (source.columnAt o : Int)).toNat = _
    split at columns
    · rw [if_neg (by omega)]
      omega
    · rw [if_pos (by omega)]
      omega
  rw [Place.gap, encode_spacing, feeds, blanks, respaced]

end ParsedSource

/-! ## Spans in order -/

/-- The spans follow one another, the first from `lo` on and the last up to `hi`. -/
def InOrder (hi : Nat) : Nat → List NodeInfo → Prop
  | lo, [] => lo ≤ hi
  | lo, n :: rest => lo ≤ n.start ∧ n.start ≤ n.stop ∧ InOrder hi n.stop rest

/-- Where the last of several spans ends, and otherwise the offset before them. -/
def lastStop (o : Nat) : List NodeInfo → Nat
  | [] => o
  | n :: rest => lastStop n.stop rest

namespace InOrder

variable {lo lo' mid hi : Nat} {l l' : List NodeInfo}

theorem weaken (le : lo' ≤ lo) (h : InOrder hi lo l) : InOrder hi lo' l := by
  cases l with
  | nil => exact Nat.le_trans le h
  | cons n rest => exact ⟨Nat.le_trans le h.1, h.2⟩

theorem append (h : InOrder mid lo l) (h' : InOrder hi mid l') : InOrder hi lo (l ++ l') := by
  induction l generalizing lo with
  | nil => exact h'.weaken h
  | cons n rest ih => exact ⟨h.1, h.2.1, ih h.2.2⟩

theorem le_lastStop (h : InOrder hi lo l) : lo ≤ lastStop lo l := by
  induction l generalizing lo with
  | nil => exact Nat.le_refl lo
  | cons n rest ih => exact Nat.le_trans h.1 (Nat.le_trans h.2.1 (ih h.2.2))

theorem lastStop_le (h : InOrder hi lo l) : lastStop lo l ≤ hi := by
  induction l generalizing lo with
  | nil => exact h
  | cons n rest ih => exact ih h.2.2

end InOrder

/-! ## Writing out terminals -/

def FlatNode.holdsText (n : FlatNode) : Bool := n.isTerminal && n.text != ""

theorem respaceFrom_filter (here : Place) (nodes : List FlatNode) :
    respaceFrom here nodes = respaceFrom here (nodes.filter FlatNode.holdsText) := by
  induction nodes generalizing here with
  | nil => rfl
  | cons n rest ih =>
      rw [List.filter_cons]
      by_cases holds : n.holdsText = true
      · have writes : (n.isTerminal && n.text != "") = true := holds
        rw [if_pos holds, respaceFrom, respaceFrom, if_pos writes, if_pos writes, ih]
      · have skips : ¬ (n.isTerminal && n.text != "") = true := holds
        rw [if_neg holds, respaceFrom, if_neg skips, ih]

namespace ParsedSource

open Gap

variable {source : ParsedSource} {o hi : Nat} {rows : List (Nat × SyntaxTree)}

def infos (rows : List (Nat × SyntaxTree)) : List NodeInfo :=
  rows.map fun row => row.2.info

theorem infos_cons (row : Nat × SyntaxTree) (rows : List (Nat × SyntaxTree)) :
    infos (row :: rows) = row.2.info :: infos rows := rfl

/-- The bytes before each of several spans, from the end of the span before it or from an offset. -/
def gapsFrom (source : ParsedSource) (o : Nat) : List NodeInfo → List (List UInt8)
  | [] => []
  | n :: rest => source.between o n.start :: source.gapsFrom n.stop rest

/-- The rows are terminals that hold text, and their texts are their bytes. -/
def AreTerminals (source : ParsedSource) (rows : List (Nat × SyntaxTree)) : Prop :=
  ∀ row ∈ rows, (source.flatNode row).holdsText = true ∧
    Utf8.encode (source.flatNode row).text = source.slice row.2.info

def written (source : ParsedSource) (o : Nat) (rows : List (Nat × SyntaxTree)) : List UInt8 :=
  Utf8.encode (respaceFrom (source.placeAt o) (rows.map source.flatNode))

theorem written_cons {row : Nat × SyntaxTree} (terminals : source.AreTerminals (row :: rows))
    (le : o ≤ row.2.info.start) : source.written o (row :: rows) =
      respaced (source.between o row.2.info.start) ++
        (source.slice row.2.info ++ source.written row.2.info.stop rows) := by
  obtain ⟨holds, bytes⟩ := terminals row List.mem_cons_self
  have writes : ((source.flatNode row).isTerminal && (source.flatNode row).text != "") = true := holds
  rw [written, List.map_cons, respaceFrom, if_pos writes, Utf8.encode_append, Utf8.encode_append, bytes,
    encode_gap le rfl rfl, List.append_assoc]
  rfl

theorem length_written_le (terminals : source.AreTerminals rows) (within : hi ≤ source.bytes.length)
    (order : InOrder hi o (infos rows)) :
    (source.written o rows).length ≤ lastStop o (infos rows) - o := by
  induction rows generalizing o with
  | nil => exact Nat.zero_le _
  | cons row rest ih =>
      rw [infos_cons] at order
      obtain ⟨before, span, order⟩ := order
      have first := length_respaced_le (source.between o row.2.info.start)
      have later := ih (fun r hr => terminals r (List.mem_cons_of_mem row hr)) order
      have bound := order.le_lastStop
      have bound' := order.lastStop_le
      rw [length_between (by omega)] at first
      have own : (source.slice row.2.info).length = row.2.info.stop - row.2.info.start :=
        length_between (by omega)
      rw [written_cons terminals before, List.length_append, List.length_append, own]
      show _ ≤ lastStop row.2.info.stop (infos rest) - o
      omega

/-- **What is written is what there was exactly if every gap is plain.** -/
theorem written_eq_iff (terminals : source.AreTerminals rows) (within : hi ≤ source.bytes.length)
    (order : InOrder hi o (infos rows)) :
    source.written o rows = source.between o (lastStop o (infos rows)) ↔
      ∀ g ∈ source.gapsFrom o (infos rows), IsPlain g := by
  induction rows generalizing o with
  | nil =>
      have nothing : source.between o o = [] :=
        List.drop_eq_nil_of_le (Nat.le_trans (List.length_take_le _ _) (Nat.le_refl o))
      show [] = source.between o o ↔ ∀ g ∈ [], IsPlain g
      simp [nothing]
  | cons row rest ih =>
      rw [infos_cons] at order
      obtain ⟨before, span, order⟩ := order
      have rest_terminals : source.AreTerminals rest := fun r hr => terminals r (List.mem_cons_of_mem row hr)
      have bound := order.le_lastStop
      have bound' := order.lastStop_le
      have parts : source.between o (lastStop row.2.info.stop (infos rest)) =
          source.between o row.2.info.start ++ (source.slice row.2.info ++
            source.between row.2.info.stop (lastStop row.2.info.stop (infos rest))) := by
        rw [between_append before (Nat.le_trans span bound) (by omega),
          between_append span bound (by omega)]
        rfl
      show source.written o (row :: rest) = source.between o (lastStop row.2.info.stop (infos rest)) ↔
        ∀ g ∈ source.between o row.2.info.start :: source.gapsFrom row.2.info.stop (infos rest), IsPlain g
      rw [written_cons terminals before, parts, List.forall_mem_cons, ← respaced_eq_iff,
        ← ih rest_terminals order]
      constructor
      · intro same
        -- neither part is longer than its gap, and together they are as long, so each is
        have total := congrArg List.length same
        simp only [List.length_append] at total
        have first := length_respaced_le (source.between o row.2.info.start)
        have later := length_written_le rest_terminals within order
        have rest_length : (source.between row.2.info.stop (lastStop row.2.info.stop (infos rest))).length =
            lastStop row.2.info.stop (infos rest) - row.2.info.stop := length_between (by omega)
        rw [← rest_length] at later
        obtain ⟨gap, more⟩ := List.append_inj same (by omega)
        exact ⟨gap, List.append_cancel_left more⟩
      · rintro ⟨gap, more⟩
        rw [gap, more]

end ParsedSource

/-! ## Trees laid out over a text -/

namespace SyntaxTree

variable {text : String} {t u : SyntaxTree} {p : List Nat}

/-- The spans of the tree lie on character boundaries of the text; the children of a node are inside its
span, one after the other. -/
inductive LaidOut (text : String) : SyntaxTree → Prop
  | node {info : NodeInfo} {children : List SyntaxTree} (span : info.start ≤ info.stop)
      (boundaries : Utf8.IsBoundary text info.start ∧ Utf8.IsBoundary text info.stop)
      (inside : ∀ c ∈ children, info.start ≤ c.info.start ∧ c.info.stop ≤ info.stop)
      (ordered : children.Pairwise fun c d => c.info.stop ≤ d.info.start)
      (below : ∀ c ∈ children, LaidOut text c) : LaidOut text (node info children)

theorem LaidOut.span (h : LaidOut text t) : t.info.start ≤ t.info.stop := by
  cases h
  assumption

theorem LaidOut.boundaries (h : LaidOut text t) :
    Utf8.IsBoundary text t.info.start ∧ Utf8.IsBoundary text t.info.stop := by
  cases h
  assumption

theorem LaidOut.subtree? (h : LaidOut text t) (found : t.subtree? p = some u) : LaidOut text u := by
  induction p generalizing t with
  | nil =>
      cases found
      exact h
  | cons k p ih =>
      obtain ⟨c, child, further⟩ := Option.bind_eq_some_iff.mp found
      cases h with
      | node _ _ _ _ below => exact ih (below c (List.mem_of_getElem? child)) further

theorem exists_subtree?_of_mem_listing {depth : Nat} {row : Nat × SyntaxTree}
    (h : row ∈ t.listing depth) : ∃ p, t.subtree? p = some row.2 := by
  rw [listing_eq, List.mem_map] at h
  obtain ⟨p, place, rfl⟩ := h
  obtain ⟨u, found⟩ := (mem_places t.pruned p).mp place
  obtain ⟨w, found, -, -⟩ := subtree?_pruned.mp found
  exact ⟨p, by rw [found, Option.getD_some]⟩

end SyntaxTree

namespace ParsedSource

open Gap SyntaxTree

variable {text : String} {root : SyntaxTree}

def terminalRows (source : ParsedSource) (rows : List (Nat × SyntaxTree)) : List (Nat × SyntaxTree) :=
  rows.filter fun row => (source.flatNode row).holdsText

def terminals (source : ParsedSource) : List NodeInfo :=
  infos (source.terminalRows (source.root.listing 0))

/-- The gaps of a source: before its first terminal that holds text, and between any two that follow one
another. -/
def gaps (source : ParsedSource) : List (List UInt8) :=
  source.gapsFrom 0 source.terminals

theorem childless_of_holdsText {source : ParsedSource} {row : Nat × SyntaxTree}
    (h : (source.flatNode row).holdsText = true) :
    row.2.children = [] ∨ closedKinds.contains row.2.info.kind = true := by
  have terminal : (source.flatNode row).isTerminal = true := (Bool.and_eq_true_iff.mp h).1
  have none : (!(!row.2.children.isEmpty && !closedKinds.contains row.2.info.kind)) = true := terminal
  by_cases empty : row.2.children = []
  · exact Or.inl empty
  · right
    simpa [empty] using none

mutual

/-- The terminals of a tree stand one after the other inside its span. -/
theorem inOrder_listing (source : ParsedSource) (depth : Nat) : (t : SyntaxTree) → t.LaidOut text →
    InOrder t.info.stop t.info.start (infos (source.terminalRows (t.listing depth)))
  | node info children, laid => by
      cases laid with
      | node span boundaries inside ordered below =>
          rw [listing, terminalRows, List.filter_cons]
          by_cases holds : (source.flatNode (depth, SyntaxTree.node info children)).holdsText = true
          · -- nothing is listed below a terminal
            have nothing : (if closedKinds.contains info.kind then []
                else forestListing (depth + 1) children) = [] := by
              split
              · rfl
              · next isOpen =>
                rcases childless_of_holdsText holds with none | closed
                · have none : children = [] := none
                  rw [none, forestListing]
                · exact absurd closed isOpen
            rw [if_pos holds, nothing]
            exact ⟨Nat.le_refl _, span, Nat.le_refl _⟩
          · rw [if_neg holds]
            split
            · exact span
            · exact inOrder_forestListing source (depth + 1) children span inside ordered below

theorem inOrder_forestListing (source : ParsedSource) (depth : Nat) {lo hi : Nat} :
    (ts : List SyntaxTree) → lo ≤ hi → (∀ c ∈ ts, lo ≤ c.info.start ∧ c.info.stop ≤ hi) →
      (ts.Pairwise fun c d => c.info.stop ≤ d.info.start) → (∀ c ∈ ts, c.LaidOut text) →
      InOrder hi lo (infos (source.terminalRows (forestListing depth ts)))
  | [], le, _, _, _ => by
      rw [forestListing]
      exact le
  | t :: ts, _, inside, ordered, below => by
      obtain ⟨before, ordered⟩ := List.pairwise_cons.mp ordered
      obtain ⟨start, stop⟩ := inside t List.mem_cons_self
      rw [forestListing, terminalRows, List.filter_append, infos, List.map_append]
      apply InOrder.append
      · exact (inOrder_listing source depth t (below t List.mem_cons_self)).weaken start
      · apply inOrder_forestListing source depth ts stop
        · intro c hc
          exact ⟨before c hc, (inside c (List.mem_cons_of_mem t hc)).2⟩
        · exact ordered
        · intro c hc
          exact below c (List.mem_cons_of_mem t hc)

end

/-- Between character boundaries, the text of a node is what its bytes spell. -/
theorem areTerminals {source : ParsedSource} (encoded : source.bytes = Utf8.encode text)
    (laid : source.root.LaidOut text) :
    source.AreTerminals (source.terminalRows (source.root.listing 0)) := by
  intro row h
  obtain ⟨listed, holds⟩ := List.mem_filter.mp h
  obtain ⟨p, found⟩ := exists_subtree?_of_mem_listing listed
  obtain ⟨start, stop⟩ := (laid.subtree? found).boundaries
  obtain ⟨s, spelled⟩ := Utf8.exists_slice start stop
  refine ⟨holds, ?_⟩
  show Utf8.encode (Utf8.decodeReplacing (source.slice row.2.info)) = source.slice row.2.info
  rw [slice, encoded, spelled, Utf8.decodeReplacing_encode]

theorem isBoundary_lastStop {l : List NodeInfo} {o : Nat} (here : Utf8.IsBoundary text o)
    (stops : ∀ n ∈ l, Utf8.IsBoundary text n.stop) : Utf8.IsBoundary text (lastStop o l) := by
  induction l generalizing o with
  | nil => exact here
  | cons n rest ih =>
      exact ih (stops n List.mem_cons_self) fun m hm => stops m (List.mem_cons_of_mem n hm)

/-- **The text comes back, up to the end of the last terminal that holds text, exactly if every gap is a
run of line feeds followed by a run of spaces.** -/
theorem respace_flatten (source : ParsedSource) (text : String) (encoded : source.bytes = Utf8.encode text)
    (laid : source.root.LaidOut text) :
    respace source.nodes = Utf8.upTo text (lastStop 0 source.terminals) ↔
      ∀ g ∈ source.gaps, IsPlain g := by
  have order := (inOrder_listing source 0 source.root laid).weaken (Nat.zero_le _)
  have within : source.root.info.stop ≤ source.bytes.length := by
    rw [encoded]
    exact laid.boundaries.2.le
  have boundary : Utf8.IsBoundary text (lastStop 0 source.terminals) := by
    apply isBoundary_lastStop ⟨0, rfl⟩
    intro n hn
    obtain ⟨row, h, rfl⟩ := List.mem_map.mp hn
    obtain ⟨p, found⟩ := exists_subtree?_of_mem_listing (List.mem_of_mem_filter h)
    exact (laid.subtree? found).boundaries.2
  have start : source.placeAt 0 = Place.start := rfl
  have bytes : Utf8.encode (respace source.nodes) =
      source.written 0 (source.terminalRows (source.root.listing 0)) := by
    rw [written, start, respace, respaceFrom_filter, nodes_eq, List.filter_map]
    rfl
  apply Iff.trans ⟨congrArg Utf8.encode, Utf8.encode_inj⟩
  rw [bytes, Utf8.encode_upTo boundary, ← encoded]
  exact written_eq_iff (areTerminals encoded laid) within order

/-- A tree over `é;` and, two lines below, `b`: nodes of two bytes for one character, of none at all, and
below a closed kind. -/
def twoLineTree : SyntaxTree :=
  .node ⟨"program", none, 0, 9⟩
    [.node ⟨"expression_statement", none, 0, 3⟩
      [.node ⟨"string", none, 0, 2⟩ [.node ⟨"string_fragment", none, 0, 2⟩ []], .node ⟨";", none, 2, 3⟩ []],
     .node ⟨"empty_statement", none, 3, 3⟩ [],
     .node ⟨"identifier", none, 7, 8⟩ []]

theorem laidOut_twoLineTree : twoLineTree.LaidOut "é;\n\n  b " := by
  have leaf {info : NodeInfo} (span : info.start ≤ info.stop)
      (start : Utf8.IsBoundary "é;\n\n  b " info.start) (stop : Utf8.IsBoundary "é;\n\n  b " info.stop) :
      (SyntaxTree.node info []).LaidOut "é;\n\n  b " :=
    .node span ⟨start, stop⟩ (by simp) .nil (by simp)
  have zero : Utf8.IsBoundary "é;\n\n  b " 0 := ⟨0, by decide +kernel⟩
  have two : Utf8.IsBoundary "é;\n\n  b " 2 := ⟨1, by decide +kernel⟩
  have three : Utf8.IsBoundary "é;\n\n  b " 3 := ⟨2, by decide +kernel⟩
  have seven : Utf8.IsBoundary "é;\n\n  b " 7 := ⟨6, by decide +kernel⟩
  have eight : Utf8.IsBoundary "é;\n\n  b " 8 := ⟨7, by decide +kernel⟩
  have nine : Utf8.IsBoundary "é;\n\n  b " 9 := ⟨8, by decide +kernel⟩
  refine .node (by decide) ⟨zero, nine⟩ (by decide) (by decide) ?_
  simp only [List.forall_mem_cons]
  refine ⟨.node (by decide) ⟨zero, three⟩ (by decide) (by decide) ?_, leaf (by decide) three three,
    leaf (by decide) seven eight, by simp⟩
  simp only [List.forall_mem_cons]
  refine ⟨.node (by decide) ⟨zero, two⟩ (by decide) (by decide) ?_, leaf (by decide) two three, by simp⟩
  simp only [List.forall_mem_cons]
  exact ⟨leaf (by decide) zero two, by simp⟩

theorem respace_flatten_twoLines : twoLineTree.LaidOut "é;\n\n  b " ∧
    respace (nodes ⟨Utf8.encode "é;\n\n  b ", twoLineTree⟩) = "é;\n\n  b" := by
  have gaps_eq : gaps ⟨Utf8.encode "é;\n\n  b ", twoLineTree⟩ = [[], [], [0x0A, 0x0A, 0x20, 0x20]] := by
    decide +kernel
  have last : Utf8.upTo "é;\n\n  b " (lastStop 0 (terminals ⟨Utf8.encode "é;\n\n  b ", twoLineTree⟩)) =
      "é;\n\n  b" := by
    decide +kernel
  refine ⟨laidOut_twoLineTree, ?_⟩
  rw [← last]
  apply (respace_flatten _ "é;\n\n  b " rfl laidOut_twoLineTree).mpr
  rw [gaps_eq]
  simp only [List.forall_mem_cons]
  exact ⟨⟨0, 0, rfl⟩, ⟨0, 0, rfl⟩, ⟨2, 2, rfl⟩, by simp⟩

end ParsedSource

end SourceSurvey
