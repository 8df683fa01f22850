import SourceSurvey.Proofs.Marking.Brackets
import SourceSurvey.Proofs.Tree.Nesting

/-!
# The indentation of reports

Rows are indented by a counter that only looks at notes: one that speaks of an opening raises it, one that
speaks of a closing lowers it, but not below zero. The walk notes the ends of constructs, all of them and
nothing else. So when delimiters come in pairs, the counter is the number of constructs that are open
(`AttentionRow.levelAfter_eq_level`): it is never kept from falling below zero, it is zero in the end, and
the two ends of a construct are indented alike (`AttentionRow.indent_attentionOf`).
-/

namespace SourceSurvey

namespace AttentionRow

/-! ## The counter -/

def levelAt (level : Nat) (n : MarkedNode) : Nat :=
  if closes n.mark.note then level - 1 else level

def levelPast (level : Nat) (n : MarkedNode) : Nat :=
  if opens n.mark.note then levelAt level n + 1 else levelAt level n

/-- The level at which the rows after some nodes start. -/
def levelAfter (level : Nat) (front : List MarkedNode) : Nat :=
  front.foldl levelPast level

/-- The rows after some nodes start at the level that these leave. -/
theorem listFrom_append (level : Nat) (front back : List MarkedNode) :
    listFrom level (front ++ back) = listFrom level front ++ listFrom (levelAfter level front) back := by
  induction front generalizing level with
  | nil => rfl
  | cons n front ih => exact congrArg (ofNode n (levelAt level n) :: ·) (ih (levelPast level n))

theorem length_listFrom (level : Nat) (ms : List MarkedNode) : (listFrom level ms).length = ms.length := by
  induction ms generalizing level with
  | nil => rfl
  | cons n ms ih => exact congrArg Nat.succ (ih (levelPast level n))

/-- A row is shown at the level that the nodes before it leave. -/
theorem getElem?_list {ms : List MarkedNode} {k : Nat} {n : MarkedNode} (hk : ms[k]? = some n) :
    (list ms)[k]? = some (ofNode n (levelAt (levelAfter 0 (ms.take k)) n)) := by
  obtain ⟨within, rfl⟩ := List.getElem?_eq_some_iff.mp hk
  have length : (listFrom 0 (ms.take k)).length = k := by
    rw [length_listFrom, List.length_take_of_le (Nat.le_of_lt within)]
  calc (list ms)[k]?
      = (listFrom 0 (ms.take k) ++ listFrom (levelAfter 0 (ms.take k)) (ms.drop k))[k]? := by
        rw [← listFrom_append, List.take_append_drop, list]
    _ = (listFrom (levelAfter 0 (ms.take k)) (ms.drop k))[0]? := by
        rw [List.getElem?_append_right (Nat.le_of_eq length), length, Nat.sub_self]
    _ = some (ofNode ms[k] (levelAt (levelAfter 0 (ms.take k)) ms[k])) := by
        rw [List.drop_eq_getElem_cons within]
        rfl

/-! ## Nodes that show the ends of constructs -/

/-- Nodes in order, none before node `k`, that show all ends from node `k` on, and whose notes speak of a
side at its ends only. -/
structure ShowsEnds (a : Arena) (k : Nat) (ms : List MarkedNode) : Prop where
  sorted : ms.Pairwise fun m n => m.index < n.index
  beyond : ∀ n ∈ ms, k ≤ n.index
  speaks : ∀ n ∈ ms, ∀ side : Side, side.speaks n.mark.note = true ↔ ∃ host, a.Delimits side host n.index
  complete : ∀ side host i, a.Delimits side host i → k ≤ i → ∃ n ∈ ms, n.index = i

namespace ShowsEnds

open Arena

variable {nodes : List FlatNode} {k : Nat} {n : MarkedNode} {front back ms : List MarkedNode}

theorem tail (h : ShowsEnds (ofNodes nodes) k (n :: ms)) : ShowsEnds (ofNodes nodes) (n.index + 1) ms where
  sorted := (List.pairwise_cons.mp h.sorted).2
  beyond := (List.pairwise_cons.mp h.sorted).1
  speaks := fun m hm => h.speaks m (List.mem_cons_of_mem n hm)
  complete := by
    intro side host i d later
    have start : k ≤ i := Nat.le_trans (h.beyond n List.mem_cons_self) (Nat.le_of_lt later)
    obtain ⟨m, hm, rfl⟩ := h.complete side host i d start
    rcases List.mem_cons.mp hm with rfl | hm
    · exact absurd later (Nat.lt_irrefl m.index)
    · exact ⟨m, hm, rfl⟩

theorem exists_row (h : ShowsEnds (ofNodes nodes) 0 ms) {side : Side} {host i : Nat}
    (d : (ofNodes nodes).Delimits side host i) :
    ∃ (k : Nat) (n : MarkedNode), ms[k]? = some n ∧ n.index = i := by
  obtain ⟨n, mem, index⟩ := h.complete side host i d (Nat.zero_le i)
  obtain ⟨k, hk⟩ := List.getElem?_of_mem mem
  exact ⟨k, n, hk, index⟩

theorem level_head (h : ShowsEnds (ofNodes nodes) k (n :: ms)) :
    (ofNodes nodes).level n.index = (ofNodes nodes).level k := by
  apply level_eq_of_silent (h.beyond n List.mem_cons_self)
  intro i start before side host d
  obtain ⟨m, hm, rfl⟩ := h.complete side host i d start
  rcases List.mem_cons.mp hm with rfl | hm
  · exact Nat.lt_irrefl m.index before
  · exact Nat.lt_asymm before ((List.pairwise_cons.mp h.sorted).1 m hm)

theorem level_nil (h : ShowsEnds (ofNodes nodes) k []) : (ofNodes nodes).level k = 0 := by
  rw [level, Set.ncard_eq_zero (finite_openBefore _ k), Set.eq_empty_iff_forall_notMem]
  rintro i ⟨-, host, j, c, after⟩
  obtain ⟨m, hm, -⟩ := h.complete .closing host j c.2 after
  cases hm

/-- **One row takes the counter from the level before its node to the level behind it.** -/
theorem levelPast_eq (bracketed : (ofNodes nodes).Bracketed) (h : ShowsEnds (ofNodes nodes) k ms)
    (mem : n ∈ ms) : levelPast ((ofNodes nodes).level n.index) n = (ofNodes nodes).level (n.index + 1) := by
  have opening := h.speaks n mem .opening
  have closing := h.speaks n mem .closing
  cases opens' : opens n.mark.note with
  | true =>
      obtain ⟨host, d⟩ := opening.mp opens'
      have closes' : closes n.mark.note = false := by
        rw [← Bool.not_eq_true]
        intro closes'
        obtain ⟨host', d'⟩ := closing.mp closes'
        exact d.not_both d'
      rw [levelPast, levelAt, opens', closes', level_succ_of_opening bracketed d]
      rfl
  | false =>
      cases closes' : closes n.mark.note with
      | true =>
          obtain ⟨host, d⟩ := closing.mp closes'
          rw [levelPast, levelAt, opens', closes', ← level_of_closing bracketed d]
          rfl
      | false =>
          rw [levelPast, levelAt, opens', closes', level_succ_of_other]
          · rfl
          · intro side host d
            cases side with
            | opening => exact Bool.false_ne_true (opens'.symm.trans (opening.mpr ⟨host, d⟩))
            | closing => exact Bool.false_ne_true (closes'.symm.trans (closing.mpr ⟨host, d⟩))

/-- **After some of the nodes the counter is the level from which on the others are shown.** -/
theorem exists_rest (bracketed : (ofNodes nodes).Bracketed) (h : ShowsEnds (ofNodes nodes) k (front ++ back)) :
    ∃ k', levelAfter ((ofNodes nodes).level k) front = (ofNodes nodes).level k' ∧
      ShowsEnds (ofNodes nodes) k' back := by
  induction front generalizing k with
  | nil => exact ⟨k, rfl, h⟩
  | cons m front ih =>
      obtain ⟨k', counter, rest⟩ := ih h.tail
      refine ⟨k', ?_, rest⟩
      show levelAfter (levelPast _ m) front = _
      rw [← h.level_head, h.levelPast_eq bracketed List.mem_cons_self]
      exact counter

end ShowsEnds

open Arena

/-- Two rows show the two ends of a construct, and they are indented alike. -/
def Paired (a : Arena) (ms : List MarkedNode) (host k k' : Nat) : Prop :=
  ∃ n n' indent, k < k' ∧ ms[k]? = some n ∧ ms[k']? = some n' ∧ a.Construct host n.index n'.index ∧
    opens n.mark.note = true ∧ closes n'.mark.note = true ∧
    (list ms)[k]? = some (ofNode n indent) ∧ (list ms)[k']? = some (ofNode n' indent)

section Levels

variable {nodes : List FlatNode} {ms : List MarkedNode} (bracketed : (ofNodes nodes).Bracketed)
  (shows : ShowsEnds (ofNodes nodes) 0 ms) {k k' : Nat} {n n' : MarkedNode} {host : Nat}

include bracketed shows

/-- **Before every row the counter is the number of constructs that are open there.** -/
theorem levelAfter_eq_level (hk : ms[k]? = some n) :
    levelAfter 0 (ms.take k) = (ofNodes nodes).level n.index := by
  obtain ⟨within, rfl⟩ := List.getElem?_eq_some_iff.mp hk
  rw [← List.take_append_drop k ms] at shows
  obtain ⟨k', counter, rest⟩ := shows.exists_rest bracketed
  rw [List.drop_eq_getElem_cons within] at rest
  rw [level_zero] at counter
  exact counter.trans rest.level_head.symm

theorem levelAfter_eq_zero : levelAfter 0 ms = 0 := by
  rw [← List.append_nil ms] at shows
  obtain ⟨k', counter, rest⟩ := shows.exists_rest bracketed
  rw [level_zero] at counter
  exact counter.trans rest.level_nil

theorem levelAfter_pos (hk : ms[k]? = some n) (closes' : closes n.mark.note = true) :
    0 < levelAfter 0 (ms.take k) := by
  obtain ⟨host, d⟩ := (shows.speaks n (List.mem_of_getElem? hk) .closing).mp closes'
  rw [levelAfter_eq_level bracketed shows hk, ← level_of_closing bracketed d]
  exact Nat.succ_pos _

/-! ## The ends of a construct -/

/-- **The rows of the two ends of a construct are paired.** -/
theorem paired_of_construct (hk : ms[k]? = some n) (hk' : ms[k']? = some n')
    (c : (ofNodes nodes).Construct host n.index n'.index) : Paired (ofNodes nodes) ms host k k' := by
  have mem := List.mem_of_getElem? hk
  have mem' := List.mem_of_getElem? hk'
  have opens' : opens n.mark.note = true := (shows.speaks n mem .opening).mpr ⟨host, c.1⟩
  have closes' : closes n'.mark.note = true := (shows.speaks n' mem' .closing).mpr ⟨host, c.2⟩
  have upright : closes n.mark.note = false := by
    rw [← Bool.not_eq_true]
    intro both
    obtain ⟨host', d⟩ := (shows.speaks n mem .closing).mp both
    exact c.1.not_both d
  have less := c.lt bracketed
  have before : k < k' := by
    obtain ⟨within, rfl⟩ := List.getElem?_eq_some_iff.mp hk
    obtain ⟨within', rfl⟩ := List.getElem?_eq_some_iff.mp hk'
    rcases Nat.lt_trichotomy k k' with first | rfl | later
    · exact first
    · exact absurd less (Nat.lt_irrefl _)
    · exact absurd (List.pairwise_iff_getElem.mp shows.sorted k' k within' within later) (Nat.lt_asymm less)
  -- the closing is shown at the level behind it, where the same constructs are open as before the opening
  have level : levelAt (levelAfter 0 (ms.take k')) n' = levelAt (levelAfter 0 (ms.take k)) n := by
    rw [levelAt, levelAt, closes', upright, levelAfter_eq_level bracketed shows hk,
      levelAfter_eq_level bracketed shows hk', ← level_of_closing bracketed c.2, level,
      c.openBefore_eq bracketed]
    rfl
  refine ⟨n, n', levelAt (levelAfter 0 (ms.take k)) n, before, hk, hk', c, opens', closes',
    getElem?_list hk, ?_⟩
  rw [← level]
  exact getElem?_list hk'

theorem exists_paired_of_construct {i j : Nat} (c : (ofNodes nodes).Construct host i j) :
    ∃ k k', Paired (ofNodes nodes) ms host k k' := by
  obtain ⟨k, n, hk, rfl⟩ := shows.exists_row c.1
  obtain ⟨k', n', hk', rfl⟩ := shows.exists_row c.2
  exact ⟨k, k', paired_of_construct bracketed shows hk hk' c⟩

theorem exists_paired_of_opens (hk : ms[k]? = some n) (opens' : opens n.mark.note = true) :
    ∃ host k', Paired (ofNodes nodes) ms host k k' := by
  obtain ⟨host, d⟩ := (shows.speaks n (List.mem_of_getElem? hk) .opening).mp opens'
  obtain ⟨i, j, -, c⟩ := d.exists_construct bracketed
  obtain rfl := d.unique bracketed c.1
  obtain ⟨k', n', hk', rfl⟩ := shows.exists_row c.2
  exact ⟨host, k', paired_of_construct bracketed shows hk hk' c⟩

theorem exists_paired_of_closes (hk' : ms[k']? = some n') (closes' : closes n'.mark.note = true) :
    ∃ host k, Paired (ofNodes nodes) ms host k k' := by
  obtain ⟨host, d⟩ := (shows.speaks n' (List.mem_of_getElem? hk') .closing).mp closes'
  obtain ⟨i, j, -, c⟩ := d.exists_construct bracketed
  obtain rfl := d.unique bracketed c.2
  obtain ⟨k, n, hk, rfl⟩ := shows.exists_row c.1
  exact ⟨host, k, paired_of_construct bracketed shows hk hk' c⟩

end Levels

theorem showsEnds_attentionNodes {nodes : List FlatNode} {resolve : Option (String → Option String)}
    {s : Markings} (shaped : TreeShaped nodes) (bracketed : (ofNodes nodes).Bracketed)
    (walked : Markings.ofNodes nodes resolve = .ok s) :
    ShowsEnds (ofNodes nodes) 0 (s.attentionNodes nodes) where
  sorted := (Markings.sorted_attention walked).map _ fun _ _ less => less
  beyond := fun n _ => Nat.zero_le n.index
  speaks := by
    intro n mem side
    obtain ⟨i, -, rfl⟩ := List.mem_map.mp mem
    constructor
    · exact Markings.exists_delimits_of_speaks shaped bracketed walked
    · rintro ⟨host, d⟩
      exact (Markings.shown_of_delimits shaped bracketed walked d).note
  complete := by
    intro side host i d _
    have shown := Markings.shown_of_delimits shaped bracketed walked d
    have mem : i ∈ s.attention := Markings.mem_attention.mpr ⟨shown.attended, shown.label⟩
    exact ⟨_, List.mem_map.mpr ⟨i, mem, rfl⟩, rfl⟩

/-- **Rows are indented by the constructs that are open.** In the report of a tree whose delimiters come in
pairs, every row is indented by the counter that the nodes before it leave, every closing finds that counter
above zero, the counter is zero after the last row, so that whatever followed would start from the margin, and
a row that opens or closes is paired with the row of the other end of its construct, which is indented alike;
the ends of every construct are shown. -/
theorem indent_attentionOf {nodes : List FlatNode} {resolve : Option (String → Option String)}
    {ms : List MarkedNode} (shaped : TreeShaped nodes) (bracketed : (ofNodes nodes).Bracketed)
    (walked : attentionOf nodes resolve = .ok ms) :
    (∀ k n, ms[k]? = some n →
        (list ms)[k]? = some (ofNode n (levelAt (levelAfter 0 (ms.take k)) n))) ∧
      (∀ k n, ms[k]? = some n → closes n.mark.note = true → 0 < levelAfter 0 (ms.take k)) ∧
      (levelAfter 0 ms = 0 ∧ ∀ back, list (ms ++ back) = list ms ++ list back) ∧
      (∀ k n, ms[k]? = some n → opens n.mark.note = true →
        ∃ host k', Paired (ofNodes nodes) ms host k k') ∧
      (∀ k' n', ms[k']? = some n' → closes n'.mark.note = true →
        ∃ host k, Paired (ofNodes nodes) ms host k k') ∧
      ∀ host i j, (ofNodes nodes).Construct host i j → ∃ k k', Paired (ofNodes nodes) ms host k k' := by
  unfold attentionOf at walked
  cases marked : Markings.ofNodes nodes resolve with
  | error e =>
      rw [marked] at walked
      cases walked
  | ok s =>
      rw [marked] at walked
      cases walked
      have shows := showsEnds_attentionNodes shaped bracketed marked
      have zero := levelAfter_eq_zero bracketed shows
      refine ⟨fun k n hk => getElem?_list hk, ?_, ⟨zero, ?_⟩, ?_, ?_, ?_⟩
      · intro k n hk closes'
        exact levelAfter_pos bracketed shows hk closes'
      · intro back
        rw [list, listFrom_append, zero]
        rfl
      · intro k n hk opens'
        exact exists_paired_of_opens bracketed shows hk opens'
      · intro k' n' hk' closes'
        exact exists_paired_of_closes bracketed shows hk' closes'
      · intro host i j c
        exact exists_paired_of_construct bracketed shows c

/-- The tree of `() => { <a></a> }`. -/
def arrowAroundElement : List FlatNode :=
  [ ⟨0, "program", "", 1, 1, 0, 17, true, none⟩,
    ⟨1, "arrow_function", "", 1, 1, 0, 17, true, none⟩,
    ⟨2, "formal_parameters", "()", 1, 1, 0, 2, true, some "parameters"⟩,
    ⟨3, "(", "(", 1, 1, 0, 1, false, none⟩,
    ⟨3, ")", ")", 1, 1, 1, 2, false, none⟩,
    ⟨2, "=>", "=>", 1, 1, 3, 5, false, none⟩,
    ⟨2, "statement_block", "", 1, 1, 6, 17, true, some "body"⟩,
    ⟨3, "\x7b", "\x7b", 1, 1, 6, 7, false, none⟩,
    ⟨3, "expression_statement", "<a></a>", 1, 1, 8, 15, true, none⟩,
    ⟨4, "jsx_element", "<a></a>", 1, 1, 8, 15, true, none⟩,
    ⟨5, "jsx_opening_element", "<a>", 1, 1, 8, 11, true, none⟩,
    ⟨6, "identifier", "a", 1, 1, 9, 10, false, some "name"⟩,
    ⟨5, "jsx_closing_element", "</a>", 1, 1, 11, 15, true, none⟩,
    ⟨6, "identifier", "a", 1, 1, 13, 14, false, some "name"⟩,
    ⟨3, "\x7d", "\x7d", 1, 1, 16, 17, false, none⟩ ]

theorem delimited_arrowAroundElement {host : Nat} {b : Bracket}
    (h : (ofNodes arrowAroundElement).Delimited host b) :
    (host, b) ∈ [(2, .paren), (6, .brace), (9, .tag)] := by
  have hosts : ∀ i < 15, ((ofNodes arrowAroundElement).kind i ∈ braceHosts → i = 6) ∧
      ((ofNodes arrowAroundElement).kind i = "formal_parameters" → i = 2) ∧
      (ofNodes arrowAroundElement).kind i ≠ "arguments" ∧
      ((ofNodes arrowAroundElement).kind i = "jsx_element" → i = 9) := by decide +kernel
  have named : ∀ kind ∈ hostKinds, kind ≠ "" := by decide
  obtain ⟨braces, parameters, arguments, element⟩ := hosts host (lt_length_of_kind (named _ h.mem_hostKinds))
  cases h with
  | braces kind =>
      rw [braces kind]
      decide
  | parameters kind =>
      rw [parameters kind]
      decide
  | arguments kind => exact absurd kind arguments
  | element kind =>
      rw [element kind]
      decide

theorem bracketed_arrowAroundElement : (ofNodes arrowAroundElement).Bracketed := by
  have tags (side : Side) {t : Nat} (h : (ofNodes arrowAroundElement).kind t = Bracket.tag.delimiter side) :
      t = if side = .opening then 10 else 12 := by
    have all : ∀ t < 15, ((ofNodes arrowAroundElement).kind t = "jsx_opening_element" → t = 10) ∧
        ((ofNodes arrowAroundElement).kind t = "jsx_closing_element" → t = 12) := by decide +kernel
    have present : t < 15 := lt_length_of_kind (by rw [h]; cases side <;> decide)
    cases side with
    | opening => exact (all t present).1 h
    | closing => exact (all t present).2 h
  constructor
  case encloses =>
    intro host b h
    have known := delimited_arrowAroundElement h
    simp only [List.mem_cons, Prod.mk.injEq, List.not_mem_nil, or_false] at known
    rcases known with ⟨rfl, rfl⟩ | ⟨rfl, rfl⟩ | ⟨rfl, rfl⟩
    · exact ⟨3, 4, by decide, by decide +kernel, by decide +kernel⟩
    · exact ⟨7, 14, by decide, by decide +kernel, by decide +kernel⟩
    · exact ⟨10, 12, by decide, by decide +kernel, by decide +kernel⟩
  case element =>
    intro side t tag
    rw [tags side tag]
    cases side with
    | opening => exact ⟨9, by decide +kernel, by decide +kernel⟩
    | closing => exact ⟨9, by decide +kernel, by decide +kernel⟩
  case tagNames =>
    intro element t t' _ tag _ tag'
    rw [tags .opening tag, tags .closing tag']
    exact Or.inl ⟨11, 13, by decide +kernel, by decide +kernel⟩
  case text =>
    intro side host b i h around _ _
    have all : ∀ i < 15, ∀ e ∈ [(2, Bracket.paren), (6, .brace), (9, .tag)],
        (ofNodes arrowAroundElement).parent? i = some e.1 →
        Text.compact ((ofNodes arrowAroundElement).text i) ≠ "" := by decide +kernel
    exact all i (lt_length_of_parent? around) _ (delimited_arrowAroundElement h) around
  case name =>
    intro side t i tag name
    have all : ∀ t ∈ [10, 12], ∀ i ∈ (ofNodes arrowAroundElement).tagNames t,
        MarkAction.tagLabel (ofNodes arrowAroundElement) i "" ≠ "" := by decide +kernel
    refine all t ?_ i name
    rw [tags side tag]
    cases side <;> decide

/-- In the tree of `() => { <a></a> }` the parentheses, the braces and the tags are paired. -/
theorem indent_attentionOf_arrowAroundElement :
    TreeShaped arrowAroundElement ∧ (ofNodes arrowAroundElement).Bracketed ∧
      ∃ ms, attentionOf arrowAroundElement none = .ok ms ∧ levelAfter 0 ms = 0 ∧
        ∀ host ∈ [2, 6, 9], ∃ k k', Paired (ofNodes arrowAroundElement) ms host k k' := by
  have shaped : TreeShaped arrowAroundElement := ⟨by decide, by decide⟩
  have bracketed := bracketed_arrowAroundElement
  have ends : ∀ host ∈ [2, 6, 9], ∃ i j, (ofNodes arrowAroundElement).Construct host i j := by
    intro host mem
    have delimited : ∃ b, (ofNodes arrowAroundElement).Delimited host b := by
      simp only [List.mem_cons, List.not_mem_nil, or_false] at mem
      rcases mem with rfl | rfl | rfl
      · have function : (ofNodes arrowAroundElement).parent? 2 = some 1 := by decide +kernel
        exact ⟨.paren, .parameters (by decide +kernel) function (by decide +kernel)⟩
      · exact ⟨.brace, .braces (by decide +kernel)⟩
      · have tag : (ofNodes arrowAroundElement).kind 10 = Bracket.tag.delimiter .opening := by decide +kernel
        exact ⟨.tag, .element (by decide +kernel) (by decide +kernel) tag⟩
    obtain ⟨b, delimited⟩ := delimited
    obtain ⟨i, j, -, c⟩ := exists_construct_of_delimited bracketed delimited
    exact ⟨i, j, c⟩
  have ok : (attentionOf arrowAroundElement none).isOk = true := by decide +kernel
  cases walked : attentionOf arrowAroundElement none with
  | error e =>
      rw [walked] at ok
      cases ok
  | ok ms =>
      obtain ⟨-, -, ⟨zero, -⟩, -, -, paired⟩ := indent_attentionOf shaped bracketed walked
      refine ⟨shaped, bracketed, ms, rfl, zero, ?_⟩
      intro host mem
      obtain ⟨i, j, c⟩ := ends host mem
      exact paired host i j c

end AttentionRow

end SourceSurvey
