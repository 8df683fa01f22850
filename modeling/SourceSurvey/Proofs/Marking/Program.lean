import SourceSurvey.Proofs.Marking.Performing

/-!
# A program is marked statement by statement

The walk over a program marks every statement as if it stood alone below the root
(`Markings.ofNodes_statements`): nothing that one statement leaves behind, neither on the trail nor in the
marks, the bindings or the components, shows in another. One visit keeps the markings mirrored
(`Placed.visit`), so the walk over a statement does (`Placed.walk`), and the walk over the program adds one
statement after the other (`Markings.Composed`).
-/

namespace SourceSurvey

/-! ## From one visit to the walk over a statement -/

open Markings in
theorem Markings.Mirrors.foldlM {α : Type} {before s s' : Markings} {k n : Nat}
    {f g : Markings → α → Except MissingPattern Markings} (m : Mirrors before k n s s') (xs : List α)
    (step : ∀ x ∈ xs, ∀ s s', Mirrors before k n s s' → Mirrored before k n (f s x) (g s' x)) :
    Mirrored before k n (xs.foldlM f s) (xs.foldlM g s') := by
  induction xs generalizing s s' with
  | nil => exact m.ok
  | cons x rest ih =>
      obtain ⟨t, t', placed, alone, next⟩ := step x List.mem_cons_self s s' m
      rw [List.foldlM_cons, List.foldlM_cons, placed, alone]
      exact ih next fun y hy => step y (List.mem_cons_of_mem x hy)

namespace Placed

open Markings

variable {a a' : Arena} {k n : Nat} (h : Placed a a' k n) {root root' : Ancestor} (hr : root.IsRoot)
  (hr' : root'.IsRoot) {before s s' : Markings} (resolve : Option (String → Option String))

include h hr hr'

theorem visit {v : Visit} (hv : v.Inside n) (m : Mirrors before k n s s') :
    Mirrored before k n (Markings.visit a resolve s ((v.shift k).below root))
      (Markings.visit a' resolve s' (v.below root')) := by
  unfold Markings.visit
  rw [h.actions hv hr.kind hr'.kind]
  exact m.foldlM _ fun action mem t t' m => h.perform hv m resolve hr hr' mem

theorem walk {vs : List Visit} (hvs : ∀ v ∈ vs, v.Inside n) (m : Mirrors before k n s s') :
    Mirrored before k n
      ((vs.map fun v => (v.shift k).below root).foldlM (Markings.visit a resolve) s)
      ((vs.map (Visit.below root')).foldlM (Markings.visit a' resolve) s') := by
  rw [List.foldlM_map, List.foldlM_map]
  exact m.foldlM vs fun v hv t t' m => h.visit hr hr' resolve (hvs v hv) m

end Placed

/-! ## The root -/

def FlatNode.asRoot (root : FlatNode) : Ancestor := ⟨⟨root.field, root.kind⟩, 0⟩

theorem FlatNode.isRoot_asRoot {root : FlatNode} (hk : root.kind = "program") : root.asRoot.IsRoot :=
  ⟨hk, rfl⟩

theorem Visit.list_cons {root : FlatNode} (hd : root.depth = 0) (nodes : List FlatNode) :
    list (root :: nodes) =
      ⟨0, Trail.below root.asRoot {}⟩ :: listFrom (Trail.below root.asRoot {}) 1 nodes := by
  have entered : Trail.enter {} root.depth ⟨⟨root.field, root.kind⟩, 0⟩ = Trail.below root.asRoot {} := by
    rw [hd]
    exact Trail.enter_empty 0 root.asRoot
  rw [list, listFrom, entered]

theorem Visit.listFrom_alone (s : Statement) (root : Ancestor) :
    listFrom (Trail.below root {}) 1 s.nodes = (inner s).map (Visit.below root) := by
  have unmoved (v : Visit) : v.shift 0 = v := by
    show (⟨v.index, ⟨v.trail.nodes.map id, v.trail.inward⟩⟩ : Visit) = v
    rw [List.map_id]
  have visits := listFrom_statement s {} root 0
  simp only [unmoved] at visits
  exact visits

namespace Markings

variable {root : FlatNode} (resolve : Option (String → Option String))

/-- The walk starts below the root: the root itself is left as it is. -/
theorem ofNodes_cons (hk : root.kind = "program") (hd : root.depth = 0) (nodes : List FlatNode) :
    ofNodes (root :: nodes) resolve =
      (Visit.listFrom (Trail.below root.asRoot {}) 1 nodes).foldlM
        (visit (Arena.ofNodes (root :: nodes)) resolve) (init (nodes.length + 1)) := by
  have skipped (s : Markings) :
      visit (Arena.ofNodes (root :: nodes)) resolve s ⟨0, Trail.below root.asRoot {}⟩ = .ok s := by
    rw [visit, Visit.actions_root (FlatNode.isRoot_asRoot hk).kind]
    rfl
  rw [ofNodes, Visit.list_cons hd, List.foldlM_cons, skipped]
  rfl

/-! ## From statement to statement -/

/-- Nodes of the statements one after the other, each moved to the place of its statement, where `k`
nodes come before the first of them. -/
def gather (nodes : Statement → List Nat) : Nat → List Statement → List Nat
  | _, [] => []
  | k, s :: rest => (nodes s).map (· + k) ++ gather nodes (k + s.size) rest

/-- The markings `whole` are those of the statements laid one after the other over earlier ones, where
`k` nodes come before the first statement. -/
structure Composed (alone : Statement → Markings) (before : Markings) (k : Nat)
    (statements : List Statement) (whole : Markings) : Prop where
  earlier : ∀ j ≤ k, whole.mark j = before.mark j
  marks : ∀ front s back, statements = front ++ s :: back → ∀ i, 1 ≤ i → i ≤ s.size →
    whole.mark (i + (k + (front.flatMap Statement.nodes).length)) =
      ((alone s).mark i).shift (k + (front.flatMap Statement.nodes).length)
  attention : whole.attention = before.attention ++ gather (fun s => (alone s).attention) k statements
  components : whole.components = before.components ++ gather (fun s => (alone s).components) k statements

theorem Composed.nil {alone : Statement → Markings} {before : Markings} {k : Nat} :
    Composed alone before k [] before where
  earlier := fun _ _ => rfl
  marks := by
    intro front s back split
    exact absurd split (by simp)
  attention := (List.append_nil _).symm
  components := (List.append_nil _).symm

theorem Composed.cons {alone : Statement → Markings} {before next whole : Markings} {k : Nat} {s : Statement}
    {rest : List Statement} (m : Mirrors before k s.size next (alone s))
    (later : Composed alone next (k + s.size) rest whole) : Composed alone before k (s :: rest) whole where
  earlier := by
    intro j hj
    rw [later.earlier j (by omega), m.overlay, mark_overlay, if_neg (by omega)]
  marks := by
    intro front s' back split i h₁ h₂
    cases front with
    | nil =>
        -- the statement laid last so far: later ones leave its marks
        obtain ⟨rfl, rfl⟩ := List.cons.inj split
        show whole.mark (i + (k + 0)) = ((alone s).mark i).shift (k + 0)
        rw [Nat.add_zero, later.earlier _ (by omega), m.mark h₁ h₂]
    | cons first front =>
        obtain ⟨rfl, tail⟩ := List.cons.inj split
        have place := later.marks front s' back tail i h₁ h₂
        rw [List.flatMap_cons, List.length_append, ← Nat.add_assoc k]
        exact place
  attention := by
    rw [later.attention, m.attention, List.append_assoc]
    rfl
  components := by
    rw [later.components, m.overlay, overlay, List.append_assoc]
    rfl

/-- Below a root, what follows a statement is the top of another one. -/
theorem depth_head?_flatMap (rest : List Statement) :
    ∀ n ∈ (rest.flatMap Statement.nodes).head?, n.depth ≤ 1 := by
  intro n hn
  cases rest with
  | nil => cases hn
  | cons s later =>
      obtain rfl : s.head = n := Option.some.inj hn
      exact Nat.le_of_eq s.depth_head

section Walk

variable {root' : FlatNode} (hk : root.kind = "program") (hk' : root'.kind = "program")
  (hd' : root'.depth = 0)

include hk hk' hd'

/-- One statement of a program is walked through as it is alone. -/
theorem exists_mirrors (s : Statement) (front back : List FlatNode) {before : Markings}
    (hb : before.Enclosed front.length) (room : front.length + s.size < before.marks.size)
    (next : ∀ n ∈ back.head?, n.depth ≤ 1) (t : Trail) :
    ∃ after alone, (Visit.listFrom (t.below root.asRoot) (1 + front.length) s.nodes).foldlM
        (visit (Arena.ofNodes (root :: (front ++ s.nodes ++ back))) resolve) before = .ok after ∧
      ofNodes (root' :: s.nodes) resolve = .ok alone ∧
      Mirrors before front.length s.size after alone := by
  have start : Mirrors before front.length s.size before (init (s.size + 1)) :=
    ⟨hb, enclosed_init (Nat.lt_succ_self _), room, (overlay_init hb _).symm⟩
  have placed := placed_statement root root' front s next
  have walked := placed.walk (FlatNode.isRoot_asRoot hk) (FlatNode.isRoot_asRoot hk') resolve
    (Visit.inside_inner s) start
  obtain ⟨after, alone, run, run', m⟩ := walked
  refine ⟨after, alone, ?_, ?_, m⟩
  · rw [Visit.listFrom_statement]
    exact run
  · rw [ofNodes_cons resolve hk' hd', Visit.listFrom_alone]
    exact run'

/-- The walk over the rest of a program, with `front` behind it. -/
theorem exists_composed {alone : Statement → Markings}
    (each : ∀ s, ofNodes (root' :: s.nodes) resolve = .ok (alone s)) (statements : List Statement)
    (front : List FlatNode) {before : Markings} (hb : before.Enclosed front.length)
    (room : front.length + (statements.flatMap Statement.nodes).length < before.marks.size) (t : Trail) :
    ∃ whole, (Visit.listFrom (t.below root.asRoot) (1 + front.length)
        (statements.flatMap Statement.nodes)).foldlM
        (visit (Arena.ofNodes (root :: (front ++ statements.flatMap Statement.nodes))) resolve) before =
          .ok whole ∧
      Composed alone before front.length statements whole := by
  -- the arena of the whole program stays; a statement passes from what is to come to `front`, and the
  -- trail it leaves behind is any trail below the root
  induction statements generalizing front before t with
  | nil => exact ⟨before, rfl, Composed.nil⟩
  | cons s rest ih =>
      rw [List.flatMap_cons, List.length_append, ← Nat.add_assoc] at room
      obtain ⟨t', split⟩ := Visit.listFrom_append (t := t) (i := 1 + front.length) s.one_le_depth
        (rest.flatMap Statement.nodes)
      obtain ⟨after, own, walked, run, m⟩ := exists_mirrors resolve hk hk' hd' s front _ hb
        (Nat.lt_of_le_of_lt (Nat.le_add_right _ _) room)
        (depth_head?_flatMap rest) t
      obtain rfl : own = alone s := Except.ok.inj (run.symm.trans (each s))
      have length : (front ++ s.nodes).length = front.length + s.size := List.length_append
      have enclosed : after.Enclosed (front ++ s.nodes).length := by
        rw [length, m.overlay]
        exact m.front.overlay m.inside m.room
      have room' : (front ++ s.nodes).length + (rest.flatMap Statement.nodes).length < after.marks.size := by
        rw [length, m.overlay, size_overlay]
        exact room
      obtain ⟨whole, later, composed⟩ := ih (front ++ s.nodes) enclosed room' t'
      rw [length] at composed
      refine ⟨whole, ?_, composed.cons m⟩
      rw [List.flatMap_cons, split, List.foldlM_append, ← List.append_assoc, walked]
      rw [length, ← Nat.add_assoc] at later
      exact later

end Walk

theorem exists_alone (hk : root.kind = "program") (hd : root.depth = 0) (s : Statement) :
    ∃ alone, ofNodes (root :: s.nodes) resolve = .ok alone := by
  have blank : (init (s.size + 1)).Enclosed 0 := enclosed_init (Nat.succ_pos _)
  obtain ⟨_, alone, -, run, -⟩ := exists_mirrors resolve hk hk hd s [] [] blank (lt_size_init _)
    (fun n hn => nomatch hn) {}
  exact ⟨alone, run⟩

/-- **Every statement of a program is marked as if it stood alone.** The walk over a root with statements
below it comes to an end, as it does over each statement alone below a root. A node of a statement has
the same mark in both, with its link moved to the place of the statement. The nodes of interest and the
components of the program are those of the statements, moved and one statement after the other. -/
theorem ofNodes_statements {root root' : FlatNode} (hk : root.kind = "program") (hd : root.depth = 0)
    (hk' : root'.kind = "program") (hd' : root'.depth = 0) (resolve : Option (String → Option String)) :
    ∃ alone : Statement → Markings, (∀ s, ofNodes (root' :: s.nodes) resolve = .ok (alone s)) ∧
      ∀ statements : List Statement, ∃ whole,
        ofNodes (root :: statements.flatMap Statement.nodes) resolve = .ok whole ∧
        (∀ front s back, statements = front ++ s :: back → ∀ i, 1 ≤ i → i ≤ s.size →
          whole.mark (i + (front.flatMap Statement.nodes).length) =
            ((alone s).mark i).shift (front.flatMap Statement.nodes).length) ∧
        whole.attention = gather (fun s => (alone s).attention) 0 statements ∧
        whole.components = gather (fun s => (alone s).components) 0 statements := by
  have each := fun s => (exists_alone resolve hk' hd' s).choose_spec
  refine ⟨_, each, fun statements => ?_⟩
  have blank : (init ((statements.flatMap Statement.nodes).length + 1)).Enclosed 0 :=
    enclosed_init (Nat.succ_pos _)
  obtain ⟨whole, run, composed⟩ := exists_composed resolve hk hk' hd' each statements [] blank
    (lt_size_init _) {}
  refine ⟨whole, ?_, ?_, ?_, ?_⟩
  · rw [ofNodes_cons resolve hk hd]
    exact run
  · intro front s back split i h₁ h₂
    have place := composed.marks front s back split i h₁ h₂
    rwa [List.length_nil, Nat.zero_add] at place
  · rw [composed.attention, attention, init, List.mergeSort_nil]
    rfl
  · rw [composed.components]
    rfl

def bareRoot : FlatNode := ⟨0, "program", "", 1, 2, 0, 6, true, none⟩

/-- The statement `export let x`. -/
def exportedDeclaration : Statement where
  head := ⟨1, "export_statement", "export let x", 1, 1, 0, 12, true, none⟩
  body :=
    [⟨2, "export", "export", 1, 1, 0, 6, false, none⟩,
     ⟨2, "lexical_declaration", "let x", 1, 1, 7, 12, true, some "declaration"⟩,
     ⟨3, "variable_declarator", "x", 1, 1, 11, 12, true, none⟩,
     ⟨4, "identifier", "x", 1, 1, 11, 12, false, some "name"⟩]
  depth_head := rfl
  depth_body := by decide
  kind_head := by decide

/-- The statement `let y`. -/
def plainDeclaration : Statement where
  head := ⟨1, "lexical_declaration", "let y", 2, 2, 0, 5, true, none⟩
  body :=
    [⟨2, "variable_declarator", "y", 2, 2, 4, 5, true, none⟩,
     ⟨3, "identifier", "y", 2, 2, 4, 5, false, some "name"⟩]
  depth_head := rfl
  depth_body := by decide
  kind_head := by decide

/-- A declaration after an exported one: the name at node 8 is marked as the name at node 3 is alone. -/
theorem ofNodes_statements_after_export :
    bareRoot.kind = "program" ∧ bareRoot.depth = 0 ∧
      ∃ (alone : Statement → Markings) (whole : Markings),
        ofNodes (bareRoot :: plainDeclaration.nodes) none = .ok (alone plainDeclaration) ∧
        ofNodes (bareRoot :: (exportedDeclaration.nodes ++ plainDeclaration.nodes)) none = .ok whole ∧
        whole.mark 8 = ((alone plainDeclaration).mark 3).shift 5 ∧
        whole.attention =
          (alone exportedDeclaration).attention ++ (alone plainDeclaration).attention.map (· + 5) := by
  have hk : bareRoot.kind = "program" := rfl
  have hd : bareRoot.depth = 0 := rfl
  obtain ⟨alone, each, compose⟩ := ofNodes_statements hk hd hk hd none
  obtain ⟨whole, run, marks, attention, -⟩ := compose [exportedDeclaration, plainDeclaration]
  refine ⟨hk, hd, alone, whole, each _, ?_, ?_, ?_⟩
  · simpa using run
  · exact marks [exportedDeclaration] plainDeclaration [] rfl 3 (by decide) (by decide)
  · have size : exportedDeclaration.size = 5 := rfl
    simpa [gather, size] using attention

end Markings

end SourceSurvey
