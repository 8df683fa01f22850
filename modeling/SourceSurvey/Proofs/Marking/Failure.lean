import SourceSurvey.Proofs.Marking.Inner
import SourceSurvey.Proofs.Tree.Listing

/-!
# When a walk cannot go on

An action fails in one case only: an object pattern is the value of a pair that has nothing around it
(`Visit.Stuck`). Below a root this takes the root to be the pair, so the walk over a tree with any other
root comes to its end (`Markings.exists_ofNodes`).
-/

namespace SourceSurvey

/-- The visited node is held as a value by a pair pattern that is the outermost node of the trail. -/
def Visit.Stuck (a : Arena) (v : Visit) : Prop :=
  a.field v.index = some "value" ∧ ∃ x pair, v.trail.nodes = [x, pair] ∧ pair.kind = "pair_pattern"

namespace MarkAction

variable {action : MarkAction} {a : Arena} {resolve : Option (String → Option String)} {v : Visit}
  {s : Markings} {e : MissingPattern}

theorem bindingOf_eq_error_iff : bindingOf a v s = .error e ↔ v.Stuck a ∧ e = ⟨v.index⟩ := by
  constructor
  · intro h
    unfold bindingOf at h
    split at h
    · cases h
    next pair out =>
    split at h
    · cases h
    split at h
    · cases h
    split at h
    · next is_value =>
      simp only [Bool.and_eq_true, beq_iff_eq] at is_value
      split at h
      · next ends =>
        cases h
        refine ⟨⟨is_value.2, ?_⟩, rfl⟩
        unfold Trail.outward? at out ends
        rcases nodes : v.trail.nodes with _ | ⟨x, _ | ⟨y, _ | ⟨z, outer⟩⟩⟩
        · rw [nodes] at out
          cases out
        · rw [nodes] at out
          cases out
        · rw [nodes] at out
          cases out
          exact ⟨x, pair, rfl, is_value.1⟩
        · rw [nodes] at ends
          cases ends
      · split at h
        · cases h
        · cases h
    · cases h
  · rintro ⟨⟨field, x, pair, nodes, kind⟩, rfl⟩
    have out : v.trail.outward? 1 = some pair := by rw [Trail.outward?, nodes]; rfl
    have ends : v.trail.outward? 2 = none := by rw [Trail.outward?, nodes]; rfl
    simp [bindingOf, out, ends, kind, field]

/-- **An action fails exactly on an object pattern that is stuck.** -/
theorem perform_eq_error_iff : action.perform a resolve v s = .error e ↔
    action = objectPattern ∧ v.Stuck a ∧ e = ⟨v.index⟩ := by
  cases action with
  | objectPattern =>
      rw [← bindingOf_eq_error_iff (s := s)]
      simp only [perform, true_and]
      cases bindingOf a v s with
      | error e' => exact ⟨fun h => by cases h; rfl, fun h => by cases h; rfl⟩
      | ok b =>
          cases b with
          | none => exact ⟨nofun, nofun⟩
          | some b => exact ⟨nofun, nofun⟩
  | returnedComponent | patternField | functionValue =>
      constructor
      · intro h
        simp only [perform] at h
        repeat' split at h
        all_goals cases h
      · rintro ⟨h, -⟩
        cases h
  | _ =>
      constructor
      · intro h
        cases h
      · rintro ⟨h, -⟩
        cases h

end MarkAction

theorem exists_foldlM {ε σ β : Type} {f : σ → β → Except ε σ} {l : List β}
    (step : ∀ x ∈ l, ∀ s e, f s x ≠ .error e) (s : σ) : ∃ t, l.foldlM f s = .ok t := by
  induction l generalizing s with
  | nil => exact ⟨s, rfl⟩
  | cons x rest ih =>
      rw [List.foldlM_cons]
      cases first : f s x with
      | error e => exact absurd first (step x List.mem_cons_self s e)
      | ok t => exact ih (fun y hy => step y (List.mem_cons_of_mem x hy)) t

namespace Visit

variable {a : Arena} {root : Ancestor}

theorem exists_below {nodes : List FlatNode} (deep : ∀ n ∈ nodes, 1 ≤ n.depth) {t : Trail} {i : Nat} {v : Visit}
    (hv : v ∈ listFrom (t.below root) i nodes) : ∃ x u w, v.trail = Trail.below root ⟨x :: u, w⟩ := by
  induction nodes generalizing t i with
  | nil => cases hv
  | cons n rest ih =>
      rw [listFrom, Trail.enter_below (deep n List.mem_cons_self)] at hv
      rcases List.mem_cons.mp hv with rfl | hv
      · exact ⟨_, _, _, rfl⟩
      · exact ih (fun m hm => deep m (List.mem_cons_of_mem n hm)) hv

theorem not_stuck {root : FlatNode} {rest : List FlatNode} (other : root.kind ≠ "pair_pattern")
    (deep : ∀ n ∈ rest, 1 ≤ n.depth) {v : Visit} (hv : v ∈ list (root :: rest)) : ¬ v.Stuck a := by
  have start : ({} : Trail).enter root.depth ⟨⟨root.field, root.kind⟩, 0⟩ =
      Trail.below ⟨⟨root.field, root.kind⟩, 0⟩ {} := Trail.enter_empty root.depth _
  rintro ⟨-, x, pair, nodes, kind⟩
  rw [list, listFrom, start] at hv
  rcases List.mem_cons.mp hv with rfl | hv
  · cases nodes
  · obtain ⟨y, u, w, trail⟩ := exists_below deep hv
    rw [trail] at nodes
    -- of two nodes the outer one is the root
    obtain rfl : u = [] := by
      have := congrArg List.length nodes
      simpa [Trail.below] using this
    cases nodes
    exact other kind

end Visit

/-- **Below a root that is no pair pattern the walk comes to its end.** -/
theorem Markings.exists_ofNodes {root : FlatNode} {rest : List FlatNode} (other : root.kind ≠ "pair_pattern")
    (deep : ∀ n ∈ rest, 1 ≤ n.depth) (resolve : Option (String → Option String)) :
    ∃ s, ofNodes (root :: rest) resolve = .ok s := by
  refine exists_foldlM ?_ _
  intro v hv s e failed
  have step : ∀ action ∈ v.actions (Arena.ofNodes (root :: rest)), ∀ s e,
      action.perform (Arena.ofNodes (root :: rest)) resolve v s ≠ .error e := by
    intro action _ s e failed
    exact Visit.not_stuck other deep hv (MarkAction.perform_eq_error_iff.mp failed).2.1
  obtain ⟨t, ended⟩ := exists_foldlM step s
  rw [visit, ended] at failed
  cases failed

theorem ParsedSource.exists_ofNodes (source : ParsedSource) (other : source.root.info.kind ≠ "pair_pattern")
    (resolve : Option (String → Option String)) : ∃ s, Markings.ofNodes source.nodes resolve = .ok s := by
  obtain ⟨rest, listed, deep⟩ := SyntaxTree.exists_listing source.root
  rw [nodes_eq, listed, List.map_cons]
  refine Markings.exists_ofNodes other ?_ resolve
  intro n hn
  obtain ⟨row, hrow, rfl⟩ := List.mem_map.mp hn
  exact deep row hrow

end SourceSurvey
