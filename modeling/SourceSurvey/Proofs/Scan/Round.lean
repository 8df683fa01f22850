import Mathlib.Logic.Relation
import SourceSurvey.Scan

/-!
# Rounds of a scan

What one round of a scan can do, as a relation with one constructor for each of its three outcomes, and
the two facts through which every later statement about a scan goes: a scan is a finite series of rounds
that ends with nothing pending (`rounds_run`, `pending_run`), and what every round keeps, the scan keeps
(`run_keeps`). A scan of a given workspace can be computed round by round (`run_eq_rounds`).
-/

namespace SourceSurvey.Scan

/-- What one round does: pass over a known file, fail to read a file, or read it and note its imports. -/
inductive Round (r : Resolver) (base : String) : Progress → Progress → Prop
  | pass {l : Location} {pending : List Location} {memo : Memo} {reads : List Location}
      (known : memo.has l = true) : Round r base ⟨l :: pending, memo, reads⟩ ⟨pending, memo, reads⟩
  | fail {l : Location} {pending : List Location} {memo : Memo} {reads : List Location} {cause : ReadError}
      (new : memo.has l = false) (failed : r.workspace.disk.read l.names = .error cause) :
      Round r base ⟨l :: pending, memo, reads⟩ ⟨pending, memo, reads ++ [l]⟩
  | note {l : Location} {pending : List Location} {memo : Memo} {reads : List Location} {bytes : Bytes}
      {imports : List Location} (new : memo.has l = false)
      (read : r.workspace.disk.read l.names = .ok bytes)
      (found : imports = importsOf r base l (textDropping bytes)) :
      Round r base ⟨l :: pending, memo, reads⟩
        ⟨imports.filter (fun k => !Memo.has (memo ++ [(l, imports)]) k) ++ pending,
          memo ++ [(l, imports)], reads ++ [l]⟩

variable {r : Resolver} {base : String} {p q : Progress}

theorem round_of_next? (h : p.next? r base = some q) : Round r base p q := by
  obtain ⟨pending, memo, reads⟩ := p
  cases pending with
  | nil => cases h
  | cons l pending =>
      simp only [Progress.next?] at h
      split at h
      · next known =>
        obtain rfl := Option.some.inj h
        exact .pass known
      · next new =>
        have new : memo.has l = false := by simpa using new
        split at h
        · next failed =>
          obtain rfl := Option.some.inj h
          exact .fail new failed
        · next read =>
          obtain rfl := Option.some.inj h
          exact .note new read rfl

theorem pending_eq_nil_of_next? (h : p.next? r base = none) : p.pending = [] := by
  obtain ⟨pending, memo, reads⟩ := p
  cases pending with
  | nil => rfl
  | cons l pending =>
      simp only [Progress.next?] at h
      split at h
      · cases h
      · split at h <;> cases h

variable (r base)

theorem rounds_run (p : Progress) :
    Relation.ReflTransGen (fun p q : Progress => p.next? r base = some q) p (run r base p) := by
  fun_induction run r base p with
  | case1 p h => exact .refl
  | case2 p q h ih => exact .head h ih

theorem pending_run (p : Progress) : (run r base p).pending = [] := by
  fun_induction run r base p with
  | case1 p h => exact pending_eq_nil_of_next? h
  | case2 p q h ih => exact ih

variable {r base}

/-- **What every round keeps, the scan keeps.** -/
theorem run_keeps {P : Progress → Prop} (step : ∀ {p q}, Round r base p q → P p → P q)
    (h : P p) : P (run r base p) := by
  have rounds := rounds_run r base p
  generalize run r base p = last at rounds ⊢
  induction rounds with
  | refl => exact h
  | tail _ next ih => exact step (round_of_next? next) ih

/-! ## Counted rounds -/

/-- The progress after a number of rounds. Unlike the whole scan it can be computed in a proof. -/
def rounds (r : Resolver) (base : String) : Nat → Progress → Progress
  | 0, p => p
  | n + 1, p =>
    match p.next? r base with
    | none => p
    | some q => rounds r base n q

theorem run_of_next?_none (h : p.next? r base = none) : run r base p = p := by
  rw [run]
  split
  · rfl
  · next more => cases h.symm.trans more

theorem run_of_next?_some (h : p.next? r base = some q) : run r base p = run r base q := by
  rw [run]
  split
  · next last => cases h.symm.trans last
  · next more => rw [Option.some.inj (more.symm.trans h)]

/-- Rounds that leave nothing pending are the whole scan. -/
theorem run_eq_rounds (n : Nat) (done : (rounds r base n p).pending = []) :
    run r base p = rounds r base n p := by
  induction n generalizing p with
  | zero =>
      refine run_of_next?_none ?_
      rw [Progress.next?, show p.pending = [] from done]
  | succ n ih =>
      rw [rounds] at done ⊢
      cases h : p.next? r base with
      | none => exact run_of_next?_none h
      | some q =>
          rw [h] at done
          exact (run_of_next?_some h).trans (ih done)

end SourceSurvey.Scan

namespace SourceSurvey

theorem Session.memo_scan_eq_rounds (s : Session) (w : Workspace) (entry : String) (n : Nat)
    (done : (Scan.rounds ⟨w, s.extensions⟩ s.base n { pending := [w.locate entry], memo := s.memo }).pending = []) :
    (s.scan w entry).value.memo =
      (Scan.rounds ⟨w, s.extensions⟩ s.base n { pending := [w.locate entry], memo := s.memo }).memo := by
  rw [scan, Scan.run_eq_rounds n done]

end SourceSurvey
