import SourceSurvey.Proofs.Scan.Round

/-!
# The scan as a recursive traversal

The plain way to follow imports is recursive: visiting a file that is not known yet reads it, notes it
with its imports, and then visits the imports from left to right (`visit`, `visitAll`). A scan works off
a list instead, on which a file can stand several times and from which known files are left out early.
Both read the same files in the same order and leave the same memo.

- `visitAll_append`, `visitAll_filter` — visiting a list piece by piece, and without its known files.
- `Progress.outlook` — what a scan comes to if all that is pending is visited recursively. No round
  changes it (`outlook_round`), so a scan ends where the recursion ends (`run_eq_outlook`).
-/

namespace SourceSurvey.Scan

theorem unread_le_of_grows {d : Disk} {memo after : Memo} (h : memo <+: after) :
    unread d after ≤ unread d memo := by
  obtain ⟨more, rfl⟩ := h
  apply List.countP_mono_left
  intro k _ hk
  simp only [Memo.has_append, Bool.not_or, Bool.and_eq_true] at hk
  exact hk.1

/-- What visiting comes to: the files read, in order, and the memo afterwards. -/
structure Visited (memo : Memo) where
  reads : List Location
  after : Memo
  grows : memo <+: after

mutual

/-- Visits a file: nothing if it is known, otherwise it is read, noted and its imports are visited. A file
that cannot be read is not noted. -/
def visit (r : Resolver) (base : String) (memo : Memo) (l : Location) : Visited memo :=
  if _hm : memo.has l then ⟨[], memo, List.prefix_refl _⟩
  else match _hr : r.workspace.disk.read l.names with
    | .error _ => ⟨[l], memo, List.prefix_refl _⟩
    | .ok bytes =>
      let imports := importsOf r base l (textDropping bytes)
      let below := visitAll r base (memo ++ [(l, imports)]) imports
      ⟨l :: below.reads, below.after, (List.prefix_append _ _).trans below.grows⟩
termination_by (unread r.workspace.disk memo, 0)
decreasing_by
  exact Prod.Lex.left _ _ (unread_append_lt (mem_locations_of_read _hr) (by simpa using _hm))

def visitAll (r : Resolver) (base : String) (memo : Memo) : List Location → Visited memo
  | [] => ⟨[], memo, List.prefix_refl _⟩
  | l :: ls =>
    let first := visit r base memo l
    let rest := visitAll r base first.after ls
    ⟨first.reads ++ rest.reads, rest.after, first.grows.trans rest.grows⟩
termination_by ls => (unread r.workspace.disk memo, ls.length + 1)
decreasing_by
  · exact Prod.Lex.right _ (Nat.succ_pos _)
  · rcases Nat.lt_or_eq_of_le (unread_le_of_grows first.grows) with h | h
    · exact Prod.Lex.left _ _ h
    · rw [h]
      exact Prod.Lex.right _ (Nat.lt_succ_self _)

end

variable (r : Resolver) (base : String) {memo : Memo} {l : Location}

/-! ## Visiting one file -/

theorem visit_known (known : memo.has l = true) :
    visit r base memo l = ⟨[], memo, List.prefix_refl _⟩ := by
  rw [visit, dif_pos known]

theorem visit_failed {cause : ReadError} (new : memo.has l = false)
    (failed : r.workspace.disk.read l.names = .error cause) :
    visit r base memo l = ⟨[l], memo, List.prefix_refl _⟩ := by
  rw [visit, dif_neg (by simp [new])]
  split
  · rfl
  · next read => rw [failed] at read; cases read

theorem visit_noted {bytes : Bytes} {imports : List Location} (new : memo.has l = false)
    (read : r.workspace.disk.read l.names = .ok bytes)
    (found : imports = importsOf r base l (textDropping bytes)) :
    (visit r base memo l).reads = l :: (visitAll r base (memo ++ [(l, imports)]) imports).reads ∧
      (visit r base memo l).after = (visitAll r base (memo ++ [(l, imports)]) imports).after := by
  subst found
  rw [visit, dif_neg (by simp [new])]
  split
  · next failed => rw [read] at failed; cases failed
  · next read' =>
    rw [read] at read'
    obtain rfl := Except.ok.inj read'
    exact ⟨rfl, rfl⟩

/-! ## Visiting a list -/

@[simp] theorem reads_visitAll_nil : (visitAll r base memo []).reads = [] := by
  rw [visitAll]

@[simp] theorem after_visitAll_nil : (visitAll r base memo []).after = memo := by
  rw [visitAll]

theorem reads_visitAll_cons (ls : List Location) :
    (visitAll r base memo (l :: ls)).reads =
      (visit r base memo l).reads ++ (visitAll r base (visit r base memo l).after ls).reads := by
  rw [visitAll]

theorem after_visitAll_cons (ls : List Location) :
    (visitAll r base memo (l :: ls)).after =
      (visitAll r base (visit r base memo l).after ls).after := by
  rw [visitAll]

theorem visitAll_append (memo : Memo) (ls ks : List Location) :
    (visitAll r base memo (ls ++ ks)).reads =
        (visitAll r base memo ls).reads ++ (visitAll r base (visitAll r base memo ls).after ks).reads ∧
      (visitAll r base memo (ls ++ ks)).after =
        (visitAll r base (visitAll r base memo ls).after ks).after := by
  induction ls generalizing memo with
  | nil =>
      rw [List.nil_append, reads_visitAll_nil, after_visitAll_nil]
      exact ⟨rfl, rfl⟩
  | cons l ls ih =>
      obtain ⟨ihReads, ihAfter⟩ := ih (visit r base memo l).after
      constructor
      · rw [List.cons_append, reads_visitAll_cons, reads_visitAll_cons, after_visitAll_cons, ihReads,
          List.append_assoc]
      · rw [List.cons_append, after_visitAll_cons, after_visitAll_cons, ihAfter]

/-- Files that are known at the start, and so still known when their turn comes, can be left out. -/
theorem visitAll_filter (known : Memo) (ls : List Location) (h : known <+: memo) :
    (visitAll r base memo (ls.filter fun k => !known.has k)).reads = (visitAll r base memo ls).reads ∧
      (visitAll r base memo (ls.filter fun k => !known.has k)).after =
        (visitAll r base memo ls).after := by
  induction ls generalizing memo with
  | nil => exact ⟨rfl, rfl⟩
  | cons l ls ih =>
      rw [reads_visitAll_cons, after_visitAll_cons]
      by_cases hl : known.has l = true
      · have hm : memo.has l = true := by
          obtain ⟨more, rfl⟩ := h
          simp [hl]
        rw [List.filter_cons_of_neg (by simp [hl]), visit_known r base hm]
        exact ih h
      · rw [List.filter_cons_of_pos (by simp [hl]), reads_visitAll_cons, after_visitAll_cons]
        obtain ⟨ihReads, ihAfter⟩ := ih (h.trans (visit r base memo l).grows)
        rw [ihReads, ihAfter]
        exact ⟨rfl, rfl⟩

/-! ## The loop invariant -/

/-- What a scan comes to if all that is pending is visited recursively. -/
def Progress.outlook (r : Resolver) (base : String) (p : Progress) : List Location × Memo :=
  (p.reads ++ (visitAll r base p.memo p.pending).reads, (visitAll r base p.memo p.pending).after)

/-- **No round changes the outlook.** Whatever stands on the list, known files and repetitions included,
stands for the visits that the recursion still has to make. -/
theorem outlook_round {p q : Progress} (h : Round r base p q) : q.outlook r base = p.outlook r base := by
  cases h with
  | pass known =>
      rw [Progress.outlook, Progress.outlook, reads_visitAll_cons, after_visitAll_cons, visit_known r base known]
      rfl
  | fail new failed =>
      rw [Progress.outlook, Progress.outlook, reads_visitAll_cons, after_visitAll_cons,
        visit_failed r base new failed]
      simp only [List.append_assoc]
  | @note l pending memo reads bytes imports new read found =>
      obtain ⟨hReads, hAfter⟩ := visit_noted r base new read found
      -- the imports on the list are those that the recursion visits below the file
      obtain ⟨fReads, fAfter⟩ := visitAll_filter r base (memo ++ [(l, imports)]) imports
        (List.prefix_refl _)
      obtain ⟨aReads, aAfter⟩ := visitAll_append r base (memo ++ [(l, imports)])
        (imports.filter fun k => !Memo.has (memo ++ [(l, imports)]) k) pending
      rw [Progress.outlook, Progress.outlook, reads_visitAll_cons, after_visitAll_cons, hAfter, hReads]
      show (_ ++ (visitAll r base _ _).reads, (visitAll r base _ _).after) = _
      rw [aReads, aAfter, fAfter, fReads]
      simp only [List.append_assoc, List.cons_append, List.nil_append]

theorem run_eq_outlook (p : Progress) :
    run r base p = ⟨[], (p.outlook r base).2, (p.outlook r base).1⟩ := by
  have kept : (run r base p).outlook r base = p.outlook r base :=
    run_keeps (fun h hq => (outlook_round r base h).trans hq) rfl
  have done : (run r base p).pending = [] := pending_run r base p
  generalize run r base p = last at kept done ⊢
  obtain ⟨pending, memo, reads⟩ := last
  subst done
  rw [← kept, Progress.outlook, reads_visitAll_nil, after_visitAll_nil, List.append_nil]

theorem outlook_start (memo : Memo) (l : Location) :
    Progress.outlook r base { pending := [l], memo } =
      ((visit r base memo l).reads, (visit r base memo l).after) := by
  rw [Progress.outlook, reads_visitAll_cons, after_visitAll_cons, reads_visitAll_nil, after_visitAll_nil,
    List.append_nil]
  rfl

end SourceSurvey.Scan

namespace SourceSurvey

open Scan

/-- **A scan is the recursive traversal.** From any memo and any entry file, the rounds of the scan come
to an end, and by then they have read the files that the recursive visit of the entry reads, in the same
order, and have left the memo that it leaves; the scan of the session gives that memo and reports those
reads. -/
theorem Session.scan_eq_visit (s : Session) (w : Workspace) (entry : String) :
    let r : Resolver := ⟨w, s.extensions⟩
    let visited := visit r s.base s.memo (w.locate entry)
    Relation.ReflTransGen (fun p q : Progress => p.next? r s.base = some q)
        { pending := [w.locate entry], memo := s.memo }
        { pending := [], memo := visited.after, reads := visited.reads } ∧
      s.scan w entry =
        { value := { s with memo := visited.after }, log := visited.reads.flatMap (records r s.base) } := by
  intro r visited
  have start : Progress.outlook r s.base { pending := [w.locate entry], memo := s.memo } =
      (visited.reads, visited.after) := outlook_start r s.base s.memo (w.locate entry)
  have done := run_eq_outlook r s.base { pending := [w.locate entry], memo := s.memo }
  rw [start] at done
  constructor
  · rw [← done]
    exact rounds_run r s.base _
  · rw [Session.scan, done]

end SourceSurvey
