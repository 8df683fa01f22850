import Mathlib.Data.List.Nodup
import SourceSurvey.Proofs.Path.Relative
import SourceSurvey.Proofs.Scan.History
import SourceSurvey.Proofs.Scan.Reach

/-!
# Every scanned file has a name of its own

Files are shown as seen from a base directory. Such a name leads back to the file, so two files never
share one, and neither the sources of a session nor the imports of a file repeat themselves when they are
shown (`Workspace.relative_leads_back`). A location that starts with two slashes is left out: it looks the
same as the one with a single slash.
-/

namespace SourceSurvey

/-- Whatever the resolver answers is what some path means in the workspace. -/
theorem Resolver.exists_locate {r : Resolver} {fromDir baseDir specifier : String} {l : Location}
    (h : r.resolve? fromDir baseDir specifier = some l) : ∃ path, r.workspace.locate path = l := by
  have completed (root path : String) (hl : l ∈ r.complete root path) : ∃ path, r.workspace.locate path = l := by
    obtain ⟨ext, -, rfl⟩ := List.mem_map.mp hl
    exact ⟨_, rfl⟩
  unfold resolve? at h
  split at h
  · cases h
  split at h
  · exact completed _ _ (List.mem_of_find?_eq_some h)
  split at h
  · exact ⟨specifier, Option.some.inj h⟩
  · obtain ⟨root, -, candidate⟩ := List.mem_flatMap.mp (List.mem_of_find?_eq_some h)
    rcases List.mem_append.mp candidate with candidate | candidate
    · exact completed _ _ candidate
    · exact completed _ _ candidate

/-- Every file is noted once and every import of a file once, all in normal form. -/
structure Memo.Proper (memo : Memo) : Prop where
  distinct : (memo.map Prod.fst).Nodup
  normal : ∀ e ∈ memo, e.1.IsNormal
  imports : ∀ e ∈ memo, e.2.Nodup ∧ ∀ k ∈ e.2, k.IsNormal

namespace Scan

variable {r : Resolver} {base : String} {first l k : Location}

theorem isNormal_of_mem_importsOf (cwd : r.workspace.cwd.IsNormal) {source : String}
    (h : k ∈ importsOf r base l source) : k.IsNormal := by
  obtain ⟨specifier, -, resolved⟩ := List.mem_filterMap.mp (List.mem_eraseDups.mp h)
  obtain ⟨path, rfl⟩ := Resolver.exists_locate resolved
  exact Location.isNormal_resolve (Or.inr cwd)

theorem Reaches.isNormal (cwd : r.workspace.cwd.IsNormal) (hfirst : first.IsNormal)
    (reached : Reaches r base first l) : l.IsNormal := by
  induction reached with
  | refl => exact hfirst
  | tail _ imports _ =>
      obtain ⟨bytes, -, hl⟩ := imports
      exact isNormal_of_mem_importsOf cwd hl

end Scan

theorem Session.proper_scan {s : Session} {w : Workspace} {entry : String} (cwd : w.cwd.IsNormal)
    (h : s.memo.Proper) : (s.scan w entry).value.memo.Proper := by
  have f := s.frontier_scan w entry
  have entered : (w.locate entry).IsNormal := Location.isNormal_resolve (Or.inr cwd)
  refine ⟨f.distinct h.distinct, ?_, ?_⟩
  · intro e he
    rcases f.noted e he with old | ⟨-, reached, -⟩
    · exact h.normal e old
    · exact reached.isNormal cwd entered
  · intro e he
    rcases f.noted e he with old | ⟨⟨bytes, -, found⟩, -, -⟩
    · exact h.imports e old
    · rw [found]
      exact ⟨(firstOccurrences_eraseDups _).distinct, fun k hk => Scan.isNormal_of_mem_importsOf cwd hk⟩

namespace SessionState

variable {s : SessionState}

theorem cwd_run (events : List SessionEvent) : (s.run events).workspace.cwd = s.workspace.cwd ∧
    (s.run events).session.base = s.session.base := by
  induction events using List.reverseRecOn with
  | nil => exact ⟨rfl, rfl⟩
  | append_singleton events e ih =>
      rw [run_snoc]
      cases e <;> exact ih

theorem proper_run (cwd : s.workspace.cwd.IsNormal) (start : s.session.memo.Proper)
    (events : List SessionEvent) : (s.run events).session.memo.Proper := by
  induction events using List.reverseRecOn with
  | nil => exact start
  | append_singleton events e ih =>
      rw [run_snoc]
      cases e with
      | scan entry => exact Session.proper_scan (by rwa [(cwd_run events).1]) ih
      | write names content => exact ih
      | remove names => exact ih

end SessionState

namespace Workspace

variable {w : Workspace} {base : String}

theorem nodup_map_relative (single : (w.locate base).doubled = false) {locations : List Location}
    (distinct : locations.Nodup) (normal : ∀ l ∈ locations, l.IsNormal)
    (plain : ∀ l ∈ locations, l.doubled = false) : (locations.map (w.relative · base)).Nodup := by
  refine List.Nodup.map_on ?_ distinct
  intro l hl k hk h
  exact eq_of_relative_eq (normal l hl) (normal k hk) (by rw [plain l hl, single])
    (by rw [plain k hk, single]) h

/-- **A name as seen from a base leads back.** For a base that does not start with exactly two slashes:
an absolute path in normal form that does not either, written as seen from the base and then followed from
the base, is the path again, so two such paths are never written alike. After every series of scans,
writes and removals the sources of the session are distinct, and so are the imports of every file. -/
theorem relative_leads_back (w : Workspace) (base : String) (single : (w.locate base).doubled = false) :
    (∀ p : Location, p.IsNormal → p.doubled = false →
      (w.locate (Path.join base (w.relative (w.locate p.text) base))).text = p.text) ∧
    (∀ p q : Location, p.IsNormal → q.IsNormal → p.doubled = false → q.doubled = false →
      w.relative (w.locate p.text) base = w.relative (w.locate q.text) base → p = q) ∧
    (w.cwd.IsNormal → ∀ (extensions : List String) (events : List SessionEvent),
      let state := SessionState.run ⟨w, { base, extensions }⟩ events
      let edges := state.session.edges state.workspace
      ((∀ e ∈ state.session.memo, e.1.doubled = false) → (edges.map Edge.source).Nodup) ∧
      ((∀ e ∈ state.session.memo, ∀ k ∈ e.2, k.doubled = false) → ∀ edge ∈ edges, edge.imports.Nodup)) := by
  refine ⟨?_, ?_, ?_⟩
  · intro p normal plain
    have meant : w.locate p.text = p := Location.resolve_text w.cwd normal
    rw [meant, locate_join_relative normal (by rw [plain, single])]
  · intro p q hp hq plain plain' h
    have meant : w.locate p.text = p := Location.resolve_text w.cwd hp
    have meant' : w.locate q.text = q := Location.resolve_text w.cwd hq
    rw [meant, meant'] at h
    exact eq_of_relative_eq hp hq (by rw [plain, single]) (by rw [plain', single]) h
  · intro cwd extensions events state edges
    have proper : state.session.memo.Proper := by
      have fresh : Memo.Proper [] := ⟨List.nodup_nil, (fun _ h => nomatch h), (fun _ h => nomatch h)⟩
      exact SessionState.proper_run (s := ⟨w, { base, extensions }⟩) cwd fresh events
    obtain ⟨same_cwd, same_base⟩ := SessionState.cwd_run (s := ⟨w, { base, extensions }⟩) events
    have single : (state.workspace.locate state.session.base).doubled = false := by
      rw [same_base, locate, same_cwd]
      exact single
    constructor
    · intro plain
      have shown : edges.map Edge.source =
          (state.session.memo.map Prod.fst).map (state.workspace.relative · state.session.base) := by
        rw [List.map_map]
        exact List.map_map
      rw [shown]
      refine nodup_map_relative single proper.distinct ?_ ?_
      · exact List.forall_mem_map.mpr proper.normal
      · exact List.forall_mem_map.mpr plain
    · intro plain edge hedge
      obtain ⟨e, he, rfl⟩ := List.mem_map.mp hedge
      exact nodup_map_relative single (proper.imports e he).1 (proper.imports e he).2 (plain e he)

/-- Two scanned files as they are seen from a directory beside their own. -/
theorem relative_leads_back_beside :
    let w : Workspace :=
      ⟨{ directories := [["src"]], files := [(["src", "a.ts"], []), (["src", "b.ts"], [])] }, { names := ["src"] }⟩
    let p : Location := { names := ["src", "a.ts"] }
    let state := SessionState.run ⟨w, { base := "../lib" }⟩ [.scan "a.ts", .scan "b.ts"]
    (w.locate "../lib").doubled = false ∧ p.IsNormal ∧ w.cwd.IsNormal ∧
      (w.locate (Path.join "../lib" (w.relative (w.locate p.text) "../lib"))).text = p.text ∧
      state.session.memo = [({ names := ["src", "a.ts"] }, []), ({ names := ["src", "b.ts"] }, [])] ∧
      ((state.session.edges state.workspace).map Edge.source).Nodup := by
  intro w p state
  have single : (w.locate "../lib").doubled = false := by decide
  have normal : p.IsNormal := by decide
  have cwd : w.cwd.IsNormal := by decide
  have first : (Session.scan { base := "../lib" } w "a.ts").value.memo = [({ names := ["src", "a.ts"] }, [])] := by
    rw [Session.memo_scan_eq_rounds _ _ _ 1 (by decide +kernel)]
    decide +kernel
  have second : (Session.scan { base := "../lib", memo := [({ names := ["src", "a.ts"] }, [])] } w
      "b.ts").value.memo = [({ names := ["src", "a.ts"] }, []), ({ names := ["src", "b.ts"] }, [])] := by
    rw [Session.memo_scan_eq_rounds _ _ _ 1 (by decide +kernel)]
    decide +kernel
  have memo : state.session.memo =
      [({ names := ["src", "a.ts"] }, []), ({ names := ["src", "b.ts"] }, [])] := by
    rw [← second, ← first]
    rfl
  obtain ⟨back, -, scanned⟩ := relative_leads_back w "../lib" single
  refine ⟨single, normal, cwd, back p normal rfl, memo, (scanned cwd _ _).1 ?_⟩
  show ∀ e ∈ state.session.memo, e.1.doubled = false
  rw [memo]
  decide

end Workspace

end SourceSurvey
