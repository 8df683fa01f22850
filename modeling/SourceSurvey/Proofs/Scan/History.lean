import Mathlib.Data.List.Induction
import SourceSurvey.Proofs.Resolver
import SourceSurvey.Proofs.Scan.Frontier

/-!
# The history of a session

Scans of one session share its memo, and between them files are written and removed. The memo then
tells about several disks at once: it is never brought up to date. It stays orderly all the same
(`Memo.Orderly`): every file is noted once, and the files that a noted file imports are noted too. What
one scan keeps (`orderly_scan`), every history keeps (`orderly_run`).
-/

namespace SourceSurvey

/-- Every file is noted once, and with it the files it imports. -/
structure Memo.Orderly (memo : Memo) : Prop where
  distinct : (memo.map Prod.fst).Nodup
  closed : ∀ l imports, (l, imports) ∈ memo → ∀ k ∈ imports, k ∈ memo.map Prod.fst

/-- What the resolver finds can be read. -/
def Resolver.Dependable (r : Resolver) : Prop :=
  ∀ fromDir baseDir specifier l, r.resolve? fromDir baseDir specifier = some l →
    Scan.Readable r.workspace.disk l

theorem Resolver.dependable_of_barred {r : Resolver} (h : r.workspace.disk.barred = []) :
    r.Dependable := by
  intro fromDir baseDir specifier l found
  obtain ⟨bytes, content⟩ := Option.isSome_iff_exists.mp (isFile_of_resolve? found)
  refine ⟨bytes, ?_⟩
  rw [Disk.read, h, content]
  rfl

namespace Session

variable {s : Session} {w : Workspace} {entry : String}

theorem frontier_scan (s : Session) (w : Workspace) (entry : String) :
    Scan.Frontier ⟨w, s.extensions⟩ s.base s.memo (w.locate entry)
      (Scan.run ⟨w, s.extensions⟩ s.base { pending := [w.locate entry], memo := s.memo }) :=
  (Scan.Frontier.start s.memo (w.locate entry)).run

theorem memo_grows_scan : s.memo <+: (s.scan w entry).value.memo :=
  (s.frontier_scan w entry).grows

/-- **A scan keeps the memo orderly.** An import that was noted before the scan is noted still; a new one
was found by the resolver on the disk of the scan, so it could be read when its turn came. -/
theorem orderly_scan (dependable : Resolver.Dependable ⟨w, s.extensions⟩) (h : s.memo.Orderly) :
    (s.scan w entry).value.memo.Orderly := by
  have f := s.frontier_scan w entry
  have done := Scan.pending_run ⟨w, s.extensions⟩ s.base { pending := [w.locate entry], memo := s.memo }
  refine ⟨f.distinct h.distinct, ?_⟩
  intro l imports he k hk
  rcases f.noted (l, imports) he with old | ⟨⟨bytes, -, found⟩, -, settled⟩
  · obtain ⟨more, grown⟩ : s.memo <+: (s.scan w entry).value.memo := memo_grows_scan
    rw [← grown, List.map_append]
    exact List.mem_append_left _ (h.closed l imports old k hk)
  · have hk' : k ∈ Scan.importsOf ⟨w, s.extensions⟩ s.base l (textDropping bytes) := by
      rw [← show imports = _ from found]
      exact hk
    obtain ⟨specifier, -, resolved⟩ := List.mem_filterMap.mp (List.mem_eraseDups.mp hk')
    exact Memo.has_iff.mp (Scan.has_of_settled done (settled k hk) (dependable _ _ _ _ resolved))

end Session

/-! ## Histories -/

inductive SessionEvent where
  | scan (entry : String)
  | write (names : List String) (content : Bytes)
  | remove (names : List String)

structure SessionState where
  workspace : Workspace
  session : Session

namespace SessionState

/-- What an event changes: a scan the session, a write or a removal the disk. -/
def after (s : SessionState) : SessionEvent → SessionState
  | .scan entry => { s with session := (s.session.scan s.workspace entry).value }
  | .write names content =>
    { s with workspace := { s.workspace with disk := s.workspace.disk.write names content } }
  | .remove names => { s with workspace := { s.workspace with disk := s.workspace.disk.remove names } }

def run (s : SessionState) (events : List SessionEvent) : SessionState :=
  events.foldl after s

def resolver (s : SessionState) : Resolver := ⟨s.workspace, s.session.extensions⟩

theorem run_snoc (s : SessionState) (events : List SessionEvent) (e : SessionEvent) :
    s.run (events ++ [e]) = (s.run events).after e := by
  unfold run
  rw [List.foldl_append]
  rfl

theorem memo_grows_after (s : SessionState) (e : SessionEvent) :
    s.session.memo <+: (s.after e).session.memo := by
  cases e with
  | scan entry => exact Session.memo_grows_scan
  | write names content => exact List.prefix_refl _
  | remove names => exact List.prefix_refl _

theorem orderly_after {s : SessionState} {e : SessionEvent}
    (dependable : ∀ entry, e = .scan entry → s.resolver.Dependable) (h : s.session.memo.Orderly) :
    (s.after e).session.memo.Orderly := by
  cases e with
  | scan entry => exact Session.orderly_scan (dependable entry rfl) h
  | write names content => exact h
  | remove names => exact h

theorem orderly_run {s : SessionState} {events : List SessionEvent} (start : s.session.memo.Orderly)
    (dependable : ∀ before entry, before ++ [.scan entry] <+: events →
      (s.run before).resolver.Dependable) :
    (s.run events).session.memo.Orderly := by
  induction events using List.reverseRecOn with
  | nil => exact start
  | append_singleton events e ih =>
      have earlier := ih fun before entry h => dependable before entry (h.trans (List.prefix_append _ _))
      rw [run_snoc]
      refine orderly_after ?_ earlier
      rintro entry rfl
      exact dependable events entry (List.prefix_refl _)

theorem barred_run {s : SessionState} (h : s.workspace.disk.barred = []) (events : List SessionEvent) :
    (s.run events).workspace.disk.barred = [] := by
  induction events using List.reverseRecOn with
  | nil => exact h
  | append_singleton events e ih =>
      rw [run_snoc]
      cases e with
      | scan entry => exact ih
      | write names content =>
          show List.filter _ (s.run events).workspace.disk.barred = []
          rw [ih, List.filter_nil]
      | remove names =>
          show List.filter _ (s.run events).workspace.disk.barred = []
          rw [ih, List.filter_nil]

/-- **The memo of a session through its history.** For every series of scans, writes and removals that
starts with a fresh session, and if at every scan what the resolver finds can be read: no event changes
what is noted already, it only adds at the end, and after every event each file is noted once and all
files imported by noted files are noted. -/
theorem memo_history (w : Workspace) (base : String) (extensions : List String)
    (events : List SessionEvent)
    (dependable : ∀ before entry, before ++ [.scan entry] <+: events →
      (run ⟨w, { base, extensions }⟩ before).resolver.Dependable) :
    ∀ before e, before ++ [e] <+: events →
      let memo := (run ⟨w, { base, extensions }⟩ before).session.memo
      let memo' := (run ⟨w, { base, extensions }⟩ (before ++ [e])).session.memo
      memo <+: memo' ∧ (memo'.map Prod.fst).Nodup ∧
        ∀ l imports, (l, imports) ∈ memo' → ∀ k ∈ imports, k ∈ memo'.map Prod.fst := by
  intro before e h memo memo'
  have orderly : memo'.Orderly := by
    refine orderly_run ⟨List.nodup_nil, fun _ _ hm => nomatch hm⟩ ?_
    intro earlier entry h'
    exact dependable earlier entry (h'.trans h)
  refine ⟨?_, orderly.distinct, orderly.closed⟩
  show _ <+: (run _ (before ++ [e])).session.memo
  rw [run_snoc]
  exact memo_grows_after _ e

/-- A history in which an imported file is removed and a file that imports the first one is written
between two scans. -/
theorem memo_history_removed_import :
    let w : Workspace :=
      ⟨{ directories := [["src"]]
         files := [(["src", "a.ts"], Text.Utf8.encode "import './b'"), (["src", "b.ts"], [])] },
        { names := ["src"] }⟩
    let earlier : List SessionEvent :=
      [.scan "a.ts", .remove ["src", "b.ts"],
        .write ["src", "c.ts"] (Text.Utf8.encode "import './b'; import './a'")]
    let memo := (run ⟨w, {}⟩ earlier).session.memo
    let memo' := (run ⟨w, {}⟩ (earlier ++ [.scan "c.ts"])).session.memo
    (∀ before entry, before ++ [.scan entry] <+: earlier ++ [.scan "c.ts"] →
        (run ⟨w, {}⟩ before).resolver.Dependable) ∧
      memo <+: memo' ∧ (memo'.map Prod.fst).Nodup ∧
        ∀ l imports, (l, imports) ∈ memo' → ∀ k ∈ imports, k ∈ memo'.map Prod.fst := by
  intro w earlier memo memo'
  have dependable : ∀ before entry, before ++ [.scan entry] <+: earlier ++ [.scan "c.ts"] →
      (run ⟨w, {}⟩ before).resolver.Dependable :=
    fun before _ _ => Resolver.dependable_of_barred (barred_run rfl before)
  exact ⟨dependable,
    memo_history w "" defaultExtensions _ dependable earlier (.scan "c.ts") (List.prefix_refl _)⟩

end SessionState

end SourceSurvey
