import SourceSurvey.Import.Specifiers
import SourceSurvey.Resolver

/-!
# Scanning the import graph

A scan starts at one file and follows imports, each file once, in the order of a depth-first traversal.
It works off a list of pending files, one in each round: a file that is read puts its imports in front.
What has been read is remembered in the session's memo, in order of discovery, together with the files
it imports; a file that cannot be read is reported and not remembered. The scan ends because every file
that is read is a file of the disk that was not in the memo before.
-/

namespace SourceSurvey

/-- A file and the files it imports, as shown in reports. -/
structure Edge where
  source : String
  imports : List String
deriving DecidableEq, Repr, Inhabited

/-- The files read so far in order of discovery, each with the files it imports. -/
abbrev Memo := List (Location × List Location)

namespace Memo

/-- The file has been read. -/
def has (memo : Memo) (l : Location) : Bool :=
  memo.any fun entry => entry.1 == l

theorem has_iff {memo : Memo} {l : Location} : memo.has l = true ↔ l ∈ memo.map Prod.fst := by
  simp [has]

@[simp] theorem has_append (memo more : Memo) (l : Location) :
    has (memo ++ more) l = (memo.has l || more.has l) := by
  simp [has]

@[simp] theorem has_singleton (l k : Location) (imports : List Location) :
    has [(l, imports)] k = (l == k) := by
  simp [has]

end Memo

namespace Scan

def unread (d : Disk) (memo : Memo) : Nat :=
  d.locations.countP fun l => !memo.has l

theorem mem_locations_of_read {d : Disk} {l : Location} {bytes : Bytes}
    (h : d.read l.names = .ok bytes) : l ∈ d.locations := by
  obtain ⟨doubled, names⟩ := l
  unfold Disk.read at h
  split at h
  · contradiction
  · next hc =>
    obtain ⟨front, back, h, -⟩ := List.lookup_eq_some_iff.1 hc
    cases doubled <;> simp [Disk.locations, h]
  · split at h <;> contradiction

theorem unread_append_lt {d : Disk} {memo : Memo} {l : Location} {imports : List Location}
    (hl : l ∈ d.locations) (hm : memo.has l = false) :
    unread d (memo ++ [(l, imports)]) < unread d memo := by
  unfold unread
  have key : ∀ ls : List Location,
      ls.countP (fun k => !Memo.has (memo ++ [(l, imports)]) k) ≤ ls.countP fun k => !memo.has k := by
    intro ls
    apply List.countP_mono_left
    intro k _ hk
    simp only [Memo.has_append, Bool.not_or, Bool.and_eq_true] at hk
    exact hk.1
  obtain ⟨front, back, h⟩ := List.append_of_mem hl
  rw [h]
  have h₁ := key front
  have h₂ := key back
  simp only [List.countP_append, List.countP_cons]
  have h₃ : Memo.has (memo ++ [(l, imports)]) l = true := by simp
  simp only [h₃, hm, Bool.not_true, Bool.not_false, Bool.false_eq_true, if_true, if_false]
  omega

/-- The imports of a source that lies at a location, in order and each once. -/
def importsOf (r : Resolver) (base : String) (l : Location) (source : String) : List Location :=
  ((specifiers source).filterMap (r.resolve? l.parent.text base)).eraseDups

def records (r : Resolver) (base : String) (l : Location) : List Record :=
  match r.workspace.disk.read l.names with
  | .error cause => [.unreadable .scanner l.text cause.message]
  | .ok bytes =>
    .debug .scanner ("Scanning " ++ l.text)
      :: (specifiers (textDropping bytes)).flatMap (r.records l.parent.text base)

/-- How far a scan has come: the files that are pending, the memo, and the files that it has read or
tried to read, in order. -/
structure Progress where
  pending : List Location
  memo : Memo
  reads : List Location := []

/-- The next round: the first pending file is passed over if it is in the memo, and otherwise read. None
if nothing is pending. -/
def Progress.next? (r : Resolver) (base : String) (p : Progress) : Option Progress :=
  match p.pending with
  | [] => none
  | l :: pending =>
    if p.memo.has l then some { p with pending }
    else match r.workspace.disk.read l.names with
      | .error _ => some { p with pending, reads := p.reads ++ [l] }
      | .ok bytes =>
        let imports := importsOf r base l (textDropping bytes)
        let memo := p.memo ++ [(l, imports)]
        some { pending := imports.filter (fun k => !memo.has k) ++ pending, memo, reads := p.reads ++ [l] }

/-- A round works off a pending file or adds an unread file to the memo. -/
theorem Progress.next?_lt {r : Resolver} {base : String} {p q : Progress} (h : p.next? r base = some q) :
    Prod.Lex (· < ·) (· < ·) (unread r.workspace.disk q.memo, q.pending.length)
      (unread r.workspace.disk p.memo, p.pending.length) := by
  unfold next? at h
  split at h
  · contradiction
  · next hp =>
    rw [hp]
    split at h
    · obtain rfl := Option.some.inj h
      exact Prod.Lex.right _ (Nat.lt_succ_self _)
    · next hm =>
      split at h
      · obtain rfl := Option.some.inj h
        exact Prod.Lex.right _ (Nat.lt_succ_self _)
      · next hr =>
        obtain rfl := Option.some.inj h
        exact Prod.Lex.left _ _ (unread_append_lt (mem_locations_of_read hr) (by simpa using hm))

def run (r : Resolver) (base : String) (p : Progress) : Progress :=
  match _h : p.next? r base with
  | none => p
  | some q => run r base q
termination_by (unread r.workspace.disk p.memo, p.pending.length)
decreasing_by exact Progress.next?_lt _h

end Scan

/-- A series of scans that share a memo, from which nothing is read twice. -/
structure Session where
  base : String := ""
  extensions : List String := defaultExtensions
  memo : Memo := []

namespace Session

/-- The edges of a session, as seen from its base directory. -/
def edges (s : Session) (w : Workspace) : List Edge :=
  s.memo.map fun entry => ⟨w.relative entry.1 s.base, entry.2.map (w.relative · s.base)⟩

def scan (s : Session) (w : Workspace) (entry : String) : Logged Session :=
  let r : Resolver := ⟨w, s.extensions⟩
  let p := Scan.run r s.base { pending := [w.locate entry], memo := s.memo }
  { value := { s with memo := p.memo }, log := p.reads.flatMap (Scan.records r s.base) }

end Session

end SourceSurvey
