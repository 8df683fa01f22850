import Mathlib.Data.List.Basic
import SourceSurvey.Proofs.Scan.Frontier

/-!
# What a scan finds

A scan of a fresh session notes the files that the entry file reaches and that can be read, all of them
and nothing else, each once and with the files its specifiers mean, in the order in which they first
occur.
-/

namespace SourceSurvey

/-! ## First occurrences -/

/-- `once` lists the members of `all` without repetitions, in the order of their first occurrences. -/
structure FirstOccurrences {α : Type} [DecidableEq α] (all once : List α) : Prop where
  distinct : once.Nodup
  mem_iff : ∀ a, a ∈ once ↔ a ∈ all
  ordered : once.Pairwise fun a b => all.idxOf a < all.idxOf b

/-- Leaving out later copies of an element keeps the order of first occurrences. -/
theorem idxOf_cons_lt_of_filter {α : Type} [DecidableEq α] {c a b : α} {l : List α} (ha : a ≠ c)
    (hb : b ≠ c) (h : (l.filter fun x => !x == c).idxOf a < (l.filter fun x => !x == c).idxOf b) :
    l.idxOf a < l.idxOf b := by
  induction l with
  | nil => simp at h
  | cons x l ih =>
      by_cases hx : x = c
      · subst hx
        rw [List.filter_cons_of_neg (by simp)] at h
        rw [List.idxOf_cons_ne l ha.symm, List.idxOf_cons_ne l hb.symm]
        exact Nat.succ_lt_succ (ih h)
      · rw [List.filter_cons_of_pos (by simpa using hx)] at h
        by_cases hxa : x = a
        · subst hxa
          by_cases hxb : x = b
          · subst hxb
            exact absurd h (Nat.lt_irrefl _)
          · rw [List.idxOf_cons_self, List.idxOf_cons_ne l hxb]
            exact Nat.succ_pos _
        · by_cases hxb : x = b
          · subst hxb
            rw [List.idxOf_cons_self] at h
            exact absurd h (Nat.not_lt_zero _)
          · rw [List.idxOf_cons_ne _ hxa, List.idxOf_cons_ne _ hxb] at h ⊢
            exact Nat.succ_lt_succ (ih (Nat.lt_of_succ_lt_succ h))

theorem firstOccurrences_eraseDups {α : Type} [DecidableEq α] : ∀ all : List α,
    FirstOccurrences all all.eraseDups
  | [] => ⟨List.nodup_nil, fun _ => Iff.rfl, List.Pairwise.nil⟩
  | c :: all => by
      have shorter : (all.filter fun x => !x == c).length < all.length + 1 :=
        Nat.lt_succ_of_le (List.length_filter_le _ _)
      have ih := firstOccurrences_eraseDups (all.filter fun x => !x == c)
      have ne_of_mem : ∀ a ∈ (all.filter fun x => !x == c).eraseDups, a ≠ c := by
        intro a ha
        simpa using (List.mem_filter.mp ((ih.mem_iff a).mp ha)).2
      rw [List.eraseDups_cons]
      refine ⟨?_, ?_, ?_⟩
      · exact List.nodup_cons.mpr ⟨fun hc => ne_of_mem c hc rfl, ih.distinct⟩
      · intro a
        rw [← List.eraseDups_cons]
        exact List.mem_eraseDups
      · refine List.pairwise_cons.mpr ⟨?_, ?_⟩
        · intro a ha
          rw [List.idxOf_cons_self, List.idxOf_cons_ne all (ne_of_mem a ha).symm]
          exact Nat.succ_pos _
        · refine ih.ordered.imp_of_mem ?_
          intro a b ha hb hab
          have hlt := idxOf_cons_lt_of_filter (ne_of_mem a ha) (ne_of_mem b hb) hab
          rw [List.idxOf_cons_ne all (ne_of_mem a ha).symm, List.idxOf_cons_ne all (ne_of_mem b hb).symm]
          exact Nat.succ_lt_succ hlt
termination_by all => all.length

namespace Scan

/-- The files that the specifiers of a source mean, in order and with repetitions. -/
def targets (r : Resolver) (base : String) (l : Location) (source : String) : List Location :=
  (specifiers source).filterMap (r.resolve? l.parent.text base)

/-! ## Reachability -/

variable {r : Resolver} {base : String} {first : Location} {p : Progress}

/-- At the end of a scan that started with an empty memo, every readable file that the entry reaches is
noted. The induction is along the chain of imports: each file on it was read, so it was noted with the
next one among its imports. -/
theorem Frontier.has_of_reaches (f : Frontier r base [] first p) (done : p.pending = [])
    {l : Location} (reached : Reaches r base first l) :
    Readable r.workspace.disk l → p.memo.has l = true := by
  induction reached with
  | refl => exact has_of_settled done f.entered
  | @tail k l _ imports ih =>
      obtain ⟨bytes, read, hl⟩ := imports
      have hk : p.memo.has k = true := ih ⟨bytes, read⟩
      obtain ⟨entry, he, rfl⟩ := List.mem_map.mp (Memo.has_iff.mp hk)
      rcases f.noted entry he with absurd | ⟨⟨bytes', read', found⟩, -, settled⟩
      · cases absurd
      · rw [read] at read'
        obtain rfl := Except.ok.inj read'
        exact has_of_settled done (settled l (found ▸ hl))

end Scan

open Scan

/-- **A fresh scan finds what the entry file reaches.** The files it notes are the readable files that
the entry reaches through imports, each once; nothing is noted if the entry cannot be read. With every
file stand the files its specifiers mean, each once, in the order in which they first occur. -/
theorem Session.memo_scan_fresh (w : Workspace) (base : String) (extensions : List String)
    (entry : String) :
    let r : Resolver := ⟨w, extensions⟩
    let memo := (Session.scan { base, extensions } w entry).value.memo
    (∀ l, l ∈ memo.map Prod.fst ↔ Readable w.disk l ∧ Reaches r base (w.locate entry) l) ∧
      (¬ Readable w.disk (w.locate entry) → memo = []) ∧
      (memo.map Prod.fst).Nodup ∧
      ∀ l imports, (l, imports) ∈ memo → ∃ bytes, w.disk.read l.names = .ok bytes ∧
        FirstOccurrences (targets r base l (textDropping bytes)) imports := by
  intro r memo
  have f : Frontier r base [] (w.locate entry)
      (Scan.run r base { pending := [w.locate entry], memo := [] }) := (Frontier.start _ _).run
  have done := pending_run r base { pending := [w.locate entry], memo := [] }
  have sound : ∀ e ∈ memo, Faithful r base e ∧ Reaches r base (w.locate entry) e.1 := by
    intro e he
    rcases f.noted e he with absurd | ⟨faithful, reached, -⟩
    · cases absurd
    · exact ⟨faithful, reached⟩
  refine ⟨?_, ?_, f.distinct List.nodup_nil, ?_⟩
  · intro l
    constructor
    · intro hl
      obtain ⟨e, he, rfl⟩ := List.mem_map.mp hl
      obtain ⟨⟨bytes, read, -⟩, reached⟩ := sound e he
      exact ⟨⟨bytes, read⟩, reached⟩
    · rintro ⟨readable, reached⟩
      exact Memo.has_iff.mp (f.has_of_reaches done reached readable)
  · intro unreadable
    rw [List.eq_nil_iff_forall_not_mem]
    intro e he
    obtain ⟨⟨bytes, read, -⟩, reached⟩ := sound e he
    rcases reached.cases_head with here | ⟨k, ⟨bytes', read', -⟩, -⟩
    · rw [here] at unreadable
      exact unreadable ⟨bytes, read⟩
    · exact unreadable ⟨bytes', read'⟩
  · intro l imports he
    obtain ⟨⟨bytes, read, found⟩, -⟩ := sound (l, imports) he
    refine ⟨bytes, read, ?_⟩
    rw [show imports = _ from found]
    exact firstOccurrences_eraseDups _

end SourceSurvey
