import SourceSurvey.Proofs.Scan.Round

/-!
# The frontier of a scan

A scan that starts from some memo and some entry file has one invariant, which ties the memo, the pending
list and reachability together (`Frontier`): a file that has been noted is a readable file that the entry
reaches, and each of its imports is settled, that is noted, pending, or impossible to read. A known file
that is left out of the list is settled by being noted. When nothing is pending any more, only the other
two ways are left (`has_of_settled`).
-/

namespace SourceSurvey.Scan

def Readable (d : Disk) (l : Location) : Prop :=
  ∃ bytes, d.read l.names = .ok bytes

def Imports (r : Resolver) (base : String) (l k : Location) : Prop :=
  ∃ bytes, r.workspace.disk.read l.names = .ok bytes ∧ k ∈ importsOf r base l (textDropping bytes)

def Reaches (r : Resolver) (base : String) : Location → Location → Prop :=
  Relation.ReflTransGen (Imports r base)

/-- The entry of the memo tells what the disk holds: a file that can be read, and its imports. -/
def Faithful (r : Resolver) (base : String) (entry : Location × List Location) : Prop :=
  ∃ bytes, r.workspace.disk.read entry.1.names = .ok bytes ∧
    entry.2 = importsOf r base entry.1 (textDropping bytes)

/-- The file is noted, or will be looked at, or cannot be read. -/
def Settled (d : Disk) (p : Progress) (l : Location) : Prop :=
  p.memo.has l = true ∨ l ∈ p.pending ∨ ¬ Readable d l

/-- Where a scan stands that has started from the memo `known` with the file `first`. -/
structure Frontier (r : Resolver) (base : String) (known : Memo) (first : Location) (p : Progress) :
    Prop where
  grows : known <+: p.memo
  distinct : (known.map Prod.fst).Nodup → (p.memo.map Prod.fst).Nodup
  pending : ∀ l ∈ p.pending, Reaches r base first l
  entered : Settled r.workspace.disk p first
  noted : ∀ entry ∈ p.memo, entry ∈ known ∨ Faithful r base entry ∧ Reaches r base first entry.1 ∧
    ∀ l ∈ entry.2, Settled r.workspace.disk p l

variable {r : Resolver} {base : String} {known : Memo} {first : Location} {p q : Progress}

theorem Frontier.start (known : Memo) (first : Location) :
    Frontier r base known first { pending := [first], memo := known } where
  grows := List.prefix_refl _
  distinct := id
  pending := by
    intro l hl
    rw [List.mem_singleton] at hl
    rw [hl]
    exact .refl
  entered := Or.inr (Or.inl (List.mem_singleton_self _))
  noted := fun _ h => Or.inl h

theorem Settled.round {l : Location} (h : Round r base p q) (hl : Settled r.workspace.disk p l) :
    Settled r.workspace.disk q l := by
  rcases hl with hm | hp | hr
  · left
    cases h with
    | pass known => exact hm
    | fail new failed => exact hm
    | note new read found => rw [Memo.has_append, hm, Bool.true_or]
  · cases h with
    | pass known =>
        rcases List.mem_cons.mp hp with rfl | hp
        · exact Or.inl known
        · exact Or.inr (Or.inl hp)
    | fail new failed =>
        rcases List.mem_cons.mp hp with rfl | hp
        · refine Or.inr (Or.inr ?_)
          rintro ⟨bytes, read⟩
          rw [failed] at read
          cases read
        · exact Or.inr (Or.inl hp)
    | note new read found =>
        rcases List.mem_cons.mp hp with rfl | hp
        · exact Or.inl (by simp)
        · exact Or.inr (Or.inl (List.mem_append_right _ hp))
  · exact Or.inr (Or.inr hr)

theorem settled_note {l k : Location} {imports pending : List Location} {memo : Memo}
    {reads : List Location} (hk : k ∈ imports) :
    Settled r.workspace.disk
      ⟨imports.filter (fun k => !Memo.has (memo ++ [(l, imports)]) k) ++ pending,
        memo ++ [(l, imports)], reads⟩ k := by
  by_cases h : Memo.has (memo ++ [(l, imports)]) k = true
  · exact Or.inl h
  · refine Or.inr (Or.inl (List.mem_append_left _ ?_))
    exact List.mem_filter.mpr ⟨hk, by simpa using h⟩

/-- **The frontier is kept by every round.** -/
theorem Frontier.round (h : Round r base p q) (f : Frontier r base known first p) :
    Frontier r base known first q := by
  have settled : ∀ {l}, Settled r.workspace.disk p l → Settled r.workspace.disk q l := Settled.round h
  have old : ∀ entry ∈ p.memo, entry ∈ known ∨ Faithful r base entry ∧ Reaches r base first entry.1 ∧
      ∀ l ∈ entry.2, Settled r.workspace.disk q l := by
    intro entry he
    rcases f.noted entry he with hk | ⟨faithful, reached, imports⟩
    · exact Or.inl hk
    · exact Or.inr ⟨faithful, reached, fun l hl => settled (imports l hl)⟩
  cases h with
  | pass known =>
      exact ⟨f.grows, f.distinct, fun l hl => f.pending l (List.mem_cons_of_mem _ hl), settled f.entered, old⟩
  | fail new failed =>
      exact ⟨f.grows, f.distinct, fun l hl => f.pending l (List.mem_cons_of_mem _ hl), settled f.entered, old⟩
  | @note l pending memo reads bytes imports new read found =>
      have reached : Reaches r base first l := f.pending l List.mem_cons_self
      refine ⟨f.grows.trans (List.prefix_append _ _), ?_, ?_, settled f.entered, ?_⟩
      · intro hd
        have hnot : l ∉ memo.map Prod.fst := by
          rw [← Memo.has_iff, new]
          exact Bool.false_ne_true
        simp only [List.map_append, List.map_cons, List.map_nil]
        rw [List.nodup_append]
        refine ⟨f.distinct hd, List.pairwise_singleton _ _, ?_⟩
        intro a ha b hb hab
        rw [List.mem_singleton] at hb
        exact hnot (hb ▸ hab ▸ ha)
      · intro k hk
        rcases List.mem_append.mp hk with hk | hk
        · have hi : k ∈ imports := (List.mem_filter.mp hk).1
          exact reached.tail ⟨bytes, read, found ▸ hi⟩
        · exact f.pending k (List.mem_cons_of_mem _ hk)
      · intro entry he
        rcases List.mem_append.mp he with he | he
        · exact old entry he
        · rw [List.mem_singleton] at he
          subst he
          exact Or.inr ⟨⟨bytes, read, found⟩, reached, fun k hk => settled_note hk⟩

theorem Frontier.run (f : Frontier r base known first p) :
    Frontier r base known first (Scan.run r base p) :=
  run_keeps Frontier.round f

theorem has_of_settled {l : Location} (done : p.pending = []) (h : Settled r.workspace.disk p l)
    (readable : Readable r.workspace.disk l) : p.memo.has l = true := by
  rcases h with hm | hp | hr
  · exact hm
  · rw [done] at hp
    cases hp
  · exact absurd readable hr

end SourceSurvey.Scan
