import Mathlib.Data.List.TakeWhile
import SourceSurvey.Import.Form

/-!
# Forms lead to the first quote

A form is told from its characters without a parser: a word, some characters in between, a quoted specifier.
None of the characters in between is a quote. So whichever form is read at a place, the specifier is the one
behind the first quote after it (`leads_read?`), provided that the braces of a re-export are closed before it.
-/

namespace SourceSurvey

namespace ImportForm

variable {l l' l'' : List Char} {s : Specifier} {c : Char}

/-! ## Characters that are no quotes -/

/-- The second list is what is left of the first when some characters are skipped, none of them a quote. -/
def Skips (l l' : List Char) : Prop := ∃ skipped, l = skipped ++ l' ∧ ∀ c ∈ skipped, isQuote c = false

theorem Skips.refl (l : List Char) : Skips l l := ⟨[], rfl, fun _ h => nomatch h⟩

theorem Skips.trans (h : Skips l l') (h' : Skips l' l'') : Skips l l'' := by
  obtain ⟨x, rfl, plain⟩ := h
  obtain ⟨y, rfl, plain'⟩ := h'
  refine ⟨x ++ y, (List.append_assoc x y l'').symm, fun c hc => ?_⟩
  rcases List.mem_append.mp hc with hc | hc
  · exact plain c hc
  · exact plain' c hc

theorem skips_cons (h : isQuote c = false) : Skips (c :: l) l :=
  ⟨[c], rfl, fun _ hd => List.mem_singleton.mp hd ▸ h⟩

theorem skips_dropWhile {p : Char → Bool} (h : ∀ c ∈ l.takeWhile p, isQuote c = false) :
    Skips l (l.dropWhile p) :=
  ⟨l.takeWhile p, List.takeWhile_append_dropWhile.symm, h⟩

theorem skips_dropWhile_of {p : Char → Bool} (h : ∀ c, p c = true → isQuote c = false) (l : List Char) :
    Skips l (l.dropWhile p) :=
  skips_dropWhile fun c hc => h c (List.mem_takeWhile_imp hc)

theorem eq_quote_of_isQuote (h : isQuote c = true) : c = '\x27' ∨ c = '"' := by
  simpa [isQuote] using h

theorem isQuote_of_isBlank (h : Text.isBlank c = true) : isQuote c = false := by
  by_contra quote
  rcases eq_quote_of_isQuote (Bool.not_eq_false _ ▸ quote) with rfl | rfl <;> exact absurd h (by decide)

theorem isQuote_of_inClause (h : inClause c = true) : isQuote c = false := by
  by_contra quote
  rcases eq_quote_of_isQuote (Bool.not_eq_false _ ▸ quote) with rfl | rfl <;> exact absurd h (by decide)

theorem isQuote_of_inName (h : inName c = true) : isQuote c = false := by
  by_contra quote
  rcases eq_quote_of_isQuote (Bool.not_eq_false _ ▸ quote) with rfl | rfl <;> exact absurd h (by decide)

theorem skips_skipBlanks (l : List Char) : Skips l (skipBlanks l) :=
  skips_dropWhile_of (fun _ => isQuote_of_isBlank) l

theorem skips_someBlanks? (h : someBlanks? l = some l') : Skips l l' := by
  cases l with
  | nil => cases h
  | cons c l =>
      rw [someBlanks?] at h
      split at h
      · next blank =>
        cases h
        exact (skips_cons (isQuote_of_isBlank blank)).trans (skips_skipBlanks l)
      · cases h

theorem append_of_dropStart? {word : List Char} (h : Text.dropStart? word l = some l') : l = word ++ l' := by
  unfold Text.dropStart? at h
  split at h
  · next start =>
    obtain ⟨rest, rfl⟩ := List.isPrefixOf_iff_prefix.mp start
    cases h
    rw [List.drop_left]
  · cases h

theorem skips_dropStart? {word : List Char} (plain : word.any isQuote = false)
    (h : Text.dropStart? word l = some l') : Skips l l' :=
  ⟨word, append_of_dropStart? h, fun c hc => Bool.eq_false_iff.mpr (List.any_eq_false.mp plain c hc)⟩

/-! ## Quoted specifiers -/

/-- From the start of `l`, with no quote skipped, a quote leads to the specifier, and another quote follows it. What
is left is what comes after that quote, or after a closing parenthesis that is next to it. -/
structure Leads (l : List Char) (s : Specifier) : Prop where
  opening : ∃ q, isQuote q = true ∧ Skips l (q :: s.start)
  closing : ∃ q after, isQuote q = true ∧ s.start = s.chars ++ q :: after ∧
    (after = s.rest ∨ skipBlanks after = ')' :: s.rest)
  plain : ∀ c ∈ s.chars, isQuote c = false ∧ c ≠ '\n'

theorem Skips.leads (h : Skips l l') (leads : Leads l' s) : Leads l s := by
  obtain ⟨q, quote, skips⟩ := leads.opening
  exact ⟨⟨q, quote, h.trans skips⟩, leads.closing, leads.plain⟩

theorem leads_quoted? (h : quoted? l = some s) : Leads l s ∧
    ∃ q, isQuote q = true ∧ s.start = s.chars ++ q :: s.rest := by
  cases l with
  | nil => cases h
  | cons q l =>
      rw [quoted?] at h
      split at h
      · next q' rest split =>
        split at h
        · next all =>
          cases h
          simp only [Bool.and_eq_true] at all
          obtain ⟨⟨opens, closes⟩, -⟩ := all
          have whole : l = l.takeWhile (fun c => !isQuote c && c != '\n') ++ q' :: rest := by
            rw [← split, List.takeWhile_append_dropWhile]
          refine ⟨⟨⟨q, opens, Skips.refl _⟩, ⟨q', rest, closes, whole, Or.inl rfl⟩, ?_⟩, q', closes, whole⟩
          intro c hc
          simpa using List.mem_takeWhile_imp hc
        · cases h
      · cases h

theorem leads_fromQuoted? (h : fromQuoted? l = some s) : Leads l s := by
  obtain ⟨rest, word, quoted⟩ := Option.bind_eq_some_iff.mp h
  refine (skips_skipBlanks l).leads ((skips_dropStart? ?_ word).leads ?_)
  · decide
  · exact (skips_skipBlanks rest).leads (leads_quoted? quoted).1

theorem leads_clause? (h : clause? l = some s) : Leads l s := by
  unfold clause? at h
  dsimp only at h
  split at h
  · exact (skips_dropWhile_of (fun _ => isQuote_of_inClause) l).leads (leads_quoted? h).1
  · cases h

theorem leads_renamed? (h : renamed? l = some s) : Leads l s := by
  obtain ⟨l₁, blanks, h⟩ := Option.bind_eq_some_iff.mp h
  obtain ⟨l₂, word, h⟩ := Option.bind_eq_some_iff.mp h
  obtain ⟨l₃, blanks', h⟩ := Option.bind_eq_some_iff.mp h
  have skips : Skips l (l₃.dropWhile inName) :=
    (skips_someBlanks? blanks).trans <| (skips_dropStart? (by decide) word).trans <|
      (skips_someBlanks? blanks').trans (skips_dropWhile_of (fun _ => isQuote_of_inName) l₃)
  dsimp only at h
  split at h
  · cases h
  split at h
  · next found =>
    cases h
    exact skips.leads (leads_fromQuoted? found)
  split at h
  · exact skips.leads ((skips_skipBlanks _).leads (leads_quoted? h).1)
  · cases h

theorem leads_parenthesized? (h : parenthesized? l = some s) : Leads l s := by
  unfold parenthesized? at h
  split at h
  · next rest paren =>
    obtain ⟨inner, quoted, h⟩ := Option.bind_eq_some_iff.mp h
    obtain ⟨⟨opening, -, plain⟩, q, quote, whole⟩ := leads_quoted? quoted
    split at h
    · next after close =>
      cases h
      have skips : Skips l (skipBlanks rest) := by
        have first := skips_skipBlanks l
        rw [paren] at first
        exact first.trans ((skips_cons (by decide)).trans (skips_skipBlanks rest))
      exact skips.leads ⟨opening, ⟨q, inner.rest, quote, whole, Or.inr close⟩, plain⟩
    · cases h
  · cases h

/-- Between a brace and the next closing one there is no quote, if the brace comes before all quotes. -/
def BracesClosed (l : List Char) : Prop :=
  ∀ inside, Skips l ('\x7b' :: inside) → ∀ c ∈ inside.takeWhile (· != '\x7d'), isQuote c = false

theorem Skips.bracesClosed (h : Skips l l') (closed : BracesClosed l) : BracesClosed l' :=
  fun inside skips => closed inside (h.trans skips)

theorem skips_afterType (l : List Char) : Skips l (reexport?.afterType l) := by
  unfold reexport?.afterType
  cases word : Text.dropStart? "type".toList l with
  | none => exact Skips.refl l
  | some rest =>
      rw [Option.bind_some]
      cases blanks : someBlanks? rest with
      | none => exact Skips.refl l
      | some rest' => exact (skips_dropStart? (by decide) word).trans (skips_someBlanks? blanks)

theorem leads_reexport? (closed : BracesClosed l) (h : reexport? l = some s) : Leads l s := by
  have skips : Skips l (reexport?.afterType (skipBlanks l)) :=
    (skips_skipBlanks l).trans (skips_afterType (skipBlanks l))
  unfold reexport? at h
  split at h
  · next rest all =>
    rw [all] at skips
    refine (skips.trans (skips_cons (by decide))).leads ?_
    split at h
    · next found =>
      cases h
      exact leads_renamed? found
    · exact leads_fromQuoted? h
  · next inside brace =>
    rw [brace] at skips
    have plain := closed inside skips
    have after := (skips.trans (skips_cons (by decide))).trans (skips_dropWhile plain)
    split at h
    · next c rest stop =>
      rw [stop] at after
      -- what stops the names is the closing brace
      obtain rfl : c = '\x7d' := by
        have stopped := List.head?_dropWhile_not (· != '\x7d') inside
        rw [stop] at stopped
        simpa using stopped
      exact (after.trans (skips_cons (by decide))).leads (leads_fromQuoted? h)
    · cases h
  · cases h

/-- **Every form leads to the first quote.** -/
theorem leads_read? {form : ImportForm} (closed : BracesClosed l) (h : form.read? l = some s) : Leads l s := by
  obtain ⟨rest, word, h⟩ := Option.bind_eq_some_iff.mp h
  have skips : Skips l rest := skips_dropStart? (by cases form <;> decide) word
  apply skips.leads
  cases form with
  | clause => exact leads_clause? h
  | effect => exact (skips_skipBlanks rest).leads (leads_quoted? h).1
  | reexport => exact leads_reexport? (skips.bracesClosed closed) h
  | require | dynamic => exact leads_parenthesized? h

def initials : List Char := ['i', 'e', 'r']

theorem mem_initials_of_read? {form : ImportForm} (h : form.read? (c :: l) = some s) : c ∈ initials := by
  obtain ⟨rest, word, -⟩ := Option.bind_eq_some_iff.mp h
  have split := append_of_dropStart? word
  cases form <;> rw [(List.cons.inj split).1] <;> decide

theorem read?_of_not_mem_initials (form : ImportForm) (h : c ∉ initials) : form.read? (c :: l) = none := by
  rw [Option.eq_none_iff_forall_ne_some]
  intro s found
  exact h (mem_initials_of_read? found)

end ImportForm

end SourceSurvey
