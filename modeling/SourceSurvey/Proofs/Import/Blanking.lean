import SourceSurvey.Proofs.Import.Lexing

/-!
# Overwriting comments

Comments are overwritten by spaces, position by position, and everything else stays as it was. The backslashes
and quotes of a comment are lost with it, so it has to be shown that a quote that opened no literal opens none
afterwards. The argument goes over the text alone (`Overwritten`): where a backslash is overwritten, a space or
a line feed follows, so that what it escaped is nothing that could close a literal. Hence the overwritten source
is read as the same literals between plain characters (`lexing_blankComments`), and has nothing left to be
overwritten.
-/

namespace SourceSurvey

namespace Lexeme

variable {quote c : Char} {l b t r : List Char} {ps : List Lexeme} {p : Lexeme} {i : Nat}

/-! ## Position by position -/

def InComment (ps : List Lexeme) (i : Nat) : Prop :=
  ∃ front t back, ps = front ++ comment t :: back ∧
    (front.flatMap chars).length ≤ i ∧ i < (front.flatMap chars).length + t.length

def overwrite (c : Char) : Char := if c = '\n' then '\n' else ' '

theorem blank_eq (t : List Char) : blank t = t.map overwrite := rfl

theorem length_withoutComment (p : Lexeme) : p.withoutComment.length = p.chars.length := by
  cases p with
  | comment t => exact List.length_map overwrite
  | literal t => rfl
  | other c => rfl

theorem length_flatMap_withoutComment (ps : List Lexeme) :
    (ps.flatMap withoutComment).length = (ps.flatMap chars).length := by
  simp only [List.length_flatMap, length_withoutComment]

theorem getElem?_of_inComment (h : InComment ps i) :
    (ps.flatMap withoutComment)[i]? = (ps.flatMap chars)[i]?.map overwrite := by
  obtain ⟨front, t, back, rfl, start, stop⟩ := h
  have shift := length_flatMap_withoutComment front
  rw [List.flatMap_append, List.flatMap_append, List.getElem?_append_right (shift ▸ start),
    List.getElem?_append_right start, List.flatMap_cons, List.flatMap_cons, shift]
  have inside : i - (front.flatMap chars).length < (comment t).chars.length := Nat.sub_lt_left_of_lt_add start stop
  rw [List.getElem?_append_left (by rw [length_withoutComment]; exact inside), List.getElem?_append_left inside]
  exact List.getElem?_map

theorem getElem?_of_not_inComment (h : ¬ InComment ps i) :
    (ps.flatMap withoutComment)[i]? = (ps.flatMap chars)[i]? := by
  induction ps generalizing i with
  | nil => rfl
  | cons p ps ih =>
      have shift := length_withoutComment p
      rw [List.flatMap_cons, List.flatMap_cons]
      rcases Nat.lt_or_ge i p.chars.length with inside | beyond
      · rw [List.getElem?_append_left (shift.symm ▸ inside), List.getElem?_append_left inside]
        cases p with
        | comment t => exact absurd ⟨[], t, ps, rfl, Nat.zero_le i, by rwa [List.flatMap_nil, List.length_nil, Nat.zero_add]⟩ h
        | literal t => rfl
        | other c => rfl
      · rw [List.getElem?_append_right (shift.symm ▸ beyond), List.getElem?_append_right beyond, shift]
        apply ih
        rintro ⟨front, t, back, rfl, start, stop⟩
        refine h ⟨p :: front, t, back, rfl, ?_, ?_⟩
        · rw [List.flatMap_cons, List.length_append]
          omega
        · rw [List.flatMap_cons, List.length_append]
          omega

/-! ## Literals that are closed -/

/-- A literal that is opened before the text is closed in it. -/
def Closes (quote : Char) (l : List Char) : Prop := ∃ s, closeLiteral quote l = some s

theorem closes_escaped (h : Closes quote l) : Closes quote ('\\' :: c :: l) := by
  obtain ⟨s, closed⟩ := h
  exact ⟨('\\' :: c :: s.1, s.2), by rw [closeLiteral, closed]; rfl⟩

theorem closes_quote (escape : quote ≠ '\\') : Closes quote (quote :: l) :=
  ⟨([quote], l), by rw [closeLiteral_plain escape, if_pos rfl]⟩

theorem closes_plain (escape : c ≠ '\\') (line : c = '\n' → spansLines quote = true) (h : Closes quote l) :
    Closes quote (c :: l) := by
  obtain ⟨s, closed⟩ := h
  by_cases same : c = quote
  · rw [same] at escape ⊢
    exact closes_quote escape
  · refine ⟨(c :: s.1, s.2), ?_⟩
    rw [closeLiteral_plain escape, if_neg same, if_neg, closed]
    · rfl
    · intro broken
      rw [Bool.and_eq_true, decide_eq_true_eq, Bool.not_eq_true'] at broken
      rw [line broken.1] at broken
      exact absurd broken.2 (by decide)

/-! ## Overwritten texts -/

/-- A space or a line feed: what is left where a comment stood. -/
def IsGap (c : Char) : Prop := c = ' ' ∨ c = '\n'

theorem isGap_overwrite (c : Char) : IsGap (overwrite c) := by
  unfold overwrite IsGap
  split
  · exact Or.inr rfl
  · exact Or.inl rfl

theorem IsGap.ne (h : IsGap c) : opensLiteral c = false ∧ c ≠ '\\' ∧ c ≠ '/' ∧ c ≠ '*' := by
  rcases h with rfl | rfl <;> decide

/-- The second text is the first with some characters overwritten. After a backslash that is overwritten there is
a gap. -/
inductive Overwritten : List Char → List Char → Prop
  | nil : Overwritten [] []
  | keep {c : Char} {l b : List Char} : Overwritten l b → Overwritten (c :: l) (c :: b)
  | blank {c : Char} {l b : List Char} : (c = '\\' → ∀ d ∈ b.head?, IsGap d) → Overwritten l b →
      Overwritten (c :: l) (overwrite c :: b)

theorem Overwritten.append_left (t : List Char) (h : Overwritten l b) : Overwritten (t ++ l) (t ++ b) := by
  induction t with
  | nil => exact h
  | cons c t ih => exact .keep ih

theorem Overwritten.append_blank (h : Overwritten l b) (last : t.getLast? = some '\\' → ∀ d ∈ b.head?, IsGap d) :
    Overwritten (t ++ l) (t.map overwrite ++ b) := by
  induction t with
  | nil => exact h
  | cons c t ih =>
      cases t with
      | nil => exact .blank (fun escape => last (by rw [escape]; rfl)) h
      | cons d t =>
          refine .blank (fun _ e first => ?_) (ih last)
          obtain rfl : overwrite d = e := Option.some.inj first
          exact isGap_overwrite d

/-- A character of the overwritten text was kept, or it stands for one that was overwritten. -/
theorem Overwritten.exists_cons (h : Overwritten l (c :: b)) : ∃ d rest, l = d :: rest ∧ Overwritten rest b ∧
    (d = c ∨ c = overwrite d ∧ (d = '\\' → ∀ e ∈ b.head?, IsGap e)) := by
  cases h with
  | keep h => exact ⟨c, _, rfl, h, Or.inl rfl⟩
  | blank gap h => exact ⟨_, _, rfl, h, Or.inr ⟨rfl, gap⟩⟩

/-- If the overwritten text closes a literal after `body`, so does the text. If it does so behind a gap, the
text does so even where the character at the gap is escaped. -/
theorem Overwritten.closes_of_body {body : List Char} (opens : opensLiteral quote = true) (hb : Body quote body)
    (h : Overwritten l (body ++ quote :: r)) :
    Closes quote l ∧ ((∀ d ∈ (body ++ quote :: r).head?, IsGap d) → Closes quote l.tail) := by
  have escape := ne_backslash_of_opensLiteral opens
  induction hb generalizing l with
  | nil =>
      have apart (gap : IsGap quote) : False := by
        rw [gap.ne.1] at opens
        cases opens
      obtain ⟨d, rest, rfl, -, rfl | ⟨blanked, -⟩⟩ := h.exists_cons
      · exact ⟨closes_quote escape, fun gap => (apart (gap d rfl)).elim⟩
      · exact (apart (blanked ▸ isGap_overwrite d)).elim
  | escaped _ ih =>
      obtain ⟨d, rest, rfl, after, rfl | ⟨blanked, -⟩⟩ := h.exists_cons
      · obtain ⟨e, rest, rfl, after, -⟩ := Overwritten.exists_cons after
        exact ⟨closes_escaped (ih after).1, fun gap => absurd rfl (gap '\\' rfl).ne.2.1⟩
      · exact absurd rfl (blanked ▸ isGap_overwrite d).ne.2.1
  | plain other plain line _ ih =>
      obtain ⟨d, rest, rfl, after, rfl | ⟨rfl, gap⟩⟩ := h.exists_cons
      · exact ⟨closes_plain plain line (ih after).1, fun _ => (ih after).1⟩
      · refine ⟨?_, fun _ => (ih after).1⟩
        by_cases backslash : d = '\\'
        · -- the text escapes what stands at the next gap, and closes the literal behind it
          subst backslash
          have behind := (ih after).2 (gap rfl)
          cases rest with
          | nil =>
              obtain ⟨s, closed⟩ := behind
              cases closed
          | cons e rest => exact closes_escaped behind
        · refine closes_plain backslash (fun feed => line ?_) (ih after).1
          rw [feed]
          rfl

/-- **A literal that is closed in an overwritten text was closed before.** -/
theorem Overwritten.closes (opens : opensLiteral quote = true) (h : Overwritten l b) (closes : Closes quote b) :
    Closes quote l := by
  obtain ⟨s, closed⟩ := closes
  obtain ⟨body, hb, -, rfl⟩ := exists_body_of_closeLiteral closed
  exact (h.closes_of_body opens hb).1

/-! ## Overwritten sources -/

theorem head?_withoutComment_of_ne_slash (lexed : Lexing l ps) (first : l.head? = some c) (slash : c ≠ '/') :
    (ps.flatMap withoutComment).head? = some c := by
  cases lexed with
  | nil => cases first
  | cons piece _ =>
      cases piece with
      | literal literal =>
          obtain ⟨quote, body, -, -, rfl⟩ := literal
          exact first
      | comment comment => cases comment <;> exact absurd (Option.some.inj first).symm slash
      | other => exact first

/-- What a source starts with after the overwriting, it started with before, unless it is a gap. -/
theorem head?_of_head?_withoutComment (lexed : Lexing l ps) (first : (ps.flatMap withoutComment).head? = some c)
    (gap : ¬ IsGap c) : l.head? = some c := by
  cases lexed with
  | nil => cases first
  | cons piece _ =>
      cases piece with
      | literal literal =>
          obtain ⟨quote, body, -, -, rfl⟩ := literal
          exact first
      | comment comment =>
          have blanked : IsGap c := by
            cases comment <;> exact Option.some.inj first ▸ isGap_overwrite '/'
          exact absurd blanked gap
      | other => exact first

/-- The last character of a comment is no backslash, unless a gap follows. -/
theorem IsCommentBefore.gap_of_backslash (comment : IsCommentBefore r t) (lexed : Lexing r ps)
    (last : t.getLast? = some '\\') : ∀ d ∈ (ps.flatMap withoutComment).head?, IsGap d := by
  intro d first
  cases comment with
  | line _ ends =>
      cases start : r.head? with
      | none =>
          rw [List.head?_eq_none_iff] at start
          subst start
          obtain rfl := lexing_iff.mp lexed
          rw [list] at first
          cases first
      | some c =>
          obtain rfl := ends c start
          rw [head?_withoutComment_of_ne_slash lexed start (by decide)] at first
          exact Or.inr (Option.some.inj first).symm
  | @block t _ =>
      have slash : ('/' :: '*' :: (t ++ closing)).getLast? = some '/' := by
        rw [closing, ← List.cons_append, ← List.cons_append, List.getLast?_append]
        rfl
      rw [slash] at last
      exact absurd last (by decide)
  | unclosed _ empty =>
      subst empty
      obtain rfl := lexing_iff.mp lexed
      rw [list] at first
      cases first

theorem Lexing.overwritten (lexed : Lexing l ps) : Overwritten l (ps.flatMap withoutComment) := by
  induction lexed with
  | nil => exact .nil
  | cons piece lexed ih =>
      rw [List.flatMap_cons]
      cases piece with
      | literal => exact ih.append_left _
      | comment comment => exact ih.append_blank (comment.gap_of_backslash lexed)
      | other => exact .keep ih

/-- How a piece is read when comments are overwritten: a comment as single characters. -/
def afterBlanking : Lexeme → List Lexeme
  | comment t => (blank t).map other
  | p => [p]

theorem first_gap (gap : IsGap c) : First (c :: l) (.other c) l := by
  apply First.of_ne_slash
  · intro t literal start
    have opens := opensLiteral_of_start literal start
    rw [gap.ne.1] at opens
    cases opens
  · exact gap.ne.2.2.1

theorem Lexing.append_blank (lexed : Lexing l ps) (t : List Char) :
    Lexing (blank t ++ l) ((blank t).map other ++ ps) := by
  rw [blank_eq]
  induction t with
  | nil => exact lexed
  | cons c t ih => exact .cons (first_gap (isGap_overwrite c)) ih

/-- A character that is neither in a literal nor in a comment is in none when the comments after it are
overwritten. -/
theorem First.other_withoutComment (literal : ∀ t, IsLiteral t → ¬ t <+: c :: l)
    (line : ¬ ['/', '/'] <+: c :: l) (block : ¬ ['/', '*'] <+: c :: l) (lexed : Lexing l ps) :
    First (c :: ps.flatMap withoutComment) (.other c) (ps.flatMap withoutComment) := by
  have starts (d : Char) (gap : ¬ IsGap d) (start : ['/', d] <+: c :: ps.flatMap withoutComment) :
      ['/', d] <+: c :: l := by
    obtain ⟨rest, whole⟩ := start
    obtain ⟨rfl, split⟩ := List.cons.inj whole
    have first : (ps.flatMap withoutComment).head? = some d := congrArg List.head? split.symm
    obtain ⟨more, rfl⟩ := List.head?_eq_some_iff.mp (head?_of_head?_withoutComment lexed first gap)
    exact ⟨more, rfl⟩
  apply First.other
  · intro t found start
    have opens := opensLiteral_of_start found start
    have closes := lexed.overwritten.closes opens ((exists_literal_iff opens).mp ⟨t, found, start⟩)
    obtain ⟨t', found', start'⟩ := (exists_literal_iff opens).mpr closes
    exact literal t' found' start'
  · exact fun start => line (starts '/' (fun gap => gap.ne.2.2.1 rfl) start)
  · exact fun start => block (starts '*' (fun gap => gap.ne.2.2.2 rfl) start)

/-- **The overwritten source is read as before, with characters in place of the comments.** -/
theorem Lexing.afterBlanking (lexed : Lexing l ps) :
    Lexing (ps.flatMap withoutComment) (ps.flatMap Lexeme.afterBlanking) := by
  induction lexed with
  | nil => exact .nil
  | cons piece lexed ih =>
      rw [List.flatMap_cons, List.flatMap_cons]
      cases piece with
      | literal literal => exact .cons (.literal literal) ih
      | @comment t _ _ => exact ih.append_blank t
      | other literal line block => exact .cons (.other_withoutComment literal line block lexed) ih

theorem withoutComment_afterBlanking (p : Lexeme) :
    p.afterBlanking.flatMap withoutComment = p.withoutComment := by
  cases p with
  | comment t => simp [Lexeme.afterBlanking, withoutComment, chars, List.flatMap_map]
  | literal t => exact List.append_nil _
  | other c => rfl

end Lexeme

open Lexeme

theorem blankComments_of_lexing {source : List Char} {ps : List Lexeme} (lexed : Lexing source ps) :
    blankComments source = ps.flatMap withoutComment := by
  rw [blankComments, lexing_iff.mp lexed]

/-- Comments that were overwritten leave nothing to overwrite. -/
theorem blankComments_blankComments (source : List Char) :
    blankComments (blankComments source) = blankComments source := by
  have lexed : Lexing source (list source) := lexing_iff.mpr rfl
  rw [blankComments_of_lexing lexed, blankComments_of_lexing lexed.afterBlanking, List.flatMap_assoc]
  simp only [withoutComment_afterBlanking]

/-- **Comments are overwritten in place, and once.** A source has one reading from left to right as literals,
comments and other characters. Overwriting its comments keeps its length. Where the reading has a comment, a line
feed stays and every other character becomes a space; everywhere else, in literals too, the character stays. To do
it again changes nothing. -/
theorem blankComments_in_place (source : List Char) :
    ∃ pieces, (∀ ps, Lexing source ps ↔ ps = pieces) ∧
      (blankComments source).length = source.length ∧
      (∀ i, InComment pieces i → (blankComments source)[i]? =
        source[i]?.map fun c => if c = '\n' then '\n' else ' ') ∧
      (∀ i, ¬ InComment pieces i → (blankComments source)[i]? = source[i]?) ∧
      blankComments (blankComments source) = blankComments source := by
  have whole := flatMap_chars_list source
  refine ⟨list source, fun ps => lexing_iff, ?_, ?_, ?_, blankComments_blankComments source⟩
  · rw [blankComments, length_flatMap_withoutComment, whole]
  · intro i inside
    rw [blankComments, getElem?_of_inComment inside, whole]
    rfl
  · intro i outside
    rw [blankComments, getElem?_of_not_inComment outside, whole]

end SourceSurvey
