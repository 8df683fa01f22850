import Mathlib.Data.List.Infix
import Mathlib.Data.List.TakeWhile
import SourceSurvey.Import.Lexeme

/-!
# Reading from left to right

What a literal is and what a comment is, said without a reader: a literal stands between two quotes of one
kind (`IsLiteral`), a comment runs to the end of its line, to the first closing mark, or to the end of the
source (`IsCommentBefore`). The first piece of a source is a literal or a comment if it starts with one, and
otherwise its first character (`First`). The pieces that are read are just these (`lexing_iff`), so that a
source has one reading.
-/

namespace SourceSurvey.Lexeme

variable {quote c : Char} {l t r body : List Char}

/-! ## Literals -/

/-- What stands between the quotes: escaped characters, and others that neither close the literal nor escape.
A line feed is escaped, unless the literal may go over several lines. -/
inductive Body (quote : Char) : List Char → Prop
  | nil : Body quote []
  | escaped {c : Char} {t : List Char} : Body quote t → Body quote ('\\' :: c :: t)
  | plain {c : Char} {t : List Char} : c ≠ quote → c ≠ '\\' → (c = '\n' → spansLines quote = true) →
      Body quote t → Body quote (c :: t)

/-- A text between two quotes of one kind. -/
def IsLiteral (t : List Char) : Prop :=
  ∃ quote body, opensLiteral quote = true ∧ Body quote body ∧ t = quote :: (body ++ [quote])

theorem ne_backslash_of_opensLiteral (h : opensLiteral quote = true) : quote ≠ '\\' := by
  rintro rfl
  exact absurd h (by decide)

theorem closeLiteral_plain (escape : c ≠ '\\') : closeLiteral quote (c :: l) =
    if c = quote then some ([c], l)
    else if c = '\n' && !spansLines quote then none
    else (closeLiteral quote l).map fun s => (c :: s.1, s.2) := by
  rw [closeLiteral]
  rintro d rest rfl
  exact absurd rfl escape

theorem Body.closeLiteral_append (hb : Body quote body) (escape : quote ≠ '\\') (r : List Char) :
    closeLiteral quote (body ++ quote :: r) = some (body ++ [quote], r) := by
  induction hb with
  | nil => rw [List.nil_append, closeLiteral_plain escape, if_pos rfl]; rfl
  | escaped _ ih =>
      show closeLiteral quote ('\\' :: _ :: (_ ++ quote :: r)) = _
      rw [closeLiteral, ih]
      rfl
  | plain other escape' line _ ih =>
      rw [List.cons_append, closeLiteral_plain escape', if_neg other, if_neg, ih]
      · rfl
      · rintro broken
        rw [Bool.and_eq_true, decide_eq_true_eq, Bool.not_eq_true'] at broken
        exact absurd (line broken.1) (by rw [broken.2]; decide)

theorem exists_body_of_closeLiteral {s : List Char × List Char} (h : closeLiteral quote l = some s) :
    ∃ body, Body quote body ∧ s.1 = body ++ [quote] ∧ l = body ++ quote :: s.2 := by
  fun_induction closeLiteral quote l generalizing s with
  | case1 => contradiction
  | case2 c rest ih =>
      obtain ⟨s', hs, rfl⟩ := Option.map_eq_some_iff.1 h
      obtain ⟨body, hb, first, rfl⟩ := ih hs
      exact ⟨'\\' :: c :: body, .escaped hb, by rw [first]; rfl, rfl⟩
  | case3 rest escape =>
      cases h
      exact ⟨[], .nil, rfl, rfl⟩
  | case4 => contradiction
  | case5 c rest escape other line ih =>
      obtain ⟨s', hs, rfl⟩ := Option.map_eq_some_iff.1 h
      obtain ⟨body, hb, first, rfl⟩ := ih hs
      refine ⟨c :: body, .plain other ?_ ?_ hb, by rw [first]; rfl, rfl⟩
      · rintro rfl
        -- a backslash would have escaped what follows it
        cases body with
        | nil => exact escape _ _ rfl rfl
        | cons d body => exact escape _ _ rfl rfl
      · intro feed
        by_contra single
        exact line (by simp [feed, single])

/-! ## Comments -/

def closing : List Char := ['*', '/']

/-- A text that is a comment where `rest` follows. -/
inductive IsCommentBefore (rest : List Char) : List Char → Prop
  | line {t : List Char} : '\n' ∉ t → (∀ c ∈ rest.head?, c = '\n') → IsCommentBefore rest ('/' :: '/' :: t)
  | block {t : List Char} : ¬ closing <:+: t → IsCommentBefore rest ('/' :: '*' :: (t ++ closing))
  | unclosed {t : List Char} : ¬ closing <:+: t → rest = [] → IsCommentBefore rest ('/' :: '*' :: t)

theorem closeComment_cons (h : ¬ closing <+: c :: l) :
    closeComment (c :: l) = (c :: (closeComment l).1, (closeComment l).2) := by
  rw [closeComment]
  rintro rest rfl rfl
  exact h ⟨rest, rfl⟩

theorem closeComment_append_closing (h : ¬ closing <:+: t) (r : List Char) :
    closeComment (t ++ (closing ++ r)) = (t ++ closing, r) := by
  induction t with
  | nil => rfl
  | cons c t ih =>
      rw [List.infix_cons_iff, not_or] at h
      rw [List.cons_append, closeComment_cons, ih h.2]
      · rfl
      · -- the mark does not begin with the last character before it
        rintro ⟨rest, split⟩
        cases t with
        | nil => simp [closing] at split
        | cons d t =>
            refine h.1 ⟨t, ?_⟩
            simp only [closing, List.cons_append, List.nil_append, List.cons.injEq] at split ⊢
            exact ⟨split.1, split.2.1, trivial⟩

theorem closeComment_of_open (h : ¬ closing <:+: l) : closeComment l = (l, []) := by
  induction l with
  | nil => rfl
  | cons c l ih =>
      rw [List.infix_cons_iff, not_or] at h
      rw [closeComment_cons h.1, ih h.2]

theorem closeComment_cases (l : List Char) :
    (∃ t r, ¬ closing <:+: t ∧ l = t ++ (closing ++ r) ∧ closeComment l = (t ++ closing, r)) ∨
      ¬ closing <:+: l ∧ closeComment l = (l, []) := by
  by_cases h : closing <:+: l
  · left
    -- the shortest start of the source after which the mark stands
    obtain ⟨t, r, first, split⟩ : ∃ t r, ¬ closing <:+: t ∧ l = t ++ (closing ++ r) := by
      induction l with
      | nil => exact absurd (List.infix_nil.mp h) (by decide)
      | cons c l ih =>
          by_cases here : closing <+: c :: l
          · obtain ⟨r, split⟩ := here
            exact ⟨[], r, fun inside => absurd (List.infix_nil.mp inside) (by decide), split.symm⟩
          · obtain ⟨t, r, first, rfl⟩ := ih ((List.infix_cons_iff.mp h).resolve_left here)
            refine ⟨c :: t, r, ?_, rfl⟩
            rw [List.infix_cons_iff, not_or]
            exact ⟨fun start => here (start.trans ⟨closing ++ r, rfl⟩), first⟩
    rw [split]
    exact ⟨t, r, first, rfl, closeComment_append_closing first r⟩
  · exact Or.inr ⟨h, closeComment_of_open h⟩

/-! ## The pieces of a source -/

/-- The first piece of a source and what follows it: a literal or a comment where the source starts with one,
otherwise the first character. -/
inductive First : List Char → Lexeme → List Char → Prop
  | literal {t rest : List Char} : IsLiteral t → First (t ++ rest) (.literal t) rest
  | comment {t rest : List Char} : IsCommentBefore rest t → First (t ++ rest) (.comment t) rest
  | other {c : Char} {rest : List Char} : (∀ t, IsLiteral t → ¬ t <+: c :: rest) →
      ¬ ['/', '/'] <+: c :: rest → ¬ ['/', '*'] <+: c :: rest → First (c :: rest) (.other c) rest

inductive Lexing : List Char → List Lexeme → Prop
  | nil : Lexing [] []
  | cons {l rest : List Char} {p : Lexeme} {ps : List Lexeme} :
      First l p rest → Lexing rest ps → Lexing l (p :: ps)

theorem read_of_opensLiteral (h : opensLiteral c = true) : read c l =
    ((closeLiteral c l).map fun s => (literal (c :: s.1), s.2)).getD (other c, l) := by
  unfold read
  rw [if_pos h]
  cases closeLiteral c l <;> rfl

theorem read_other (literal : opensLiteral c = false) (slash : c ≠ '/') : read c l = (other c, l) := by
  unfold read
  rw [if_neg (by rw [literal]; decide), if_neg slash]

theorem read_slash_other (line : l.head? ≠ some '/') (block : l.head? ≠ some '*') :
    read '/' l = (other '/', l) := by
  unfold read
  rw [if_neg (by decide), if_pos rfl]
  split
  · exact absurd rfl block
  · exact absurd rfl line
  · rfl

theorem read_line (h : '\n' ∉ t) (ends : ∀ c ∈ r.head?, c = '\n') :
    read '/' ('/' :: (t ++ r)) = (comment ('/' :: '/' :: t), r) := by
  have stays : ∀ d ∈ '/' :: t, (d != '\n') = true := by
    intro d hd
    rw [bne_iff_ne]
    rintro rfl
    rcases List.mem_cons.mp hd with slash | mem
    · exact absurd slash (by decide)
    · exact h mem
  have stop : r.takeWhile (· != '\n') = [] ∧ r.dropWhile (· != '\n') = r := by
    cases r with
    | nil => exact ⟨rfl, rfl⟩
    | cons d r =>
        obtain rfl := ends d rfl
        exact ⟨rfl, rfl⟩
  show (comment ('/' :: List.takeWhile _ ('/' :: t ++ r)), List.dropWhile _ ('/' :: t ++ r)) = _
  rw [List.takeWhile_append_of_pos stays, List.dropWhile_append_of_pos stays, stop.1, stop.2,
    List.append_nil]

theorem read_block : read '/' ('*' :: l) = (comment ('/' :: '*' :: (closeComment l).1), (closeComment l).2) :=
  rfl

/-! ## One reading -/

theorem First.ne_nil {p : Lexeme} (h : First l p r) : l ≠ [] := by
  cases h with
  | literal literal =>
      obtain ⟨quote, body, -, -, rfl⟩ := literal
      exact List.cons_ne_nil _ _
  | comment comment => cases comment <;> exact List.cons_ne_nil _ _
  | other => exact List.cons_ne_nil _ _

theorem opensLiteral_of_start (literal : IsLiteral t) (start : t <+: c :: l) : opensLiteral c = true := by
  obtain ⟨quote, body, opens, -, rfl⟩ := literal
  obtain ⟨rest, split⟩ := start
  obtain ⟨rfl, -⟩ := List.cons.inj split
  exact opens

/-- A quote opens a literal if and only if it is closed. -/
theorem exists_literal_iff (opens : opensLiteral c = true) :
    (∃ t, IsLiteral t ∧ t <+: c :: l) ↔ ∃ s, closeLiteral c l = some s := by
  constructor
  · rintro ⟨t, ⟨quote, body, -, hb, rfl⟩, ⟨rest, split⟩⟩
    rw [List.cons_append, List.append_assoc] at split
    obtain ⟨rfl, rfl⟩ := List.cons.inj split
    exact ⟨_, hb.closeLiteral_append (ne_backslash_of_opensLiteral opens) rest⟩
  · rintro ⟨s, closed⟩
    obtain ⟨body, hb, -, rfl⟩ := exists_body_of_closeLiteral closed
    exact ⟨c :: (body ++ [c]), ⟨c, body, opens, hb, rfl⟩, s.2, by simp⟩

theorem First.read_eq {p : Lexeme} (h : First (c :: l) p r) : read c l = (p, r) := by
  generalize whole : c :: l = source at h
  cases h with
  | literal literal =>
      obtain ⟨quote, body, opens, hb, rfl⟩ := literal
      rw [List.cons_append, List.append_assoc] at whole
      obtain ⟨rfl, rfl⟩ := List.cons.inj whole
      rw [read_of_opensLiteral opens, List.singleton_append,
        hb.closeLiteral_append (ne_backslash_of_opensLiteral opens)]
      rfl
  | comment comment =>
      cases comment with
      | line short ends =>
          obtain ⟨rfl, rfl⟩ := List.cons.inj whole
          exact read_line short ends
      | block first =>
          rw [List.cons_append, List.cons_append, List.append_assoc] at whole
          obtain ⟨rfl, rfl⟩ := List.cons.inj whole
          rw [read_block, closeComment_append_closing first]
      | unclosed first last =>
          subst last
          rw [List.append_nil] at whole
          obtain ⟨rfl, rfl⟩ := List.cons.inj whole
          rw [read_block, closeComment_of_open first]
  | other literal line block =>
      obtain ⟨rfl, rfl⟩ := List.cons.inj whole
      by_cases opens : opensLiteral c = true
      · rw [read_of_opensLiteral opens]
        cases closed : closeLiteral c l with
        | none => rfl
        | some s =>
            obtain ⟨t, found, start⟩ := (exists_literal_iff opens).mpr ⟨s, closed⟩
            exact absurd start (literal t found)
      · by_cases slash : c = '/'
        · subst slash
          apply read_slash_other
          · intro first
            obtain ⟨rest, rfl⟩ := List.head?_eq_some_iff.mp first
            exact line ⟨rest, rfl⟩
          · intro first
            obtain ⟨rest, rfl⟩ := List.head?_eq_some_iff.mp first
            exact block ⟨rest, rfl⟩
        · exact read_other (Bool.not_eq_true _ ▸ opens) slash

theorem First.of_ne_slash (literal : ∀ t, IsLiteral t → ¬ t <+: c :: l) (slash : c ≠ '/') :
    First (c :: l) (.other c) l := by
  apply First.other literal
  · rintro ⟨rest, split⟩
    exact slash (List.cons.inj split).1.symm
  · rintro ⟨rest, split⟩
    exact slash (List.cons.inj split).1.symm

theorem first_read_of_opensLiteral (opens : opensLiteral c = true) :
    First (c :: l) (read c l).1 (read c l).2 := by
  rw [read_of_opensLiteral opens]
  cases closed : closeLiteral c l with
  | some s =>
      obtain ⟨body, hb, first, rfl⟩ := exists_body_of_closeLiteral closed
      have literal : IsLiteral (c :: (body ++ [c])) := ⟨c, body, opens, hb, rfl⟩
      have piece : First (c :: (body ++ [c]) ++ s.2) (.literal (c :: (body ++ [c]))) s.2 := .literal literal
      rw [List.cons_append, List.append_assoc] at piece
      rw [Option.map_some, Option.getD_some, first]
      exact piece
  | none =>
      apply First.of_ne_slash
      · intro t literal start
        obtain ⟨s, found⟩ := (exists_literal_iff opens).mp ⟨t, literal, start⟩
        rw [closed] at found
        cases found
      · rintro rfl
        exact absurd opens (by decide)

/-- A line comment is read up to the end of its line. -/
theorem first_read_line (l : List Char) :
    First ('/' :: '/' :: l) (read '/' ('/' :: l)).1 (read '/' ('/' :: l)).2 := by
  have short : '\n' ∉ l.takeWhile (· != '\n') := by
    intro mem
    have kept := List.mem_takeWhile_imp mem
    exact absurd kept (by decide)
  have ends : ∀ c ∈ (l.dropWhile (· != '\n')).head?, c = '\n' := by
    intro c first
    have stop := List.head?_dropWhile_not (· != '\n') l
    rw [Option.mem_def.mp first] at stop
    simpa using stop
  have piece := First.comment (IsCommentBefore.line short ends)
  have whole := read_line short ends
  rw [List.takeWhile_append_dropWhile] at whole
  rw [whole]
  rwa [List.cons_append, List.cons_append, List.takeWhile_append_dropWhile] at piece

/-- A block comment is read up to its closing mark, or to the end of the source. -/
theorem first_read_block (l : List Char) :
    First ('/' :: '*' :: l) (read '/' ('*' :: l)).1 (read '/' ('*' :: l)).2 := by
  rw [read_block]
  rcases closeComment_cases l with ⟨t, r, first, rfl, closed⟩ | ⟨first, closed⟩
  · rw [closed]
    have comment : IsCommentBefore r ('/' :: '*' :: (t ++ closing)) := .block first
    have piece := First.comment comment
    rwa [List.cons_append, List.cons_append, List.append_assoc] at piece
  · rw [closed]
    have comment : IsCommentBefore [] ('/' :: '*' :: l) := .unclosed first rfl
    have piece := First.comment comment
    rwa [List.append_nil] at piece

theorem first_read (c : Char) (l : List Char) : First (c :: l) (read c l).1 (read c l).2 := by
  by_cases opens : opensLiteral c = true
  · exact first_read_of_opensLiteral opens
  have literal : ∀ t, IsLiteral t → ¬ t <+: c :: l := fun t h start => opens (opensLiteral_of_start h start)
  by_cases slash : c = '/'
  · subst slash
    by_cases line : ['/', '/'] <+: '/' :: l
    · obtain ⟨rest, split⟩ := line
      obtain ⟨-, rfl⟩ := List.cons.inj split
      exact first_read_line rest
    by_cases block : ['/', '*'] <+: '/' :: l
    · obtain ⟨rest, split⟩ := block
      obtain ⟨-, rfl⟩ := List.cons.inj split
      exact first_read_block rest
    have piece := First.other literal line block
    rw [piece.read_eq]
    exact piece
  · rw [read_other (Bool.not_eq_true _ ▸ opens) slash]
    exact First.of_ne_slash literal slash

/-- **A source is read in one way.** -/
theorem lexing_iff {ps : List Lexeme} : Lexing l ps ↔ ps = list l := by
  constructor
  · intro lexed
    induction lexed with
    | nil => rw [list]
    | @cons l rest p ps first _ ih =>
        obtain ⟨c, l, rfl⟩ := List.exists_cons_of_ne_nil first.ne_nil
        rw [list, first.read_eq, ih]
  · rintro rfl
    fun_induction list l with
    | case1 => exact .nil
    | case2 c rest ih => exact .cons (first_read c rest) ih

end SourceSurvey.Lexeme
