import SourceSurvey.Import.Specifiers
import SourceSurvey.Proofs.Import.Search

/-!
# Statements that name a module

The statements that import, export or require one module, each with the form that finds it (`foundIn_head`). The
names in them are free: they may be words that a form starts with.
-/

namespace SourceSurvey

open ImportForm Lexeme

/-! ## Statements -/

/-- A name: ASCII letters, digits, low lines and dollars. -/
structure Identifier where
  chars : List Char
  nonempty : chars ≠ []
  ascii : ∀ c ∈ chars, c.isAlphanum = true ∨ c = '_' ∨ c = '$'

def Identifier.listed : List Identifier → List Char
  | [] => []
  | [n] => n.chars
  | n :: ns => n.chars ++ ',' :: ' ' :: listed ns

inductive ImportStatement where
  /-- `import NAME from 'MODULE';` -/
  | default (name : Identifier) (specifier : QuotedSpecifier)
  /-- `import { NAME, NAME } from 'MODULE';` -/
  | named (names : List Identifier) (specifier : QuotedSpecifier)
  /-- `import * as NAME from 'MODULE';` -/
  | whole (name : Identifier) (specifier : QuotedSpecifier)
  /-- `import 'MODULE';` -/
  | effect (specifier : QuotedSpecifier)
  /-- `export { NAME, NAME } from 'MODULE';` -/
  | reexport (names : List Identifier) (specifier : QuotedSpecifier)
  /-- `export * from 'MODULE';` -/
  | reexportAll (specifier : QuotedSpecifier)
  /-- `const NAME = require('MODULE');` -/
  | require (name : Identifier) (specifier : QuotedSpecifier)
  /-- `const NAME = await import('MODULE');` -/
  | dynamic (name : Identifier) (specifier : QuotedSpecifier)

namespace ImportStatement

@[simp] def specifier : ImportStatement → QuotedSpecifier
  | default _ s | named _ s | whole _ s | effect s | reexport _ s | reexportAll s | require _ s | dynamic _ s => s

@[simp] def opening : ImportStatement → String
  | default .. | effect _ => "import "
  | named .. => "import \x7b "
  | whole .. => "import * as "
  | reexport .. => "export \x7b "
  | reexportAll _ => "export * from "
  | require .. | dynamic .. => "const "

@[simp] def names : ImportStatement → List Char
  | default n _ | whole n _ | require n _ | dynamic n _ => n.chars
  | named ns _ | reexport ns _ => Identifier.listed ns
  | effect _ | reexportAll _ => []

@[simp] def ending : ImportStatement → String
  | default .. | whole .. => " from "
  | named .. | reexport .. => " \x7d from "
  | effect _ | reexportAll _ => ""
  | require .. => " = require("
  | dynamic .. => " = await import("

def head (s : ImportStatement) : List Char := s.opening.toList ++ s.names ++ s.ending.toList

@[simp] def parenthesized : ImportStatement → Bool
  | require .. | dynamic .. => true
  | _ => false

@[simp] def form : ImportStatement → ImportForm
  | default .. | named .. | whole .. => .clause
  | effect _ => .effect
  | reexport .. | reexportAll _ => .reexport
  | require .. => .require
  | dynamic .. => .dynamic

end ImportStatement

/-- The characters that statements are written with, up to the quote. -/
def inStatement (c : Char) : Bool :=
  c.isAlphanum || ['_', '$', ',', ' ', '*', '=', '(', '\x7b', '\x7d'].contains c

theorem plain_of_inStatement {c : Char} (h : inStatement c = true) : opensLiteral c = false ∧ c ≠ '/' := by
  constructor
  · by_contra opens
    simp only [opensLiteral, Bool.not_eq_false, Bool.or_eq_true, beq_iff_eq] at opens
    rcases opens with (rfl | rfl) | rfl <;> exact absurd h (by decide)
  · rintro rfl
    exact absurd h (by decide)

theorem toNat_lt_of_isAlphanum {c : Char} (h : c.isAlphanum = true) : c.toNat < 0x80 := by
  have small {last : Char} (ascii : last.val.toNat < 0x80) (le : c.val ≤ last.val) : c.toNat < 0x80 :=
    Nat.lt_of_le_of_lt (UInt32.le_iff_toNat_le.mp le) ascii
  rcases Bool.or_eq_true_iff.mp h with letter | digit
  · rcases Bool.or_eq_true_iff.mp letter with upper | lower
    · have between : 'A'.val ≤ c.val ∧ c.val ≤ 'Z'.val := of_decide_eq_true upper
      exact small (by decide) between.2
    · have le : c.val ≤ 'z'.val := of_decide_eq_true (Bool.and_eq_true_iff.mp lower).2
      exact small (by decide) le
  · have le : c.val ≤ '9'.val := of_decide_eq_true (Bool.and_eq_true_iff.mp digit).2
    exact small (by decide) le

def inNames (c : Char) : Bool := c.isAlphanum || ['_', '$', ',', ' '].contains c

theorem spec_of_inNames {c : Char} (h : inNames c = true) :
    inStatement c = true ∧ inClause c = true ∧ c ≠ '\x7b' ∧ c ≠ '\x7d' := by
  rcases Bool.or_eq_true_iff.mp h with alphanumeric | mark
  · have word : Text.isWord c = true := by
      rw [Text.isWord, if_pos (toNat_lt_of_isAlphanum alphanumeric), alphanumeric, Bool.true_or]
    refine ⟨Bool.or_eq_true_iff.mpr (Or.inl alphanumeric), by simp [inClause, word], ?_, ?_⟩
    · rintro rfl
      exact absurd alphanumeric (by decide)
    · rintro rfl
      exact absurd alphanumeric (by decide)
  · rw [List.contains_iff_mem] at mark
    simp only [List.mem_cons, List.not_mem_nil, or_false] at mark
    rcases mark with rfl | rfl | rfl | rfl <;> decide

namespace Identifier

variable {n : Identifier} {ns : List Identifier} {c : Char}

theorem inNames_of_mem (hc : c ∈ n.chars) : inNames c = true := by
  rcases n.ascii c hc with alphanumeric | rfl | rfl
  · exact Bool.or_eq_true_iff.mpr (Or.inl alphanumeric)
  · decide
  · decide

theorem inNames_of_mem_listed (hc : c ∈ listed ns) : inNames c = true := by
  induction ns with
  | nil => cases hc
  | cons n ns ih =>
      cases ns with
      | nil => exact inNames_of_mem hc
      | cons m ns =>
          rw [listed, List.mem_append, List.mem_cons, List.mem_cons] at hc
          · rcases hc with hc | rfl | rfl | hc
            · exact inNames_of_mem hc
            · decide
            · decide
            · exact ih hc
          · exact List.cons_ne_nil m ns

end Identifier

namespace ImportStatement

theorem inNames_names (s : ImportStatement) {c : Char} (hc : c ∈ s.names) : inNames c = true := by
  cases s with
  | default n | whole n | require n | dynamic n => exact Identifier.inNames_of_mem hc
  | named ns | reexport ns => exact Identifier.inNames_of_mem_listed hc
  | effect | reexportAll => cases hc

theorem inStatement_head (s : ImportStatement) : ∀ c ∈ s.head, inStatement c = true := by
  have opening : ∀ c ∈ s.opening.toList, inStatement c = true :=
    List.all_eq_true.mp (by cases s <;> simp only [opening] <;> decide)
  have ending : ∀ c ∈ s.ending.toList, inStatement c = true :=
    List.all_eq_true.mp (by cases s <;> simp only [ending] <;> decide)
  rw [head, List.forall_mem_append, List.forall_mem_append]
  exact ⟨⟨opening, fun c hc => (spec_of_inNames (s.inNames_names hc)).1⟩, ending⟩

/-- Where an opening brace is written, a closing one comes behind it, and no other opens. -/
theorem closed_head (s : ImportStatement) :
    ∀ front back, s.head = front ++ '\x7b' :: back → '\x7d' ∈ back := by
  intro front back whole
  have none : '\x7b' ∉ s.ending.toList := by
    cases s <;> simp only [ending] <;> decide
  have paired : '\x7b' ∈ s.opening.toList → '\x7d' ∈ s.ending.toList := by
    cases s <;> simp only [opening, ending] <;> decide
  rw [head] at whole
  rcases List.append_eq_append_iff.mp whole with ⟨more, rfl, split⟩ | ⟨more, split, rest⟩
  · rw [split] at none
    simp at none
  · cases more with
    | nil =>
        rw [List.nil_append] at rest
        rw [← rest] at none
        simp at none
    | cons d more =>
        obtain ⟨rfl, rfl⟩ := List.cons.inj rest
        -- no name is a brace, so the brace opens the names
        have opens : '\x7b' ∈ s.opening.toList := by
          have mem : '\x7b' ∈ s.opening.toList ++ s.names := by rw [split]; simp
          rcases List.mem_append.mp mem with mem | mem
          · exact mem
          · exact absurd rfl (spec_of_inNames (s.inNames_names mem)).2.2.1
        exact List.mem_append_right more (paired opens)

def line (s : ImportStatement) : QuotedLine where
  head := s.head
  specifier := s.specifier
  parenthesized := s.parenthesized
  plain c hc := plain_of_inStatement (s.inStatement_head c hc)
  closed := s.closed_head

end ImportStatement

/-! ## Each statement is found by its form -/

theorem skipBlanks_quote {quote : Char} {l : List Char} (h : isQuote quote = true) :
    skipBlanks (quote :: l) = quote :: l := by
  have blank : Text.isBlank quote = false := by
    rcases eq_quote_of_isQuote h with rfl | rfl <;> decide
  rw [skipBlanks, List.dropWhile_cons_of_neg (by rw [blank]; decide)]

namespace QuotedSpecifier

variable (q : QuotedSpecifier) {r : List Char}

theorem quoted?_eq : quoted? (q.quote :: (q.chars ++ q.quote :: r)) =
    some ⟨q.chars ++ q.quote :: r, q.chars, r⟩ := by
  have inside : ∀ c ∈ q.chars, (!ImportForm.isQuote c && c != '\n') = true := by
    intro c hc
    obtain ⟨plain, -, line, -⟩ := q.plain c hc
    simp [plain, line]
  have stop : ¬ (!ImportForm.isQuote q.quote && q.quote != '\n') = true := by
    rw [q.isQuote]
    simp
  have chars : (q.chars ++ q.quote :: r).takeWhile (fun c => !ImportForm.isQuote c && c != '\n') = q.chars := by
    rw [List.takeWhile_append_of_pos inside, List.takeWhile_cons, if_neg stop, List.append_nil]
  have rest : (q.chars ++ q.quote :: r).dropWhile (fun c => !ImportForm.isQuote c && c != '\n') = q.quote :: r := by
    rw [List.dropWhile_append_of_pos inside, List.dropWhile_cons, if_neg stop]
  rw [quoted?, chars, rest]
  simp [q.isQuote, q.nonempty]

theorem fromQuoted?_eq : fromQuoted? (" from ".toList ++ q.quote :: r) = quoted? (q.quote :: r) := by
  have first : skipBlanks (" from ".toList ++ q.quote :: r) = "from ".toList ++ q.quote :: r := rfl
  have word : Text.dropStart? "from".toList ("from ".toList ++ q.quote :: r) = some (" ".toList ++ q.quote :: r) :=
    rfl
  have second : skipBlanks (" ".toList ++ q.quote :: r) = skipBlanks (q.quote :: r) := rfl
  rw [fromQuoted?, first, word, Option.bind_eq_bind, Option.bind_some, second, skipBlanks_quote q.isQuote]

/-- Names that are followed by the word `from` lead to the specifier. -/
theorem clause?_eq {names : List Char} (inside : ∀ c ∈ names, inClause c = true) :
    clause? (names ++ " from ".toList ++ q.quote :: r) = quoted? (q.quote :: r) := by
  have inside' : ∀ c ∈ names ++ " from ".toList, inClause c = true :=
    List.forall_mem_append.mpr ⟨inside, List.all_eq_true.mp (by decide)⟩
  have stop : ¬ inClause q.quote = true := by
    intro h
    have plain := isQuote_of_inClause h
    rw [q.isQuote] at plain
    cases plain
  have trimmed : Text.dropEndWhile Text.isBlank (names ++ " from ".toList) = names ++ " from".toList := by
    rw [Text.dropEndWhile, List.reverse_append]
    show (" from".toList.reverse ++ names.reverse).reverse = _
    rw [← List.reverse_append, List.reverse_reverse]
  have ends : "from".toList.isSuffixOf (names ++ " from".toList) = true :=
    List.isSuffixOf_iff_suffix.mpr ⟨names ++ [' '], by rw [List.append_assoc]; rfl⟩
  have long : 4 < (names ++ " from".toList).length := by
    rw [List.length_append]
    exact Nat.lt_of_lt_of_le (by decide : 4 < 5) (Nat.le_add_left 5 names.length)
  unfold clause?
  rw [List.takeWhile_append_of_pos inside', List.dropWhile_append_of_pos inside', List.takeWhile_cons_of_neg stop,
    List.dropWhile_cons_of_neg stop, List.append_nil, trimmed, if_pos]
  rw [ends, Bool.true_and]
  exact decide_eq_true long

theorem reexport?_braces {names : List Char} (inside : ∀ c ∈ names, c ≠ '\x7d') :
    reexport? (" \x7b".toList ++ names ++ "\x7d from ".toList ++ q.quote :: r) = quoted? (q.quote :: r) := by
  have inside' : ∀ c ∈ names, (c != '\x7d') = true := fun c hc => bne_iff_ne.mpr (inside c hc)
  have names_ : (names ++ '\x7d' :: (" from ".toList ++ q.quote :: r)).dropWhile (· != '\x7d') =
      '\x7d' :: (" from ".toList ++ q.quote :: r) := List.dropWhile_append_of_pos inside'
  have start : " \x7b".toList ++ names ++ "\x7d from ".toList ++ q.quote :: r =
      ' ' :: '\x7b' :: (names ++ '\x7d' :: (" from ".toList ++ q.quote :: r)) := by simp
  have opened (l : List Char) : reexport?.afterType (skipBlanks (' ' :: '\x7b' :: l)) = '\x7b' :: l := rfl
  rw [start]
  unfold reexport?
  split
  · next h =>
    rw [opened] at h
    exact absurd (List.cons.inj h).1 (by decide)
  · next h =>
    rw [opened] at h
    obtain ⟨-, rfl⟩ := List.cons.inj h
    rw [names_]
    exact q.fromQuoted?_eq
  · next all braces =>
    exact absurd (opened _) (braces _)

theorem reexport?_all : reexport? (" * from ".toList ++ q.quote :: r) = quoted? (q.quote :: r) := by
  have renamed : renamed? (" from ".toList ++ q.quote :: r) = none := rfl
  have all : reexport?.afterType (skipBlanks (" * from ".toList ++ q.quote :: r)) =
      '*' :: (" from ".toList ++ q.quote :: r) := rfl
  unfold reexport?
  split
  · next h =>
    rw [all] at h
    obtain ⟨-, rfl⟩ := List.cons.inj h
    rw [renamed]
    exact q.fromQuoted?_eq
  · next h =>
    rw [all] at h
    exact absurd (List.cons.inj h).1 (by decide)
  · next star _ => exact absurd all (star _)

theorem parenthesized?_eq : parenthesized? ('(' :: q.quote :: (q.chars ++ q.quote :: ')' :: r)) =
    some ⟨q.chars ++ q.quote :: ')' :: r, q.chars, r⟩ := by
  have opened : skipBlanks ('(' :: q.quote :: (q.chars ++ q.quote :: ')' :: r)) =
      '(' :: q.quote :: (q.chars ++ q.quote :: ')' :: r) := rfl
  have closed : skipBlanks (')' :: r) = ')' :: r := rfl
  unfold parenthesized?
  split
  · next h =>
    rw [opened] at h
    obtain ⟨-, rfl⟩ := List.cons.inj h
    rw [skipBlanks_quote q.isQuote, q.quoted?_eq, Option.bind_eq_bind, Option.bind_some]
    dsimp only
    rw [closed]
    rfl
  · next h => exact absurd opened (h _)

end QuotedSpecifier

theorem read?_word (form : ImportForm) (l : List Char) : form.read? (form.word.toList ++ l) = form.readAfter? l := by
  have start : form.word.toList.isPrefixOf (form.word.toList ++ l) = true :=
    List.isPrefixOf_iff_prefix.mpr (List.prefix_append _ _)
  rw [read?, Text.dropStart?, if_pos start, List.drop_left]
  rfl

theorem foundIn_word {form : ImportForm} {l behind : List Char} (h : form.readAfter? (l ++ behind) ≠ none) :
    FoundIn form behind true (form.word.toList ++ l) := by
  have read : form.read? (form.word.toList ++ l ++ behind) ≠ none := by
    rwa [List.append_assoc, read?_word]
  cases form <;> exact Or.inl ⟨rfl, read⟩

namespace QuotedSpecifier

variable (q : QuotedSpecifier) {names : List Char} (r : List Char)

def inQuotes (r : List Char) : List Char := q.quote :: (q.chars ++ q.quote :: r)

theorem foundIn_clause (inside : ∀ c ∈ names, inClause c = true) :
    FoundIn .clause (q.inQuotes r) true (ImportForm.clause.word.toList ++ (names ++ " from ".toList)) := by
  apply foundIn_word
  show clause? _ ≠ none
  rw [inQuotes, q.clause?_eq inside, q.quoted?_eq]
  exact Option.some_ne_none _

theorem foundIn_effect : FoundIn .effect (q.inQuotes r) true (ImportForm.effect.word.toList ++ [' ']) := by
  apply foundIn_word
  show quoted? (skipBlanks (q.inQuotes r)) ≠ none
  rw [inQuotes, skipBlanks_quote q.isQuote, q.quoted?_eq]
  exact Option.some_ne_none _

theorem foundIn_braces (inside : ∀ c ∈ names, c ≠ '\x7d') : FoundIn .reexport (q.inQuotes r) true
    (ImportForm.reexport.word.toList ++ (" \x7b".toList ++ names ++ "\x7d from ".toList)) := by
  apply foundIn_word
  rw [readAfter?, inQuotes, q.reexport?_braces inside, q.quoted?_eq]
  exact Option.some_ne_none _

theorem foundIn_all :
    FoundIn .reexport (q.inQuotes r) true (ImportForm.reexport.word.toList ++ " * from ".toList) := by
  apply foundIn_word
  rw [readAfter?, inQuotes, q.reexport?_all, q.quoted?_eq]
  exact Option.some_ne_none _

theorem foundIn_call {f : ImportForm} (call : f.readAfter? = parenthesized?) (front : List Char) :
    FoundIn f (q.inQuotes (')' :: r)) true (front ++ ' ' :: (f.word.toList ++ ['('])) := by
  apply FoundIn.append
  apply foundIn_word
  rw [call, List.singleton_append, inQuotes, q.parenthesized?_eq]
  exact Option.some_ne_none _

end QuotedSpecifier

namespace ImportStatement

/-- **A statement is found by the form that it has.** -/
theorem foundIn_head (s : ImportStatement) (r : List Char) :
    FoundIn s.form (s.specifier.inQuotes (s.line.tail ++ r)) true s.head := by
  have plain : ∀ c ∈ s.names, inClause c = true ∧ c ≠ '\x7d' := fun c hc =>
    have spec := spec_of_inNames (s.inNames_names hc)
    ⟨spec.2.1, spec.2.2.2⟩
  cases s with
  | default n q =>
      have inside : ∀ c ∈ ' ' :: n.chars, inClause c = true :=
        List.forall_mem_cons.mpr ⟨by decide, fun c hc => (plain c hc).1⟩
      have found := q.foundIn_clause (';' :: r) inside
      simpa [head, line, word, QuotedLine.tail] using found
  | named ns q =>
      have inside : ∀ c ∈ " \x7b ".toList ++ Identifier.listed ns ++ " \x7d".toList, inClause c = true := by
        rw [List.forall_mem_append, List.forall_mem_append]
        exact ⟨⟨List.all_eq_true.mp (by decide), fun c hc => (plain c hc).1⟩, List.all_eq_true.mp (by decide)⟩
      have found := q.foundIn_clause (';' :: r) inside
      simpa [head, line, word, QuotedLine.tail] using found
  | whole n q =>
      have inside : ∀ c ∈ " * as ".toList ++ n.chars, inClause c = true :=
        List.forall_mem_append.mpr ⟨List.all_eq_true.mp (by decide), fun c hc => (plain c hc).1⟩
      have found := q.foundIn_clause (';' :: r) inside
      simpa [head, line, word, QuotedLine.tail] using found
  | effect q =>
      have found := q.foundIn_effect (';' :: r)
      simpa [head, line, word, QuotedLine.tail] using found
  | reexport ns q =>
      have inside : ∀ c ∈ ' ' :: (Identifier.listed ns ++ [' ']), c ≠ '\x7d' := by
        rw [List.forall_mem_cons, List.forall_mem_append]
        exact ⟨by decide, fun c hc => (plain c hc).2, List.forall_mem_singleton.mpr (by decide)⟩
      have found := q.foundIn_braces (';' :: r) inside
      simpa [head, line, word, QuotedLine.tail] using found
  | reexportAll q =>
      have found := q.foundIn_all (';' :: r)
      simpa [head, line, word, QuotedLine.tail] using found
  | require n q =>
      have found := q.foundIn_call (';' :: r) (f := .require) rfl ("const ".toList ++ n.chars ++ " =".toList)
      simpa [head, line, word, QuotedLine.tail] using found
  | dynamic n q =>
      have found := q.foundIn_call (';' :: r) (f := .dynamic) rfl ("const ".toList ++ n.chars ++ " = await".toList)
      simpa [head, line, word, QuotedLine.tail] using found

theorem foundIn_line (s : ImportStatement) (r : List Char) :
    FoundIn s.form (s.line.specifier.quote :: (s.line.behind ++ r)) true s.line.head := by
  rw [QuotedLine.behind, List.append_assoc, List.cons_append]
  exact s.foundIn_head r

end ImportStatement

end SourceSurvey
