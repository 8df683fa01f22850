import SourceSurvey.Proofs.Import.Blanking
import SourceSurvey.Proofs.Import.Statements

/-!
# Sources made of imports and comments

A source is written line by line, each line a comment or a statement that names one module. Whatever the names in
the statements are, and whatever the comments and the specifiers contain, the specifiers that are found are those
of the statements, in order (`specifiers_unlines`).
-/

namespace SourceSurvey

open Lexeme

/-! ## Comments in and between statements -/

theorem blankComments_of_first {l r : List Char} {p : Lexeme} (first : First l p r) :
    blankComments l = p.withoutComment ++ blankComments r := by
  have rest : Lexing r (list r) := lexing_iff.mpr rfl
  rw [blankComments_of_lexing (.cons first rest), List.flatMap_cons, blankComments]

theorem blankComments_append_of_plain {l : List Char} (plain : ∀ c ∈ l, opensLiteral c = false ∧ c ≠ '/')
    (r : List Char) : blankComments (l ++ r) = l ++ blankComments r := by
  induction l with
  | nil => rfl
  | cons c l ih =>
      obtain ⟨⟨opens, slash⟩, rest⟩ := List.forall_mem_cons.mp plain
      have first : First (c :: (l ++ r)) (.other c) (l ++ r) := by
        apply First.of_ne_slash _ slash
        intro t literal start
        have opens' := opensLiteral_of_start literal start
        rw [opens] at opens'
        cases opens'
      rw [List.cons_append, blankComments_of_first first, ih rest]
      rfl

theorem Lexeme.Body.of_plain {quote : Char} {t : List Char} (h : ∀ c ∈ t, c ≠ quote ∧ c ≠ '\\' ∧ c ≠ '\n') :
    Body quote t := by
  induction t with
  | nil => exact .nil
  | cons c t ih =>
      obtain ⟨⟨other, escape, line⟩, rest⟩ := List.forall_mem_cons.mp h
      exact .plain other escape (fun feed => absurd feed line) (ih rest)

theorem QuotedSpecifier.isLiteral (q : QuotedSpecifier) : IsLiteral (q.quote :: (q.chars ++ [q.quote])) := by
  refine ⟨q.quote, q.chars, ?_, .of_plain fun c hc => ?_, rfl⟩
  · rcases ImportForm.eq_quote_of_isQuote q.isQuote with quote | quote <;> rw [quote] <;> decide
  · obtain ⟨plain, escape, line, -⟩ := q.plain c hc
    refine ⟨?_, escape, line⟩
    rintro rfl
    rw [q.isQuote] at plain
    cases plain

/-- In a line that quotes a specifier there is no comment, also where the specifier contains the marks of one. -/
theorem QuotedLine.blankComments_text_append (q : QuotedLine) (r : List Char) :
    blankComments (q.text ++ r) = q.text ++ blankComments r := by
  have tail : ∀ c ∈ q.tail, opensLiteral c = false ∧ c ≠ '/' := by
    intro c hc
    unfold QuotedLine.tail at hc
    split at hc
    · simp only [List.mem_cons, List.not_mem_nil, or_false] at hc
      rcases hc with rfl | rfl <;> decide
    · rw [List.mem_singleton.mp hc]
      decide
  have whole (r : List Char) : q.text ++ r =
      q.head ++ (q.specifier.quote :: (q.specifier.chars ++ [q.specifier.quote]) ++ (q.tail ++ r)) := by
    simp [QuotedLine.text, QuotedLine.behind]
  rw [whole, whole, blankComments_append_of_plain q.plain,
    blankComments_of_first (.literal q.specifier.isLiteral), blankComments_append_of_plain tail]
  rfl

/-! ## Lines -/

/-- A line of a source: a comment, or a statement that names a module. -/
inductive SourceLine where
  /-- `// TEXT` -/
  | lineComment (text : List Char) (short : '\n' ∉ text)
  /-- A text between the marks of a block comment, with line feeds or without. -/
  | blockComment (text : List Char) (first : ¬ closing <:+: text)
  | statement (s : ImportStatement)

namespace SourceLine

def chars : SourceLine → List Char
  | lineComment t _ => '/' :: '/' :: t
  | blockComment t _ => '/' :: '*' :: (t ++ closing)
  | statement s => s.line.text

def text (line : SourceLine) : String := String.ofList line.chars

def specifier? : SourceLine → Option String
  | statement s => some (String.ofList s.specifier.chars)
  | _ => none

def blanked : SourceLine → List Char
  | statement s => s.line.text
  | line => blank line.chars

/-- The specifier of a line that starts at an offset, with its own offset. -/
def located (offset : Nat) : SourceLine → List (Nat × String)
  | statement s => [(offset + s.head.length + 1, String.ofList s.specifier.chars)]
  | _ => []

theorem blankComments_chars_append (line : SourceLine) {r : List Char} (ends : ∀ c ∈ r.head?, c = '\n') :
    blankComments (line.chars ++ r) = line.blanked ++ blankComments r := by
  cases line with
  | lineComment t short => exact blankComments_of_first (.comment (.line short ends))
  | blockComment t first => exact blankComments_of_first (.comment (.block first))
  | statement s => exact s.line.blankComments_text_append r

/-- A search that comes to a line finds its specifier or nothing, the specifier for the form of a statement, and
goes on behind the line. -/
theorem exists_findFrom_blanked (line : SourceLine) (form : ImportForm) (offset : Nat) {r : List Char}
    (ends : ∀ c ∈ r.head?, c = '\n') : ∃ found, (found = [] ∨ found = line.located offset) ∧
      (∀ s, line = statement s → form = s.form → found = line.located offset) ∧
      form.findFrom offset true (line.blanked ++ r) =
        found ++ form.findFrom (offset + line.chars.length) true r := by
  have comment (t : List Char) : form.findFrom offset true (blank t ++ r) =
      form.findFrom (offset + t.length) true r := by
    rw [ImportForm.findFrom_append_of_idle, blank, List.length_map]
    intro c hc
    obtain ⟨d, -, rfl⟩ := List.mem_map.mp hc
    split <;> decide
  cases line with
  | lineComment t | blockComment t =>
      refine ⟨[], Or.inl rfl, ?_, comment _⟩
      rintro s ⟨⟩
  | statement s =>
      rcases s.line.findFrom_text ends with ⟨-, whole⟩ | ⟨missed, whole⟩
      · exact ⟨_, Or.inr rfl, fun _ _ _ => rfl, whole⟩
      · refine ⟨[], Or.inl rfl, fun s' same form' => ?_, whole⟩
        cases same
        subst form'
        exact absurd (s.foundIn_line r) missed

/-! ## Sources -/

/-- Lines one under the other, each written in some way. -/
def stacked (f : SourceLine → List Char) (lines : List SourceLine) : List Char :=
  ['\n'].intercalate (lines.map f)

@[simp] theorem stacked_nil (f : SourceLine → List Char) : stacked f [] = [] := rfl

@[simp] theorem stacked_singleton (f : SourceLine → List Char) (line : SourceLine) : stacked f [line] = f line :=
  List.intercalate_singleton

theorem stacked_cons_cons (f : SourceLine → List Char) (line next : SourceLine) (lines : List SourceLine) :
    stacked f (line :: next :: lines) = f line ++ '\n' :: stacked f (next :: lines) := by
  rw [stacked, List.map_cons, List.map_cons, List.intercalate_cons_cons, List.append_assoc]
  rfl

theorem toList_unlines (lines : List SourceLine) : (Text.unlines (lines.map text)).toList = stacked chars lines := by
  rw [Text.unlines]
  induction lines with
  | nil => rfl
  | cons line lines ih =>
      cases lines with
      | nil => simp [Text.join, text]
      | cons next lines =>
          have split : Text.join "\n" ((line :: next :: lines).map text) =
              line.text ++ "\n" ++ Text.join "\n" ((next :: lines).map text) := rfl
          rw [split, String.toList_append, String.toList_append, ih, stacked_cons_cons, text, String.toList_ofList,
            List.append_assoc]
          rfl

theorem blankComments_stacked (lines : List SourceLine) :
    blankComments (stacked chars lines) = stacked blanked lines := by
  have empty : blankComments [] = [] := by rw [blankComments, list]; rfl
  induction lines with
  | nil => exact empty
  | cons line lines ih =>
      cases lines with
      | nil =>
          have last : ∀ c ∈ ([] : List Char).head?, c = '\n' := by rintro c ⟨⟩
          have whole := line.blankComments_chars_append last
          rw [empty, List.append_nil, List.append_nil] at whole
          rwa [stacked_singleton, stacked_singleton]
      | cons next lines =>
          have ends : ∀ c ∈ ('\n' :: stacked chars (next :: lines)).head?, c = '\n' :=
            fun c hc => (Option.some.inj hc).symm
          have feed : blankComments (['\n'] ++ stacked chars (next :: lines)) =
              ['\n'] ++ blankComments (stacked chars (next :: lines)) :=
            blankComments_append_of_plain (List.forall_mem_singleton.mpr (by decide)) _
          rw [List.singleton_append, ih] at feed
          rw [stacked_cons_cons, line.blankComments_chars_append ends, feed, stacked_cons_cons]
          rfl

def locatedFrom (offset : Nat) : List SourceLine → List (Nat × String)
  | [] => []
  | line :: lines => line.located offset ++ locatedFrom (offset + line.chars.length + 1) lines

theorem map_snd_locatedFrom (offset : Nat) (lines : List SourceLine) :
    (locatedFrom offset lines).map Prod.snd = lines.filterMap specifier? := by
  induction lines generalizing offset with
  | nil => rfl
  | cons line lines ih =>
      rw [locatedFrom, List.map_append, ih]
      cases line <;> rfl

theorem spec_of_mem_located {line : SourceLine} {offset : Nat} {e : Nat × String} (he : e ∈ line.located offset) :
    offset ≤ e.1 ∧ e.1 < offset + line.chars.length := by
  cases line with
  | lineComment t | blockComment t => cases he
  | statement s =>
      obtain rfl := List.mem_singleton.mp he
      have length : (statement s).chars.length = s.head.length + (s.line.behind.length + 1) := List.length_append
      have quoted : s.line.behind ≠ [] := List.append_ne_nil_of_right_ne_nil _ (List.cons_ne_nil _ _)
      have long := List.length_pos_of_ne_nil quoted
      rw [length]
      constructor <;> dsimp only <;> omega

theorem le_of_mem_locatedFrom {lines : List SourceLine} {offset : Nat} {e : Nat × String}
    (he : e ∈ locatedFrom offset lines) : offset ≤ e.1 := by
  induction lines generalizing offset with
  | nil => cases he
  | cons line lines ih =>
      rcases List.mem_append.mp he with here | later
      · exact (spec_of_mem_located here).1
      · have := ih later
        omega

theorem pairwise_locatedFrom (offset : Nat) (lines : List SourceLine) :
    (locatedFrom offset lines).Pairwise fun a b => a.1 < b.1 := by
  induction lines generalizing offset with
  | nil => exact List.Pairwise.nil
  | cons line lines ih =>
      refine List.pairwise_append.mpr ⟨?_, ih _, fun a ha b hb => ?_⟩
      · cases line with
        | lineComment t | blockComment t => exact List.Pairwise.nil
        | statement s => exact List.pairwise_singleton _ _
      · have first := (spec_of_mem_located ha).2
        have second := le_of_mem_locatedFrom hb
        omega

theorem exists_findFrom_cons (form : ImportForm) (offset : Nat) (line : SourceLine) (lines : List SourceLine) :
    ∃ found, (found = [] ∨ found = line.located offset) ∧
      (∀ s, line = statement s → form = s.form → found = line.located offset) ∧
      form.findFrom offset true (stacked blanked (line :: lines)) =
        found ++ form.findFrom (offset + line.chars.length + 1) true (stacked blanked lines) := by
  cases lines with
  | nil =>
      have last : ∀ c ∈ ([] : List Char).head?, c = '\n' := by rintro c ⟨⟩
      obtain ⟨found, which, own, whole⟩ := line.exists_findFrom_blanked form offset last
      refine ⟨found, which, own, ?_⟩
      rw [List.append_nil] at whole
      rw [stacked_singleton, stacked_nil, whole, ImportForm.findFrom, ImportForm.findFrom]
  | cons next lines =>
      have ends : ∀ c ∈ ('\n' :: stacked blanked (next :: lines)).head?, c = '\n' :=
        fun c hc => (Option.some.inj hc).symm
      have feed : ∀ d ∈ ['\n'], d ∉ ImportForm.initials ∧ Text.isWord d = false :=
        List.forall_mem_singleton.mpr (by decide)
      obtain ⟨found, which, own, whole⟩ := line.exists_findFrom_blanked form offset ends
      refine ⟨found, which, own, ?_⟩
      rw [stacked_cons_cons, whole, ← List.singleton_append, ImportForm.findFrom_append_of_idle feed]
      rfl

theorem mem_locatedFrom_of_mem_findFrom {form : ImportForm} {offset : Nat} {lines : List SourceLine}
    {e : Nat × String} (he : e ∈ form.findFrom offset true (stacked blanked lines)) :
    e ∈ locatedFrom offset lines := by
  induction lines generalizing offset with
  | nil =>
      rw [stacked_nil, ImportForm.findFrom] at he
      cases he
  | cons line lines ih =>
      obtain ⟨found, which, -, whole⟩ := exists_findFrom_cons form offset line lines
      rw [whole] at he
      rcases List.mem_append.mp he with here | later
      · rcases which with rfl | rfl
        · cases here
        · exact List.mem_append_left _ here
      · exact List.mem_append_right _ (ih later)

theorem exists_mem_findFrom_of_mem_locatedFrom {offset : Nat} {lines : List SourceLine} {e : Nat × String}
    (he : e ∈ locatedFrom offset lines) :
    ∃ form : ImportForm, e ∈ form.findFrom offset true (stacked blanked lines) := by
  induction lines generalizing offset with
  | nil => cases he
  | cons line lines ih =>
      rcases List.mem_append.mp he with here | later
      · cases line with
        | lineComment t | blockComment t => cases here
        | statement s =>
            obtain ⟨found, -, own, whole⟩ := exists_findFrom_cons s.form offset (statement s) lines
            refine ⟨s.form, ?_⟩
            rw [whole, own s rfl rfl]
            exact List.mem_append_left _ here
      · obtain ⟨form, found⟩ := ih later
        obtain ⟨first, -, -, whole⟩ := exists_findFrom_cons form offset line lines
        refine ⟨form, ?_⟩
        rw [whole]
        exact List.mem_append_right _ found

theorem locateSpecifiers_stacked (lines : List SourceLine) :
    locateSpecifiers (stacked blanked lines) = locatedFrom 0 lines :=
  locateSpecifiers_eq (pairwise_locatedFrom 0 lines) (fun _ _ => mem_locatedFrom_of_mem_findFrom)
    fun _ => exists_mem_findFrom_of_mem_locatedFrom

end SourceLine

open SourceLine

/-- **The specifiers of a source are those of its statements.** Lines are comments with any text, and statements
of the eight kinds with any names and specifiers, one under the other. What is found is the specifier of each
statement, once and in order, and nothing from the comments. -/
theorem specifiers_unlines (lines : List SourceLine) :
    specifiers (Text.unlines (lines.map SourceLine.text)) = lines.filterMap SourceLine.specifier? := by
  rw [specifiers, toList_unlines, blankComments_stacked, locateSpecifiers_stacked, map_snd_locatedFrom]

end SourceSurvey
