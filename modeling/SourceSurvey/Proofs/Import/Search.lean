import Mathlib.Data.List.Nodup
import SourceSurvey.Import.Lexeme
import SourceSurvey.Proofs.Import.FirstQuote
import SourceSurvey.Proofs.Import.Specifiers

/-!
# Searching a line

Each form is searched for on its own, so a line can be found by several forms, and a form could start in the
words before the specifier, in the specifier itself, or reach beyond the line. In a line that quotes one
specifier (`QuotedLine`) a form that is read before the quote leads to that specifier, and none is read behind
it. So every form finds the specifier once or not at all, and goes on behind the line
(`QuotedLine.findFrom_text`). What all forms find together is sorted by its places (`locateSpecifiers_eq`).
-/

namespace SourceSurvey

namespace ImportForm

variable {form : ImportForm} {l l' : List Char} {s : Specifier} {c : Char} {offset : Nat} {boundary : Bool}

/-! ## One step of the search -/

theorem findFrom_cons_of_none (h : boundary = true → form.read? (c :: l) = none) :
    form.findFrom offset boundary (c :: l) = form.findFrom (offset + 1) (!Text.isWord c) l := by
  have none : (if boundary then form.read? (c :: l) else none) = none := by
    split
    · next start => exact h start
    · rfl
  rw [findFrom]
  simp only [none]

theorem findFrom_cons_of_some (h : form.read? (c :: l) = some s) (suffix : s.rest <:+ l) :
    form.findFrom offset true (c :: l) =
      (offset + ((c :: l).length - s.start.length), String.ofList s.chars) ::
        form.findFrom (offset + 1 + (l.length - s.rest.length)) true s.rest := by
  have rest : l.drop (l.length - s.rest.length) = s.rest := (List.suffix_iff_eq_drop.mp suffix).symm
  rw [findFrom, if_pos rfl]
  simp only [h, rest]

theorem findFrom_append_of_idle (idle : ∀ d ∈ l, d ∉ initials ∧ Text.isWord d = false) :
    form.findFrom offset true (l ++ l') = form.findFrom (offset + l.length) true l' := by
  induction l generalizing offset with
  | nil => rfl
  | cons d l ih =>
      obtain ⟨initial, word⟩ := idle d List.mem_cons_self
      rw [List.cons_append, findFrom_cons_of_none fun _ => read?_of_not_mem_initials form initial, word,
        Bool.not_false, ih fun e he => idle e (List.mem_cons_of_mem d he), List.length_cons, Nat.add_assoc,
        Nat.add_comm 1]

theorem exists_findFrom_append (none : ∀ x, x <:+ l → x ≠ [] → form.read? (x ++ l') = none) (offset : Nat)
    (boundary : Bool) : ∃ boundary',
      form.findFrom offset boundary (l ++ l') = form.findFrom (offset + l.length) boundary' l' := by
  induction l generalizing offset boundary with
  | nil => exact ⟨boundary, rfl⟩
  | cons d l ih =>
      obtain ⟨boundary', rest⟩ := ih (fun x suffix => none x (suffix.trans (List.suffix_cons d l))) (offset + 1)
        (!Text.isWord d)
      have here : form.read? (d :: (l ++ l')) = Option.none := none (d :: l) List.suffix_rfl (List.cons_ne_nil d l)
      refine ⟨boundary', ?_⟩
      rw [List.cons_append, findFrom_cons_of_none fun _ => here, rest, List.length_cons, Nat.add_assoc,
        Nat.add_comm 1]

/-- A form is read at some boundary in the first list, which the second one follows. -/
def FoundIn (form : ImportForm) (behind : List Char) : Bool → List Char → Prop
  | _, [] => False
  | boundary, c :: l =>
    boundary = true ∧ form.read? (c :: l ++ behind) ≠ none ∨ FoundIn form behind (!Text.isWord c) l

theorem FoundIn.append {behind : List Char} (h : FoundIn form behind (!Text.isWord c) l) (front : List Char) :
    FoundIn form behind boundary (front ++ c :: l) := by
  induction front generalizing boundary with
  | nil => exact Or.inr h
  | cons d front ih => exact Or.inr ih

/-! ## The first quote -/

/-- Up to the first quote, a list can be split in one way. -/
theorem append_cons_inj {x y : List Char} {a b : Char} (whole : x ++ a :: l = y ++ b :: l')
    (hx : ∀ c ∈ x, isQuote c = false) (hy : ∀ c ∈ y, isQuote c = false) (ha : isQuote a = true)
    (hb : isQuote b = true) : x = y ∧ a = b ∧ l = l' := by
  induction x generalizing y with
  | nil =>
      cases y with
      | nil => exact ⟨rfl, List.cons.inj whole⟩
      | cons d y =>
          obtain ⟨rfl, -⟩ := List.cons.inj whole
          rw [hy a List.mem_cons_self] at ha
          cases ha
  | cons d x ih =>
      cases y with
      | nil =>
          obtain ⟨rfl, -⟩ := List.cons.inj whole
          rw [hx d List.mem_cons_self] at hb
          cases hb
      | cons e y =>
          obtain ⟨rfl, rest⟩ := List.cons.inj whole
          obtain ⟨rfl, same⟩ := ih rest (fun c hc => hx c (List.mem_cons_of_mem d hc))
            fun c hc => hy c (List.mem_cons_of_mem d hc)
          exact ⟨rfl, same⟩

theorem Leads.eq_of_quote {x : List Char} {q : Char} (leads : Leads (x ++ q :: l) s)
    (plain : ∀ c ∈ x, isQuote c = false) (quote : isQuote q = true) : s.start = l := by
  obtain ⟨q', quote', skipped, whole, plain'⟩ := leads.opening
  exact (append_cons_inj whole plain plain' quote quote').2.2.symm

/-- A brace that comes before all quotes comes before the first one. -/
theorem exists_of_skips_brace {x inside : List Char} {q : Char} (skips : Skips (x ++ q :: l) ('\x7b' :: inside))
    (quote : isQuote q = true) : ∃ front back, x = front ++ '\x7b' :: back ∧ inside = back ++ q :: l := by
  obtain ⟨skipped, whole, plain⟩ := skips
  rcases List.append_eq_append_iff.mp whole with ⟨front, rfl, split⟩ | ⟨front, rfl, split⟩
  · -- otherwise the quote would have been skipped, or be the brace
    cases front with
    | nil =>
        obtain ⟨rfl, -⟩ := List.cons.inj split
        exact absurd quote (by decide)
    | cons d front =>
        obtain ⟨rfl, -⟩ := List.cons.inj split
        rw [plain q (by simp)] at quote
        cases quote
  · cases front with
    | nil =>
        obtain ⟨rfl, -⟩ := List.cons.inj split
        exact absurd quote (by decide)
    | cons d front =>
        obtain ⟨rfl, rfl⟩ := List.cons.inj split
        exact ⟨skipped, front, rfl, rfl⟩

theorem mem_of_mem_takeWhile_append {p : Char → Bool} {x : List Char} {stop : Char} (stops : p stop = false)
    (h : c ∈ (x ++ stop :: l).takeWhile p) : c ∈ x := by
  induction x with
  | nil =>
      rw [List.nil_append, List.takeWhile_cons_of_neg (by rw [stops]; decide)] at h
      cases h
  | cons d x ih =>
      rw [List.cons_append, List.takeWhile_cons] at h
      split at h
      · rcases List.mem_cons.mp h with rfl | h
        · exact List.mem_cons_self
        · exact List.mem_cons_of_mem d (ih h)
      · cases h

theorem bracesClosed_append {x : List Char} {q : Char} (quote : isQuote q = true)
    (plain : ∀ c ∈ x, isQuote c = false) (closed : ∀ front back, x = front ++ '\x7b' :: back → '\x7d' ∈ back) :
    BracesClosed (x ++ q :: l) := by
  intro inside skips c hc
  obtain ⟨front, back, rfl, rfl⟩ := exists_of_skips_brace skips quote
  obtain ⟨z, w, rfl⟩ := List.append_of_mem (closed front back rfl)
  rw [List.append_assoc, List.cons_append] at hc
  -- the names end at the closing brace at the latest
  have early : c ∈ z := mem_of_mem_takeWhile_append (by decide) hc
  exact plain c (by simp [early])

end ImportForm

open ImportForm

/-! ## Lines with one specifier -/

/-- A specifier in quotes: not empty, on one line, and without quotes, backslashes and braces. -/
structure QuotedSpecifier where
  quote : Char
  chars : List Char
  isQuote : ImportForm.isQuote quote = true
  nonempty : chars ≠ []
  plain : ∀ c ∈ chars, ImportForm.isQuote c = false ∧ c ≠ '\\' ∧ c ≠ '\n' ∧ c ≠ '\x7b' ∧ c ≠ '\x7d'

/-- A line that quotes one specifier, with words before it, and behind it a semicolon and perhaps, before that, a
closing parenthesis. The words contain no quotes and slashes, and their braces are closed. -/
structure QuotedLine where
  head : List Char
  specifier : QuotedSpecifier
  parenthesized : Bool
  plain : ∀ c ∈ head, Lexeme.opensLiteral c = false ∧ c ≠ '/'
  closed : ∀ front back, head = front ++ '\x7b' :: back → '\x7d' ∈ back

namespace QuotedLine

def tail (q : QuotedLine) : List Char := if q.parenthesized then [')', ';'] else [';']

def behind (q : QuotedLine) : List Char := q.specifier.chars ++ q.specifier.quote :: q.tail

def text (q : QuotedLine) : List Char := q.head ++ q.specifier.quote :: q.behind

variable (q : QuotedLine) {form : ImportForm} {r x : List Char} {s : Specifier} {offset : Nat} {boundary : Bool}

theorem isQuote_of_mem_head {c : Char} (hc : c ∈ q.head) : isQuote c = false := by
  have opens := (q.plain c hc).1
  simp only [Lexeme.opensLiteral, Bool.or_eq_false_iff] at opens
  simp only [isQuote, Bool.or_eq_false_iff]
  exact opens.1

theorem isQuote_of_mem_chars {c : Char} (hc : c ∈ q.specifier.chars) : isQuote c = false :=
  (q.specifier.plain c hc).1

theorem idle_of_mem_tail {c : Char} (hc : c ∈ q.tail) : c ∉ initials ∧ Text.isWord c = false := by
  unfold tail at hc
  split at hc
  · simp only [List.mem_cons, List.not_mem_nil, or_false] at hc
    rcases hc with rfl | rfl <;> decide
  · rw [List.mem_singleton.mp hc]
    decide

theorem isQuote_of_mem_tail {c : Char} (hc : c ∈ q.tail) : isQuote c = false := by
  unfold tail at hc
  split at hc
  · simp only [List.mem_cons, List.not_mem_nil, or_false] at hc
    rcases hc with rfl | rfl <;> decide
  · rw [List.mem_singleton.mp hc]
    decide

theorem idle_quote : q.specifier.quote ∉ initials ∧ Text.isWord q.specifier.quote = false := by
  rcases eq_quote_of_isQuote q.specifier.isQuote with quote | quote <;> rw [quote] <;> decide

/-- A form that is read before the quote leads to the specifier, and what is left starts in the rest of the line. -/
theorem spec_of_read?_head (suffix : x <:+ q.head)
    (h : form.read? (x ++ q.specifier.quote :: (q.behind ++ r)) = some s) :
    s.start = q.behind ++ r ∧ s.chars = q.specifier.chars ∧ ∃ rest, rest <:+ q.tail ∧ s.rest = rest ++ r := by
  have plain : ∀ c ∈ x, isQuote c = false := fun c hc => q.isQuote_of_mem_head (suffix.subset hc)
  have closed : BracesClosed (x ++ q.specifier.quote :: (q.behind ++ r)) := by
    apply bracesClosed_append q.specifier.isQuote plain
    rintro front back rfl
    obtain ⟨more, whole⟩ := suffix
    exact q.closed (more ++ front) back (by rw [← whole, List.append_assoc])
  have leads := leads_read? closed h
  have start := leads.eq_of_quote plain q.specifier.isQuote
  obtain ⟨q', after, quote, whole, rest⟩ := leads.closing
  rw [start, behind, List.append_assoc, List.cons_append] at whole
  obtain ⟨chars, -, rfl⟩ := append_cons_inj whole (fun c hc => q.isQuote_of_mem_chars hc)
    (fun c hc => (leads.plain c hc).1) q.specifier.isQuote quote
  refine ⟨start, chars.symm, ?_⟩
  rcases rest with rest | rest
  · exact ⟨q.tail, List.suffix_rfl, rest.symm⟩
  · -- a parenthesis is read only where one stands
    unfold tail at rest ⊢
    split at rest
    · next paren =>
      rw [if_pos paren]
      have left : ';' :: r = s.rest := (List.cons.inj rest).2
      exact ⟨[';'], ⟨[')'], rfl⟩, left.symm⟩
    · exact absurd (List.cons.inj rest).1 (by decide)

/-- In a specifier no form is read, as there is no quote behind the closing one on the line. -/
theorem read?_chars (ends : ∀ c ∈ r.head?, c = '\n') (suffix : x <:+ q.specifier.chars) :
    form.read? (x ++ q.specifier.quote :: (q.tail ++ r)) = none := by
  rw [Option.eq_none_iff_forall_ne_some]
  intro s h
  have plain : ∀ c ∈ x, isQuote c = false := fun c hc => q.isQuote_of_mem_chars (suffix.subset hc)
  have closed : BracesClosed (x ++ q.specifier.quote :: (q.tail ++ r)) := by
    apply bracesClosed_append q.specifier.isQuote plain
    rintro front back rfl
    exact absurd rfl (q.specifier.plain '\x7b' (suffix.subset (by simp))).2.2.2.1
  have leads := leads_read? closed h
  have start := leads.eq_of_quote plain q.specifier.isQuote
  obtain ⟨q', after, quote, whole, -⟩ := leads.closing
  rw [start] at whole
  -- the next quote would stand in the tail, or be the end of the line, or come after it
  rcases List.append_eq_append_iff.mp whole with ⟨more, chars, split⟩ | ⟨more, tail, split⟩
  · cases more with
    | nil =>
        rw [List.nil_append] at split
        rw [ends q' (by rw [split]; rfl)] at quote
        exact absurd quote (by decide)
    | cons d more =>
        have feed := ends d (by rw [split]; rfl)
        exact (leads.plain d (by rw [chars]; simp)).2 feed
  · cases more with
    | nil =>
        rw [List.nil_append] at split
        rw [ends q' (by rw [← split]; rfl)] at quote
        exact absurd quote (by decide)
    | cons d more =>
        obtain ⟨rfl, -⟩ := List.cons.inj split
        rw [q.isQuote_of_mem_tail (by rw [tail]; simp)] at quote
        cases quote

/-- The search passes the specifier and what comes behind it. -/
theorem findFrom_quote (ends : ∀ c ∈ r.head?, c = '\n') :
    form.findFrom offset boundary (q.specifier.quote :: (q.behind ++ r)) =
      form.findFrom (offset + 1 + q.behind.length) true r := by
  obtain ⟨initial, word⟩ := q.idle_quote
  have quote (o : Nat) (b : Bool) (l : List Char) :
      form.findFrom o b (q.specifier.quote :: l) = form.findFrom (o + 1) true l := by
    rw [findFrom_cons_of_none fun _ => read?_of_not_mem_initials form initial, word, Bool.not_false]
  have none : ∀ x, x <:+ q.specifier.chars → x ≠ [] →
      form.read? (x ++ q.specifier.quote :: (q.tail ++ r)) = none := fun x suffix _ => q.read?_chars ends suffix
  obtain ⟨boundary', chars⟩ := exists_findFrom_append none (offset + 1) true
  rw [quote, behind, List.append_assoc, List.cons_append, chars, quote,
    findFrom_append_of_idle fun c hc => q.idle_of_mem_tail hc]
  congr 1
  simp only [List.length_append, List.length_cons]
  omega

/-- From the words before the specifier, a form finds it and goes on behind the line, or passes the line. -/
theorem findFrom_head (ends : ∀ c ∈ r.head?, c = '\n') (suffix : x <:+ q.head) (offset : Nat) (boundary : Bool) :
    FoundIn form (q.specifier.quote :: (q.behind ++ r)) boundary x ∧
        form.findFrom offset boundary (x ++ q.specifier.quote :: (q.behind ++ r)) =
          (offset + x.length + 1, String.ofList q.specifier.chars) ::
            form.findFrom (offset + x.length + 1 + q.behind.length) true r ∨
      ¬ FoundIn form (q.specifier.quote :: (q.behind ++ r)) boundary x ∧
        form.findFrom offset boundary (x ++ q.specifier.quote :: (q.behind ++ r)) =
          form.findFrom (offset + x.length + 1 + q.behind.length) true r := by
  induction x generalizing offset boundary with
  | nil => exact Or.inr ⟨id, q.findFrom_quote ends⟩
  | cons c x ih =>
      by_cases here : boundary = true ∧ form.read? (c :: x ++ q.specifier.quote :: (q.behind ++ r)) ≠ none
      · obtain ⟨rfl, read⟩ := here
        refine Or.inl ⟨Or.inl ⟨rfl, read⟩, ?_⟩
        obtain ⟨s, found⟩ := Option.ne_none_iff_exists'.mp read
        obtain ⟨start, chars, rest, tail, left⟩ := q.spec_of_read?_head suffix found
        have behind : rest <:+ q.behind := tail.trans ⟨q.specifier.chars ++ [q.specifier.quote], by simp [behind]⟩
        have line : s.rest <:+ x ++ q.specifier.quote :: (q.behind ++ r) := by
          obtain ⟨front, whole⟩ := behind
          exact ⟨x ++ q.specifier.quote :: front, by rw [left, ← whole]; simp⟩
        have short := behind.length_le
        rw [List.cons_append] at found ⊢
        rw [findFrom_cons_of_some found line, left,
          findFrom_append_of_idle fun c hc => q.idle_of_mem_tail (tail.subset hc), start, chars]
        simp only [List.length_append, List.length_cons]
        congr 2 <;> omega
      · have later : form.findFrom offset boundary (c :: x ++ q.specifier.quote :: (q.behind ++ r)) =
            form.findFrom (offset + 1) (!Text.isWord c) (x ++ q.specifier.quote :: (q.behind ++ r)) := by
          apply findFrom_cons_of_none
          intro start
          by_contra read
          exact here ⟨start, read⟩
        have shift : offset + (c :: x).length = offset + 1 + x.length := by
          rw [List.length_cons, Nat.add_assoc, Nat.add_comm 1]
        rw [later, shift]
        rcases ih ((List.suffix_cons c x).trans suffix) (offset + 1) (!Text.isWord c) with
          ⟨found, rest⟩ | ⟨found, rest⟩
        · exact Or.inl ⟨Or.inr found, rest⟩
        · exact Or.inr ⟨fun h => h.elim here found, rest⟩

/-- **A form finds the specifier of a line once or not at all, and goes on behind the line.** -/
theorem findFrom_text (ends : ∀ c ∈ r.head?, c = '\n') :
    FoundIn form (q.specifier.quote :: (q.behind ++ r)) true q.head ∧
        form.findFrom offset true (q.text ++ r) =
          (offset + q.head.length + 1, String.ofList q.specifier.chars) ::
            form.findFrom (offset + q.text.length) true r ∨
      ¬ FoundIn form (q.specifier.quote :: (q.behind ++ r)) true q.head ∧
        form.findFrom offset true (q.text ++ r) = form.findFrom (offset + q.text.length) true r := by
  have length : offset + q.text.length = offset + q.head.length + 1 + q.behind.length := by
    rw [text, List.length_append, List.length_cons]
    omega
  rw [length, text, List.append_assoc, List.cons_append]
  exact q.findFrom_head ends List.suffix_rfl offset true

end QuotedLine

/-! ## What all forms find -/

theorem pairwise_eraseDupsBy {α : Type} (r : α → α → Bool) :
    ∀ l : List α, (l.eraseDupsBy r).Pairwise fun a b => r b a = false
  | [] => List.Pairwise.nil
  | a :: l => by
      rw [List.eraseDupsBy_cons]
      refine List.Pairwise.cons (fun b hb => ?_) (pairwise_eraseDupsBy r _)
      simpa using (List.mem_filter.mp (mem_of_mem_eraseDupsBy hb)).2
termination_by l => l.length
decreasing_by exact Nat.lt_succ_of_le (List.length_filter_le _ _)

theorem exists_mem_eraseDupsBy {α : Type} {r : α → α → Bool} {b : α} :
    ∀ {l : List α}, b ∈ l → ∃ a ∈ l.eraseDupsBy r, a = b ∨ r b a = true
  | c :: l, hb => by
      rw [List.eraseDupsBy_cons]
      rcases List.mem_cons.mp hb with rfl | hb
      · exact ⟨b, List.mem_cons_self, Or.inl rfl⟩
      · by_cases same : r b c = true
        · exact ⟨c, List.mem_cons_self, Or.inr same⟩
        · have other : b ∈ l.filter fun d => decide (r d c = false) := List.mem_filter.mpr ⟨hb, by simpa using same⟩
          obtain ⟨a, ha, rest⟩ := exists_mem_eraseDupsBy (r := r) other
          exact ⟨a, List.mem_cons_of_mem c ha, rest⟩
termination_by l => l.length
decreasing_by exact Nat.lt_succ_of_le (List.length_filter_le _ _)

/-- **If the places of a list increase, and the forms find together what is in it, then it is what is located.** -/
theorem locateSpecifiers_eq {l : List Char} {found : List (Nat × String)}
    (increasing : found.Pairwise fun a b => a.1 < b.1)
    (sound : ∀ form : ImportForm, ∀ e ∈ form.find l, e ∈ found)
    (complete : ∀ e ∈ found, ∃ form : ImportForm, e ∈ form.find l) : locateSpecifiers l = found := by
  have places : (found.map Prod.fst).Nodup := List.pairwise_map.mpr (increasing.imp Nat.ne_of_lt)
  let same : Nat × String → Nat × String → Bool := fun a b => a.1 == b.1
  let all := ImportForm.all.flatMap fun form => form.find l
  have sound' : ∀ e ∈ all.eraseDupsBy same, e ∈ found := by
    intro e he
    obtain ⟨form, -, he⟩ := List.mem_flatMap.mp (mem_of_mem_eraseDupsBy he)
    exact sound form e he
  have complete' : ∀ e ∈ found, e ∈ all.eraseDupsBy same := by
    intro e he
    obtain ⟨form, mem⟩ := complete e he
    have listed : form ∈ ImportForm.all := by cases form <;> decide
    have mem : e ∈ all := List.mem_flatMap.mpr ⟨form, listed, mem⟩
    obtain ⟨a, ha, rfl | equal⟩ := exists_mem_eraseDupsBy (r := same) mem
    · exact ha
    · obtain rfl := List.inj_on_of_nodup_map places he (sound' a ha) (beq_iff_eq.mp equal)
      exact ha
  have once : (all.eraseDupsBy same).Nodup := by
    refine (pairwise_eraseDupsBy same all).imp ?_
    rintro a b apart rfl
    exact absurd apart (by simp [same])
  have perm : (locateSpecifiers l).Perm found := by
    refine (List.mergeSort_perm _ _).trans ((List.perm_ext_iff_of_nodup once (List.Nodup.of_map _ places)).mpr ?_)
    exact fun e => ⟨sound' e, complete' e⟩
  have sorted : (locateSpecifiers l).Pairwise fun a b => decide (a.1 ≤ b.1) = true := by
    apply List.pairwise_mergeSort
    · intro a b c hab hbc
      exact decide_eq_true (Nat.le_trans (of_decide_eq_true hab) (of_decide_eq_true hbc))
    · intro a b
      rw [Bool.or_eq_true, decide_eq_true_eq, decide_eq_true_eq]
      exact Nat.le_total a.1 b.1
  refine perm.eq_of_pairwise ?_ sorted (increasing.imp fun less => decide_eq_true (Nat.le_of_lt less))
  intro a b ha hb hab hba
  exact List.inj_on_of_nodup_map places (perm.subset ha) hb
    (Nat.le_antisymm (of_decide_eq_true hab) (of_decide_eq_true hba))

end SourceSurvey
