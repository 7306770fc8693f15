import Mathlib

namespace Foundation

/-! Path templates of an HTTP router.

A template is a path whose segments may end in a parameter: `{name}` stands for
any text without a slash, and `{*name}`, in the last segment, for any rest of
the path.  Neither stands for nothing.  A doubled brace is a plain one. -/

inductive Ending where
  | plain
  | parameter (name : List Char)
  | rest (name : List Char)
deriving DecidableEq

structure Segment where
  literal : List Char
  ending : Ending
deriving DecidableEq

abbrev Template := List Segment

namespace Segment

def ofChars : Segment → List Char → Segment
  | segment, chars => { segment with literal := chars ++ segment.literal }

/-- The parameter that a text after an opening brace declares. -/
def parseParameter (text : List Char) : Option Segment :=
  let isPlain (name : List Char) : Bool :=
    name ≠ [] ∧ name.all fun char => char ≠ '{' && char ≠ '}' && char ≠ '*'
  match text.getLast?, text.dropLast with
  | some '}', '*' :: name => if isPlain name then some ⟨[], .rest name⟩ else none
  | some '}', name => if isPlain name then some ⟨[], .parameter name⟩ else none
  | _, _ => none

def parse : List Char → Option Segment
  | [] => some ⟨[], .plain⟩
  | '{' :: '{' :: text => (parse text).map (·.ofChars ['{'])
  | '}' :: '}' :: text => (parse text).map (·.ofChars ['}'])
  | '{' :: text => parseParameter text
  | '}' :: _ => none
  | char :: text => (parse text).map (·.ofChars [char])

/-- A segment without the name of its parameter. -/
def shape (segment : Segment) : List Char × Option Bool :=
  (segment.literal,
    match segment.ending with
    | .plain => none
    | .parameter _ => some false
    | .rest _ => some true)

/-- The text of one segment of a path. -/
def Matches (segment : Segment) (text : List Char) : Prop :=
  match segment.ending with
  | .plain => text = segment.literal
  | .parameter _ | .rest _ => ∃ value ≠ [], text = segment.literal ++ value

def isRest (segment : Segment) : Bool :=
  match segment.ending with
  | .rest _ => true
  | _ => false

end Segment

namespace Template

/-- Only the last segment may stand for a rest of the path. -/
def endsInRest (template : Template) : Bool :=
  template.dropLast.all fun segment => !segment.isRest

/-- The template that a text declares, if it is well formed. -/
def parse (text : List Char) : Option Template :=
  ((text.splitOn '/').mapM Segment.parse).filter endsInRest

def shape (template : Template) : List (List Char × Option Bool) :=
  template.map Segment.shape

/-- The paths, given by their segments, that a template stands for. -/
def Matches : Template → List (List Char) → Prop
  | [], path => path = []
  | _ :: _, [] => False
  | segment :: template, text :: texts =>
      if segment.isRest then
        ∃ value, text = segment.literal ++ value ∧ (value ≠ [] ∨ texts ≠ [])
      else segment.Matches text ∧ Matches template texts

attribute [grind =] Matches

end Template

/-! ## What a router makes of a path -/

namespace Segment

/-- The parameter that a text of one segment is bound to. -/
def bound (segment : Segment) (text : List Char) : List (List Char × List Char) :=
  match segment.ending with
  | .plain => []
  | .parameter name | .rest name => [(name, text.drop segment.literal.length)]

def rank (segment : Segment) : Nat :=
  match segment.ending with
  | .plain => 0
  | .parameter _ => 1
  | .rest _ => 2

/-- Plain text is preferred to a parameter, a parameter to a rest, and of two
parameters the one behind the longer text. -/
def Beats (one other : Segment) : Prop :=
  one.rank < other.rank ∨ one.rank = other.rank ∧ other.literal.length < one.literal.length

end Segment

namespace Template

/-- The parameters of a template with their values in a path. -/
def bound : Template → List (List Char) → List (List Char × List Char)
  | segment :: template, text :: texts =>
      if segment.isRest then segment.bound (['/'].intercalate (text :: texts))
      else segment.bound text ++ bound template texts
  | _, _ => []

/-- The first segment in which two templates differ decides. -/
def Beats : Template → Template → Prop
  | one :: ones, other :: others =>
      one.Beats other ∨ one.shape = other.shape ∧ Beats ones others
  | _, _ => False

/-- The template that a router chooses for a path, up to the names of parameters. -/
def Chosen (templates : List Template) (path : List (List Char)) (template : Template) : Prop :=
  template ∈ templates ∧ Matches template path ∧
    ∀ other ∈ templates, Matches other path → shape template = shape other ∨ Beats template other

end Template

/-! ## Templates of one shape stand for the same paths -/

namespace Segment

theorem shape_literal {one other : Segment} (same : one.shape = other.shape) :
    one.literal = other.literal :=
  congrArg Prod.fst same

theorem shape_isRest {one other : Segment} (same : one.shape = other.shape) :
    one.isRest = other.isRest := by
  have endings := congrArg Prod.snd same
  unfold isRest
  cases first : one.ending <;> cases second : other.ending <;> simp [shape, first, second] at endings ⊢

theorem matches_of_shape {one other : Segment} (same : one.shape = other.shape)
    (text : List Char) : one.Matches text ↔ other.Matches text := by
  have literals := shape_literal same
  have endings := congrArg Prod.snd same
  unfold Matches
  cases first : one.ending <;> cases second : other.ending <;>
    simp [shape, first, second, literals] at endings ⊢

/-- Texts behind a literal determine the literal. -/
theorem literal_eq {one other : List Char}
    (same : ∀ text, (∃ value ≠ [], text = one ++ value) ↔ ∃ value ≠ [], text = other ++ value) :
    one = other := by
  have shorter : ∀ {one other : List Char}, (∀ text, (∃ value ≠ [], text = one ++ value) →
      ∃ value ≠ [], text = other ++ value) → other.length ≤ one.length := by
    intro one other sub
    obtain ⟨value, some, equal⟩ := sub (one ++ ['a']) ⟨['a'], by simp, rfl⟩
    have lengths := congrArg List.length equal
    have pos := List.length_pos_iff.mpr some
    simp only [List.length_append, List.length_singleton] at lengths
    omega
  have lengths : one.length = other.length :=
    Nat.le_antisymm (shorter fun text => (same text).mpr) (shorter fun text => (same text).mp)
  obtain ⟨value, -, equal⟩ := (same (one ++ ['a'])).mp ⟨['a'], by simp, rfl⟩
  exact (List.append_inj equal lengths).1

/-- One text is not all texts behind a literal. -/
theorem single_ne {text literal : List Char}
    (same : ∀ other, other = text ↔ ∃ value ≠ [], other = literal ++ value) : False := by
  have one := (same (literal ++ ['a'])).mpr ⟨_, by simp, rfl⟩
  have two := (same (literal ++ ['a', 'a'])).mpr ⟨_, by simp, rfl⟩
  have lengths := congrArg List.length (one.trans two.symm)
  simp at lengths

theorem shape_eq_of_matches {one other : Segment} (rests : one.isRest = other.isRest)
    (same : ∀ text, one.Matches text ↔ other.Matches text) : one.shape = other.shape := by
  unfold Matches at same
  cases first : one.ending <;> cases second : other.ending <;>
    simp only [first, second] at same <;>
    simp only [isRest, first, second, Bool.false_eq_true, Bool.true_eq_false] at rests
  case plain.plain =>
    have literals : one.literal = other.literal := (same _).mp rfl
    simp [shape, first, second, literals]
  case plain.parameter => exact (single_ne same).elim
  case parameter.plain => exact (single_ne fun text => (same text).symm).elim
  case parameter.parameter => simp [shape, first, second, literal_eq same]
  case rest.rest => simp [shape, first, second, literal_eq same]

/-- A text a segment stands for. -/
def sample (segment : Segment) : List Char :=
  segment.literal ++
    match segment.ending with
    | .plain => []
    | .parameter _ | .rest _ => ['a']

theorem matches_sample (segment : Segment) : segment.Matches segment.sample := by
  unfold Matches sample
  cases segment.ending with
  | plain => simp
  | parameter name | rest name => exact ⟨_, by simp, rfl⟩

end Segment

namespace Template

theorem matches_of_shape {one other : Template} (same : one.shape = other.shape)
    (path : List (List Char)) : Matches one path ↔ Matches other path := by
  induction one generalizing other path with
  | nil =>
      obtain rfl : other = [] := by simpa [shape] using same.symm
      exact Iff.rfl
  | cons segment one ih =>
      cases other with
      | nil => simp [shape] at same
      | cons first other =>
          simp only [shape, List.map_cons, List.cons.injEq] at same
          cases path with
          | nil => exact Iff.rfl
          | cons text texts =>
              rw [Matches, Matches, Segment.shape_isRest same.1, Segment.shape_literal same.1]
              split
              · exact Iff.rfl
              · rw [Segment.matches_of_shape same.1, ih same.2]

theorem matches_plain {segment : Segment} (plain : segment.isRest = false) (template : Template)
    (text : List Char) (texts : List (List Char)) :
    Matches (segment :: template) (text :: texts) ↔
      segment.Matches text ∧ Matches template texts := by
  rw [Matches, plain, if_neg Bool.false_ne_true]

theorem matches_rest {segment : Segment} (rest : segment.isRest = true) (template : Template)
    (text : List Char) (texts : List (List Char)) :
    Matches (segment :: template) (text :: texts) ↔
      ∃ value, text = segment.literal ++ value ∧ (value ≠ [] ∨ texts ≠ []) := by
  rw [Matches, rest, if_pos rfl]

theorem matches_rest_single {segment : Segment} (rest : segment.isRest = true)
    (template : Template) (text : List Char) :
    Matches (segment :: template) [text] ↔ segment.Matches text := by
  rw [matches_rest rest, Segment.Matches]
  cases found : segment.ending with
  | plain => simp [Segment.isRest, found] at rest
  | parameter name => simp [Segment.isRest, found] at rest
  | rest name =>
      constructor
      · rintro ⟨value, equal, some | none⟩
        · exact ⟨value, some, equal⟩
        · exact absurd rfl none
      · rintro ⟨value, some, equal⟩
        exact ⟨value, equal, .inl some⟩

theorem endsInRest_tail {segment : Segment} {template : Template}
    (ends : endsInRest (segment :: template) = true) : endsInRest template = true := by
  cases template with
  | nil => rfl
  | cons next template =>
      simp only [endsInRest, List.dropLast_cons_cons, List.all_cons, Bool.and_eq_true] at ends
      exact ends.2

theorem nil_of_rest {segment : Segment} {template : Template}
    (ends : endsInRest (segment :: template) = true) (rest : segment.isRest = true) :
    template = [] := by
  cases template with
  | nil => rfl
  | cons next template => simp [endsInRest, rest] at ends

/-- A path that a template stands for. -/
def sample (template : Template) : List (List Char) :=
  template.map Segment.sample

theorem matches_sample {template : Template} (ends : endsInRest template = true) :
    Matches template (sample template) := by
  induction template with
  | nil => rfl
  | cons segment template ih =>
      change Matches _ (segment.sample :: sample template)
      by_cases rest : segment.isRest = true
      · obtain rfl := nil_of_rest ends rest
        exact (matches_rest_single rest [] _).mpr segment.matches_sample
      · rw [matches_plain (by simpa using rest)]
        exact ⟨segment.matches_sample, ih (endsInRest_tail ends)⟩

/-- A rest has paths of several lengths, a segment without one leaves the length
to what follows. -/
theorem rest_ne_plain {one other : Segment} {first second : Template}
    (rest : one.isRest = true) (plain : other.isRest = false)
    (same : ∀ path, Matches (one :: first) path ↔ Matches (other :: second) path) : False := by
  have single := (same [one.literal ++ ['a']]).mp
    ((matches_rest rest _ _ _).mpr ⟨['a'], rfl, .inl (by simp)⟩)
  have double := (same [one.literal ++ ['a'], []]).mp
    ((matches_rest rest _ _ _).mpr ⟨['a'], rfl, .inl (by simp)⟩)
  rw [matches_plain plain] at single double
  cases second with
  | nil => exact absurd double.2 (by simp [Matches])
  | cons next second => exact single.2

/-- Templates that stand for the same paths differ at most in the names of their
parameters. -/
theorem shape_eq_of_matches {one other : Template} (oneEnds : endsInRest one = true)
    (otherEnds : endsInRest other = true)
    (same : ∀ path, Matches one path ↔ Matches other path) : one.shape = other.shape := by
  induction one generalizing other with
  | nil =>
      cases other with
      | nil => rfl
      | cons segment other => exact absurd ((same []).mp rfl) id
  | cons segment one ih =>
      cases other with
      | nil => exact absurd ((same []).mpr rfl) id
      | cons first other =>
          by_cases rest : segment.isRest = true
          · by_cases otherRest : first.isRest = true
            · obtain rfl := nil_of_rest oneEnds rest
              obtain rfl := nil_of_rest otherEnds otherRest
              have segments : segment.shape = first.shape := by
                apply Segment.shape_eq_of_matches (rest.trans otherRest.symm)
                intro text
                rw [← matches_rest_single rest [], ← matches_rest_single otherRest [], same]
              simp [shape, segments]
            · exact (rest_ne_plain rest (by simpa using otherRest) same).elim
          · have plain : segment.isRest = false := by simpa using rest
            have otherPlain : first.isRest = false := by
              by_contra otherRest
              exact rest_ne_plain (by simpa using otherRest) plain fun path => (same path).symm
            have split : ∀ text texts, segment.Matches text ∧ Matches one texts ↔
                first.Matches text ∧ Matches other texts := by
              intro text texts
              rw [← matches_plain plain, ← matches_plain otherPlain, same]
            have here := (split _ _).mp
              ⟨segment.matches_sample, matches_sample (endsInRest_tail oneEnds)⟩
            have segments : segment.shape = first.shape := by
              apply Segment.shape_eq_of_matches (plain.trans otherPlain.symm)
              intro text
              constructor
              · intro fits
                exact ((split _ _).mp ⟨fits, matches_sample (endsInRest_tail oneEnds)⟩).1
              · intro fits
                exact ((split _ _).mpr ⟨fits, here.2⟩).1
            have others : shape one = shape other := by
              apply ih (endsInRest_tail oneEnds) (endsInRest_tail otherEnds)
              intro texts
              constructor
              · intro fits
                exact ((split _ _).mp ⟨segment.matches_sample, fits⟩).2
              · intro fits
                exact ((split _ _).mpr ⟨here.1, fits⟩).2
            simpa [shape] using ⟨segments, others⟩

theorem endsInRest_of_parse {text : List Char} {template : Template}
    (parsed : parse text = some template) : endsInRest template = true := by
  rw [parse, Option.filter_eq_some_iff] at parsed
  exact parsed.2

end Template
end Foundation
