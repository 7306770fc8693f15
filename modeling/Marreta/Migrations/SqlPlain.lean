import Marreta.Migrations.SqlReading

namespace Marreta.Migrations

open Foundation.Utf8 (isAscii)

/-! Plain SQL texts.

In a plain text the scanners see the tokens that Postgres sees.  Its statements have the
same tokens alone, and the same tokens without comments, when no comment stands between
tokens that join. -/

namespace SqlToken

/-! ## Plain texts -/

/-- The scanners read the token as Postgres does: comments are not nested, a line comment
ends with a line feed, a tag is ASCII, and no name looks as if it held one. -/
def Plain : SqlToken → List Char → Prop
  | .quoted _, _ | .number _, _ | .symbol _, _ => True
  | .dollarQuoted tag _, _ => ∀ part ∈ tag, isAscii part = true
  | .lineComment _, after => after.head? ≠ some '\r'
  | .blockComment text, _ => hasInfix ['/', '*'] (text.drop 2) = false
  | .name text, _ => ∀ before rest, text = before ++ '$' :: rest → dollarTag? rest = none

/-- Tokens that are read as one when nothing stands between them. -/
def Joins : SqlToken → SqlToken → Bool
  | .quoted _, .quoted _ => true
  | .name _, .name _ | .name _, .number _ | .name _, .dollarQuoted _ _ => true
  | .name _, .symbol ch => ch = '$'
  | .number _, .name _ | .number _, .number _ => true
  | .symbol first, .symbol second =>
      (first = '-' && second = '-') || (first = '/' && second = '*') ||
        (first = '$' && second = '$')
  | .symbol ch, .name _ | .symbol ch, .dollarQuoted _ _ => ch = '$'
  | _, _ => false

/-- The text ends the token. -/
def Stops : SqlToken → List Char → Prop
  | .quoted _, after => after.head? ≠ some '\''
  | .lineComment _, after => after.head? = some '\n'
  | .dollarQuoted _ _, _ | .blockComment _, _ => True
  | .name _, after => ∀ next, after.head? = some next → isNamePart next = false
  | .number _, after => ∀ next, after.head? = some next → isTagPart next = false
  | .symbol ch, after =>
      ¬ (ch = '-' ∧ after.head? = some '-') ∧ ¬ (ch = '/' ∧ after.head? = some '*') ∧
        (ch = '$' → tag? after = none)

theorem stops_of_begins {token : SqlToken} {after : List Char} (begins : token.Begins after)
    (more : after ≠ []) (plain : token.Plain after) : token.Stops after := by
  cases begins with
  | @quoted body after ends =>
      have closed := quotedEnd_closed (body ++ after)
      rw [ends] at closed
      exact (closed more).2
  | @lineComment body after ends =>
      obtain ⟨ch, rest, rfl⟩ := List.exists_cons_of_ne_nil more
      have head := @lineEnd_head (body ++ ch :: rest) ch (by rw [ends]; rfl)
      rcases head with rfl | rfl
      · rfl
      · exact absurd rfl plain
  | blockComment ends => trivial
  | dollarQuoted reads ends => trivial
  | name starts parts stops => exact stops
  | number starts parts stops => exact stops
  | symbol quote line block dollar notName notDigit => exact ⟨line, block, dollar⟩

/-- A token is read the same way before every text that ends it. -/
theorem begins_swap {token : SqlToken} {after other : List Char} (begins : token.Begins after)
    (more : after ≠ []) (plain : token.Plain after) (stops : token.Stops other) :
    token.Begins other := by
  have old := stops_of_begins begins more plain
  cases begins with
  | @quoted body after ends =>
      have closed := quotedEnd_closed (body ++ after)
      rw [ends] at closed
      exact .quoted (quotedEnd_body (closed more).1 stops)
  | @lineComment body after ends => exact .lineComment (lineEnd_swap ends old stops)
  | @blockComment body after ends =>
      have closed := blockEnd_closed 0 (body ++ after)
      rw [ends] at closed
      exact .blockComment (blockEnd_body (closed more))
  | dollarQuoted reads ends =>
      exact .dollarQuoted (tag?_swap _ reads) (dollarEnd_swap other ends more)
  | name starts parts _ => exact .name starts parts stops
  | number starts parts _ => exact .number starts parts stops
  | symbol quote _ _ _ notName notDigit =>
      exact .symbol quote stops.1 stops.2.1 stops.2.2 notName notDigit

/-- Each token is plain where it stands. -/
def PlainIn : List SqlToken → Prop
  | [] => True
  | token :: others => token.Plain (textOf others) ∧ PlainIn others

/-! ## Statements alone -/

theorem tag?_truncate {text after : List Char} (absent : tag? (text ++ after) = none) :
    tag? text = none := by
  cases reads : tag? text with
  | none => rfl
  | some tag =>
      obtain ⟨rest, same⟩ := tag?_append reads
      rw [same] at reads
      rw [same, List.append_assoc, List.cons_append, tag?_swap (rest ++ after) reads] at absent
      cases absent

theorem head?_truncate {first last : List Char} {ch : Char} (front : first.head? = some ch) :
    (first ++ last).head? = some ch := by
  rw [head_eq_cons front]
  rfl

theorem stops_truncate {token : SqlToken} {first last : List Char}
    (stops : token.Stops (first ++ ';' :: last)) : token.Stops first := by
  cases token with
  | quoted text => exact fun front => stops (head?_truncate front)
  | lineComment text =>
      cases first with
      | nil => cases Option.some.inj stops
      | cons ch rest => exact stops
  | dollarQuoted | blockComment => trivial
  | name text => exact fun next front => stops next (head?_truncate front)
  | number text => exact fun next front => stops next (head?_truncate front)
  | symbol ch =>
      obtain ⟨line, block, dollar⟩ := stops
      exact ⟨fun both => line ⟨both.1, head?_truncate both.2⟩,
        fun both => block ⟨both.1, head?_truncate both.2⟩,
        fun same => tag?_truncate (dollar same)⟩

theorem plain_truncate {token : SqlToken} {first last : List Char}
    (plain : token.Plain (first ++ last)) : token.Plain first := by
  cases token with
  | lineComment text => exact fun front => plain (head?_truncate front)
  | _ => exact plain

/-- The tokens before a semicolon are those of their own text. -/
theorem readable_truncate {first last : List SqlToken}
    (readable : Readable (first ++ .symbol ';' :: last))
    (plain : PlainIn (first ++ .symbol ';' :: last)) : Readable first ∧ PlainIn first := by
  induction first with
  | nil => exact ⟨trivial, trivial⟩
  | cons token others induction =>
      obtain ⟨begins, readableRest⟩ := readable
      obtain ⟨plainToken, plainRest⟩ := plain
      obtain ⟨readableOthers, plainOthers⟩ := induction readableRest plainRest
      have whole : textOf (others ++ .symbol ';' :: last) = textOf others ++ ';' :: textOf last := by
        rw [textOf_append, textOf_cons]
        rfl
      have more : textOf others ++ ';' :: textOf last ≠ [] := by simp
      rw [List.append_eq, whole] at begins plainToken
      have stops := stops_truncate (stops_of_begins begins more plainToken)
      exact ⟨⟨begins_swap begins more plainToken stops, readableOthers⟩,
        plain_truncate plainToken, plainOthers⟩

theorem readable_rest {first last : List SqlToken} (readable : Readable (first ++ last))
    (plain : PlainIn (first ++ last)) : Readable last ∧ PlainIn last := by
  induction first with
  | nil => exact ⟨readable, plain⟩
  | cons token others induction => exact induction readable.2 plain.2

theorem readable_segments {current rest : List SqlToken} (readable : Readable (current ++ rest))
    (plain : PlainIn (current ++ rest)) :
    ∀ segment ∈ segments current rest, Readable segment ∧ PlainIn segment := by
  induction rest generalizing current with
  | nil =>
      rw [List.append_nil] at readable plain
      intro segment member
      rw [segments] at member
      split at member
      · cases member
      · rw [List.mem_singleton.mp member]
        exact ⟨readable, plain⟩
  | cons token others induction =>
      rw [segments]
      split
      · rename_i semicolon
        subst semicolon
        rw [List.forall_mem_cons]
        constructor
        · exact readable_truncate readable plain
        · obtain ⟨rest, plainRest⟩ := readable_rest readable plain
          exact induction rest.2 plainRest.2
      · apply induction
        · simpa using readable
        · simpa using plain

/-! ## Texts without comments -/

/-- No comment stands between tokens that join. -/
def Apart (list : List SqlToken) : Prop :=
  ∀ before left run right after, list = before ++ left :: (run ++ right :: after) → run ≠ [] →
    (∀ comment ∈ run, comment.isComment = true) → Joins left right = false

theorem apart_of_append {first list last : List SqlToken} (apart : Apart (first ++ list ++ last)) :
    Apart list := by
  rintro before left run right after rfl
  apply apart (first ++ before) left run right (after ++ last)
  simp

theorem apart_nil : Apart [] := by
  intro before left run right after same
  cases before <;> cases same

/-- It is enough to look at the first token that is no comment. -/
theorem apart_cons {token : SqlToken} {others : List SqlToken}
    (first : ∀ right, (others.dropWhile isComment).head? = some right →
      Joins token right = false)
    (rest : Apart others) : Apart (token :: others) := by
  intro before left run right after same some_comment each
  cases before with
  | nil =>
      obtain ⟨rfl, rfl⟩ := List.cons.inj same
      cases comment : right.isComment with
      | true => cases right <;> cases comment <;> cases token <;> rfl
      | false =>
          apply first right
          rw [List.dropWhile_append_of_pos each, List.dropWhile_cons_of_neg (by simp [comment])]
          rfl
  | cons before others =>
      exact rest _ left run right after (List.cons.inj same).2 some_comment each

theorem exists_append_of_segment {current rest segment : List SqlToken}
    (member : segment ∈ segments current rest) :
    ∃ first last, current ++ rest = first ++ segment ++ last := by
  induction rest generalizing current with
  | nil =>
      rw [segments] at member
      split at member
      · cases member
      · rw [List.mem_singleton.mp member]
        exact ⟨[], [], by simp⟩
  | cons token others induction =>
      rw [segments] at member
      split at member
      · rcases List.mem_cons.mp member with rfl | later
        · exact ⟨[], token :: others, rfl⟩
        · obtain ⟨first, last, same⟩ := induction later
          refine ⟨current ++ token :: first, last, ?_⟩
          rw [List.nil_append] at same
          simp [same]
      · obtain ⟨first, last, same⟩ := induction member
        refine ⟨first, last, ?_⟩
        rw [← same]
        simp

/-- The tokens that are no comments. -/
def kept (list : List SqlToken) : List SqlToken :=
  list.filter fun token => !token.isComment

theorem tag?_none_of_head {ch : Char} {text : List Char} (notDollar : ch ≠ '$')
    (notName : isNameStart ch = false) : tag? (ch :: text) = none := by
  cases reads : tag? (ch :: text) with
  | none => rfl
  | some tag =>
      obtain ⟨taken, ends, starts⟩ := tag?_eq_some.mp reads
      by_cases inTag : isTagPart ch = true
      · rw [← taken, List.takeWhile_cons_of_pos inTag, List.head?_cons, Option.all_some,
          notName] at starts
        cases starts
      · rw [List.dropWhile_cons_of_neg inTag, List.head?_cons] at ends
        exact absurd (Option.some.inj ends) notDollar

/-- Before a name, a dollar opens a tag only inside of the name. -/
theorem tag?_name_swap {text other tag : List Char} (after : List Char)
    (reads : tag? (text ++ other) = some tag)
    (stops : ∀ next, other.head? = some next → isNamePart next = false) :
    tag? (text ++ after) = some tag := by
  obtain ⟨taken, -, -⟩ := tag?_eq_some.mp reads
  obtain ⟨rest, whole⟩ := tag?_append reads
  have dollarStops : other.head? ≠ some '$' := fun front => by cases stops '$' front
  rcases List.append_eq_append_iff.mp whole with ⟨inner, same, behind⟩ | ⟨inner, same, behind⟩
  · cases inner with
    | nil => exact absurd (congrArg List.head? behind) dollarStops
    | cons ch others =>
        have inTag : isTagPart ch = true := by
          apply @List.mem_takeWhile_imp _ isTagPart (text ++ other)
          rw [taken, same]
          simp
        have outside := stops ch (congrArg List.head? behind)
        rw [isNamePart, inTag] at outside
        cases outside
  · cases inner with
    | nil => exact absurd (congrArg List.head? behind.symm) dollarStops
    | cons ch others =>
        obtain ⟨rfl, -⟩ := List.cons.inj behind
        rw [same, List.append_assoc, List.cons_append] at reads ⊢
        exact tag?_swap _ reads

theorem Begins.ne_nil {token : SqlToken} {after : List Char} (begins : token.Begins after) :
    token.text ≠ [] := by
  obtain ⟨ch, body, same, -⟩ := read_of_begins begins
  rw [same]
  exact List.cons_ne_nil _ _

theorem stops_adjacent {left right : SqlToken} {after other : List Char}
    (stops : left.Stops (right.text ++ after)) (begins : right.Begins after)
    (swapped : right.Begins other) (regular : left.isComment = false) :
    left.Stops (right.text ++ other) := by
  have heads : (right.text ++ other).head? = (right.text ++ after).head? := by
    obtain ⟨ch, body, same⟩ := List.exists_cons_of_ne_nil begins.ne_nil
    rw [same]
    rfl
  cases left with
  | quoted | name | number =>
      simp only [Stops, heads]
      exact stops
  | lineComment | blockComment => cases regular
  | dollarQuoted => trivial
  | symbol ch =>
      obtain ⟨line, block, dollar⟩ := stops
      simp only [Stops, heads]
      refine ⟨line, block, fun same => ?_⟩
      have absent := dollar same
      cases swapped with
      | quoted ends => exact tag?_none_of_head (by decide) rfl
      | lineComment ends => exact tag?_none_of_head (by decide) rfl
      | blockComment ends => exact tag?_none_of_head (by decide) rfl
      | dollarQuoted reads ends => cases absent
      | @name first body after starts parts stops =>
          cases reads : tag? (text (.name (first :: body)) ++ other) with
          | none => rfl
          | some tag => cases absent.symm.trans (tag?_name_swap _ reads stops)
      | @number first body after starts parts stops =>
          apply tag?_none_of_head
          · rintro rfl
            cases starts
          · exact isNameStart_of_isDigit starts
      | @symbol next after quote line block dollar notName notDigit =>
          by_cases second : next = '$'
          · subst second
            cases absent
          · exact tag?_none_of_head second notName

theorem stops_of_not_joins {left right : SqlToken} {after : List Char}
    (begins : right.Begins after) (apart : Joins left right = false)
    (leftRegular : left.isComment = false) (rightRegular : right.isComment = false) :
    left.Stops (right.text ++ after) := by
  cases left with
  | lineComment | blockComment => cases leftRegular
  | dollarQuoted => trivial
  | quoted text =>
      intro front
      cases begins with
      | quoted => cases apart
      | lineComment | blockComment => cases rightRegular
      | dollarQuoted => cases Option.some.inj front
      | name starts => rw [Option.some.inj front] at starts; cases starts
      | number starts => rw [Option.some.inj front] at starts; cases starts
      | symbol quote => exact quote (Option.some.inj front)
  | name text =>
      intro next front
      cases begins with
      | quoted => rw [← Option.some.inj front]; rfl
      | lineComment | blockComment => cases rightRegular
      | dollarQuoted | name | number => cases apart
      | symbol quote line block dollar notName notDigit =>
          rw [← Option.some.inj front, isNamePart, isTagPart, notName, notDigit]
          simpa [Joins] using apart
  | number text =>
      intro next front
      cases begins with
      | quoted => rw [← Option.some.inj front]; rfl
      | lineComment | blockComment => cases rightRegular
      | dollarQuoted => rw [← Option.some.inj front]; rfl
      | name | number => cases apart
      | symbol quote line block dollar notName notDigit =>
          rw [← Option.some.inj front, isTagPart, notName, notDigit]
          rfl
  | symbol ch =>
      cases begins with
      | quoted =>
          refine ⟨fun both => ?_, fun both => ?_, fun _ => tag?_none_of_head (by decide) rfl⟩
          · cases Option.some.inj both.2
          · cases Option.some.inj both.2
      | lineComment | blockComment => cases rightRegular
      | dollarQuoted =>
          refine ⟨fun both => ?_, fun both => ?_, fun same => ?_⟩
          · cases Option.some.inj both.2
          · cases Option.some.inj both.2
          · simp [Joins, same] at apart
      | name starts =>
          refine ⟨fun both => ?_, fun both => ?_, fun same => ?_⟩
          · rw [Option.some.inj both.2] at starts
            cases starts
          · rw [Option.some.inj both.2] at starts
            cases starts
          · simp [Joins, same] at apart
      | number starts =>
          refine ⟨fun both => ?_, fun both => ?_, fun _ => tag?_none_of_head ?_
            (isNameStart_of_isDigit starts)⟩
          · rw [Option.some.inj both.2] at starts
            cases starts
          · rw [Option.some.inj both.2] at starts
            cases starts
          · rintro rfl
            cases starts
      | symbol quote line block dollar notName notDigit =>
          simp only [Joins, Bool.or_eq_false_iff, Bool.and_eq_false_imp, decide_eq_true_eq,
            decide_eq_false_iff_not] at apart
          refine ⟨fun both => ?_, fun both => ?_, fun same => ?_⟩
          · exact apart.1.1 both.1 (Option.some.inj both.2)
          · exact apart.1.2 both.1 (Option.some.inj both.2)
          · exact tag?_none_of_head (apart.2 same) notName

theorem stops_nil {token : SqlToken} (regular : token.isComment = false) : token.Stops [] := by
  cases token with
  | quoted | name | number => simp [Stops]
  | lineComment | blockComment => cases regular
  | dollarQuoted => trivial
  | symbol ch => exact ⟨by simp, by simp, fun _ => rfl⟩

theorem plain_of_regular {token : SqlToken} {after : List Char} (regular : token.isComment = false)
    (plain : token.Plain after) (other : List Char) : token.Plain other := by
  cases token with
  | lineComment | blockComment => cases regular
  | _ => exact plain

theorem textOf_ne_nil {list : List SqlToken} (readable : Readable list) (some_token : list ≠ []) :
    textOf list ≠ [] := by
  cases list with
  | nil => exact absurd rfl some_token
  | cons token others =>
      intro empty
      rw [textOf_cons, List.append_eq_nil_iff] at empty
      exact readable.1.ne_nil empty.1

theorem kept_run (others : List SqlToken) :
    kept others = kept (others.dropWhile isComment) := by
  induction others with
  | nil => rfl
  | cons token rest induction =>
      cases comment : token.isComment with
      | true =>
          rw [List.dropWhile_cons_of_pos comment, ← induction]
          simp [kept, comment]
      | false => rw [List.dropWhile_cons_of_neg (by simp [comment])]

/-- What follows a token ends it also without the comments. -/
theorem stops_kept {token : SqlToken} {others : List SqlToken} (stops : token.Stops (textOf others))
    (regular : token.isComment = false) (readable : Readable others)
    (readableKept : Readable (kept others)) (apart : Apart (token :: others)) :
    token.Stops (textOf (kept others)) := by
  have whole := @List.takeWhile_append_dropWhile _ isComment others
  have each : ∀ comment ∈ others.takeWhile isComment, comment.isComment = true :=
    fun comment member => List.mem_takeWhile_imp member
  rw [kept_run] at readableKept ⊢
  cases ends : others.dropWhile isComment with
  | nil => exact stops_nil regular
  | cons right after =>
      rw [ends] at readableKept whole
      have rightRegular : right.isComment = false := by
        have front := List.head?_dropWhile_not isComment others
        rw [ends] at front
        exact front
      have same : kept (right :: after) = right :: kept after := by simp [kept, rightRegular]
      rw [same] at readableKept ⊢
      by_cases empty : others.takeWhile isComment = []
      · rw [empty] at whole
        rw [← whole] at stops readable
        exact stops_adjacent stops readable.1 readableKept.1 regular
      · apply stops_of_not_joins readableKept.1 _ regular rightRegular
        exact apart [] token _ right after (by rw [whole]; rfl) empty each

/-- The tokens that are no comments are read in the same way without the comments. -/
theorem readable_kept {list : List SqlToken} (readable : Readable list) (plain : PlainIn list)
    (apart : Apart list) : Readable (kept list) ∧ PlainIn (kept list) := by
  induction list with
  | nil => exact ⟨trivial, trivial⟩
  | cons token others induction =>
      obtain ⟨begins, readableOthers⟩ := readable
      obtain ⟨plainToken, plainOthers⟩ := plain
      have apartOthers : Apart others := by
        apply @apart_of_append [token] others []
        simpa using apart
      obtain ⟨readableKept, plainKept⟩ := induction readableOthers plainOthers apartOthers
      cases comment : token.isComment with
      | true =>
          have same : kept (token :: others) = kept others := by simp [kept, comment]
          rw [same]
          exact ⟨readableKept, plainKept⟩
      | false =>
          have same : kept (token :: others) = token :: kept others := by simp [kept, comment]
          rw [same]
          refine ⟨⟨?_, readableKept⟩, plain_of_regular comment plainToken _, plainKept⟩
          by_cases empty : others = []
          · subst empty
            exact begins
          · have more := textOf_ne_nil readableOthers empty
            have stops := stops_of_begins begins more plainToken
            exact begins_swap begins more plainToken
              (stops_kept stops comment readableOthers readableKept apart)

end SqlToken

end Marreta.Migrations
