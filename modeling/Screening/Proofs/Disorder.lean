import Screening.Proofs.Orderly

/-!
# Texts that are not orderly

If the rule of a text says what the text says, the text is orderly (`says_of_read`), so the machine
of orderly texts describes exactly the texts of which nothing is lost or moved.

Where the machine stops the reading goes on, but cannot end in a row that tells all of the text.
Either a lexeme of a condition is lacking, and a bracket is taken in its place
(`Outline.not_clear_of_lacking`); or a bracket has come between the lexemes of a condition, which
has the same effect later on (`Outline.Passage.false_of_stuck`); or more words have come than one
condition takes (`Told.false_of_crowded`); or words stay behind that should have been said
(`Told.eq_nil_of_closed`).

All of these are about what may still come.  A row only grows, so what it will be at the end begins
with what it is; and a row that tells the text has the words of the text in their order, so what is
missing can be told from where the row has come to (`Tells.more_or_no_more`).  None of it is about
the reading from its start: the machine has been at its side up to the place where it stops.
-/

set_option autoImplicit false

namespace Screening

/-! ## Rows that are to tell all of the text -/

/-- A row that is to tell all of the text begins with all the words so far, or no bracket is closed
any more and it tells the words up to the last one that was. -/
theorem Tells.more_or_no_more {done ls : List String} {row : List Item}
    (h : Tells row (done ++ ls)) :
    (∃ vs, Reads row (words done ++ vs)) ∨ ")" ∉ ls ∧ Reads row (words (throughClosing done)) := by
  obtain h | h := h
  · exact .inl ⟨words ls, by rwa [← words_append]⟩
  · by_cases hclosing : ")" ∈ ls
    · rw [throughClosing_append_of_mem hclosing, words_append] at h
      exact .inl ⟨_, h⟩
    · rw [throughClosing_append_of_not_mem hclosing] at h
      exact .inr ⟨hclosing, h⟩

theorem ofKeyword?_keyword_ne_none (op : Connective) :
    Connective.ofKeyword? op.keyword ≠ none := by
  rw [Connective.ofKeyword?_eq_some_iff.2 rfl]
  exact Option.some_ne_none op

namespace Told

variable {done ls ws extra : List String} {row more : List Item}

/-- Where the row waits for a condition, the extra words are the first that the rest of a whole row
reads as. -/
theorem rest_of_awaits (h : Told done row ws extra) (hr : Awaits row)
    (ht : Tells (row ++ more) (done ++ ls)) (alt : Alternates (row ++ more)) :
    ∃ vs, Reads more (extra ++ vs) := by
  obtain ⟨vs, hreads⟩ | ⟨-, hreads⟩ := ht.more_or_no_more
  · rw [h.split, List.append_assoc] at hreads
    exact ⟨vs, h.reads.rest hreads⟩
  · -- The whole row would read as no more words than the row so far.
    have hle := h.through.length_le
    rw [hreads.length_eq, h.reads.length_eq, breadth_append] at hle
    obtain rfl : more = [] := eq_nil_of_breadth (by omega)
    rw [List.append_nil] at alt
    exact absurd hr alt.not_awaits

/-- There is no whole row if more words have come than the next condition takes. -/
theorem false_of_crowded (h : Told done row ws extra) (hr : Awaits row)
    (ht : Tells (row ++ more) (done ++ ls)) (alt : Alternates (row ++ more))
    (many : 3 < extra.length) : False := by
  obtain ⟨vs, hreads⟩ := h.rest_of_awaits hr ht alt
  match extra, many, hreads with
  | _ :: _ :: _ :: w :: _, _, hreads =>
    have hw := h.plain w (by simp)
    cases alt.rest_of_awaits hr with
    | last c => cases hreads with
      | condition _ hreads => cases hreads
    | cons c op _ => cases hreads with
      | condition _ hreads => cases hreads with
        | connective op _ => exact ofKeyword?_keyword_ne_none op hw

/-- Where a bracket has been closed and more words have come, the row is whole, and no other bracket
is closed. -/
theorem eq_nil_of_closed (h : Told done row (words (throughClosing done)) extra)
    (hr : ¬ Awaits row) (ht : Tells (row ++ more) (done ++ ls)) (alt : Alternates (row ++ more))
    (some : extra ≠ []) : more = [] ∧ ")" ∉ ls := by
  obtain ⟨vs, hreads⟩ | ⟨hclosing, hreads⟩ := ht.more_or_no_more
  · rw [h.split, List.append_assoc] at hreads
    have hmore := h.reads.rest hreads
    match extra, some, hmore with
    | w :: _, _, hmore =>
      have hw := h.plain w (by simp)
      obtain rfl | ⟨op, rest, rfl⟩ := alt.rest_of_not_awaits hr
      · cases hmore
      · cases hmore with
        | connective op _ => exact absurd hw (ofKeyword?_keyword_ne_none op)
  · have hlength := hreads.length_eq
    rw [h.reads.length_eq, breadth_append] at hlength
    exact ⟨eq_nil_of_breadth (by omega), hclosing⟩

end Told

/-! ## Conditions with a bracket in them -/

namespace Outline

theorem Ends.depth_eq {o : Outline} {row : List Item} (h : o.Ends row) : o.depth = 0 := by
  cases h <;> rfl

/-- Above a bracket there have to be three parts for a condition without it. -/
theorem not_clear_of_few {newer older below : List String} {field value : String}
    {c : Comparison} {row : List Item} (few : newer.length < 3)
    (holder : ∀ part ∈ older.head?, part = "(")
    (h : newer ++ older = value :: c.symbol :: field :: below) :
    ¬ Clear (row ++ [.condition ⟨field, c, .coerce value⟩]) := by
  intro clear
  obtain ⟨hfield, hvalue⟩ := clear ⟨field, c, .coerce value⟩ (by simp)
  match newer, few, h with
  | [], _, h =>
    obtain rfl : older = _ := h
    obtain rfl : value = "(" := holder _ rfl
    exact hvalue coerce_opening
  | [_], _, h =>
    obtain ⟨-, rfl⟩ := List.cons.inj h
    exact c.symbol_ne_opening (holder _ rfl)
  | [_, _], _, h =>
    obtain ⟨-, htail⟩ := List.cons.inj h
    obtain ⟨-, rfl⟩ := List.cons.inj htail
    exact hfield (holder _ rfl)

/-- An open bracket has to be closed. -/
theorem Passage.closing_mem {o : Outline} {ls : List String} {row : List Item}
    (h : o.Passage ls row) (hd : o.depth ≠ 0) : ")" ∈ ls := by
  induction h with
  | nil he => exact absurd he.depth_eq hd
  | @cons o p l ls row hm _ ih =>
    generalize hk : Token.ofLexeme l = k at hm
    cases hm with
    | opening => exact List.mem_cons_of_mem _ (ih (Nat.succ_ne_zero _))
    | part => exact List.mem_cons_of_mem _ (ih hd)
    | connective => exact List.mem_cons_of_mem _ (ih hd)
    | closeFirst => exact Token.ofLexeme_closing_iff.1 hk ▸ List.mem_cons_self
    | closePending => exact Token.ofLexeme_closing_iff.1 hk ▸ List.mem_cons_self

end Outline

/-! ## Where the machine stops

The reasons for which it stops are gone through, first while a condition is waited for and then
behind a closing bracket. -/

section Stopped

variable {done ls : List String} {row : List Item}

/-- A condition that is made with a bracket between its lexemes has the bracket in it, or comes too
late. -/
theorem Told.false_of_bracket {sofar : List Item} {ws extra newer older below : List String}
    {field value : String} {c : Comparison} (told : Told done sofar ws extra)
    (hr : Awaits sofar) (hmore : newer.length < extra.length)
    (hparts : newer ++ "(" :: older = value :: c.symbol :: field :: below)
    (hrow : sofar ++ [.condition ⟨field, c, .coerce value⟩] <+: row) (alt : Alternates row)
    (clear : Clear row) (ht : Tells row (done ++ ls)) : False := by
  by_cases few : newer.length < 3
  · exact Outline.not_clear_of_few few (by simp) hparts (clear.of_prefix hrow)
  · obtain ⟨more, rfl⟩ := (List.prefix_append sofar _).trans hrow
    exact told.false_of_crowded hr ht alt (by omega)

/-- No whole row comes of a reading in which a bracket has come between the lexemes of a condition:
more words of it have come than there are parts above the bracket. -/
theorem Outline.Passage.false_of_stuck {o : Outline} (hp : o.Passage ls row)
    {ws extra older : List String} (told : Told done o.row ws extra) (hr : Awaits o.row)
    (newer : List String) (hparts : o.parts = newer ++ "(" :: older)
    (hmore : newer.length < extra.length) (alt : Alternates row) (clear : Clear row)
    (ht : Tells row (done ++ ls)) : False := by
  induction hp generalizing done extra newer older with
  | nil he =>
    obtain ⟨field, c, value, below, h, rfl⟩ := he.fresh_of_awaits hr
    exact told.false_of_bracket hr hmore (hparts.symm.trans h) List.prefix_rfl alt clear ht
  | @cons o p l ls row hm hp ih =>
    -- Sooner or later a condition is made.  Then the bracket is one of its lexemes, or there are
    -- three above it and too many words have come.
    have hgathers {below : List String} {longer : List Item}
        (hg : Gathers o.parts o.row below longer) (hlonger : longer <+: p.row) : False := by
      obtain ⟨field, c, value, h, rfl⟩ := hg.fresh_of_awaits hr
      exact told.false_of_bracket hr hmore (hparts.symm.trans h)
        (hlonger.trans hp.row_prefix) alt clear ht
    rw [List.append_cons] at ht
    generalize hk : Token.ofLexeme l = k at hm
    cases hm with
    -- Another bracket only makes it worse: there is nothing above it yet.
    | opening parts row depth =>
      obtain rfl := Token.ofLexeme_opening_iff.1 hk
      exact ih told.opening hr [] rfl (by simpa using Nat.zero_lt_of_lt hmore) alt clear ht
    | part lexeme parts row depth =>
      obtain ⟨rfl, -⟩ := Token.ofLexeme_part_iff.1 hk
      exact ih (told.part hk) hr (l :: newer) (congrArg (l :: ·) hparts)
        (by simpa using hmore) alt clear ht
    | connective op hg => exact hgathers hg (List.prefix_append _ _)
    | closeFirst hg => exact hgathers hg List.prefix_rfl
    | closePending hsome hg => exact hgathers hg List.prefix_rfl

/-- Brackets do not make up for a lexeme that a condition lacks. -/
theorem Outline.not_clear_of_lacking {loose below : List String} {m : Nat} {sofar : List Item}
    {field value : String} {c : Comparison} (few : loose.length < 3)
    (h : loose ++ List.replicate m "(" = value :: c.symbol :: field :: below)
    (hrow : sofar ++ [.condition ⟨field, c, .coerce value⟩] <+: row) : ¬ Clear row :=
  fun clear => not_clear_of_few few
    (fun _ hpart => List.eq_of_mem_replicate (List.mem_of_mem_head? hpart)) h
    (clear.of_prefix hrow)

section Step

variable {l : String} {sofar : List Item} {ws loose : List String} {depth : Nat} {p : Outline}

/-- Where the machine stops while a condition is waited for, either there are too few lexemes for
the condition to be made now, or a lexeme has come that does not belong to it. -/
theorem Told.false_of_stopped_waiting (told : Told done sofar ws loose.reverse)
    (hr : Awaits sofar) (few : loose.length ≤ 3)
    (hnext : (Phase.waiting loose.length).next (.ofLexeme l) = none)
    (hm : Outline.Moves ⟨loose ++ List.replicate (depth + leftBehind done) "(", sofar, depth⟩
      (.ofLexeme l) p) (hp : p.Passage ls row) (alt : Alternates row) (clear : Clear row)
    (ht : Tells row (done ++ [l] ++ ls)) : False := by
  have hrow := hp.row_prefix
  have hgathers {below : List String} {longer : List Item} (hlacks : loose.length ≠ 3)
      (hg : Outline.Gathers (loose ++ List.replicate (depth + leftBehind done) "(") sofar below
        longer) (hlonger : longer <+: row) : False := by
    obtain ⟨field, c, value, hparts, rfl⟩ := hg.fresh_of_awaits hr
    exact Outline.not_clear_of_lacking (by omega) hparts hlonger clear
  -- An opening bracket or a part comes too late, and whatever makes a condition comes too early.
  generalize hk : Token.ofLexeme l = k at hnext hm
  cases hm with
  | opening =>
    obtain rfl := Token.ofLexeme_opening_iff.1 hk
    have hn : loose.length ≠ 0 := by simpa [Phase.next] using hnext
    exact hp.false_of_stuck told.opening hr [] rfl
      (by simpa using Nat.pos_of_ne_zero hn) alt clear ht
  | part lexeme =>
    obtain ⟨rfl, -⟩ := Token.ofLexeme_part_iff.1 hk
    have hn : 3 ≤ loose.length := by simpa [Phase.next] using hnext
    obtain ⟨more, rfl⟩ := hrow
    exact (told.part hk).false_of_crowded hr ht alt (by simpa using Nat.lt_succ_of_le hn)
  | connective op hg =>
    have hn : loose.length ≠ 3 := by simpa [Phase.next] using hnext
    exact hgathers hn hg ((List.prefix_append _ _).trans hrow)
  | closeFirst hg =>
    have hn : loose.length ≠ 3 := by simpa [Phase.next] using hnext
    exact hgathers hn hg hrow
  | closePending hsome hg =>
    have hn : loose.length ≠ 3 := by simpa [Phase.next] using hnext
    exact hgathers hn hg hrow

/-- Where it stops after a closing bracket, the lexemes behind the bracket have not been said and
something follows that only fits if they have. -/
theorem Told.false_of_stopped_closed
    (told : Told done sofar (words (throughClosing done)) loose.reverse) (hr : ¬ Awaits sofar)
    (hnext : (Phase.closed loose.length).next (.ofLexeme l) = none)
    (hm : Outline.Moves ⟨loose ++ List.replicate (depth + leftBehind done) "(", sofar, depth⟩
      (.ofLexeme l) p) (hp : p.Passage ls row) (alt : Alternates row)
    (ht : Tells row (done ++ l :: ls)) : False := by
  have hrow := hp.row_prefix
  obtain ⟨more, rfl⟩ : sofar <+: row := hm.row_prefix.trans hrow
  -- Where parts stand behind the bracket the row is over, and no bracket closes any more.
  have hclosed (hn : loose.length ≠ 0) : more = [] ∧ ")" ∉ l :: ls :=
    told.eq_nil_of_closed hr ht alt fun hnone => hn (by simpa using hnone)
  generalize hk : Token.ofLexeme l = k at hnext hm
  cases hm with
  | opening =>
    have hn : loose.length ≠ 0 := by simpa [Phase.next] using hnext
    exact (hclosed hn).2 (List.mem_cons_of_mem _ (hp.closing_mem (Nat.succ_ne_zero _)))
  | part lexeme => simp [Phase.next] at hnext
  | @connective _ below _ longer op hg =>
    have hn : loose.length ≠ 0 := by simpa [Phase.next] using hnext
    have hle := hrow.length_le
    have hge := hg.row_prefix.length_le
    simp only [(hclosed hn).1, List.length_append, List.length_singleton, List.length_nil] at hle
    omega
  | closeFirst hg => exact hr awaits_nil
  | closePending hsome hg =>
    have hn : loose.length ≠ 0 := by simpa [Phase.next] using hnext
    exact (hclosed hn).2 (Token.ofLexeme_closing_iff.1 hk ▸ List.mem_cons_self)

end Step

/-- Where the machine stops, no whole row comes any more. -/
theorem Ordered.false_of_stopped {l : String} {phase : Phase} {o p : Outline}
    (h : Ordered done phase o) (hnext : phase.next (.ofLexeme l) = none)
    (hm : o.Moves (.ofLexeme l) p) (hp : p.Passage ls row) (alt : Alternates row)
    (clear : Clear row) (ht : Tells row (done ++ l :: ls)) : False := by
  cases h with
  | waiting loose depth told hr few =>
    rw [List.append_cons] at ht
    exact told.false_of_stopped_waiting hr few hnext hm hp alt clear ht
  | closed loose depth told hr => exact told.false_of_stopped_closed hr hnext hm hp alt ht

/-- From where reading and machine are side by side, a whole row that tells what the text tells
takes the machine to the end. -/
theorem Ordered.runs {done : List String} {phase : Phase} {o : Outline} (h : Ordered done phase o)
    (hlaid : Laid done o) (hp : o.Passage ls row) (alt : Alternates row) (clear : Clear row)
    (ht : Tells row (done ++ ls)) :
    ∃ phase', phase.after ls = some phase' ∧ phase'.mayEnd = true := by
  induction hp generalizing done phase with
  | @nil o row he =>
    refine ⟨phase, rfl, ?_⟩
    cases h with
    | @waiting loose depth ws sofar told hr few =>
      obtain ⟨field, c, value, below, hparts, rfl⟩ := he.fresh_of_awaits hr
      -- A reading that ends while it waits has made its condition out of the last three lexemes.
      by_contra hend
      have hn : loose.length ≠ 3 := by simpa [Phase.mayEnd] using hend
      exact Outline.not_clear_of_lacking (by omega) hparts List.prefix_rfl clear
    | closed => rfl
  | @cons o p l ls row hm hp ih =>
    cases hnext : phase.next (.ofLexeme l) with
    | none => exact (h.false_of_stopped hnext hm hp alt clear ht).elim
    | some phase' =>
      rw [Phase.after_cons, hnext, Option.bind_some]
      exact ih (h.moves hlaid.begun hnext hm) (hlaid.moves hm) alt clear
        (by rwa [List.append_assoc, List.singleton_append])

end Stopped

namespace Rule

/-- **When a rule says what its text says.**  The rule of an orderly text reads from left to right
as all the words of the text, or as all up to the last closing bracket.  Unless a bracket in quotes
stands in it, no other text has a rule that says what the text says, even if the rule may leave out
any of the words behind the last closing bracket. -/
theorem says_of_read {text : String} {t : Rule} (h : read text = .ok t) :
    (Orderly (lexemes text) → Tells t.items (lexemes text)) ∧
      ("'('" ∉ lexemes text → (t.Says (lexemes text) ↔ Orderly (lexemes text))) := by
  have hp := passage_of_ofLexemes h
  have htells (horderly : Orderly (lexemes text)) : Tells t.items (lexemes text) := by
    obtain ⟨o, -, he, hordered⟩ := hp.ordered
    obtain ⟨phase, hphase, hend⟩ := orderly_iff.1 horderly
    exact (hordered phase hphase).tells hend he
  refine ⟨htells, fun hquoted => ⟨?_, fun horderly => says_of_tells (htells horderly)⟩⟩
  rintro ⟨kept, hkept, hreads⟩
  -- The words of a text are no brackets; it has only to be seen that none is a bracket in quotes.
  have hwords : ∀ w ∈ words (throughClosing (lexemes text)) ++ kept, w ≠ "(" ∧ w ≠ "'('" := by
    intro w hw
    have hmem : w ∈ words (lexemes text) := by
      rw [← words_throughClosing_append_behindClosing]
      exact (List.Sublist.append_left hkept _).subset hw
    obtain ⟨hlexeme, ho, -⟩ := mem_words_iff.1 hmem
    exact ⟨ho, fun hq => hquoted (hq ▸ hlexeme)⟩
  have hclear := hreads.clear hwords
  exact orderly_iff.2 (ordered_nil.runs laid_nil hp
    (alternates_items (complete_of_ofLexemes h)) hclear (hp.tells hclear hkept hreads))

/-- A text with a word behind the last closing bracket: the rule says the rest. -/
theorem says_of_read_of_trailing :
    ∃ t, read "(a = 1 AND b = 2) c" = .ok t ∧ Orderly (lexemes "(a = 1 AND b = 2) c") ∧
      Tells t.items (lexemes "(a = 1 AND b = 2) c") ∧ t.Says (lexemes "(a = 1 AND b = 2) c") := by
  let t : Rule := joined .and (condition ⟨"a", .equal, .integer 1⟩)
    (condition ⟨"b", .equal, .integer 2⟩)
  have hread : read "(a = 1 AND b = 2) c" = .ok t := by decide +kernel
  have horderly : Orderly (lexemes "(a = 1 AND b = 2) c") := by decide +kernel
  have hquoted : "'('" ∉ lexemes "(a = 1 AND b = 2) c" := by decide +kernel
  obtain ⟨htells, hcriterion⟩ := says_of_read hread
  exact ⟨t, hread, horderly, htells horderly, (hcriterion hquoted).2 horderly⟩

/-- A condition before a bracket is lost, and one before another condition is moved behind it. -/
theorem not_says_of_lost_or_moved :
    (∃ t, read "a = 1 (b = 2)" = .ok t ∧ t = condition ⟨"b", .equal, .integer 2⟩ ∧
      ¬ t.Says (lexemes "a = 1 (b = 2)")) ∧
    ∃ t, read "a = 1 b = 2 AND" = .ok t ∧
      t = joined .and (condition ⟨"b", .equal, .integer 2⟩) (condition ⟨"a", .equal, .integer 1⟩) ∧
      ¬ t.Says (lexemes "a = 1 b = 2 AND") := by
  refine ⟨⟨_, by decide +kernel, rfl, ?_⟩, ⟨_, by decide +kernel, rfl, ?_⟩⟩
  · rintro ⟨kept, -, hreads⟩
    have hthrough : words (throughClosing (lexemes "a = 1 (b = 2)"))
        = ["a", "=", "1", "b", "=", "2"] := by decide +kernel
    have hlength := hreads.length_eq
    rw [hthrough, List.length_append] at hlength
    simp only [items, breadth, List.length_cons, List.length_nil] at hlength
    omega
  · rintro ⟨kept, hkept, hreads⟩
    have hthrough : words (throughClosing (lexemes "a = 1 b = 2 AND")) = [] := by decide +kernel
    have hbehind : words (behindClosing (lexemes "a = 1 b = 2 AND"))
        = ["a", "=", "1", "b", "=", "2", "AND"] := by decide +kernel
    rw [hthrough, List.nil_append] at hreads
    rw [hbehind] at hkept
    obtain rfl := hkept.eq_of_length hreads.length_eq
    exact absurd hreads.head?_eq (by decide)

end Rule

end Screening
