import Screening.Proofs.Words

/-!
# Orderly texts

A small machine with two kinds of `Phase` reads the lexemes of a text.  While a condition is waited
for, its three lexemes have to stand side by side, and a closing bracket or a connective may only
come once they are complete.  Behind a closing bracket brackets are free until a connective comes,
and anything else that follows has to be the end of the text.  A text that the machine runs through
is `Orderly`.

The rule of an orderly text says what the text says.  For this the reading and the machine run side
by side, kept together by `Ordered`: the row reads as the words so far but for the unfinished ones,
and these are the newest parts, above brackets only.  That nothing but brackets lies below is also
why no bracket gets into a condition of an orderly text (`brackets_of_read`): the one bracket that
might is still among the parts at the end.

The machine knows less than the reading.  It has no stack, and does not notice whether brackets
balance or a connective lacks its right side; it is only asked about texts that read as a rule, and
those are known to be sound.  What it does notice is where words stand.  That nothing else matters
is shown by the converse, in `Screening.Proofs.Disorder`.
-/

set_option autoImplicit false

namespace Screening

/-! ## Phases -/

/-- How far a text has come that is orderly so far. -/
inductive Phase where
  /-- A condition is waited for, of which this many lexemes have come. -/
  | waiting (had : Nat)
  /-- A bracket has been closed, and this many lexemes have come that are neither bracket nor
  connective. -/
  | closed (behind : Nat)
  deriving DecidableEq

namespace Phase

/-- The phase after a lexeme; none if the lexeme may not come. -/
def next : Phase → Token → Option Phase
  | waiting n, .opening => if n = 0 then some (waiting 0) else none
  | waiting n, .part _ => if n < 3 then some (waiting (n + 1)) else none
  | waiting n, .connective _ => if n = 3 then some (waiting 0) else none
  | waiting n, .closing => if n = 3 then some (closed 0) else none
  | closed n, .opening => if n = 0 then some (closed 0) else none
  | closed n, .part _ => some (closed (n + 1))
  | closed n, .connective _ => if n = 0 then some (waiting 0) else none
  | closed n, .closing => if n = 0 then some (closed 0) else none

/-- Whether the text may end here: with a condition that is complete, or behind a closing bracket.
-/
def mayEnd : Phase → Bool
  | waiting n => n == 3
  | closed _ => true

/-- The phase after some lexemes more. -/
def after (phase : Phase) (ls : List String) : Option Phase :=
  ls.foldlM (fun phase l => phase.next (.ofLexeme l)) phase

theorem after_cons (phase : Phase) (l : String) (ls : List String) :
    phase.after (l :: ls) = (phase.next (.ofLexeme l)).bind (·.after ls) := by
  rw [after, List.foldlM_cons]
  rfl

theorem after_concat (phase : Phase) (ls : List String) (l : String) :
    phase.after (ls ++ [l]) = (phase.after ls).bind (·.next (.ofLexeme l)) := by
  simp [after, List.foldlM_append]

end Phase

/-- The machine runs through the text. -/
def Orderly (ls : List String) : Prop := ((Phase.waiting 0).after ls).any Phase.mayEnd = true

theorem orderly_iff {ls : List String} :
    Orderly ls ↔ ∃ phase, (Phase.waiting 0).after ls = some phase ∧ phase.mayEnd = true :=
  Option.any_eq_true _ _

instance (ls : List String) : Decidable (Orderly ls) :=
  inferInstanceAs (Decidable (((Phase.waiting 0).after ls).any Phase.mayEnd = true))

/-! ## What a row tells of the words read

The row is compared with the words of the text so far.  Extra words have been read and are not in
the row yet. -/

/-- The row reads as the words so far, but for the extra ones at the end.  They are none of those up
to the last closing bracket, and no keywords. -/
structure Told (done : List String) (row : List Item) (ws extra : List String) : Prop where
  reads : Reads row ws
  split : words done = ws ++ extra
  through : words (throughClosing done) <+: ws
  plain : ∀ w ∈ extra, Connective.ofKeyword? w = none

namespace Told

variable {done ws extra : List String} {row : List Item}

theorem nil : Told [] [] [] [] := ⟨.nil, rfl, List.prefix_rfl, by simp⟩

theorem opening (h : Told done row ws extra) : Told (done ++ ["("]) row ws extra where
  reads := h.reads
  split := by rw [words_append, h.split]; exact List.append_nil _
  through := by rw [throughClosing_concat_of_ne (by decide)]; exact h.through
  plain := h.plain

/-- A word that is no connective is an extra one for the time being. -/
theorem part (h : Told done row ws extra) {l : String} (hl : Token.ofLexeme l = .part l) :
    Told (done ++ [l]) row ws (extra ++ [l]) := by
  obtain ⟨-, ho, hc, hw⟩ := Token.ofLexeme_part_iff.1 hl
  refine ⟨h.reads, ?_, ?_, ?_⟩
  · rw [words_append, h.split, words_of_part ho hc, List.append_assoc]
  · rw [throughClosing_concat_of_ne hc]
    exact h.through
  · simpa [or_imp, forall_and, hw] using h.plain

/-- The three extra words become a condition. -/
theorem condition {field value : String} {c : Comparison}
    (h : Told done row ws [field, c.symbol, value]) :
    Told done (row ++ [.condition ⟨field, c, .coerce value⟩]) (words done) [] where
  reads := by
    rw [h.split]
    exact h.reads.append (.condition rfl .nil)
  split := (List.append_nil _).symm
  through := h.split ▸ h.through.trans (List.prefix_append _ _)
  plain := by simp

/-- A connective goes into the row at once, if there are no extra words. -/
theorem connective (h : Told done row ws []) {l : String} {op : Connective}
    (hl : Token.ofLexeme l = .connective op) :
    Told (done ++ [l]) (row ++ [.connective op]) (ws ++ [l]) [] := by
  obtain ⟨ho, hc, hw⟩ := Token.ofLexeme_connective_iff.1 hl
  refine ⟨h.reads.append ?_, ?_, ?_, by simp⟩
  · rw [Connective.ofKeyword?_eq_some_iff.1 hw]
    exact .connective op .nil
  · rw [words_append, h.split, words_of_part ho hc, List.append_nil, List.append_nil]
  · rw [throughClosing_concat_of_ne hc]
    exact h.through.trans (List.prefix_append _ _)

/-- A closing bracket settles all words up to it. -/
theorem closing (h : Told done row ws []) :
    Told (done ++ [")"]) row (words (throughClosing (done ++ [")"]))) [] := by
  have hwords : words (done ++ [")"]) = ws := by
    rw [words_append, h.split, words_closing, List.append_nil, List.append_nil]
  have hthrough : words (throughClosing (done ++ [")"])) = ws := by
    rw [throughClosing_concat_closing, hwords]
  rw [hthrough]
  exact ⟨h.reads, by rw [hwords, List.append_nil], by simp only [hthrough, List.prefix_rfl],
    by simp⟩

end Told

/-! ## Conditions that are due -/

namespace Outline

/-- A condition made for a row that waits for one is a fresh one. -/
theorem Gathers.fresh_of_awaits {parts below : List String} {row longer : List Item}
    (h : Gathers parts row below longer) (hr : Awaits row) :
    ∃ field c value, parts = value :: Comparison.symbol c :: field :: below ∧
      longer = row ++ [.condition ⟨field, c, .coerce value⟩] := by
  cases h with
  | fresh field c value below row => exact ⟨field, c, value, rfl, rfl⟩
  | stored few h => exact absurd hr h

/-- None is made of brackets. -/
theorem Gathers.eq_of_brackets {m : Nat} {below : List String} {row longer : List Item}
    (h : Gathers (List.replicate m "(") row below longer) :
    below = List.replicate m "(" ∧ longer = row := by
  generalize hparts : List.replicate m "(" = parts at h
  cases h with
  | fresh field c value below row =>
    have hsymbol := List.eq_of_mem_replicate (a := "(") (n := m) (b := c.symbol) (by simp [hparts])
    exact absurd hsymbol c.symbol_ne_opening
  | stored => exact ⟨rfl, rfl⟩

/-- A row that waits at the end gets the condition that is among the parts. -/
theorem Ends.fresh_of_awaits {o : Outline} {row : List Item} (h : o.Ends row)
    (hr : Awaits o.row) :
    ∃ field c value below, o.parts = value :: Comparison.symbol c :: field :: below ∧
      row = o.row ++ [.condition ⟨field, c, .coerce value⟩] := by
  cases h with
  | sole parts h => exact absurd hr h
  | @last field c value below => exact ⟨field, c, value, below, rfl, rfl⟩

/-- A row that does not is complete as it is. -/
theorem Ends.eq_of_not_awaits {o : Outline} {row : List Item} (h : o.Ends row)
    (hr : ¬ Awaits o.row) : row = o.row := by
  cases h with
  | sole => rfl
  | last _ _ _ _ h => exact absurd h hr

end Outline

/-! ## The reading of an orderly text

Both machines are given the same lexemes.  The phase tells how many words lie on top of the parts
and whether the row waits. -/

/-- The reading and the machine side by side.  Words that are not in the row lie on top of the
parts, newest first; below them are the brackets that are open or have been left behind. -/
inductive Ordered (done : List String) : Phase → Outline → Prop
  | waiting (loose : List String) (depth : Nat) {ws : List String} {row : List Item}
      (told : Told done row ws loose.reverse) (hr : Awaits row) (few : loose.length ≤ 3) :
      Ordered done (.waiting loose.length)
        ⟨loose ++ List.replicate (depth + leftBehind done) "(", row, depth⟩
  | closed (loose : List String) (depth : Nat) {row : List Item}
      (told : Told done row (words (throughClosing done)) loose.reverse) (hr : ¬ Awaits row) :
      Ordered done (.closed loose.length)
        ⟨loose ++ List.replicate (depth + leftBehind done) "(", row, depth⟩

theorem ordered_nil : Ordered [] (.waiting 0) {} :=
  .waiting [] 0 .nil awaits_nil (Nat.zero_le 3)

/-- Three words on top of the brackets are the three that a condition is made of. -/
theorem append_eq_three {loose brackets below : List String} {u v w : String}
    (h : loose ++ brackets = u :: v :: w :: below) (hn : loose.length = 3) :
    loose = [u, v, w] ∧ brackets = below := by
  have hthree : loose ++ brackets = [u, v, w] ++ below := h
  exact List.append_inj hthree hn

/-- Where all three lexemes of a condition are there, it is made of them. -/
theorem Told.gathers {done loose ws brackets below : List String} {row longer : List Item}
    (told : Told done row ws loose.reverse) (hr : Awaits row) (hn : loose.length = 3)
    (hg : Outline.Gathers (loose ++ brackets) row below longer) :
    below = brackets ∧ ¬ Awaits longer ∧ Told done longer (words done) [] := by
  obtain ⟨field, c, value, hparts, rfl⟩ := hg.fresh_of_awaits hr
  obtain ⟨rfl, rfl⟩ := append_eq_three hparts hn
  exact ⟨rfl, not_awaits_concat _ _, told.condition⟩

section Moves

variable {done ws loose below : List String} {l : String} {row : List Item} {depth : Nat}
  {phase : Phase} {p : Outline}

/-- Any lexeme but a closing bracket leaves the brackets among the parts as they are. -/
theorem Ordered.waiting_concat (loose : List String) (hl : l ≠ ")")
    (told : Told (done ++ [l]) row ws loose.reverse)
    (hr : Awaits row) (few : loose.length ≤ 3) :
    Ordered (done ++ [l]) (.waiting loose.length)
      ⟨loose ++ List.replicate (depth + leftBehind done) "(", row, depth⟩ := by
  rw [← leftBehind_concat_of_ne hl]
  exact .waiting loose depth told hr few

theorem Ordered.closed_concat (loose : List String) (hl : l ≠ ")")
    (told : Told (done ++ [l]) row (words (throughClosing done)) loose.reverse)
    (hr : ¬ Awaits row) :
    Ordered (done ++ [l]) (.closed loose.length)
      ⟨loose ++ List.replicate (depth + leftBehind done) "(", row, depth⟩ := by
  rw [← throughClosing_concat_of_ne hl] at told
  rw [← leftBehind_concat_of_ne hl]
  exact .closed loose depth told hr

/-- Once the reading has begun, a closing bracket takes an opening one off the parts. -/
theorem Ordered.closed_of_pending (told : Told done row ws []) (hr : ¬ Awaits row)
    (begun : ¬ ∀ m ∈ done, Stackable m)
    (hbelow : "(" :: below = List.replicate (depth + 1 + leftBehind done) "(") :
    Ordered (done ++ [")"]) (.closed 0) ⟨below, row, depth⟩ := by
  rw [Nat.add_right_comm, List.replicate_succ] at hbelow
  obtain ⟨-, rfl⟩ := List.cons.inj hbelow
  have hordered := Ordered.closed [] depth told.closing hr
  rwa [leftBehind_concat_of_begun begun] at hordered

/-- The step of a reading while the machine waits for a condition.  What the machine allows decides
which of the moves it can be. -/
theorem Ordered.moves_of_waiting (told : Told done row ws loose.reverse) (hr : Awaits row)
    (few : loose.length ≤ 3) (begun : row = [] ↔ ∀ m ∈ done, Stackable m)
    (hnext : (Phase.waiting loose.length).next (.ofLexeme l) = some phase)
    (hm : Outline.Moves ⟨loose ++ List.replicate (depth + leftBehind done) "(", row, depth⟩
      (.ofLexeme l) p) : Ordered (done ++ [l]) phase p := by
  generalize hk : Token.ofLexeme l = k at hnext hm
  cases hm with
  | opening =>
    obtain rfl := Token.ofLexeme_opening_iff.1 hk
    obtain ⟨hn, rfl⟩ : loose.length = 0 ∧ .waiting 0 = phase := by simpa [Phase.next] using hnext
    obtain rfl := List.eq_nil_of_length_eq_zero hn
    have hordered := Ordered.waiting [] (depth + 1) told.opening hr few
    rwa [leftBehind_concat_of_ne (by decide), Nat.add_right_comm] at hordered
  | part lexeme =>
    obtain ⟨rfl, -, hc, -⟩ := Token.ofLexeme_part_iff.1 hk
    obtain ⟨hn, rfl⟩ : loose.length < 3 ∧ .waiting (loose.length + 1) = phase := by
      simpa [Phase.next] using hnext
    have htold := told.part hk
    rw [← List.reverse_cons] at htold
    exact .waiting_concat (l :: loose) hc htold hr hn
  | @connective _ below _ longer op hg =>
    obtain ⟨-, hc, -⟩ := Token.ofLexeme_connective_iff.1 hk
    obtain ⟨hn, rfl⟩ : loose.length = 3 ∧ .waiting 0 = phase := by simpa [Phase.next] using hnext
    obtain ⟨rfl, -, htold⟩ := told.gathers hr hn hg
    exact .waiting_concat [] hc (htold.connective hk) (awaits_concat longer op)
      (Nat.zero_le 3)
  | @closeFirst _ below longer hg depth =>
    obtain rfl := Token.ofLexeme_closing_iff.1 hk
    obtain ⟨hn, rfl⟩ : loose.length = 3 ∧ .closed 0 = phase := by simpa [Phase.next] using hnext
    obtain ⟨rfl, hlonger, htold⟩ := told.gathers hr hn hg
    -- The opening bracket stays: one is open less, and one more is left behind.
    have hall : ∀ m ∈ done, Stackable m := begun.1 rfl
    have hordered := Ordered.closed [] depth htold.closing hlonger
    rwa [leftBehind_concat_closing hall, ← Nat.add_zero (depth + 1),
      ← leftBehind_of_stackable hall] at hordered
  | @closePending _ below _ longer hsome hg depth =>
    obtain rfl := Token.ofLexeme_closing_iff.1 hk
    obtain ⟨hn, rfl⟩ : loose.length = 3 ∧ .closed 0 = phase := by simpa [Phase.next] using hnext
    obtain ⟨hbelow, hlonger, htold⟩ := told.gathers hr hn hg
    exact .closed_of_pending htold hlonger (mt begun.2 hsome) hbelow

/-- The step of a reading behind a closing bracket. -/
theorem Ordered.moves_of_closed (told : Told done row (words (throughClosing done)) loose.reverse)
    (hr : ¬ Awaits row) (begun : row = [] ↔ ∀ m ∈ done, Stackable m)
    (hnext : (Phase.closed loose.length).next (.ofLexeme l) = some phase)
    (hm : Outline.Moves ⟨loose ++ List.replicate (depth + leftBehind done) "(", row, depth⟩
      (.ofLexeme l) p) : Ordered (done ++ [l]) phase p := by
  generalize hk : Token.ofLexeme l = k at hnext hm
  cases hm with
  | opening =>
    obtain rfl := Token.ofLexeme_opening_iff.1 hk
    obtain ⟨hn, rfl⟩ : loose.length = 0 ∧ .closed 0 = phase := by simpa [Phase.next] using hnext
    obtain rfl := List.eq_nil_of_length_eq_zero hn
    have htold := told.opening
    rw [← throughClosing_concat_of_ne (show "(" ≠ ")" by decide)] at htold
    have hordered := Ordered.closed [] (depth + 1) htold hr
    rwa [leftBehind_concat_of_ne (by decide), Nat.add_right_comm] at hordered
  -- Behind a closing bracket parts pile up without being said; any number of them is allowed as
  -- long as nothing but parts follows.
  | part lexeme =>
    obtain ⟨rfl, -, hc, -⟩ := Token.ofLexeme_part_iff.1 hk
    obtain rfl : .closed (loose.length + 1) = phase := by simpa [Phase.next] using hnext
    have htold := told.part hk
    rw [← List.reverse_cons] at htold
    exact .closed_concat (l :: loose) hc htold hr
  | @connective _ below _ longer op hg =>
    obtain ⟨-, hc, -⟩ := Token.ofLexeme_connective_iff.1 hk
    obtain ⟨hn, rfl⟩ : loose.length = 0 ∧ .waiting 0 = phase := by simpa [Phase.next] using hnext
    obtain rfl := List.eq_nil_of_length_eq_zero hn
    obtain ⟨rfl, rfl⟩ := hg.eq_of_brackets
    exact .waiting_concat [] hc (told.connective hk) (awaits_concat longer op)
      (Nat.zero_le 3)
  -- There is a row, so the first tree of all has been made.
  | closeFirst => exact absurd awaits_nil hr
  | @closePending _ below _ longer hsome hg depth =>
    obtain rfl := Token.ofLexeme_closing_iff.1 hk
    obtain ⟨hn, rfl⟩ : loose.length = 0 ∧ .closed 0 = phase := by simpa [Phase.next] using hnext
    obtain rfl := List.eq_nil_of_length_eq_zero hn
    obtain ⟨hbelow, rfl⟩ := hg.eq_of_brackets
    exact .closed_of_pending told hr (mt begun.2 hsome) hbelow

/-- As long as the machine runs on, the reading stays at its side. -/
theorem Ordered.moves {phase' : Phase} {o : Outline} (h : Ordered done phase o)
    (begun : o.row = [] ↔ ∀ m ∈ done, Stackable m)
    (hnext : phase.next (.ofLexeme l) = some phase') (hm : o.Moves (.ofLexeme l) p) :
    Ordered (done ++ [l]) phase' p := by
  cases h with
  | waiting loose depth told hr few => exact moves_of_waiting told hr few begun hnext hm
  | closed loose depth told hr => exact moves_of_closed told hr begun hnext hm

end Moves

/-! ## The end of the reading -/

section Reading

variable {ls : List String} {row : List Item}

/-- At the end of a reading the lexemes are laid out, and if the text is orderly so far as the
machine is concerned, the two have come along side by side. -/
theorem Outline.Passage.ordered (h : Passage {} ls row) :
    ∃ o : Outline, Laid ls o ∧ o.Ends row ∧
      ∀ phase, (Phase.waiting 0).after ls = some phase → Ordered ls phase o := by
  obtain ⟨o, ⟨hlaid, hordered⟩, he⟩ := h.invariant
    (P := fun done o => Laid done o ∧
      ∀ phase, (Phase.waiting 0).after done = some phase → Ordered done phase o)
    (fun {done l o p} ⟨hlaid, hordered⟩ hm => by
      refine ⟨hlaid.moves hm, fun phase' hphase' => ?_⟩
      rw [Phase.after_concat, Option.bind_eq_some_iff] at hphase'
      obtain ⟨phase, hphase, hnext⟩ := hphase'
      exact (hordered phase hphase).moves hlaid.begun hnext hm)
    ⟨laid_nil, by rintro _ ⟨⟩; exact ordered_nil⟩
  exact ⟨o, hlaid, he, hordered⟩

/-- At the end the row tells what the text tells. -/
theorem Ordered.tells {phase : Phase} {o : Outline} (h : Ordered ls phase o)
    (hend : phase.mayEnd = true) (he : o.Ends row) : Tells row ls := by
  cases h with
  | @waiting loose depth ws sofar told hr few =>
    have hn : loose.length = 3 := by simpa [Phase.mayEnd] using hend
    obtain ⟨field, c, value, below, hparts, rfl⟩ := he.fresh_of_awaits hr
    obtain ⟨rfl, -⟩ := append_eq_three hparts hn
    exact .inl told.condition.reads
  | closed _ _ told hr =>
    obtain rfl := he.eq_of_not_awaits hr
    exact .inr told.reads

end Reading

/-! ## Brackets in conditions

Where an opening bracket has been taken for a field or a value is a matter of counting brackets, for
which see `Laid`. -/

/-- The bracket left behind in an orderly text lies among the parts that no condition has taken. -/
theorem Ordered.leftBehind_le {ls below : List String} {phase : Phase} {o : Outline}
    (h : Ordered ls phase o) (hend : phase.mayEnd = true)
    (hbelow : below = o.parts ∨
      Awaits o.row ∧ ∃ field c value, o.parts = value :: Comparison.symbol c :: field :: below) :
    leftBehind ls ≤ below.count "(" := by
  have hcount (loose : List String) (depth : Nat) :
      leftBehind ls ≤ (loose ++ List.replicate (depth + leftBehind ls) "(").count "(" := by
    rw [List.count_append, List.count_replicate_self]
    omega
  cases h with
  | @waiting loose depth ws sofar told hr few =>
    have hn : loose.length = 3 := by simpa [Phase.mayEnd] using hend
    obtain rfl | ⟨-, field, c, value, hparts⟩ := hbelow
    · exact hcount loose depth
    · obtain ⟨-, rfl⟩ := append_eq_three hparts hn
      exact hcount [] depth
  | @closed loose depth sofar told hr =>
    obtain rfl | ⟨hawaits, -⟩ := hbelow
    · exact hcount loose depth
    · exact absurd hawaits hr

/-- Conditions at positions without opening brackets have none in them, unless in quotes. -/
theorem Condition.StandsAt.ne_opening {ls : List String} {c : Condition} {p : Triple}
    (h : c.StandsAt ls p) (hp : ∀ i ∈ p.positions, ls[i]? ≠ some "(") :
    c.field ≠ "(" ∧ (c.value = .text "(" → "'('" ∈ ls) := by
  obtain ⟨lexeme, hlexeme, hcoerce⟩ := h.value
  refine ⟨fun hfield => ?_, fun hvalue => ?_⟩
  · exact hp p.field (by simp [Triple.positions]) (by rw [h.field, hfield])
  · obtain rfl | rfl := Literal.eq_or_quoted_of_coerce (hcoerce.symm.trans hvalue)
    · exact absurd hlexeme (hp p.value (by simp [Triple.positions]))
    · exact List.mem_of_getElem? hlexeme

theorem ne_opening_of_bracketsAt {ls : List String} {cs : List Condition} {triples : List Triple}
    (h : List.Forall₂ (Condition.StandsAt ls) cs triples)
    (hb : bracketsAt ls (triples.flatMap Triple.positions) = 0) :
    ∀ c ∈ cs, c.field ≠ "(" ∧ (c.value = .text "(" → "'('" ∈ ls) := by
  induction h with
  | nil => simp
  | @cons c p cs triples hc _ ih =>
    rw [List.flatMap_cons, bracketsAt, List.countP_append, Nat.add_eq_zero_iff,
      List.countP_eq_zero] at hb
    exact List.forall_mem_cons.2 ⟨hc.ne_opening (by simpa using hb.1), ih hb.2⟩

namespace Rule

/-- **How brackets get into conditions.**  Among the lexemes that the conditions of a rule are made
of is at most one opening bracket.  There is none if a connective stands before the first closing
bracket, and none if the text is orderly; then no field is an opening bracket, and a value is one
only where the text has it in quotes. -/
theorem brackets_of_read {text : String} {t : Rule} (h : read text = .ok t) :
    ∃ triples : List Triple,
      List.Forall₂ (Condition.StandsAt (lexemes text)) t.conditions triples ∧
      (triples.flatMap Triple.positions).Nodup ∧
      bracketsAt (lexemes text) (triples.flatMap Triple.positions) ≤ 1 ∧
      (¬ ClosesFirst (lexemes text) ∨ Orderly (lexemes text) →
        bracketsAt (lexemes text) (triples.flatMap Triple.positions) = 0 ∧
        ∀ c ∈ t.conditions, c.field ≠ "(" ∧ (c.value = .text "(" → "'('" ∈ lexemes text)) := by
  obtain ⟨o, hlaid, he, hordered⟩ := (passage_of_ofLexemes h).ordered
  obtain ⟨below, stack, triples, hl, hcount, hbelow⟩ := hlaid.ends he
  have hplaces : List.Forall₂ (Condition.StandsAt (lexemes text)) t.conditions triples :=
    filterMap_condition?_items t ▸ hl.conditions
  have hleft : leftBehind (lexemes text) ≤ 1 := by
    rw [leftBehind]
    split <;> omega
  refine ⟨triples, hplaces, (List.nodup_append.1 hl.nodup).2.1, by omega, fun hgood => ?_⟩
  -- Whatever has been left behind is still among the parts at the end.
  have hnone : leftBehind (lexemes text) ≤ below.count "(" := by
    obtain hcloses | horderly := hgood
    · rw [leftBehind, if_neg hcloses]
      exact Nat.zero_le _
    · obtain ⟨phase, hphase, hend⟩ := orderly_iff.1 horderly
      exact (hordered phase hphase).leftBehind_le hend hbelow
  have hzero : bracketsAt (lexemes text) (triples.flatMap Triple.positions) = 0 := by omega
  exact ⟨hzero, ne_opening_of_bracketsAt hplaces hzero⟩

/-- An orderly text that closes a bracket first: the bracket left behind stays among the parts. -/
theorem brackets_of_read_of_closing_first :
    ∃ t, read "((a = 1) AND b = '(')" = .ok t ∧ ClosesFirst (lexemes "((a = 1) AND b = '(')") ∧
      ∀ c ∈ t.conditions, c.field ≠ "(" := by
  let t : Rule := joined .and (condition ⟨"a", .equal, .integer 1⟩)
    (condition ⟨"b", .equal, .text "("⟩)
  have hread : read "((a = 1) AND b = '(')" = .ok t := by decide +kernel
  have horderly : Orderly (lexemes "((a = 1) AND b = '(')") := by decide +kernel
  obtain ⟨triples, -, -, -, hnone⟩ := brackets_of_read hread
  obtain ⟨-, hconditions⟩ := hnone (.inr horderly)
  exact ⟨t, hread, by decide +kernel, fun c hc => (hconditions c hc).1⟩

/-- A condition without a field takes the bracket before it, and one without a value a bracket
behind it. -/
theorem read_of_lacking_field_or_value :
    read "(= x)" = .ok (condition ⟨"(", .equal, .text "x"⟩) ∧
    read "((x = 1) AND c = ( AND b = 2))" =
      .ok (joined .and (condition ⟨"x", .equal, .integer 1⟩)
        (joined .and (condition ⟨"c", .equal, .text "("⟩) (condition ⟨"b", .equal, .integer 2⟩))) ∧
    "'('" ∉ lexemes "((x = 1) AND c = ( AND b = 2))" := by
  refine ⟨?_, ?_, ?_⟩ <;> decide +kernel

end Rule

end Screening
