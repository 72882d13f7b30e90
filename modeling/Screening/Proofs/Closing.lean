import Mathlib.Data.List.Infix
import Screening.Operation
import Screening.Proofs.Origin

/-!
# Closing brackets

Two things about a text are decided at its closing brackets.

*Balance.* The depth of a reading is the number of brackets opened so far less the number closed,
and nothing else (`depth_of_run`).  It is not the number of opening brackets among the parts: the
first bracket of all stays there after it has been closed, and a condition that lacks its field
takes one away.  So whether brackets balance is told from the counts alone (`balance_of_read`).

*What comes last.* A closing bracket leaves a tree on top that waits for nothing
(`Steps.top_of_closing`).  A reading that has come to a rule right behind one is therefore down to
that rule alone, and lexemes that are neither brackets nor connectives can follow without being
looked at (`read_of_trailing`).

Both are about readings that may fail somewhere else.  A text is refused for a stray bracket only if
nothing went wrong before it, and for one that is left open only if nothing else did; which fault is
named is decided by where the reading comes first.
-/

set_option autoImplicit false

namespace Screening

/-- No beginning of the lexemes closes more brackets than it opens. -/
def OpenedFirst (ls : List String) : Prop := ∀ done, done <+: ls → done.count ")" ≤ done.count "("

instance (ls : List String) : Decidable (OpenedFirst ls) :=
  decidable_of_iff (∀ done ∈ ls.inits, done.count ")" ≤ done.count "(")
    (by simp only [OpenedFirst, List.mem_inits])

namespace Assembly

/-! ## Balance

The depth is told from the counts, and every fault that has to do with brackets from the depth. -/

/-- What has been read without a fault has opened every bracket before it was closed. -/
theorem openedFirst_of_run {ls : List String} {a : Assembly} (h : run {} ls = .ok a) :
    OpenedFirst ls := by
  rintro done ⟨rest, rfl⟩
  rw [run_append, bind_eq_ok_iff] at h
  obtain ⟨b, hb, -⟩ := h
  have hdepth := depth_of_run hb
  omega

/-- A reading that has closed as many brackets as it opened refuses to close another one. -/
theorem step_stray {before : List String} {a : Assembly} (h : run {} before = .ok a)
    (hcount : before.count "(" = before.count ")") :
    a.step (.ofLexeme ")") = .error (.unbalanced .strayClosing) := by
  have hdepth := depth_of_run h
  have hzero : a.depth = 0 := by omega
  rw [Token.ofLexeme_closing_iff.2 rfl, step, hzero]

/-- Before the first stray bracket as many have been closed as opened. -/
theorem count_eq_of_stray {before : List String} (h : OpenedFirst before)
    (hstray : ¬ OpenedFirst (before ++ [")"])) : before.count "(" = before.count ")" := by
  by_contra hne
  refine hstray fun done hdone => ?_
  rcases List.prefix_concat_iff.1 hdone with rfl | hdone
  · have hle := h before List.prefix_rfl
    have hopening : [")"].count "(" = 0 := rfl
    have hclosing : [")"].count ")" = 1 := rfl
    rw [List.count_append, List.count_append, hopening, hclosing]
    omega
  · exact h done hdone

end Assembly

namespace Rule

open Assembly

theorem ofLexemes_eq (ls : List String) : ofLexemes ls = run {} ls >>= finish := rfl

/-- What comes before the fault of a reading does not change it. -/
theorem ofLexemes_of_run_error {before : List String} {e : RuleError}
    (h : run {} before = .error e) (after : List String) :
    ofLexemes (before ++ after) = .error e := by
  rw [ofLexemes_eq, run_append, h, error_bind, error_bind]

/-- The bracket that is one too many ends the reading, whatever follows. -/
theorem ofLexemes_of_stray {before : List String} {a : Assembly} (h : run {} before = .ok a)
    (hcount : before.count "(" = before.count ")") (after : List String) :
    ofLexemes (before ++ ")" :: after) = .error (.unbalanced .strayClosing) := by
  rw [ofLexemes_eq, run_append, h, ok_bind, run_cons, step_stray h hcount, error_bind, error_bind]

/-- A bracket left open is found when the text is at its end, and the fault has the number of them.
-/
theorem ofLexemes_of_unclosed {ls : List String} {a : Assembly} (h : run {} ls = .ok a)
    (hcount : ls.count "(" ≠ ls.count ")") :
    ofLexemes ls = .error (.malformed (.unclosed (ls.count "(" - ls.count ")"))) := by
  have hdepth := depth_of_run h
  have hopen : a.depth ≠ 0 := by omega
  have hleft : ls.count "(" - ls.count ")" = a.depth := by omega
  rw [ofLexemes_eq, h, ok_bind, finish, if_pos hopen, hleft]

/-- **Balance.**  A text that reads as a rule opens every bracket before it closes it, and closes
all of them.  The first bracket closed without having been opened is refused as such, unless
something before it has been refused already.  If nothing is refused before the end, brackets that
were opened and not closed are refused then, and counted.  All along the depth is the number of
brackets opened less the number closed, although the parts may hold more opening brackets than that
or fewer. -/
theorem balance_of_read :
    (∀ text t, read text = .ok t →
      OpenedFirst (lexemes text) ∧ (lexemes text).count "(" = (lexemes text).count ")") ∧
    (∀ text before after, lexemes text = before ++ ")" :: after →
      OpenedFirst before → ¬ OpenedFirst (before ++ [")"]) →
        (∀ e, run {} before = .error e → read text = .error e) ∧
        ∀ a, run {} before = .ok a → read text = .error (.unbalanced .strayClosing)) ∧
    (∀ text a, run {} (lexemes text) = .ok a →
      (lexemes text).count "(" ≠ (lexemes text).count ")" →
        read text = .error (.malformed
          (.unclosed ((lexemes text).count "(" - (lexemes text).count ")")))) ∧
    (∀ text before after a, lexemes text = before ++ after → run {} before = .ok a →
      a.depth + before.count ")" = before.count "(") ∧
    (∃ text a, run {} (lexemes text) = .ok a ∧ a.depth < a.parts.count "(") ∧
    ∃ text a, run {} (lexemes text) = .ok a ∧ a.parts.count "(" < a.depth := by
  refine ⟨fun text t h => ?_, fun text before after hsplit hbefore hstray => ?_,
    fun text a hrun hcount => ofLexemes_of_unclosed hrun hcount,
    fun _ before _ a _ hrun => depth_of_run hrun, ?_, ?_⟩
  · obtain ⟨a, hrun, -⟩ := ofLexemes_eq_ok_iff.1 h
    exact ⟨openedFirst_of_run hrun, balanced_of_ofLexemes h⟩
  · have hcount := count_eq_of_stray hbefore hstray
    rw [read, hsplit]
    exact ⟨fun e he => ofLexemes_of_run_error he _, fun a ha => ofLexemes_of_stray ha hcount after⟩
  · -- The bracket round the only comparison is closed and stays.
    exact ⟨"(a = 1)", ⟨["("], [condition ⟨"a", .equal, .integer 1⟩], 0⟩, by decide +kernel,
      by decide⟩
  · -- Both brackets are open, and one of them has become a field.
    exact ⟨"((= x AND", ⟨["("], [pending .and (condition ⟨"(", .equal, .text "x"⟩)], 2⟩,
      by decide +kernel, by decide⟩

/-- A stray bracket behind a text that reads, one behind a fault, and a bracket left open. -/
theorem balance_of_read_of_faults :
    read "(a = 1)) OR b = 2" = .error (.unbalanced .strayClosing) ∧
    read "(a => 1)) x" = .error (.unsupportedComparison "=>") ∧
    read "((a = 1) AND b = 2" = .error (.malformed (.unclosed 1)) := by
  obtain ⟨-, hstray, hunclosed, -⟩ := balance_of_read
  refine ⟨?_, ?_, ?_⟩
  · have hrun : run {} ["(", "a", "=", "1", ")"]
        = .ok ⟨["("], [condition ⟨"a", .equal, .integer 1⟩], 0⟩ := by decide +kernel
    exact (hstray _ ["(", "a", "=", "1", ")"] ["OR", "b", "=", "2"] (by decide +kernel)
      (by decide +kernel) (by decide +kernel)).2 _ hrun
  · have hrun : run {} ["(", "a", "=>", "1", ")"] = .error (.unsupportedComparison "=>") := by
      decide +kernel
    exact (hstray _ ["(", "a", "=>", "1", ")"] ["x"] (by decide +kernel) (by decide +kernel)
      (by decide +kernel)).1 _ hrun
  · have hrun : run {} (lexemes "((a = 1) AND b = 2") = .ok ⟨["2", "=", "b", "(", "("],
        [pending .and (condition ⟨"a", .equal, .integer 1⟩)], 1⟩ := by decide +kernel
    have hcount : (lexemes "((a = 1) AND b = 2").count "("
        - (lexemes "((a = 1) AND b = 2").count ")" = 1 := by decide +kernel
    have hread := hunclosed _ _ hrun (by decide +kernel)
    rwa [hcount] at hread

end Rule

namespace Assembly

/-! ## What comes last

Parts that are left over are looked at only if there is no single complete tree. -/

/-- The tree on top after a closing bracket waits for nothing. -/
theorem Steps.top_of_closing {a b : Assembly} (h : a.Steps .closing b) :
    ∃ t older, b.trees = t :: older ∧ ∀ op left, t ≠ .pending op left := by
  cases h with
  | @closeFirst parts depth t b h =>
    refine ⟨t, b.trees, rfl, fun op left ht => ?_⟩
    -- Without trees the comparison is made from the parts.
    cases h with
    | fresh field c value => cases ht
  | closePending hsome h => exact ⟨_, _, rfl, fun op left ht => by cases ht⟩

/-- Right behind a closing bracket a reading that is a rule has no other tree. -/
theorem sole_of_closing {ls : List String} {a : Assembly} {t : Rule} (h : run {} ls = .ok a)
    (hlast : ls.getLast? = some ")") (ht : a.Finishes t) :
    a.trees = [t] ∧ t.complete = true ∧ a.depth = 0 := by
  obtain ⟨done, rfl⟩ := List.getLast?_eq_some_iff.1 hlast
  rw [run_append, bind_eq_ok_iff] at h
  obtain ⟨b, -, h⟩ := h
  obtain ⟨c, hc, hnil⟩ := run_cons_eq_ok_iff.1 h
  cases hnil
  rw [Token.ofLexeme_closing_iff.2 rfl] at hc
  obtain ⟨top, older, htrees, hwaits⟩ := hc.top_of_closing
  cases ht with
  | sole hcomplete => exact ⟨rfl, hcomplete, rfl⟩
  | only => cases htrees
  | last field comparison value op =>
    obtain ⟨rfl, -⟩ := List.cons.inj htrees
    exact absurd rfl (hwaits op _)

/-- Lexemes that are neither brackets nor connectives pile up on the parts. -/
theorem run_parts {tail : List String} (h : ∀ l ∈ tail, Token.ofLexeme l = .part l)
    (parts : List String) (trees : List Rule) (depth : Nat) :
    run ⟨parts, trees, depth⟩ tail = .ok ⟨tail.reverse ++ parts, trees, depth⟩ := by
  induction tail generalizing parts with
  | nil => rfl
  | cons l tail ih =>
    obtain ⟨hl, htail⟩ := List.forall_mem_cons.1 h
    have hstep : step ⟨parts, trees, depth⟩ (.part l) = .ok ⟨l :: parts, trees, depth⟩ := rfl
    rw [run_cons, hl, hstep, ok_bind, ih htail, List.reverse_cons, List.append_assoc,
      List.singleton_append]

end Assembly

namespace Rule

open Assembly

/-- Behind a closing bracket lexemes may follow that are neither brackets nor connectives. -/
theorem ofLexemes_append_of_closing {ls tail : List String} {t : Rule} (h : ofLexemes ls = .ok t)
    (hlast : ls.getLast? = some ")") (htail : ∀ l ∈ tail, Token.ofLexeme l = .part l) :
    ofLexemes (ls ++ tail) = .ok t := by
  obtain ⟨⟨parts, trees, depth⟩, hrun, ht⟩ := ofLexemes_eq_ok_iff.1 h
  obtain ⟨rfl, hcomplete, rfl⟩ := sole_of_closing hrun hlast ht
  refine ofLexemes_eq_ok_iff.2 ⟨⟨tail.reverse ++ parts, [t], 0⟩, ?_, .sole hcomplete _⟩
  rw [run_append, hrun, ok_bind, run_parts htail]

/-- **What follows the last bracket.**  If a text reads as a rule and ends with a closing bracket,
then so does the same text with any lexemes behind it that are neither brackets nor connectives:
they are not looked at, and it makes no difference to any record that they are there. -/
theorem read_of_trailing {text longer : String} {t : Rule} {tail : List String}
    (h : read text = .ok t) (hlast : (lexemes text).getLast? = some ")")
    (hlonger : lexemes longer = lexemes text ++ tail)
    (htail : ∀ l ∈ tail, l ≠ "(" ∧ l ≠ ")" ∧ l ≠ "AND" ∧ l ≠ "OR") :
    read longer = .ok t ∧
      ∀ {ρ : Type} [Record ρ] (r : ρ),
        (Operation.evaluate longer r).result = (Operation.evaluate text r).result := by
  have hparts : ∀ l ∈ tail, Token.ofLexeme l = .part l := by
    intro l hl
    obtain ⟨ho, hc, hand, hor⟩ := htail l hl
    have hword : Connective.ofKeyword? l = none := by
      rw [Connective.ofKeyword?, if_neg hand, if_neg hor]
    exact Token.ofLexeme_part_iff.2 ⟨rfl, ho, hc, hword⟩
  have hread : read longer = .ok t := by
    rw [read, hlonger]
    exact ofLexemes_append_of_closing h hlast hparts
  refine ⟨hread, fun r => ?_⟩
  show (read longer >>= fun t => pure (t.passes r)) = read text >>= fun t => pure (t.passes r)
  rw [hread, h]

/-- What follows may look like a comparison, or like one with a sign that is none. -/
theorem read_of_trailing_of_comparisons :
    ∃ t, read "(a = 1) AND (b = 2)" = .ok t ∧
      read "(a = 1) AND (b = 2) c = 3 d => 4" = .ok t := by
  let t : Rule := joined .and (condition ⟨"a", .equal, .integer 1⟩)
    (condition ⟨"b", .equal, .integer 2⟩)
  have hread : read "(a = 1) AND (b = 2)" = .ok t := by decide +kernel
  have hshort : lexemes "(a = 1) AND (b = 2)"
      = ["(", "a", "=", "1", ")", "AND", "(", "b", "=", "2", ")"] := by decide +kernel
  have hlong : lexemes "(a = 1) AND (b = 2) c = 3 d => 4"
      = ["(", "a", "=", "1", ")", "AND", "(", "b", "=", "2", ")"]
        ++ ["c", "=", "3", "d", "=>", "4"] := by decide +kernel
  have hlast : (lexemes "(a = 1) AND (b = 2)").getLast? = some ")" := by
    rw [hshort]
    rfl
  rw [← hshort] at hlong
  exact ⟨t, hread, (read_of_trailing hread hlast hlong (by decide)).1⟩

end Rule

end Screening
