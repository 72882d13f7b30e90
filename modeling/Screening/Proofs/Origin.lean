import Screening.Proofs.Assembly
import Screening.Proofs.Conjunction
import Screening.Proofs.Literal

/-!
# What a rule that was read is made of

Three facts about every rule that reading ends in, each an invariant of the steps:

* no right side is missing (`complete_of_ofLexemes`);
* every condition takes its field and its value from lexemes of the text, and neither of them from a
  connective or a closing bracket (`conditions_of_ofLexemes`).  An opening bracket is not ruled out:
  `(= x)` reads as a condition on the field `(`;
* the text has as many opening brackets as closing ones (`balanced_of_ofLexemes`).

Together with what is known of lexemes, the first two say that a rule is `Grounded`, and joining
grounded rules gives another one.

The invariant behind the second fact is stated for any property of lexemes (`Assembly.MadeOf`).  It
is used with the property of being a lexeme of the text that may go on the stack of parts; a
stronger one can be had in the same way, without another induction.
-/

set_option autoImplicit false

namespace Screening

/-! ## Kinds of lexemes

What kind a lexeme is of is decided by its spelling, and every kind can be told back from it. -/

/-- A lexeme is one of the two brackets, a keyword, or a part. -/
theorem Token.ofLexeme_cases (l : String) :
    l = "(" ∧ ofLexeme l = .opening ∨ l = ")" ∧ ofLexeme l = .closing ∨
      l ≠ "(" ∧ l ≠ ")" ∧
        ((∃ op, Connective.ofKeyword? l = some op ∧ ofLexeme l = .connective op) ∨
          Connective.ofKeyword? l = none ∧ ofLexeme l = .part l) := by
  rw [ofLexeme]
  by_cases ho : l = "("
  · exact .inl ⟨ho, if_pos ho⟩
  by_cases hc : l = ")"
  · exact .inr (.inl ⟨hc, by rw [if_neg ho, if_pos hc]⟩)
  refine .inr (.inr ⟨ho, hc, ?_⟩)
  rw [if_neg ho, if_neg hc]
  cases hk : Connective.ofKeyword? l with
  | some op => exact .inl ⟨op, rfl, rfl⟩
  | none => exact .inr ⟨rfl, rfl⟩

theorem Token.ofLexeme_opening_iff {l : String} : ofLexeme l = .opening ↔ l = "(" := by
  obtain ⟨hl, h⟩ | ⟨rfl, h⟩ | ⟨ho, -, ⟨op, -, h⟩ | ⟨-, h⟩⟩ := ofLexeme_cases l
  · exact iff_of_true h hl
  · simp [h]
  · simp [ho, h]
  · simp [ho, h]

theorem Token.ofLexeme_closing_iff {l : String} : ofLexeme l = .closing ↔ l = ")" := by
  obtain ⟨rfl, h⟩ | ⟨hl, h⟩ | ⟨-, hc, ⟨op, -, h⟩ | ⟨-, h⟩⟩ := ofLexeme_cases l
  · simp [h]
  · exact iff_of_true h hl
  · simp [hc, h]
  · simp [hc, h]

theorem Token.ofLexeme_connective_iff {l : String} {op : Connective} :
    ofLexeme l = .connective op ↔
      l ≠ "(" ∧ l ≠ ")" ∧ Connective.ofKeyword? l = some op := by
  obtain ⟨rfl, h⟩ | ⟨rfl, h⟩ | ⟨ho, hc, ⟨op', hk, h⟩ | ⟨hk, h⟩⟩ := ofLexeme_cases l
  · simp [h]
  · simp [h]
  · simp [ho, hc, hk, h]
  · simp [hk, h]

theorem Token.ofLexeme_part_iff {l m : String} :
    ofLexeme l = .part m ↔
      l = m ∧ l ≠ "(" ∧ l ≠ ")" ∧ Connective.ofKeyword? l = none := by
  obtain ⟨rfl, h⟩ | ⟨rfl, h⟩ | ⟨ho, hc, ⟨op, hk, h⟩ | ⟨hk, h⟩⟩ := ofLexeme_cases l
  · simp [h]
  · simp [h]
  · simp [hk, h]
  · simp [ho, hc, hk, h]

/-- A lexeme that goes on the stack of parts: an opening bracket, or neither bracket nor keyword. -/
def Stackable (l : String) : Prop := l ≠ ")" ∧ Connective.ofKeyword? l = none

theorem stackable_opening : Stackable "(" := by
  rw [Stackable]
  decide

/-- The condition takes its field and its value from lexemes with the property `Q`. -/
def Condition.From (Q : String → Prop) (c : Condition) : Prop :=
  Q c.field ∧ ∃ value, Q value ∧ c.value = .coerce value

namespace Assembly

/-! ## Conditions come from the text -/

/-- Everything on the two stacks is made from lexemes with the property `Q`. -/
structure MadeOf (Q : String → Prop) (a : Assembly) : Prop where
  parts : ∀ l ∈ a.parts, Q l
  trees : ∀ t ∈ a.trees, ∀ c ∈ t.conditions, c.From Q

variable {Q : String → Prop}

/-- The tree finished last is made of the same lexemes, and so is what is left. -/
theorem MadeOf.takes {a b : Assembly} {t : Rule} (ha : a.MadeOf Q) (h : a.Takes t b) :
    b.MadeOf Q ∧ ∀ c ∈ t.conditions, c.From Q := by
  cases h with
  | fresh field c value below trees depth =>
    refine ⟨⟨fun l hl => ha.parts l (by simp [hl]), ha.trees⟩, fun d hd => ?_⟩
    cases List.mem_singleton.1 hd
    exact ⟨ha.parts field (by simp), value, ha.parts value (by simp), rfl⟩
  | stored few t older depth =>
    exact ⟨⟨ha.parts, fun s hs => ha.trees s (List.mem_cons_of_mem _ hs)⟩,
      ha.trees t List.mem_cons_self⟩

theorem MadeOf.push {a : Assembly} (ha : a.MadeOf Q) {t : Rule}
    (ht : ∀ c ∈ t.conditions, c.From Q) : MadeOf Q { a with trees := t :: a.trees } := by
  refine ⟨ha.parts, fun s hs => ?_⟩
  rcases List.mem_cons.1 hs with rfl | hs
  · exact ht
  · exact ha.trees s hs

/-- Every step keeps this, if the lexeme that is read has the property in case it goes among the
parts. -/
theorem MadeOf.steps {a b : Assembly} {l : String} (ha : a.MadeOf Q) (hl : Stackable l → Q l)
    (h : a.Steps (.ofLexeme l) b) : b.MadeOf Q := by
  generalize hk : Token.ofLexeme l = k at h
  cases h with
  | opening parts trees depth =>
    obtain rfl := Token.ofLexeme_opening_iff.1 hk
    exact ⟨List.forall_mem_cons.2 ⟨hl stackable_opening, ha.parts⟩, ha.trees⟩
  | part lexeme parts trees depth =>
    obtain ⟨rfl, -, hc, hw⟩ := Token.ofLexeme_part_iff.1 hk
    exact ⟨List.forall_mem_cons.2 ⟨hl ⟨hc, hw⟩, ha.parts⟩, ha.trees⟩
  | connective op h =>
    obtain ⟨hb, ht⟩ := ha.takes h
    exact hb.push ht
  | @closeFirst parts depth t c h =>
    have hlow : MadeOf Q ⟨parts, [], depth⟩ := ⟨ha.parts, ha.trees⟩
    obtain ⟨hc, ht⟩ := hlow.takes h
    exact hc.push ht
  -- The bracket that is dropped was among the parts, and dropping it takes nothing away from the
  -- trees.
  | @closePending c right left below op older depth hsome h =>
    have hlow : c.MadeOf Q := ⟨ha.parts, ha.trees⟩
    obtain ⟨⟨hparts, htrees⟩, ht⟩ := hlow.takes h
    obtain ⟨hleft, holder⟩ := List.forall_mem_cons.1 htrees
    refine ⟨(List.forall_mem_cons.1 hparts).2, List.forall_mem_cons.2 ⟨?_, holder⟩⟩
    exact List.forall_mem_append.2 ⟨hleft, ht⟩

/-- The rule that a reading ends in is one of its trees, or made of its last parts. -/
theorem MadeOf.finishes {a : Assembly} {t : Rule} (ha : a.MadeOf Q) (h : a.Finishes t) :
    ∀ c ∈ t.conditions, c.From Q := by
  cases h with
  | sole => exact ha.trees t List.mem_cons_self
  | only field c value => exact (ha.takes (.fresh field c value _ _ _)).2
  | last field c value op hbelow hl =>
    obtain ⟨⟨-, htrees⟩, ht⟩ := ha.takes (.fresh field c value _ _ _)
    exact List.forall_mem_append.2 ⟨(List.forall_mem_cons.1 htrees).1, ht⟩

/-! ## Brackets are counted -/

theorem Takes.depth_eq {a b : Assembly} {t : Rule} (h : a.Takes t b) : b.depth = a.depth := by
  cases h <;> rfl

/-- The depth is the number of opening brackets less the number of closing ones. -/
theorem Steps.depth_eq {a b : Assembly} {l : String} (h : a.Steps (.ofLexeme l) b) :
    b.depth + [l].count ")" = a.depth + [l].count "(" := by
  generalize hk : Token.ofLexeme l = k at h
  cases h with
  | opening parts trees depth =>
    obtain rfl := Token.ofLexeme_opening_iff.1 hk
    simp
  | part lexeme parts trees depth =>
    obtain ⟨rfl, ho, hc, -⟩ := Token.ofLexeme_part_iff.1 hk
    simp [ho, hc]
  | connective op h =>
    obtain ⟨ho, hc, -⟩ := Token.ofLexeme_connective_iff.1 hk
    simp [ho, hc, h.depth_eq]
  | closeFirst h =>
    obtain rfl := Token.ofLexeme_closing_iff.1 hk
    simp [h.depth_eq]
  | closePending hsome h =>
    obtain rfl := Token.ofLexeme_closing_iff.1 hk
    simpa using h.depth_eq

/-- Every prefix of a text has at least as many opening brackets as closing ones, and the depth is
the difference. -/
theorem depth_of_run {ls : List String} {a : Assembly} (h : run {} ls = .ok a) :
    a.depth + ls.count ")" = ls.count "(" := by
  refine run_invariant (P := fun done b => b.depth + done.count ")" = done.count "(")
    (fun {done l a b} ha hb => ?_) rfl h
  have hstep := hb.depth_eq
  rw [List.count_append, List.count_append]
  omega

theorem Finishes.depth_eq {a : Assembly} {t : Rule} (h : a.Finishes t) : a.depth = 0 := by
  cases h <;> rfl

/-! ## Nothing is missing -/

/-- All ways to finish ask for a tree without a missing side. -/
theorem Finishes.complete {a : Assembly} {t : Rule} (h : a.Finishes t) : t.complete = true := by
  cases h with
  | sole h => exact h
  | only => rfl
  | last field c value op hbelow hl => simp [Rule.complete, hl]

end Assembly

namespace Rule

open Assembly

/-- **Nothing is missing in a rule that was read.** -/
theorem complete_of_ofLexemes {ls : List String} {t : Rule} (h : ofLexemes ls = .ok t) :
    t.complete = true := by
  obtain ⟨a, -, ha⟩ := ofLexemes_eq_ok_iff.1 h
  exact ha.complete

/-- **A text that reads has as many brackets of either kind.** -/
theorem balanced_of_ofLexemes {ls : List String} {t : Rule} (h : ofLexemes ls = .ok t) :
    ls.count "(" = ls.count ")" := by
  obtain ⟨a, hrun, ha⟩ := ofLexemes_eq_ok_iff.1 h
  have hdepth := depth_of_run hrun
  rw [ha.depth_eq] at hdepth
  omega

/-- **Conditions come from the text**, each field and each value from a lexeme. -/
theorem conditions_of_ofLexemes {ls : List String} {t : Rule} (h : ofLexemes ls = .ok t) :
    ∀ c ∈ t.conditions, c.From fun l => l ∈ ls ∧ Stackable l := by
  obtain ⟨a, hrun, ha⟩ := ofLexemes_eq_ok_iff.1 h
  let Q : String → Prop := fun l => l ∈ ls ∧ Stackable l
  have hmade : (∀ l ∈ ls, Stackable l → Q l) → a.MadeOf Q := by
    refine run_invariant (P := fun done b => (∀ l ∈ done, Stackable l → Q l) → b.MadeOf Q)
      (fun {done l a b} ha hb hQ => ?_) (fun _ => ⟨by simp, by simp⟩) hrun
    obtain ⟨hdone, hl⟩ := List.forall_mem_append.1 hQ
    exact (ha hdone).steps (hl l List.mem_cons_self) hb
  exact (hmade fun l hl hs => ⟨hl, hs⟩).finishes ha

end Rule

/-! ## Grounded rules

What a text cannot say is that a field is a connective or a value a closing bracket.  A rule that
comes from texts says nothing of the kind either. -/

theorem Lexeme.double_not_mem_singleQuoted (text : String) : '"' ∉ (singleQuoted text).toList := by
  rw [singleQuoted, String.toList_map, List.mem_map]
  rintro ⟨c, -, hc⟩
  split at hc
  · cases hc
  · exact absurd hc ‹_›

/-- What is found in a text is legal, since double quotes are replaced before. -/
theorem legal_of_mem_lexemes {text l : String} (h : l ∈ lexemes text) : Lexeme.Legal l.toList := by
  obtain ⟨w, hw, rfl⟩ := List.mem_map.1 h
  rw [String.toList_ofList]
  exact Lexeme.legal_of_mem_scan (Lexeme.double_not_mem_singleQuoted text) hw

/-- A condition as reading makes them. -/
structure Condition.Grounded (c : Condition) : Prop where
  legal : Lexeme.Legal c.field.toList
  stackable : Stackable c.field
  plain : c.value.Plain

/-- A rule as reading and joining make them. -/
structure Rule.Grounded (t : Rule) : Prop where
  complete : t.complete = true
  conditions : ∀ c ∈ t.conditions, c.Grounded

namespace Rule

theorem Grounded.combine {left right : Rule} (hl : left.Grounded) (hr : right.Grounded) :
    (combine left right).Grounded where
  complete := by simp [Rule.combine, Rule.complete, hl.complete, hr.complete]
  conditions := List.forall_mem_append.2 ⟨hl.conditions, hr.conditions⟩

/-- What reading makes is grounded. -/
theorem grounded_of_read {text : String} {t : Rule} (h : read text = .ok t) : t.Grounded where
  complete := complete_of_ofLexemes h
  conditions c hc := by
    obtain ⟨⟨hf, hs⟩, value, ⟨hv, -⟩, hcv⟩ := conditions_of_ofLexemes h c hc
    exact ⟨legal_of_mem_lexemes hf, hs, hcv ▸ Literal.plain_coerce (legal_of_mem_lexemes hv)⟩

theorem Grounded.foldl_combine {first : Rule} {rules : List Rule} (hfirst : first.Grounded)
    (h : ∀ r ∈ rules, r.Grounded) : (rules.foldl Rule.combine first).Grounded := by
  induction rules generalizing first with
  | nil => exact hfirst
  | cons r rules ih =>
    obtain ⟨hr, hrules⟩ := List.forall_mem_cons.1 h
    exact ih (hfirst.combine hr) hrules

/-- Joining any number of rules that were read gives a grounded rule. -/
theorem grounded_of_readAll {texts : List String} {t : Rule} (h : readAll texts = .ok t) :
    t.Grounded := by
  obtain ⟨first, rules, hmap, rfl⟩ := readAll_eq_ok_iff.1 h
  have hall : ∀ r ∈ first :: rules, r.Grounded := by
    intro r hr
    obtain ⟨text, -, htext⟩ := exists_text_of_map_read hmap hr
    exact grounded_of_read htext
  obtain ⟨hfirst, hrules⟩ := List.forall_mem_cons.1 hall
  exact hfirst.foldl_combine hrules

end Rule

end Screening
