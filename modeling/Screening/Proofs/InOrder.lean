import Screening.Proofs.Origin

/-!
# The order in which a rule reads

Read from left to right a rule is a row of items, conditions and connectives (`Rule.items`).  In a
complete rule the two kinds take turns, with a condition at either end (`alternates_items`).

The trees of an assembly make up one row as well, the oldest tree first.  For everything that has to
do with order this row says enough, and where one tree ends and the next begins does not matter:
`Outline` keeps of an assembly the parts, the row and the depth.  Every step then does one of four
simple things to the row and the parts (`Outline.Moves`), and a successful reading is a passage of
such moves from the empty outline to the row of the rule (`passage_of_ofLexemes`).

One thing is lost with the trees and has to be saved: a pending connective that is taken up as a
side of another one stays without a right side for good.  A step after which some tree cannot become
complete any more is no step of a successful reading, and so no move; this is what `Rule.Settled` is
for.

The passage is the base of what is proved elsewhere about the order of a text: where the lexemes of
a condition stand (`Screening.Proofs.Places`), which words a rule leaves out
(`Screening.Proofs.Words`), and which texts a rule says (`Screening.Proofs.Orderly`,
`Screening.Proofs.Disorder`).  Each of these is an invariant of moves (`Passage.invariant`).
-/

set_option autoImplicit false

namespace Screening

/-- What a rule reads as from left to right. -/
inductive Item where
  | condition (c : Condition)
  | connective (op : Connective)
  deriving DecidableEq

namespace Item

@[simp] def condition? : Item → Option Condition
  | condition c => some c
  | connective _ => none

@[simp] def connective? : Item → Option Connective
  | condition _ => none
  | connective op => some op

end Item

/-! ## Rows of items

A row grows at its end.  What may come next depends on whether it ends with a condition. -/

/-- The row waits for a condition: it is empty, or ends with a connective. -/
def Awaits (row : List Item) : Prop := ∀ c, row.getLast? ≠ some (.condition c)

theorem awaits_nil : Awaits [] := by simp [Awaits]

theorem awaits_concat (row : List Item) (op : Connective) : Awaits (row ++ [.connective op]) := by
  simp [Awaits]

theorem not_awaits_concat (row : List Item) (c : Condition) :
    ¬ Awaits (row ++ [.condition c]) := by
  simp [Awaits]

/-- What stands before a connective does not matter. -/
theorem awaits_cons_connective_iff {x : Item} {op : Connective} {row : List Item} :
    Awaits (x :: .connective op :: row) ↔ Awaits row := by
  rw [Awaits, Awaits]
  cases row with
  | nil => simp
  | cons y row => simp

/-- Conditions and connectives take turns, from condition to condition. -/
inductive Alternates : List Item → Prop
  | last (c : Condition) : Alternates [.condition c]
  | cons (c : Condition) (op : Connective) {row : List Item} (h : Alternates row) :
      Alternates (.condition c :: .connective op :: row)

/-- Two rows with a connective between them alternate if both do. -/
theorem Alternates.append {row more : List Item} (h : Alternates row) (hm : Alternates more)
    (op : Connective) : Alternates (row ++ .connective op :: more) := by
  induction h with
  | last c => exact .cons c op hm
  | cons c op' _ ih => exact .cons c op' ih

/-- Where the beginning of an alternating row waits for a condition, an alternating row follows. -/
theorem Alternates.rest_of_awaits {row more : List Item} (h : Alternates (row ++ more))
    (hr : Awaits row) : Alternates more := by
  generalize hall : row ++ more = all at h
  induction h generalizing row with
  | last c =>
    cases row with
    | nil =>
      obtain rfl : more = _ := hall
      exact .last c
    | cons x row =>
      obtain ⟨rfl, hrest⟩ := List.cons.inj hall
      obtain ⟨rfl, -⟩ := List.append_eq_nil_iff.1 hrest
      exact absurd hr (not_awaits_concat [] c)
  | cons c op h ih =>
    -- The row is taken off two items at a time, as the alternating row was put together; a row of
    -- one condition waits for nothing.
    match row, hall with
    | [], hall =>
      obtain rfl : more = _ := hall
      exact .cons c op h
    | [x], hall =>
      obtain ⟨rfl, -⟩ := List.cons.inj hall
      exact absurd hr (not_awaits_concat [] c)
    | x :: y :: row, hall =>
      obtain ⟨-, htail⟩ := List.cons.inj hall
      obtain ⟨rfl, hrow⟩ := List.cons.inj htail
      exact ih (awaits_cons_connective_iff.1 hr) hrow

/-- Where it does not, nothing follows or a connective. -/
theorem Alternates.rest_of_not_awaits {row more : List Item} (h : Alternates (row ++ more))
    (hr : ¬ Awaits row) : more = [] ∨ ∃ op rest, more = .connective op :: rest := by
  generalize hall : row ++ more = all at h
  induction h generalizing row with
  | last c =>
    cases row with
    | nil => exact absurd awaits_nil hr
    | cons x row => exact .inl (List.append_eq_nil_iff.1 (List.cons.inj hall).2).2
  | cons c op h ih =>
    match row, hall with
    | [], hall => exact absurd awaits_nil hr
    | [x], hall => exact .inr ⟨op, _, (List.cons.inj hall).2⟩
    | x :: y :: row, hall =>
      obtain ⟨-, htail⟩ := List.cons.inj hall
      obtain ⟨rfl, hrow⟩ := List.cons.inj htail
      exact ih (mt awaits_cons_connective_iff.2 hr) hrow

theorem Alternates.not_awaits {row : List Item} (h : Alternates row) : ¬ Awaits row := by
  induction h with
  | last c => exact not_awaits_concat [] c
  | cons c op _ ih => exact fun hr => ih (awaits_cons_connective_iff.1 hr)

namespace Rule

/-! ## The row of a rule -/

/-- The items from left to right. -/
def items : Rule → List Item
  | condition c => [.condition c]
  | joined op left right => left.items ++ .connective op :: right.items
  | pending op left => left.items ++ [.connective op]

/-- The connectives from left to right. -/
def connectives : Rule → List Connective
  | condition _ => []
  | joined op left right => left.connectives ++ op :: right.connectives
  | pending op left => left.connectives ++ [op]

/-- The conditions of a rule are those of its row. -/
theorem filterMap_condition?_items (t : Rule) :
    t.items.filterMap Item.condition? = t.conditions := by
  induction t with
  | condition c => rfl
  | joined op left right ihl ihr => simp [items, conditions, List.filterMap_cons, ihl, ihr]
  | pending op left ih => simp [items, conditions, List.filterMap_cons, ih]

theorem filterMap_connective?_items (t : Rule) :
    t.items.filterMap Item.connective? = t.connectives := by
  induction t with
  | condition c => rfl
  | joined op left right ihl ihr => simp [items, connectives, ihl, ihr]
  | pending op left ih => simp [items, connectives, ih]

theorem items_ne_nil (t : Rule) : t.items ≠ [] := by
  cases t <;> simp [items]

/-- A complete rule has one condition more than it has connectives. -/
theorem length_conditions {t : Rule} (h : t.complete = true) :
    t.conditions.length = t.connectives.length + 1 := by
  induction t with
  | condition c => rfl
  | joined op left right ihl ihr =>
    obtain ⟨hl, hr⟩ : left.complete = true ∧ right.complete = true := by
      simpa [complete] using h
    simp only [conditions, connectives, List.length_append, List.length_cons, ihl hl, ihr hr]
    omega
  | pending op left => simp [complete] at h

/-- **In a complete rule conditions and connectives take turns.** -/
theorem alternates_items {t : Rule} (h : t.complete = true) : Alternates t.items := by
  induction t with
  | condition c => exact .last c
  | joined op left right ihl ihr =>
    obtain ⟨hl, hr⟩ : left.complete = true ∧ right.complete = true := by
      simpa [complete] using h
    exact (ihl hl).append (ihr hr) op
  | pending op left => simp [complete] at h

/-! ## Rules that can become complete

A side that is missing can be made good only as long as its connective is the whole tree. -/

/-- Nothing is missing but perhaps the right side of the whole. -/
def Settled : Rule → Prop
  | pending _ left => left.complete = true
  | t => t.complete = true

/-- As a side of another rule, a rule that can become complete has to be so already. -/
theorem complete_of_settled_joined {op : Connective} {left right : Rule}
    (h : (joined op left right).Settled) : left.complete = true ∧ right.complete = true := by
  simpa [Settled, complete] using h

theorem settled_of_complete {t : Rule} (h : t.complete = true) : t.Settled := by
  cases t with
  | condition c => exact h
  | joined op left right => exact h
  | pending op left => simp [complete] at h

end Rule

/-! ## Outlines -/

/-- What of an assembly has to do with order: its parts, newest first, what its trees read as, the
oldest one first, and its depth. -/
structure Outline where
  parts : List String := []
  row : List Item := []
  depth : Nat := 0

/-- What trees read as, the newest of which comes first. -/
def rowOf : List Rule → List Item
  | [] => []
  | t :: older => rowOf older ++ t.items

/-- What is left of an assembly when its trees are taken for one row. -/
def Assembly.outline (a : Assembly) : Outline := ⟨a.parts, rowOf a.trees, a.depth⟩

theorem rowOf_eq_nil_iff {trees : List Rule} : rowOf trees = [] ↔ trees = [] := by
  cases trees with
  | nil => simp [rowOf]
  | cons t older => simp [rowOf, Rule.items_ne_nil]

/-- A row does not wait for a condition behind a complete tree. -/
theorem not_awaits_rowOf {t : Rule} (h : t.complete = true) (older : List Rule) :
    ¬ Awaits (rowOf (t :: older)) := by
  have hlast : (rowOf (t :: older)).getLast? = t.items.getLast? := by
    rw [rowOf, List.getLast?_append, List.getLast?_eq_some_getLast t.items_ne_nil,
      Option.some_or]
  rw [Awaits, hlast]
  exact (Rule.alternates_items h).not_awaits

namespace Outline

/-- A condition is to be had: it is made from the newest parts, or the row ends with one.  On the
right the parts and the row afterwards. -/
inductive Gathers : List String → List Item → List String → List Item → Prop
  | fresh (field : String) (c : Comparison) (value : String) (below : List String)
      (row : List Item) :
      Gathers (value :: c.symbol :: field :: below) row below
        (row ++ [.condition ⟨field, c, .coerce value⟩])
  | stored {parts : List String} {row : List Item} (few : parts.length < 3)
      (h : ¬ Awaits row) : Gathers parts row parts row

/-- What a lexeme does to an outline. -/
inductive Moves : Outline → Token → Outline → Prop
  | opening (parts : List String) (row : List Item) (depth : Nat) :
      Moves ⟨parts, row, depth⟩ .opening ⟨"(" :: parts, row, depth + 1⟩
  | part (lexeme : String) (parts : List String) (row : List Item) (depth : Nat) :
      Moves ⟨parts, row, depth⟩ (.part lexeme) ⟨lexeme :: parts, row, depth⟩
  | connective {parts below : List String} {row longer : List Item} (op : Connective)
      (h : Gathers parts row below longer) (depth : Nat) :
      Moves ⟨parts, row, depth⟩ (.connective op) ⟨below, longer ++ [.connective op], depth⟩
  /-- Before there is anything in the row, a closing bracket leaves its opening one behind. -/
  | closeFirst {parts below : List String} {row : List Item} (h : Gathers parts [] below row)
      (depth : Nat) : Moves ⟨parts, [], depth + 1⟩ .closing ⟨below, row, depth⟩
  | closePending {parts below : List String} {row longer : List Item} (some : row ≠ [])
      (h : Gathers parts row ("(" :: below) longer) (depth : Nat) :
      Moves ⟨parts, row, depth + 1⟩ .closing ⟨below, longer, depth⟩

/-- How an outline ends in a row. -/
inductive Ends : Outline → List Item → Prop
  | sole (parts : List String) {row : List Item} (h : ¬ Awaits row) : Ends ⟨parts, row, 0⟩ row
  | last (field : String) (c : Comparison) (value : String) {below : List String}
      {row : List Item} (h : ∀ part ∈ below, part = "(") (hr : Awaits row) :
      Ends ⟨value :: c.symbol :: field :: below, row, 0⟩
        (row ++ [.condition ⟨field, c, .coerce value⟩])

/-- A whole reading: from an outline, by lexemes, to a row. -/
inductive Passage : Outline → List String → List Item → Prop
  | nil {o : Outline} {row : List Item} (h : o.Ends row) : Passage o [] row
  | cons {o p : Outline} {l : String} {ls : List String} {row : List Item}
      (h : o.Moves (.ofLexeme l) p) (hp : Passage p ls row) : Passage o (l :: ls) row

end Outline

namespace Assembly

/-! ## From assemblies to outlines -/

/-- Every tree can still become complete. -/
def Settled (a : Assembly) : Prop := ∀ t ∈ a.trees, t.Settled

/-- Taking a complete tree leaves a reading that could still succeed if it can now. -/
theorem Takes.settled {a b : Assembly} {t : Rule} (h : a.Takes t b) (ht : t.complete = true)
    (hb : b.Settled) : a.Settled := by
  cases h with
  | fresh => exact hb
  | stored few t older depth =>
    exact List.forall_mem_cons.2 ⟨Rule.settled_of_complete ht, hb⟩

/-- The tree finished last is a condition that is made or the end of the row. -/
theorem Takes.gathers {a b : Assembly} {t : Rule} (h : a.Takes t b) (ht : t.complete = true) :
    Outline.Gathers a.parts (rowOf a.trees) b.parts (rowOf b.trees ++ t.items) := by
  cases h with
  | fresh field c value below trees depth => exact .fresh field c value below _
  | stored few t older depth => exact .stored few (not_awaits_rowOf ht older)

/-- Before a step that leads to trees that can become complete, the trees could too, and the step
is a move. -/
theorem Steps.moves {a b : Assembly} {k : Token} (h : a.Steps k b) (hb : b.Settled) :
    a.Settled ∧ a.outline.Moves k b.outline := by
  cases h with
  | opening parts trees depth => exact ⟨hb, .opening parts _ depth⟩
  | part lexeme parts trees depth => exact ⟨hb, .part lexeme parts _ depth⟩
  | @connective a b left op h =>
    obtain ⟨hleft, hb⟩ := List.forall_mem_cons.1 hb
    refine ⟨h.settled hleft hb, ?_⟩
    have hmove := Outline.Moves.connective op (h.gathers hleft) a.depth
    simpa [outline, rowOf, Rule.items, h.depth_eq] using hmove
  | @closeFirst parts depth t b h =>
    refine ⟨by simp [Settled], ?_⟩
    -- Without a tree to take up, the condition is a fresh one.
    cases h with
    | fresh field c value => exact .closeFirst (.fresh field c value _ []) depth
  | @closePending a right left below op older depth hsome h =>
    obtain ⟨hjoined, holder⟩ := List.forall_mem_cons.1 hb
    obtain ⟨hleft, hright⟩ := Rule.complete_of_settled_joined hjoined
    refine ⟨h.settled hright (List.forall_mem_cons.2 ⟨hleft, holder⟩), ?_⟩
    have hdepth : depth = a.depth := h.depth_eq
    have hmove := Outline.Moves.closePending (mt rowOf_eq_nil_iff.1 hsome) (h.gathers hright) depth
    simpa [outline, rowOf, Rule.items, hdepth] using hmove

theorem Finishes.ends {a : Assembly} {t : Rule} (h : a.Finishes t) :
    a.Settled ∧ a.outline.Ends t.items := by
  cases h with
  | sole h parts =>
    refine ⟨by simpa [Settled] using Rule.settled_of_complete h, ?_⟩
    exact .sole parts (Rule.alternates_items h).not_awaits
  | only field c value h => exact ⟨by simp [Settled], .last field c value h awaits_nil⟩
  | @last field c value below op left h hl =>
    refine ⟨by simpa [Settled, Rule.Settled] using hl, ?_⟩
    have hend := Outline.Ends.last field c value h (awaits_concat left.items op)
    simpa [outline, rowOf, Rule.items] using hend

/-- The induction is on the lexemes from the back to the front: it is only known from the end that
all trees could become complete. -/
theorem passage_of_run {ls : List String} {a b : Assembly} {t : Rule} (h : a.run ls = .ok b)
    (hb : b.Finishes t) : a.Settled ∧ a.outline.Passage ls t.items := by
  induction ls generalizing a with
  | nil =>
    cases h
    exact ⟨hb.ends.1, .nil hb.ends.2⟩
  | cons l ls ih =>
    obtain ⟨c, hc, h⟩ := run_cons_eq_ok_iff.1 h
    obtain ⟨hsettled, hpassage⟩ := ih h
    obtain ⟨ha, hmove⟩ := hc.moves hsettled
    exact ⟨ha, .cons hmove hpassage⟩

end Assembly

/-- **A successful reading is a passage** from the empty outline to the row of the rule. -/
theorem Rule.passage_of_ofLexemes {ls : List String} {t : Rule} (h : ofLexemes ls = .ok t) :
    Outline.Passage {} ls t.items := by
  obtain ⟨a, hrun, ha⟩ := Assembly.ofLexemes_eq_ok_iff.1 h
  exact (Assembly.passage_of_run hrun ha).2

namespace Outline

/-! ## Rows only grow

So a row at any time is the beginning of the row of the rule. -/

theorem Gathers.row_prefix {parts below : List String} {row longer : List Item}
    (h : Gathers parts row below longer) : row <+: longer := by
  cases h with
  | fresh => exact List.prefix_append _ _
  | stored => exact List.prefix_rfl

theorem Moves.row_prefix {o p : Outline} {k : Token} (h : o.Moves k p) : o.row <+: p.row := by
  cases h with
  | opening => exact List.prefix_rfl
  | part => exact List.prefix_rfl
  | connective op hg => exact hg.row_prefix.trans (List.prefix_append _ _)
  | closeFirst hg => exact hg.row_prefix
  | closePending hsome hg => exact hg.row_prefix

theorem Ends.row_prefix {o : Outline} {row : List Item} (h : o.Ends row) : o.row <+: row := by
  cases h with
  | sole => exact List.prefix_rfl
  | last => exact List.prefix_append _ _

/-- Whatever is in the row stays at its beginning. -/
theorem Passage.row_prefix {o : Outline} {ls : List String} {row : List Item}
    (h : o.Passage ls row) : o.row <+: row := by
  induction h with
  | nil he => exact he.row_prefix
  | cons hm _ ih => exact hm.row_prefix.trans ih

/-! ## Invariants of a passage -/

section Invariant

variable {P : List String → Outline → Prop}
  (step : ∀ {done l o p}, P done o → o.Moves (.ofLexeme l) p → P (done ++ [l]) p)
include step

/-- The form for induction, with the lexemes that are already done. -/
theorem Passage.invariant_from {done ls : List String} {o : Outline} {row : List Item}
    (h : o.Passage ls row) (ho : P done o) : ∃ p, P (done ++ ls) p ∧ p.Ends row := by
  induction h generalizing done with
  | nil h => exact ⟨_, by simpa using ho, h⟩
  | cons h hp ih => simpa using ih (step ho h)

/-- What holds of the empty outline and is kept by every move holds at the end of a passage; `P` may
speak of the lexemes read so far. -/
theorem Passage.invariant (start : P [] {}) {ls : List String} {row : List Item}
    (h : Passage {} ls row) : ∃ p, P ls p ∧ p.Ends row :=
  h.invariant_from step start

end Invariant

end Outline

end Screening
