import Mathlib.Data.List.Forall2
import Screening.Proofs.InOrder

/-!
# Where the conditions of a rule stand in the text

Every condition of a rule that was read is made of three lexemes of the text, its field, its
comparison and its value in this order, and no lexeme is used twice (`accounts_of_read`).  The
invariant that carries this is a `Layout`: the positions of the lexemes on the stack of parts and of
those in the conditions made so far, all different.  Making a condition only moves three positions
from the one to the other.

The lexemes of a condition need not stand side by side, and one of them may be an opening bracket.
How often that happens is known from a balance (`Laid`): the opening brackets among the parts and in
the conditions are as many as are open at the moment, and one more if the first tree came from a
closing bracket, which leaves its opening bracket behind (`leftBehind`).  At the end none is open,
so at most one opening bracket is among the parts that are left over or in a condition, and none if
a connective stands before the first closing bracket (`Laid.ends`).

Connectives are simpler: each of them goes into the row when it is read and never leaves it, so the
connectives of the rule are those of the text, in their order (`connectives_of_ofLexemes`).

The layout is kept as data beside the reading, the positions of parts and the positions of
conditions; nothing in the reading itself knows where a lexeme has come from.
-/

set_option autoImplicit false

namespace Screening

/-- The positions of the three lexemes of a condition. -/
structure Triple where
  field : Nat
  comparison : Nat
  value : Nat
  deriving DecidableEq

/-- The three as a list. -/
def Triple.positions (p : Triple) : List Nat := [p.field, p.comparison, p.value]

/-- The condition is made of the lexemes at `p`, which stand in this order. -/
structure Condition.StandsAt (ls : List String) (c : Condition) (p : Triple) : Prop where
  rising : p.field < p.comparison ∧ p.comparison < p.value
  field : ls[p.field]? = some c.field
  comparison : ls[p.comparison]? = some c.comparison.symbol
  value : ∃ lexeme, ls[p.value]? = some lexeme ∧ c.value = .coerce lexeme

theorem getElem?_append_of_eq_some {ls : List String} {i : Nat} {l : String}
    (h : ls[i]? = some l) (more : List String) : (ls ++ more)[i]? = some l := by
  rw [List.getElem?_append_left (List.getElem?_eq_some_iff.1 h).1, h]

/-- What follows does not move a condition. -/
theorem Condition.StandsAt.append {ls : List String} {c : Condition} {p : Triple}
    (h : c.StandsAt ls p) (more : List String) : c.StandsAt (ls ++ more) p := by
  obtain ⟨lexeme, hlexeme, hvalue⟩ := h.value
  exact ⟨h.rising, getElem?_append_of_eq_some h.field more,
    getElem?_append_of_eq_some h.comparison more, lexeme,
    getElem?_append_of_eq_some hlexeme more, hvalue⟩

/-! ## Layouts

Every lemma about a step of a reading comes with one about how many of the positions hold a bracket.
-/

/-- The positions that a reading holds: those of its parts, newest first, and those of its
conditions. -/
def held (stack : List Nat) (triples : List Triple) : List Nat :=
  stack ++ triples.flatMap Triple.positions

/-- The parts stand at the positions in `stack`, the conditions of the row at `triples`. -/
structure Layout (done parts : List String) (row : List Item) (stack : List Nat)
    (triples : List Triple) : Prop where
  parts : stack.map (done[·]?) = parts.map some
  falling : stack.Pairwise (· > ·)
  conditions : List.Forall₂ (Condition.StandsAt done) (row.filterMap Item.condition?) triples
  nodup : (held stack triples).Nodup
  stackable : ∀ i ∈ held stack triples, ∃ l, done[i]? = some l ∧ Stackable l

/-- How many of the positions hold an opening bracket. -/
def bracketsAt (ls : List String) (is : List Nat) : Nat := is.countP fun i => ls[i]? = some "("

namespace Layout

variable {done parts : List String} {row : List Item} {stack : List Nat} {triples : List Triple}

theorem lt_of_mem (h : Layout done parts row stack triples) {i : Nat}
    (hi : i ∈ held stack triples) : i < done.length := by
  obtain ⟨l, hl, -⟩ := h.stackable i hi
  exact (List.getElem?_eq_some_iff.1 hl).1

/-- Reading on changes nothing about the positions held. -/
theorem append (h : Layout done parts row stack triples) (l : String) :
    Layout (done ++ [l]) parts row stack triples where
  parts := by
    rw [← h.parts]
    refine List.map_congr_left fun i hi => ?_
    rw [List.getElem?_append_left (h.lt_of_mem (List.mem_append_left _ hi))]
  falling := h.falling
  conditions := h.conditions.imp fun _ _ hc => hc.append [l]
  nodup := h.nodup
  stackable i hi := by
    obtain ⟨m, hm, hs⟩ := h.stackable i hi
    exact ⟨m, getElem?_append_of_eq_some hm [l], hs⟩

/-- Reading on does not change how many brackets are held. -/
theorem bracketsAt_append (h : Layout done parts row stack triples) (l : String) :
    bracketsAt (done ++ [l]) (held stack triples) = bracketsAt done (held stack triples) := by
  refine List.countP_congr fun i hi => ?_
  rw [List.getElem?_append_left (h.lt_of_mem hi)]

/-- The brackets held are those among the parts and those in the conditions. -/
theorem bracketsAt_held (h : Layout done parts row stack triples) :
    bracketsAt done (held stack triples)
      = parts.count "(" + bracketsAt done (triples.flatMap Triple.positions) := by
  have hstack : bracketsAt done stack = parts.count "(" := by
    have hmap := congrArg (List.countP (· = some "(")) h.parts
    rw [List.countP_map, List.countP_map] at hmap
    rw [bracketsAt, List.count]
    refine hmap.trans (List.countP_congr fun part _ => ?_)
    simp
  rw [held, bracketsAt, List.countP_append, ← bracketsAt, ← bracketsAt, hstack]

/-- The lexeme read last, put on the parts. -/
theorem push (h : Layout done parts row stack triples) {l : String} (hl : Stackable l) :
    Layout (done ++ [l]) (l :: parts) row (done.length :: stack) triples := by
  have hlast : (done ++ [l])[done.length]? = some l := by simp
  have hlt : ∀ i ∈ held stack triples, i < done.length := fun i hi => h.lt_of_mem hi
  refine ⟨?_, ?_, (h.append l).conditions, ?_, ?_⟩
  · rw [List.map_cons, (h.append l).parts, hlast, List.map_cons]
  · exact List.pairwise_cons.2 ⟨fun i hi => hlt i (List.mem_append_left _ hi), h.falling⟩
  · exact List.nodup_cons.2 ⟨fun hi => Nat.lt_irrefl _ (hlt _ hi), h.nodup⟩
  · exact List.forall_mem_cons.2 ⟨⟨l, hlast, hl⟩, (h.append l).stackable⟩

/-- An opening bracket that goes among the parts is one more. -/
theorem bracketsAt_push (h : Layout done parts row stack triples) (l : String) :
    bracketsAt (done ++ [l]) (held (done.length :: stack) triples)
      = bracketsAt done (held stack triples) + if l = "(" then 1 else 0 := by
  have hcons : held (done.length :: stack) triples = done.length :: held stack triples := rfl
  rw [hcons, bracketsAt, List.countP_cons, ← bracketsAt, h.bracketsAt_append l]
  simp

/-- A part that is dropped gives its position back. -/
theorem drop {part : String} (h : Layout done (part :: parts) row stack triples) :
    ∃ below, Layout done parts row below triples ∧
      bracketsAt done (held stack triples)
        = bracketsAt done (held below triples) + if part = "(" then 1 else 0 := by
  obtain ⟨i, below, rfl, hi, hbelow⟩ := List.map_eq_cons_iff.1 h.parts
  refine ⟨below, ⟨hbelow, h.falling.of_cons, h.conditions, ?_, ?_⟩, ?_⟩
  · exact (List.nodup_cons.1 h.nodup).2
  · exact (List.forall_mem_cons.1 h.stackable).2
  · have hcons : held (i :: below) triples = i :: held below triples := rfl
    rw [hcons, bracketsAt, List.countP_cons, ← bracketsAt, hi]
    simp

/-- Making a condition moves three positions from the parts to the conditions. -/
theorem gathers {below : List String} {longer : List Item}
    (h : Layout done parts row stack triples) (hg : Outline.Gathers parts row below longer) :
    ∃ stack' triples', Layout done below longer stack' triples' ∧
      (held stack' triples').Perm (held stack triples) := by
  cases hg with
  | stored few h' => exact ⟨stack, triples, h, .refl _⟩
  | fresh field c value below row =>
    obtain ⟨k, rest, rfl, hk, hrest⟩ := List.map_eq_cons_iff.1 h.parts
    obtain ⟨j, rest, rfl, hj, hrest⟩ := List.map_eq_cons_iff.1 hrest
    obtain ⟨i, rest, rfl, hi, hrest⟩ := List.map_eq_cons_iff.1 hrest
    -- The newest part comes first on the stack and last in the condition, so the positions are the
    -- same up to their order.
    have hperm :
        (held rest (triples ++ [⟨i, j, k⟩])).Perm (held (k :: j :: i :: rest) triples) := by
      have hflat : held rest (triples ++ [⟨i, j, k⟩]) = held rest triples ++ [i, j, k] := by
        simp [held, Triple.positions]
      rw [hflat]
      exact List.perm_append_comm.trans (.append_right _ (List.reverse_perm [k, j, i]))
    have hkj : j < k := List.rel_of_pairwise_cons h.falling List.mem_cons_self
    have hji : i < j := List.rel_of_pairwise_cons h.falling.of_cons List.mem_cons_self
    refine ⟨rest, triples ++ [⟨i, j, k⟩], ⟨hrest, h.falling.of_cons.of_cons.of_cons, ?_, ?_, ?_⟩,
      hperm⟩
    · rw [List.filterMap_append]
      exact List.rel_append h.conditions (.cons ⟨⟨hji, hkj⟩, hi, hj, value, hk, rfl⟩ .nil)
    · exact hperm.nodup_iff.2 h.nodup
    · exact fun n hn => h.stackable n (hperm.mem_iff.1 hn)

theorem connective (h : Layout done parts row stack triples) (op : Connective) :
    Layout done parts (row ++ [.connective op]) stack triples := by
  refine ⟨h.parts, h.falling, ?_, h.nodup, h.stackable⟩
  have hsame : [Item.connective op].filterMap Item.condition? = [] := rfl
  rw [List.filterMap_append, hsame, List.append_nil]
  exact h.conditions

end Layout

/-! ## The balance of brackets

A bracket is open, or among the parts, or in a condition; the depth counts the first of these. -/

instance (l : String) : Decidable (Stackable l) :=
  inferInstanceAs (Decidable (l ≠ ")" ∧ Connective.ofKeyword? l = none))

/-- The first closing bracket or connective is a closing bracket. -/
def ClosesFirst (ls : List String) : Prop := ls.find? (¬ Stackable ·) = some ")"

instance (ls : List String) : Decidable (ClosesFirst ls) :=
  inferInstanceAs (Decidable (ls.find? (¬ Stackable ·) = some ")"))

/-- The opening brackets that a closing one has left behind. -/
def leftBehind (ls : List String) : Nat := if ClosesFirst ls then 1 else 0

/-- Which of the two comes first is settled by the first of them. -/
theorem closesFirst_concat_iff {done : List String} {l : String} :
    ClosesFirst (done ++ [l]) ↔ ClosesFirst done ∨ (∀ m ∈ done, Stackable m) ∧ l = ")" := by
  rw [ClosesFirst, ClosesFirst, List.find?_append, Option.or_eq_some_iff]
  refine or_congr_right (and_congr (by simp) ?_)
  rw [List.find?_singleton]
  by_cases hl : l = ")"
  · simp [hl, Stackable]
  · simp [hl]

/-- Only a closing bracket leaves an opening one behind. -/
theorem leftBehind_concat_of_ne {l : String} (hl : l ≠ ")") (done : List String) :
    leftBehind (done ++ [l]) = leftBehind done := by
  simp [leftBehind, closesFirst_concat_iff, hl]

/-- Once a connective or a closing bracket has been read, it is settled what was left behind. -/
theorem leftBehind_concat_of_begun {done : List String} (h : ¬ ∀ m ∈ done, Stackable m)
    (l : String) : leftBehind (done ++ [l]) = leftBehind done := by
  simp [leftBehind, closesFirst_concat_iff, h]

theorem leftBehind_of_stackable {done : List String} (h : ∀ m ∈ done, Stackable m) :
    leftBehind done = 0 := by
  refine if_neg fun hc => ?_
  have hclosing := h _ (List.mem_of_find?_eq_some hc)
  exact hclosing.1 rfl

/-- The first of them does, if no connective came before. -/
theorem leftBehind_concat_closing {done : List String} (h : ∀ m ∈ done, Stackable m) :
    leftBehind (done ++ [")"]) = 1 :=
  if_pos (closesFirst_concat_iff.2 (.inr ⟨h, rfl⟩))

theorem Outline.Gathers.longer_ne_nil {parts below : List String} {row longer : List Item}
    (h : Gathers parts row below longer) : longer ≠ [] := by
  cases h with
  | fresh => exact List.append_ne_nil_of_right_ne_nil _ (List.cons_ne_nil _ _)
  | stored few h =>
    rintro rfl
    exact h awaits_nil

/-- The lexemes read so far have been laid out, and their opening brackets are accounted for: those
held are those still open and the one left behind. -/
structure Laid (done : List String) (o : Outline) : Prop where
  layout : ∃ stack triples, Layout done o.parts o.row stack triples ∧
    bracketsAt done (held stack triples) = o.depth + leftBehind done
  begun : o.row = [] ↔ ∀ l ∈ done, Stackable l

theorem laid_nil : Laid [] {} where
  layout := ⟨[], [], ⟨rfl, .nil, .nil, .nil, by simp [held]⟩, rfl⟩
  begun := by simp

/-- Every move keeps the balance.  For a closing bracket there are two cases, since only the first
of all leaves its opening bracket behind. -/
theorem Laid.moves {done : List String} {l : String} {o p : Outline} (h : Laid done o)
    (hm : o.Moves (.ofLexeme l) p) : Laid (done ++ [l]) p := by
  obtain ⟨⟨stack, triples, hl, hb⟩, hbegun⟩ := h
  generalize hk : Token.ofLexeme l = k at hm
  cases hm with
  | opening parts row depth =>
    obtain rfl := Token.ofLexeme_opening_iff.1 hk
    refine ⟨⟨_, triples, hl.push stackable_opening, ?_⟩, ?_⟩
    · rw [hl.bracketsAt_push, hb, leftBehind_concat_of_ne (by decide), if_pos rfl]
      show depth + leftBehind done + 1 = depth + 1 + leftBehind done
      omega
    · simp [hbegun, or_imp, forall_and, stackable_opening]
  | part lexeme parts row depth =>
    obtain ⟨rfl, ho, hc, hw⟩ := Token.ofLexeme_part_iff.1 hk
    refine ⟨⟨_, triples, hl.push ⟨hc, hw⟩, ?_⟩, ?_⟩
    · rw [hl.bracketsAt_push, hb, leftBehind_concat_of_ne hc, if_neg ho, Nat.add_zero]
    · simp [hbegun, or_imp, forall_and, show Stackable l from ⟨hc, hw⟩]
  | @connective parts below row longer op hg depth =>
    obtain ⟨ho, hc, hw⟩ := Token.ofLexeme_connective_iff.1 hk
    obtain ⟨stack', triples', hl', hperm⟩ := hl.gathers hg
    refine ⟨⟨stack', triples', (hl'.append l).connective op, ?_⟩, ?_⟩
    -- What is counted is only moved about, so the permutation carries the count over.
    · rw [hl'.bracketsAt_append, bracketsAt, hperm.countP_eq, ← bracketsAt, hb,
        leftBehind_concat_of_ne hc]
    · refine iff_of_false (by simp) fun hall => ?_
      rw [(hall l (by simp)).2] at hw
      cases hw
  | @closeFirst parts below row hg depth =>
    obtain rfl := Token.ofLexeme_closing_iff.1 hk
    have hall : ∀ m ∈ done, Stackable m := hbegun.1 rfl
    obtain ⟨stack', triples', hl', hperm⟩ := hl.gathers hg
    refine ⟨⟨stack', triples', hl'.append ")", ?_⟩, ?_⟩
    · rw [hl'.bracketsAt_append, bracketsAt, hperm.countP_eq, ← bracketsAt, hb,
        leftBehind_of_stackable hall, leftBehind_concat_closing hall]
    · exact iff_of_false hg.longer_ne_nil fun hall => (hall ")" (by simp)).1 rfl
  | @closePending parts below row longer hsome hg depth =>
    obtain rfl := Token.ofLexeme_closing_iff.1 hk
    obtain ⟨stack', triples', hl', hperm⟩ := hl.gathers hg
    obtain ⟨stack'', hl'', hdrop⟩ := hl'.drop
    refine ⟨⟨stack'', triples', hl''.append ")", ?_⟩, ?_⟩
    · rw [bracketsAt, hperm.countP_eq, ← bracketsAt, hb, if_pos rfl] at hdrop
      rw [hl''.bracketsAt_append, leftBehind_concat_of_begun (mt hbegun.2 hsome)]
      -- One bracket less is open and one less is held.
      have hbalance : depth + 1 + leftBehind done
          = bracketsAt done (held stack'' triples') + 1 := hdrop
      show bracketsAt done (held stack'' triples') = depth + leftBehind done
      omega
    · exact iff_of_false hg.longer_ne_nil fun hall => (hall ")" (by simp)).1 rfl

/-- What a row is laid out from at the end of a reading, and where the opening bracket is that was
left behind: among the parts that no condition has taken, or in a condition. -/
theorem Laid.ends {ls : List String} {o : Outline} {row : List Item} (h : Laid ls o)
    (he : o.Ends row) :
    ∃ below stack triples, Layout ls below row stack triples ∧
      below.count "(" + bracketsAt ls (triples.flatMap Triple.positions) = leftBehind ls ∧
      (below = o.parts ∨
        Awaits o.row ∧ ∃ field c value, o.parts = value :: Comparison.symbol c :: field :: below)
    := by
  obtain ⟨⟨stack, triples, hl, hb⟩, -⟩ := h
  cases he with
  | sole parts hrow =>
    refine ⟨parts, stack, triples, hl, ?_, .inl rfl⟩
    rw [← hl.bracketsAt_held, hb, Nat.zero_add]
  | @last field c value below row hbelow hrow =>
    obtain ⟨stack', triples', hl', hperm⟩ := hl.gathers (.fresh field c value below row)
    refine ⟨below, stack', triples', hl', ?_, .inr ⟨hrow, field, c, value, rfl⟩⟩
    rw [← hl'.bracketsAt_held, bracketsAt, hperm.countP_eq, ← bracketsAt, hb, Nat.zero_add]

/-! ## Connectives

They are told apart from all other lexemes when they are read. -/

/-- Making a condition adds no connective. -/
theorem Outline.Gathers.connectives_eq {parts below : List String} {row longer : List Item}
    (h : Gathers parts row below longer) :
    longer.filterMap Item.connective? = row.filterMap Item.connective? := by
  cases h with
  | fresh => simp
  | stored => rfl

/-- The connectives of the row are those read. -/
theorem Outline.Moves.connectives_eq {done : List String} {l : String} {o p : Outline}
    (h : o.row.filterMap Item.connective? = done.filterMap Connective.ofKeyword?)
    (hm : o.Moves (.ofLexeme l) p) :
    p.row.filterMap Item.connective? = (done ++ [l]).filterMap Connective.ofKeyword? := by
  rw [List.filterMap_append, ← h]
  generalize hk : Token.ofLexeme l = k at hm
  cases hm with
  | opening =>
    obtain rfl := Token.ofLexeme_opening_iff.1 hk
    exact (List.append_nil _).symm
  | part lexeme =>
    obtain ⟨rfl, -, -, hw⟩ := Token.ofLexeme_part_iff.1 hk
    simp [hw]
  | connective op hg =>
    obtain ⟨-, -, hw⟩ := Token.ofLexeme_connective_iff.1 hk
    simp [hw, hg.connectives_eq]
  | closeFirst hg =>
    obtain rfl := Token.ofLexeme_closing_iff.1 hk
    rw [hg.connectives_eq]
    exact (List.append_nil _).symm
  | closePending hsome hg =>
    obtain rfl := Token.ofLexeme_closing_iff.1 hk
    rw [hg.connectives_eq]
    exact (List.append_nil _).symm

theorem Outline.Ends.connectives_eq {o : Outline} {row : List Item} (h : o.Ends row) :
    row.filterMap Item.connective? = o.row.filterMap Item.connective? := by
  cases h with
  | sole => rfl
  | last => simp

namespace Rule

/-- **The connectives of a rule are those of its text**, in their order. -/
theorem connectives_of_ofLexemes {ls : List String} {t : Rule} (h : ofLexemes ls = .ok t) :
    t.connectives = ls.filterMap Connective.ofKeyword? := by
  obtain ⟨o, ho, he⟩ := Outline.Passage.invariant
    (P := fun done o => o.row.filterMap Item.connective? = done.filterMap Connective.ofKeyword?)
    (fun ho hm => hm.connectives_eq ho) rfl (passage_of_ofLexemes h)
  rw [← filterMap_connective?_items, he.connectives_eq, ho]

/-- **The accounts of a successful reading.**  The rule is complete; its connectives from left to
right are the connectives of the text, and it has one condition more.  Every condition is made of
three lexemes that stand in the text in the order of field, comparison and value.  No lexeme belongs
to two conditions or to one of them twice, and none of them is a connective or a closing bracket. -/
theorem accounts_of_read {text : String} {t : Rule} (h : read text = .ok t) :
    t.complete = true ∧
    t.connectives = (lexemes text).filterMap Connective.ofKeyword? ∧
    t.conditions.length = ((lexemes text).filterMap Connective.ofKeyword?).length + 1 ∧
    ∃ triples : List Triple,
      List.Forall₂ (Condition.StandsAt (lexemes text)) t.conditions triples ∧
      (triples.flatMap Triple.positions).Nodup ∧
      ∀ i ∈ triples.flatMap Triple.positions, ∀ l, (lexemes text)[i]? = some l →
        l ≠ ")" ∧ Connective.ofKeyword? l = none := by
  have hcomplete := complete_of_ofLexemes h
  have hconnectives := connectives_of_ofLexemes h
  refine ⟨hcomplete, hconnectives, hconnectives ▸ length_conditions hcomplete, ?_⟩
  obtain ⟨o, ho, he⟩ := Outline.Passage.invariant Laid.moves laid_nil (passage_of_ofLexemes h)
  obtain ⟨below, stack, triples, hl, -⟩ := ho.ends he
  refine ⟨triples, filterMap_condition?_items t ▸ hl.conditions, ?_, fun i hi l hil => ?_⟩
  · exact (List.nodup_append.1 hl.nodup).2.1
  · obtain ⟨m, hm, hs⟩ := hl.stackable i (List.mem_append_right _ hi)
    obtain rfl := Option.some.inj (hil.symm.trans hm)
    exact hs

/-- A text whose second condition is taken up before the first one: the two change triples, and all
six lexemes are accounted for. -/
theorem accounts_of_read_of_swapped :
    ∃ t, read "a = 1 b = 2 AND" = .ok t ∧ t.toText = "(b = 2 AND a = 1)" ∧
      t.connectives = [.and] ∧ t.conditions.length = 2 ∧
      ∃ triples : List Triple, List.Forall₂
        (Condition.StandsAt ["a", "=", "1", "b", "=", "2", "AND"]) t.conditions triples := by
  let t : Rule := joined .and (condition ⟨"b", .equal, .integer 2⟩)
    (condition ⟨"a", .equal, .integer 1⟩)
  have hlexemes : lexemes "a = 1 b = 2 AND" = ["a", "=", "1", "b", "=", "2", "AND"] := by
    decide +kernel
  have hread : read "a = 1 b = 2 AND" = .ok t := by decide +kernel
  obtain ⟨-, hconnectives, hlength, triples, hplaces, -⟩ := accounts_of_read hread
  rw [hlexemes] at hconnectives hlength hplaces
  exact ⟨t, hread, by decide +kernel, hconnectives, hlength, triples, hplaces⟩

end Rule

end Screening
