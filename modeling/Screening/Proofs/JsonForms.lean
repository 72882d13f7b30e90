import Mathlib
import Screening.Proofs.Answers
import Screening.Proofs.Literal
import Screening.Rule.Json

/-!
# The forms of a rule in JSON

A rule is written in one way and read in many.  `Rule.Form` lists the values that stand for a rule:
every node may be an object or an array of its own choice, the members of an object may stand in any
order and among others, and a missing right side may be null or left out.  The value that a rule is
written as is one of its forms (`form_toJson`), and each of its forms reads as the rule and as no
other one (`ofJson?_form`).  So no two rules have a form in common, and a rule that was made over
HTTP can be judged where it has been received (`forms_round_trip`).

The induction is on the form and not on the rule: a form of a connective brings the forms of its
sides with it, whatever they look like.

Not every value that reads as a rule is one of the forms.  Reading is wider at a few more places,
where a tag may be the number of a kind or an operator an object of one key; nothing is ever written
like that, and the forms leave it out.
-/

set_option autoImplicit false

namespace Screening

open Json (Members Value)

/-! ## Forms -/

/-- A node of the given tag and fields: an array of the tag and every field in order, or an object
that has the tag and the fields among its members.  What other members it has does not matter. -/
inductive Node (tag : String) (fields : Members) : Value → Prop
  | array : Node tag fields (.array (.string tag :: fields.map Prod.snd))
  | object {members : Members} (type : members.lookup "type" = some (.string tag))
      (held : ∀ field ∈ fields, members.lookup field.1 = some field.2) :
      Node tag fields (.object members)

namespace Rule

/-- A value is a form of a rule. -/
inductive Form : Rule → Value → Prop
  | condition {c : Condition} {v : Value}
      (node : Node "operand" [("field", .string c.field), ("operator", .string c.comparison.symbol),
        ("value", c.value.toJson)] v) :
      Form (condition c) v
  | joined {op : Connective} {left right : Rule} {l r v : Value}
      (hl : Form left l) (hr : Form right r)
      (node : Node "operator" [("operator", .string op.keyword), ("left", l), ("right", r)] v) :
      Form (joined op left right) v
  | pending {op : Connective} {left : Rule} {l v : Value} (hl : Form left l)
      (node : Node "operator" [("operator", .string op.keyword), ("left", l), ("right", .null)] v) :
      Form (pending op left) v
  | leftOut {op : Connective} {left : Rule} {l : Value} {members : Members} (hl : Form left l)
      (node : Node "operator" [("operator", .string op.keyword), ("left", l)] (.object members))
      (right : members.lookup "right" = none) :
      Form (pending op left) (.object members)

/-- **What is written is a form.** -/
theorem form_toJson (t : Rule) : Form t t.toJson := by
  induction t with
  | condition c => exact .condition (.object rfl (by simp [List.lookup]))
  | joined op left right ihl ihr => exact .joined ihl ihr (.object rfl (by simp [List.lookup]))
  | pending op left ih => exact .pending ih (.object rfl (by simp [List.lookup]))

/-! ## Reading the forms

Each kind of node is read in both of its forms.  The sides are taken as read already, which is what
the induction gives. -/

theorem childOf?_eq (key : String) (members : Members) :
    childOf? key members = (members.lookup key).bind (ofJson? .inside) := by
  induction members with
  | nil => rfl
  | cons m rest ih =>
    rw [childOf?, List.lookup_cons]
    by_cases hkey : key = m.1
    · simp [hkey]
    · simp [hkey, ih, beq_eq_false_iff_ne.2 hkey]

/-- A side that is there is read as what it is a form of. -/
theorem childOf?_some {key : String} {members : Members} {v : Value} {t : Rule}
    (hkey : members.lookup key = some v) (h : ofJson? .inside v = some t) :
    childOf? key members = some t := by
  rw [childOf?_eq, hkey, Option.bind_some, h]

@[simp] theorem ofTag?_operand (place : Place) :
    Kind.ofTag? place (.string "operand") = some .condition :=
  rfl

@[simp] theorem ofTag?_operator (place : Place) :
    Kind.ofTag? place (.string "operator") = some .connective :=
  rfl

@[simp] theorem connectiveOf?_keyword (op : Connective) :
    connectiveOf? (.string op.keyword) = some op :=
  Connective.ofKeyword?_eq_some_iff.2 rfl

/-- A literal is read back from its JSON; an integer is a number there and a text a string. -/
@[simp] theorem ofJson?_literal (l : Literal) : Literal.ofJson? l.toJson = some l := by
  cases l with
  | integer n =>
    show (Numeral.toInt64? n.toInt).map _ = _
    rw [Numeral.toInt64?_toInt, Option.map_some]
  | text s => rfl

/-- A condition is read back from the values of its three fields. -/
@[simp] theorem ofParts?_condition (place : Place) (c : Condition) :
    Condition.ofParts? place (.string c.field) (.string c.comparison.symbol) c.value.toJson
      = some c := by
  simp [Condition.ofParts?, nameOf?]

/-- Null stands for no rule, so the right side of a connective cannot be mistaken for a missing
one. -/
theorem ne_null_of_ofJson? {place : Place} {v : Value} {t : Rule} (h : ofJson? place v = some t) :
    v ≠ .null := by
  rintro rfl
  cases h

/-- A condition reads from an object as well as from an array. -/
theorem ofJson?_condition {place : Place} {c : Condition} {v : Value}
    (node : Node "operand" [("field", .string c.field), ("operator", .string c.comparison.symbol),
      ("value", c.value.toJson)] v) :
    ofJson? place v = some (condition c) := by
  cases node with
  | array => simp [ofJson?]
  | object type held =>
    simp only [List.forall_mem_cons] at held
    obtain ⟨hfield, hoperator, hvalue, -⟩ := held
    simp [ofJson?, type, hfield, hoperator, hvalue]

theorem ofJson?_joined {place : Place} {op : Connective} {left right : Rule} {l r v : Value}
    (hl : ofJson? .inside l = some left) (hr : ofJson? .inside r = some right)
    (node : Node "operator" [("operator", .string op.keyword), ("left", l), ("right", r)] v) :
    ofJson? place v = some (joined op left right) := by
  have hnull := ne_null_of_ofJson? hr
  cases node with
  | array => simp [ofJson?, hl, hr]
  | object type held =>
    simp only [List.forall_mem_cons] at held
    obtain ⟨hoperator, hleft, hright, -⟩ := held
    simp [ofJson?, type, hoperator, hright, childOf?_some hleft hl, childOf?_some hright hr]

theorem ofJson?_pending {place : Place} {op : Connective} {left : Rule} {l v : Value}
    (hl : ofJson? .inside l = some left)
    (node : Node "operator" [("operator", .string op.keyword), ("left", l), ("right", .null)] v) :
    ofJson? place v = some (pending op left) := by
  cases node with
  | array => simp [ofJson?, hl]
  | object type held =>
    simp only [List.forall_mem_cons] at held
    obtain ⟨hoperator, hleft, hright, -⟩ := held
    simp [ofJson?, type, hoperator, hright, childOf?_some hleft hl]

/-- A right side that is left out is missing. -/
theorem ofJson?_leftOut {place : Place} {op : Connective} {left : Rule} {l : Value}
    {members : Members} (hl : ofJson? .inside l = some left)
    (node : Node "operator" [("operator", .string op.keyword), ("left", l)] (.object members))
    (right : members.lookup "right" = none) :
    ofJson? place (.object members) = some (pending op left) := by
  cases node with
  | object type held =>
    simp only [List.forall_mem_cons] at held
    obtain ⟨hoperator, hleft, -⟩ := held
    simp [ofJson?, type, hoperator, right, childOf?_some hleft hl]

/-- **Every form reads as the rule that it is a form of.** -/
theorem ofJson?_form {t : Rule} {v : Value} (h : Form t v) (place : Place) :
    ofJson? place v = some t := by
  induction h generalizing place with
  | condition node => exact ofJson?_condition node
  | joined _ _ node ihl ihr => exact ofJson?_joined (ihl .inside) (ihr .inside) node
  | pending _ node ih => exact ofJson?_pending (ih .inside) node
  | leftOut _ node right ih => exact ofJson?_leftOut (ih .inside) node right

/-- A rule and a value have at most one another to do with each other: no two rules share a form. -/
theorem eq_of_form {t u : Rule} {v : Value} (ht : Form t v) (hu : Form u v) : t = u :=
  Option.some.inj ((ofJson?_form ht .root).symm.trans (ofJson?_form hu .root))

/-- A text that reads is not empty, so a rule that was made has passed the check for that. -/
theorem ne_empty_of_read {text : String} {t : Rule} (h : read text = .ok t) : text ≠ "" := by
  rintro rfl
  have hnone : (read "").toOption = none := by decide +kernel
  rw [h] at hnone
  cases hnone

end Rule

open Http (Call Request)

/-! ## Rules that travel over HTTP

What the service answers is a value, and whoever receives it reads a rule from that. -/

/-- **A rule travels as JSON and arrives.**  What a rule is written as is one of its forms; each of
its forms reads as the rule, at the root of a document and inside a tree; and two rules that are
written alike, or have any form in common, are the same.  So the rule that a call to make one hands
out gives the verdicts that a call to judge by its text gives. -/
theorem forms_round_trip :
    (∀ t : Rule, t.Form t.toJson) ∧
      (∀ (t : Rule) (v : Value), t.Form v → ∀ place, Rule.ofJson? place v = some t) ∧
      (∀ (t u : Rule) (v : Value), t.Form v → u.Form v → t = u) ∧
      (∀ t u : Rule, t.toJson = u.toJson → t = u) ∧
      ∀ (made judged : Request) (text : String) (record : Members) (t : Rule),
        made.Makes (.create ⟨text⟩) → judged.Makes (.evaluate ⟨text, .object record⟩) →
        Rule.read text = .ok t →
        ∃ data received, (Http.handle made).response.Grants data ∧
          Rule.ofJson? .root data = some received ∧
          (Http.handle judged).response.Grants
            (.object [("result", .bool (Operation.evaluateTree received record).result)]) := by
  refine ⟨Rule.form_toJson, fun t v h => Rule.ofJson?_form h, fun t u v => Rule.eq_of_form,
    fun t u h => Rule.eq_of_form (Rule.form_toJson t) (h ▸ Rule.form_toJson u), ?_⟩
  -- The two calls read the same text, and the rule that has travelled is the rule that was made.
  intro made judged text record t hmade hjudged hread
  have htext := Rule.ne_empty_of_read hread
  have hrecord : (Call.evaluate ⟨text, .object record⟩).Valid := ⟨htext, record, rfl⟩
  have hcreate : (Call.create ⟨text⟩).result = .ok t.toJson :=
    Http.map_eq_ok_iff.2 ⟨t, hread, rfl⟩
  have hpasses : (Operation.evaluate text (Value.object record)).result
      = .ok (Operation.evaluateTree t record).result := by
    rw [Operation.evaluate_object]
    simp only [Operation.evaluate, hread]
    rfl
  have hevaluate : (Call.evaluate ⟨text, .object record⟩).result
      = .ok (.object [("result", .bool (Operation.evaluateTree t record).result)]) :=
    Http.map_eq_ok_iff.2 ⟨_, hpasses, rfl⟩
  refine ⟨t.toJson, t, ?_, Rule.ofJson?_form (Rule.form_toJson t) .root, ?_⟩
  · rw [Http.handle_of_makes hmade]
    exact (Call.answers_of_valid (k := .create ⟨text⟩) htext).1 _ hcreate
  · rw [Http.handle_of_makes hjudged]
    exact (Call.answers_of_valid hrecord).1 _ hevaluate

/-- A rule in mixed forms: an array inside an object, where the members are in another order, one
among them means nothing and the missing right side has been left out.  And a rule that two requests
bring as text. -/
theorem forms_round_trip_of_mixed_forms :
    let t : Rule := .joined .and (.condition ⟨"operator", .unequal, .text "OR"⟩)
      (.pending .or (.condition ⟨"a", .less, .integer (-1)⟩))
    let left : Value := .array [.string "operand", .string "operator", .string "!=", .string "OR"]
    let below : Value := .array [.string "operand", .string "a", .string "<", .ofInt64 (-1)]
    let right : Members :=
      [("left", below), ("type", .string "operator"), ("operator", .string "OR")]
    let root : Members :=
      [("right", .object right), ("value", .null), ("left", left), ("operator", .string "AND"),
       ("type", .string "operator")]
    let posted (path body : String) : Request :=
      { method := "POST"
        target := path
        headers := [("Content-Type", "application/json".toUTF8.toList)]
        body := body.toUTF8.toList }
    let made := posted "/create_rule" "\x7b\"rule\":\"a=1\"\x7d"
    let judged := posted "/evaluate_rule" "\x7b\"rule\":\"a=1\",\"data\":\x7b\"a\":1\x7d\x7d"
    t.Form (.object root) ∧ (∀ place, Rule.ofJson? place (.object root) = some t) ∧
      ∃ data received, (Http.handle made).response.Grants data ∧
        Rule.ofJson? .root data = some received ∧
        (Http.handle judged).response.Grants
          (.object [("result", .bool
            (Operation.evaluateTree received [("a", Value.ofInt64 1)]).result)]) := by
  intro t left below right root posted made judged
  have hright : Rule.Form (.pending .or (.condition ⟨"a", .less, .integer (-1)⟩)) (.object right) :=
    .leftOut (l := below) (.condition .array)
      (.object rfl (by simp [right, Connective.keyword, List.lookup])) rfl
  have hform : t.Form (.object root) :=
    .joined (l := left) (r := .object right) (.condition .array) hright
      (.object rfl (by simp [root, Connective.keyword, List.lookup]))
  have hmade : made.Makes (.create ⟨"a=1"⟩) :=
    ⟨rfl, by decide +kernel, by decide +kernel, by decide +kernel, by cbv⟩
  have hjudged : judged.Makes (.evaluate ⟨"a=1", .object [("a", .ofInt64 1)]⟩) :=
    ⟨rfl, by decide +kernel, by decide +kernel, by decide +kernel, by cbv⟩
  have hread : Rule.read "a=1" = .ok (.condition ⟨"a", .equal, .integer 1⟩) := by decide +kernel
  exact ⟨hform, forms_round_trip.2.1 t _ hform,
    forms_round_trip.2.2.2.2 made judged "a=1" [("a", .ofInt64 1)] _ hmade hjudged hread⟩

end Screening
