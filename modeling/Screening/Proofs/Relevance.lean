import Screening.Rule.Judge

/-!
# What a rule sees of a record

A rule asks a record for the fields it names and for nothing else, so two records that agree on
those fields have the same verdict, even if they are of different kinds (`verdict_congr`).

The kinds of records answer alike.  `Record.Shows` says that a name is answered with the member of
that very name: a dot in it leads nowhere.  Members and the hash map of them, the object and the
context round it show the same members, and a value that is no object shows none.

From this follows what changes of a record do.  A member that the rule does not name can be put in,
taken out or replaced in any kind of record without a change of the verdict (`verdict_put`,
`verdict_insert` and the lemmas beside them), and it does not matter in what kind of record the
members are handed over (`verdict_of_named_fields`).
-/

set_option autoImplicit false

namespace Screening

open Json (Value Members)

/-! ## Answers of a record

A record is asked for a name and answers with a value or with nothing.  That is all that judging a
rule ever does with it. -/

namespace Record

/-- A name is answered with the member of that name, and with nothing if there is none. -/
def Shows {ρ : Type} [Record ρ] (r : ρ) (members : Members) : Prop :=
  ∀ field value, get? r field = some value ↔ (field, value) ∈ members

theorem shows_members {members : Members} (h : (members.map Prod.fst).Nodup) :
    Shows members members := fun _ _ => Json.lookup_eq_some_iff_mem h

theorem get?_map (map : Std.HashMap String Value) (field : String) : get? map field = map[field]? :=
  Std.HashMap.get?_eq_getElem?

theorem shows_map (map : Std.HashMap String Value) : Shows map map.toList := by
  intro field value
  rw [get?_map, Std.HashMap.mem_toList_iff_getElem?_eq_some]

/-- A map that was made of members shows them. -/
theorem shows_ofList {members : Members} (h : (members.map Prod.fst).Nodup) :
    Shows (Std.HashMap.ofList members) members := by
  have hpairs : members.Pairwise fun m n => (m.1 == n.1) = false := by
    refine (List.pairwise_map.1 h).imp fun hne => ?_
    exact beq_eq_false_iff_ne.2 hne
  intro field value
  rw [get?_map]
  constructor
  · intro hvalue
    by_cases hmem : field ∈ members.map Prod.fst
    · obtain ⟨⟨name, found⟩, hfound, rfl⟩ := List.mem_map.1 hmem
      rw [Std.HashMap.getElem?_ofList_of_mem (BEq.refl name) hpairs hfound] at hvalue
      cases hvalue
      exact hfound
    · rw [Std.HashMap.getElem?_ofList_of_contains_eq_false (by simpa using hmem)] at hvalue
      cases hvalue
  · exact Std.HashMap.getElem?_ofList_of_mem (BEq.refl field) hpairs

/-- A value that is no object shows nothing. -/
theorem shows_nil {v : Value} (h : ∀ members, v ≠ .object members) : Shows v [] := by
  intro field value
  cases v with
  | object members => exact absurd rfl (h members)
  | null => simp [get?]
  | bool b => simp [get?]
  | number n => simp [get?]
  | string s => simp [get?]
  | array items => simp [get?]

end Record

namespace Rule

variable {ρ σ : Type} [Record ρ] [Record σ]

/-- The verdict comes from the values of the fields that the conditions name. -/
theorem verdict_congr {r : ρ} {s : σ} {t : Rule}
    (h : ∀ f ∈ t.fields, Record.get? r f = Record.get? s f) : t.verdict r = t.verdict s := by
  have hconditions : ∀ c ∈ t.conditions, Record.get? r c.field = Record.get? s c.field :=
    fun c hc => h c.field (mem_fields.2 ⟨c, hc, rfl⟩)
  clear h
  induction t with
  | condition c => rw [verdict, verdict, hconditions c List.mem_cons_self]
  | joined op left right ihl ihr =>
    obtain ⟨hl, hr⟩ := List.forall_mem_append.1 hconditions
    rw [verdict, verdict, ihl hl, ihr hr]
  | pending op left ih => rw [verdict, verdict, ih hconditions]

/-- A field that the rule does not name may change. -/
theorem verdict_congr_of_ne {r : ρ} {s : σ} {t : Rule} {key : String} (hkey : key ∉ t.fields)
    (h : ∀ f, f ≠ key → Record.get? r f = Record.get? s f) : t.verdict r = t.verdict s :=
  verdict_congr fun f hf => h f (ne_of_mem_of_not_mem hf hkey)

section

variable {t : Rule} {key : String} (hkey : key ∉ t.fields)
include hkey

/-- Members that are not named may be put in. -/
theorem verdict_put (value : Value) (members : Members) :
    t.verdict (members.put key value) = t.verdict members :=
  verdict_congr_of_ne hkey fun f hf => (Json.lookup_put key value members f).trans (if_neg hf)

theorem verdict_remove (members : Members) : t.verdict (members.remove key) = t.verdict members :=
  verdict_congr_of_ne hkey fun f hf => (Json.lookup_remove key members f).trans (if_neg hf)

theorem verdict_insert (value : Value) (map : Std.HashMap String Value) :
    t.verdict (map.insert key value) = t.verdict map := by
  refine verdict_congr_of_ne hkey fun f hf => ?_
  rw [Record.get?_map, Record.get?_map, Std.HashMap.getElem?_insert, if_neg]
  simpa using hf.symm

theorem verdict_erase (map : Std.HashMap String Value) :
    t.verdict (map.erase key) = t.verdict map := by
  refine verdict_congr_of_ne hkey fun f hf => ?_
  rw [Record.get?_map, Record.get?_map, Std.HashMap.getElem?_erase, if_neg]
  simpa using hf.symm

end

theorem verdict_object {t : Rule} {members : Members} :
    t.verdict (Value.object members) = t.verdict members :=
  verdict_congr fun _ _ => rfl

/-- **A rule sees the fields it names and no others.**  Two records of any kinds that agree on those
fields have the same verdict, and both pass or neither does.  So a field that the rule does not name
may be written or removed.  Each kind of record answers a name with the member of just that name,
and a value that is no object answers with nothing. -/
theorem verdict_of_named_fields (t : Rule) :
    (∀ {ρ σ : Type} [Record ρ] [Record σ] (r : ρ) (s : σ),
      (∀ f ∈ t.fields, Record.get? r f = Record.get? s f) →
        t.verdict r = t.verdict s ∧ t.passes r = t.passes s) ∧
    (∀ key, key ∉ t.fields → ∀ value,
      (∀ members : Members, t.verdict (members.put key value) = t.verdict members ∧
        t.verdict (members.remove key) = t.verdict members ∧
        t.verdict (Value.object (members.put key value)) = t.verdict (Value.object members) ∧
        t.verdict (Value.object (members.remove key)) = t.verdict (Value.object members)) ∧
      ∀ map : Std.HashMap String Value, t.verdict (map.insert key value) = t.verdict map ∧
        t.verdict (map.erase key) = t.verdict map) ∧
    (∀ members : Members, (members.map Prod.fst).Nodup →
      Record.Shows members members ∧ Record.Shows (Value.object members) members ∧
        Record.Shows (Std.HashMap.ofList members) members) ∧
    (∀ map : Std.HashMap String Value, Record.Shows map map.toList) ∧
    (∀ v : Value, (∀ members, v ≠ .object members) → Record.Shows v []) ∧
    ∀ (v : Value) (members : Members),
      Record.Shows v members → Record.Shows (Context.mk v) members := by
  refine ⟨fun r s h => ?_, fun key hkey value => ?_, fun members h => ?_, Record.shows_map,
    ?_, ?_⟩
  · have hverdict := verdict_congr h
    exact ⟨hverdict, congrArg Verdict.passes hverdict⟩
  · refine ⟨fun members => ?_, fun map => ⟨verdict_insert hkey value map, verdict_erase hkey map⟩⟩
    simp only [verdict_object, verdict_put hkey value members, verdict_remove hkey members,
      and_self]
  · exact ⟨Record.shows_members h, Record.shows_members h, Record.shows_ofList h⟩
  · exact fun v hv => Record.shows_nil hv
  · exact fun v members h => h

/-- A name with a dot leads to no member of a member; what else two records of different kinds hold
makes no difference. -/
theorem verdict_of_named_fields_of_dots :
    let user : Value := .object [("name", .string "x")]
    let t : Rule := .joined .and (.condition ⟨"user.name", .equal, .text "y"⟩)
      (.pending .or (.condition ⟨"user", .unequal, .integer 1⟩))
    let r : Value := .object [("zip", .null), ("user", user)]
    let s : Std.HashMap String Value := .ofList [("user", user), ("name", .string "y")]
    (∀ f ∈ t.fields, Record.get? r f = Record.get? s f) ∧ t.verdict s = .yes := by
  intro user t r s
  have hshows : Record.Shows s [("user", user), ("name", .string "y")] :=
    Record.shows_ofList (by decide)
  have hagree : ∀ f ∈ t.fields, Record.get? r f = Record.get? s f := by
    have hfields : t.fields = ["user", "user.name"] := by decide +kernel
    rw [hfields]
    intro f hf
    refine Option.ext fun value => ?_
    rw [hshows f value]
    rcases List.mem_cons.1 hf with rfl | hf
    · show some user = some value ↔ _
      simp [eq_comm]
    · cases List.mem_singleton.1 hf
      show none = some value ↔ _
      simp
  refine ⟨hagree, ?_⟩
  rw [← ((verdict_of_named_fields t).1 r s hagree).1]
  rfl

end Rule

end Screening
