import Screening.Proofs.Decoding

/-!
# Which bodies a payload is read from

A body that holds a JSON value holds a payload if and only if the value is a container of the right
shape (`Payload.exists_ofBody_iff`): an object in which no field is written twice and every field
has a value of its kind, or an array with no more items than there are fields, each of the kind of
the field in its place.  What other members an object has does not matter.  What the payload then
holds is said in `Screening.Proofs.Decoding`.

Whether a field is written twice cannot be told from the value, in which a key stands once.  So an
object is looked at as it is written: `Members` are the members that the tokens have one behind the
other, and the value has the last one of each key (`members_of_run`).

The two readings, of the value and of the payload, go through the same members, and for each of them
it is settled by its value whether the decoder of its field takes it (`Decoder.Accepts`).  A decoder
that takes a value takes exactly its tokens, which is what lets the induction go on behind it.

* The first part turns a run of the machine that reads values into one of the relations `Items` and
  `Members`.  Both are proved by induction on the number of tokens, for behind an item the run is
  not the run of a smaller list but of a list that is further on.
* The second part says for every decoder which values it accepts.
* The third part goes through the members and the items by induction on how they are written.  Each
  of them either makes the reading fail for good or leaves the rest with the same demands as before
  (`member_remain`).

A body without a value is left out.  It need not be refused: the machine that skips a member minds
less than the one that keeps it, and so a number out of range, say, may stand in a member that
nobody asks for.
-/

set_option autoImplicit false

namespace Screening

namespace Json.Reader

variable {room : Nat} {ts rest : List Token} {v : Value}

/-! ## Containers as they are written

The machine puts the members of an object on a stack and makes the object when the brace closes, so
that a key which is written twice is gone from the value.  The relations here keep what is written.
In all of them the room is the one inside of the container. -/

/-- The tokens begin with a value, read with room for so many containers; these tokens are left. -/
def Holds (room : Nat) (ts : List Token) (v : Value) (rest : List Token) : Prop :=
  take (.keep room) ts = some (v, rest)

/-- The tokens begin with the items of a list as they are written and its closing bracket. -/
inductive Items (room : Nat) : List Token → List Value → List Token → Prop
  | last {ts rest : List Token} {v : Value} (h : Holds room ts v (.closeBracket :: rest)) :
      Items room ts [v] rest
  | more {ts after rest : List Token} {v : Value} {vs : List Value}
      (h : Holds room ts v (.comma :: after)) (hmore : Items room after vs rest) :
      Items room ts (v :: vs) rest

/-- The tokens begin with the members of an object as they are written and its closing brace. -/
inductive Members (room : Nat) : List Token → List (String × Value) → List Token → Prop
  | last {ts rest : List Token} {key : String} {v : Value}
      (h : Holds room ts v (.closeBrace :: rest)) :
      Members room (.string (some key) :: .colon :: ts) [(key, v)] rest
  | more {ts after rest : List Token} {key : String} {v : Value} {ms : List (String × Value)}
      (h : Holds room ts v (.comma :: after)) (hmore : Members room after ms rest) :
      Members room (.string (some key) :: .colon :: ts) ((key, v) :: ms) rest

/-- A container as it is written. -/
inductive Written where
  | members (ms : List (String × Value))
  | items (vs : List Value)

/-- The value that is written so; of members with one key it has the last. -/
def Written.value : Written → Value
  | members ms => .object (collect ms.reverse)
  | items vs => .array vs

/-- The tokens begin with a container that is written so. -/
inductive Writes (room : Nat) : List Token → Written → List Token → Prop
  | noMembers (rest : List Token) :
      Writes room (.openBrace :: .closeBrace :: rest) (.members []) rest
  | members {ts rest : List Token} {ms : List (String × Value)} (h : Members room ts ms rest) :
      Writes room (.openBrace :: ts) (.members ms) rest
  | noItems (rest : List Token) :
      Writes room (.openBracket :: .closeBracket :: rest) (.items []) rest
  | items {ts rest : List Token} {vs : List Value} (h : Items room ts vs rest) :
      Writes room (.openBracket :: ts) (.items vs) rest

/-- The token is a value by itself. -/
inductive Single : Token → Value → Prop
  | null : Single .null .null
  | bool (b : Bool) : Single (.bool b) (.bool b)
  | number (n : Number) : Single (.number (some n)) (.number n)
  | string (s : String) : Single (.string (some s)) (.string s)

theorem length_lt_of_run {mode : Mode} {frames : List Frame} {expect : Expect}
    (h : run mode frames expect ts = some (v, rest)) : rest.length < ts.length := by
  induction ts generalizing frames expect with
  | nil => cases h
  | cons t ts ih =>
    rw [run_cons] at h
    cases hstep : step mode frames expect t with
    | none =>
      rw [hstep] at h
      cases h
    | some s =>
      rw [hstep] at h
      cases s with
      | done w =>
        cases h
        exact Nat.lt_succ_self _
      | reading inner next => exact Nat.lt_succ_of_lt (ih h)

theorem Holds.length_lt (h : Holds room ts v rest) : rest.length < ts.length := length_lt_of_run h

/-- A value that is to come inside of a container stands at the head of the tokens, and is handed to
the container. -/
theorem holds_of_run {f : Frame} {result : Value × List Token}
    (h : run (.keep (room + 1)) [f] .value ts = some result) :
    ∃ v rest, Holds room ts v rest ∧
      resume (.keep (room + 1)) (deliver v [f]) rest = some result := by
  rw [run_value] at h
  obtain ⟨⟨v, rest⟩, hv, hrest⟩ := Option.bind_eq_some_iff.1 h
  exact ⟨v, rest, hv, hrest⟩

/-- The induction is on the number of tokens, since behind an item there are fewer of them. -/
theorem items_of_run {sofar : List Value}
    (h : run (.keep (room + 1)) [.array sofar] .value ts = some (v, rest)) :
    ∃ vs, Items room ts vs rest ∧ v = .array (sofar.reverse ++ vs) := by
  induction hlength : ts.length using Nat.strongRecOn generalizing ts sofar with
  | ind n ih =>
    obtain ⟨w, after, hw, hafter⟩ := holds_of_run h
    have hnext : run (.keep (room + 1)) [.array (w :: sofar)] .commaOrEnd after = some (v, rest) :=
      hafter
    -- A comma or the end must follow.  Behind a comma there are fewer tokens than at the beginning.
    cases after with
    | nil => cases hnext
    | cons t after =>
      rw [run_cons] at hnext
      cases t with
      | comma =>
        have hshorter := hw.length_lt
        rw [List.length_cons] at hshorter
        obtain ⟨vs, hvs, rfl⟩ := ih _ (by omega) hnext rfl
        exact ⟨w :: vs, .more hw hvs, by simp⟩
      | closeBracket =>
        cases hnext
        exact ⟨[w], .last hw, by simp⟩
      | _ => cases hnext

/-- A list is not at its end where an item begins. -/
theorem Items.ne_closeBracket {vs : List Value} (h : Items room ts vs rest) (more : List Token) :
    ts ≠ .closeBracket :: more := by
  rintro rfl
  cases h with
  | last h => cases h
  | more h => cases h

/-- A key that is to come is there, with its colon behind it. -/
theorem member_of_run {acc : List (String × Value)} {result : Value × List Token}
    (h : run (.keep (room + 1)) [.object acc] .key ts = some result) :
    ∃ key more, ts = .string (some key) :: .colon :: more ∧
      run (.keep (room + 1)) [.member acc key] .value more = some result := by
  cases ts with
  | nil => cases h
  | cons t ts =>
    cases t with
    | string key =>
      cases key with
      | none => cases h
      | some key =>
        rw [run_cons] at h
        have hcolon : run (.keep (room + 1)) [.member acc key] .colon ts = some result := h
        cases ts with
        | nil => cases hcolon
        | cons t more =>
          cases t with
          | colon =>
            rw [run_cons] at hcolon
            exact ⟨key, more, rfl, hcolon⟩
          | _ => cases hcolon
    | _ => cases h

/-- The members that follow go in front of those that the machine has, the newest first, and so the
value has the last of each key. -/
theorem members_of_run {acc : List (String × Value)}
    (h : run (.keep (room + 1)) [.object acc] .key ts = some (v, rest)) :
    ∃ ms, Members room ts ms rest ∧ v = .object (collect (ms.reverse ++ acc)) := by
  induction hlength : ts.length using Nat.strongRecOn generalizing ts acc with
  | ind n ih =>
    obtain ⟨key, more, rfl, hvalue⟩ := member_of_run h
    obtain ⟨w, after, hw, hafter⟩ := holds_of_run hvalue
    have hnext : run (.keep (room + 1)) [.object ((key, w) :: acc)] .commaOrEnd after
        = some (v, rest) := hafter
    -- As for items; the newest member stands first in the frame, and so in what is collected.
    cases after with
    | nil => cases hnext
    | cons t after =>
      rw [run_cons] at hnext
      cases t with
      | comma =>
        have hshorter := hw.length_lt
        simp only [List.length_cons] at hshorter hlength
        obtain ⟨ms, hms, rfl⟩ := ih _ (by omega) hnext rfl
        exact ⟨(key, w) :: ms, .more hw hms, by simp⟩
      | closeBrace =>
        cases hnext
        exact ⟨[(key, w)], .last hw, by simp⟩
      | _ => cases hnext

section Open

variable {result : Value × List Token}

theorem run_openBracket (h : run (.keep (room + 1)) [] .value (.openBracket :: ts) = some result) :
    run (.keep (room + 1)) [.array []] .itemOrEnd ts = some result := by
  rw [run_cons, step, start, Mode.admits, if_pos (by simp)] at h
  exact h

theorem run_openBrace (h : run (.keep (room + 1)) [] .value (.openBrace :: ts) = some result) :
    run (.keep (room + 1)) [.object []] .keyOrEnd ts = some result := by
  rw [run_cons, step, start, Mode.admits, if_pos (by simp)] at h
  exact h

end Open

/-- A list is written as its items, or has none. -/
theorem writes_of_openBracket (h : Holds (room + 1) (.openBracket :: ts) v rest) :
    ∃ vs, Writes room (.openBracket :: ts) (.items vs) rest ∧ v = .array vs := by
  have hrun := run_openBracket h
  by_cases hend : ∃ more, ts = .closeBracket :: more
  · obtain ⟨more, rfl⟩ := hend
    rw [run_cons] at hrun
    cases hrun
    exact ⟨[], .noItems rest, rfl⟩
  · rw [run_itemOrEnd fun more hmore => hend ⟨more, hmore⟩] at hrun
    obtain ⟨vs, hvs, rfl⟩ := items_of_run hrun
    exact ⟨vs, .items hvs, rfl⟩

/-- An object is written as its members, or has none. -/
theorem writes_of_openBrace (h : Holds (room + 1) (.openBrace :: ts) v rest) :
    ∃ ms, Writes room (.openBrace :: ts) (.members ms) rest ∧ v = .object (collect ms.reverse) := by
  have hrun := run_openBrace h
  by_cases hend : ∃ more, ts = .closeBrace :: more
  · obtain ⟨more, rfl⟩ := hend
    rw [run_cons] at hrun
    cases hrun
    exact ⟨[], .noMembers rest, rfl⟩
  · rw [run_keyOrEnd fun more hmore => hend ⟨more, hmore⟩] at hrun
    obtain ⟨ms, hms, rfl⟩ := members_of_run hrun
    exact ⟨ms, .members hms, by simp⟩

/-- **A value is a single token or a container**, and a container is written in one of two ways. -/
theorem single_or_writes (h : Holds (room + 1) ts v rest) :
    (∃ t, ts = t :: rest ∧ Single t v) ∨ ∃ w, Writes room ts w rest ∧ w.value = v := by
  cases ts with
  | nil => cases h
  | cons t ts =>
    cases t with
    -- Only the two tokens that open a container leave the machine inside of something.
    | openBracket =>
      obtain ⟨vs, hvs, rfl⟩ := writes_of_openBracket h
      exact .inr ⟨.items vs, hvs, rfl⟩
    | openBrace =>
      obtain ⟨ms, hms, rfl⟩ := writes_of_openBrace h
      exact .inr ⟨.members ms, hms, rfl⟩
    | null =>
      cases h
      exact .inl ⟨_, rfl, .null⟩
    | bool b =>
      cases h
      exact .inl ⟨_, rfl, .bool b⟩
    | number n =>
      cases n with
      | none => cases h
      | some n =>
        cases h
        exact .inl ⟨_, rfl, .number n⟩
    | string s =>
      cases s with
      | none => cases h
      | some s =>
        cases h
        exact .inl ⟨_, rfl, .string s⟩
    | _ => cases h

end Json.Reader

namespace Http

open Json (Value)
open Json.Reader

/-! ## Decoders

A decoder stands inside of the payload, which is itself a container.  So the values it is asked
about are read with room for one container less than a whole body. -/

section Decoders

variable {ts rest : List Json.Token} {v : Value}

/-- Something is read, up to these tokens, if the condition holds, and nothing if it does not. -/
inductive TakenIff {α : Type} (p : Prop) (r : Except Fault (α × List Json.Token))
    (rest : List Json.Token) : Prop
  | taken (hp : p) (a : α) (hr : r = .ok (a, rest))
  | refused (hp : ¬ p) (e : Fault) (hr : r = .error e)

theorem TakenIff.congr {α : Type} {p q : Prop} {r : Except Fault (α × List Json.Token)}
    (h : TakenIff p r rest) (hpq : p ↔ q) : TakenIff q r rest := by
  cases h with
  | taken hp a hr => exact .taken (hpq.1 hp) a hr
  | refused hp e hr => exact .refused (fun hq => hp (hpq.2 hq)) e hr

/-- Of the values inside of a payload a decoder takes those that fit, with all of their tokens. -/
def Decoder.Accepts {α : Type} (d : Decoder α) (fits : Value → Prop) : Prop :=
  ∀ ⦃ts v rest⦄, Holds (depth - 1) ts v rest → TakenIff (fits v) (d ts) rest

namespace Decoder

theorem Accepts.congr {α : Type} {d : Decoder α} {p q : Value → Prop} (h : d.Accepts p)
    (hpq : ∀ v, p v ↔ q v) : d.Accepts q := fun _ v _ hv => (h hv).congr (hpq v)

def IsText (v : Value) : Prop := ∃ s, v = .string s

def AreTexts (v : Value) : Prop := ∃ vs, v = .array vs ∧ ∀ w ∈ vs, IsText w

/-- Whether a value is a text shows in the first of its tokens. -/
theorem isText_or_not {room : Nat} (h : Holds (room + 1) ts v rest) :
    (∃ s, v = .string s ∧ ts = .string (some s) :: rest) ∨
      ¬ IsText v ∧ ∀ s more, ts ≠ .string s :: more := by
  obtain ⟨t, rfl, hsingle⟩ | ⟨w, hw, rfl⟩ := single_or_writes h
  · cases hsingle with
    | string s => exact .inl ⟨s, rfl, rfl⟩
    | _ =>
      right
      exact ⟨fun ⟨_, hs⟩ => (by cases hs), fun _ _ => nofun⟩
  · right
    cases hw <;> exact ⟨fun ⟨_, hs⟩ => (by cases hs), fun _ _ => nofun⟩

theorem text_accepts : text.Accepts IsText := by
  intro ts v rest h
  obtain ⟨s, rfl, rfl⟩ | ⟨hv, hts⟩ := isText_or_not h
  · exact .taken ⟨s, rfl⟩ s rfl
  · refine .refused hv (mismatch ts) ?_
    rw [text.eq_def]
    split
    · exact absurd rfl (hts _ _)
    · rfl

/-- Where a text was to come and there is none, the reading of a list ends. -/
theorem textsFrom_of_noText (hts : ∀ s more, ts ≠ .string s :: more) (acc : List String) :
    textsFrom acc ts = .error (mismatch ts) := by
  rw [textsFrom.eq_def]
  split
  · exact absurd rfl (hts _ _)
  · exact absurd rfl (hts _ _)
  · exact absurd rfl (hts _ _)
  · rfl

/-- The first item that is no text ends the reading, whatever is behind it. -/
theorem textsFrom_takenIff {room : Nat} {vs : List Value} (h : Items (room + 1) ts vs rest)
    (acc : List String) : TakenIff (∀ w ∈ vs, IsText w) (textsFrom acc ts) rest := by
  induction h generalizing acc with
  | last h =>
    obtain ⟨s, rfl, rfl⟩ | ⟨hv, hts⟩ := isText_or_not h
    · exact .taken (List.forall_mem_singleton.2 ⟨s, rfl⟩) _ rfl
    · exact .refused (fun hall => hv (hall _ List.mem_cons_self)) _ (textsFrom_of_noText hts acc)
  | more h hmore ih =>
    obtain ⟨s, rfl, rfl⟩ | ⟨hv, hts⟩ := isText_or_not h
    · refine (ih (s :: acc)).congr ?_
      rw [List.forall_mem_cons]
      exact ⟨fun hall => ⟨⟨s, rfl⟩, hall⟩, And.right⟩
    · exact .refused (fun hall => hv (hall _ List.mem_cons_self)) _ (textsFrom_of_noText hts acc)

/-- Of a list that is not empty the items are read one by one. -/
theorem texts_of_items {vs : List Value} {room : Nat} (h : Items room ts vs rest) :
    texts (.openBracket :: ts) = textsFrom [] ts := by
  rw [texts]
  exact h.ne_closeBracket

/-- Texts are read from arrays of strings, and from nothing else. -/
theorem texts_accepts : texts.Accepts AreTexts := by
  have noArray {v : Value} (hv : ∀ vs, v ≠ .array vs) : ¬ AreTexts v :=
    fun ⟨vs, hvs, _⟩ => hv vs hvs
  intro ts v rest h
  obtain ⟨t, rfl, hsingle⟩ | ⟨w, hw, rfl⟩ := single_or_writes h
  · cases hsingle <;> exact .refused (noArray fun _ => nofun) _ rfl
  · cases hw with
    | noMembers => exact .refused (noArray fun _ => nofun) _ rfl
    | members => exact .refused (noArray fun _ => nofun) _ rfl
    | noItems => exact .taken ⟨[], rfl, List.forall_mem_nil _⟩ [] rfl
    | items h =>
      rw [texts_of_items h]
      refine (textsFrom_takenIff h []).congr ⟨fun hall => ⟨_, rfl, hall⟩, ?_⟩
      rintro ⟨vs, hvs, hall⟩
      cases hvs
      exact hall

theorem value_accepts : value.Accepts fun _ => True := by
  intro ts v rest h
  have htake : take (.keep (depth - 1)) ts = some (v, rest) := h
  exact .taken trivial v (by rw [value, htake])

theorem skip_of_holds {room : Nat} (h : Holds room ts v rest) : skip ts = .ok ((), rest) := by
  obtain ⟨w, hskip⟩ := take_skip_of_keep h
  rw [skip, hskip]

end Decoder

theorem Field.read_of {σ α : Type} (name : String) (d : Decoder α) (set : σ → α → σ) (s : σ) :
    (Field.of name d set).read s ts = (d ts).map fun (a, rest) => (set s a, rest) := by
  change (d ts >>= fun (a, rest) => pure (set s a, rest)) = _
  cases d ts <;> rfl

/-- A field takes what its decoder takes. -/
theorem Field.of_accepts {σ α : Type} {name : String} {d : Decoder α} {set : σ → α → σ} {s : σ}
    {fits : Value → Prop} (hd : d.Accepts fits) : ((Field.of name d set).read s).Accepts fits := by
  intro ts v rest h
  cases hd h with
  | taken hfits a hr => exact .taken hfits (set s a) (by rw [read_of, hr]; rfl)
  | refused hfits e hr => exact .refused hfits e (by rw [read_of, hr]; rfl)

end Decoders

/-! ## Payloads

A field whose value does not fit is a fault wherever it stands, and a field that comes twice is one
the second time.  Both can be told from the container as it is written, without regard to the order.
-/

/-- The keys among some names that the members are written with, each as often as it is written. -/
def known (names : List String) (ms : List (String × Value)) : List String :=
  (ms.map Prod.fst).filter (· ∈ names)

/-- The container has the shape of a payload with fields of these names, and values that fit. -/
def Suits (names : List String) (fits : String → Value → Prop) : Written → Prop
  | .members ms => (known names ms).Nodup ∧ ∀ m ∈ ms, m.1 ∈ names → fits m.1 m.2
  | .items vs => vs.length ≤ names.length ∧ ∀ p ∈ names.zip vs, fits p.1 p.2

namespace Payload

variable {σ : Type} {fields : List (Field σ)} {fits : String → Value → Prop}
  {ts rest : List Json.Token} {v : Value} {seen seen' : List String} {s s' : σ} {key : String}

/-- Each of the fields takes the values that fit its name. -/
def Fits (fields : List (Field σ)) (fits : String → Value → Prop) : Prop :=
  ∀ f ∈ fields, ∀ s, (f.read s).Accepts (fits f.name)

/-! ### As an object -/

/-- A member that is not named for a field is skipped. -/
theorem member_of_other (hkey : key ∉ fields.map (·.name)) (h : Holds (depth - 1) ts v rest) :
    member fields seen s (.string (some key) :: .colon :: ts) = .ok ((seen, s), rest) := by
  have hfind : fields.find? (·.name = key) = none :=
    List.find?_eq_none.2 fun f hf hname => hkey (List.mem_map.2 ⟨f, hf, of_decide_eq_true hname⟩)
  simp only [member, Decoder.key, Decoder.colon, ok_bind, hfind, Decoder.skip_of_holds h]
  rfl

/-- A member of the name of a field is taken as often as once, and if its value fits. -/
theorem member_of_known (hfits : Fits fields fits) (seen : List String) (s : σ)
    (hkey : key ∈ fields.map (·.name)) (h : Holds (depth - 1) ts v rest) :
    (fits key v ∧ key ∉ seen ∧ ∃ s',
        member fields seen s (.string (some key) :: .colon :: ts) = .ok ((key :: seen, s'), rest)) ∨
      ¬ (fits key v ∧ key ∉ seen) ∧ ∃ e,
        member fields seen s (.string (some key) :: .colon :: ts) = .error e := by
  obtain ⟨f, hfind⟩ : ∃ f, fields.find? (·.name = key) = some f := by
    obtain ⟨f, hf, hname⟩ := List.mem_map.1 hkey
    exact Option.isSome_iff_exists.1 (List.find?_isSome.2 ⟨f, hf, decide_eq_true hname⟩)
  have hname : f.name = key := by simpa using List.find?_some hfind
  simp only [member, Decoder.key, Decoder.colon, ok_bind, hfind]
  by_cases hseen : key ∈ seen
  · right
    exact ⟨fun hboth => hboth.2 hseen, .misshapen, by rw [if_pos hseen]; rfl⟩
  · rw [if_neg hseen]
    cases hfits f (List.mem_of_find?_eq_some hfind) s h with
    | taken hv a hr =>
      left
      exact ⟨hname ▸ hv, hseen, a, by rw [hr]; rfl⟩
    | refused hv e hr =>
      right
      exact ⟨fun hboth => hv (hname ▸ hboth.1), e, by rw [hr]; rfl⟩

theorem members_of_error {e : Fault} (h : member fields seen s ts = .error e) :
    members fields seen s ts = .error e := by
  rw [members, h]

theorem members_of_comma (h : member fields seen s ts = .ok ((seen', s'), .comma :: rest))
    (hlt : rest.length < ts.length) :
    members fields seen s ts = members fields seen' s' rest := by
  rw [members, h]
  exact if_pos hlt

theorem members_of_closeBrace
    (h : member fields seen s ts = .ok ((seen', s'), .closeBrace :: rest)) :
    members fields seen s ts = .ok (s', rest) := by
  rw [members, h]

/-- What the members still have to be like when fields have come already. -/
def Remain (names : List String) (fits : String → Value → Prop) (seen : List String)
    (ms : List (String × Value)) : Prop :=
  (known names ms ++ seen).Nodup ∧ ∀ m ∈ ms, m.1 ∈ names → fits m.1 m.2

section Remain

variable {names : List String} {ms : List (String × Value)}

theorem remain_nil (h : seen.Nodup) : Remain names fits seen [] :=
  ⟨h, List.forall_mem_nil _⟩

/-- A member that is not named for a field asks nothing of the rest. -/
theorem remain_cons_of_other (hkey : key ∉ names) :
    Remain names fits seen ((key, v) :: ms) ↔ Remain names fits seen ms := by
  have hknown : known names ((key, v) :: ms) = known names ms :=
    List.filter_cons_of_neg (by simpa using hkey)
  rw [Remain, hknown, List.forall_mem_cons]
  exact and_congr_right fun _ => and_iff_right fun hmem => absurd hmem hkey

/-- A field that comes has to fit, and may not come again. -/
theorem remain_cons_of_known (hkey : key ∈ names) :
    Remain names fits seen ((key, v) :: ms)
      ↔ fits key v ∧ Remain names fits (key :: seen) ms := by
  have hknown : known names ((key, v) :: ms) = key :: known names ms :=
    List.filter_cons_of_pos (by simpa using hkey)
  rw [Remain, Remain, hknown, List.forall_mem_cons, List.cons_append, List.perm_middle.nodup_iff,
    forall_prop_of_true hkey]
  exact and_left_comm

theorem Remain.notMem (h : Remain names fits (key :: seen) ms) : key ∉ seen :=
  (List.nodup_cons.1 (List.nodup_append.1 h.1).2.1).1

end Remain

/-- One member more: either it is taken, and what the rest has to be like is the same as before, or
it is refused, and no rest makes up for it. -/
theorem member_remain (hfits : Fits fields fits) (h : Holds (depth - 1) ts v rest)
    (hseen : seen.Nodup) :
    (∃ seen' s', seen'.Nodup ∧
        member fields seen s (.string (some key) :: .colon :: ts) = .ok ((seen', s'), rest) ∧
        ∀ ms, Remain (fields.map (·.name)) fits seen ((key, v) :: ms)
          ↔ Remain (fields.map (·.name)) fits seen' ms) ∨
      (∃ e, member fields seen s (.string (some key) :: .colon :: ts) = .error e) ∧
        ∀ ms, ¬ Remain (fields.map (·.name)) fits seen ((key, v) :: ms) := by
  by_cases hkey : key ∈ fields.map (·.name)
  · obtain ⟨hv, hnew, s', hr⟩ | ⟨hno, hr⟩ := member_of_known hfits seen s hkey h
    · left
      refine ⟨key :: seen, s', List.nodup_cons.2 ⟨hnew, hseen⟩, hr, fun ms => ?_⟩
      rw [remain_cons_of_known hkey]
      exact and_iff_right hv
    · right
      refine ⟨hr, fun ms hremain => ?_⟩
      obtain ⟨hv, hrest⟩ := (remain_cons_of_known hkey).1 hremain
      exact hno ⟨hv, hrest.notMem⟩
  · left
    exact ⟨seen, s, hseen, member_of_other hkey h, fun ms => remain_cons_of_other hkey⟩

/-- The induction is on the members as they are written; the fields that have come grow with it. -/
theorem members_takenIff (hfits : Fits fields fits) {ms : List (String × Value)}
    (h : Members (depth - 1) ts ms rest) (hseen : seen.Nodup) :
    TakenIff (Remain (fields.map (·.name)) fits seen ms) (members fields seen s ts) rest := by
  induction h generalizing seen s with
  | last h =>
    obtain ⟨seen', s', hseen', hr, hremain⟩ | ⟨⟨e, hr⟩, hremain⟩ := member_remain hfits h hseen
    · exact .taken ((hremain []).2 (remain_nil hseen')) s' (members_of_closeBrace hr)
    · exact .refused (hremain []) e (members_of_error hr)
  | @more ts after rest key v ms h hmore ih =>
    obtain ⟨seen', s', hseen', hr, hremain⟩ | ⟨⟨e, hr⟩, hremain⟩ := member_remain hfits h hseen
    · have hlt : after.length < (Json.Token.string (some key) :: .colon :: ts).length := by
        have hshorter := h.length_lt
        simp only [List.length_cons] at hshorter ⊢
        omega
      rw [members_of_comma hr hlt]
      exact (ih hseen').congr (hremain ms).symm
    · exact .refused (hremain ms) e (members_of_error hr)

/-! ### As an array -/

theorem elements_of_comma (f : Field σ) (fs : List (Field σ)) :
    elements s (f :: fs) (.comma :: ts)
      = f.read s ts >>= fun (s, rest) => elements s fs rest := rfl

theorem elements_of_closeBracket (fs : List (Field σ)) :
    elements s fs (.closeBracket :: rest) = .ok (s, rest) := by
  cases fs <;> rfl

/-- Items are read as long as there are fields for them, so there is one condition on their number
and one on each of them.  The induction is on the items, and the fields that are left shrink with
it. -/
theorem elements_takenIff {todo : List (Field σ)} (hfits : Fits todo fits) {vs : List Value}
    (h : Items (depth - 1) ts vs rest) :
    TakenIff (vs.length ≤ todo.length ∧ ∀ p ∈ (todo.map (·.name)).zip vs, fits p.1 p.2)
      (elements s todo (.comma :: ts)) rest := by
  induction h generalizing todo s with
  | @last ts rest v h =>
    cases todo with
    -- An item for which there is no field is refused without being looked at.
    | nil => exact .refused (fun hlength => absurd hlength.1 (by simp)) .unreadable rfl
    | cons f fs =>
      rw [elements_of_comma]
      cases hfits f List.mem_cons_self s h with
      | taken hv s' hr =>
        refine .taken ⟨by simp, by simpa using hv⟩ s' ?_
        exact (congrArg (· >>= _) hr).trans (elements_of_closeBracket fs)
      | refused hv e hr =>
        exact .refused (fun hall => hv (by simpa using hall.2)) e (by rw [hr]; rfl)
  | @more ts after rest v vs h hmore ih =>
    cases todo with
    | nil => exact .refused (fun hlength => absurd hlength.1 (by simp)) .unreadable rfl
    | cons f fs =>
      -- The condition on all items is one on the first and one on the others with the other fields.
      have hcons : ((v :: vs).length ≤ (f :: fs).length ∧
            ∀ p ∈ ((f :: fs).map (·.name)).zip (v :: vs), fits p.1 p.2)
          ↔ fits f.name v ∧ vs.length ≤ fs.length ∧
            ∀ p ∈ (fs.map (·.name)).zip vs, fits p.1 p.2 := by
        rw [List.length_cons, List.length_cons, Nat.succ_le_succ_iff, List.map_cons,
          List.zip_cons_cons, List.forall_mem_cons]
        exact and_left_comm
      rw [elements_of_comma]
      cases hfits f List.mem_cons_self s h with
      | taken hv s' hr =>
        rw [hr, ok_bind]
        refine (ih fun g hg => hfits g (List.mem_cons_of_mem f hg)).congr ?_
        rw [hcons]
        exact (and_iff_right hv).symm
      | refused hv e hr => exact .refused (fun hall => hv (hcons.1 hall).1) e (by rw [hr]; rfl)

/-! ### As a body -/

/-- A payload is taken from a container that suits it, with all of its tokens. -/
theorem payload_takenIff (hfits : Fits fields fits) {w : Written}
    (h : Writes (depth - 1) ts w rest) :
    TakenIff (Suits (fields.map (·.name)) fits w) (payload fields s ts) rest := by
  cases h with
  -- Without members no field comes, and all of them keep what they have at first.
  | noMembers => exact .taken ⟨List.nodup_nil, List.forall_mem_nil _⟩ s rfl
  | @members ts _ ms h =>
    have hpayload : payload fields s (.openBrace :: ts) = members fields [] s ts := by
      cases h <;> rfl
    rw [hpayload]
    refine (members_takenIff hfits h List.nodup_nil).congr ?_
    rw [Remain, List.append_nil]
    rfl
  | noItems => exact .taken ⟨Nat.zero_le _, by simp⟩ s rfl
  | @items ts _ vs h =>
    have hpayload : payload fields s (.openBracket :: ts) = elements s fields (.comma :: ts) := by
      rw [payload]
      exact h.ne_closeBracket
    rw [hpayload]
    refine (elements_takenIff hfits h).congr ?_
    rw [Suits, List.length_map]

/-- **A body with a value holds a payload if and only if the value is written as a container that
suits the fields**: no field twice, not too many items, and nothing in them that does not fit. -/
theorem exists_ofBody_iff (hfits : Fits fields fits) {body : List UInt8}
    (hv : Value.ofBytes? body = some v) :
    (∃ q, ofBody fields s body = .ok q)
      ↔ ∃ w, Writes (depth - 1) (Json.Token.read body) w [] ∧ w.value = v ∧
          Suits (fields.map (·.name)) fits w := by
  have hholds : Holds (depth - 1 + 1) (Json.Token.read body) v [] := by
    rw [Value.ofBytes?] at hv
    split at hv <;> cases hv
    assumption
  constructor
  · rintro ⟨q, hq⟩
    rw [ofBody] at hq
    obtain ⟨t, hread, hsingle⟩ | ⟨w, hw, hvalue⟩ := single_or_writes hholds
    -- A body that is a single token begins with no bracket, which is all that a payload looks for.
    · rw [hread] at hq
      cases hsingle <;> cases hq
    · cases payload_takenIff (s := s) hfits hw with
      | taken hsuits => exact ⟨w, hw, hvalue, hsuits⟩
      | refused _ e hr =>
        rw [hr] at hq
        cases hq
  · rintro ⟨w, hw, -, hsuits⟩
    cases payload_takenIff (s := s) hfits hw with
    | taken _ q hr => exact ⟨q, by rw [ofBody, hr]⟩
    | refused hno => exact absurd hsuits hno

/-- A payload of one field suits a container if its value fits wherever it stands. -/
theorem exists_ofBody_iff_of_single {α : Type} {name : String} {d : Decoder α} {set : σ → α → σ}
    {fits : Value → Prop} (hd : d.Accepts fits) {body : List UInt8}
    (hv : Value.ofBytes? body = some v) :
    (∃ q, ofBody [Field.of name d set] s body = .ok q)
      ↔ ∃ w, Writes (depth - 1) (Json.Token.read body) w [] ∧ w.value = v ∧
          Suits [name] (fun _ => fits) w := by
  refine exists_ofBody_iff (fun f hf s => ?_) hv
  obtain rfl := List.mem_singleton.1 hf
  exact Field.of_accepts hd

end Payload

/-! ## The three payloads -/

section Payloads

variable {body : List UInt8} {v : Value} (hv : Value.ofBytes? body = some v)

include hv

/-- A rule, if there is one, is a text. -/
theorem CreateRequest.exists_ofBody_iff :
    (∃ q, ofBody body = .ok q)
      ↔ ∃ w, Writes (depth - 1) (Json.Token.read body) w [] ∧ w.value = v ∧
          Suits ["rule"] (fun _ => Decoder.IsText) w :=
  Payload.exists_ofBody_iff_of_single Decoder.text_accepts hv

/-- Rules, if there are any, are a list of texts. -/
theorem CombineRequest.exists_ofBody_iff :
    (∃ q, ofBody body = .ok q)
      ↔ ∃ w, Writes (depth - 1) (Json.Token.read body) w [] ∧ w.value = v ∧
          Suits ["rules"] (fun _ => Decoder.AreTexts) w :=
  Payload.exists_ofBody_iff_of_single Decoder.texts_accepts hv

/-- A rule, if there is one, is a text, and the data may be anything. -/
theorem EvaluateRequest.exists_ofBody_iff :
    (∃ q, ofBody body = .ok q)
      ↔ ∃ w, Writes (depth - 1) (Json.Token.read body) w [] ∧ w.value = v ∧
          Suits ["rule", "data"] (fun name v => name = "rule" → Decoder.IsText v) w := by
  refine Payload.exists_ofBody_iff (fun f hf s => ?_) hv
  rw [List.mem_cons, List.mem_singleton] at hf
  obtain rfl | rfl := hf
  · exact Field.of_accepts (Decoder.text_accepts.congr fun v => by simp [Field.of])
  · exact Field.of_accepts (Decoder.value_accepts.congr fun v => by simp [Field.of])

end Payloads

end Http

end Screening
