import Mathlib.Logic.Function.Basic
import Screening.Http.Payload
import Screening.Proofs.Assembly
import Screening.Proofs.Nesting

/-!
# What the payload of a body holds

A payload is read from the tokens of a body as they come, and `Json.Value.ofBytes?` reads a whole
value from the same tokens.  Where both succeed they agree: each field of the payload is the member
of its name in the object, or the item in its place in the array, and has its default if there is
none (`Payload.agrees_of_ofBody`).  Which bodies a payload is read from is another question, and is
answered in `Screening.Proofs.Bodies`.

The two readings are very different.  A payload is read by functions that call each other, a value
by a machine that goes from token to token and has the containers it is in on a stack.  They are
brought together like this:

* a decoder is `Decoder.Reads` of what it accepts if the machine, inside of a container, takes the
  same tokens for a value that agrees with it;
* `Payload.Told` is what holds between two members, of the fields that have come and of the members
  that the machine has put on its stack;
* `Payload.Describes` says that a field which is read makes the payload agree with one value more,
  and that a member which is skipped changes nothing.

So the three payloads only have to say how their fields are read, and what agreement means for them.

A key may stand in an object twice.  For a field that is a fault, and no payload is read; a member
that is skipped may come as often as it likes.  The value has its last occurrence, and since it is
not the name of a field nobody asks for it.
-/

set_option autoImplicit false

namespace Screening

namespace Http

open Json (Value)
open Json.Reader

/-! ## Decoders

What `Decoder.Reads` says is about a value inside of a container, since decoders are used nowhere
else.  There the machine is never done with the value: it hands it to the container and goes on. -/

namespace Decoder

/-- Inside of a container a reading of values takes what the decoder accepts for a value that the
decoder agrees with, and has the same tokens left. -/
def Reads {α : Type} (d : Decoder α) (agrees : α → Value → Prop) : Prop :=
  ∀ ⦃frame ts a rest result⦄, d ts = .ok (a, rest) →
    run (.keep depth) [frame] .value ts = some result →
      ∃ v, agrees a v ∧ resume (.keep depth) (deliver v [frame]) rest = some result

theorem text_reads : text.Reads fun s v => v = .string s := by
  intro frame ts a rest result h hrun
  rw [text.eq_def] at h
  split at h <;> cases h
  rw [run_cons] at hrun
  exact ⟨_, rfl, hrun⟩

/-- A string is a value by itself, whatever is around it. -/
theorem run_string {mode : Mode} {frames : List Frame} (s : String) (ts : List Json.Token) :
    run mode frames .value (.string (some s) :: ts)
      = resume mode (deliver (.string s) frames) ts := by
  rw [run_cons]
  cases mode <;> rfl

/-- The items of a list of texts go on the stack of the machine as the decoder collects them.  The
induction is the one of the decoder, which takes two tokens at a time. -/
theorem run_textsFrom {mode : Mode} {outer : List Frame} {acc texts : List String}
    {ts rest : List Json.Token} (h : textsFrom acc ts = .ok (texts, rest)) :
    run mode (.array (acc.map .string) :: outer) .value ts
      = resume mode (deliver (.array (texts.map .string)) outer) rest := by
  fun_induction textsFrom acc ts with
  | case1 acc s rest' ih =>
    rw [run_string]
    exact ih h
  | case2 acc s rest' =>
    cases h
    rw [run_string, List.map_reverse]
    exact run_cons _ _
  | case3 => cases h
  | case4 => cases h

/-- A list of texts is read as the array of their strings. -/
theorem texts_reads : texts.Reads fun l v => v = .array (l.map .string) := by
  intro frame ts a rest result h hrun
  have hopen (ts : List Json.Token) : run (.keep depth) [frame] .value (.openBracket :: ts)
      = run (.keep depth) [.array [], frame] .itemOrEnd ts := run_cons _ _
  refine ⟨_, rfl, ?_⟩
  rw [texts.eq_def] at h
  split at h
  · cases h
    rw [hopen, run_cons] at hrun
    exact hrun
  · rename_i items hitems
    rw [hopen, run_itemOrEnd fun more hmore => hitems more (by rw [hmore])] at hrun
    rw [← run_textsFrom h]
    exact hrun
  · cases h

theorem value_reads : value.Reads fun a v => v = a := by
  intro frame ts a rest result h hrun
  rw [value] at h
  split at h <;> cases h
  rename_i htake
  rw [run_value] at hrun
  obtain ⟨⟨v, more⟩, hv, hrest⟩ := Option.bind_eq_some_iff.1 hrun
  obtain ⟨rfl, rfl⟩ := Prod.mk.inj (Option.some.inj (htake.symm.trans hv))
  exact ⟨_, rfl, hrest⟩

/-- What is skipped would be read as some value, if it can be read at all. -/
theorem skip_reads : skip.Reads fun _ _ => True := by
  intro frame ts a rest result h hrun
  rw [skip] at h
  split at h <;> cases h
  rename_i htake
  rw [run_value] at hrun
  obtain ⟨⟨v, more⟩, hv, hrest⟩ := Option.bind_eq_some_iff.1 hrun
  obtain ⟨w, hskip⟩ := take_skip_of_keep hv
  obtain ⟨-, rfl⟩ := Prod.mk.inj (Option.some.inj (htake.symm.trans hskip))
  exact ⟨v, trivial, hrest⟩

end Decoder

/-- A field agrees with a value as soon as its decoder does and the setter puts it in its place. -/
theorem Field.of_reads {σ α : Type} {name : String} {d : Decoder α} {set : σ → α → σ}
    {P : α → Value → Prop} {Q : σ → Value → Prop} {s : σ} (hd : d.Reads P)
    (h : ∀ a v, P a v → Q (set s a) v) : ((Field.of name d set).read s).Reads Q := by
  intro frame ts a rest result hread hrun
  obtain ⟨⟨b, more⟩, hb, hset⟩ := bind_eq_ok_iff.1 hread
  cases hset
  obtain ⟨v, hv, hrest⟩ := hd hb hrun
  exact ⟨v, h b v hv, hrest⟩

/-! ## Payloads -/

namespace Payload

variable {σ : Type}

/-- Reading a field makes the payload agree with one value more, and skipping another leaves it in
agreement. -/
structure Describes (fields : List (Field σ)) (agrees : σ → (String → Option Value) → Prop) :
    Prop where
  read : ∀ f ∈ fields, ∀ s held, agrees s held → held f.name = none →
    (f.read s).Reads fun s' v => agrees s' (Function.update held f.name (some v))
  skip : ∀ key, (∀ f ∈ fields, f.name ≠ key) → ∀ s held v, agrees s held →
    agrees s (Function.update held key (some v))

/-- What a value has for a field: the member of its name, or the item in its place. -/
def field? (names : List String) (name : String) : Value → Option Value
  | .object members => members.lookup name
  | .array items => (names.zip items).lookup name
  | _ => none

variable {fields : List (Field σ)} {agrees : σ → (String → Option Value) → Prop}

/-- A member is a field that has not come before, or is skipped. -/
theorem member_eq_ok {seen seen' : List String} {s s' : σ} {ts rest : List Json.Token}
    (h : member fields seen s ts = .ok ((seen', s'), rest)) :
    ∃ key more, ts = .string (some key) :: .colon :: more ∧
      ((∃ f ∈ fields, f.name = key ∧ key ∉ seen ∧ seen' = key :: seen ∧
          f.read s more = .ok (s', rest)) ∨
        (∀ f ∈ fields, f.name ≠ key) ∧ seen' = seen ∧ s' = s ∧
          Decoder.skip more = .ok ((), rest)) := by
  have hcolon {ts more : List Json.Token} (h : Decoder.colon ts = .ok ((), more)) :
      ts = .colon :: more := by
    rw [Decoder.colon.eq_def] at h
    split at h <;> cases h
    rfl
  obtain ⟨⟨key, afterKey⟩, hkey, h⟩ := bind_eq_ok_iff.1 h
  have hts : ts = .string (some key) :: afterKey := by
    rw [Decoder.key.eq_def] at hkey
    split at hkey <;> cases hkey
    rfl
  -- The name is looked up before the colon is read, so the colon is asked for in both cases.
  cases hfind : fields.find? (·.name = key) with
  | some f =>
    have hname : f.name = key := by simpa using List.find?_some hfind
    simp only [hfind] at h
    split at h
    · cases h
    · rename_i hnew
      obtain ⟨⟨_, more⟩, hafter, h⟩ := bind_eq_ok_iff.1 h
      obtain ⟨⟨t, left⟩, hread, h⟩ := bind_eq_ok_iff.1 h
      cases h
      rw [hcolon hafter] at hts
      exact ⟨key, more, hts,
        .inl ⟨f, List.mem_of_find?_eq_some hfind, hname, hnew, rfl, hread⟩⟩
  | none =>
    simp only [hfind] at h
    obtain ⟨⟨_, more⟩, hafter, h⟩ := bind_eq_ok_iff.1 h
    obtain ⟨⟨_, left⟩, hskip, h⟩ := bind_eq_ok_iff.1 h
    cases h
    rw [hcolon hafter] at hts
    exact ⟨key, more, hts, .inr ⟨by simpa using hfind, rfl, rfl, hskip⟩⟩

/-- The payload is right about the members so far, and the fields that are not among the names seen
have not come. -/
structure Told (fields : List (Field σ)) (agrees : σ → (String → Option Value) → Prop)
    (seen : List String) (s : σ) (acc : List (String × Value)) : Prop where
  agrees : agrees s ((collect acc).lookup ·)
  unseen : ∀ f ∈ fields, f.name ∉ seen → (collect acc).lookup f.name = none

theorem lookup_collect_cons (key : String) (v : Value) (acc : List (String × Value)) :
    ((collect ((key, v) :: acc)).lookup ·)
      = Function.update ((collect acc).lookup ·) key (some v) := by
  funext k
  rw [Function.update_apply]
  exact Json.lookup_put key v _ k

/-- One member more.  What has not come afterwards had not come before, and is another field. -/
theorem Told.cons {seen seen' : List String} {s s' : σ} {acc : List (String × Value)}
    (htold : Told fields agrees seen s acc) {key : String} {v : Value}
    (hagrees : agrees s' (Function.update ((collect acc).lookup ·) key (some v)))
    (hunseen : ∀ f ∈ fields, f.name ∉ seen' → f.name ≠ key ∧ f.name ∉ seen) :
    Told fields agrees seen' s' ((key, v) :: acc) where
  agrees := by
    rw [lookup_collect_cons]
    exact hagrees
  unseen f hf hseen' := by
    obtain ⟨hne, hseen⟩ := hunseen f hf hseen'
    have hlookup := congrFun (lookup_collect_cons key v acc) f.name
    rw [Function.update_of_ne hne] at hlookup
    exact hlookup.trans (htold.unseen f hf hseen)

/-- One member more, in both readings. -/
theorem Told.of_member (hd : Describes fields agrees) {seen seen' : List String} {s s' : σ}
    {acc : List (String × Value)} (htold : Told fields agrees seen s acc)
    {ts rest : List Json.Token} (h : member fields seen s ts = .ok ((seen', s'), rest))
    {result : Value × List Json.Token}
    (hrun : run (.keep depth) [.object acc] .key ts = some result) :
    ∃ key v, Told fields agrees seen' s' ((key, v) :: acc) ∧
      run (.keep depth) [.object ((key, v) :: acc)] .commaOrEnd rest = some result := by
  obtain ⟨key, more, rfl, hmember⟩ := member_eq_ok h
  have hvalue : run (.keep depth) [.member acc key] .value more = some result := by
    rw [run_cons] at hrun
    have hafter : run (.keep depth) [.member acc key] .colon (.colon :: more) = some result := hrun
    rw [run_cons] at hafter
    exact hafter
  -- A field that is read has not come before, so what it agrees with changes at a place where there
  -- was nothing.
  obtain ⟨f, hf, rfl, hnew, rfl, hread⟩ | ⟨hother, rfl, rfl, hskip⟩ := hmember
  · obtain ⟨v, hagrees, hrest⟩ :=
      hd.read f hf s _ htold.agrees (htold.unseen f hf hnew) hread hvalue
    refine ⟨f.name, v, htold.cons hagrees fun g _ hseen => ?_, hrest⟩
    rwa [List.mem_cons, not_or] at hseen
  · obtain ⟨v, -, hrest⟩ := Decoder.skip_reads hskip hvalue
    have hagrees := hd.skip key hother _ _ v htold.agrees
    exact ⟨key, v, htold.cons hagrees fun g hg hseen => ⟨hother g hg, hseen⟩, hrest⟩

/-- All members, in both readings.  The induction is the one of the payload; the machine has no
choice but to follow. -/
theorem Told.of_members (hd : Describes fields agrees) {seen : List String} {s s' : σ}
    {acc : List (String × Value)} (htold : Told fields agrees seen s acc)
    {ts rest : List Json.Token} (h : members fields seen s ts = .ok (s', rest))
    {v : Value} {more : List Json.Token}
    (hrun : run (.keep depth) [.object acc] .key ts = some (v, more)) :
    ∃ ms, v = .object ms ∧ more = rest ∧ agrees s' (ms.lookup ·) := by
  fun_induction members fields seen s ts generalizing acc with
  | case1 => cases h
  | case2 seen s ts seen' t rest' hmember _ ih =>
    obtain ⟨key, w, htold, hrest⟩ := htold.of_member hd hmember hrun
    rw [run_cons] at hrest
    exact ih htold h hrest
  | case3 => cases h
  | case4 seen s ts seen' t rest' hmember =>
    cases h
    obtain ⟨key, w, htold, hrest⟩ := htold.of_member hd hmember hrun
    rw [run_cons] at hrest
    cases hrest
    exact ⟨_, rfl, rfl, htold.agrees⟩
  | case5 => cases h

theorem lookup_concat {members : List (String × Value)} {name : String}
    (h : members.lookup name = none) (v : Value) :
    ((members ++ [(name, v)]).lookup ·)
      = Function.update (members.lookup ·) name (some v) := by
  funext k
  rw [List.lookup_append, Function.update_apply]
  by_cases hk : k = name
  · simp [hk, h]
  · simp [hk, List.lookup_cons, beq_eq_false_iff_ne.2 hk]

section Zip

variable {before after : List String} {items : List Value} {name : String}
  (h : before.length = items.length)

include h

theorem zip_of_length_eq : (before ++ after).zip items = before.zip items := by
  have hzip : (before ++ after).zip (items ++ []) = before.zip items ++ after.zip [] :=
    List.zip_append h
  rwa [List.append_nil, List.zip_nil_right, List.append_nil] at hzip

/-- One item more is paired with the name that comes next. -/
theorem zip_concat (v : Value) :
    (before ++ name :: after).zip (items ++ [v])
      = (before ++ name :: after).zip items ++ [(name, v)] := by
  rw [List.zip_append h, zip_of_length_eq h, List.zip_cons_cons, List.zip_nil_right]

/-- A field whose turn has not come yet has nothing so far. -/
theorem lookup_zip_eq_none (hname : name ∉ before) :
    ((before ++ name :: after).zip items).lookup name = none := by
  rw [zip_of_length_eq h, List.lookup_eq_none_iff]
  intro p hp
  exact bne_iff_ne.2 fun hp' => hname (hp' ▸ (List.of_mem_zip hp).1)

end Zip

/-- The fields of an array are read in order.  `done` are those that have come, as many as there are
items on the stack, so the field that is next is the one that the next item is paired with. -/
theorem elements_agrees (hd : Describes fields agrees) (hnodup : (fields.map (·.name)).Nodup)
    {done todo : List (Field σ)} (hfields : fields = done ++ todo) {items : List Value}
    (hlength : (done.map (·.name)).length = items.reverse.length) {s s' : σ}
    {ts rest : List Json.Token}
    (hagrees : agrees s (((fields.map (·.name)).zip items.reverse).lookup ·))
    (h : elements s todo ts = .ok (s', rest)) {v : Value} {more : List Json.Token}
    (hrun : run (.keep depth) [.array items] .commaOrEnd ts = some (v, more)) :
    ∃ all, v = .array all ∧ more = rest ∧
      agrees s' (((fields.map (·.name)).zip all).lookup ·) := by
  induction todo generalizing done items s ts with
  | nil =>
    rw [elements.eq_def] at h
    split at h
    · cases h
      rw [run_cons] at hrun
      cases hrun
      exact ⟨_, rfl, rfl, hagrees⟩
    · rename_i hcons
      cases hcons
    · cases h
  | cons f fs ih =>
    rw [elements.eq_def] at h
    split at h
    · cases h
      rw [run_cons] at hrun
      cases hrun
      exact ⟨_, rfl, rfl, hagrees⟩
    · rename_i g gs afterComma hcons
      obtain ⟨rfl, rfl⟩ := List.cons.inj hcons
      obtain ⟨⟨t, left⟩, hread, h⟩ := bind_eq_ok_iff.1 h
      have hnames : fields.map (·.name) = done.map (·.name) ++ f.name :: fs.map (·.name) := by
        simp [hfields]
      -- The names before this one are other names, so nothing has been paired with it yet.
      have hold : f.name ∉ done.map (·.name) := by
        rw [hnames, List.nodup_append] at hnodup
        exact fun hmem => hnodup.2.2 _ hmem _ List.mem_cons_self rfl
      have hnew : ((fields.map (·.name)).zip items.reverse).lookup f.name = none := by
        rw [hnames]
        exact lookup_zip_eq_none hlength hold
      rw [run_cons] at hrun
      obtain ⟨w, hw, hrest⟩ := hd.read f (by simp [hfields]) s _ hagrees hnew hread hrun
      have hfields' : fields = (done ++ [f]) ++ fs := by simp [hfields]
      have hlength' : ((done ++ [f]).map (·.name)).length = (w :: items).reverse.length := by
        simpa using hlength
      refine ih hfields' hlength' ?_ h hrest
      rw [← lookup_concat hnew, hnames, ← zip_concat hlength w, ← hnames] at hw
      rw [List.reverse_cons]
      exact hw
    · cases h

/-- A payload is an object or an array, with something in it or nothing, and in all four cases the
machine goes the same way. -/
theorem payload_agrees (hd : Describes fields agrees) (hnodup : (fields.map (·.name)).Nodup)
    {s s' : σ} (hagrees : agrees s fun _ => none) {ts rest : List Json.Token}
    (h : payload fields s ts = .ok (s', rest)) {v : Value} {more : List Json.Token}
    (hrun : take (.keep depth) ts = some (v, more)) :
    more = rest ∧ agrees s' fun name => field? (fields.map (·.name)) name v := by
  have hmembers (ts : List Json.Token) : run (.keep depth) [] .value (.openBrace :: ts)
      = run (.keep depth) [.object []] .keyOrEnd ts := run_cons _ _
  have hitems (ts : List Json.Token) : run (.keep depth) [] .value (.openBracket :: ts)
      = run (.keep depth) [.array []] .itemOrEnd ts := run_cons _ _
  rw [take] at hrun
  rw [payload.eq_def] at h
  split at h
  · cases h
    rw [hmembers, run_cons] at hrun
    cases hrun
    exact ⟨rfl, hagrees⟩
  · rename_i first hfirst
    rw [hmembers, run_keyOrEnd fun more hmore => hfirst more (by rw [hmore])] at hrun
    have htold : Told fields agrees [] s [] := ⟨hagrees, fun _ _ _ => rfl⟩
    obtain ⟨ms, rfl, hmore, hms⟩ := htold.of_members hd h hrun
    exact ⟨hmore, hms⟩
  · cases h
    rw [hitems, run_cons] at hrun
    cases hrun
    refine ⟨rfl, ?_⟩
    simpa [field?] using hagrees
  · rename_i first hfirst
    rw [hitems, run_itemOrEnd fun more hmore => hfirst more (by rw [hmore])] at hrun
    -- A comma in front of the first item makes it an item like the others.
    have hcomma : run (.keep depth) [.array []] .commaOrEnd (.comma :: first) = some (v, more) := by
      rw [run_cons]
      exact hrun
    have hnone : agrees s ((List.zip (fields.map (·.name)) (List.reverse [])).lookup ·) := by
      simpa using hagrees
    obtain ⟨all, rfl, hmore, hall⟩ :=
      elements_agrees hd hnodup (List.nil_append fields).symm rfl hnone h hcomma
    exact ⟨hmore, hall⟩
  · cases h

/-- **A payload agrees with the JSON value of its body**, whatever order the members come in and
whichever of them are left out. -/
theorem agrees_of_ofBody (hd : Describes fields agrees) (hnodup : (fields.map (·.name)).Nodup)
    {s q : σ} (hagrees : agrees s fun _ => none) {body : List UInt8}
    (h : ofBody fields s body = .ok q) {v : Value} (hv : Value.ofBytes? body = some v) :
    agrees q fun name => field? (fields.map (·.name)) name v := by
  rw [ofBody.eq_def] at h
  rw [Value.ofBytes?] at hv
  split at h <;> cases h
  rename_i hpayload
  split at hv <;> cases hv
  rename_i htake
  exact (payload_agrees hd hnodup hagrees hpayload htake).2

/-- A payload of one field has that field as the body holds it, or else what it started with. -/
theorem agrees_of_single {α : Type} {name : String} {d : Decoder α} {set : σ → α → σ}
    {toValue : α → Value} (get : σ → Value) (hd : d.Reads fun a v => v = toValue a)
    (hget : ∀ s a, get (set s a) = toValue a) {s q : σ} {body : List UInt8}
    (h : ofBody [.of name d set] s body = .ok q) {v : Value} (hv : Value.ofBytes? body = some v) :
    (field? [name] name v).getD (get s) = get q := by
  have hdescribes : Describes [.of name d set] fun t held => (held name).getD (get s) = get t := by
    refine ⟨fun f hf t held _ _ => ?_, fun key hkey t held w hagrees => ?_⟩
    · obtain rfl := List.mem_singleton.1 hf
      exact Field.of_reads hd fun a w hw => by simp [Field.of, hw, hget]
    · have hname : name ≠ key := hkey _ (List.mem_singleton_self _)
      rwa [Function.update_of_ne hname]
  exact agrees_of_ofBody hdescribes (by simp) rfl h hv

end Payload

/-! ## The three payloads

What is left for them is to say what it means to agree with the values held, field by field. -/

open Payload (field? Describes)

/-- The payload has what the fields are held to have, and defaults for those that have nothing. -/
def CreateRequest.Agrees (q : CreateRequest) (held : String → Option Value) : Prop :=
  (held "rule").getD (.string "") = .string q.rule

@[inherit_doc CreateRequest.Agrees]
def CombineRequest.Agrees (q : CombineRequest) (held : String → Option Value) : Prop :=
  (held "rules").getD (.array []) = .array (q.rules.map .string)

@[inherit_doc CreateRequest.Agrees]
def EvaluateRequest.Agrees (q : EvaluateRequest) (held : String → Option Value) : Prop :=
  (held "rule").getD (.string "") = .string q.rule ∧ (held "data").getD .null = q.data

theorem CreateRequest.agrees_of_ofBody {q : CreateRequest} {body : List UInt8}
    (h : ofBody body = .ok q) {v : Value} (hv : Value.ofBytes? body = some v) :
    q.Agrees (field? ["rule"] · v) :=
  Payload.agrees_of_single (fun q : CreateRequest => .string q.rule) Decoder.text_reads
    (fun _ _ => rfl) h hv

theorem CombineRequest.agrees_of_ofBody {q : CombineRequest} {body : List UInt8}
    (h : ofBody body = .ok q) {v : Value} (hv : Value.ofBytes? body = some v) :
    q.Agrees (field? ["rules"] · v) :=
  Payload.agrees_of_single (fun q : CombineRequest => .array (q.rules.map .string))
    Decoder.texts_reads (fun _ _ => rfl) h hv

theorem EvaluateRequest.agrees_of_ofBody {q : EvaluateRequest} {body : List UInt8}
    (h : ofBody body = .ok q) {v : Value} (hv : Value.ofBytes? body = some v) :
    q.Agrees (field? ["rule", "data"] · v) := by
  have hd : Describes
      [.of "rule" Decoder.text fun (s : EvaluateRequest) rule => { s with rule },
       .of "data" Decoder.value fun (s : EvaluateRequest) data => { s with data }]
      EvaluateRequest.Agrees := by
    refine ⟨fun f hf s held hagrees _ => ?_, fun key hkey s held v hagrees => ?_⟩
    · obtain ⟨hrule, hdata⟩ := hagrees
      rw [List.mem_cons, List.mem_singleton] at hf
      obtain rfl | rfl := hf
      · exact Field.of_reads Decoder.text_reads fun a v hv => by simp [Agrees, Field.of, hv, hdata]
      · exact Field.of_reads Decoder.value_reads fun a v hv => by
          simp [Agrees, Field.of, hv, hrule]
    · have hrule : "rule" ≠ key := hkey _ List.mem_cons_self
      have hdata : "data" ≠ key := hkey _ (List.mem_cons_of_mem _ (List.mem_singleton_self _))
      rwa [Agrees, Function.update_of_ne hrule, Function.update_of_ne hdata]
  have hstart : ({} : EvaluateRequest).Agrees fun _ => none := ⟨rfl, rfl⟩
  exact Payload.agrees_of_ofBody hd (by simp [Field.of]) hstart h hv

end Http

end Screening
