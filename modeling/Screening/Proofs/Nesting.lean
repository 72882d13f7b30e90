import Screening.Json.Reader

/-!
# Values inside of values

The machine that reads JSON values looks at nothing but the innermost container it is in.  So a
value inside of containers is read as if it stood alone and then handed to the innermost of them
(`run_append`), and a value is skipped by the same tokens that it would be kept by
(`take_skip_of_keep`).

Both are lockstep arguments: two machines are run side by side, and what holds between their states
is kept by every step.  There are many pairs of what is expected and what comes, but few kinds of
steps (`StepIs`), and only those are gone through.

* For the first argument a state is looked at from outside of further containers (`State.inside`).
  The machine inside has less room, by as many containers as there are around it (`Mode.inside`).
* For the second a state is looked at without what has been read (`State.shape`).  A machine that
  skips goes on where one that keeps would stop, so this works in one direction only.

The one place where the innermost container does not decide everything is a value that stands in
none: it ends the reading instead of being handed on.  That is why the lemmas about steps ask for a
container, or for a value to be expected.
-/

set_option autoImplicit false

namespace Screening

namespace Json.Reader

/-! ## Reading inside of containers

Each function of the machine is taken by itself, with containers around those that it is given. -/

/-- A state of a reading, seen from outside of the containers around it. -/
def State.inside (outer : List Frame) : State → Option State
  | .reading frames expect => some (.reading (frames ++ outer) expect)
  | .done v => deliver v outer

/-- The way of reading that is left inside of some containers. -/
def Mode.inside (outer : List Frame) : Mode → Mode
  | keep room => keep (room - outer.length)
  | skip => skip

/-- Goes on from a state. -/
def resume (mode : Mode) : Option State → List Token → Option (Value × List Token)
  | none, _ => none
  | some (.done v), rest => some (v, rest)
  | some (.reading frames expect), rest => run mode frames expect rest

variable {mode : Mode} {frames outer : List Frame} {expect : Expect}

/-- A reading goes on from the state that the first token leads to. -/
theorem run_cons (t : Token) (rest : List Token) :
    run mode frames expect (t :: rest) = resume mode (step mode frames expect t) rest := by
  rw [run]
  cases step mode frames expect t with
  | none => rfl
  | some s => cases s <;> rfl

/-- A value is handed to the innermost container, and only if there is none to those around. -/
theorem deliver_append (v : Value) :
    deliver v (frames ++ outer) = (deliver v frames).bind (State.inside outer) := by
  cases frames with
  | nil => rfl
  | cons f fs => cases f <;> rfl

theorem finish_append (h : frames ≠ []) (t : Token) :
    finish (frames ++ outer) t = (finish frames t).bind (State.inside outer) := by
  obtain ⟨f, fs, rfl⟩ := List.exists_cons_of_ne_nil h
  cases f <;> cases t <;> first | rfl | exact deliver_append _

theorem held_inside {α : Type} (standIn : α) (held : Option α) :
    (mode.inside outer).held standIn held = mode.held standIn held := by
  cases mode <;> cases held <;> rfl

/-- Room is counted from the outside. -/
theorem admits_append : mode.admits (frames ++ outer) = (mode.inside outer).admits frames := by
  cases mode with
  | skip => rfl
  | keep room =>
    simp only [Mode.admits, Mode.inside, List.length_append, decide_eq_decide]
    omega

/-- A token that begins a value begins it inside as well. -/
theorem start_append (t : Token) :
    start mode (frames ++ outer) t
      = (start (mode.inside outer) frames t).bind (State.inside outer) := by
  cases t with
  | number n =>
    rw [start, start, held_inside]
    cases mode.held _ n with
    | none => rfl
    | some n => exact deliver_append _
  | string s =>
    rw [start, start, held_inside]
    cases mode.held _ s with
    | none => rfl
    | some s => exact deliver_append _
  | openBracket =>
    rw [start, start, admits_append]
    split <;> rfl
  | openBrace =>
    rw [start, start, admits_append]
    split <;> rfl
  | null => exact deliver_append _
  | bool b => exact deliver_append _
  | _ => rfl

theorem name_append (h : frames ≠ []) (t : Token) :
    name mode (frames ++ outer) t
      = (name (mode.inside outer) frames t).bind (State.inside outer) := by
  obtain ⟨f, fs, rfl⟩ := List.exists_cons_of_ne_nil h
  cases f <;> cases t <;> try rfl
  rw [List.cons_append, name, name, held_inside]
  cases mode.held _ _ <;> rfl

/-- Where an item or the end is expected, anything but the closing bracket is taken for an item. -/
theorem step_itemOrEnd {t : Token} (h : t ≠ .closeBracket) :
    step mode frames .itemOrEnd t = start mode frames t := by
  cases t with
  | closeBracket => exact absurd rfl h
  | _ => rfl

theorem step_keyOrEnd {t : Token} (h : t ≠ .closeBrace) :
    step mode frames .keyOrEnd t = name mode frames t := by
  cases t with
  | closeBrace => exact absurd rfl h
  | _ => rfl

theorem step_commaOrEnd {t : Token} (h : t ≠ .comma) :
    step mode frames .commaOrEnd t = finish frames t := by
  cases t with
  | comma => exact absurd rfl h
  | _ => rfl

/-- What a step comes to for what is expected and the token that comes, in any container. -/
inductive StepIs (expect : Expect) (t : Token) : Prop
  | start (h : ∀ mode frames, step mode frames expect t = start mode frames t)
  | name (h : ∀ mode frames, step mode frames expect t = name mode frames t)
  | finish (h : ∀ mode frames, step mode frames expect t = finish frames t)
  | colon (hexpect : expect = .colon)
      (h : ∀ mode frames, step mode frames expect t = some (.reading frames .value))
  | comma (h : ∀ mode frames, step mode frames expect t = step mode frames .commaOrEnd .comma)
  | refuse (h : ∀ mode frames, step mode frames expect t = none)

/-- What is expected and the token that comes decide of which kind the step is. -/
theorem stepIs (expect : Expect) (t : Token) : StepIs expect t := by
  cases expect with
  | value => exact .start fun _ _ => rfl
  | itemOrEnd =>
    by_cases ht : t = .closeBracket
    · exact .finish fun _ _ => by rw [ht]; rfl
    · exact .start fun _ _ => step_itemOrEnd ht
  -- Where something may come or the end, the token that ends it is the only one that does not begin
  -- something.
  | keyOrEnd =>
    by_cases ht : t = .closeBrace
    · exact .finish fun _ _ => by rw [ht]; rfl
    · exact .name fun _ _ => step_keyOrEnd ht
  | key => exact .name fun _ _ => rfl
  | colon =>
    cases t with
    | colon => exact .colon rfl fun _ _ => rfl
    | _ => exact .refuse fun _ _ => rfl
  | commaOrEnd =>
    by_cases ht : t = .comma
    · exact .comma fun _ _ => by rw [ht]
    · exact .finish fun _ _ => step_commaOrEnd ht

/-- Only the innermost container matters for a step, and a value that is to come may do without. -/
theorem step_append (hvalue : frames = [] → expect = .value) (t : Token) :
    step mode (frames ++ outer) expect t
      = (step (mode.inside outer) frames expect t).bind (State.inside outer) := by
  cases frames with
  | nil =>
    obtain rfl := hvalue rfl
    exact start_append t
  | cons f fs =>
    have hne : f :: fs ≠ [] := List.cons_ne_nil f fs
    cases stepIs expect t with
    | start h => rw [h, h, start_append]
    | name h => rw [h, h, name_append hne]
    | finish h => rw [h, h, finish_append hne]
    | colon _ h => rw [h, h, Option.bind_some, State.inside]
    | comma h =>
      rw [h, h]
      cases f <;> rfl
    | refuse h => rw [h, h, Option.bind_none]

/-! ## States that a step leads to

A reading that goes on is never outside of all containers, which keeps the lemmas above applicable.
-/

variable {inner : List Frame} {next : Expect}

theorem ne_nil_of_deliver {v : Value} (h : deliver v frames = some (.reading inner next)) :
    inner ≠ [] := by
  cases frames with
  | nil => cases h
  | cons f fs => cases f <;> cases h <;> exact List.cons_ne_nil _ _

theorem ne_nil_of_finish {t : Token} (h : finish frames t = some (.reading inner next)) :
    inner ≠ [] := by
  cases frames with
  | nil => cases h
  | cons f fs => cases f <;> cases t <;> first | cases h | exact ne_nil_of_deliver h

theorem ne_nil_of_start {t : Token} (h : start mode frames t = some (.reading inner next)) :
    inner ≠ [] := by
  cases t with
  | null => exact ne_nil_of_deliver h
  | bool b => exact ne_nil_of_deliver h
  | number n =>
    obtain ⟨_, -, h⟩ := Option.bind_eq_some_iff.1 h
    exact ne_nil_of_deliver h
  | string s =>
    obtain ⟨_, -, h⟩ := Option.bind_eq_some_iff.1 h
    exact ne_nil_of_deliver h
  | openBracket =>
    rw [start] at h
    split at h <;> cases h
    exact List.cons_ne_nil _ _
  | openBrace =>
    rw [start] at h
    split at h <;> cases h
    exact List.cons_ne_nil _ _
  | _ => cases h

theorem ne_nil_of_name {t : Token} (h : name mode frames t = some (.reading inner next)) :
    inner ≠ [] := by
  cases frames with
  | nil => cases h
  | cons f fs =>
    cases f <;> cases t <;> try cases h
    obtain ⟨_, -, h⟩ := Option.bind_eq_some_iff.1 h
    cases h
    exact List.cons_ne_nil _ _

/-- A reading that goes on is inside of some container. -/
theorem ne_nil_of_step (hvalue : frames = [] → expect = .value) {t : Token}
    (hstep : step mode frames expect t = some (.reading inner next)) : inner ≠ [] := by
  cases stepIs expect t with
  | start h => exact ne_nil_of_start ((h mode frames).symm.trans hstep)
  | name h => exact ne_nil_of_name ((h mode frames).symm.trans hstep)
  | finish h => exact ne_nil_of_finish ((h mode frames).symm.trans hstep)
  | colon hexpect h =>
    rw [h] at hstep
    cases hstep
    -- Outside of all containers a value is expected and no colon.
    exact fun hnil => by cases hexpect.symm.trans (hvalue hnil)
  | comma h =>
    rw [h] at hstep
    cases frames with
    | nil => cases hstep
    | cons f fs => cases f <;> cases hstep <;> exact List.cons_ne_nil _ _
  | refuse h =>
    rw [h] at hstep
    cases hstep

/-- **A value inside of containers is read as if it stood alone**, and is then handed to the
innermost of them. -/
theorem run_append (hvalue : frames = [] → expect = .value) (ts : List Token) :
    run mode (frames ++ outer) expect ts
      = (run (mode.inside outer) frames expect ts).bind fun (v, rest) =>
          resume mode (deliver v outer) rest := by
  induction ts generalizing frames expect with
  | nil => rfl
  | cons t ts ih =>
    rw [run_cons, run_cons, step_append hvalue]
    cases hstep : step (mode.inside outer) frames expect t with
    | none => rfl
    | some s =>
      cases s with
      | done v => rfl
      | reading inner next => exact ih fun hnil => absurd hnil (ne_nil_of_step hvalue hstep)

/-- A value that is to come is read with the room that is left and handed on. -/
theorem run_value (ts : List Token) :
    run mode outer .value ts = (take (mode.inside outer) ts).bind fun (v, rest) =>
      resume mode (deliver v outer) rest := by
  have hrun : run mode ([] ++ outer) .value ts = _ := run_append (fun _ => rfl) ts
  exact hrun

/-- The first item is a value like any other, unless there is none. -/
theorem run_itemOrEnd {ts : List Token} (h : ∀ rest, ts ≠ .closeBracket :: rest) :
    run mode frames .itemOrEnd ts = run mode frames .value ts := by
  cases ts with
  | nil => rfl
  | cons t rest =>
    have ht : t ≠ .closeBracket := fun ht => h rest (by rw [ht])
    rw [run_cons, run_cons, step_itemOrEnd ht, step]

/-- The first key is a key like any other, unless there is none. -/
theorem run_keyOrEnd {ts : List Token} (h : ∀ rest, ts ≠ .closeBrace :: rest) :
    run mode frames .keyOrEnd ts = run mode frames .key ts := by
  cases ts with
  | nil => rfl
  | cons t rest =>
    have ht : t ≠ .closeBrace := fun ht => h rest (by rw [ht])
    rw [run_cons, run_cons, step_keyOrEnd ht, step]

/-! ## Skipping instead of keeping

Two stacks of containers have the same shape if they are of the same kinds.  What is in them does
not decide on any step. -/

/-- A container without what it holds. -/
def Frame.shape : Frame → Frame
  | array _ => array []
  | object _ => object []
  | member _ _ => member [] ""

/-- Where a reading is, without what it has read. -/
def State.shape : State → Option (List Frame × Expect)
  | reading frames expect => some (frames.map Frame.shape, expect)
  | done _ => none

variable {others : List Frame}

theorem shape_cons {f : Frame} {fs : List Frame}
    (h : (f :: fs).map Frame.shape = others.map Frame.shape) :
    ∃ g gs, others = g :: gs ∧ f.shape = g.shape ∧ fs.map Frame.shape = gs.map Frame.shape := by
  cases others with
  | nil => cases h
  | cons g gs => exact ⟨g, gs, rfl, List.cons.inj h⟩

theorem shape_deliver (v w : Value) (h : frames.map Frame.shape = others.map Frame.shape) :
    (deliver v frames).map State.shape = (deliver w others).map State.shape := by
  cases frames with
  | nil =>
    obtain rfl := List.map_eq_nil_iff.1 h.symm
    rfl
  | cons f fs =>
    obtain ⟨g, gs, rfl, hfg, hrest⟩ := shape_cons h
    cases f <;> cases g <;> cases hfg <;>
      simp [deliver, State.shape, Frame.shape, hrest]

theorem shape_finish (t : Token) (h : frames.map Frame.shape = others.map Frame.shape) :
    (finish frames t).map State.shape = (finish others t).map State.shape := by
  cases frames with
  | nil =>
    obtain rfl := List.map_eq_nil_iff.1 h.symm
    rfl
  | cons f fs =>
    obtain ⟨g, gs, rfl, hfg, hrest⟩ := shape_cons h
    cases f <;> cases g <;> cases hfg <;> cases t <;>
      first | rfl | exact shape_deliver _ _ hrest

theorem held_keep {α : Type} {room : Nat} {standIn a : α} {held : Option α}
    (h : (Mode.keep room).held standIn held = some a) : held = some a := by
  cases held with
  | none => cases h
  | some b => exact h

section Skip

variable {room : Nat} {s : State} (hshape : frames.map Frame.shape = others.map Frame.shape)

include hshape

/-- A value that is kept from its first token on would be skipped from there. -/
theorem shape_start {t : Token} (h : start (.keep room) frames t = some s) :
    (start .skip others t).map State.shape = some s.shape := by
  have hdeliver {v : Value} (w : Value) (hv : deliver v frames = some s) :
      (deliver w others).map State.shape = some s.shape := by
    rw [← shape_deliver v w hshape, hv, Option.map_some]
  cases t with
  | null => exact hdeliver _ h
  | bool b => exact hdeliver _ h
  -- Of a number or a text something has been held, so it can be read, and skipping does not even
  -- ask.
  | number n =>
    obtain ⟨a, hheld, h⟩ := Option.bind_eq_some_iff.1 h
    obtain rfl := held_keep hheld
    exact hdeliver _ h
  | string t =>
    obtain ⟨a, hheld, h⟩ := Option.bind_eq_some_iff.1 h
    obtain rfl := held_keep hheld
    exact hdeliver _ h
  -- Skipping has no limit to the depth, so what is admitted with a limit is admitted without.
  | openBracket =>
    rw [start] at h
    split at h <;> cases h
    simp [start, Mode.admits, State.shape, Frame.shape, hshape]
  | openBrace =>
    rw [start] at h
    split at h <;> cases h
    simp [start, Mode.admits, State.shape, Frame.shape, hshape]
  | _ => cases h

theorem shape_name {t : Token} (h : name (.keep room) frames t = some s) :
    (name .skip others t).map State.shape = some s.shape := by
  cases frames with
  | nil => cases h
  | cons f fs =>
    obtain ⟨g, gs, rfl, hfg, hrest⟩ := shape_cons hshape
    cases f <;> cases g <;> cases hfg <;> cases t <;> try cases h
    obtain ⟨key, hheld, h⟩ := Option.bind_eq_some_iff.1 h
    obtain rfl := held_keep hheld
    cases h
    simp [name, Mode.held, State.shape, Frame.shape, hrest]

/-- A step that keeps what it reads leads to the same place as one that skips it. -/
theorem shape_step {expect : Expect} {t : Token}
    (hstep : step (.keep room) frames expect t = some s) :
    (step .skip others expect t).map State.shape = some s.shape := by
  cases stepIs expect t with
  | start h =>
    rw [h] at hstep ⊢
    exact shape_start hshape hstep
  | name h =>
    rw [h] at hstep ⊢
    exact shape_name hshape hstep
  | finish h =>
    rw [h] at hstep ⊢
    rw [← shape_finish t hshape, hstep, Option.map_some]
  | colon _ h =>
    rw [h] at hstep ⊢
    cases hstep
    exact congrArg (fun fs => some (some (fs, Expect.value))) hshape.symm
  | comma h =>
    rw [h] at hstep ⊢
    cases frames with
    | nil => cases hstep
    | cons f fs =>
      obtain ⟨g, gs, rfl, hfg, hrest⟩ := shape_cons hshape
      cases f <;> cases g <;> cases hfg <;> cases hstep <;>
        simp [step, State.shape, Frame.shape, hrest]
  | refuse h =>
    rw [h] at hstep
    cases hstep

end Skip

/-- A reading that keeps a value takes the same tokens as one that skips it.  The induction is on
the tokens, and the shapes of the stacks stay the same. -/
theorem run_skip_of_keep {room : Nat} (hshape : frames.map Frame.shape = others.map Frame.shape)
    {ts rest : List Token} {v : Value} (h : run (.keep room) frames expect ts = some (v, rest)) :
    ∃ w, run .skip others expect ts = some (w, rest) := by
  induction ts generalizing frames others expect with
  | nil => cases h
  | cons t ts ih =>
    rw [run_cons] at h ⊢
    cases hstep : step (.keep room) frames expect t with
    | none =>
      rw [hstep] at h
      cases h
    | some s =>
      rw [hstep] at h
      obtain ⟨s', hstep', hs⟩ := Option.map_eq_some_iff.1 (shape_step hshape hstep)
      rw [hstep']
      -- Both steps end the value or neither does, since only the shape decides of it.
      cases s with
      | done v' =>
        cases s' with
        | reading => cases hs
        | done w =>
          cases h
          exact ⟨w, rfl⟩
      | reading inner next =>
        cases s' with
        | done => cases hs
        | reading inner' next' =>
          obtain ⟨hinner, rfl⟩ := Prod.mk.inj (Option.some.inj hs)
          exact ih hinner.symm h

/-- Skipping a value takes the tokens that keeping it would take. -/
theorem take_skip_of_keep {room : Nat} {ts rest : List Token} {v : Value}
    (h : take (.keep room) ts = some (v, rest)) : ∃ w, take .skip ts = some (w, rest) :=
  run_skip_of_keep rfl h

end Json.Reader

end Screening
