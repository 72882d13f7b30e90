import Mathlib.Data.List.Basic
import Screening.Settings.Loading

/-!
# What a layer gives

The settings consist of single values, the `Knob`s: two stand by themselves and the others in one of
two parts.  A layer gives a value for a knob under the path of the knob, or in a table that it has
for the whole part (`Knob.given?`).

Laying an entry over others changes what can be read for a knob to what the entry gives for it, and
leaves it as it is if the entry gives nothing (`seen?_lay_entry`), as long as the entry is `Proper`:
it has a path of a knob, a table for a part, or a path `Apart` from all knobs.  By induction on the
layer the last entry that gives something has its way (`seen?_lay`), and by induction on the layers
the highest layer that gives something (`seen?_layers`).

Tables under one path are merged and not replaced, so that what stands there is not what the last
entry has.  It reads the same: no knob is read from a table.  So all is stated of the value that is
read and not of the setting that it is read from.

Nothing here depends on where a layer comes from.  What the arguments, the files and the variables
give is found out in `Screening.Proofs.Layers`.
-/

set_option autoImplicit false

namespace Screening

open Setting (find? put entriesOver)
open Sources (Layer lay)

/-! ## Knobs -/

/-- One of the single values that the settings consist of. -/
inductive Knob where
  | serviceName
  | environment
  | host
  | port
  | observedName
  | logLevel
  | jsonLogs
  | metricsEnabled
  | metricsPort
  deriving DecidableEq

/-- The value of a knob. -/
inductive Datum where
  | text (s : String)
  | flag (b : Bool)
  | port (p : UInt16)
  deriving DecidableEq

namespace Knob

/-- The part that the knob stands in, unless it stands by itself. -/
def part? : Knob → Option String
  | serviceName | environment => none
  | host | port => some "server"
  | observedName | logLevel | jsonLogs | metricsEnabled | metricsPort => some "observability"

/-- The name of the knob within its part, or by itself. -/
def name : Knob → String
  | serviceName | observedName => "service_name"
  | environment => "environment"
  | host => "host"
  | port => "port"
  | logLevel => "log_level"
  | jsonLogs => "json_logs"
  | metricsEnabled => "metrics_enabled"
  | metricsPort => "metrics_port"

def path (k : Knob) : List Step := (k.part?.toList ++ [k.name]).map .word

/-- The value that a setting has for the knob, if it fits. -/
def read? : Knob → Setting → Option Datum
  | jsonLogs, t | metricsEnabled, t => t.toFlag?.map .flag
  | port, t | metricsPort, t => t.toPort?.map .port
  | _, t => t.toText?.map .text

theorem path_of_part?_eq_none {k : Knob} (h : k.part? = none) : k.path = [.word k.name] := by
  rw [path, h]
  rfl

theorem path_of_part?_eq_some {k : Knob} {w : String} (h : k.part? = some w) :
    k.path = [.word w, .word k.name] := by
  rw [path, h]
  rfl

/-- Merging does not show: what is merged is a table, and there is no value in a table. -/
theorem read?_layOver (k : Knob) (t : Setting) (below : Option Setting) :
    k.read? (t.layOver below) = k.read? t := by
  cases t with
  | table es => cases k <;> rfl
  | _ => rfl

end Knob

/-- The value of a knob in the settings. -/
def Settings.get (s : Settings) : Knob → Datum
  | .serviceName => .text s.serviceName
  | .environment => .text s.environment
  | .host => .text s.server.host
  | .port => .port s.server.port
  | .observedName => .text s.observability.serviceName
  | .logLevel => .text s.observability.logLevel
  | .jsonLogs => .flag s.observability.jsonLogs
  | .metricsEnabled => .flag s.observability.metricsEnabled
  | .metricsPort => .port s.observability.metricsPort

/-! ## What entries and layers give

Of an entry, a layer and several layers it is said what they give for a knob, without laying them.
-/

namespace Knob

/-- What an entry gives for the knob: what it holds, if its path is that of the knob, and the last
setting of that name in a table, if its path is that of the part. -/
def given? (k : Knob) (e : List Step × Setting) : Option Setting :=
  if e.1 = k.path then some e.2
  else if k.part?.map (fun w => [Step.word w]) = some e.1 then e.2.entries.reverse.lookup k.name
  else none

/-- What a layer gives for the knob: the last of what its entries give. -/
def value? (k : Knob) (l : Layer) : Option Setting := l.reverse.findSome? k.given?

/-- What the highest of the layers gives that gives anything; the highest layer stands first. -/
def winner? (k : Knob) (layers : List Layer) : Option Setting := layers.findSome? k.value?

theorem value?_cons (k : Knob) (e : List Step × Setting) (l : Layer) :
    k.value? (e :: l) = (k.value? l).or (k.given? e) := by
  rw [value?, value?, List.reverse_cons, List.findSome?_append, List.findSome?_singleton]

theorem winner?_cons (k : Knob) (l : Layer) (layers : List Layer) :
    k.winner? (l :: layers) = (k.value? l).or (k.winner? layers) := by
  rw [winner?, List.findSome?_cons, winner?]
  cases k.value? l <;> rfl

/-- The path neither leads to the knob nor on from it, and not into its part as if that were a list:
there it would take the place of the whole part. -/
structure Diverges (k : Knob) (path : List Step) : Prop where
  before : ¬ path <+: k.path
  behind : ¬ k.path <+: path
  place : ∀ w i, k.part? = some w → ¬ [.word w, .place i] <+: path

/-- The paths of two knobs have nothing to do with each other. -/
theorem diverges_of_ne {j k : Knob} (h : j ≠ k) : k.Diverges j.path where
  before := by cases j <;> cases k <;> first | exact absurd rfl h | decide
  behind := by cases j <;> cases k <;> first | exact absurd rfl h | decide
  place w i _ := by cases j <;> simp [path, part?, List.cons_prefix_cons]

theorem path_ne_part {j k : Knob} {w : String} (h : j.part? = some w) : k.path ≠ [.word w] := by
  intro hk
  have hlead : k.path <+: j.path := by
    rw [hk, path_of_part?_eq_some h]
    exact ⟨[.word j.name], rfl⟩
  by_cases hjk : j = k
  · rw [← hjk, path_of_part?_eq_some h] at hk
    cases hk
  · exact (diverges_of_ne hjk).behind hlead

theorem name_ne_part {j k : Knob} {w : String} (h : j.part? = some w) (hk : k.part? = none) :
    k.name ≠ w := by
  rintro rfl
  exact path_ne_part h (path_of_part?_eq_none hk)

end Knob

/-- The path has nothing to do with any knob. -/
def Apart (path : List Step) : Prop := ∀ k : Knob, k.Diverges path

/-- An entry that gives knobs their values, or something that is no knob's. -/
inductive Proper : List Step × Setting → Prop
  /-- The value of a knob under its own path. -/
  | knob (k : Knob) (t : Setting) : Proper (k.path, t)
  /-- A table for one of the parts. -/
  | part {k : Knob} {w : String} (h : k.part? = some w) (es : Entries) :
      Proper ([.word w], .table es)
  /-- Something that no knob is read from. -/
  | apart {path : List Step} (h : Apart path) (t : Setting) : Proper (path, t)

/-- The path begins with a word, as every path does that a name stands for. -/
def Leads (path : List Step) : Prop := ∃ w rest, path = .word w :: rest

/-! ## Laying an entry

What can be read for a knob is looked up in the entries that have been laid so far.  There is one
lemma for each kind of a proper entry, and they come together in `seen?_lay_entry`. -/

/-- The entries of the table under a key. -/
def within (w : String) (es : Entries) : Entries := ((find? w es).map Setting.entries).getD []

/-- An entry changes what stands under the first word of its path, and nothing else. -/
theorem find?_lay (v w : String) (path : List Step) (t : Setting) (es : Entries) :
    find? v (lay es [(.word w :: path, t)])
      = if v = w then some (t.layAt path (find? w es)) else find? v es :=
  Setting.find?_put w v _ es

theorem within_lay_of_ne {v w : String} (h : v ≠ w) (path : List Step) (t : Setting)
    (es : Entries) : within v (lay es [(.word w :: path, t)]) = within v es := by
  rw [within, find?_lay, if_neg h, within]

/-- An entry with a path of two words changes one entry of the table under the first. -/
theorem within_lay (w v : String) (path : List Step) (t : Setting) (es : Entries) :
    within w (lay es [(.word w :: .word v :: path, t)])
      = put v (t.layAt path (find? v (within w es))) (within w es) := by
  rw [within, find?_lay, if_pos rfl]
  rfl

theorem within_lay_table (w : String) (inner es : Entries) :
    within w (lay es [([.word w], .table inner)]) = entriesOver inner (within w es) := by
  rw [within, find?_lay, if_pos rfl]
  rfl

namespace Knob

/-- Where the knob stands among the entries. -/
def at? (k : Knob) (es : Entries) : Option Setting :=
  match k.part? with
  | none => find? k.name es
  | some w => find? k.name (within w es)

/-- What is read for the knob, if anything stands there. -/
def seen? (k : Knob) (es : Entries) : Option (Option Datum) := (k.at? es).map k.read?

variable {k : Knob} {es : Entries}

theorem at?_of_part?_eq_none (h : k.part? = none) : k.at? es = find? k.name es := by
  rw [at?, h]

theorem at?_of_part?_eq_some {w : String} (h : k.part? = some w) :
    k.at? es = find? k.name (within w es) := by
  rw [at?, h]

/-- An entry apart from a knob leaves it where it is. -/
theorem at?_lay_of_diverges {path : List Step} (h : k.Diverges path) (hleads : Leads path)
    (t : Setting) : k.at? (lay es [(path, t)]) = k.at? es := by
  obtain ⟨v, rest, rfl⟩ := hleads
  cases hpart : k.part? with
  | none =>
    have hv : k.name ≠ v := by
      rintro rfl
      exact h.behind (by rw [path_of_part?_eq_none hpart]; exact ⟨rest, rfl⟩)
    rw [at?_of_part?_eq_none hpart, at?_of_part?_eq_none hpart, find?_lay, if_neg hv]
  | some w =>
    rw [at?_of_part?_eq_some hpart, at?_of_part?_eq_some hpart]
    -- In the part of the knob the entry has a word behind that of the part, and it is another one
    -- than the name of the knob.
    by_cases hw : w = v
    · subst hw
      match rest with
      | [] =>
        exact absurd ⟨[.word k.name], (path_of_part?_eq_some hpart).symm⟩ h.before
      | .place i :: rest => exact absurd ⟨rest, rfl⟩ (h.place w i hpart)
      | .word u :: rest =>
        have hu : k.name ≠ u := by
          rintro rfl
          exact h.behind (by rw [path_of_part?_eq_some hpart]; exact ⟨rest, rfl⟩)
        rw [within_lay, Setting.find?_put, if_neg hu]
    · rw [within_lay_of_ne hw]

theorem given?_of_diverges {path : List Step} (h : k.Diverges path) (t : Setting) :
    k.given? (path, t) = none := by
  rw [given?, if_neg, if_neg]
  · intro hpart
    obtain ⟨w, hw, rfl⟩ := Option.map_eq_some_iff.1 hpart
    exact h.before ⟨[.word k.name], (path_of_part?_eq_some hw).symm⟩
  · rintro rfl
    exact h.before (List.prefix_refl _)

/-- An entry with the path of a knob puts its value where the knob is looked up. -/
theorem at?_lay_path (k : Knob) (t : Setting) (es : Entries) :
    k.at? (lay es [(k.path, t)]) = some (t.layOver (k.at? es)) := by
  cases hpart : k.part? with
  | none =>
    rw [at?_of_part?_eq_none hpart, at?_of_part?_eq_none hpart, path_of_part?_eq_none hpart,
      find?_lay, if_pos rfl]
    rfl
  | some w =>
    rw [at?_of_part?_eq_some hpart, at?_of_part?_eq_some hpart, path_of_part?_eq_some hpart,
      within_lay, Setting.find?_put, if_pos rfl]
    rfl

/-- Of the entries of a table that have one name the last has its way. -/
theorem map_find?_entriesOver (k : Knob) (n : String) (inner below : Entries) :
    (find? n (entriesOver inner below)).map k.read?
      = ((inner.reverse.lookup n).map k.read?).or ((find? n below).map k.read?) := by
  induction inner generalizing below with
  | nil => rfl
  | cons e rest ih =>
    rw [entriesOver, ih, List.reverse_cons, List.lookup_append, Option.map_or, Option.or_assoc,
      Setting.find?_put, Setting.lookup_singleton]
    by_cases hn : n = e.1
    · rw [if_pos hn, if_pos hn, Option.map_some, Option.map_some, read?_layOver, Option.some_or]
    · rw [if_neg hn, if_neg hn, Option.map_none, Option.none_or]

theorem given?_table {w : String} (h : k.part? = some w) (inner : Entries) :
    k.given? ([.word w], .table inner) = inner.reverse.lookup k.name := by
  rw [given?, if_neg (path_ne_part h).symm, if_pos (by rw [h]; rfl)]
  rfl

/-- A table for a part gives nothing for a knob that does not stand in it. -/
theorem given?_table_of_ne {j : Knob} {w : String} (h : j.part? = some w) (hw : k.part? ≠ some w)
    (inner : Entries) : k.given? ([.word w], .table inner) = none := by
  rw [given?, if_neg (path_ne_part h).symm, if_neg]
  intro hpart
  obtain ⟨v, hv, heq⟩ := Option.map_eq_some_iff.1 hpart
  cases heq
  exact hw hv

/-- A table for a part changes the knobs that it has and no others. -/
theorem seen?_lay_table {j : Knob} {w : String} (h : j.part? = some w) (inner : Entries) :
    k.seen? (lay es [([.word w], .table inner)])
      = ((k.given? ([.word w], .table inner)).map k.read?).or (k.seen? es) := by
  by_cases hw : k.part? = some w
  · rw [given?_table hw, seen?, seen?, at?_of_part?_eq_some hw, at?_of_part?_eq_some hw,
      within_lay_table, map_find?_entriesOver]
  have hat : k.at? (lay es [([.word w], .table inner)]) = k.at? es := by
    cases hpart : k.part? with
    | none =>
      rw [at?_of_part?_eq_none hpart, at?_of_part?_eq_none hpart, find?_lay,
        if_neg (name_ne_part h hpart)]
    | some v =>
      have hv : v ≠ w := fun hv => hw (hv ▸ hpart)
      rw [at?_of_part?_eq_some hpart, at?_of_part?_eq_some hpart, within_lay_of_ne hv]
  rw [given?_table_of_ne h hw, seen?, seen?, hat, Option.map_none, Option.none_or]

/-- **What one entry does.**  What is read for a knob is what the entry gives for it, and what was
read before if the entry gives nothing. -/
theorem seen?_lay_entry {e : List Step × Setting} (h : Proper e) (hleads : Leads e.1) :
    k.seen? (lay es [e]) = ((k.given? e).map k.read?).or (k.seen? es) := by
  cases h with
  | knob j t =>
    by_cases hj : j = k
    · subst hj
      rw [seen?, at?_lay_path, given?, if_pos rfl, Option.map_some, read?_layOver]
      rfl
    · have hdiverges := diverges_of_ne hj
      rw [given?_of_diverges hdiverges, seen?, at?_lay_of_diverges hdiverges hleads]
      rfl
  | part h inner => exact seen?_lay_table h inner
  | apart h t =>
    rw [given?_of_diverges (h k), seen?, at?_lay_of_diverges (h k) hleads]
    rfl

/-- **What a layer does.**  The induction is on the layer from the front, so what the first entry
does is overlaid by what the rest gives. -/
theorem seen?_lay {l : Layer} (h : ∀ e ∈ l, Proper e) (hleads : ∀ e ∈ l, Leads e.1)
    (es : Entries) : k.seen? (lay es l) = ((k.value? l).map k.read?).or (k.seen? es) := by
  induction l generalizing es with
  | nil => rfl
  | cons e rest ih =>
    rw [List.forall_mem_cons] at h hleads
    have hstep : lay es (e :: rest) = lay (lay es [e]) rest := rfl
    rw [hstep, ih h.2 hleads.2, seen?_lay_entry h.1 hleads.1, value?_cons, Option.map_or,
      Option.or_assoc]

/-- **What all layers do.**  What is read for a knob is what the highest layer gives for it that
gives anything; `layers` has the lowest first. -/
theorem seen?_layers {layers : List Layer} (h : ∀ l ∈ layers, ∀ e ∈ l, Proper e)
    (hleads : ∀ l ∈ layers, ∀ e ∈ l, Leads e.1) (es : Entries) :
    k.seen? (layers.foldl lay es)
      = ((k.winner? layers.reverse).map k.read?).or (k.seen? es) := by
  induction layers generalizing es with
  | nil => rfl
  | cons l rest ih =>
    rw [List.forall_mem_cons] at h hleads
    rw [List.foldl_cons, ih h.2 hleads.2, seen?_lay h.1 hleads.1, winner?, winner?,
      List.reverse_cons, List.findSome?_append, List.findSome?_singleton, Option.map_or,
      Option.or_assoc]

end Knob

/-! ## The parts stay tables

A part can be read only if a table stands for it.  Proper entries make nothing else of it. -/

/-- What stands where a part belongs is a table. -/
def Housed (es : Entries) : Prop :=
  ∀ (k : Knob) (w : String) (t : Setting), k.part? = some w → find? w es = some t →
    ∃ inner, t = .table inner

/-- Whatever proper entry is laid over a part, a table comes of it: the entry has a word of the part
or is a table itself. -/
theorem layAt_eq_table {e : List Step × Setting} (h : Proper e) {k : Knob} {w : String}
    (hpart : k.part? = some w) {rest : List Step} (he : e.1 = .word w :: rest)
    (below : Option Setting) : ∃ inner, e.2.layAt rest below = .table inner := by
  cases h with
  -- The path of a knob without a part is a single word, and no part has that word.
  | knob j t =>
    cases hj : j.part? with
    | none =>
      have hpath := (Knob.path_of_part?_eq_none hj).symm.trans he
      cases hpath
      exact absurd rfl (Knob.name_ne_part hpart hj)
    | some v =>
      have hpath := (Knob.path_of_part?_eq_some hj).symm.trans he
      cases hpath
      exact ⟨_, rfl⟩
  | part hj inner =>
    cases he
    exact ⟨_, rfl⟩
  | apart h t =>
    subst he
    match rest with
    | [] => exact absurd ⟨[.word k.name], (Knob.path_of_part?_eq_some hpart).symm⟩ (h k).before
    | .place i :: rest => exact absurd ⟨rest, rfl⟩ ((h k).place w i hpart)
    | .word v :: rest => exact ⟨_, rfl⟩

theorem housed_lay_entry {e : List Step × Setting} (h : Proper e) (hleads : Leads e.1)
    {es : Entries} (hes : Housed es) : Housed (lay es [e]) := by
  intro k w t hpart hfind
  obtain ⟨v, rest, he⟩ := hleads
  have hlay : lay es [e] = lay es [(.word v :: rest, e.2)] := by rw [← he]
  rw [hlay, find?_lay] at hfind
  by_cases hw : w = v
  · rw [if_pos hw, Option.some.injEq] at hfind
    rw [← hfind]
    exact layAt_eq_table h hpart (hw ▸ he) _
  · rw [if_neg hw] at hfind
    exact hes k w t hpart hfind

theorem housed_lay {l : Layer} (h : ∀ e ∈ l, Proper e) (hleads : ∀ e ∈ l, Leads e.1)
    {es : Entries} (hes : Housed es) : Housed (lay es l) := by
  induction l generalizing es with
  | nil => exact hes
  | cons e rest ih =>
    rw [List.forall_mem_cons] at h hleads
    exact ih h.2 hleads.2 (housed_lay_entry h.1 hleads.1 hes)

theorem housed_layers {layers : List Layer} (h : ∀ l ∈ layers, ∀ e ∈ l, Proper e)
    (hleads : ∀ l ∈ layers, ∀ e ∈ l, Leads e.1) {es : Entries} (hes : Housed es) :
    Housed (layers.foldl lay es) := by
  induction layers generalizing es with
  | nil => exact hes
  | cons l rest ih =>
    rw [List.forall_mem_cons] at h hleads
    exact ih h.2 hleads.2 (housed_lay h.1 hleads.1 hes)

end Screening
