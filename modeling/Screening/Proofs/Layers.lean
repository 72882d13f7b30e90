import Mathlib.Data.List.Basic
import Screening.Proofs.Keys
import Screening.Proofs.Laying

/-!
# What the sources give

The layers are made of what the sources hold: the arguments of loading, up to three files, and the
variables.  Here each of them is asked for a knob directly, without its layer: which arguments set
it (`Knob.argument?`), where it is looked up in a file (`Knob.inFile?`), and which variable names it
(`Sources.inVariables?`).  For each source this is what its layer gives (`value?_baseLayer`,
`value?_of_regular`, `value?_variableLayer`).

A layer gives what its last entry gives, and a file is looked up from the front.  The two agree
because no key stands twice in a file (`Setting.once_of_ofToml?`).  With variables it is different:
two of them may have one name but for the case of its letters, and then the later one has its way.

Files and variables may hold more than knobs.  What they hold besides has to be apart from all
knobs, and a part is a table: `Regular` says so for an entry of a file.  A key of a file may be one
word or several with dots between them, if it is written in quotes; so a knob can stand under its
full name at the top of a file as well as under its own name in the table of its part.
`RegularFile` asks that it does not stand in both places.

## Files that are not there

A file that is not there gives nothing, but only if no other file stands in for it.
`Sources.Provides` says what the files give for a name without asking how they are read: there is a
TOML file of the name with these entries, or there is neither such a file nor one that has a
format's ending behind it.  What happens where another file does stand in is left open here.
-/

set_option autoImplicit false

namespace Screening

open Setting (find? ofVariable?)
open Sources (Layer baseLayer isNamed layerOf)

/-! ## Names

Files and variables do not have paths but texts, which are taken for paths when a layer is made. -/

/-- The full name of a knob, by which files and variables can tell it from all others. -/
def Knob.dotted : Knob → String
  | serviceName => "service_name"
  | environment => "environment"
  | host => "server.host"
  | port => "server.port"
  | observedName => "observability.service_name"
  | logLevel => "observability.log_level"
  | jsonLogs => "observability.json_logs"
  | metricsEnabled => "observability.metrics_enabled"
  | metricsPort => "observability.metrics_port"

/-- The full name of a knob stands for its path. -/
theorem path_dotted (k : Knob) : Setting.path k.dotted = k.path := by
  cases k <;> decide +kernel

/-- The name of a part stands for the part. -/
theorem path_part {k : Knob} {w : String} (h : k.part? = some w) :
    Setting.path w = [.word w] := by
  cases k <;> cases h <;> decide +kernel

/-- Two knobs have two names. -/
theorem dotted_injective {j k : Knob} (h : j.dotted = k.dotted) : j = k := by
  have hpath : j.path = k.path := by rw [← path_dotted j, h, path_dotted]
  by_contra hne
  exact (Knob.diverges_of_ne hne).before (hpath ▸ List.prefix_refl _)

/-- No knob is named like a part. -/
theorem dotted_ne_part {j k : Knob} {w : String} (h : j.part? = some w) : k.dotted ≠ w := by
  rintro rfl
  exact Knob.path_ne_part h ((path_dotted k).symm.trans (path_part h))

/-- Every name stands for a path that begins with a word. -/
theorem leads_path (name : String) : Leads (Setting.path name) := by
  have hword : Leads [.word name] := ⟨name, [], rfl⟩
  rw [Setting.path, Setting.steps?, if_neg (by simp), Setting.step?]
  split
  · rename_i hstep
    split at hstep
    · cases hstep
    · cases hstep
      split
      · cases hrest : Setting.steps? (name.toList.dropWhile Setting.isWordChar) with
        | none => exact hword
        | some steps => exact ⟨_, steps, rfl⟩
      · exact hword
  · exact hword

/-! ## Arguments -/

section Arguments

variable (service environment : String)

/-- What the arguments of loading give for the knob. -/
def Knob.argument? : Knob → Option Setting
  | .serviceName | .observedName => some (.text service)
  | .environment => some (.text environment)
  | _ => none

theorem value?_baseLayer (k : Knob) :
    k.value? (baseLayer service environment) = k.argument? service environment := by
  cases k <;> rfl

theorem leads_of_baseLayer : ∀ e ∈ baseLayer service environment, Leads e.1 := by
  simp [baseLayer, Leads]

theorem proper_of_baseLayer : ∀ e ∈ baseLayer service environment, Proper e := by
  intro e he
  obtain rfl | rfl | rfl : e = (Knob.serviceName.path, .text service) ∨
      e = (Knob.environment.path, .text environment) ∨
      e = (Knob.observedName.path, .text service) := by
    simpa [baseLayer, Knob.path, Knob.part?, Knob.name] using he
  all_goals exact .knob _ _

end Arguments

/-! ## Files -/

/-- What the files give for a stem: the entries of the file in TOML that is named for it, or nothing
if neither that file is there nor one that could stand in for it. -/
inductive Sources.Provides (s : Sources) (stem : String) : Entries → Prop
  | present {text : String} {es : Entries} (hnamed : isNamed stem = true)
      (hfile : s.files.lookup (stem ++ ".toml") = some text)
      (hread : Setting.ofToml? (Setting.withoutMark text) = some es) : s.Provides stem es
  | absent (hfile : s.files.lookup (stem ++ ".toml") = none)
      (hothers : ∀ format ∈ Setting.formats,
        s.files.lookup (stem ++ ".toml" ++ "." ++ format.1) = none) : s.Provides stem []

/-- An entry of a file that gives a knob its value under its full name, is a table for a part, or
has nothing to do with any knob. -/
inductive Regular : String × Setting → Prop
  /-- A value under the full name of a knob. -/
  | knob (k : Knob) (t : Setting) : Regular (k.dotted, t)
  /-- A table for one of the parts. -/
  | part {k : Knob} {w : String} (h : k.part? = some w) (es : Entries) : Regular (w, .table es)
  /-- Something else. -/
  | apart {key : String} (h : Apart (Setting.path key)) (t : Setting) : Regular (key, t)

/-- A file of such entries.  A knob has its value under its full name or in the table of its part
and not in both, since then it would not be said which of the two counts. -/
structure RegularFile (es : Entries) : Prop where
  /-- Every entry is regular. -/
  each : ∀ e ∈ es, Regular e
  /-- No knob stands in two places. -/
  once : ∀ (k : Knob) (w : String), k.part? = some w → find? k.dotted es ≠ none →
    find? k.name (within w es) = none

/-- What a file gives for the knob: what stands under its full name, or under its own name in the
table of its part. -/
def Knob.inFile? (k : Knob) (es : Entries) : Option Setting :=
  (find? k.dotted es).or (k.part?.bind fun w => find? k.name (within w es))

/-- The layer that the entries of a file make. -/
def layerOfEntries (es : Entries) : Layer := es.map fun (key, t) => (Setting.path key, t)

theorem leads_of_layerOfEntries (es : Entries) : ∀ e ∈ layerOfEntries es, Leads e.1 := by
  intro e he
  obtain ⟨⟨key, t⟩, -, rfl⟩ := List.mem_map.1 he
  exact leads_path key

theorem Regular.proper {e : String × Setting} (h : Regular e) : Proper (Setting.path e.1, e.2) := by
  cases h with
  | knob k t =>
    rw [path_dotted]
    exact .knob k t
  | part h es =>
    rw [path_part h]
    exact .part h es
  | apart h t => exact .apart h t

theorem within_cons_of_ne {w : String} {e : String × Setting} {rest : Entries} (h : e.1 ≠ w) :
    within w (e :: rest) = within w rest := by
  rw [within, within, find?, if_neg h]

/-- What is left without the first entry is regular, since no other entry has its key. -/
theorem RegularFile.tail {e : String × Setting} {rest : Entries} (h : RegularFile (e :: rest))
    (honce : Setting.Once (e :: rest)) : RegularFile rest where
  each f hf := h.each f (List.mem_cons_of_mem e hf)
  once k w hw hdotted := by
    by_cases he : e.1 = w
    · rw [within, ← he, Setting.find?_of_notMem (List.nodup_cons.1 honce.outer).1]
      rfl
    · rw [← within_cons_of_ne he]
      refine h.once k w hw ?_
      rw [find?]
      split
      · exact Option.some_ne_none _
      · exact hdotted

theorem RegularFile.proper {es : Entries} (h : RegularFile es) :
    ∀ e ∈ layerOfEntries es, Proper e := by
  intro e he
  obtain ⟨f, hf, rfl⟩ := List.mem_map.1 he
  exact (h.each f hf).proper

/-- The layer of a file is made of the entries that it provides. -/
theorem Sources.Provides.fileLayer {s : Sources} {stem : String} {es : Entries}
    (h : s.Provides stem es) : s.fileLayer stem = .ok (layerOfEntries es) := by
  rw [Sources.fileLayer]
  cases h with
  | present hnamed hfile hread =>
    simp only [hfile, hnamed, if_true, layerOf, hread]
    rfl
  | absent hfile hothers =>
    simp only [hfile]
    split
    · rename_i hfound
      obtain ⟨e, he, hread⟩ := List.exists_of_findSome?_eq_some hfound
      obtain ⟨format, hformat, rfl⟩ := List.mem_map.1 he
      simp [hothers format hformat] at hread
    · rfl

/-- No key stands twice in what a file gives. -/
theorem Sources.Provides.once {s : Sources} {stem : String} {es : Entries}
    (h : s.Provides stem es) : Setting.Once es := by
  cases h with
  | present hnamed hfile hread => exact Setting.once_of_ofToml? hread
  | absent hfile hothers => exact ⟨List.nodup_nil, List.forall_mem_nil _⟩

namespace Knob

variable {k : Knob}

/-- What a regular entry gives, in terms of its key instead of the path that the key stands for. -/
theorem given?_of_regular {e : String × Setting} (h : Regular e) (hkeys : e.2.keys.Nodup) :
    k.given? (Setting.path e.1, e.2)
      = if e.1 = k.dotted then some e.2
        else if k.part? = some e.1 then find? k.name e.2.entries else none := by
  cases h with
  | knob j t =>
    have hpart : k.part? ≠ some j.dotted := fun h => dotted_ne_part h rfl
    rw [path_dotted, if_neg hpart]
    by_cases hj : j = k
    · rw [hj, given?, if_pos rfl, if_pos rfl]
    · rw [given?_of_diverges (diverges_of_ne hj), if_neg fun h => hj (dotted_injective h)]
  | @part j w h inner =>
    rw [path_part h, if_neg (dotted_ne_part h).symm]
    by_cases hw : k.part? = some w
    · rw [given?_table hw, if_pos hw]
      exact Setting.lookup_reverse hkeys
    · rw [given?_table_of_ne h hw, if_neg hw]
  | @apart key h t =>
    have hdotted : key ≠ k.dotted := by
      rintro rfl
      exact (h k).before (path_dotted k ▸ List.prefix_refl _)
    have hpart : k.part? ≠ some key := by
      intro hpart
      refine (h k).before ?_
      rw [path_part hpart, path_of_part?_eq_some hpart]
      exact ⟨[.word k.name], rfl⟩
    rw [given?_of_diverges (h k), if_neg hdotted, if_neg hpart]

/-- **What the layer of a file gives is what is looked up in the file.** -/
theorem value?_of_regular {es : Entries} (h : RegularFile es) (honce : Setting.Once es) :
    k.value? (layerOfEntries es) = k.inFile? es := by
  induction es with
  | nil => cases k <;> rfl
  | cons e rest ih =>
    have hlayer : layerOfEntries (e :: rest)
        = (Setting.path e.1, e.2) :: layerOfEntries rest := rfl
    have hkey : find? e.1 rest = none :=
      Setting.find?_of_notMem (List.nodup_cons.1 honce.outer).1
    rw [hlayer, value?_cons, ih (h.tail honce) honce.tail, given?_of_regular
      (h.each e List.mem_cons_self) (honce.inner e List.mem_cons_self), inFile?, inFile?, find?]
    -- Behind the first entry there is nothing under its key, so if it is the one that is looked up
    -- nothing else gives a value: by its full name by `once`, and in its part by `hkey`.
    by_cases hdotted : e.1 = k.dotted
    · rw [if_pos hdotted, if_pos hdotted, ← hdotted, hkey, Option.none_or, Option.some_or]
      have hpart : (k.part?.bind fun w => find? k.name (within w rest)) = none := by
        refine Option.bind_eq_none_iff.2 fun w hw => ?_
        rw [← within_cons_of_ne (hdotted.trans_ne (dotted_ne_part hw))]
        exact h.once k w hw (by rw [find?, if_pos hdotted]; exact Option.some_ne_none _)
      rw [hpart, Option.none_or]
    · rw [if_neg hdotted, if_neg hdotted]
      cases hpart : k.part? with
      | none => simp
      | some w =>
        by_cases hw : w = e.1
        · subst hw
          simp [within, find?, hkey]
        · simp [within_cons_of_ne (Ne.symm hw), hw]

end Knob

/-! ## Variables

A variable has a name and a text.  Names begin with a prefix that is dropped, and two underscores in
them stand for a dot. -/

/-- What the variables give for the knob: the value of the last one that has its name. -/
def Sources.inVariables? (s : Sources) (k : Knob) : Option Setting :=
  (s.vars.reverse.find? fun v => ofVariable? v.1 = some k.dotted).map fun v => Setting.ofText v.2

/-- A variable that gives a setting gives one that is a knob's or has nothing to do with any. -/
def Sources.RegularVariables (s : Sources) : Prop :=
  ∀ v ∈ s.vars, ∀ name, ofVariable? v.1 = some name →
    (∃ k : Knob, name = k.dotted) ∨ Apart (Setting.path name)

theorem leads_of_variableLayer (s : Sources) : ∀ e ∈ s.variableLayer, Leads e.1 := by
  intro e he
  obtain ⟨v, -, hv⟩ := List.mem_filterMap.1 he
  obtain ⟨name, -, rfl⟩ := Option.map_eq_some_iff.1 hv
  exact leads_path name

/-- A variable holds no table. -/
theorem entries_ofText (text : String) : (Setting.ofText text).entries = [] := by
  rw [Setting.ofText]
  split
  · rfl
  split
  · rfl
  split
  · rfl
  split <;> rfl

namespace Sources.RegularVariables

variable {s : Sources}

/-- A variable sets a knob as an entry of a file would that has its full name for a key. -/
theorem regular (h : s.RegularVariables) {v : String × String} (hv : v ∈ s.vars) {name : String}
    (hname : ofVariable? v.1 = some name) : Regular (name, Setting.ofText v.2) := by
  obtain ⟨k, rfl⟩ | hapart := h v hv name hname
  · exact .knob k _
  · exact .apart hapart _

theorem proper (h : s.RegularVariables) : ∀ e ∈ s.variableLayer, Proper e := by
  intro e he
  obtain ⟨v, hv, hsetting⟩ := List.mem_filterMap.1 he
  obtain ⟨name, hname, rfl⟩ := Option.map_eq_some_iff.1 hsetting
  exact (h.regular hv hname).proper

end Sources.RegularVariables

/-- **What the layer of the variables gives is what the last variable gives that names the knob.**
-/
theorem value?_variableLayer {s : Sources} (h : s.RegularVariables) (k : Knob) :
    k.value? s.variableLayer = s.inVariables? k := by
  obtain ⟨files, vars⟩ := s
  induction vars with
  | nil => rfl
  | cons v rest ih =>
    have hrest := ih (List.forall_mem_cons.1 h).2
    simp only [Sources.inVariables?, Sources.variableLayer] at hrest ⊢
    rw [List.reverse_cons, List.find?_append, Option.map_or, ← hrest, List.filterMap_cons]
    cases hname : ofVariable? v.1 with
    | none => simp [hname]
    | some name =>
      have hregular := h.regular List.mem_cons_self hname
      have hkeys : (Setting.ofText v.2).keys = [] := by rw [Setting.keys, entries_ofText]; rfl
      have hgiven : k.given? (Setting.path name, Setting.ofText v.2)
          = if name = k.dotted then some (Setting.ofText v.2) else none := by
        rw [Knob.given?_of_regular hregular (hkeys ▸ List.nodup_nil), entries_ofText, find?,
          ite_self]
      rw [Option.map_some]
      dsimp only
      rw [Knob.value?_cons, hgiven]
      by_cases hdotted : name = k.dotted <;> simp [hname, hdotted]

end Screening
