import Mathlib
import Screening.Proofs.Layers

/-!
# Which layer has its way

When all layers have been laid, each knob is read from what the highest source gives for it that
gives anything, and keeps its default where none does (`Sources.load_layered`).  Only that one value
has to fit: what lower sources give for the knob is not looked at, and no source changes a knob that
it gives nothing for.  If one such value does not fit, loading fails, and nothing else makes it fail
once the files have been read.  The port set by a variable of its own comes after all this: it takes
the place of a port that has been read, and does not help where none could be.

The way there is in three steps.

* `Screening.Proofs.Laying` says what can be read for a knob once some layers have been laid,
  whatever the layers are made of.
* `Screening.Proofs.Layers` says what the layers give, source by source: for the files and the
  variables in terms of their own keys and names.
* Here the settings are read, part by part and field by field, and each field is one knob.  So
  reading succeeds if and only if every knob can be read, and then every knob has the value that was
  read for it (`reads?_of_ofEntries?`, `exists_ofEntries?`).

## What is asked of the sources

A file that is there has to be TOML, and one that is not there must not have another file in its
place (`Sources.Provides`).  What files and variables hold besides knobs has to be apart from all
knobs.  That is more than not to lead to a knob and not to lead on from one: a path that goes on
from a part with a place in brackets does neither, but it makes a list of the part, and what lower
layers have put into the table is gone (`Sources.load_of_place_in_part`).
-/

set_option autoImplicit false

namespace Screening

open Setting (find? ofVariable? toText? toFlag? toPort?)
open Sources (Layer lay baseLayer)

/-! ## Reading the settings

Settings are read by one function for each part.  The lemmas here take them apart into their fields,
which are all read in the same way, and identify the fields with the knobs. -/

/-- What the settings have for the knob if they are read from the entries. -/
def Knob.reads? (k : Knob) (es : Entries) : Option Datum :=
  (k.seen? es).getD (some (({} : Settings).get k))

/-- What is read from a key is what stands under it, if that fits, or the default. -/
theorem reads?_of_read {α : Type} {ofSetting? : Setting → Option α} (datum : α → Datum)
    {key : String} {d a : α} {es : Entries} (h : Setting.read ofSetting? key d es = some a) :
    ((find? key es).map fun t => (ofSetting? t).map datum).getD (some (datum d))
      = some (datum a) := by
  rw [Setting.read] at h
  split at h
  · rename_i t hfind
    rw [hfind, Option.map_some, h]
    rfl
  · rename_i hfind
    cases h
    rw [hfind]
    rfl

/-- The other way round, a key can be read as soon as its knob can. -/
theorem exists_read {α : Type} {ofSetting? : Setting → Option α} {datum : α → Datum}
    {key : String} {d : α} {es : Entries}
    (h : ∃ x, ((find? key es).map fun t => (ofSetting? t).map datum).getD (some (datum d))
      = some x) :
    ∃ a, Setting.read ofSetting? key d es = some a := by
  obtain ⟨x, h⟩ := h
  rw [Setting.read]
  split
  · rename_i t hfind
    rw [hfind, Option.map_some, Option.getD_some] at h
    obtain ⟨a, ha, -⟩ := Option.map_eq_some_iff.1 h
    exact ⟨a, ha⟩
  · exact ⟨d, rfl⟩

/-- A part is read from its table, and a part that is not there as if it were an empty one. -/
theorem read_part {α : Type} (ofSetting? : Setting → Option α) {d : α}
    (hd : ofSetting? (.table []) = some d) {k : Knob} {w : String} (hpart : k.part? = some w)
    {es : Entries} (h : Housed es) :
    Setting.read ofSetting? w d es = ofSetting? (.table (within w es)) := by
  rw [Setting.read, within]
  cases hfind : find? w es with
  | none => exact hd.symm
  | some t =>
    obtain ⟨inner, rfl⟩ := h k w t hpart hfind
    rfl

theorem listener_eq_some_iff {es : Entries} {l : Listener} :
    Listener.ofSetting? (.table es) = some l ↔
      Setting.read toText? "host" "0.0.0.0" es = some l.host ∧
        Setting.read toPort? "port" 3000 es = some l.port := by
  simp only [Listener.ofSetting?, Setting.part?, Option.bind_eq_bind, Option.bind_eq_some_iff,
    Option.some.injEq, Option.pure_def]
  constructor
  · rintro ⟨_, rfl, host, hhost, port, hport, rfl⟩
    exact ⟨hhost, hport⟩
  · rintro ⟨hhost, hport⟩
    exact ⟨_, rfl, _, hhost, _, hport, rfl⟩

theorem observability_eq_some_iff {es : Entries} {o : Observability} :
    Observability.ofSetting? (.table es) = some o ↔
      Setting.read toText? "service_name" "rule-service" es = some o.serviceName ∧
        Setting.read toText? "log_level" "info" es = some o.logLevel ∧
        Setting.read toFlag? "json_logs" false es = some o.jsonLogs ∧
        Setting.read toFlag? "metrics_enabled" true es = some o.metricsEnabled ∧
        Setting.read toPort? "metrics_port" 9090 es = some o.metricsPort := by
  simp only [Observability.ofSetting?, Setting.part?, Option.bind_eq_bind,
    Option.bind_eq_some_iff, Option.some.injEq, Option.pure_def]
  constructor
  · rintro ⟨_, rfl, name, hname, level, hlevel, json, hjson, enabled, henabled, port, hport, rfl⟩
    exact ⟨hname, hlevel, hjson, henabled, hport⟩
  · rintro ⟨hname, hlevel, hjson, henabled, hport⟩
    exact ⟨_, rfl, _, hname, _, hlevel, _, hjson, _, henabled, _, hport, rfl⟩

/-- Settings are read part by part, if what stands for the parts are tables. -/
theorem ofEntries?_eq_some_iff {es : Entries} (h : Housed es) {s : Settings} :
    Settings.ofEntries? es = some s ↔
      Setting.read toText? "service_name" "rule-service" es = some s.serviceName ∧
        Setting.read toText? "environment" "development" es = some s.environment ∧
        Listener.ofSetting? (.table (within "server" es)) = some s.server ∧
        Observability.ofSetting? (.table (within "observability" es)) = some s.observability := by
  rw [← read_part Listener.ofSetting? (d := {}) (k := .host) rfl rfl h,
    ← read_part Observability.ofSetting? (d := {}) (k := .logLevel) rfl rfl h]
  simp only [Settings.ofEntries?, Option.bind_eq_bind, Option.bind_eq_some_iff, Option.some.injEq,
    Option.pure_def]
  constructor
  · rintro ⟨name, hname, environment, henvironment, server, hserver, o, ho, rfl⟩
    exact ⟨hname, henvironment, hserver, ho⟩
  · rintro ⟨hname, henvironment, hserver, ho⟩
    exact ⟨_, hname, _, henvironment, _, hserver, _, ho, rfl⟩

/-- If the settings can be read, every knob has been.  With `exists_ofEntries?` this turns reading
the settings into reading the knobs, and no field is looked at again. -/
theorem reads?_of_ofEntries? {es : Entries} {s : Settings} (hes : Housed es)
    (h : Settings.ofEntries? es = some s) (k : Knob) : k.reads? es = some (s.get k) := by
  obtain ⟨hname, henvironment, hserver, ho⟩ := (ofEntries?_eq_some_iff hes).1 h
  obtain ⟨hhost, hport⟩ := listener_eq_some_iff.1 hserver
  obtain ⟨hobserved, hlevel, hjson, henabled, hmetrics⟩ := observability_eq_some_iff.1 ho
  cases k with
  | serviceName => exact reads?_of_read .text hname
  | environment => exact reads?_of_read .text henvironment
  | host => exact reads?_of_read .text hhost
  | port => exact reads?_of_read .port hport
  | observedName => exact reads?_of_read .text hobserved
  | logLevel => exact reads?_of_read .text hlevel
  | jsonLogs => exact reads?_of_read .flag hjson
  | metricsEnabled => exact reads?_of_read .flag henabled
  | metricsPort => exact reads?_of_read .port hmetrics

/-- If every knob can be read, so can the settings. -/
theorem exists_ofEntries? {es : Entries} (hes : Housed es)
    (h : ∀ k : Knob, ∃ x, k.reads? es = some x) : ∃ s, Settings.ofEntries? es = some s := by
  obtain ⟨name, hname⟩ := exists_read (h .serviceName)
  obtain ⟨environment, henvironment⟩ := exists_read (h .environment)
  obtain ⟨host, hhost⟩ := exists_read (h .host)
  obtain ⟨port, hport⟩ := exists_read (h .port)
  obtain ⟨observed, hobserved⟩ := exists_read (h .observedName)
  obtain ⟨level, hlevel⟩ := exists_read (h .logLevel)
  obtain ⟨json, hjson⟩ := exists_read (h .jsonLogs)
  obtain ⟨enabled, henabled⟩ := exists_read (h .metricsEnabled)
  obtain ⟨metrics, hmetrics⟩ := exists_read (h .metricsPort)
  have hserver := listener_eq_some_iff (l := ⟨host, port⟩).2 ⟨hhost, hport⟩
  have ho := observability_eq_some_iff (o := ⟨observed, level, json, enabled, metrics⟩).2
    ⟨hobserved, hlevel, hjson, henabled, hmetrics⟩
  exact ⟨⟨name, environment, _, _⟩,
    (ofEntries?_eq_some_iff hes).2 ⟨hname, henvironment, hserver, ho⟩⟩

/-! ## Loading

The files have been read, and what they give is known.  It is put together with what the laying of
layers does to a knob. -/

/-- The settings have for the knob what is read from a setting, or the default if there is none. -/
def Settings.Holds (s : Settings) (k : Knob) : Option Setting → Prop
  | some t => k.read? t = some (s.get k)
  | none => s.get k = ({} : Settings).get k

section Layers

variable {layers : List Layer} (h : ∀ l ∈ layers, ∀ e ∈ l, Proper e)
  (hleads : ∀ l ∈ layers, ∀ e ∈ l, Leads e.1)

include h hleads

theorem housed_all : Housed (layers.foldl lay []) :=
  housed_layers h hleads fun _ _ _ _ hfind => by cases hfind

theorem reads?_all (k : Knob) :
    k.reads? (layers.foldl lay [])
      = ((k.winner? layers.reverse).map k.read?).getD (some (({} : Settings).get k)) := by
  have hnone : k.seen? [] = none := by cases k <;> rfl
  rw [Knob.reads?, Knob.seen?_layers h hleads, hnone, Option.or_none]

/-- One value that wins and does not fit is enough for nothing to be read. -/
theorem ofEntries?_all_eq_none {k : Knob} {t : Setting}
    (hwinner : k.winner? layers.reverse = some t) (hunfit : k.read? t = none) :
    Settings.ofEntries? (layers.foldl lay []) = none := by
  by_contra hsome
  obtain ⟨settings, hsettings⟩ := Option.ne_none_iff_exists'.1 hsome
  have hreads := reads?_of_ofEntries? (housed_all h hleads) hsettings k
  rw [reads?_all h hleads, hwinner, Option.map_some, hunfit] at hreads
  cases hreads

/-- Where all values fit that win, the settings have them. -/
theorem exists_ofEntries?_all
    (hfit : ∀ (k : Knob) (t : Setting), k.winner? layers.reverse = some t → k.read? t ≠ none) :
    ∃ settings, Settings.ofEntries? (layers.foldl lay []) = some settings ∧
      ∀ k : Knob, settings.Holds k (k.winner? layers.reverse) := by
  have hreads (k : Knob) : ∃ x, k.reads? (layers.foldl lay []) = some x := by
    rw [reads?_all h hleads]
    cases hwinner : k.winner? layers.reverse with
    | none => exact ⟨_, rfl⟩
    | some t => exact Option.ne_none_iff_exists'.1 (hfit k t hwinner)
  obtain ⟨settings, hsettings⟩ := exists_ofEntries? (housed_all h hleads) hreads
  refine ⟨settings, hsettings, fun k => ?_⟩
  have hget := reads?_of_ofEntries? (housed_all h hleads) hsettings k
  rw [reads?_all h hleads] at hget
  cases hwinner : k.winner? layers.reverse with
  | none =>
    rw [hwinner] at hget
    exact (Option.some.inj hget).symm
  | some t =>
    rw [hwinner] at hget
    exact hget

end Layers

theorem Settings.get_setPort {k : Knob} (h : k ≠ .port) (s : Settings) (port : UInt16) :
    Settings.get { s with server := { s.server with port } } k = s.get k := by
  cases k <;> first | rfl | exact absurd rfl h

theorem Settings.Holds.setPort {s : Settings} {k : Knob} {t? : Option Setting} (h : k ≠ .port)
    (hs : s.Holds k t?) (port : UInt16) :
    Settings.Holds { s with server := { s.server with port } } k t? := by
  cases t? with
  | none => exact (get_setPort h s port).trans hs
  | some t => exact Eq.trans hs (congrArg some (get_setPort h s port).symm)

namespace Sources

variable {s : Sources} {service environment : String} {ofDefault ofEnvironment ofService : Entries}

theorem layers_eq (hdefault : s.Provides "default" ofDefault)
    (henvironment : s.Provides environment ofEnvironment)
    (hservice : s.Provides service ofService) :
    s.layers service environment
      = .ok [baseLayer service environment, layerOfEntries ofDefault,
        layerOfEntries ofEnvironment, layerOfEntries ofService, s.variableLayer] := by
  simp only [layers, List.mapM_cons, List.mapM_nil, hdefault.fileLayer, henvironment.fileLayer,
    hservice.fileLayer]
  rfl

/-- Of the two variables for the port the first one goes before the second, if it holds a port. -/
theorem port?_eq (s : Sources) :
    s.port? = (s.portIn? "RULE_SERVICE_PORT").or (s.portIn? "PORT") := by
  rw [port?, List.findSome?_cons, List.findSome?_singleton]
  cases s.portIn? "RULE_SERVICE_PORT" <;> rfl

theorem load_of_none {layers : List Layer} (hlayers : s.layers service environment = .ok layers)
    (h : Settings.ofEntries? (layers.foldl lay []) = none) :
    s.load service environment = .error .value := by
  simp only [load, hlayers, bind, Except.bind, h]
  rfl

theorem load_of_some {layers : List Layer} {settings : Settings}
    (hlayers : s.layers service environment = .ok layers)
    (h : Settings.ofEntries? (layers.foldl lay []) = some settings) :
    s.load service environment
      = match s.port? with
        | some port => .ok { settings with server := { settings.server with port } }
        | none => .ok settings := by
  simp only [load, hlayers, bind, Except.bind, h]
  rfl

/-- A file that has nothing but a table for one of the parts is regular, whatever there is in the
table. -/
theorem regularFile_of_part {k : Knob} {w : String} (h : k.part? = some w) (inner : Entries) :
    RegularFile [(w, .table inner)] where
  each := by
    rw [List.forall_mem_singleton]
    exact .part h inner
  once j v hv hdotted := by
    rw [find?, if_neg (dotted_ne_part h).symm] at hdotted
    exact absurd rfl hdotted

end Sources

end Screening
