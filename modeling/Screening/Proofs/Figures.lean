import Mathlib.Data.List.Infix
import Screening.Metrics.Exposition

/-!
# Reading figures off the text

The text of the figures has lines on what families mean, blank lines, and lines with samples, which
begin with the name of the sample.  So a counter is read off by its name: the lines that begin with
`service_starts_total` are the samples of that counter, whatever else there is and however the
quantiles are estimated (`Ledger.filter_exposition`).

For this two things are needed.

* A line is one line.  The labels of a sample are texts that come from outside, and one with a line
  break in it could fake any sample.  In the text the breaks are written out, so there are none in a
  line (`Ledger.oneLine_exposition`).
* No other line begins like that.  Two texts that a third one begins with are such that one of them
  begins with the other (`List.prefix_or_prefix_of_prefix`), and neither is the case for the names
  of two families, or for a name and the sign in front of a meaning or a kind.
-/

set_option autoImplicit false

namespace Screening.Metrics

/-! ## One line each

What has to be gone through are the pieces that a line is made of: names, which are fixed, figures,
and the values of labels. -/

/-- There is no line break in the text. -/
def OneLine (s : String) : Prop := '\n' ∉ s.toList

instance (s : String) : Decidable (OneLine s) := inferInstanceAs (Decidable ('\n' ∉ s.toList))

namespace OneLine

theorem ofList {cs : List Char} (h : '\n' ∉ cs) : OneLine (String.ofList cs) := by
  rwa [OneLine, String.toList_ofList]

theorem append {s t : String} (hs : OneLine s) (ht : OneLine t) : OneLine (s ++ t) := by
  rw [OneLine, String.toList_append, List.mem_append, not_or]
  exact ⟨hs, ht⟩

/-- Pieces that are put together with something between them make one line if all of them are one.
-/
theorem intercalate {s : String} {ts : List String} (hs : OneLine s) (hts : ∀ t ∈ ts, OneLine t) :
    OneLine (s.intercalate ts) := by
  induction ts with
  | nil => exact List.not_mem_nil
  | cons t rest ih =>
    obtain ⟨ht, hrest⟩ := List.forall_mem_cons.1 hts
    cases rest with
    | nil => rwa [String.intercalate_singleton]
    | cons u rest =>
      rw [String.intercalate_cons_cons]
      exact (ht.append hs).append (ih hrest)

end OneLine

theorem not_mem_toDigits (n : Nat) : '\n' ∉ Nat.toDigits 10 n := fun h =>
  absurd (Nat.isDigit_of_mem_toDigits (by decide) (by decide) h) (by decide)

theorem oneLine_natText (n : Nat) : OneLine (natText n) := .ofList (not_mem_toDigits n)

theorem oneLine_zeros (n : Nat) : OneLine (Shortest.zeros n) :=
  .ofList fun h => absurd (List.eq_of_mem_replicate h) (by decide)

theorem oneLine_positional (d : Shortest) : OneLine d.positional := by
  have hdigits := not_mem_toDigits d.significand
  rw [Shortest.positional]
  split
  · exact (OneLine.ofList hdigits).append (oneLine_zeros _)
  split
  · exact ((OneLine.ofList fun h => hdigits (List.mem_of_mem_take h)).append (by decide)).append
      (.ofList fun h => hdigits (List.mem_of_mem_drop h))
  · exact (OneLine.append (by decide) (oneLine_zeros _)).append (.ofList hdigits)

/-- A figure is a number, and there are names for those that are none. -/
theorem oneLine_toText (x : Real64) : OneLine x.toText := by
  cases x with
  | finite x =>
    rw [Real64.toText, Binary64.toPositional, Binary64.sign]
    refine .append (by split <;> decide) ?_
    split
    · decide
    · exact oneLine_positional _
  | infinite negative => cases negative <;> decide
  | undefined => decide

/-- What is written out has no line break in it, whatever has been held back before. -/
theorem not_mem_escapeFrom (held : Bool) (cs : List Char) : '\n' ∉ escapeFrom held cs := by
  fun_induction escapeFrom held cs with
  | case1 | case2 => decide
  | case3 held rest ih | case4 held rest ih => simpa using ih
  | case5 rest ih => simpa using ih
  | case6 held rest hheld ih => exact ih
  | case7 held c rest hbreak hquote hslash ih =>
    have hc : '\n' ≠ c := fun h => hbreak h.symm
    cases held <;> simpa [hc] using ih

/-- Line breaks in a label value are written out. -/
theorem oneLine_escape (s : String) : OneLine (escape s) := .ofList (not_mem_escapeFrom _ _)

/-- Nothing in the sample has a line break but perhaps the values of its labels. -/
structure Sample.Plain (s : Sample) : Prop where
  name : OneLine s.name
  labels : ∀ name ∈ s.labels.map Prod.fst, OneLine name
  figure : OneLine s.figure

/-- The values of the labels are written out, and there is no line break anywhere else. -/
theorem Sample.Plain.oneLine {s : Sample} (h : s.Plain) : OneLine s.toLine := by
  rw [Sample.toLine]
  refine (((h.name.append (by decide)).append (.intercalate (by decide) ?_)).append
    (by decide)).append h.figure
  intro t ht
  obtain ⟨l, hl, rfl⟩ := List.mem_map.1 ht
  have hname : OneLine l.1 := h.labels l.1 (List.mem_map_of_mem hl)
  exact ((hname.append (by decide)).append (oneLine_escape _)).append (by decide)

/-- Nothing in the family has a line break but perhaps the values of labels. -/
structure Family.Plain (f : Family) : Prop where
  name : OneLine f.name
  meaning : ∀ meaning ∈ f.meaning.toList, OneLine meaning
  samples : ∀ s ∈ f.samples, s.Plain

/-- All lines about a family are single lines. -/
theorem Family.Plain.oneLine {f : Family} (h : f.Plain) : ∀ line ∈ f.lines, OneLine line := by
  simp only [Family.lines, List.mem_append, List.mem_cons, List.mem_map, Option.mem_toList,
    Option.map_eq_some_iff, List.not_mem_nil, or_false]
  rintro line ((⟨meaning, hmeaning, rfl⟩ | rfl | ⟨s, hs, rfl⟩) | rfl)
  · refine ((OneLine.append (by decide) h.name).append (by decide)).append ?_
    exact h.meaning _ (Option.mem_toList.2 hmeaning)
  · refine ((OneLine.append (by decide) h.name).append (by decide)).append ?_
    cases f.kind <;> decide
  · exact (h.samples s hs).oneLine
  · decide

section Plain

variable {κ : Type} {name : String} {meaning : Option String}
  {pairs : κ → List (String × String)} (hname : OneLine name)
  (hmeaning : ∀ m ∈ meaning.toList, OneLine m)
  (hpairs : ∀ k, ∀ label ∈ (pairs k).map Prod.fst, OneLine label)

include hname hmeaning hpairs

/-- A counter has no line break if its names have none. -/
theorem plain_counter (t : Tally κ) : (counter name meaning pairs t).Plain where
  name := hname
  meaning := hmeaning
  samples s hs := by
    obtain ⟨⟨k, n⟩, -, rfl⟩ := List.mem_map.1 hs
    exact ⟨hname, hpairs k, oneLine_natText n⟩

/-- A summary has none either; its samples have an ending or a quantile besides. -/
theorem plain_summary (estimate : Estimate) (t : Summaries κ) :
    (summary estimate name meaning pairs t).Plain where
  name := hname
  meaning := hmeaning
  samples s hs := by
    obtain ⟨⟨k, u⟩, -, hs⟩ := List.mem_flatMap.1 hs
    obtain hs | hs := List.mem_append.1 hs
    · obtain ⟨q, -, rfl⟩ := List.mem_map.1 hs
      refine ⟨hname, fun label hlabel => ?_, oneLine_toText _⟩
      rw [List.map_append, List.mem_append] at hlabel
      obtain hlabel | hlabel := hlabel
      · exact hpairs k label hlabel
      · rw [List.mem_singleton.1 hlabel]
        exact (by decide : OneLine "quantile")
    · obtain rfl | hs := List.mem_cons.1 hs
      · exact ⟨hname.append (by decide), hpairs k, oneLine_toText _⟩
      · rw [List.mem_singleton.1 hs]
        exact ⟨hname.append (by decide), hpairs k, oneLine_natText _⟩

end Plain

/-- **A line of the exposition is one line of the text**, whatever the labels are. -/
theorem Ledger.oneLine_exposition (l : Ledger) (estimate : Estimate) :
    ∀ line ∈ l.exposition estimate, OneLine line := by
  intro line hline
  obtain ⟨f, hf, hline⟩ := List.mem_flatMap.1 hline
  have hplain : ∀ f ∈ l.families estimate, f.Plain := by
    simp only [families, List.forall_mem_cons]
    have hrequest : ∀ k, ∀ label ∈ (RequestLabels.pairs k).map Prod.fst, OneLine label := fun _ =>
      (by decide : ∀ label ∈ ["method", "path", "status"], OneLine label)
    have hoperation : ∀ k, ∀ label ∈ (OperationLabels.pairs k).map Prod.fst, OneLine label :=
      fun _ => (by decide : ∀ label ∈ ["operation", "outcome"], OneLine label)
    have hone {key : String} (hkey : OneLine key) :
        ∀ value : String, ∀ label ∈ [(key, value)].map Prod.fst, OneLine label := fun _ =>
      List.forall_mem_singleton.2 hkey
    exact ⟨plain_counter (by decide) (by decide) hrequest _,
      plain_counter (by decide) (by decide) hoperation _,
      plain_counter (by decide) (by decide) (hone (by decide)) _,
      plain_summary (by decide) (by decide) hrequest _ _,
      plain_summary (by decide) (by decide) (hone (by decide)) _ _, List.forall_mem_nil _⟩
  exact (hplain f (List.mem_of_mem_filter hf)).oneLine line hline

/-! ## What lines begin with -/

/-- The line begins with the text. -/
def Begins (p line : String) : Prop := p.toList <+: line.toList

instance (p line : String) : Decidable (Begins p line) :=
  inferInstanceAs (Decidable (p.toList <+: line.toList))

theorem begins_append (p line : String) : Begins p (p ++ line) := by
  rw [Begins, String.toList_append]
  exact List.prefix_append _ _

theorem Begins.append {p line : String} (h : Begins p line) (more : String) :
    Begins p (line ++ more) := by
  rw [Begins, String.toList_append]
  exact h.trans (List.prefix_append _ _)

/-- Neither text begins with the other, so that no line begins with both. -/
structure Unlike (p q : String) : Prop where
  left : ¬ Begins p q
  right : ¬ Begins q p

theorem Unlike.not_begins {p q line : String} (h : Unlike p q) (hq : Begins q line) :
    ¬ Begins p line := fun hp =>
  (List.prefix_or_prefix_of_prefix hp hq).elim h.left h.right

theorem begins_toLine (s : Sample) : Begins s.name s.toLine := by
  rw [Sample.toLine]
  exact (((begins_append _ _).append _).append _).append _

/-! ## Families

A family is asked for the lines that begin with some name.  It has none of them if its own name is
unlike that, and its samples if it is that. -/

section Families

variable {κ : Type} {name p : String} {meaning : Option String}
  {pairs : κ → List (String × String)}

theorem name_of_mem_counter {t : Tally κ} {s : Sample}
    (h : s ∈ (counter name meaning pairs t).samples) : s.name = name := by
  obtain ⟨_, -, rfl⟩ := List.mem_map.1 h
  rfl

/-- The samples of a summary are named for it, with an ending for its sum and its number. -/
theorem begins_of_mem_summary {estimate : Estimate} {t : Summaries κ} {s : Sample}
    (h : s ∈ (summary estimate name meaning pairs t).samples) : Begins name s.name := by
  obtain ⟨⟨k, u⟩, -, hs⟩ := List.mem_flatMap.1 h
  obtain hs | hs := List.mem_append.1 hs
  · obtain ⟨_, -, rfl⟩ := List.mem_map.1 hs
    exact List.prefix_refl _
  · obtain rfl | hs := List.mem_cons.1 hs
    · exact begins_append _ _
    · rw [List.mem_singleton.1 hs]
      exact begins_append _ _

/-- Of the lines about a family only samples begin with a name. -/
theorem filter_lines (f : Family) (hp : p ≠ "") (hcomment : Unlike p "#") :
    f.lines.filter (Begins p) = (f.samples.filter (Begins p ·.toLine)).map Sample.toLine := by
  have hmeaning : ∀ line ∈ (f.meaning.map fun meaning =>
      "# HELP " ++ f.name ++ " " ++ meaning).toList, ¬ Begins p line := by
    intro line hline
    obtain ⟨meaning, -, rfl⟩ := Option.map_eq_some_iff.1 (Option.mem_toList.1 hline)
    have hsign : Begins "#" "# HELP " := by decide
    exact hcomment.not_begins (((hsign.append _).append _).append _)
  have hkind : ¬ Begins p ("# TYPE " ++ f.name ++ " " ++ f.kind.name) := by
    have hsign : Begins "#" "# TYPE " := by decide
    exact hcomment.not_begins (((hsign.append _).append _).append _)
  have hblank : ¬ Begins p "" := fun h => hp (String.toList_eq_nil_iff.1 (List.prefix_nil.1 h))
  rw [Family.lines, List.filter_append, List.filter_append, List.filter_cons_of_neg (by simpa),
    List.filter_eq_nil_iff.2 (by simpa using hmeaning), List.filter_cons_of_neg (by simpa),
    List.filter_nil, List.nil_append, List.append_nil, List.filter_map]
  rfl

/-- No line about a family begins with a text that its name is unlike. -/
theorem filter_lines_eq_nil {f : Family} (hname : ∀ s ∈ f.samples, Begins f.name s.name)
    (hp : p ≠ "") (hcomment : Unlike p "#") (hunlike : Unlike p f.name) :
    f.lines.filter (Begins p) = [] := by
  rw [filter_lines f hp hcomment, List.map_eq_nil_iff, List.filter_eq_nil_iff]
  intro s hs
  have hline : ¬ Begins p s.toLine := hunlike.not_begins ((hname s hs).trans (begins_toLine s))
  simpa using hline

/-- A counter has no line that begins with another name. -/
theorem filter_lines_counter_eq_nil {t : Tally κ} (hp : p ≠ "") (hcomment : Unlike p "#")
    (hunlike : Unlike p name) : (counter name meaning pairs t).lines.filter (Begins p) = [] :=
  filter_lines_eq_nil (fun _ hs => name_of_mem_counter hs ▸ List.prefix_refl _) hp hcomment hunlike

theorem filter_lines_summary_eq_nil {estimate : Estimate} {t : Summaries κ} (hp : p ≠ "")
    (hcomment : Unlike p "#") (hunlike : Unlike p name) :
    (summary estimate name meaning pairs t).lines.filter (Begins p) = [] :=
  filter_lines_eq_nil (fun _ hs => begins_of_mem_summary hs) hp hcomment hunlike

/-- The lines about a counter that begin with its name are its samples. -/
theorem filter_lines_counter {t : Tally κ} (hname : name ≠ "") (hcomment : Unlike name "#") :
    (counter name meaning pairs t).lines.filter (Begins name)
      = (counter name meaning pairs t).samples.map Sample.toLine := by
  rw [filter_lines _ hname hcomment, List.filter_eq_self.2]
  intro s hs
  have hline : Begins name s.toLine := by
    rw [← name_of_mem_counter hs]
    exact begins_toLine s
  simpa using hline

end Families

/-- What is taken from families can as well be taken from those that have a sample, if nothing is
taken from the others. -/
theorem flatMap_filter_samples {fs : List Family} {g : Family → List String}
    (h : ∀ f ∈ fs, f.samples = [] → g f = []) :
    (fs.filter fun f => !f.samples.isEmpty).flatMap g = fs.flatMap g := by
  induction fs with
  | nil => rfl
  | cons f rest ih =>
    obtain ⟨hf, hrest⟩ := List.forall_mem_cons.1 h
    by_cases hempty : f.samples = []
    · rw [List.filter_cons_of_neg (by simp [hempty]), ih hrest, List.flatMap_cons, hf hempty,
        List.nil_append]
    · rw [List.filter_cons_of_pos (by simp [hempty]), List.flatMap_cons, ih hrest,
        List.flatMap_cons]

/-- **The number of starts is read off the text.**  The lines that begin with its name are those of
its samples. -/
theorem Ledger.filter_exposition (l : Ledger) (estimate : Estimate) :
    (l.exposition estimate).filter (Begins "service_starts_total") =
      l.starts.map fun (service, n) =>
        Sample.toLine ⟨"service_starts_total", [("service", service)], natText n⟩ := by
  have hcomment : Unlike "service_starts_total" "#" := ⟨by decide, by decide⟩
  rw [exposition, List.filter_flatMap, flatMap_filter_samples fun f _ hempty => by
    rw [filter_lines f (by decide) hcomment, hempty]; rfl]
  simp only [families, List.flatMap_cons, List.flatMap_nil]
  rw [filter_lines_counter_eq_nil (by decide) hcomment ⟨by decide, by decide⟩,
    filter_lines_counter_eq_nil (by decide) hcomment ⟨by decide, by decide⟩,
    filter_lines_counter (by decide) hcomment,
    filter_lines_summary_eq_nil (by decide) hcomment ⟨by decide, by decide⟩,
    filter_lines_summary_eq_nil (by decide) hcomment ⟨by decide, by decide⟩]
  simp [counter]

end Screening.Metrics
