import Mathlib.Data.List.Nodup
import Screening.Toml.Document

/-!
# No key twice

A TOML document that gives a key twice is refused.  So what `Setting.ofToml?` reads is a table in
the strict sense: no key stands twice in it, nor in a table that stands directly in it
(`Setting.once_of_ofToml?`).  That is as deep as settings go, and it is why it does not matter in
which order the entries of a file are laid over what there is.

While a document is read its tables are a draft, and the property is kept by everything that is done
to a draft.  All changes go through `Draft.alter`, which replaces what stands under a key in its
place and adds a key at the end only if it is new; so the keys of a table stay as they are or grow
by a new one (`Draft.map_fst_alter`).  A change far down leaves the tables on the way with the same
keys (`Draft.once_within`).

There are four places where something is changed: a line may open a table, open the next table of a
list, or give a key a value, and a table written in one line is itself put together key by key.
Each has its lemma, and a document is read line by line (`once_of_line`, `once_of_lines`).
-/

set_option autoImplicit false

namespace Screening

namespace Setting

/-- The keys of a table; any other setting has none. -/
def keys (t : Setting) : List String := t.entries.map Prod.fst

/-- No key stands twice, neither among the entries nor in a table that is one of them. -/
structure Once (es : Entries) : Prop where
  outer : (es.map Prod.fst).Nodup
  inner : ∀ e ∈ es, e.2.keys.Nodup

theorem Once.tail {e : String × Setting} {rest : Entries} (h : Once (e :: rest)) : Once rest where
  outer := (List.nodup_cons.1 h.outer).2
  inner f hf := h.inner f (List.mem_cons_of_mem e hf)

end Setting

namespace Toml

theorem map_fst_toEntries (d : Draft) : (toEntries d).map Prod.fst = d.map Prod.fst := by
  induction d with
  | nil => rfl
  | cons e rest ih => rw [toEntries, List.map_cons, List.map_cons, ih]

theorem mem_toEntries {d : Draft} {e : String × Setting} (h : e ∈ toEntries d) :
    ∃ n, (e.1, n) ∈ d ∧ e.2 = n.toSetting := by
  induction d with
  | nil => cases h
  | cons f rest ih =>
    rw [toEntries, List.mem_cons] at h
    obtain rfl | h := h
    · exact ⟨f.2, List.mem_cons_self, rfl⟩
    · obtain ⟨n, hn, he⟩ := ih h
      exact ⟨n, List.mem_cons_of_mem f hn, he⟩

namespace Draft

/-! ## Drafts

`Distinct` is about the keys of one table and `Once` about its tables as well.  What is done far
down only concerns `Distinct` there, and that is enough for `Once` at the top. -/

def Distinct (d : Draft) : Prop := (d.map Prod.fst).Nodup

/-- A draft of entries in which no key stands twice. -/
structure Once (d : Draft) : Prop where
  outer : d.Distinct
  inner : ∀ e ∈ d, e.2.toSetting.keys.Nodup

theorem once_nil : Once [] := ⟨List.nodup_nil, List.forall_mem_nil _⟩

/-- A draft in which no key stands twice makes a table of that kind. -/
theorem Once.toEntries {d : Draft} (h : d.Once) : Setting.Once (toEntries d) where
  outer := by
    rw [map_fst_toEntries]
    exact h.outer
  inner e he := by
    obtain ⟨n, hn, he⟩ := mem_toEntries he
    rw [he]
    exact h.inner _ hn

section Alter

variable {key : String} {f : Option Node → Option Node} {d d' : Draft}

/-- What is altered keeps its keys, in their order, but for one that is new. -/
theorem map_fst_alter (h : d.alter key f = some d') :
    d'.map Prod.fst
      = if key ∈ d.map Prod.fst then d.map Prod.fst else d.map Prod.fst ++ [key] := by
  induction d generalizing d' with
  | nil =>
    obtain ⟨n, -, hn⟩ := Option.bind_eq_some_iff.1 h
    cases hn
    rfl
  | cons e rest ih =>
    rw [alter] at h
    split at h
    · rename_i hkey
      obtain ⟨n, -, hn⟩ := Option.bind_eq_some_iff.1 h
      cases hn
      simp [hkey]
    · rename_i hkey
      obtain ⟨rest', hrest, hn⟩ := Option.bind_eq_some_iff.1 h
      cases hn
      have hkey' : key ≠ e.1 := fun h => hkey h.symm
      rw [List.map_cons, ih hrest, List.map_cons]
      by_cases hmem : key ∈ rest.map Prod.fst <;> simp [hkey', hmem]

/-- A key that is new is a key more, and any other is the same as before. -/
theorem Distinct.alter (hd : d.Distinct) (h : d.alter key f = some d') : d'.Distinct := by
  rw [Distinct, map_fst_alter h]
  split
  · exact hd
  · rename_i hkey
    rw [← List.concat_eq_append]
    exact hd.concat hkey

/-- What stands in an altered draft has stood there before or is what the change makes of something
that has, or of nothing. -/
theorem mem_alter (h : d.alter key f = some d') {e : String × Node} (he : e ∈ d') :
    e ∈ d ∨ f none = some e.2 ∨ ∃ n, (e.1, n) ∈ d ∧ f (some n) = some e.2 := by
  induction d generalizing d' with
  | nil =>
    obtain ⟨n, hf, hn⟩ := Option.bind_eq_some_iff.1 h
    cases hn
    obtain rfl := List.mem_singleton.1 he
    exact .inr (.inl hf)
  | cons e₀ rest ih =>
    rw [Draft.alter] at h
    split at h
    -- Under the key itself the change is applied and all behind it stays.
    · obtain ⟨n, hf, hn⟩ := Option.bind_eq_some_iff.1 h
      cases hn
      obtain rfl | he := List.mem_cons.1 he
      · exact .inr (.inr ⟨e₀.2, List.mem_cons_self, hf⟩)
      · exact .inl (List.mem_cons_of_mem e₀ he)
    · obtain ⟨rest', hrest, hn⟩ := Option.bind_eq_some_iff.1 h
      cases hn
      obtain rfl | he := List.mem_cons.1 he
      · exact .inl List.mem_cons_self
      · obtain he | hf | ⟨n, hn, hf⟩ := ih hrest he
        · exact .inl (List.mem_cons_of_mem e₀ he)
        · exact .inr (.inl hf)
        · exact .inr (.inr ⟨n, List.mem_cons_of_mem e₀ hn, hf⟩)

/-- An alteration keeps keys single if it makes no table in which one stands twice. -/
theorem Once.alter (hd : d.Once) (hnone : ∀ n, f none = some n → n.toSetting.keys.Nodup)
    (hsome : ∀ m n, m.toSetting.keys.Nodup → f (some m) = some n → n.toSetting.keys.Nodup)
    (h : d.alter key f = some d') : d'.Once where
  outer := hd.outer.alter h
  inner e he := by
    obtain he | hf | ⟨m, hm, hf⟩ := mem_alter h he
    · exact hd.inner e he
    · exact hnone e.2 hf
    · exact hsome m e.2 (hd.inner _ hm) hf

end Alter

theorem keys_table {origin : Origin} {d : Draft} :
    (Node.table origin d).toSetting.keys = d.map Prod.fst := map_fst_toEntries d

section Within

variable {change : Draft → Option Draft} {ks : List String} {d d' : Draft}

/-- A change that begins on the way to a table further down is an alteration like any other. -/
theorem distinct_within (hchange : ∀ d d', Distinct d → change d = some d' → d'.Distinct)
    (hd : d.Distinct) (h : within change ks d = some d') : d'.Distinct := by
  cases ks with
  | nil => exact hchange d d' hd h
  | cons k ks => exact hd.alter h

/-- A change far down: the table at the end of the way changes as it would by itself, and those on
the way to it keep their keys or get a new one. -/
theorem once_within (hchange : ∀ d d', Distinct d → change d = some d' → d'.Distinct)
    (honce : ∀ d d', Once d → change d = some d' → d'.Once) (hd : d.Once)
    (h : within change ks d = some d') : d'.Once := by
  cases ks with
  | nil => exact honce d d' hd h
  | cons k ks =>
    refine hd.alter (fun n hn => ?_) (fun m n hm hn => ?_) h
    · obtain ⟨inner, hinner, hn⟩ := Option.bind_eq_some_iff.1 hn
      cases hn
      rw [keys_table]
      exact distinct_within hchange once_nil.outer hinner
    -- A table that has been written in one line is not gone into; in a list of tables the last one
    -- is, and a list has no keys.
    · cases m with
      | sealed t => cases hn
      | table origin outer =>
        obtain ⟨inner, hinner, hn⟩ := Option.bind_eq_some_iff.1 hn
        cases hn
        rw [keys_table] at hm ⊢
        exact distinct_within hchange hm hinner
      | tables earlier last =>
        obtain ⟨inner, hinner, hn⟩ := Option.bind_eq_some_iff.1 hn
        cases hn
        exact List.nodup_nil

end Within

/-- Opening a table adds an empty one or goes on with one that is there. -/
theorem once_openTable {path : List String} {key : String} {d d' : Draft} (hd : d.Once)
    (h : d.openTable path key = some d') : d'.Once := by
  refine once_within (fun _ _ hd h => hd.alter h) (fun _ _ hd h => hd.alter ?_ ?_ h) hd h
  · rintro n ⟨⟩
    exact List.nodup_nil
  · intro m n hm hn
    match m with
    | .table .implied inner =>
      cases hn
      rwa [keys_table] at hm ⊢
    | .table .header _ | .table .dotted _ | .sealed _ | .tables _ _ => cases hn

theorem once_openNext {path : List String} {key : String} {d d' : Draft} (hd : d.Once)
    (h : d.openNext path key = some d') : d'.Once := by
  refine once_within (fun _ _ hd h => hd.alter h) (fun _ _ hd h => hd.alter ?_ ?_ h) hd h
  · rintro n ⟨⟩
    exact List.nodup_nil
  · intro m n hm hn
    match m with
    | .tables earlier last =>
      cases hn
      exact List.nodup_nil
    | .table _ _ | .sealed _ => cases hn

section Assign

variable {t : Setting} {ks : List String} {d d' : Draft}

/-- A value is only written under a key that is new. -/
theorem assign_single {key : String} (h : d.assign t [key] = some d') :
    d' = d ++ [(key, .sealed t)] ∧ key ∉ d.map Prod.fst := by
  rw [assign] at h
  split at h
  · cases h
  · rename_i hhas
    cases h
    refine ⟨rfl, fun hmem => hhas ?_⟩
    obtain ⟨e, he, hkey⟩ := List.mem_map.1 hmem
    exact List.any_eq_true.2 ⟨e, he, decide_eq_true hkey⟩

theorem distinct_append {key : String} {n : Node} (hd : d.Distinct)
    (hkey : key ∉ d.map Prod.fst) : Distinct (d ++ [(key, n)]) := by
  rw [Distinct, List.map_append, List.map_singleton, ← List.concat_eq_append]
  exact hd.concat hkey

/-- Giving a value adds a key, at the end of the way or on it. -/
theorem Distinct.assign (hd : d.Distinct) (h : d.assign t ks = some d') : d'.Distinct := by
  match ks with
  | [] => cases h
  | [key] =>
    obtain ⟨rfl, hkey⟩ := assign_single h
    exact distinct_append hd hkey
  | k :: l :: ks => exact hd.alter h

/-- A table with single keys may be put anywhere. -/
theorem Once.assign (hd : d.Once) (ht : t.keys.Nodup) (h : d.assign t ks = some d') :
    d'.Once := by
  match ks with
  | [] => cases h
  | [key] =>
    obtain ⟨rfl, hkey⟩ := assign_single h
    refine ⟨distinct_append hd.outer hkey, fun e he => ?_⟩
    obtain he | he := List.mem_append.1 he
    · exact hd.inner e he
    · rw [List.mem_singleton.1 he]
      exact ht
  | k :: l :: ks =>
    refine hd.alter (fun n hn => ?_) (fun m n hm hn => ?_) h
    · obtain ⟨inner, hinner, hn⟩ := Option.bind_eq_some_iff.1 hn
      cases hn
      rw [keys_table]
      exact Distinct.assign once_nil.outer hinner
    · match m with
      -- Dots do not lead into a table with a header of its own, nor into one in a single line.  They
      -- may lead into a list of tables, but a list has no keys.
      | .sealed _ | .table .header _ => cases hn
      | .table .implied outer | .table .dotted outer =>
        obtain ⟨inner, hinner, hn⟩ := Option.bind_eq_some_iff.1 hn
        cases hn
        rw [keys_table] at hm ⊢
        exact Distinct.assign hm hinner
      | .tables earlier last =>
        dsimp only at hn
        split at hn
        · cases hn
        · obtain ⟨inner, hinner, hn⟩ := Option.bind_eq_some_iff.1 hn
          cases hn
          exact List.nodup_nil

end Assign

end Draft

/-! ## Values and lines

Of the values only a table written in one line has keys at all, and it is a draft while it is read.
-/

/-- A number with a fraction is no table. -/
theorem keys_of_fractional? {cs : List Char} {t : Setting} (h : fractional? cs = some t) :
    t.keys = [] := by
  obtain ⟨x, -, h⟩ := Option.bind_eq_some_iff.1 h
  split at h
  · cases h
    rfl
  · cases h

/-- A single word is no table. -/
theorem keys_of_ofWord? {cs : List Char} {t : Setting} (h : ofWord? cs = some t) :
    t.keys = [] := by
  rw [ofWord?] at h
  split at h
  · cases h
    rfl
  split at h
  · cases h
    rfl
  split at h
  · rename_i hinteger
    cases h
    obtain ⟨n, -, rfl⟩ := Option.map_eq_some_iff.1 hinteger
    rfl
  split at h
  · rename_i hreal
    cases h
    rw [real?] at hreal
    split at hreal
    · cases hreal
      rfl
    · cases hreal
      rfl
    · exact keys_of_fractional? hreal
  · obtain ⟨m, -, rfl⟩ := Option.map_eq_some_iff.1 h
    rfl

/-- A table in one line gets one key more. -/
theorem distinct_of_entry {read : Reader Setting} {d d' : Draft} {cs rest : List Char}
    (hd : d.Distinct) (h : entry read d cs = some (d', rest)) : d'.Distinct := by
  simp only [entry, Option.bind_eq_bind, Option.bind_eq_some_iff] at h
  obtain ⟨⟨⟨path, key⟩, afterKey⟩, -, start, -, h⟩ := h
  split at h
  · simp only [Option.bind_eq_some_iff] at h
    obtain ⟨valueStart, -, ⟨t, afterValue⟩, -, d₁, hassign, h⟩ := h
    cases h
    exact hd.assign hassign
  · cases h

theorem distinct_of_entries {read : Reader Setting} {d d' : Draft} {cs rest : List Char}
    (hd : d.Distinct) (h : entries read d cs = some (d', rest)) : d'.Distinct := by
  fun_induction entries read d cs with
  | case2 d cs more hbreaks =>
    cases h
    exact hd
  | case4 d cs start hstart hbreaks d₁ afterEntry hentry more hcomma hlt ih =>
    exact ih (distinct_of_entry hd hentry) h
  | case6 d cs start hstart hbreaks d₁ afterEntry hentry more hbrace =>
    cases h
    exact distinct_of_entry hd hentry
  | case1 | case3 | case5 | case7 => cases h

/-- No value that can be read has a key twice, for the only values that have keys are tables in one
line. -/
theorem nodup_keys_of_value {room : Nat} {cs rest : List Char} {t : Setting}
    (h : value room cs = some (t, rest)) : t.keys.Nodup := by
  rw [value.eq_def] at h
  split at h
  · obtain ⟨⟨ts, rest⟩, -, h⟩ := Option.bind_eq_some_iff.1 h
    cases h
    exact List.nodup_nil
  -- The one case that matters: a table in braces is a draft that begins empty.
  · obtain ⟨⟨d, rest⟩, hentries, h⟩ := Option.bind_eq_some_iff.1 h
    cases h
    rw [Setting.keys, Setting.entries, map_fst_toEntries]
    exact distinct_of_entries Draft.once_nil.outer hentries
  · obtain ⟨⟨s, rest⟩, -, h⟩ := Option.bind_eq_some_iff.1 h
    cases h
    exact List.nodup_nil
  · obtain ⟨⟨s, rest⟩, -, h⟩ := Option.bind_eq_some_iff.1 h
    cases h
    exact List.nodup_nil
  · obtain ⟨t, ht, h⟩ := Option.map_eq_some_iff.1 h
    cases h
    rw [keys_of_ofWord? ht]
    exact List.nodup_nil

/-- Whatever a line does to the draft, no key stands twice in it afterwards. -/
theorem once_of_line {r r' : Reading} {cs rest : List Char} (hr : r.draft.Once)
    (h : line r cs = some (r', rest)) : r'.draft.Once := by
  rw [line] at h
  -- The three kinds of lines: a further table of a list, a table, and an assignment in the table
  -- that was opened last.
  split at h
  · obtain ⟨⟨⟨path, key⟩, afterKeys⟩, -, h⟩ := Option.bind_eq_some_iff.1 h
    dsimp only at h
    split at h
    · obtain ⟨d, hopen, h⟩ := Option.bind_eq_some_iff.1 h
      obtain ⟨afterLine, -, h⟩ := Option.bind_eq_some_iff.1 h
      cases h
      exact Draft.once_openNext hr hopen
    · cases h
  · obtain ⟨⟨⟨path, key⟩, afterKeys⟩, -, h⟩ := Option.bind_eq_some_iff.1 h
    obtain ⟨d, hopen, h⟩ := Option.bind_eq_some_iff.1 h
    obtain ⟨afterLine, -, h⟩ := Option.bind_eq_some_iff.1 h
    cases h
    exact Draft.once_openTable hr hopen
  · dsimp only at h
    split at h
    · cases h
      exact hr
    · obtain ⟨⟨⟨path, key⟩, afterKey⟩, -, h⟩ := Option.bind_eq_some_iff.1 h
      dsimp only at h
      split at h
      · obtain ⟨⟨t, afterValue⟩, hvalue, h⟩ := Option.bind_eq_some_iff.1 h
        obtain ⟨d, hassign, h⟩ := Option.bind_eq_some_iff.1 h
        obtain ⟨afterLine, -, h⟩ := Option.bind_eq_some_iff.1 h
        cases h
        exact Draft.once_within (fun _ _ hd h => hd.assign h)
          (fun _ _ hd h => hd.assign (nodup_keys_of_value hvalue) h) hr hassign
      · cases h

/-- The induction is on the lines as they are read, and the draft is what is carried along. -/
theorem once_of_lines {r r' : Reading} {cs : List Char} (hr : r.draft.Once)
    (h : lines r cs = some r') : r'.draft.Once := by
  induction r, cs using lines.induct with
  | case1 r cs hempty =>
    rw [lines, if_pos hempty] at h
    cases h
    exact hr
  | case2 r cs hempty hline =>
    rw [lines, if_neg hempty, hline] at h
    cases h
  | case3 r cs hempty r₁ rest hline hlt ih =>
    rw [lines, if_neg hempty, hline] at h
    dsimp only at h
    rw [if_pos hlt] at h
    exact ih (once_of_line hr hline) h
  | case4 r cs hempty r₁ rest hline hlt =>
    rw [lines, if_neg hempty, hline] at h
    dsimp only at h
    rw [if_neg hlt] at h
    cases h

end Toml

/-- **What a TOML document gives, it gives once.**  No key stands twice in the table that is read
from a document, and none in a table that stands directly in it. -/
theorem Setting.once_of_ofToml? {text : String} {es : Entries} (h : ofToml? text = some es) :
    Once es := by
  obtain ⟨r, hr, rfl⟩ := Option.map_eq_some_iff.1 h
  exact (Toml.once_of_lines Toml.Draft.once_nil hr).toEntries

end Screening
