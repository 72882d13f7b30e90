import Screening.Toml.Draft
import Screening.Toml.Scalar

/-!
# TOML documents

A document is a sequence of lines: blank ones, headers, and keys with values, of which lists, inline
tables and some strings may go on over several lines.  `Setting.ofToml?` reads it by version 1.1 of
the format into a table, or refuses it as a whole.

Lists and inline tables may be nested eighty deep.  A comma may stand behind the last item or entry
of either, and line breaks and comments between them.
-/

set_option autoImplicit false

namespace Screening.Toml

/-! ## Values -/

/-- The items of a list and its closing bracket, given a reader of single values; `acc` has the
items so far, newest first. -/
def items (value : Reader Setting) (acc : List Setting) (cs : List Char) :
    Option (List Setting × List Char) :=
  match skipBreaks false cs with
  | none => none
  | some (']' :: rest) => some (acc.reverse, rest)
  | some start =>
    match value start with
    | none => none
    | some (v, rest) =>
      match skipBreaks false rest with
      | some (',' :: more) =>
        if more.length < cs.length then items value (v :: acc) more else none
      | some (']' :: rest) => some ((v :: acc).reverse, rest)
      | _ => none
  termination_by cs.length

/-- An entry of an inline table, added to a draft.  Line breaks and comments may stand on either
side of the equals sign. -/
def entry (value : Reader Setting) (d : Draft) : Reader Draft := fun cs => do
  let ((path, key), rest) ← dottedKey cs
  match ← skipBreaks false rest with
  | '=' :: rest =>
    let (v, rest) ← value (← skipBreaks false rest)
    return (← d.assign v (path ++ [key]), rest)
  | _ => none

/-- The entries of an inline table and its closing brace. -/
def entries (value : Reader Setting) (d : Draft) (cs : List Char) : Option (Draft × List Char) :=
  match skipBreaks false cs with
  | none => none
  | some ('}' :: rest) => some (d, rest)
  | some start =>
    match entry value d start with
    | none => none
    | some (d, rest) =>
      match skipBreaks false rest with
      | some (',' :: more) => if more.length < cs.length then entries value d more else none
      | some ('}' :: rest) => some (d, rest)
      | _ => none
  termination_by cs.length

/-- How deep lists and inline tables may be nested. -/
def depth : Nat := 80

/-- A value with room for so many nested lists and inline tables. -/
def value : Nat → Reader Setting
  | room + 1, '[' :: rest => do
    let (vs, rest) ← items (value room) [] rest
    return (.list vs, rest)
  | room + 1, '{' :: rest => do
    let (d, rest) ← entries (value room) [] rest
    return (.table (toEntries d), rest)
  | _, '"' :: rest => do
    let (s, rest) ← string? ('"' :: rest)
    return (.text s, rest)
  | _, '\'' :: rest => do
    let (s, rest) ← string? ('\'' :: rest)
    return (.text s, rest)
  | _, cs => scalar cs

/-! ## Lines -/

/-- What has been read of a document: its tables, and the table that the last header opened. -/
structure Reading where
  draft : Draft := []
  path : List String := []

/-- The keys of a header, up to its closing bracket. -/
def headerKeys (cs : List Char) : Option ((List String × String) × List Char) :=
  match dottedKey cs with
  | some (keys, ']' :: rest) => some (keys, rest)
  | _ => none

/-- Reads one line, or more if its value goes on. -/
def line (r : Reading) (cs : List Char) : Option (Reading × List Char) :=
  match skipBlanks cs with
  | '[' :: '[' :: rest => do
    let ((path, key), rest) ← headerKeys rest
    match rest with
    | ']' :: rest => return (⟨← r.draft.openNext path key, path ++ [key]⟩, ← lineEnd false rest)
    | _ => none
  | '[' :: rest => do
    let ((path, key), rest) ← headerKeys rest
    return (⟨← r.draft.openTable path key, path ++ [key]⟩, ← lineEnd false rest)
  | start =>
    match lineEnd false start with
    | some rest => some (r, rest)
    | none => do
      let ((path, key), rest) ← dottedKey start
      match rest with
      | '=' :: rest =>
        let (v, rest) ← value depth (skipBlanks rest)
        let draft ← Draft.within (Draft.assign v (path ++ [key])) r.path r.draft
        return ({ r with draft }, ← lineEnd false rest)
      | _ => none

def lines (r : Reading) (cs : List Char) : Option Reading :=
  if cs.isEmpty then some r
  else match line r cs with
    | none => none
    | some (r, rest) => if rest.length < cs.length then lines r rest else none
  termination_by cs.length

end Screening.Toml

namespace Screening

/-- The table that a TOML document holds.  A byte order mark in front is passed over. -/
def Setting.ofToml? (text : String) : Option (Entries) :=
  let cs := match text.toList with
    | '\uFEFF' :: rest => rest
    | cs => cs
  (Toml.lines {} cs).map fun r => Toml.toEntries r.draft

end Screening
