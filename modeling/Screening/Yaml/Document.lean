import Screening.Yaml.Scalar

/-!
# YAML documents

A node is a scalar, a sequence or a mapping.  Sequences and mappings are laid out in blocks, where
the column of a line tells what it belongs to, or in flows between brackets and braces, where only
the marks count.  The nodes of a text make up one document; a text with nothing in it is an empty
mapping.

Left out, and refused, are anchors and their aliases, tags, and keys that are not scalars.
-/

set_option autoImplicit false

namespace Screening.Yaml

/-- The text that a scalar is as a key. -/
def keyText? : Setting → Option String
  | .text s => some s
  | .integer n => some (Numeral.ofInt n)
  | .flag b => some (if b then "true" else "false")
  | _ => none

/-- A key that is a number with a fraction is kept as it is written. -/
def plainKey? (cs : List Char) : Option String :=
  match ofPlain? cs with
  | some (.real _) => some (String.ofList cs)
  | some t => keyText? t
  | none => none

/-- A key, up to the colon that follows it on the same line; `place` is behind the colon. -/
def key? (flow : Bool) (p : Place) : Option (String × Place) := do
  let (name, q) ← match p.cs with
    | '"' :: rest => do
      let (cs, q) ← quoted '"' [] (rest.length + 1) ⟨p.col + 1, rest⟩
      pure (String.ofList cs, q)
    | '\'' :: rest => do
      let (cs, q) ← quoted '\'' [] (rest.length + 1) ⟨p.col + 1, rest⟩
      pure (String.ofList cs, q)
    | cs =>
      if startsPlain flow cs then
        let (part, q) := plainLine flow p
        (plainKey? part).map (·, q)
      else none
  let blanks := q.cs.takeWhile isBlank
  let isQuoted : Bool := p.cs.head? == some '"' || p.cs.head? == some '\''
  match q.cs.drop blanks.length with
  | ':' :: rest =>
    if partsKey flow rest || (flow && isQuoted) then
      some (name, ⟨q.col + blanks.length + 1, rest⟩)
    else none
  | _ => none

/-- A scalar in quotes, or a plain one. -/
def scalar? (flow : Bool) (least : Nat) (p : Place) : Option (Setting × Place) :=
  match p.cs with
  | '"' :: rest =>
    (quoted '"' [] (rest.length + 1) ⟨p.col + 1, rest⟩).map fun (cs, q) =>
      (.text (String.ofList cs), q)
  | '\'' :: rest =>
    (quoted '\'' [] (rest.length + 1) ⟨p.col + 1, rest⟩).map fun (cs, q) =>
      (.text (String.ofList cs), q)
  | cs =>
    if startsPlain flow cs then
      let (text, q) := plain flow least [] (cs.length + 1) p
      if (q.cs.dropWhile isBlank).head? = some ':' ∧ !flow then none
      else (ofPlain? text).map (·, q)
    else none

/-- What has been opened and is read on. -/
inductive Frame where
  | list (items : List Setting)
  | mapping (entries : Entries)

def Frame.close : Frame → Char
  | list _ => ']'
  | mapping _ => '\x7d'

def Frame.setting : Frame → Setting
  | list items => .list items
  | mapping es => .table es

/-- Adds an entry, unless its key is there already. -/
def add? (key : String) (t : Setting) (es : Entries) : Option Entries :=
  if (Setting.find? key es).isSome then none else some (es ++ [(key, t)])

def startsItem (cs : List Char) : Bool :=
  match cs with
  | '-' :: rest => endsWord rest
  | _ => false

/-! ## Flows -/

mutual

def flowNode : Nat → Place → Option (Setting × Place)
  | 0, _ => none
  | fuel + 1, p =>
    match p.cs with
    | '[' :: rest => flowRest fuel (.list []) ⟨p.col + 1, rest⟩
    | '\x7b' :: rest => flowRest fuel (.mapping []) ⟨p.col + 1, rest⟩
    | _ => scalar? true 0 p

/-- Reads on in a flow that has been opened, up to its end. -/
def flowRest : Nat → Frame → Place → Option (Setting × Place)
  | 0, _, _ => none
  | fuel + 1, frame, p => do
    let (_, p) := skip p
    let nothingFollows (p : Place) : Bool := p.cs.head?.any (",]\x7d".toList.contains ·)
    let value (p : Place) : Option (Setting × Place) :=
      if nothingFollows (skip p).2 then some (.nothing, p) else flowNode fuel (skip p).2
    if p.cs.head? = some frame.close then return (frame.setting, ⟨p.col + 1, p.cs.drop 1⟩)
    else
      let (frame, q) ← match frame, key? true p with
        | .list items, some (k, q) => do
          let (t, q) ← value q
          pure (Frame.list (items ++ [.table [(k, t)]]), q)
        | .list items, none => do
          let (t, q) ← flowNode fuel p
          pure (Frame.list (items ++ [t]), q)
        | .mapping es, some (k, q) => do
          let (t, q) ← value q
          pure (Frame.mapping (← add? k t es), q)
        | .mapping es, none => do
          let (t, q) ← scalar? true 0 p
          pure (Frame.mapping (← add? (← keyText? t) .nothing es), q)
      let (_, q) := skip q
      match q.cs with
      | ',' :: rest => flowRest fuel frame ⟨q.col + 1, rest⟩
      | c :: rest => if c = frame.close then return (frame.setting, ⟨q.col + 1, rest⟩) else none
      | [] => none

end

/-! ## Blocks -/

mutual

/-- A node at a place; further lines of a scalar begin at column `least` or behind it.  Behind a key
on the same line, no mapping and no sequence may begin. -/
def node : Nat → Bool → Nat → Place → Option (Setting × Place)
  | 0, _, _, _ => none
  | fuel + 1, behindKey, least, p =>
    match p.cs with
    | '|' :: rest =>
      (block? true least ⟨p.col + 1, rest⟩).map fun (cs, q) => (.text (String.ofList cs), q)
    | '>' :: rest =>
      (block? false least ⟨p.col + 1, rest⟩).map fun (cs, q) => (.text (String.ofList cs), q)
    | cs =>
      if startsItem cs then if behindKey then none else sequence fuel p.col [] p
      else if !behindKey && (key? false p).isSome then mapping fuel p.col [] p
      else if cs.head? == some '[' || cs.head? == some '\x7b' then flowNode (2 * cs.length + 2) p
      else scalar? false least p

/-- The node behind a key or the mark of an item that stands at column `col`; nothing may be there
at all. -/
def child : Nat → Bool → Nat → Place → Option (Setting × Place)
  | 0, _, _, _ => none
  | fuel + 1, isKey, col, p =>
    let (broke, q) := skip p
    if q.cs.isEmpty then some (.nothing, p)
    else if !broke then node fuel isKey (col + 1) q
    else if col < q.col then node fuel false (col + 1) q
    else if isKey && col == q.col && startsItem q.cs then sequence fuel col [] q
    else some (.nothing, p)

/-- The items of a sequence at column `col`. -/
def sequence : Nat → Nat → List Setting → Place → Option (Setting × Place)
  | 0, _, _, _ => none
  | fuel + 1, col, items, p => do
    if !startsItem p.cs then none
    else
      let (t, q) ← child fuel false col ⟨p.col + 1, p.cs.drop 1⟩
      let items := items ++ [t]
      let (broke, r) := skip q
      if r.cs.isEmpty || (r.col < col && (broke || q.col = 0)) then return (.list items, q)
      else if r.col = col && (broke || q.col = 0) then
        if startsItem r.cs then sequence fuel col items r else return (.list items, q)
      else none

/-- The entries of a mapping at column `col`. -/
def mapping : Nat → Nat → Entries → Place → Option (Setting × Place)
  | 0, _, _, _ => none
  | fuel + 1, col, es, p => do
    let (k, q) ← key? false p
    let (t, q) ← child fuel true col q
    let es ← add? k t es
    let (broke, r) := skip q
    if r.cs.isEmpty || (r.col < col && (broke || q.col = 0)) then return (.table es, q)
    else if r.col = col && (broke || q.col = 0) then mapping fuel col es r
    else none

end

/-! ## Documents -/

/-- Whether a line marks the start or the end of a document. -/
def isMark (mark : String) (line : List Char) : Bool :=
  mark.toList.isPrefixOf line && endsWord (line.drop 3)

/-- The lines of the one document in a text without the marks round it, and whether there is a mark
in front. -/
def body? (ls : List (List Char)) : Option (Bool × List (List Char)) :=
  let isLead (l : List Char) : Bool := l.head? == some '#' || l.head? == some '%' || l.all isBlank
  let (marked, rest) := match ls.dropWhile isLead with
    | l :: more =>
      if isMark "---" l then (true, ("   ".toList ++ l.drop 3) :: more) else (false, ls)
    | [] => (false, [])
  let isEnd (l : List Char) : Bool := isMark "---" l || isMark "..." l
  let after := (rest.dropWhile (!isEnd ·)).drop 1
  if (rest.dropWhile (!isEnd ·)).head?.any (isMark "---") || !after.all isLead then none
  else some (marked, rest.takeWhile (!isEnd ·))

end Screening.Yaml

namespace Screening

/-- The entries of the mapping that a text holds. -/
def Setting.ofYaml? (text : String) : Option Entries := do
  let (marked, ls) ← Yaml.body? ((text.replace "\r\n" "\n").toList.splitOn '\n')
  let cs := (ls.intersperse ['\n']).flatten
  let (_, p) := Yaml.skip ⟨0, cs⟩
  if p.cs.isEmpty then if marked then none else return []
  else
    let (t, q) ← Yaml.node (3 * cs.length + 3) false 0 p
    match t, (Yaml.skip q).2.cs with
    | .table es, [] => some es
    | _, _ => none

end Screening
