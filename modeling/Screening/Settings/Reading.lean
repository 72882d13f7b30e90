import Screening.Numeral
import Screening.Number.Shortest
import Screening.Settings.Basic
import Screening.Settings.Setting

/-!
# Settings from tables

A setting is read from a value of its own kind or from one that can stand in for it: numbers and
truth values are texts as they are written, a number other than zero is true, and words such as `on`
and `no` are truth values and, as ports, one and zero.  A fraction is rounded to a port.

A part of the settings is a table, of which entries that are not known are passed over, or a list of
its settings in order, of which more than there are settings is passed over.  What is left out keeps
its default.
-/

set_option autoImplicit false

namespace Screening

namespace Setting

def toText? : Setting → Option String
  | text s => some s
  | integer n => some (Numeral.ofInt n)
  | real x => some x.toText
  | flag b => some (if b then "true" else "false")
  | _ => none

/-- The truth value of a word in any case. -/
def wordTruth? (s : String) : Option Bool :=
  if ["true", "on", "yes"].contains s.toLower then some true
  else if ["false", "off", "no"].contains s.toLower then some false
  else none

def toFlag? : Setting → Option Bool
  | text s => if s = "1" then some true else if s = "0" then some false else wordTruth? s
  | integer n => some (n ≠ 0)
  | real (.finite x) => some (x.units ≠ 0)
  | real _ => some true
  | flag b => some b
  | _ => none

/-- The nearest whole number that is not below zero; without a number it is zero, and there is none
for an infinite one. -/
def wholeOf? : Real64 → Option Nat
  | .finite x => some x.roundAway.toNat
  | .infinite negative => if negative then some 0 else none
  | .undefined => some 0

def toNat? : Setting → Option Nat
  | text s =>
    match wordTruth? s with
    | some b => some b.toNat
    | none => Numeral.naturalUpTo? 0xFFFF_FFFF_FFFF_FFFF s.toList
  | integer n => if 0 ≤ n then some n.toNat else none
  | real x => wholeOf? x
  | flag b => some b.toNat
  | _ => none

def toPort? (t : Setting) : Option UInt16 := do
  let n ← t.toNat?
  if n ≤ 65535 then some (UInt16.ofNat n) else none

/-! ## Parts -/

/-- The settings of a part, by name; a list has them in the order of `names`. -/
def part? (names : List String) : Setting → Option (Entries)
  | table es => some es
  | list items => some (names.zip items)
  | _ => none

/-- Reads a setting of a part, or takes the default if it is not there. -/
def read {α : Type} (ofSetting? : Setting → Option α) (key : String) (default : α)
    (es : Entries) : Option α :=
  match find? key es with
  | some t => ofSetting? t
  | none => some default

end Setting

open Setting (read toText? toFlag? toPort?)

def Listener.ofSetting? (t : Setting) : Option Listener := do
  let es ← t.part? ["host", "port"]
  let d : Listener := {}
  return { host := ← read toText? "host" d.host es
           port := ← read toPort? "port" d.port es }

def Observability.ofSetting? (t : Setting) : Option Observability := do
  let es ← t.part? ["service_name", "log_level", "json_logs", "metrics_enabled", "metrics_port"]
  let d : Observability := {}
  return { serviceName := ← read toText? "service_name" d.serviceName es
           logLevel := ← read toText? "log_level" d.logLevel es
           jsonLogs := ← read toFlag? "json_logs" d.jsonLogs es
           metricsEnabled := ← read toFlag? "metrics_enabled" d.metricsEnabled es
           metricsPort := ← read toPort? "metrics_port" d.metricsPort es }

/-- The settings in a table of all of them. -/
def Settings.ofEntries? (es : Entries) : Option Settings := do
  let d : Settings := {}
  return { serviceName := ← read toText? "service_name" d.serviceName es
           environment := ← read toText? "environment" d.environment es
           server := ← read Listener.ofSetting? "server" d.server es
           observability := ← read Observability.ofSetting? "observability" d.observability es }

end Screening
