import Mathlib.Data.List.Basic
import Mathlib.Data.Nat.Digits.Defs
import Screening.Proofs.Literal

/-!
# Which literal a lexeme stands for

A lexeme by itself can have any characters.  It stands for an integer when it is a numeral of one:
one digit or more, with a sign in front or without, that have this value by their places
(`Numeral.Denotes`).  Any other lexeme is a text, less one pair of quotes
(`Literal.coerce_eq_text_iff`).

A numeral is read from the left, ten times what has been read and one digit more, while a digit
counts by its place from the right; the two meet in `Numeral.ofDigits_map_digitChar`.  Reading is
then the relation turned into a function (`Numeral.integer?_eq_some_iff`), so a numeral denotes one
integer only.  If that is none in 64 bits the numeral stands for no integer at all, and as no
numeral is in quotes, it becomes a text just as it is written.

Zeros may stand in front of the digits, and there may be a plus sign.  So an integer has many
numerals, of which writing it chooses one.  What is not a numeral stays a text even if it comes
close: a sign by itself, digits with a blank among them, digits that are not those of ASCII.
-/

set_option autoImplicit false

namespace Screening

namespace Numeral

/-! ## Digits by their places -/

/-- The text is the number in decimal: one digit or more, the most significant one first.  Zeros may
lead. -/
def Spells (s : List Char) (k : Nat) : Prop :=
  ∃ ds : List Nat, ds ≠ [] ∧ (∀ d ∈ ds, d < 10) ∧ ds.map Nat.digitChar = s ∧
    Nat.ofDigits 10 ds.reverse = k

/-- The text is a numeral of the integer: a sign or none, and then digits. -/
inductive Denotes : List Char → Int → Prop
  | unsigned {s : List Char} {k : Nat} (h : Spells s k) : Denotes s k
  | plus {s : List Char} {k : Nat} (h : Spells s k) : Denotes ('+' :: s) k
  | minus {s : List Char} {k : Nat} (h : Spells s k) : Denotes ('-' :: s) (-k)

/-- Reading from the left gives every digit the weight of its place. -/
theorem ofDigits_map_digitChar {ds : List Nat} (h : ∀ d ∈ ds, d < 10) :
    ofDigits (ds.map Nat.digitChar) = Nat.ofDigits 10 ds.reverse := by
  rw [ofDigits, Nat.ofDigits_eq_foldr, List.foldr_reverse, List.foldl_map]
  refine List.foldl_ext _ _ _ fun n d hd => ?_
  have hdigit : d.digitChar.toNat - '0'.toNat = d := Nat.toNat_digitChar_sub_48_of_lt_ten (h d hd)
  rw [hdigit, Nat.add_comm]
  rfl

/-- The digits that a run of digit characters is written with. -/
theorem exists_map_digitChar {s : List Char} (h : ∀ c ∈ s, c.isDigit = true) :
    ∃ ds : List Nat, (∀ d ∈ ds, d < 10) ∧ ds.map Nat.digitChar = s := by
  induction s with
  | nil => exact ⟨[], by simp, rfl⟩
  | cons c s ih =>
    obtain ⟨hc, hs⟩ := List.forall_mem_cons.1 h
    obtain ⟨ds, hlt, rfl⟩ := ih hs
    obtain ⟨hlo, hhi⟩ : 48 ≤ c.toNat ∧ c.toNat ≤ 57 := Char.isDigit_iff_toNat.1 hc
    have hd : c.toNat - 48 < 10 := by omega
    have hchar : (c.toNat - 48).digitChar = c := by
      refine Char.toNat_inj.1 ?_
      rw [Nat.toNat_digitChar_of_lt_ten hd]
      omega
    exact ⟨(c.toNat - 48) :: ds, List.forall_mem_cons.2 ⟨hd, hlt⟩, by rw [List.map_cons, hchar]⟩

/-- A text reads as a number exactly if it spells it. -/
theorem natural?_eq_some_iff {s : List Char} {k : Nat} : natural? s = some k ↔ Spells s k := by
  rw [natural?]
  constructor
  · intro h
    split at h
    · rename_i hs
      obtain ⟨ds, hlt, rfl⟩ := exists_map_digitChar (List.all_eq_true.1 hs.2)
      rw [ofDigits_map_digitChar hlt] at h
      exact ⟨ds, fun hnil => hs.1 (hnil ▸ rfl), hlt, rfl, Option.some.inj h⟩
    · cases h
  · rintro ⟨ds, hne, hlt, rfl, rfl⟩
    have hdigits : (ds.map Nat.digitChar).all Char.isDigit = true := by
      rw [List.all_map, List.all_eq_true]
      intro d hd
      exact Nat.isDigit_digitChar.trans (decide_eq_true (hlt d hd))
    rw [if_pos ⟨mt List.map_eq_nil_iff.1 hne, hdigits⟩, ofDigits_map_digitChar hlt]

/-! ## Numerals -/

/-- **A numeral is read as the integer it denotes**, and nothing else is read. -/
theorem integer?_eq_some_iff {s : List Char} {n : Int} : integer? s = some n ↔ Denotes s n := by
  constructor
  · intro h
    rw [integer?.eq_def] at h
    split at h
    · obtain ⟨k, hk, rfl⟩ := Option.map_eq_some_iff.1 h
      exact .plus (natural?_eq_some_iff.1 hk)
    · obtain ⟨k, hk, rfl⟩ := Option.map_eq_some_iff.1 h
      exact .minus (natural?_eq_some_iff.1 hk)
    · obtain ⟨k, hk, rfl⟩ := Option.map_eq_some_iff.1 h
      exact .unsigned (natural?_eq_some_iff.1 hk)
  · intro h
    cases h with
    | unsigned h => exact integer?_of_natural? (natural?_eq_some_iff.2 h)
    | plus h => rw [integer?, natural?_eq_some_iff.2 h]; rfl
    | minus h => rw [integer?, natural?_eq_some_iff.2 h]; rfl

/-- A numeral denotes one integer. -/
theorem Denotes.unique {s : List Char} {m n : Int} (hm : Denotes s m) (hn : Denotes s n) :
    m = n :=
  Option.some.inj ((integer?_eq_some_iff.2 hm).symm.trans (integer?_eq_some_iff.2 hn))

/-- In 64 bits a text reads as the integer it denotes. -/
theorem int64?_eq_some_iff {s : List Char} {n : Int64} :
    int64? s = some n ↔ Denotes s n.toInt := by
  rw [int64?, Option.bind_eq_some_iff]
  constructor
  · rintro ⟨m, hm, hn⟩
    rw [toInt_of_toInt64? hn]
    exact integer?_eq_some_iff.1 hm
  · intro h
    exact ⟨n.toInt, integer?_eq_some_iff.2 h, toInt64?_toInt n⟩

/-- In 64 bits a text reads as no integer exactly if it denotes none of them. -/
theorem int64?_eq_none_iff {s : List Char} :
    int64? s = none ↔ ∀ n : Int64, ¬ Denotes s n.toInt := by
  simp only [Option.eq_none_iff_forall_ne_some, ne_eq, int64?_eq_some_iff]

/-- A numeral of an integer that does not fit is a numeral of none that fits. -/
theorem Denotes.not_denotes_toInt {s : List Char} {m : Int} (h : Denotes s m)
    (hm : m < -0x8000_0000_0000_0000 ∨ 0x8000_0000_0000_0000 ≤ m) (n : Int64) :
    ¬ Denotes s n.toInt := by
  intro hn
  have hlo := n.le_toInt
  have hhi := n.toInt_lt
  have hequal := h.unique hn
  omega

end Numeral

namespace Literal

/-- **Which lexemes stand for an integer.** -/
theorem coerce_eq_integer_iff {x : String} {n : Int64} :
    coerce x = integer n ↔ Numeral.Denotes x.toList n.toInt := by
  rw [← Numeral.int64?_eq_some_iff, coerce]
  split
  · rename_i m hm
    rw [hm, integer.injEq, Option.some.injEq]
  · rename_i hnone
    simp [hnone]

/-- No numeral is in quotes, so a numeral that does not fit is kept whole. -/
theorem coerce_of_overflow {x : String} {m : Int} (h : Numeral.Denotes x.toList m)
    (hm : m < -0x8000_0000_0000_0000 ∨ 0x8000_0000_0000_0000 ≤ m) : coerce x = text x := by
  refine coerce_eq_text_iff.2
    ⟨Numeral.int64?_eq_none_iff.2 (h.not_denotes_toInt hm), .inr ⟨rfl, fun r hr => ?_⟩⟩
  rw [← Numeral.integer?_eq_some_iff, hr, toList_quoted, List.cons_append,
    Numeral.integer?_quote_cons] at h
  cases h

/-- **Literals are written without loss and read exactly.**  A literal is read back from its written
form.  A lexeme is an integer exactly if it is a numeral of one in 64 bits; else it is a text, which
is what stands between the quotes if there is one at either end, and the whole lexeme if not.  So a
numeral that does not fit in 64 bits is kept whole. -/
theorem coding_exact :
    (∀ l : Literal, coerce l.toText = l) ∧
    ∀ x : String,
      (∀ n : Int64, coerce x = integer n ↔ Numeral.Denotes x.toList n.toInt) ∧
      (∀ s : String, coerce x = text s ↔
        (∀ n : Int64, ¬ Numeral.Denotes x.toList n.toInt) ∧
          (x = "'" ++ s ++ "'" ∨ x = s ∧ ∀ r : String, x ≠ "'" ++ r ++ "'")) ∧
      ∀ m : Int, Numeral.Denotes x.toList m →
        m < -0x8000_0000_0000_0000 ∨ 0x8000_0000_0000_0000 ≤ m → coerce x = text x := by
  refine ⟨coerce_toText, fun x => ⟨fun n => coerce_eq_integer_iff, fun s => ?_, fun m h hm => ?_⟩⟩
  · rw [← Numeral.int64?_eq_none_iff]
    exact coerce_eq_text_iff
  · exact coerce_of_overflow h hm

/-- The limits of 64 bits and one beyond, zeros behind a sign, quotes within quotes and a quote
alone. -/
theorem coding_exact_at_limits :
    coerce (integer Int64.minValue).toText = integer Int64.minValue ∧
    coerce (text "'-5'").toText = text "'-5'" ∧
    coerce "-009223372036854775808" = integer Int64.minValue ∧
    coerce "'+7'" = text "+7" ∧
    coerce "'" = text "'" ∧
    Numeral.Denotes "9223372036854775808".toList 0x8000_0000_0000_0000 ∧
    coerce "9223372036854775808" = text "9223372036854775808" := by
  have hleast : Numeral.Denotes "-009223372036854775808".toList (-0x8000_0000_0000_0000) :=
    .minus ⟨[0, 0, 9, 2, 2, 3, 3, 7, 2, 0, 3, 6, 8, 5, 4, 7, 7, 5, 8, 0, 8], by decide, by decide,
      rfl, by decide⟩
  have hbeyond : Numeral.Denotes "9223372036854775808".toList 0x8000_0000_0000_0000 :=
    .unsigned ⟨[9, 2, 2, 3, 3, 7, 2, 0, 3, 6, 8, 5, 4, 7, 7, 5, 8, 0, 8], by decide, by decide,
      rfl, by decide⟩
  have hquoted : ∀ n : Int64, ¬ Numeral.Denotes "'+7'".toList n.toInt :=
    Numeral.int64?_eq_none_iff.1 (by decide)
  have hlone : ∀ n : Int64, ¬ Numeral.Denotes "'".toList n.toInt :=
    Numeral.int64?_eq_none_iff.1 (by decide)
  have hsingle : ∀ r : String, "'" ≠ "'" ++ r ++ "'" := by
    intro r hr
    have hlength : 1 = 1 + r.length + 1 := by simpa using congrArg String.length hr
    omega
  refine ⟨coding_exact.1 _, coding_exact.1 _, ?_, ?_, ?_, hbeyond, ?_⟩
  · exact ((coding_exact.2 _).1 Int64.minValue).2 hleast
  · exact ((coding_exact.2 _).2.1 "+7").2 ⟨hquoted, .inl rfl⟩
  · exact ((coding_exact.2 _).2.1 "'").2 ⟨hlone, .inr ⟨rfl, hsingle⟩⟩
  · exact (coding_exact.2 _).2.2 _ hbeyond (.inr (by decide))

end Literal

end Screening
