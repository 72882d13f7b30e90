import Screening.Literal
import Screening.Proofs.Scanning

/-!
# Writing literals and reading them back

A literal is written so that `Literal.coerce` finds it again (`coerce_toText`), over the whole range
of 64-bit integers and for every text.  That is about one lexeme by itself.  In the text of a rule
the scanner comes first, and it drops minus signs and cuts a text at the first quote inside it; the
literals that come through whole are `Literal.Plain`.  Their written form is a legal lexeme
(`legal_toText`), and a literal that was read from a legal lexeme is plain (`plain_coerce`).

Reading tries an integer first.  So a text must not be written like one, and it is not: it is
written in quotes, which no integer begins with (`integer?_quote_cons`).  What has no quotes and is
no integer is a text as it stands (`coerce_eq_text_iff`).
-/

set_option autoImplicit false

namespace Screening

namespace Numeral

/-! ## Decimal digits -/

theorem ofDigits_digits (n : Nat) : ofDigits (digits n) = n := by
  rw [ofDigits, digits, ← Nat.ofDigitChars_eq_foldl, Nat.ofDigitChars_ten_toDigits]

theorem isDigit_of_mem_digits {n : Nat} {c : Char} (h : c ∈ digits n) : c.isDigit = true :=
  Nat.isDigit_of_mem_toDigits (by decide) (by decide) h

theorem natural?_digits (n : Nat) : natural? (digits n) = some n := by
  rw [natural?, if_pos ⟨Nat.toDigits_ne_nil, List.all_eq_true.2 fun _ => isDigit_of_mem_digits⟩,
    ofDigits_digits]

/-- A character that is no digit spoils a number. -/
theorem natural?_eq_none_of_mem {s : List Char} {c : Char} (hc : c ∈ s)
    (hd : c.isDigit = false) : natural? s = none := by
  rw [natural?, if_neg]
  rintro ⟨-, h⟩
  rw [List.all_eq_true.1 h c hc] at hd
  cases hd

/-- Only a sign makes a difference between a number and an integer. -/
theorem integer?_of_unsigned {s : List Char} (hp : s.head? ≠ some '+') (hm : s.head? ≠ some '-') :
    integer? s = (natural? s).map Int.ofNat := by
  rw [integer?.eq_def]
  split
  · exact absurd rfl hp
  · exact absurd rfl hm
  · rfl

/-- Without a sign in front a numeral is its digits. -/
theorem integer?_of_natural? {s : List Char} {k : Nat} (h : natural? s = some k) :
    integer? s = some (k : Int) := by
  have hhead {c : Char} (hc : c.isDigit = false) : s.head? ≠ some c := by
    intro hs
    rw [natural?_eq_none_of_mem (List.mem_of_head? hs) hc] at h
    cases h
  rw [integer?_of_unsigned (hhead (by decide)) (hhead (by decide)), h]
  rfl

/-- What begins with a quote is no integer. -/
theorem integer?_quote_cons (s : List Char) : integer? ('\'' :: s) = none := by
  rw [integer?_of_unsigned (by simp) (by simp),
    natural?_eq_none_of_mem List.mem_cons_self (by decide)]
  rfl

/-- An integer is read back from its decimal form. -/
theorem integer?_ofInt (n : Int) : integer? (ofInt n).toList = some n := by
  rw [ofInt]
  split
  · have hminus : ("-" ++ String.ofList (digits n.natAbs)).toList = '-' :: digits n.natAbs := by
      simp
    rw [hminus, integer?, natural?_digits, Option.map_some, Option.some.injEq,
      Int.ofNat_eq_natCast]
    omega
  · rw [String.toList_ofList, integer?_of_natural? (natural?_digits _), Option.some.injEq]
    omega

/-- Only a minus sign makes a numeral negative. -/
theorem nonneg_of_integer? {s : List Char} {n : Int} (hm : s.head? ≠ some '-')
    (h : integer? s = some n) : 0 ≤ n := by
  rw [integer?.eq_def] at h
  split at h
  · obtain ⟨k, -, rfl⟩ := Option.map_eq_some_iff.1 h
    exact Int.natCast_nonneg k
  · exact absurd rfl hm
  · obtain ⟨k, -, rfl⟩ := Option.map_eq_some_iff.1 h
    exact Int.natCast_nonneg k

theorem toInt64?_toInt (n : Int64) : toInt64? n.toInt = some n := by
  have hlo := n.le_toInt
  have hhi := n.toInt_lt
  rw [toInt64?, if_pos (by omega), Int64.ofInt_toInt]

/-- Every 64-bit integer is read back from its decimal form. -/
theorem int64?_ofInt (n : Int64) : int64? (ofInt n.toInt).toList = some n := by
  rw [int64?, integer?_ofInt, Option.bind_some, toInt64?_toInt]

theorem toInt_of_toInt64? {m : Int} {n : Int64} (h : toInt64? m = some n) : n.toInt = m := by
  rw [toInt64?] at h
  split at h
  · rename_i hm
    cases h
    exact Int64.toInt_ofInt_of_le (by omega) (by omega)
  · cases h

end Numeral

namespace Literal

/-! ## A literal by itself

A lexeme is taken for an integer if it reads as one in range, and for a text otherwise. -/

theorem unquote_quoted (s : List Char) : unquote ('\'' :: s ++ ['\'']) = s := by
  simp [unquote]

theorem unquote_of_not_quoted {cs : List Char} (h : ∀ r, cs ≠ '\'' :: r ++ ['\'']) :
    unquote cs = cs := by
  rw [unquote.eq_def]
  split
  · rename_i r
    refine if_neg fun hlast => ?_
    obtain ⟨inside, rfl⟩ := List.getLast?_eq_some_iff.1 hlast
    exact h inside rfl
  · rfl

/-- What is left is what stands between the quotes, or everything if there are none. -/
theorem unquote_eq_iff {cs s : List Char} :
    unquote cs = s ↔ cs = '\'' :: s ++ ['\''] ∨ cs = s ∧ ∀ r, cs ≠ '\'' :: r ++ ['\''] := by
  by_cases hq : ∃ r, cs = '\'' :: r ++ ['\'']
  · obtain ⟨r, rfl⟩ := hq
    rw [unquote_quoted]
    simp
  · have hcs := not_exists.1 hq
    rw [unquote_of_not_quoted hcs]
    exact ⟨fun h => .inr ⟨h, hcs⟩, fun h => h.elim (fun h => absurd h (hcs s)) And.left⟩

theorem toList_quoted (s : String) : ("'" ++ s ++ "'").toList = '\'' :: s.toList ++ ['\''] := by
  simp

/-- A lexeme that is no integer in 64 bits is what stands between its quotes, or itself where it has
none. -/
theorem coerce_eq_text_iff {lexeme s : String} :
    coerce lexeme = text s ↔ Numeral.int64? lexeme.toList = none ∧
      (lexeme = "'" ++ s ++ "'" ∨ lexeme = s ∧ ∀ r : String, lexeme ≠ "'" ++ r ++ "'") := by
  have hquoted (r : String) :
      lexeme = "'" ++ r ++ "'" ↔ lexeme.toList = '\'' :: r.toList ++ ['\''] := by
    rw [← toList_quoted, String.toList_inj]
  have hall : (∀ r : String, lexeme ≠ "'" ++ r ++ "'")
      ↔ ∀ r, lexeme.toList ≠ '\'' :: r ++ ['\''] := by
    refine ⟨fun h r hr => h (String.ofList r) ?_, fun h r hr => h r.toList ((hquoted r).1 hr)⟩
    rw [hquoted, String.toList_ofList, hr]
  rw [coerce, hquoted, hall, ← String.toList_inj, ← unquote_eq_iff]
  split
  · rename_i n hn
    simp [hn]
  · rename_i hn
    rw [text.injEq, ← String.toList_inj, String.toList_ofList]
    exact (and_iff_right hn).symm

/-- **A literal is read back from its written form.** -/
theorem coerce_toText (l : Literal) : coerce l.toText = l := by
  cases l with
  | integer n => rw [toText, coerce, Numeral.int64?_ofInt]
  | text s =>
    refine coerce_eq_text_iff.2 ⟨?_, .inl rfl⟩
    rw [toText, toList_quoted, List.cons_append, Numeral.int64?, Numeral.integer?_quote_cons]
    rfl

/-- A lexeme that stands for a text is that text, bare or in quotes. -/
theorem eq_or_quoted_of_coerce {lexeme s : String} (h : coerce lexeme = text s) :
    lexeme = s ∨ lexeme = (text s).toText :=
  (coerce_eq_text_iff.1 h).2.elim .inr fun h => .inl h.1

/-! ## A literal in the text of a rule -/

/-- No minus sign, and no quotes. -/
def Plain : Literal → Prop
  | integer n => 0 ≤ n.toInt
  | text s => '\'' ∉ s.toList ∧ '"' ∉ s.toList

instance (l : Literal) : Decidable l.Plain :=
  match l with
  | integer n => inferInstanceAs (Decidable (0 ≤ n.toInt))
  | text s => inferInstanceAs (Decidable ('\'' ∉ s.toList ∧ '"' ∉ s.toList))

open Lexeme in
theorem isWord_digits (n : Nat) : IsWord (Numeral.digits n) where
  ne_nil := Nat.toDigits_ne_nil
  chars c hc := by simp [isWordChar, Char.isAlphanum, Numeral.isDigit_of_mem_digits hc]
  not_and h := absurd (Numeral.isDigit_of_mem_digits (h.subset List.mem_cons_self)) (by decide)
  not_or h := absurd (Numeral.isDigit_of_mem_digits (h.subset List.mem_cons_self)) (by decide)

/-- **A plain literal is written as one lexeme.** -/
theorem legal_toText {l : Literal} (h : l.Plain) : Lexeme.Legal l.toText.toList := by
  cases l with
  | integer n =>
    have hn : ¬ n.toInt < 0 := Int.not_lt.2 h
    rw [toText, Numeral.ofInt, if_neg hn, String.toList_ofList]
    exact .word (isWord_digits _)
  | text s =>
    rw [toText, toList_quoted]
    exact .quoted h.1 h.2

/-- A text that a lexeme stands for has no quotes in it. -/
theorem plain_text_of_legal {w : List Char} (h : Lexeme.Legal w) :
    (text (String.ofList (unquote w))).Plain := by
  have hplain : '\'' ∉ unquote w ∧ '"' ∉ unquote w := by
    cases h with
    | fixed h =>
      revert w
      decide
    | quoted single double => rw [unquote_quoted]; exact ⟨single, double⟩
    | word h =>
      have hq : ∀ c ∈ w, c ≠ '\'' := by
        rintro c hc rfl
        exact absurd (h.chars _ hc) (by decide)
      have hw : unquote w = w :=
        unquote_of_not_quoted fun r hr => hq '\'' (hr ▸ List.mem_cons_self) rfl
      rw [hw]
      exact ⟨fun hc => hq _ hc rfl, (Lexeme.Legal.word h).double_not_mem⟩
  rw [Plain, String.toList_ofList]
  exact hplain

/-- No legal lexeme has a minus sign for its integer. -/
theorem plain_integer_of_legal {w : List Char} (h : Lexeme.Legal w) {n : Int64}
    (hn : Numeral.int64? w = some n) : (integer n).Plain := by
  obtain ⟨m, hm, hn⟩ := Option.bind_eq_some_iff.1 hn
  rw [Plain, Numeral.toInt_of_toInt64? hn]
  refine Numeral.nonneg_of_integer? (fun hhead => ?_) hm
  cases h with
  | fixed h =>
    have hsign : ∀ f ∈ Lexeme.fixed, f.head? ≠ some '-' := by decide
    exact hsign w h hhead
  | quoted => simp at hhead
  | word h => exact absurd (h.chars _ (List.mem_of_head? hhead)) (by decide)

/-- What a legal lexeme stands for comes through the text of a rule whole. -/
theorem plain_coerce {lexeme : String} (h : Lexeme.Legal lexeme.toList) :
    (coerce lexeme).Plain := by
  rw [coerce]
  split
  · exact plain_integer_of_legal h ‹_›
  · exact plain_text_of_legal h

end Literal

end Screening
