import Screening.Rule.Judge

/-!
# Comparing integers

A condition with an integer literal orders an integer of the record against it.  Below `2 ^ 63` the
two are ordered as they are.  A greater integer goes through binary64, and then so does the literal;
the binary64 numbers next to `2 ^ 63` are 2048 above it and 1024 below.  Rounding moves neither of
the two across `2 ^ 63`, which is a binary64 number itself, but it can move both onto it
(`middle_le_scaled`, `scaled_le_middle`).

So the order is the right one but in one place: an integer at most 1024 above `2 ^ 63` and a literal
at most 512 below it count as equal.  `Blurred` is that place.  There the six comparisons come out
as they do for equal numbers, and `<` and `>=` are the two for which that makes no difference
(`judge_integer`).

Where the two numbers round to half a unit, the even neighbour is taken; on both sides that is `2 ^
63`, which is why the bounds 1024 and 512 belong to the place.

A binary64 number is a number of units, the least of which is far below one.  No proof here computes
with the number of units in one, which has more than a thousand bits: all that is used of it is that
it is a power of two (`exists_one_eq`), and a common factor does not change how a quotient rounds
(`roundToEven_mul_right`).
-/

set_option autoImplicit false

namespace Screening

/-! ## What a comparison says of two integers -/

namespace Comparison

/-- The relation of integers that the comparison is the sign of. -/
def Relates : Comparison → Int → Int → Prop
  | less, m, n => m < n
  | atMost, m, n => m ≤ n
  | greater, m, n => n < m
  | atLeast, m, n => n ≤ m
  | equal, m, n => m = n
  | unequal, m, n => m ≠ n

instance : (c : Comparison) → (m n : Int) → Decidable (c.Relates m n)
  | less, m, n => inferInstanceAs (Decidable (m < n))
  | atMost, m, n => inferInstanceAs (Decidable (m ≤ n))
  | greater, m, n => inferInstanceAs (Decidable (n < m))
  | atLeast, m, n => inferInstanceAs (Decidable (n ≤ m))
  | equal, m, n => inferInstanceAs (Decidable (m = n))
  | unequal, m, n => inferInstanceAs (Decidable (m ≠ n))

/-- A comparison holds of an order exactly if it relates the two integers. -/
theorem holds_compare (c : Comparison) (m n : Int) :
    c.holds (some (compare m n)) = decide (c.Relates m n) := by
  rw [Bool.eq_iff_iff, decide_eq_true_iff]
  rcases Int.lt_trichotomy m n with h | rfl | h
  · rw [Int.compare_eq_lt.2 h]
    cases c <;> simp [holds, Relates] <;> omega
  · rw [Std.compare_self]
    cases c <;> simp [holds, Relates]
  · rw [Int.compare_eq_gt.2 h]
    cases c <;> simp [holds, Relates] <;> omega

/-- Of two integers, the greater one first, only `<` and `>=` say what they say of equal ones. -/
theorem relates_self_iff_relates {c : Comparison} {m n : Int} (h : n < m) :
    (c.Relates m m ↔ c.Relates m n) ↔ c = less ∨ c = atLeast := by
  cases c <;> simp [Relates] <;> omega

end Comparison

namespace Binary64

/-! ## Rounding a quotient

A quotient is rounded to the nearest whole number, and to the even one of two that are as near. -/

/-- A common factor does not change how a quotient rounds. -/
theorem roundToEven_mul_right {c : Nat} (hc : 0 < c) (num den : Nat) :
    roundToEven (num * c) (den * c) = roundToEven num den := by
  have hlt : 2 * (num % den * c) < den * c ↔ 2 * (num % den) < den := by
    rw [← Nat.mul_assoc]
    exact Nat.mul_lt_mul_right hc
  have heq : 2 * (num % den * c) = den * c ↔ 2 * (num % den) = den := by
    rw [← Nat.mul_assoc]
    exact Nat.mul_left_inj (Nat.ne_of_gt hc)
  simp only [roundToEven, Nat.mul_mod_mul_right, Nat.mul_div_mul_right num den hc, hlt, heq]

theorem roundToEven_le (num den : Nat) : roundToEven num den ≤ num / den + 1 := by
  rw [roundToEven]
  split
  · omega
  · split <;> omega

/-- Rounding to a unit never doubles a number of units. -/
theorem nearest_le (units : Nat) : nearest units 1 ≤ 2 * units := by
  rw [nearest, Nat.div_one, Nat.one_mul]
  by_cases h : units = 0
  · subst h
    decide
  · have hstep : spacing units ≤ units := by
      calc spacing units ≤ Nat.pow 2 units.log2 :=
            Nat.pow_le_pow_right (by decide) (Nat.sub_le _ _)
        _ ≤ units := Nat.log2_self_le h
    calc roundToEven units (spacing units) * spacing units
        ≤ (units / spacing units + 1) * spacing units :=
          Nat.mul_le_mul_right _ (roundToEven_le _ _)
      _ = units / spacing units * spacing units + spacing units := Nat.succ_mul _ _
      _ ≤ units + units := Nat.add_le_add (Nat.div_mul_le_self _ _) hstep
      _ = 2 * units := (Nat.two_mul units).symm

/-! ## Whole numbers in units -/

theorem pow_pos (k : Nat) : 0 < Nat.pow 2 k := Nat.two_pow_pos k

/-- All that the proofs need to know of the number of units in one. -/
theorem exists_one_eq : ∃ j, one = Nat.pow 2 j := by
  delta one
  exact ⟨_, rfl⟩

theorem one_pos : 0 < one := by
  obtain ⟨j, hj⟩ := exists_one_eq
  rw [hj]
  exact pow_pos j

/-- A factor that is a power of two adds to the number of bits. -/
theorem log2_mul_pow {n k : Nat} (j : Nat) (low : Nat.pow 2 k ≤ n) (high : n < Nat.pow 2 (k + 1)) :
    (n * Nat.pow 2 j).log2 = k + j := by
  have hn : 0 < n := Nat.lt_of_lt_of_le (pow_pos k) low
  rw [Nat.log2_eq_iff (Nat.ne_of_gt (Nat.mul_pos hn (pow_pos j)))]
  constructor
  · rw [Nat.pow_add]
    exact Nat.mul_le_mul_right _ low
  · rw [show k + j + 1 = k + 1 + j by omega, Nat.pow_add]
    exact Nat.mul_lt_mul_of_pos_right high (pow_pos j)

/-- A whole number of `53 + k` bits is rounded to a multiple of `2 ^ k`. -/
theorem nearest_mul_one {n k : Nat} (low : Nat.pow 2 (52 + k) ≤ n)
    (high : n < Nat.pow 2 (53 + k)) :
    nearest (n * one) 1 = roundToEven n (Nat.pow 2 k) * Nat.pow 2 k * one := by
  -- `one` is itself a power of two, so only the number of bits decides of the distance.
  have hstep : spacing (n * one) = Nat.pow 2 k * one := by
    obtain ⟨j, hj⟩ := exists_one_eq
    have hlog : (n * Nat.pow 2 j).log2 = 52 + k + j :=
      log2_mul_pow j low (by rwa [show 52 + k + 1 = 53 + k by omega])
    rw [hj, spacing, hlog, show 52 + k + j - 52 = k + j by omega]
    exact Nat.pow_add 2 k j
  rw [nearest, Nat.div_one, hstep, Nat.one_mul, roundToEven_mul_right one_pos, Nat.mul_assoc]

/-- An integer that is not negative is rounded as its number of units. -/
theorem scaled_ofInt_natCast (n : Nat) : (ofInt n).scaled = nearest (n * one) 1 := by
  simp [scaled, ofInt, Int.not_lt.2 (Int.natCast_nonneg n)]

theorem scaled_ofInt_of_neg {n : Int} (h : n < 0) : (ofInt n).scaled ≤ 0 := by
  simp [scaled, ofInt, h]

/-! ## Both sides of `2 ^ 63`

Of an integer from there on and of a literal below it is shown on which side of the middle they are
rounded to, and when onto it. -/

/-- `2 ^ 63` in units. -/
def middle : Int := (0x8000_0000_0000_0000 * one : Nat)

/-- An integer from `2 ^ 63` on is not rounded below that, and is rounded to it if it lies above it
by at most half of the distance to the next number. -/
theorem middle_le_scaled {n : Int} (low : 0x8000_0000_0000_0000 ≤ n)
    (high : n < 0x1_0000_0000_0000_0000) :
    middle ≤ (ofInt n).scaled ∧
      ((ofInt n).scaled = middle ↔ n ≤ 0x8000_0000_0000_0400) := by
  obtain ⟨m, rfl⟩ := Int.eq_ofNat_of_zero_le (show 0 ≤ n by omega)
  have hnear : nearest (m * one) 1 = roundToEven m 2048 * 2048 * one :=
    nearest_mul_one (k := 11) (show 0x8000_0000_0000_0000 ≤ m by omega)
      (show m < 0x1_0000_0000_0000_0000 by omega)
  -- The numbers from there on are 2048 apart, and the middle between the first two goes to the
  -- first, which is the even one.
  have hround : 0x8000_0000_0000_0000 ≤ roundToEven m 2048 * 2048 ∧
      (roundToEven m 2048 * 2048 = 0x8000_0000_0000_0000 ↔ m ≤ 0x8000_0000_0000_0400) := by
    rw [roundToEven]
    split
    · omega
    · split <;> omega
  rw [scaled_ofInt_natCast, hnear, middle, Int.ofNat_le, Int.ofNat_inj,
    Nat.mul_left_inj (Nat.ne_of_gt one_pos)]
  exact ⟨Nat.mul_le_mul_right _ hround.1, hround.2.trans (by omega)⟩

/-- An integer below `2 ^ 63` is not rounded above that, and is rounded to it if it lies below it by
at most half of the distance to the number before. -/
theorem scaled_le_middle {n : Int} (high : n < 0x8000_0000_0000_0000) :
    (ofInt n).scaled ≤ middle ∧
      ((ofInt n).scaled = middle ↔ 0x7fff_ffff_ffff_fe00 ≤ n) := by
  have hone := one_pos
  -- Three ranges: below zero and below `2 ^ 62` a bound is enough, and only in the rest the numbers
  -- have to be known, which are 1024 apart there.
  by_cases hneg : n < 0
  · have hscaled := scaled_ofInt_of_neg hneg
    rw [middle]
    omega
  obtain ⟨m, rfl⟩ := Int.eq_ofNat_of_zero_le (show 0 ≤ n by omega)
  rw [scaled_ofInt_natCast, middle, Int.ofNat_le, Int.ofNat_inj]
  by_cases hsmall : m < 0x4000_0000_0000_0000
  · have hlt : nearest (m * one) 1 < 0x8000_0000_0000_0000 * one := by
      calc nearest (m * one) 1 ≤ 2 * (m * one) := nearest_le _
        _ = 2 * m * one := (Nat.mul_assoc 2 m one).symm
        _ < 0x8000_0000_0000_0000 * one := Nat.mul_lt_mul_of_pos_right (by omega) hone
    omega
  · have hnear : nearest (m * one) 1 = roundToEven m 1024 * 1024 * one :=
      nearest_mul_one (k := 10) (show 0x4000_0000_0000_0000 ≤ m by omega)
        (show m < 0x8000_0000_0000_0000 by omega)
    have hround : roundToEven m 1024 * 1024 ≤ 0x8000_0000_0000_0000 ∧
        (roundToEven m 1024 * 1024 = 0x8000_0000_0000_0000 ↔ 0x7fff_ffff_ffff_fe00 ≤ m) := by
      rw [roundToEven]
      split
      · omega
      · split <;> omega
    rw [hnear, Nat.mul_left_inj (Nat.ne_of_gt hone)]
    exact ⟨Nat.mul_le_mul_right _ hround.1, hround.2.trans (by omega)⟩

end Binary64

/-! ## The order of a condition

What remains is a case distinction over the place of the integer. -/

/-- An integer from `2 ^ 63` on and a literal below it, both of which round to it. -/
structure Blurred (actual expected : Int) : Prop where
  above : 0x8000_0000_0000_0000 ≤ actual
  near : actual ≤ 0x8000_0000_0000_0400
  below : 0x7fff_ffff_ffff_fe00 ≤ expected

namespace Json.Number

variable {v : Int} {h : -0x8000_0000_0000_0000 ≤ v ∧ v < 0x1_0000_0000_0000_0000} {e : Int64}

/-- Below `2 ^ 63` integers are compared as they are. -/
theorem order_of_lt (hv : v < 0x8000_0000_0000_0000) :
    (integer v h).order e = compare v e.toInt := by
  have hn : (integer v h).toInt64? = some (Int64.ofInt v) := if_pos ⟨h.1, hv⟩
  have hback : (Int64.ofInt v).toInt = v := Int64.toInt_ofInt_of_le h.1 hv
  rw [order, hn]
  exact congrArg (compare · e.toInt) hback

/-- From there on their roundings are. -/
theorem order_of_le (hv : 0x8000_0000_0000_0000 ≤ v) :
    (integer v h).order e
      = compare (Binary64.ofInt v).scaled (Binary64.ofInt e.toInt).scaled := by
  have hnone : (integer v h).toInt64? = none := if_neg fun hlt => by omega
  rw [order, hnone]
  rfl

/-- Where both round to `2 ^ 63` they are equal. -/
theorem order_of_blurred (hb : Blurred v e.toInt) : (integer v h).order e = .eq := by
  have hv : (Binary64.ofInt v).scaled = Binary64.middle :=
    (Binary64.middle_le_scaled hb.above h.2).2.2 hb.near
  have he : (Binary64.ofInt e.toInt).scaled = Binary64.middle :=
    (Binary64.scaled_le_middle e.toInt_lt).2.2 hb.below
  rw [order_of_le hb.above, hv, he, Std.compare_self]

/-- Everywhere else the order is the right one. -/
theorem order_of_not_blurred (hb : ¬ Blurred v e.toInt) :
    (integer v h).order e = compare v e.toInt := by
  by_cases hv : v < 0x8000_0000_0000_0000
  · exact order_of_lt hv
  · have habove : 0x8000_0000_0000_0000 ≤ v := by omega
    have hbelow : e.toInt < v := Int.lt_of_lt_of_le e.toInt_lt habove
    obtain ⟨hle, heq⟩ := Binary64.middle_le_scaled habove h.2
    obtain ⟨hle', heq'⟩ := Binary64.scaled_le_middle e.toInt_lt
    rw [order_of_le habove, Int.compare_eq_gt.2 hbelow, Int.compare_eq_gt]
    refine Int.lt_iff_le_and_ne.2 ⟨Int.le_trans hle' hle, fun hsame => hb ⟨habove, ?_, ?_⟩⟩
    · exact heq.1 (Int.le_antisymm (hsame ▸ hle') hle)
    · exact heq'.1 (Int.le_antisymm hle' (hsame.symm ▸ hle))

end Json.Number

theorem Verdict.ofBool_inj {a b : Bool} : ofBool a = ofBool b ↔ a = b := by
  cases a <;> cases b <;> simp [ofBool]

namespace Condition

theorem judge_number (field : String) (c : Comparison) (e : Int64) (n : Json.Number) :
    judge ⟨field, c, .integer e⟩ (some (.number n)) = .ofBool (c.holds (some (n.order e))) :=
  rfl

/-- **Where comparing integers is exact.**  A condition with an integer literal, judged on an
integer of the record, comes out as its comparison of the two integers does, unless they are blurred
and the comparison is neither `<` nor `>=`.  Blurred integers are judged like equal ones although
the literal is the smaller of the two. -/
theorem judge_integer (field : String) (c : Comparison) (e : Int64) (v : Int)
    (h : -0x8000_0000_0000_0000 ≤ v ∧ v < 0x1_0000_0000_0000_0000) :
    let judged := judge ⟨field, c, .integer e⟩ (some (.number (.integer v h)))
    (judged = .ofBool (decide (c.Relates v e.toInt)) ↔
        (Blurred v e.toInt → c = .less ∨ c = .atLeast)) ∧
      (Blurred v e.toInt → e.toInt < v ∧ judged = .ofBool (decide (c.Relates v v))) := by
  intro judged
  have hjudged : judged = .ofBool (c.holds (some ((Json.Number.integer v h).order e))) :=
    judge_number field c e _
  by_cases hb : Blurred v e.toInt
  · have hlt : e.toInt < v := Int.lt_of_lt_of_le e.toInt_lt hb.above
    rw [Json.Number.order_of_blurred hb, ← Std.compare_self (a := v), c.holds_compare] at hjudged
    refine ⟨?_, fun _ => ⟨hlt, hjudged⟩⟩
    rw [hjudged, Verdict.ofBool_inj, decide_eq_decide, c.relates_self_iff_relates hlt]
    exact ⟨fun hc _ => hc, fun hc => hc hb⟩
  · rw [Json.Number.order_of_not_blurred hb, c.holds_compare] at hjudged
    exact ⟨⟨fun _ hb' => absurd hb' hb, fun _ => hjudged⟩, fun hb' => absurd hb' hb⟩

/-- The greatest integer and the least literal that are blurred are judged equal; one more or one
less and they are told apart. -/
theorem judge_integer_at_corner :
    let judged (v : Int) (h : -0x8000_0000_0000_0000 ≤ v ∧ v < 0x1_0000_0000_0000_0000)
      (e : Int64) := judge ⟨"a", .equal, .integer e⟩ (some (.number (.integer v h)))
    Blurred 0x8000_0000_0000_0400 (Int64.toInt 0x7fff_ffff_ffff_fe00) ∧
      judged 0x8000_0000_0000_0400 (by decide) 0x7fff_ffff_ffff_fe00 = .yes ∧
      judged 0x8000_0000_0000_0401 (by decide) 0x7fff_ffff_ffff_fe00 = .no ∧
      judged 0x8000_0000_0000_0400 (by decide) 0x7fff_ffff_ffff_fdff = .no := by
  have hb : Blurred 0x8000_0000_0000_0400 (Int64.toInt 0x7fff_ffff_ffff_fe00) :=
    ⟨by decide, by decide, by decide⟩
  refine ⟨hb, ?_, ?_, ?_⟩
  · have hcorner :=
      judge_integer "a" .equal 0x7fff_ffff_ffff_fe00 0x8000_0000_0000_0400 (by decide)
    exact (hcorner.2 hb).2
  · exact (judge_integer "a" .equal 0x7fff_ffff_ffff_fe00 0x8000_0000_0000_0401 (by decide)).1.2
      fun hb' => absurd hb'.near (by decide)
  · exact (judge_integer "a" .equal 0x7fff_ffff_ffff_fdff 0x8000_0000_0000_0400 (by decide)).1.2
      fun hb' => absurd hb'.below (by decide)

/-- The least integer that does not fit into 64 signed bits is judged equal to the greatest literal,
and not greater. -/
theorem judge_integer_of_neighbours :
    let above : Json.Number := .integer 0x8000_0000_0000_0000 (by decide)
    Int64.maxValue.toInt < 0x8000_0000_0000_0000 ∧
      judge ⟨"a", .equal, .integer Int64.maxValue⟩ (some (.number above)) = .yes ∧
      judge ⟨"a", .greater, .integer Int64.maxValue⟩ (some (.number above)) = .no := by
  intro above
  have horder : above.order Int64.maxValue = .eq :=
    Json.Number.order_of_blurred ⟨by decide, by decide, by decide⟩
  refine ⟨by decide, ?_, ?_⟩
  · rw [judge_number, horder]
    rfl
  · rw [judge_number, horder]
    rfl

end Condition

end Screening
