import Screening.Proofs.Bookkeeping

/-!
# Which exchange is meant

The identifier of an exchange is shown twice, in a header of the response and in the span that the
exchange is reported by, and whoever has one of the two has to find the other.  So both must hold
the same text, and the header must be there, whatever becomes of the request (`serve_identified`).

Two things could go wrong.  A response might come with such a header of its own; but no response has
another header than its media type and, where a method is not served, the ones that are
(`plain_handle`).  And a text taken over from the request might not be fit to be written into the
response; that it always is has been seen with `RequestId.writeTo_ofRequest`.

What a request sends is taken over byte for byte.  That is more than that the texts are equal, for a
header has bytes and not characters: it is read as text only if all of them are visible ASCII,
blanks or tabs, and those are written as themselves (`encode_visible`).

An identifier that is made up is a UUID of version 4 (`Uuid.isVersion4_toText`), and it shows all of
its random bits (`Uuid.toText_inj`).  So whoever makes up another one has another identifier.
-/

set_option autoImplicit false

namespace Screening.Http

/-! ## The text of a UUID

A UUID is 128 bits, of which six are fixed.  Its text has their hexadecimal digits from the left. -/

/-- The form of a UUID of version 4: hexadecimal digits in lower case, in five groups with hyphens
between them, of which the third begins with the version and the fourth with the variant. -/
def IsVersion4 (text : String) : Prop :=
  ∃ a b c d e : List Char, ∃ variant ∈ ['8', '9', 'a', 'b'],
    (∀ x ∈ a ++ b ++ c ++ d ++ e, x ∈ "0123456789abcdef".toList) ∧
    a.length = 8 ∧ b.length = 4 ∧ c.length = 3 ∧ d.length = 3 ∧ e.length = 12 ∧
    text = String.ofList
      (a ++ '-' :: b ++ '-' :: '4' :: c ++ '-' :: variant :: d ++ '-' :: e)

namespace Uuid

/-- The number that the bits make, part by part. -/
theorem toNat_bits (u : Uuid) :
    u.bits.toNat = (((u.high.toNat * 16 + 4) * 4096 + u.middle.toNat) * 4 + 2)
      * 4611686018427387904 + u.low.toNat := by
  have happend {v w : Nat} (x : BitVec v) (y : BitVec w) :
      (x ++ y).toNat = x.toNat * 2 ^ w + y.toNat := by
    rw [BitVec.toNat_append, ← Nat.shiftLeft_add_eq_or_of_lt y.isLt, Nat.shiftLeft_eq]
  rw [bits, happend, happend, happend, happend]
  rfl

/-- The bits make the UUID: version and variant are always the same, and the other parts can be told
from the number. -/
theorem eq_of_bits {u v : Uuid} (h : u.bits.toNat = v.bits.toNat) : u = v := by
  rw [toNat_bits, toNat_bits] at h
  obtain ⟨high, middle, low⟩ := u
  obtain ⟨high', middle', low'⟩ := v
  have hmiddle := middle.isLt
  have hmiddle' := middle'.isLt
  have hlow := low.isLt
  have hlow' := low'.isLt
  have hparts : high.toNat = high'.toNat ∧ middle.toNat = middle'.toNat ∧
      low.toNat = low'.toNat := by
    simp only at h
    omega
  rw [BitVec.eq_of_toNat_eq hparts.1, BitVec.eq_of_toNat_eq hparts.2.1,
    BitVec.eq_of_toNat_eq hparts.2.2]

/-- A digit by its place from the left. -/
def digit (u : Uuid) (i : Nat) : Char :=
  Nat.digitChar (u.bits.toNat / Nat.pow 16 (31 - i) % 16)

variable (u v : Uuid)

theorem digits_eq (start count : Nat) :
    u.digits start count = (List.range count).map fun i => u.digit (start + i) := rfl

theorem length_digits (start count : Nat) : (u.digits start count).length = count := by
  rw [digits_eq, List.length_map, List.length_range]

theorem digits_add (start m n : Nat) :
    u.digits start (m + n) = u.digits start m ++ u.digits (start + m) n := by
  simp only [digits_eq, List.range_add, List.map_append, List.map_map, Function.comp_def,
    Nat.add_assoc]

theorem digits_succ (start count : Nat) :
    u.digits start (count + 1) = u.digit start :: u.digits (start + 1) count := by
  rw [Nat.add_comm, digits_add]
  rfl

theorem digit_mem (i : Nat) : u.digit i ∈ "0123456789abcdef".toList := by
  have h : ∀ d < 16, Nat.digitChar d ∈ "0123456789abcdef".toList := by decide
  exact h _ (Nat.mod_lt _ (by decide))

theorem mem_of_mem_digits {start count : Nat} {c : Char} (h : c ∈ u.digits start count) :
    c ∈ "0123456789abcdef".toList := by
  obtain ⟨i, -, rfl⟩ := List.mem_map.1 h
  exact u.digit_mem _

/-- The thirteenth digit is the version. -/
theorem digit_version : u.digit 12 = '4' := by
  have hmiddle := u.middle.isLt
  have hlow := u.low.isLt
  have h : u.bits.toNat / Nat.pow 16 (31 - 12) % 16 = 4 := by
    rw [toNat_bits]
    show _ / 75557863725914323419136 % 16 = 4
    omega
  rw [digit, h]
  rfl

/-- The seventeenth digit begins with the bits of the variant. -/
theorem digit_variant : u.digit 16 ∈ ['8', '9', 'a', 'b'] := by
  have hlow := u.low.isLt
  have h : 8 ≤ u.bits.toNat / Nat.pow 16 (31 - 16) % 16 ∧
      u.bits.toNat / Nat.pow 16 (31 - 16) % 16 < 12 := by
    rw [toNat_bits]
    show 8 ≤ _ / 1152921504606846976 % 16 ∧ _ / 1152921504606846976 % 16 < 12
    omega
  have hdigits : ∀ d < 12, 8 ≤ d → Nat.digitChar d ∈ ['8', '9', 'a', 'b'] := by decide
  exact hdigits _ h.2 h.1

/-- A UUID is written as one of version 4, with hyphens between the groups. -/
theorem isVersion4_toText : IsVersion4 u.toText := by
  refine ⟨u.digits 0 8, u.digits 8 4, u.digits 13 3, u.digits 17 3, u.digits 20 12, u.digit 16,
    u.digit_variant, fun x hx => ?_, u.length_digits _ _, u.length_digits _ _,
    u.length_digits _ _, u.length_digits _ _, u.length_digits _ _, ?_⟩
  · simp only [List.mem_append] at hx
    obtain (((h | h) | h) | h) | h := hx <;> exact u.mem_of_mem_digits h
  · rw [toText, digits_succ u 12 3, digits_succ u 16 3, digit_version]

/-- The digits are what is left of the text without the hyphens. -/
theorem filter_toText : u.toText.toList.filter (· ≠ '-') = u.digits 0 32 := by
  have hdigits (start count : Nat) :
      (u.digits start count).filter (· ≠ '-') = u.digits start count := by
    refine List.filter_eq_self.2 fun c hc => ?_
    have hne : '-' ∉ "0123456789abcdef".toList := by decide
    exact decide_eq_true fun h => hne (h ▸ u.mem_of_mem_digits hc)
  have hsplit : u.digits 0 32
      = u.digits 0 8 ++ u.digits 8 4 ++ u.digits 12 4 ++ u.digits 16 4 ++ u.digits 20 12 := by
    rw [← digits_add u 0 8 4, ← digits_add u 0 12 4, ← digits_add u 0 16 4, ← digits_add u 0 20 12]
  rw [toText, String.toList_ofList, hsplit]
  simp only [List.filter_append, List.filter_cons, hdigits]
  rfl

/-- A number of so many hexadecimal digits is determined by them. -/
theorem mod_pow_eq_of_digits {m n : Nat} (count : Nat)
    (h : ∀ i < count, m / Nat.pow 16 i % 16 = n / Nat.pow 16 i % 16) :
    m % Nat.pow 16 count = n % Nat.pow 16 count := by
  induction count with
  | zero => exact (Nat.mod_one m).trans (Nat.mod_one n).symm
  | succ count ih =>
    have hlast : m / 16 ^ count % 16 = n / 16 ^ count % 16 := h count (Nat.lt_succ_self count)
    have hrest : m % 16 ^ count = n % 16 ^ count := ih fun i hi => h i (Nat.lt_succ_of_lt hi)
    show m % 16 ^ (count + 1) = n % 16 ^ (count + 1)
    rw [Nat.mod_pow_succ, Nat.mod_pow_succ, hrest, hlast]

/-- Other random bits make another text. -/
theorem toText_inj {u v : Uuid} : u.toText = v.toText ↔ u = v := by
  refine ⟨fun h => ?_, fun h => h ▸ rfl⟩
  have hdigits : u.digits 0 32 = v.digits 0 32 := by rw [← filter_toText, ← filter_toText, h]
  -- The text has the last digit of the number first, so the places are counted from behind.
  have hplace : ∀ i < 32, u.digit (31 - i) = v.digit (31 - i) := by
    intro i hi
    have hi' : 31 - i ∈ List.range 32 := List.mem_range.2 (by omega)
    rw [digits_eq, digits_eq] at hdigits
    simpa only [Nat.zero_add] using List.map_inj_left.1 hdigits (31 - i) hi'
  have hchar : ∀ a < 16, ∀ b < 16, Nat.digitChar a = Nat.digitChar b → a = b := by decide
  have hmod : u.bits.toNat % Nat.pow 16 32 = v.bits.toNat % Nat.pow 16 32 := by
    refine mod_pow_eq_of_digits 32 fun i hi => ?_
    have hi' : 31 - (31 - i) = i := by omega
    have hdigit := hplace i hi
    rw [digit, digit, hi'] at hdigit
    exact hchar _ (Nat.mod_lt _ (by decide)) _ (Nat.mod_lt _ (by decide)) hdigit
  rw [Nat.mod_eq_of_lt u.bits.isLt, Nat.mod_eq_of_lt v.bits.isLt] at hmod
  exact eq_of_bits hmod

end Uuid

/-! ## Headers of responses

It has to be seen of every way to answer a request that it sets no header with the identifier. -/

/-- The response has no header but the media type of what it carries. -/
def Response.Plain (a : Response) : Prop :=
  a.headers = a.content.mediaType?.toList.map ("content-type", ·)

theorem plain_of (status : Nat) (content : Content) : (Response.of status content).Plain := rfl

/-- An operation that was carried out is answered without further headers. -/
theorem plain_carryOut {α : Type} (name : String) (op : Traced (Except RuleError α))
    (data : α → Json.Value) (done : α → Log.Activity) :
    (Handling.carryOut name op data done).response.Plain := by
  rw [Handling.carryOut]
  split <;> exact plain_of _ _

theorem plain_withPayload {σ : Type} {ofBody : List UInt8 → Except Fault σ}
    {handle : σ → Handling} (h : ∀ q, (handle q).response.Plain) (r : Request) :
    (withPayload ofBody handle r).response.Plain := by
  rw [withPayload]
  split
  · exact plain_of _ _
  · split
    · exact plain_of _ _
    · split
      · exact h _
      · rename_i e _
        cases e <;> exact plain_of _ _

/-- No endpoint sets a header by itself. -/
theorem Endpoint.plain_handle (e : Endpoint) (r : Request) : (e.handle r).response.Plain := by
  cases e with
  | create =>
    refine plain_withPayload (fun q => ?_) r
    rw [CreateRequest.handle]
    split
    · exact plain_of _ _
    · exact plain_carryOut _ _ _ _
  | combine =>
    refine plain_withPayload (fun q => ?_) r
    rw [CombineRequest.handle]
    split
    · exact plain_of _ _
    · exact plain_carryOut _ _ _ _
  | evaluate =>
    refine plain_withPayload (fun q => ?_) r
    rw [EvaluateRequest.handle]
    split
    · exact plain_of _ _
    · split
      · exact plain_carryOut _ _ _ _
      · exact plain_of _ _
  | health => exact plain_of _ _

theorem Response.Plain.name_eq {a : Response} (ha : a.Plain) {h : String × String}
    (hh : h ∈ a.headers) : h.1 = "content-type" := by
  rw [ha] at hh
  obtain ⟨_, -, rfl⟩ := List.mem_map.1 hh
  rfl

/-- No response has a header of the name by itself. -/
theorem name_of_mem_headers (r : Request) {h : String × String}
    (hh : h ∈ (handle r).response.headers) : h.1 = "content-type" ∨ h.1 = "allow" := by
  rw [handle] at hh
  split at hh
  · exact .inl ((plain_of _ _).name_eq hh)
  · split at hh
    · exact .inl ((Endpoint.plain_handle _ r).name_eq hh)
    · cases List.mem_singleton.1 hh
      exact .inr rfl

/-! ## Identifiers of requests

What a request offers is said in terms of its headers and their bytes. -/

/-- The first identifier that the request sends, byte by byte; it is not empty and there is nothing
in it but visible ASCII, blanks and tabs. -/
structure Request.Offers (r : Request) (value : List UInt8) : Prop where
  first : ∃ before name after, r.headers = before ++ (name, value) :: after ∧
    name.toLower = RequestId.header ∧ ∀ h ∈ before, h.1.toLower ≠ RequestId.header
  ne_nil : value ≠ []
  visible : ∀ b ∈ value, Visible b

/-- Of several headers of one name the first one counts, and case makes no difference. -/
theorem Request.header?_eq_some_iff {r : Request} {name : String} {value : List UInt8} :
    r.header? name = some value ↔
      ∃ before written after, r.headers = before ++ (written, value) :: after ∧
        written.toLower = name ∧ ∀ h ∈ before, h.1.toLower ≠ name := by
  simp only [header?, Option.map_eq_some_iff, List.find?_eq_some_iff_append, decide_eq_true_eq,
    Bool.not_eq_true', decide_eq_false_iff_not]
  constructor
  · rintro ⟨⟨written, _⟩, ⟨hname, before, after, hheaders, hbefore⟩, rfl⟩
    exact ⟨before, written, after, hheaders, hname, hbefore⟩
  · rintro ⟨before, written, after, hheaders, hname, hbefore⟩
    exact ⟨(written, value), ⟨hname, before, after, hheaders, hbefore⟩, rfl⟩

theorem lt_of_visible {b : UInt8} (h : Visible b) : b.toNat < 127 := by
  rcases h with ⟨-, hhigh⟩ | htab <;> omega

/-- Visible characters are one byte each. -/
theorem encode_visible {value : List UInt8} (h : ∀ b ∈ value, Visible b) :
    (value.map fun b => Char.ofNat b.toNat).flatMap String.utf8EncodeChar = value := by
  have hencode : ∀ n < 127, String.utf8EncodeChar (Char.ofNat n) = [UInt8.ofNat n] := by decide
  induction value with
  | nil => rfl
  | cons b value ih =>
    obtain ⟨hb, hvalue⟩ := List.forall_mem_cons.1 h
    rw [List.map_cons, List.flatMap_cons, hencode _ (lt_of_visible hb), UInt8.ofNat_toNat,
      ih hvalue]
    rfl

/-- Bytes that are taken as text are the bytes of the text. -/
theorem toUTF8_of_headerText? {value : List UInt8} {text : String}
    (h : headerText? value = some text) : text.toUTF8.data.toList = value := by
  obtain ⟨hvisible, rfl⟩ := headerText?_eq_some_iff.1 h
  show (String.ofList _).toByteArray.data.toList = value
  rw [String.toByteArray_ofList, List.utf8Encode, List.data_toByteArray, encode_visible hvisible]

/-- The text is empty if the bytes are. -/
theorem eq_nil_iff_of_headerText? {value : List UInt8} {text : String}
    (h : headerText? value = some text) : value = [] ↔ text = "" := by
  constructor
  · rintro rfl
    exact (headerText?_eq_some_iff.1 h).2.symm
  · rintro rfl
    exact (toUTF8_of_headerText? h).symm

namespace RequestId

/-- What is taken over is what is offered. -/
theorem sent?_eq_some_iff {r : Request} {text : String} :
    sent? r = some text ↔ ∃ value, r.Offers value ∧ headerText? value = some text := by
  simp only [sent?, Option.filter_eq_some_iff, Option.bind_eq_some_iff, decide_eq_true_eq]
  constructor
  · rintro ⟨⟨value, hfirst, htext⟩, hne⟩
    refine ⟨value, ⟨Request.header?_eq_some_iff.1 hfirst, ?_, ?_⟩, htext⟩
    · exact fun hnil => hne ((eq_nil_iff_of_headerText? htext).1 hnil)
    · exact (headerText?_eq_some_iff.1 htext).1
  · rintro ⟨value, ⟨hfirst, hne, -⟩, htext⟩
    exact ⟨⟨value, Request.header?_eq_some_iff.2 hfirst, htext⟩,
      fun hempty => hne ((eq_nil_iff_of_headerText? htext).2 hempty)⟩

/-- What a request offers is its identifier, byte for byte. -/
theorem toUTF8_of_offers (fresh : Uuid) {r : Request} {value : List UInt8} (h : r.Offers value) :
    (ofRequest fresh r).toText.toUTF8.data.toList = value := by
  have htext := headerText?_eq_some_iff.2 ⟨h.visible, rfl⟩
  rw [ofRequest, sent?_eq_some_iff.2 ⟨value, h, htext⟩]
  exact toUTF8_of_headerText? htext

/-- Where nothing is offered the identifier is made up. -/
theorem toText_of_not_offers (fresh : Uuid) {r : Request} (h : ∀ value, ¬ r.Offers value) :
    (ofRequest fresh r).toText = fresh.toText := by
  have hnone : sent? r = none := Option.eq_none_iff_forall_ne_some.2 fun text htext => by
    obtain ⟨value, hoffers, -⟩ := sent?_eq_some_iff.1 htext
    exact h value hoffers
  rw [ofRequest, hnone]
  rfl

end RequestId

/-! ## Exchanges -/

/-- The fields of the span of an exchange, when it closes. -/
def Exchange.fields (x : Exchange) : Log.Fields := x.span.fields ++ x.late

/-- The exchange is identified by a text, in the response and in its span, which shows the status of
the response as well. -/
structure Exchange.IdentifiedBy (x : Exchange) (text : String) : Prop where
  /-- Of the headers with that name there is one, and it has the text. -/
  header : x.response.headers.filter (·.1.toLower = RequestId.header) = [(RequestId.header, text)]
  name : x.span.name = "http_request"
  /-- The span has one field with that name, and it has the same text. -/
  field : x.fields.filter (·.1 = "request_id") = [("request_id", .bare text)]
  /-- The span shows the status of the response. -/
  status : x.fields.filter (·.1 = "status") = [("status", .count x.response.status)]

/-- Every exchange is identified, wherever it comes from: the header is set in the end, and the span
has had its field from the start. -/
theorem Exchange.identifiedBy_of (fresh : Uuid) (r : Request) :
    (of fresh r).IdentifiedBy (RequestId.ofRequest fresh r).toText where
  header := by
    have hforeign : ∀ h ∈ (handle r).response.headers.filter (·.1 ≠ RequestId.header),
        ¬ decide (h.1.toLower = RequestId.header) = true := by
      intro h hh
      obtain hname | hname := name_of_mem_headers r (List.mem_filter.1 hh).1 <;> rw [hname] <;>
        decide +kernel
    have hown : decide (RequestId.header.toLower = RequestId.header) = true := by decide +kernel
    rw [of_response, Response.setHeader, List.filter_append, List.filter_eq_nil_iff.2 hforeign,
      List.nil_append]
    exact List.filter_cons_of_pos hown
  name := rfl
  field := rfl
  status := by
    rw [of_response]
    rfl

/-- **Every exchange is identified.**  Wherever a request stands among those that are served and
whatever becomes of it, its response has one header for the identifier, the span of the exchange
shows the same text, and the status of the response.  The text is what the request offers, byte for
byte; if it offers nothing, it is the fresh UUID, which is written as a UUID of version 4 and
differs from every other. -/
theorem serve_identified (l : Metrics.Ledger) (before after : List (Circumstances × Request))
    (c : Circumstances) (r : Request) :
    ∃ x text, (serve l (before ++ (c, r) :: after)).1[before.length]? = some x ∧ x.request = r ∧
      x.IdentifiedBy text ∧
      (∀ value, r.Offers value → text.toUTF8.data.toList = value) ∧
      ((∀ value, ¬ r.Offers value) → text = c.fresh.toText ∧ IsVersion4 text ∧
        ∀ other : Uuid, other.toText = text ↔ other = c.fresh) := by
  refine ⟨_, _, serve_getElem? l before after c r, rfl, Exchange.identifiedBy_of c.fresh r,
    fun value => RequestId.toUTF8_of_offers c.fresh, fun hnone => ?_⟩
  rw [RequestId.toText_of_not_offers c.fresh hnone]
  exact ⟨rfl, c.fresh.isVersion4_toText, fun other => Uuid.toText_inj⟩

/-- A method that is not served: the first identifier is empty, so the second one is not looked at.
A path that is not served: the tab and the blank belong to the identifier. -/
theorem serve_identified_of_mistakes :
    let fresh : Uuid := ⟨1, 2, 3⟩
    let c : Circumstances := ⟨fresh, ⟨default, default⟩⟩
    let r : Request :=
      { method := "PUT"
        target := "/create_rule"
        headers := [("Accept", [42]), ("X-Request-ID", []), ("x-request-id", [97, 98])] }
    let s : Request := { method := "GET", target := "/", headers := [("x-request-id", [9, 32])] }
    let served := serve {} [(c, r), (c, s)]
    (∀ value, ¬ r.Offers value) ∧ s.Offers [9, 32] ∧
      (∃ x, served.1[0]? = some x ∧ x.response.status = 405 ∧
        x.IdentifiedBy "00000000-0001-4002-8000-000000000003") ∧
      ∃ x text, served.1[1]? = some x ∧ x.response.status = 404 ∧ x.IdentifiedBy text ∧
        text.toUTF8.data.toList = [9, 32] := by
  intro fresh c r s served
  have hnone : ∀ value, ¬ r.Offers value := by
    intro value hoffers
    have hvalue := Request.header?_eq_some_iff.2 hoffers.first
    have hempty : r.header? RequestId.header = some [] := by decide +kernel
    rw [hempty] at hvalue
    exact hoffers.ne_nil (Option.some.inj hvalue).symm
  have hoffers : s.Offers [9, 32] :=
    ⟨⟨[], _, [], rfl, by decide +kernel, by simp⟩, by simp, by simp [Visible]⟩
  obtain ⟨x, text, hx, -, hidentified, -, hfresh⟩ := serve_identified {} [] [(c, s)] c r
  obtain ⟨y, text', hy, -, hidentified', htaken, -⟩ := serve_identified {} [(c, r)] [] c s
  refine ⟨hnone, hoffers, ⟨x, hx, ?_, ?_⟩, y, text', hy, ?_, hidentified', htaken _ hoffers⟩
  · obtain rfl := Option.some.inj hx
    decide +kernel
  · rw [(hfresh hnone).1] at hidentified
    have htext : fresh.toText = "00000000-0001-4002-8000-000000000003" := by decide +kernel
    exact htext ▸ hidentified
  · obtain rfl := Option.some.inj hy
    decide +kernel

end Screening.Http
