import ArbitrageEngine.Json.Utf8
import Mathlib.Data.List.TakeWhile

/-!
# JSON texts

The grammar of RFC 8259, with the document that a text stands for. A document keeps the lexemes
of its numbers and all members of its objects, in the order of the text. Texts are UTF-8, and an
escaped surrogate is half of a pair.
-/

namespace Json

open Base

/-! ### Documents -/

/-- A JSON document as it was written. -/
inductive Doc
  | null
  | boolean (value : Bool)
  | number (lexeme : Bytes)
  | string (value : Bytes)
  | array (items : List Doc)
  | object (members : List (Bytes × Doc))

namespace Doc

mutual

/-- The value of a document, given those of its numbers. -/
def dom (num : Bytes → Value) : Doc → Value
  | null => .null
  | boolean value => .boolean value
  | number lexeme => num lexeme
  | string value => .string value
  | array items => .array (domItems num items)
  | object members => objectOf (domMembers num members)

/-- The values of the items of an array. -/
def domItems (num : Bytes → Value) : List Doc → List Value
  | [] => []
  | item :: items => dom num item :: domItems num items

/-- The values of the members of an object. -/
def domMembers (num : Bytes → Value) : List (Bytes × Doc) → List (Bytes × Value)
  | [] => []
  | (key, item) :: members => (key, dom num item) :: domMembers num members

end

mutual

/-- The document with other documents in the place of its numbers. -/
def substitute (f : Bytes → Doc) : Doc → Doc
  | null => null
  | boolean value => boolean value
  | number lexeme => f lexeme
  | string value => string value
  | array items => array (substituteItems f items)
  | object members => object (substituteMembers f members)

/-- `substitute` in the items of an array. -/
def substituteItems (f : Bytes → Doc) : List Doc → List Doc
  | [] => []
  | item :: items => substitute f item :: substituteItems f items

/-- `substitute` in the members of an object. -/
def substituteMembers (f : Bytes → Doc) : List (Bytes × Doc) → List (Bytes × Doc)
  | [] => []
  | (key, item) :: members => (key, substitute f item) :: substituteMembers f members

end

mutual

/-- Replacing the numbers in a document replaces them in its value. -/
theorem dom_substitute (f : Bytes → Doc) (num : Bytes → Value) :
    ∀ doc : Doc, (doc.substitute f).dom num = doc.dom fun lexeme ↦ (f lexeme).dom num
  | null => rfl
  | boolean _ => rfl
  | number _ => rfl
  | string _ => rfl
  | array items => by rw [substitute, dom, dom, domItems_substitute f num items]
  | object members => by rw [substitute, dom, dom, domMembers_substitute f num members]

private theorem domItems_substitute (f : Bytes → Doc) (num : Bytes → Value) :
    ∀ items : List Doc, domItems num (substituteItems f items) =
      domItems (fun lexeme ↦ (f lexeme).dom num) items
  | [] => rfl
  | item :: items => by
    rw [substituteItems, domItems, domItems, dom_substitute f num item,
      domItems_substitute f num items]

private theorem domMembers_substitute (f : Bytes → Doc) (num : Bytes → Value) :
    ∀ members : List (Bytes × Doc), domMembers num (substituteMembers f members) =
      domMembers (fun lexeme ↦ (f lexeme).dom num) members
  | [] => rfl
  | (key, item) :: members => by
    rw [substituteMembers, domMembers, domMembers, dom_substitute f num item,
      domMembers_substitute f num members]

end

/-- A string or a key of the document is this one. -/
inductive Mentions (text : Bytes) : Doc → Prop
  | string : Mentions text (string text)
  | item {item : Doc} {items : List Doc} : item ∈ items → Mentions text item →
      Mentions text (array items)
  | key {item : Doc} {members : List (Bytes × Doc)} : (text, item) ∈ members →
      Mentions text (object members)
  | member {key : Bytes} {item : Doc} {members : List (Bytes × Doc)} : (key, item) ∈ members →
      Mentions text item → Mentions text (object members)

/-- A document is a part of the document. -/
inductive Within (inner : Doc) : Doc → Prop
  | self : Within inner inner
  | item {item : Doc} {items : List Doc} : item ∈ items → Within inner item →
      Within inner (array items)
  | member {key : Bytes} {item : Doc} {members : List (Bytes × Doc)} : (key, item) ∈ members →
      Within inner item → Within inner (object members)

/-- A part of a document mentions no more than the document. -/
theorem Within.mentions {inner doc : Doc} (h : Within inner doc) {text : Bytes}
    (hm : Mentions text inner) : Mentions text doc := by
  induction h with
  | self => exact hm
  | item hi _ ih => exact .item hi ih
  | member hi _ ih => exact .member hi ih

private theorem mem_domItems {num : Bytes → Value} {items : List Doc} {value : Value}
    (h : value ∈ domItems num items) : ∃ item ∈ items, value = item.dom num := by
  induction items with
  | nil => cases h
  | cons item items ih =>
    rcases List.mem_cons.mp h with rfl | h
    · exact ⟨item, List.mem_cons_self, rfl⟩
    · obtain ⟨other, ho, rfl⟩ := ih h
      exact ⟨other, List.mem_cons_of_mem _ ho, rfl⟩

private theorem mem_domMembers {num : Bytes → Value} {members : List (Bytes × Doc)} {key : Bytes}
    {value : Value} (h : (key, value) ∈ domMembers num members) :
    ∃ item, (key, item) ∈ members ∧ value = item.dom num := by
  induction members with
  | nil => cases h
  | cons member members ih =>
    obtain ⟨other, item⟩ := member
    rcases List.mem_cons.mp h with h | h
    · cases h
      exact ⟨item, List.mem_cons_self, rfl⟩
    · obtain ⟨found, hf, rfl⟩ := ih h
      exact ⟨found, List.mem_cons_of_mem _ hf, rfl⟩

end Doc

/-- A value is a part of the value. -/
inductive Value.Within (inner : Value) : Value → Prop
  | self : Within inner inner
  | item {item : Value} {items : List Value} : item ∈ items → Within inner item →
      Within inner (.array items)
  | field {key : Bytes} {item : Value} {fields : List (Bytes × Value)} : (key, item) ∈ fields →
      Within inner item → Within inner (.object fields)

/-- A part of the value of a document is the value of a part, or a part of a number. -/
theorem Doc.within_dom {num : Bytes → Value} {doc : Doc} {inner : Value}
    (h : inner.Within (doc.dom num)) :
    (∃ part : Doc, part.Within doc ∧ inner = part.dom num) ∨
      ∃ lexeme, (number lexeme).Within doc ∧ inner.Within (num lexeme) := by
  generalize hv : doc.dom num = value at h
  induction h generalizing doc with
  | self => exact .inl ⟨doc, .self, hv.symm⟩
  | @item item items hi hw ih =>
    cases doc with
    | number lexeme =>
      rw [dom] at hv
      exact .inr ⟨lexeme, .self, hv ▸ .item hi hw⟩
    | array docs =>
      rw [dom] at hv
      cases hv
      obtain ⟨part, hpart, rfl⟩ := mem_domItems hi
      exact (ih rfl).imp (fun ⟨found, hf, he⟩ ↦ ⟨found, .item hpart hf, he⟩)
        fun ⟨lexeme, hl, he⟩ ↦ ⟨lexeme, .item hpart hl, he⟩
    | _ => cases hv
  | @field key item fields hi hw ih =>
    cases doc with
    | number lexeme =>
      rw [dom] at hv
      exact .inr ⟨lexeme, .self, hv ▸ .field hi hw⟩
    | object members =>
      rw [dom, objectOf] at hv
      cases hv
      obtain ⟨part, hpart, rfl⟩ := mem_domMembers
        ((mem_insertFields hi).resolve_right List.not_mem_nil)
      exact (ih rfl).imp (fun ⟨found, hf, he⟩ ↦ ⟨found, .member hpart hf, he⟩)
        fun ⟨lexeme, hl, he⟩ ↦ ⟨lexeme, .member hpart hl, he⟩
    | _ => cases hv

/-! ### Tokens -/

/-- `ws = *( %x20 / %x09 / %x0A / %x0D )`. -/
def IsBlank (text : Bytes) : Prop := ∀ c ∈ text, Cursor.isSpace c = true

/-- `int = zero / ( digit1-9 *DIGIT )`. -/
inductive IntText : Bytes → Prop
  | zero : IntText [0x30]
  | positive {d : UInt8} {digits : Bytes} : isDigit d = true → d ≠ 0x30 →
      digits.all isDigit = true → IntText (d :: digits)

/-- `[ frac ]` with `frac = decimal-point 1*DIGIT`. -/
inductive FracText : Bytes → Prop
  | absent : FracText []
  | present {digits : Bytes} : digits ≠ [] → digits.all isDigit = true → FracText (0x2E :: digits)

/-- `[ exp ]` with `exp = e [ minus / plus ] 1*DIGIT`. -/
inductive ExpText : Bytes → Prop
  | absent : ExpText []
  | bare {mark : UInt8} {digits : Bytes} : mark = 0x65 ∨ mark = 0x45 → digits ≠ [] →
      digits.all isDigit = true → ExpText (mark :: digits)
  | signed {mark sign : UInt8} {digits : Bytes} : mark = 0x65 ∨ mark = 0x45 →
      sign = 0x2B ∨ sign = 0x2D → digits ≠ [] → digits.all isDigit = true →
      ExpText (mark :: sign :: digits)

/-- `number = [ minus ] int [ frac ] [ exp ]`. -/
inductive NumberText : Bytes → Prop
  | positive {whole frac exp : Bytes} : IntText whole → FracText frac → ExpText exp →
      NumberText (whole ++ frac ++ exp)
  | negative {whole frac exp : Bytes} : IntText whole → FracText frac → ExpText exp →
      NumberText (0x2D :: (whole ++ frac ++ exp))

/-- The number of four hexadecimal digits. -/
def hexNumber (digits : Bytes) : Option Nat :=
  if digits.length = 4 then digits.foldlM (fun n c ↦ (hexValue c).map (n * 16 + ·)) 0 else none

/-- `*char`, with the characters that it stands for. -/
inductive CharsText : Bytes → Bytes → Prop
  | nil : CharsText [] []
  | ascii {c : UInt8} {text value : Bytes} : 0x20 ≤ c → c < 0x80 → c ≠ 0x22 → c ≠ 0x5C →
      CharsText text value → CharsText (c :: text) (c :: value)
  /-- A character of several bytes. -/
  | wide {lead : UInt8} {ranges : Pending} {tail text value : Bytes} :
      continuationRanges lead = some ranges →
      List.Forall₂ (fun range c ↦ range.1 ≤ c ∧ c ≤ range.2) ranges tail →
      CharsText text value → CharsText (lead :: (tail ++ text)) (lead :: (tail ++ value))
  | escape {e c : UInt8} {text value : Bytes} : simpleEscape e = some c →
      CharsText text value → CharsText (0x5C :: e :: text) (c :: value)
  | unicode {digits : Bytes} {n : Nat} {text value : Bytes} : hexNumber digits = some n →
      ¬(0xD800 ≤ n ∧ n ≤ 0xDFFF) →
      CharsText text value →
      CharsText (0x5C :: 0x75 :: (digits ++ text)) (encodeCodepoint n ++ value)
  | surrogates {digits digits' : Bytes} {high low : Nat} {text value : Bytes} :
      hexNumber digits = some high → 0xD800 ≤ high → high ≤ 0xDBFF →
      hexNumber digits' = some low → 0xDC00 ≤ low → low ≤ 0xDFFF → CharsText text value →
      CharsText (0x5C :: 0x75 :: (digits ++ 0x5C :: 0x75 :: (digits' ++ text)))
        (encodeCodepoint (0x10000 + (high - 0xD800) * 1024 + (low - 0xDC00)) ++ value)

/-! ### Texts -/

/-- The parts of a text. -/
inductive Item
  | value (doc : Doc)
  | element (doc : Doc)
  | elements (docs : List Doc)
  | moreElements (docs : List Doc)
  | member (key : Bytes) (doc : Doc)
  | members (fields : List (Bytes × Doc))
  | moreMembers (fields : List (Bytes × Doc))

/-- The text of a part. -/
inductive Derives : Item → Bytes → Prop
  | literalNull : Derives (.value .null) (ascii "null")
  | literalTrue : Derives (.value (.boolean true)) (ascii "true")
  | literalFalse : Derives (.value (.boolean false)) (ascii "false")
  | number {lexeme : Bytes} : NumberText lexeme → Derives (.value (.number lexeme)) lexeme
  /-- `string = quotation-mark *char quotation-mark`. -/
  | string {text value : Bytes} : CharsText text value →
      Derives (.value (.string value)) (0x22 :: (text ++ [0x22]))
  /-- `array = begin-array [ value *( value-separator value ) ] end-array`. -/
  | array {docs : List Doc} {text : Bytes} : Derives (.elements docs) text →
      Derives (.value (.array docs)) (0x5B :: (text ++ [0x5D]))
  /-- `object = begin-object [ member *( value-separator member ) ] end-object`. -/
  | object {fields : List (Bytes × Doc)} {text : Bytes} : Derives (.members fields) text →
      Derives (.value (.object fields)) (0x7B :: (text ++ [0x7D]))
  /-- A value with the `ws` around it. -/
  | element {doc : Doc} {before text after : Bytes} : IsBlank before → Derives (.value doc) text →
      IsBlank after → Derives (.element doc) (before ++ (text ++ after))
  | noElements {blank : Bytes} : IsBlank blank → Derives (.elements []) blank
  | elements {doc : Doc} {docs : List Doc} {text rest : Bytes} : Derives (.element doc) text →
      Derives (.moreElements docs) rest → Derives (.elements (doc :: docs)) (text ++ rest)
  | lastElement : Derives (.moreElements []) []
  | moreElements {doc : Doc} {docs : List Doc} {text rest : Bytes} : Derives (.element doc) text →
      Derives (.moreElements docs) rest →
      Derives (.moreElements (doc :: docs)) (0x2C :: (text ++ rest))
  /-- `member = string name-separator value`. -/
  | member {key : Bytes} {doc : Doc} {before name after text : Bytes} : IsBlank before →
      CharsText name key → IsBlank after → Derives (.element doc) text →
      Derives (.member key doc) (before ++ 0x22 :: (name ++ 0x22 :: (after ++ 0x3A :: text)))
  | noMembers {blank : Bytes} : IsBlank blank → Derives (.members []) blank
  | members {key : Bytes} {doc : Doc} {fields : List (Bytes × Doc)} {text rest : Bytes} :
      Derives (.member key doc) text → Derives (.moreMembers fields) rest →
      Derives (.members ((key, doc) :: fields)) (text ++ rest)
  | lastMember : Derives (.moreMembers []) []
  | moreMembers {key : Bytes} {doc : Doc} {fields : List (Bytes × Doc)} {text rest : Bytes} :
      Derives (.member key doc) text → Derives (.moreMembers fields) rest →
      Derives (.moreMembers ((key, doc) :: fields)) (0x2C :: (text ++ rest))

/-- `JSON-text = ws value ws`. -/
def Text (raw : Bytes) (doc : Doc) : Prop := Derives (.element doc) raw

/-! ### Where a token ends -/

/-- The bytes of numbers. -/
def numberByte (c : UInt8) : Bool :=
  isDigit c || c = 0x2D || c = 0x2B || c = 0x2E || c = 0x65 || c = 0x45

/-- Two ways to split a list behind the items with a property are the same. -/
theorem span_unique {α : Type} {p : α → Bool} {a a' rest rest' : List α}
    (ha : ∀ c ∈ a, p c = true) (ha' : ∀ c ∈ a', p c = true) (hr : ∀ c ∈ rest.head?, p c = false)
    (hr' : ∀ c ∈ rest'.head?, p c = false) (h : a ++ rest = a' ++ rest') :
    a = a' ∧ rest = rest' := by
  have hspan : ∀ {a rest : List α}, (∀ c ∈ a, p c = true) → (∀ c ∈ rest.head?, p c = false) →
      (a ++ rest).takeWhile p = a := by
    intro a rest ha hr
    have hnil : rest.takeWhile p = [] := by
      cases rest with
      | nil => rfl
      | cons c rest => exact List.takeWhile_cons_of_neg (by rw [hr c rfl]; decide)
    rw [List.takeWhile_append_of_pos ha, hnil, List.append_nil]
  have heq : a = a' := by
    rw [← hspan ha hr, h, hspan ha' hr']
  subst heq
  exact ⟨rfl, List.append_cancel_left h⟩

private theorem all_numberByte {digits : Bytes} (h : digits.all isDigit = true) :
    ∀ c ∈ digits, numberByte c = true := by
  intro c hc
  simp [numberByte, List.all_eq_true.mp h c hc]

/-- The bytes of a number. -/
theorem NumberText.bytes {lexeme : Bytes} (h : NumberText lexeme) :
    ∀ c ∈ lexeme, numberByte c = true := by
  have hint : ∀ {text}, IntText text → ∀ c ∈ text, numberByte c = true := by
    rintro text (_ | ⟨hd, -, hds⟩)
    · exact List.forall_mem_singleton.mpr (by decide)
    · exact all_numberByte (by rw [List.all_cons, hd, hds]; rfl)
  have hfrac : ∀ {text}, FracText text → ∀ c ∈ text, numberByte c = true := by
    rintro text (_ | ⟨-, hds⟩)
    · exact List.forall_mem_nil _
    · exact List.forall_mem_cons.mpr ⟨by decide, all_numberByte hds⟩
  have hmark : ∀ {c : UInt8}, c = 0x65 ∨ c = 0x45 → numberByte c = true := by
    rintro c (rfl | rfl) <;> decide
  have hsign : ∀ {c : UInt8}, c = 0x2B ∨ c = 0x2D → numberByte c = true := by
    rintro c (rfl | rfl) <;> decide
  have hexp : ∀ {text}, ExpText text → ∀ c ∈ text, numberByte c = true := by
    rintro text (_ | ⟨hm, -, hds⟩ | ⟨hm, hs, -, hds⟩)
    · exact List.forall_mem_nil _
    · exact List.forall_mem_cons.mpr ⟨hmark hm, all_numberByte hds⟩
    · exact List.forall_mem_cons.mpr
        ⟨hmark hm, List.forall_mem_cons.mpr ⟨hsign hs, all_numberByte hds⟩⟩
  cases h with
  | positive hi hf he =>
    exact List.forall_mem_append.mpr ⟨List.forall_mem_append.mpr ⟨hint hi, hfrac hf⟩, hexp he⟩
  | negative hi hf he =>
    exact List.forall_mem_cons.mpr ⟨by decide,
      List.forall_mem_append.mpr ⟨List.forall_mem_append.mpr ⟨hint hi, hfrac hf⟩, hexp he⟩⟩

/-- A number begins with a digit or the sign. -/
theorem NumberText.lead {lexeme : Bytes} (h : NumberText lexeme) :
    ∃ c rest, lexeme = c :: rest ∧ (c = 0x2D ∨ isDigit c = true) := by
  cases h with
  | positive hi =>
    cases hi with
    | zero => exact ⟨_, _, rfl, .inr (by decide)⟩
    | positive hd => exact ⟨_, _, rfl, .inr hd⟩
  | negative => exact ⟨_, _, rfl, .inl rfl⟩

/-! ### Strings -/

private theorem getCodepoint_append {count : Nat} {digits : Bytes} {n value : Nat} (rest : Bytes)
    (hl : digits.length = count)
    (h : digits.foldlM (fun n c ↦ (hexValue c).map (n * 16 + ·)) value = some n) :
    getCodepoint count value (digits ++ rest) = .ok (n, rest) := by
  induction digits generalizing count value with
  | nil =>
    cases hl
    cases h
    rfl
  | cons c digits ih =>
    cases hl
    rw [List.foldlM_cons] at h
    cases hc : hexValue c with
    | none =>
      rw [hc] at h
      cases h
    | some d =>
      rw [hc] at h
      rw [List.cons_append, List.length_cons, getCodepoint, hc]
      exact ih rfl h

private theorem getCodepoint_hexNumber {digits : Bytes} {n : Nat} (h : hexNumber digits = some n)
    (rest : Bytes) : getCodepoint 4 0 (digits ++ rest) = .ok (n, rest) := by
  unfold hexNumber at h
  split at h
  · next hl => exact getCodepoint_append rest hl h
  · cases h

private theorem unicodeEscape_hexNumber {digits : Bytes} {n : Nat} (h : hexNumber digits = some n)
    (hn : ¬(0xD800 ≤ n ∧ n ≤ 0xDFFF)) (rest : Bytes) :
    unicodeEscape (digits ++ rest) = .ok (n, rest) := by
  have hhigh : ¬(decide (0xD800 ≤ n) && decide (n ≤ 0xDBFF)) = true := by
    rw [Bool.and_eq_true, decide_eq_true_eq, decide_eq_true_eq]
    omega
  have hlow : ¬(decide (0xDC00 ≤ n) && decide (n ≤ 0xDFFF)) = true := by
    rw [Bool.and_eq_true, decide_eq_true_eq, decide_eq_true_eq]
    omega
  simp only [unicodeEscape, getCodepoint_hexNumber h, if_neg hhigh, if_neg hlow]

private theorem unicodeEscape_surrogates {digits digits' : Bytes} {high low : Nat}
    (hh : hexNumber digits = some high) (hh1 : 0xD800 ≤ high) (hh2 : high ≤ 0xDBFF)
    (hl : hexNumber digits' = some low) (hl1 : 0xDC00 ≤ low) (hl2 : low ≤ 0xDFFF) (rest : Bytes) :
    unicodeEscape (digits ++ 0x5C :: 0x75 :: (digits' ++ rest)) =
      .ok (0x10000 + (high - 0xD800) * 1024 + (low - 0xDC00), rest) := by
  have hhigh : (decide (0xD800 ≤ high) && decide (high ≤ 0xDBFF)) = true := by
    rw [decide_eq_true hh1, decide_eq_true hh2]
    rfl
  have hlow : (decide (0xDC00 ≤ low) && decide (low ≤ 0xDFFF)) = true := by
    rw [decide_eq_true hl1, decide_eq_true hl2]
    rfl
  have hvalue : high * 1024 + low - 0x35FDC00 =
      0x10000 + (high - 0xD800) * 1024 + (low - 0xDC00) := by omega
  simp only [unicodeEscape, getCodepoint_hexNumber hh, if_pos hhigh, lowSurrogate, ne_eq,
    not_true_eq_false, if_false, getCodepoint_hexNumber hl, if_pos hlow, hvalue]

/-- The scanner reads the characters of a string. -/
theorem CharsText.scanString {text value : Bytes} (h : CharsText text value) {fuel : Nat}
    (hf : text.length < fuel) (buffer rest : Bytes) :
    Json.scanString fuel buffer (text ++ 0x22 :: rest) =
      ⟨.valueString (buffer ++ value), rest, false⟩ := by
  have hslash : ¬(0x5C : UInt8) = 0x22 := by decide
  have hu : simpleEscape 0x75 = none := by decide
  induction h generalizing fuel buffer with
  | nil =>
    obtain ⟨fuel, rfl⟩ : ∃ n, fuel = n + 1 := ⟨fuel - 1, by omega⟩
    simp [Json.scanString]
  | @ascii c text value hlow hhigh hq hs _ ih =>
    obtain ⟨fuel, rfl⟩ : ∃ n, fuel = n + 1 := ⟨fuel - 1, by omega⟩
    have hcontrol : ¬c < 0x20 := UInt8.not_lt.mpr hlow
    have hplain : c ≤ 0x7F := by
      rw [UInt8.lt_iff_toNat_lt] at hhigh
      exact UInt8.le_iff_toNat_le.mpr (Nat.le_of_lt_succ hhigh)
    have hlength : text.length < fuel := by
      rw [List.length_cons] at hf
      omega
    simp only [List.cons_append, Json.scanString, if_neg hq, if_neg hs, if_neg hcontrol,
      if_pos hplain, ih hlength, List.append_assoc, List.nil_append]
  | @wide lead ranges tail text value hr hc _ ih =>
    obtain ⟨fuel, rfl⟩ : ∃ n, fuel = n + 1 := ⟨fuel - 1, by omega⟩
    obtain ⟨hq, hs, hcontrol, hplain⟩ := continuationRanges_lead lead (by rw [hr]; rfl)
    have hlength : text.length < fuel := by
      simp only [List.length_cons, List.length_append] at hf
      omega
    simp only [List.cons_append, List.append_assoc, Json.scanString, if_neg hq, if_neg hs,
      if_neg hcontrol, if_neg hplain, hr, nextByteInRange_append hc, ih hlength, List.nil_append]
  | @escape e c text value he _ ih =>
    obtain ⟨fuel, rfl⟩ : ∃ n, fuel = n + 1 := ⟨fuel - 1, by omega⟩
    have hlength : text.length < fuel := by
      simp only [List.length_cons] at hf
      omega
    simp only [List.cons_append, Json.scanString, if_neg hslash, if_true, he, ih hlength,
      List.append_assoc, List.nil_append]
  | @unicode digits n text value hn hs _ ih =>
    obtain ⟨fuel, rfl⟩ : ∃ n, fuel = n + 1 := ⟨fuel - 1, by omega⟩
    have hlength : text.length < fuel := by
      simp only [List.length_cons, List.length_append] at hf
      omega
    simp only [List.cons_append, List.append_assoc, Json.scanString, if_neg hslash, if_true, hu,
      unicodeEscape_hexNumber hn hs, ih hlength]
  | @surrogates digits digits' high low text value hh hh1 hh2 hl hl1 hl2 _ ih =>
    obtain ⟨fuel, rfl⟩ : ∃ n, fuel = n + 1 := ⟨fuel - 1, by omega⟩
    have hlength : text.length < fuel := by
      simp only [List.length_cons, List.length_append] at hf
      omega
    simp only [List.cons_append, List.append_assoc, Json.scanString, if_neg hslash, if_true, hu,
      unicodeEscape_surrogates hh hh1 hh2 hl hl1 hl2, ih hlength]

/-- A string ends at one place only, and stands for one value. -/
theorem CharsText.unique {text text' value value' rest rest' : Bytes} (h : CharsText text value)
    (h' : CharsText text' value') (heq : text ++ 0x22 :: rest = text' ++ 0x22 :: rest') :
    text = text' ∧ value = value' ∧ rest = rest' := by
  have hscan := h.scanString (Nat.lt_succ_of_le (Nat.le_max_left text.length text'.length)) [] rest
  have hscan' := h'.scanString (Nat.lt_succ_of_le (Nat.le_max_right text.length text'.length)) []
    rest'
  rw [← heq, hscan] at hscan'
  simp only [List.nil_append, Scanned.mk.injEq, Token.valueString.injEq, and_true] at hscan'
  obtain ⟨rfl, rfl⟩ := hscan'
  exact ⟨List.append_cancel_right heq, rfl, rfl⟩

/-! ### How a part begins -/

/-- The constructors of a document. -/
inductive Shape
  | null
  | boolean (value : Bool)
  | number
  | string
  | array
  | object
  deriving DecidableEq

/-- The constructor of a document. -/
def Doc.shape : Doc → Shape
  | null => .null
  | boolean value => .boolean value
  | number _ => .number
  | string _ => .string
  | array _ => .array
  | object _ => .object

/-- The constructor that a byte stands for at the beginning of a value. -/
def shapeOf (c : UInt8) : Option Shape :=
  if c = 0x6E then some .null
  else if c = 0x74 then some (.boolean true)
  else if c = 0x66 then some (.boolean false)
  else if c = 0x22 then some .string
  else if c = 0x5B then some .array
  else if c = 0x7B then some .object
  else if c = 0x2D || isDigit c then some .number
  else none

private theorem shapeOf_number :
    ∀ c : UInt8, c = 0x2D ∨ isDigit c = true → shapeOf c = some .number := by
  decide +kernel

private theorem not_space_of_shape :
    ∀ c : UInt8, (shapeOf c).isSome = true → Cursor.isSpace c = false := by
  decide +kernel

private theorem numberByte_of_space :
    ∀ c : UInt8, Cursor.isSpace c = true → numberByte c = false := by
  decide +kernel

/-- A value begins with a byte that tells its constructor. -/
theorem Derives.lead {doc : Doc} {text : Bytes} (h : Derives (.value doc) text) :
    ∃ c rest, text = c :: rest ∧ shapeOf c = some doc.shape := by
  cases h with
  | literalNull => exact ⟨0x6E, ascii "ull", rfl, by decide⟩
  | literalTrue => exact ⟨0x74, ascii "rue", rfl, by decide⟩
  | literalFalse => exact ⟨0x66, ascii "alse", rfl, by decide⟩
  | number hn =>
    obtain ⟨c, rest, rfl, hc⟩ := hn.lead
    exact ⟨c, rest, rfl, shapeOf_number c hc⟩
  | string => exact ⟨_, _, rfl, rfl⟩
  | array => exact ⟨_, _, rfl, rfl⟩
  | object => exact ⟨_, _, rfl, rfl⟩

private theorem Derives.same_shape {doc doc' : Doc} {text text' rest rest' : Bytes}
    (h : Derives (.value doc) text) (h' : Derives (.value doc') text')
    (heq : text ++ rest = text' ++ rest') : doc'.shape = doc.shape := by
  obtain ⟨c, tail, rfl, hc⟩ := h.lead
  obtain ⟨c', tail', rfl, hc'⟩ := h'.lead
  obtain ⟨rfl, -⟩ := List.cons.inj heq
  exact Option.some.inj (hc'.symm.trans hc)

/-- An element or a member begins, behind blanks, with a byte that begins a value. -/
theorem Derives.lead_element {doc : Doc} {text : Bytes} (h : Derives (.element doc) text) :
    ∃ before c rest, text = before ++ c :: rest ∧ IsBlank before ∧ (shapeOf c).isSome = true := by
  cases h with
  | element hb hv ha =>
    obtain ⟨c, rest, rfl, hc⟩ := hv.lead
    refine ⟨_, c, _, rfl, hb, ?_⟩
    rw [hc]
    rfl

private theorem Derives.lead_member {key : Bytes} {doc : Doc} {text : Bytes}
    (h : Derives (.member key doc) text) :
    ∃ before c rest, text = before ++ c :: rest ∧ IsBlank before ∧ (shapeOf c).isSome = true := by
  cases h with
  | member hb hn ha hv =>
    exact ⟨_, 0x22, _, rfl, hb, rfl⟩

/-- So it is not a part that is left out. -/
theorem not_blank {blank rest : Bytes} {close : UInt8} (hb : IsBlank blank)
    (hr : rest.head? = some close) (hclose : shapeOf close = none)
    (hspace : Cursor.isSpace close = false) {text more : Bytes}
    (h : ∃ before c rest, text = before ++ c :: rest ∧ IsBlank before ∧ (shapeOf c).isSome = true) :
    blank ++ rest ≠ text ++ more := by
  obtain ⟨before, c, tail, rfl, hbefore, hc⟩ := h
  intro heq
  rw [List.append_assoc] at heq
  obtain ⟨-, rfl⟩ := span_unique hb hbefore (by rw [hr]; simpa using hspace)
    (by simpa using not_space_of_shape c hc) heq
  cases hr
  rw [hclose] at hc
  cases hc

/-! ### One document for each text -/

/-- The kinds of parts. -/
inductive Kind
  | value
  | element
  | elements
  | moreElements
  | member
  | members
  | moreMembers

/-- The kind of a part. -/
def Item.kind : Item → Kind
  | value _ => .value
  | element _ => .element
  | elements _ => .elements
  | moreElements _ => .moreElements
  | member _ _ => .member
  | members _ => .members
  | moreMembers _ => .moreMembers

/-- What can stand behind a part. -/
def Kind.Closes : Kind → Bytes → Prop
  | value, rest => ∀ c ∈ rest.head?, numberByte c = false
  | element, rest | member, rest => ∀ c ∈ rest.head?, c = 0x2C ∨ c = 0x5D ∨ c = 0x7D
  | elements, rest | moreElements, rest => rest.head? = some 0x5D
  | members, rest | moreMembers, rest => rest.head? = some 0x7D

private theorem not_space_of_close {rest : Bytes} (h : Kind.element.Closes rest) :
    ∀ c ∈ rest.head?, Cursor.isSpace c = false := by
  intro c hc
  obtain rfl | rfl | rfl := h c hc <;> decide

/-- Blanks and the end of an element end a value. -/
theorem closes_value {after rest : Bytes} (ha : IsBlank after) (hr : Kind.element.Closes rest) :
    Kind.value.Closes (after ++ rest) := by
  cases after with
  | nil =>
    intro c hc
    obtain rfl | rfl | rfl := hr c hc <;> decide
  | cons d after =>
    intro c hc
    cases hc
    exact numberByte_of_space d (ha d List.mem_cons_self)

/-- More elements or the end of the array end an element. -/
theorem Derives.closes_element {docs : List Doc} {text rest : Bytes}
    (h : Derives (.moreElements docs) text) (hr : Kind.moreElements.Closes rest) :
    Kind.element.Closes (text ++ rest) := by
  cases h with
  | lastElement =>
    intro c hc
    cases hr.symm.trans hc
    exact .inr (.inl rfl)
  | moreElements =>
    intro c hc
    cases hc
    exact .inl rfl

/-- More members or the end of the object end a member. -/
theorem Derives.closes_member {fields : List (Bytes × Doc)} {text rest : Bytes}
    (h : Derives (.moreMembers fields) text) (hr : Kind.moreMembers.Closes rest) :
    Kind.member.Closes (text ++ rest) := by
  cases h with
  | lastMember =>
    intro c hc
    cases hr.symm.trans hc
    exact .inr (.inr rfl)
  | moreMembers =>
    intro c hc
    cases hc
    exact .inl rfl

private theorem Item.eq_value {item : Item} (h : item.kind = .value) :
    ∃ doc, item = .value doc := by
  cases item with
  | value doc => exact ⟨doc, rfl⟩
  | _ => cases h

/-- A part of the same kind whose text begins like this one is the same part, with the same rest
behind it. -/
def OneReading (item : Item) (text : Bytes) : Prop :=
  ∀ ⦃item' : Item⦄ ⦃text' rest rest' : Bytes⦄, Derives item' text' → item'.kind = item.kind →
    text ++ rest = text' ++ rest' → item.kind.Closes rest → item'.kind.Closes rest' →
    item' = item ∧ rest' = rest

namespace OneReading

/-- For a value, whose first byte tells its shape, the values of that shape are left. -/
private theorem of_shape {doc : Doc} {text : Bytes} (h : Derives (.value doc) text)
    (hsame : ∀ ⦃doc' text' rest rest'⦄, Derives (.value doc') text' → doc'.shape = doc.shape →
      text ++ rest = text' ++ rest' → Kind.value.Closes rest → Kind.value.Closes rest' →
      doc' = doc ∧ rest' = rest) : OneReading (.value doc) text := by
  intro item' text' rest rest' h' hkind heq hr hr'
  obtain ⟨doc', rfl⟩ := Item.eq_value hkind
  obtain ⟨hdoc, hrest⟩ := hsame h' (h.same_shape h' heq) heq hr hr'
  exact ⟨congrArg _ hdoc, hrest⟩

private theorem literalNull : OneReading (.value .null) (ascii "null") := by
  refine of_shape .literalNull fun doc' text' rest rest' h' hshape heq _ _ ↦ ?_
  cases h' with
  | literalNull => exact ⟨rfl, (List.append_cancel_left heq).symm⟩
  | _ => cases hshape

private theorem literalTrue : OneReading (.value (.boolean true)) (ascii "true") := by
  refine of_shape .literalTrue fun doc' text' rest rest' h' hshape heq _ _ ↦ ?_
  cases h' with
  | literalTrue => exact ⟨rfl, (List.append_cancel_left heq).symm⟩
  | _ => cases hshape

private theorem literalFalse : OneReading (.value (.boolean false)) (ascii "false") := by
  refine of_shape .literalFalse fun doc' text' rest rest' h' hshape heq _ _ ↦ ?_
  cases h' with
  | literalFalse => exact ⟨rfl, (List.append_cancel_left heq).symm⟩
  | _ => cases hshape

/-- A number ends where its bytes end. -/
private theorem number {lexeme : Bytes} (hn : NumberText lexeme) :
    OneReading (.value (.number lexeme)) lexeme := by
  refine of_shape (.number hn) fun doc' text' rest rest' h' hshape heq hr hr' ↦ ?_
  cases h' with
  | number hn' =>
    obtain ⟨rfl, rfl⟩ := span_unique hn.bytes hn'.bytes hr hr' heq
    exact ⟨rfl, rfl⟩
  | _ => cases hshape

private theorem string {text value : Bytes} (hc : CharsText text value) :
    OneReading (.value (.string value)) (0x22 :: (text ++ [0x22])) := by
  refine of_shape (.string hc) fun doc' text' rest rest' h' hshape heq _ _ ↦ ?_
  cases h' with
  | string hc' =>
    simp only [List.cons_append, List.append_assoc, List.nil_append, List.cons.injEq,
      true_and] at heq
    obtain ⟨-, rfl, rfl⟩ := hc.unique hc' heq
    exact ⟨rfl, rfl⟩
  | _ => cases hshape

private theorem array {docs : List Doc} {text : Bytes} (h : Derives (.elements docs) text)
    (ih : OneReading (.elements docs) text) :
    OneReading (.value (.array docs)) (0x5B :: (text ++ [0x5D])) := by
  refine of_shape (.array h) fun doc' text' rest rest' h' hshape heq _ _ ↦ ?_
  cases h' with
  | array h' =>
    simp only [List.cons_append, List.append_assoc, List.nil_append, List.cons.injEq,
      true_and] at heq
    obtain ⟨hdocs, hrest⟩ := ih h' rfl heq rfl rfl
    cases hdocs
    cases hrest
    exact ⟨rfl, rfl⟩
  | _ => cases hshape

private theorem object {fields : List (Bytes × Doc)} {text : Bytes}
    (h : Derives (.members fields) text) (ih : OneReading (.members fields) text) :
    OneReading (.value (.object fields)) (0x7B :: (text ++ [0x7D])) := by
  refine of_shape (.object h) fun doc' text' rest rest' h' hshape heq _ _ ↦ ?_
  cases h' with
  | object h' =>
    simp only [List.cons_append, List.append_assoc, List.nil_append, List.cons.injEq,
      true_and] at heq
    obtain ⟨hfields, hrest⟩ := ih h' rfl heq rfl rfl
    cases hfields
    cases hrest
    exact ⟨rfl, rfl⟩
  | _ => cases hshape

/-- The blanks around a value end where it begins, and where the rest begins. -/
private theorem element {doc : Doc} {before text after : Bytes} (hb : IsBlank before)
    (hv : Derives (.value doc) text) (ha : IsBlank after) (ih : OneReading (.value doc) text) :
    OneReading (.element doc) (before ++ (text ++ after)) := by
  intro item' text' rest rest' h' hkind heq hr hr'
  have hspace : ∀ {c : UInt8} {shape : Shape} {tail : Bytes}, shapeOf c = some shape →
      ∀ d ∈ (c :: tail).head?, Cursor.isSpace d = false := by
    intro c shape tail hc d hd
    cases hd
    exact not_space_of_shape c (by rw [hc]; rfl)
  cases h' with
  | element hb' hv' ha' =>
    obtain ⟨c, tail, rfl, hc⟩ := hv.lead
    obtain ⟨c', tail', rfl, hc'⟩ := hv'.lead
    simp only [List.append_assoc] at heq
    obtain ⟨-, heq⟩ := span_unique hb hb' (hspace hc) (hspace hc') heq
    obtain ⟨hdoc, hrest⟩ := ih hv' rfl heq (closes_value ha hr) (closes_value ha' hr')
    cases hdoc
    obtain ⟨-, rfl⟩ := span_unique ha' ha (not_space_of_close hr') (not_space_of_close hr) hrest
    exact ⟨rfl, rfl⟩
  | _ => cases hkind

/-- A member is its key, and then its value. -/
private theorem member {key : Bytes} {doc : Doc} {before name after text : Bytes}
    (hb : IsBlank before) (hn : CharsText name key) (ha : IsBlank after)
    (ih : OneReading (.element doc) text) :
    OneReading (.member key doc)
      (before ++ 0x22 :: (name ++ 0x22 :: (after ++ 0x3A :: text))) := by
  intro item' text' rest rest' h' hkind heq hr hr'
  cases h' with
  | member hb' hn' ha' hv' =>
    simp only [List.cons_append, List.append_assoc] at heq
    obtain ⟨-, heq⟩ := span_unique hb hb' (by simp [Cursor.isSpace]) (by simp [Cursor.isSpace]) heq
    obtain ⟨-, rfl, heq⟩ := hn.unique hn' (List.cons.inj heq).2
    obtain ⟨-, heq⟩ := span_unique ha ha' (by simp [Cursor.isSpace]) (by simp [Cursor.isSpace]) heq
    obtain ⟨hdoc, hrest⟩ := ih hv' rfl (List.cons.inj heq).2 hr hr'
    cases hdoc
    exact ⟨rfl, hrest⟩
  | _ => cases hkind

/-! Elements and members, one behind the other. -/

section Elements

variable {doc : Doc} {docs : List Doc} {text more : Bytes}

/-- One element and those behind it. -/
private theorem element_more (hm : Derives (.moreElements docs) more)
    (ihe : OneReading (.element doc) text) (ihm : OneReading (.moreElements docs) more)
    {doc' : Doc} {docs' : List Doc} {text' more' rest rest' : Bytes}
    (he' : Derives (.element doc') text') (hm' : Derives (.moreElements docs') more')
    (heq : text ++ (more ++ rest) = text' ++ (more' ++ rest'))
    (hr : Kind.moreElements.Closes rest) (hr' : Kind.moreElements.Closes rest') :
    doc' = doc ∧ docs' = docs ∧ rest' = rest := by
  obtain ⟨hdoc, hrest⟩ := ihe he' rfl heq (hm.closes_element hr) (hm'.closes_element hr')
  obtain ⟨hdocs, hrest⟩ := ihm hm' rfl hrest.symm hr hr'
  cases hdoc
  cases hdocs
  exact ⟨rfl, rfl, hrest⟩

private theorem noElements {blank : Bytes} (hb : IsBlank blank) :
    OneReading (.elements []) blank := by
  intro item' text' rest rest' h' hkind heq hr hr'
  cases h' with
  | noElements hb' =>
    obtain ⟨-, rfl⟩ := span_unique hb hb' (by rw [hr]; simp [Cursor.isSpace])
      (by rw [hr']; simp [Cursor.isSpace]) heq
    exact ⟨rfl, rfl⟩
  | elements he hm =>
    rw [List.append_assoc] at heq
    exact absurd heq (not_blank hb hr (by decide) (by decide) he.lead_element)
  | _ => cases hkind

private theorem elements (he : Derives (.element doc) text)
    (hm : Derives (.moreElements docs) more) (ihe : OneReading (.element doc) text)
    (ihm : OneReading (.moreElements docs) more) :
    OneReading (.elements (doc :: docs)) (text ++ more) := by
  intro item' text' rest rest' h' hkind heq hr hr'
  cases h' with
  | noElements hb' =>
    rw [List.append_assoc] at heq
    exact absurd heq.symm (not_blank hb' hr' (by decide) (by decide) he.lead_element)
  | elements he' hm' =>
    simp only [List.append_assoc] at heq
    obtain ⟨rfl, rfl, rfl⟩ := element_more hm ihe ihm he' hm' heq hr hr'
    exact ⟨rfl, rfl⟩
  | _ => cases hkind

private theorem lastElement : OneReading (.moreElements []) [] := by
  intro item' text' rest rest' h' hkind heq hr hr'
  cases h' with
  | lastElement => exact ⟨rfl, heq.symm⟩
  | moreElements =>
    rw [List.nil_append] at heq
    rw [heq] at hr
    cases hr
  | _ => cases hkind

private theorem moreElements (hm : Derives (.moreElements docs) more)
    (ihe : OneReading (.element doc) text) (ihm : OneReading (.moreElements docs) more) :
    OneReading (.moreElements (doc :: docs)) (0x2C :: (text ++ more)) := by
  intro item' text' rest rest' h' hkind heq hr hr'
  cases h' with
  | lastElement =>
    rw [List.nil_append] at heq
    rw [← heq] at hr'
    cases hr'
  | moreElements he' hm' =>
    simp only [List.cons_append, List.append_assoc, List.cons.injEq, true_and] at heq
    obtain ⟨rfl, rfl, rfl⟩ := element_more hm ihe ihm he' hm' heq hr hr'
    exact ⟨rfl, rfl⟩
  | _ => cases hkind

end Elements

section Members

variable {key : Bytes} {doc : Doc} {fields : List (Bytes × Doc)} {text more : Bytes}

/-- One member and those behind it. -/
private theorem member_more (hm : Derives (.moreMembers fields) more)
    (ihe : OneReading (.member key doc) text) (ihm : OneReading (.moreMembers fields) more)
    {key' : Bytes} {doc' : Doc} {fields' : List (Bytes × Doc)} {text' more' rest rest' : Bytes}
    (he' : Derives (.member key' doc') text') (hm' : Derives (.moreMembers fields') more')
    (heq : text ++ (more ++ rest) = text' ++ (more' ++ rest'))
    (hr : Kind.moreMembers.Closes rest) (hr' : Kind.moreMembers.Closes rest') :
    key' = key ∧ doc' = doc ∧ fields' = fields ∧ rest' = rest := by
  obtain ⟨hmember, hrest⟩ := ihe he' rfl heq (hm.closes_member hr) (hm'.closes_member hr')
  obtain ⟨hfields, hrest⟩ := ihm hm' rfl hrest.symm hr hr'
  cases hmember
  cases hfields
  exact ⟨rfl, rfl, rfl, hrest⟩

private theorem noMembers {blank : Bytes} (hb : IsBlank blank) :
    OneReading (.members []) blank := by
  intro item' text' rest rest' h' hkind heq hr hr'
  cases h' with
  | noMembers hb' =>
    obtain ⟨-, rfl⟩ := span_unique hb hb' (by rw [hr]; simp [Cursor.isSpace])
      (by rw [hr']; simp [Cursor.isSpace]) heq
    exact ⟨rfl, rfl⟩
  | members he hm =>
    rw [List.append_assoc] at heq
    exact absurd heq (not_blank hb hr (by decide) (by decide) he.lead_member)
  | _ => cases hkind

private theorem members (he : Derives (.member key doc) text)
    (hm : Derives (.moreMembers fields) more) (ihe : OneReading (.member key doc) text)
    (ihm : OneReading (.moreMembers fields) more) :
    OneReading (.members ((key, doc) :: fields)) (text ++ more) := by
  intro item' text' rest rest' h' hkind heq hr hr'
  cases h' with
  | noMembers hb' =>
    rw [List.append_assoc] at heq
    exact absurd heq.symm (not_blank hb' hr' (by decide) (by decide) he.lead_member)
  | members he' hm' =>
    simp only [List.append_assoc] at heq
    obtain ⟨rfl, rfl, rfl, rfl⟩ := member_more hm ihe ihm he' hm' heq hr hr'
    exact ⟨rfl, rfl⟩
  | _ => cases hkind

private theorem lastMember : OneReading (.moreMembers []) [] := by
  intro item' text' rest rest' h' hkind heq hr hr'
  cases h' with
  | lastMember => exact ⟨rfl, heq.symm⟩
  | moreMembers =>
    rw [List.nil_append] at heq
    rw [heq] at hr
    cases hr
  | _ => cases hkind

private theorem moreMembers (hm : Derives (.moreMembers fields) more)
    (ihe : OneReading (.member key doc) text) (ihm : OneReading (.moreMembers fields) more) :
    OneReading (.moreMembers ((key, doc) :: fields)) (0x2C :: (text ++ more)) := by
  intro item' text' rest rest' h' hkind heq hr hr'
  cases h' with
  | lastMember =>
    rw [List.nil_append] at heq
    rw [← heq] at hr'
    cases hr'
  | moreMembers he' hm' =>
    simp only [List.cons_append, List.append_assoc, List.cons.injEq, true_and] at heq
    obtain ⟨rfl, rfl, rfl, rfl⟩ := member_more hm ihe ihm he' hm' heq hr hr'
    exact ⟨rfl, rfl⟩
  | _ => cases hkind

end Members

end OneReading

/-- A text has one reading, and what follows it does not change that. -/
theorem Derives.unique {item : Item} {text : Bytes} (h : Derives item text) :
    OneReading item text := by
  induction h with
  | literalNull => exact OneReading.literalNull
  | literalTrue => exact OneReading.literalTrue
  | literalFalse => exact OneReading.literalFalse
  | number hn => exact OneReading.number hn
  | string hc => exact OneReading.string hc
  | array h ih => exact OneReading.array h ih
  | object h ih => exact OneReading.object h ih
  | element hb hv ha ih => exact OneReading.element hb hv ha ih
  | noElements hb => exact OneReading.noElements hb
  | elements he hm ihe ihm => exact OneReading.elements he hm ihe ihm
  | lastElement => exact OneReading.lastElement
  | moreElements _ hm ihe ihm => exact OneReading.moreElements hm ihe ihm
  | member hb hn ha _ ih => exact OneReading.member hb hn ha ih
  | noMembers hb => exact OneReading.noMembers hb
  | members he hm ihe ihm => exact OneReading.members he hm ihe ihm
  | lastMember => exact OneReading.lastMember
  | moreMembers _ hm ihe ihm => exact OneReading.moreMembers hm ihe ihm

/-- A text stands for one document. -/
theorem Text.unique {raw : Bytes} {doc doc' : Doc} (h : Text raw doc) (h' : Text raw doc') :
    doc = doc' := by
  have hend : Kind.element.Closes [] := by
    intro c hc
    cases hc
  obtain ⟨hdoc, -⟩ := Derives.unique h' h rfl rfl hend hend
  cases hdoc
  rfl

end Json
