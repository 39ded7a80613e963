import ArbitrageEngine.Json.Grammar
import ArbitrageEngine.Kraken.DecimalTokens

/-!
# Number tokens survive the decoding

`exact_json` of `src/adapters/kraken/kraken_l2_parser.cpp` rewrites the text before the parser of
the library sees it. Here the parser is a parameter, of which no more is known than that it
accepts the texts of the grammar.
-/

namespace ArbitrageEngine.Kraken

open Base Json ArbitrageEngine.Core

/-! ### The parser as a parameter -/

section Parser

variable (parse : Bytes → Except Failure Value)

/-- `protectNumbers` with this parser. -/
def protectNumbersWith : Nat → Bytes → Except Failure Bytes
  | 0, _ => .ok []
  | _ + 1, [] => .ok []
  | fuel + 1, c :: rest =>
    if c = 0x22 then
      match stringTail false rest with
      | none => invalidArgument "unterminated JSON string"
      | some (tail, rest) => do
        if (← parse (c :: tail)).equalsText (ascii "#number") then
          invalidArgument "reserved numeric tag"
        return c :: tail ++ (← protectNumbersWith fuel rest)
    else if c = 0x2d || isDigit c then do
      let token := c :: rest.takeWhile isNumberByte
      if !matchesNumber token then invalidArgument "invalid JSON number"
      return taggedNumber token ++ (← protectNumbersWith fuel (rest.dropWhile isNumberByte))
    else return c :: (← protectNumbersWith fuel rest)

/-- `exact_json` with this parser. -/
def exactJsonWith (raw : Bytes) : Except Failure Value := do
  parse (← protectNumbersWith parse raw.length raw)

/-- The parser accepts the texts of the grammar and nothing else, and yields their values. -/
def Conforms (num : Bytes → Value) : Prop :=
  ∀ text value, parse text = .ok value ↔ ∃ doc, Text text doc ∧ value = doc.dom num

end Parser

private theorem protectNumbersWith_parse (fuel : Nat) (raw : Bytes) :
    protectNumbersWith Json.parse fuel raw = protectNumbers fuel raw := by
  induction fuel generalizing raw with
  | zero => rfl
  | succ fuel ih =>
    cases raw with
    | nil => rfl
    | cons c rest =>
      have hrest : protectNumbersWith Json.parse fuel = protectNumbers fuel := funext ih
      rw [protectNumbersWith, hrest]
      rfl

/-- With the parser of the library this is `exact_json`. -/
theorem exactJsonWith_parse (raw : Bytes) : exactJsonWith Json.parse raw = exactJson raw := by
  rw [exactJsonWith, exactJson, protectNumbersWith_parse]

/-! ### Tags -/

/-- The array that takes the place of a number. -/
def tagged (lexeme : Bytes) : Value := .array [.string (ascii "#number"), .string lexeme]

/-- The same as a document. -/
def taggedDoc (lexeme : Bytes) : Doc := .array [.string (ascii "#number"), .string lexeme]

/-- The document that the parser sees. -/
def tagItem : Item → Item
  | .value doc => .value (doc.substitute taggedDoc)
  | .element doc => .element (doc.substitute taggedDoc)
  | .elements docs => .elements (Doc.substituteItems taggedDoc docs)
  | .moreElements docs => .moreElements (Doc.substituteItems taggedDoc docs)
  | .member key doc => .member key (doc.substitute taggedDoc)
  | .members fields => .members (Doc.substituteMembers taggedDoc fields)
  | .moreMembers fields => .moreMembers (Doc.substituteMembers taggedDoc fields)

/-- No string or key is the tag. -/
def Untagged : Item → Prop
  | .value doc | .element doc => ¬doc.Mentions (ascii "#number")
  | .elements docs | .moreElements docs => ∀ doc ∈ docs, ¬doc.Mentions (ascii "#number")
  | .member key doc => key ≠ ascii "#number" ∧ ¬doc.Mentions (ascii "#number")
  | .members fields | .moreMembers fields =>
    ∀ field ∈ fields, field.1 ≠ ascii "#number" ∧ ¬field.2.Mentions (ascii "#number")

/-! ### Numbers -/

private theorem intText_iff {whole : Bytes} : IntText whole ↔
    whole ≠ [] ∧ (whole = [0x30] ∨ whole.head? ≠ some 0x30) ∧ whole.all isDigit = true := by
  constructor
  · rintro (_ | ⟨hd, hz, hds⟩)
    · exact ⟨List.cons_ne_nil _ _, .inl rfl, by decide⟩
    · refine ⟨List.cons_ne_nil _ _, .inr fun h ↦ hz (Option.some.inj h), ?_⟩
      rw [List.all_cons, hd, hds]
      rfl
  · rintro ⟨hn, rfl | hz, hd⟩
    · exact .zero
    · obtain ⟨d, digits, rfl⟩ := List.exists_cons_of_ne_nil hn
      rw [List.all_cons, Bool.and_eq_true] at hd
      exact .positive hd.1 (fun h ↦ hz (congrArg some h)) hd.2

private theorem fracText_iff {frac : Bytes} : FracText frac ↔
    ∃ fraction, frac = Decimal.point fraction ∧ fraction.all isDigit = true := by
  constructor
  · rintro (_ | ⟨hn, hd⟩)
    · exact ⟨[], rfl, rfl⟩
    · exact ⟨_, (if_neg (by simpa using hn)).symm, hd⟩
  · rintro ⟨fraction, rfl, hd⟩
    unfold Decimal.point
    split
    · exact .absent
    · next hn => exact .present (by simpa using hn) hd

private theorem expText_iff {exp : Bytes} :
    ExpText exp ↔ ∃ exponent, ExponentText exp exponent := by
  constructor
  · rintro (_ | ⟨hm, hn, hd⟩ | ⟨hm, rfl | rfl, hn, hd⟩)
    · exact ⟨_, .absent⟩
    · exact ⟨_, .bare hm hn hd⟩
    · exact ⟨_, .plus hm hn hd⟩
    · exact ⟨_, .minus hm hn hd⟩
  · rintro ⟨exponent, _ | ⟨hm, hn, hd⟩ | ⟨hm, hn, hd⟩ | ⟨hm, hn, hd⟩⟩
    · exact .absent
    · exact .bare hm hn hd
    · exact .signed hm (.inl rfl) hn hd
    · exact .signed hm (.inr rfl) hn hd

/-- The pattern without a sign. -/
theorem matchesDecimal_grammar {token : Bytes} : matchesDecimal token = true ↔
    ∃ whole frac exp, IntText whole ∧ FracText frac ∧ ExpText exp ∧
      token = whole ++ frac ++ exp := by
  constructor
  · intro h
    obtain ⟨p, hp, -⟩ := matchesDecimal_iff.mp h
    have hl : Lexeme token p.whole p.fraction p.exponent := lexeme_iff.mpr ⟨h, hp⟩
    obtain ⟨tail, rfl, ht⟩ := hl.text
    exact ⟨_, _, tail, intText_iff.mpr ⟨hl.nonempty, hl.leading, hl.whole⟩,
      fracText_iff.mpr ⟨_, rfl, hl.fraction⟩, expText_iff.mpr ⟨_, ht⟩, rfl⟩
  · rintro ⟨whole, frac, exp, hi, hf, he, rfl⟩
    obtain ⟨hn, hl, hw⟩ := intText_iff.mp hi
    obtain ⟨fraction, rfl, hd⟩ := fracText_iff.mp hf
    obtain ⟨exponent, he⟩ := expText_iff.mp he
    exact (lexeme_iff.mp ⟨⟨exp, rfl, he⟩, hn, hl, hw, hd⟩).1

private theorem matchesNumber_iff {token : Bytes} :
    matchesNumber token = true ↔ NumberText token := by
  constructor
  · intro h
    unfold matchesNumber at h
    split at h
    · obtain ⟨whole, frac, exp, hi, hf, he, rfl⟩ := matchesDecimal_grammar.mp h
      exact .negative hi hf he
    · obtain ⟨whole, frac, exp, hi, hf, he, rfl⟩ := matchesDecimal_grammar.mp h
      exact .positive hi hf he
  · intro h
    cases h with
    | negative hi hf he => exact matchesDecimal_grammar.mpr ⟨_, _, _, hi, hf, he, rfl⟩
    | positive hi hf he =>
      have hm := matchesDecimal_grammar.mpr ⟨_, _, _, hi, hf, he, rfl⟩
      cases hi with
      | zero => exact hm
      | @positive d digits hd hz hds =>
        unfold matchesNumber
        split
        · next heq =>
          obtain ⟨rfl, -⟩ := List.cons.inj heq
          cases hd
        · exact hm

/-! ### Tokens of the scanner -/

private theorem isNumberByte_eq : ∀ c : UInt8, isNumberByte c = numberByte c := by
  decide +kernel

/-- The scanner takes a number up to the next byte that no number has. -/
theorem span_number {tail rest : Bytes} (ht : ∀ c ∈ tail, numberByte c = true)
    (hr : ∀ c ∈ rest.head?, numberByte c = false) :
    (tail ++ rest).takeWhile isNumberByte = tail ∧
      (tail ++ rest).dropWhile isNumberByte = rest := by
  have hsame : isNumberByte = numberByte := funext isNumberByte_eq
  rw [hsame]
  apply span_unique (p := numberByte) (fun c hc ↦ List.mem_takeWhile_imp hc) ht _ hr
    List.takeWhile_append_dropWhile
  intro c hc
  have hstop := List.head?_dropWhile_not numberByte (tail ++ rest)
  rw [Option.mem_def.mp hc] at hstop
  exact hstop

/-- Bytes that are neither a quote nor a backslash. -/
theorem stringTail_plain {run : Bytes} (h : ∀ c ∈ run, c ≠ 0x22 ∧ c ≠ 0x5C) (rest : Bytes) :
    stringTail false (run ++ rest) =
      (stringTail false rest).map fun found ↦ (run ++ found.1, found.2) := by
  induction run with
  | nil => simp
  | cons c run ih =>
    obtain ⟨hq, hs⟩ := h c List.mem_cons_self
    rw [List.cons_append, stringTail, if_neg hq, decide_eq_false hs,
      ih fun d hd ↦ h d (List.mem_cons_of_mem _ hd), Option.map_map]
    rfl

private theorem plain_of_hexNumber {digits : Bytes} {n : Nat} (h : hexNumber digits = some n) :
    ∀ c ∈ digits, c ≠ 0x22 ∧ c ≠ 0x5C := by
  have hplain : ∀ c : UInt8, (hexValue c).isSome = true → c ≠ 0x22 ∧ c ≠ 0x5C := by
    decide +kernel
  unfold hexNumber at h
  split at h
  · next hl =>
    clear hl
    generalize 0 = start at h
    induction digits generalizing start with
    | nil => exact List.forall_mem_nil _
    | cons d digits ih =>
      rw [List.foldlM_cons] at h
      cases hd : hexValue d with
      | none =>
        rw [hd] at h
        cases h
      | some value =>
        rw [hd] at h
        exact List.forall_mem_cons.mpr ⟨hplain d (by rw [hd]; rfl), ih _ h⟩
  · cases h

private theorem plain_of_ranges {lead : UInt8} {ranges : Pending} {tail : Bytes}
    (h : continuationRanges lead = some ranges)
    (ht : List.Forall₂ (fun range c ↦ range.1 ≤ c ∧ c ≤ range.2) ranges tail) :
    ∀ c ∈ lead :: tail, c ≠ 0x22 ∧ c ≠ 0x5C := by
  have hlead := continuationRanges_lead lead (by rw [h]; rfl)
  refine List.forall_mem_cons.mpr ⟨⟨hlead.1, hlead.2.1⟩, ?_⟩
  have hlow := continuationRanges_low h
  clear h hlead
  have hplain (c : UInt8) (hc : 0x80 ≤ c) : c ≠ 0x22 ∧ c ≠ 0x5C := by
    constructor <;> (rintro rfl; exact absurd hc (by decide))
  induction ht with
  | nil => exact List.forall_mem_nil _
  | @cons range c ranges tail hc _ ih =>
    obtain ⟨hrange, hranges⟩ := List.forall_mem_cons.mp hlow
    exact List.forall_mem_cons.mpr ⟨hplain c (UInt8.le_trans hrange hc.1), ih hranges⟩

/-- The scanner finds the end of a string. -/
theorem stringTail_chars {text value : Bytes} (h : CharsText text value) (rest : Bytes) :
    stringTail false (text ++ 0x22 :: rest) = some (text ++ [0x22], rest) := by
  have hslash : ∀ rest, stringTail false (0x5C :: rest) =
      (stringTail true rest).map fun found ↦ (0x5C :: found.1, found.2) := fun _ ↦ rfl
  have hskip : ∀ c rest, stringTail true (c :: rest) =
      (stringTail false rest).map fun found ↦ (c :: found.1, found.2) := fun _ _ ↦ rfl
  induction h with
  | nil => rfl
  | @ascii c text value _ _ hq hs _ ih =>
    have hplain := stringTail_plain (List.forall_mem_singleton.mpr ⟨hq, hs⟩) (text ++ 0x22 :: rest)
    rw [ih] at hplain
    exact hplain
  | @wide lead ranges tail text value hr ht _ ih =>
    have hplain := stringTail_plain (plain_of_ranges hr ht) (text ++ 0x22 :: rest)
    rw [ih] at hplain
    simpa using hplain
  | escape he _ ih =>
    rw [List.cons_append, List.cons_append, hslash, hskip, ih]
    rfl
  | @unicode digits n text value hn _ _ ih =>
    have hplain := stringTail_plain (plain_of_hexNumber hn) (text ++ 0x22 :: rest)
    rw [ih] at hplain
    rw [List.cons_append, List.cons_append, hslash, hskip, List.append_assoc, hplain]
    simp
  | @surrogates digits digits' high low text value hh _ _ hl _ _ _ ih =>
    have hplain := stringTail_plain (plain_of_hexNumber hl) (text ++ 0x22 :: rest)
    rw [ih] at hplain
    have hfirst := stringTail_plain (plain_of_hexNumber hh)
      (0x5C :: 0x75 :: (digits' ++ (text ++ 0x22 :: rest)))
    rw [hslash, hskip, hplain] at hfirst
    simp only [List.cons_append, List.append_assoc, hslash, hskip, hfirst]
    simp

/-- What the scanner takes is a string of its own. -/
theorem stringTail_self {escaped : Bool} {text tail rest : Bytes}
    (h : stringTail escaped text = some (tail, rest)) :
    text = tail ++ rest ∧ stringTail escaped tail = some (tail, []) := by
  induction text generalizing escaped tail with
  | nil => cases escaped <;> cases h
  | cons v text ih =>
    cases escaped with
    | true =>
      rw [stringTail] at h
      obtain ⟨found, hfound, hpair⟩ := Option.map_eq_some_iff.mp h
      cases hpair
      obtain ⟨rfl, hself⟩ := ih hfound
      refine ⟨rfl, ?_⟩
      rw [stringTail, hself]
      rfl
    | false =>
      rw [stringTail] at h
      split at h
      · next hv =>
        cases h
        subst hv
        exact ⟨rfl, rfl⟩
      · next hv =>
        obtain ⟨found, hfound, hpair⟩ := Option.map_eq_some_iff.mp h
        cases hpair
        obtain ⟨rfl, hself⟩ := ih hfound
        refine ⟨rfl, ?_⟩
        rw [stringTail, if_neg hv, hself]
        rfl

/-! ### What the loop does -/

/-- The tokens of a text, and what becomes of them. -/
inductive Protected : Bytes → Bytes → Prop
  | nil : Protected [] []
  | string {text value rest out : Bytes} : CharsText text value → value ≠ ascii "#number" →
      Protected rest out →
      Protected (0x22 :: (text ++ 0x22 :: rest)) (0x22 :: (text ++ 0x22 :: out))
  | number {lexeme rest out : Bytes} : NumberText lexeme →
      (∀ c ∈ rest.head?, numberByte c = false) → Protected rest out →
      Protected (lexeme ++ rest) (taggedNumber lexeme ++ out)
  | byte {c : UInt8} {rest out : Bytes} : c ≠ 0x22 → c ≠ 0x2D → isDigit c = false →
      Protected rest out → Protected (c :: rest) (c :: out)

section Loop

variable {parse : Bytes → Except Failure Value} {num : Bytes → Value}

/-- A string token that the parser accepts. -/
theorem Conforms.string {tail rest text : Bytes} {value : Value} (h : Conforms parse num)
    (ht : stringTail false text = some (tail, rest)) (hp : parse (0x22 :: tail) = .ok value) :
    ∃ body decoded, CharsText body decoded ∧ tail = body ++ [0x22] ∧ value = .string decoded := by
  obtain ⟨doc, hdoc, rfl⟩ := (h _ _).mp hp
  generalize hraw : 0x22 :: tail = raw at hdoc
  cases hdoc with
  | @element _ before body after hb hv ha =>
    have hbefore : before = [] := by
      cases before with
      | nil => rfl
      | cons c before =>
        obtain ⟨rfl, -⟩ := List.cons.inj hraw
        exact absurd (hb _ List.mem_cons_self) (by decide)
    subst hbefore
    obtain ⟨c, body', hbody, hc⟩ := hv.lead
    have hquote : c = 0x22 := by
      rw [hbody] at hraw
      exact (List.cons.inj hraw).1.symm
    rw [hquote] at hc
    cases hv with
    | @string chars decoded hchars =>
      have htail : tail = chars ++ 0x22 :: after := by simpa using hraw
      have hself := (stringTail_self ht).2
      rw [htail, stringTail_chars hchars after] at hself
      obtain ⟨hwhole, -⟩ := Prod.mk.inj (Option.some.inj hself)
      exact ⟨chars, decoded, hchars, htail.trans hwhole.symm, rfl⟩
    | _ => cases hc

/-- The parser accepts a string token. -/
theorem Conforms.parse_string (h : Conforms parse num) {text value : Bytes}
    (hc : CharsText text value) : parse (0x22 :: (text ++ [0x22])) = .ok (.string value) := by
  refine (h _ _).mpr ⟨.string value, ?_, rfl⟩
  have htext := Derives.element (List.forall_mem_nil _) (.string hc) (List.forall_mem_nil _)
  rwa [List.nil_append, List.append_nil] at htext

/-- A loop that comes to its end has rewritten the tokens. -/
theorem Conforms.protected_of_ok (h : Conforms parse num) {fuel : Nat} {raw out : Bytes}
    (hf : raw.length ≤ fuel) (ho : protectNumbersWith parse fuel raw = .ok out) :
    Protected raw out := by
  induction fuel generalizing raw out with
  | zero =>
    obtain rfl := List.eq_nil_of_length_eq_zero (Nat.le_zero.mp hf)
    cases ho
    exact .nil
  | succ fuel ih =>
    cases raw with
    | nil =>
      cases ho
      exact .nil
    | cons c rest =>
      rw [List.length_cons, Nat.add_le_add_iff_right] at hf
      simp only [protectNumbersWith] at ho
      split at ho
      · next hc =>
        subst hc
        split at ho
        · cases ho
        · next tail rest' htail =>
          obtain ⟨value, hvalue, ho⟩ := bind_ok ho
          obtain ⟨htag, ho⟩ := check_ok ho
          obtain ⟨out', hout', ho⟩ := bind_ok ho
          cases ho
          obtain ⟨body, decoded, hchars, rfl, rfl⟩ := h.string htail hvalue
          obtain ⟨rfl, -⟩ := stringTail_self htail
          have hlength : rest'.length ≤ fuel := by
            simp only [List.length_append] at hf
            omega
          have hnext := Protected.string hchars (by simpa [Value.equalsText] using htag)
            (ih hlength hout')
          simpa using hnext
      · next hc =>
        split at ho
        · next hn =>
          obtain ⟨hmatch, ho⟩ := check_ok ho
          obtain ⟨out', hout', ho⟩ := bind_ok ho
          cases ho
          have hnumber : NumberText (c :: rest.takeWhile isNumberByte) :=
            matchesNumber_iff.mp (by simpa using hmatch)
          have hlength : (rest.dropWhile isNumberByte).length ≤ fuel :=
            (List.length_dropWhile_le _ _).trans hf
          have hhead : ∀ d ∈ (rest.dropWhile isNumberByte).head?, numberByte d = false := by
            intro d hd
            rw [← isNumberByte_eq]
            have hstop := List.head?_dropWhile_not isNumberByte rest
            rw [Option.mem_def.mp hd] at hstop
            exact hstop
          have hnext := Protected.number hnumber hhead (ih hlength hout')
          rw [List.cons_append, List.takeWhile_append_dropWhile] at hnext
          exact hnext
        · next hn =>
          obtain ⟨out', hout', ho⟩ := bind_ok ho
          cases ho
          simp only [Bool.or_eq_true, decide_eq_true_eq, not_or, Bool.not_eq_true] at hn
          exact .byte hc hn.1 hn.2 (ih hf hout')

/-- Tokens can be rewritten. -/
theorem Conforms.ok_of_protected (h : Conforms parse num) {fuel : Nat} {raw out : Bytes}
    (hp : Protected raw out) (hf : raw.length ≤ fuel) :
    protectNumbersWith parse fuel raw = .ok out := by
  induction hp generalizing fuel with
  | nil => cases fuel <;> rfl
  | @string text value rest out hc hv _ ih =>
    obtain ⟨fuel, rfl⟩ : ∃ n, fuel = n + 1 := by
      rw [List.length_cons] at hf
      exact ⟨fuel - 1, by omega⟩
    have hlength : rest.length ≤ fuel := by
      simp only [List.length_cons, List.length_append] at hf
      omega
    have htag : ¬(Value.string value).equalsText (ascii "#number") = true := by
      simpa [Value.equalsText] using hv
    simp only [protectNumbersWith, if_true, stringTail_chars hc, h.parse_string hc, bind,
      Except.bind, if_neg htag, ih hlength]
    simp [pure, Except.pure]
  | @number lexeme rest out hn hr _ ih =>
    obtain ⟨c, tail, rfl, hc⟩ := hn.lead
    obtain ⟨fuel, rfl⟩ : ∃ n, fuel = n + 1 := by
      simp only [List.cons_append, List.length_cons] at hf
      exact ⟨fuel - 1, by omega⟩
    have hlength : rest.length ≤ fuel := by
      simp only [List.cons_append, List.length_cons, List.length_append] at hf
      omega
    have hquote : ¬c = 0x22 := by
      rintro rfl
      rcases hc with hc | hc <;> cases hc
    have hnumber : (decide (c = 0x2d) || isDigit c) = true := by
      simpa using hc
    obtain ⟨htake, hdrop⟩ := span_number
      (fun d hd ↦ hn.bytes d (List.mem_cons_of_mem _ hd)) hr
    have hmatch : ¬(!matchesNumber (c :: tail)) = true := by
      rw [matchesNumber_iff.mpr hn]
      decide
    simp only [List.cons_append, protectNumbersWith, if_neg hquote, if_pos hnumber, htake, hdrop,
      if_neg hmatch, ih hlength, bind, Except.bind]
    rfl
  | @byte c rest out hq hm hd _ ih =>
    obtain ⟨fuel, rfl⟩ : ∃ n, fuel = n + 1 := by
      rw [List.length_cons] at hf
      exact ⟨fuel - 1, by omega⟩
    have hlength : rest.length ≤ fuel := by
      rw [List.length_cons] at hf
      omega
    have hnumber : ¬(decide (c = 0x2d) || isDigit c) = true := by
      simp [hm, hd]
    simp only [protectNumbersWith, if_neg hq, if_neg hnumber, ih hlength, bind, Except.bind]
    rfl

end Loop

/-! ### What the parser sees -/

private theorem Protected.symbol {rest out : Bytes} (h : Protected rest out) (c : UInt8)
    (hc : c ≠ 0x22 ∧ c ≠ 0x2D ∧ isDigit c = false := by decide) :
    Protected (c :: rest) (c :: out) :=
  .byte hc.1 hc.2.1 hc.2.2 h

private theorem protected_plain {run rest out : Bytes}
    (hrun : ∀ c ∈ run, c ≠ 0x22 ∧ c ≠ 0x2D ∧ isDigit c = false) (h : Protected rest out) :
    Protected (run ++ rest) (run ++ out) := by
  induction run with
  | nil => exact h
  | cons c run ih =>
    have hrest := ih fun d hd ↦ hrun d (List.mem_cons_of_mem _ hd)
    exact hrest.symbol c (hrun c List.mem_cons_self)

private theorem plain_of_blank {blank : Bytes} (h : IsBlank blank) :
    ∀ c ∈ blank, c ≠ 0x22 ∧ c ≠ 0x2D ∧ isDigit c = false := by
  have hplain : ∀ c : UInt8, Cursor.isSpace c = true →
      c ≠ 0x22 ∧ c ≠ 0x2D ∧ isDigit c = false := by
    decide +kernel
  exact fun c hc ↦ hplain c (h c hc)

/-- The bytes of a number stand for themselves in a string. -/
theorem charsText_number {lexeme : Bytes} (h : ∀ c ∈ lexeme, numberByte c = true) :
    CharsText lexeme lexeme := by
  have hplain : ∀ c : UInt8, numberByte c = true → 0x20 ≤ c ∧ c < 0x80 ∧ c ≠ 0x22 ∧ c ≠ 0x5C := by
    decide +kernel
  induction lexeme with
  | nil => exact .nil
  | cons c lexeme ih =>
    obtain ⟨hlow, hhigh, hq, hs⟩ := hplain c (h c List.mem_cons_self)
    exact .ascii hlow hhigh hq hs (ih fun d hd ↦ h d (List.mem_cons_of_mem _ hd))

/-- The characters of the tag. -/
theorem charsText_tag : CharsText (ascii "#number") (ascii "#number") := by
  repeat' first | exact .nil | refine .ascii (by decide) (by decide) (by decide) (by decide) ?_

/-- The rewritten token is an array. -/
theorem derives_taggedNumber {lexeme : Bytes} (h : NumberText lexeme) :
    Derives (.value (taggedDoc lexeme)) (taggedNumber lexeme) := by
  have hstring : ∀ {text value : Bytes}, CharsText text value →
      Derives (.element (.string value)) (0x22 :: (text ++ [0x22])) := by
    intro text value hc
    have helement := Derives.element (List.forall_mem_nil _) (.string hc) (List.forall_mem_nil _)
    rwa [List.nil_append, List.append_nil] at helement
  have hmore := Derives.moreElements (hstring (charsText_number h.bytes)) .lastElement
  have harray := Derives.array (.elements (hstring charsText_tag) hmore)
  have htext : taggedNumber lexeme = 0x5B :: (0x22 :: (ascii "#number" ++ [0x22]) ++
      0x2C :: (0x22 :: (lexeme ++ [0x22]) ++ []) ++ [0x5D]) := by
    rw [taggedNumber, show ascii "[\"#number\",\"" = 0x5B :: 0x22 :: (ascii "#number" ++
      [0x22, 0x2C, 0x22]) from rfl, show ascii "\"]" = [0x22, 0x5D] from rfl]
    simp
  rw [htext]
  exact harray

/-- The text of a part is rewritten to the text of the tagged part. -/
theorem protected_of_derives {item : Item} {text : Bytes} (h : Derives item text) :
    Untagged item → ∀ {rest out : Bytes}, item.kind.Closes rest → Protected rest out →
      ∃ text', Protected (text ++ rest) (text' ++ out) ∧ Derives (tagItem item) text' := by
  -- the text behind the item is rewritten already, so items are joined from the right
  induction h with
  | literalNull =>
    intro _ rest out _ hp
    exact ⟨_, protected_plain (by decide +kernel) hp, .literalNull⟩
  | literalTrue =>
    intro _ rest out _ hp
    exact ⟨_, protected_plain (by decide +kernel) hp, .literalTrue⟩
  | literalFalse =>
    intro _ rest out _ hp
    exact ⟨_, protected_plain (by decide +kernel) hp, .literalFalse⟩
  | number hn =>
    intro _ rest out hr hp
    exact ⟨_, .number hn hr hp, derives_taggedNumber hn⟩
  | @string text value hc =>
    intro hu rest out _ hp
    have hvalue : value ≠ ascii "#number" := by
      rintro rfl
      exact hu .string
    refine ⟨0x22 :: (text ++ [0x22]), ?_, .string hc⟩
    have hnext := Protected.string hc hvalue hp
    simpa using hnext
  | @array docs text _ ih =>
    intro hu rest out _ hp
    have hclose : Kind.elements.Closes (0x5D :: rest) := rfl
    obtain ⟨text', hp', hd'⟩ := ih (fun doc hd hm ↦ hu (.item hd hm)) hclose (hp.symbol 0x5D)
    refine ⟨0x5B :: (text' ++ [0x5D]), ?_, .array hd'⟩
    simpa using hp'.symbol 0x5B
  | @object fields text _ ih =>
    intro hu rest out _ hp
    have hfields : Untagged (.members fields) := by
      rintro ⟨key, doc⟩ hf
      refine ⟨?_, fun hm ↦ hu (.member hf hm)⟩
      rintro rfl
      exact hu (.key hf)
    have hclose : Kind.members.Closes (0x7D :: rest) := rfl
    obtain ⟨text', hp', hd'⟩ := ih hfields hclose (hp.symbol 0x7D)
    refine ⟨0x7B :: (text' ++ [0x7D]), ?_, .object hd'⟩
    simpa using hp'.symbol 0x7B
  | @element doc before text after hb hv ha ih =>
    intro hu rest out hr hp
    obtain ⟨text', hp', hd'⟩ := ih hu (closes_value ha hr) (protected_plain (plain_of_blank ha) hp)
    refine ⟨before ++ (text' ++ after), ?_, .element hb hd' ha⟩
    have hnext := protected_plain (plain_of_blank hb) hp'
    simpa using hnext
  | noElements hb =>
    intro _ rest out _ hp
    exact ⟨_, protected_plain (plain_of_blank hb) hp, .noElements hb⟩
  | elements he hm ihe ihm =>
    intro hu rest out hr hp
    obtain ⟨hdoc, hdocs⟩ := List.forall_mem_cons.mp hu
    obtain ⟨more', hp', hm'⟩ := ihm hdocs hr hp
    obtain ⟨text', hp', he'⟩ := ihe hdoc (hm.closes_element hr) hp'
    rw [← List.append_assoc, ← List.append_assoc] at hp'
    exact ⟨_, hp', .elements he' hm'⟩
  | lastElement =>
    intro _ rest out _ hp
    exact ⟨[], hp, .lastElement⟩
  | moreElements he hm ihe ihm =>
    intro hu rest out hr hp
    obtain ⟨hdoc, hdocs⟩ := List.forall_mem_cons.mp hu
    obtain ⟨more', hp', hm'⟩ := ihm hdocs hr hp
    obtain ⟨text', hp', he'⟩ := ihe hdoc (hm.closes_element hr) hp'
    refine ⟨0x2C :: (text' ++ more'), ?_, .moreElements he' hm'⟩
    simpa using hp'.symbol 0x2C
  | @member key doc before name after text hb hn ha hv ih =>
    intro hu rest out hr hp
    obtain ⟨text', hp', hd'⟩ := ih hu.2 hr hp
    have hcolon := protected_plain (plain_of_blank ha) (hp'.symbol 0x3A)
    have hnext := protected_plain (plain_of_blank hb) (.string hn hu.1 hcolon)
    refine ⟨before ++ 0x22 :: (name ++ 0x22 :: (after ++ 0x3A :: text')), ?_,
      .member hb hn ha hd'⟩
    simpa using hnext
  | noMembers hb =>
    intro _ rest out _ hp
    exact ⟨_, protected_plain (plain_of_blank hb) hp, .noMembers hb⟩
  | members he hm ihe ihm =>
    intro hu rest out hr hp
    obtain ⟨hdoc, hdocs⟩ := List.forall_mem_cons.mp hu
    obtain ⟨more', hp', hm'⟩ := ihm hdocs hr hp
    obtain ⟨text', hp', he'⟩ := ihe hdoc (hm.closes_member hr) hp'
    rw [← List.append_assoc, ← List.append_assoc] at hp'
    exact ⟨_, hp', .members he' hm'⟩
  | lastMember =>
    intro _ rest out _ hp
    exact ⟨[], hp, .lastMember⟩
  | moreMembers he hm ihe ihm =>
    intro hu rest out hr hp
    obtain ⟨hdoc, hdocs⟩ := List.forall_mem_cons.mp hu
    obtain ⟨more', hp', hm'⟩ := ihm hdocs hr hp
    obtain ⟨text', hp', he'⟩ := ihe hdoc (hm.closes_member hr) hp'
    refine ⟨0x2C :: (text' ++ more'), ?_, .moreMembers he' hm'⟩
    simpa using hp'.symbol 0x2C

/-! ### Where the parser's text comes from -/

/-- A byte that begins neither a string nor a rewritten number was there before. -/
theorem Protected.of_byte {raw out : Bytes} {c : UInt8} (h : Protected raw (c :: out))
    (hq : c ≠ 0x22) (hb : c ≠ 0x5B) :
    ∃ rest, raw = c :: rest ∧ Protected rest out ∧ c ≠ 0x2D ∧ isDigit c = false := by
  generalize hout : c :: out = text at h
  cases h with
  | nil => cases hout
  | string => exact absurd (List.cons.inj hout).1 hq
  | number => exact absurd (List.cons.inj hout).1 hb
  | byte hq' hm hd hp =>
    obtain ⟨rfl, rfl⟩ := List.cons.inj hout
    exact ⟨_, rfl, hp, hm, hd⟩

private theorem Protected.of_plain {raw out run : Bytes} (h : Protected raw (run ++ out))
    (hrun : ∀ c ∈ run, c ≠ 0x22 ∧ c ≠ 0x5B) : ∃ rest, raw = run ++ rest ∧ Protected rest out := by
  induction run generalizing raw with
  | nil => exact ⟨raw, rfl, h⟩
  | cons c run ih =>
    obtain ⟨hq, hb⟩ := hrun c List.mem_cons_self
    obtain ⟨rest, rfl, hrest, -⟩ := Protected.of_byte h hq hb
    obtain ⟨tail, rfl, htail⟩ := ih hrest fun d hd ↦ hrun d (List.mem_cons_of_mem _ hd)
    exact ⟨tail, rfl, htail⟩

private theorem Protected.of_blank {raw out blank : Bytes} (h : Protected raw (blank ++ out))
    (hb : IsBlank blank) : ∃ rest, raw = blank ++ rest ∧ Protected rest out := by
  have hplain : ∀ c : UInt8, Cursor.isSpace c = true → c ≠ 0x22 ∧ c ≠ 0x5B := by
    decide +kernel
  exact h.of_plain fun c hc ↦ hplain c (hb c hc)

/-- A string was there before, and it is not the tag. -/
theorem Protected.of_string {raw out text value : Bytes}
    (h : Protected raw (0x22 :: (text ++ 0x22 :: out))) (hc : CharsText text value) :
    ∃ rest, raw = 0x22 :: (text ++ 0x22 :: rest) ∧ Protected rest out ∧
      value ≠ ascii "#number" := by
  generalize hout : 0x22 :: (text ++ 0x22 :: out) = whole at h
  cases h with
  | nil => cases hout
  | string hc' hv hp =>
    obtain ⟨rfl, rfl, rfl⟩ := hc.unique hc' (List.cons.inj hout).2
    exact ⟨_, rfl, hp, hv⟩
  | number => exact absurd (List.cons.inj hout).1 (by decide)
  | byte hq => exact absurd (List.cons.inj hout).1.symm hq

/-- Behind a number the rewritten text does not go on with one. -/
theorem Protected.closes {raw out : Bytes} (h : Protected raw out)
    (hr : ∀ c ∈ raw.head?, numberByte c = false) : Kind.value.Closes out := by
  intro c hc
  cases h with
  | nil => cases hc
  | string =>
    cases hc
    decide
  | number =>
    cases hc
    decide
  | byte => exact hr c hc

/-- An array was there before, or it is a number. -/
theorem Protected.of_array {raw out text : Bytes} {docs : List Doc}
    (h : Protected raw (0x5B :: (text ++ [0x5D]) ++ out)) (hd : Derives (.elements docs) text)
    (hr : Kind.value.Closes out) :
    (∃ rest, raw = 0x5B :: rest ∧ Protected rest (text ++ 0x5D :: out)) ∨
      ∃ lexeme rest, NumberText lexeme ∧ raw = lexeme ++ rest ∧ Protected rest out ∧
        Doc.array docs = taggedDoc lexeme := by
  generalize hout : 0x5B :: (text ++ [0x5D]) ++ out = whole at h
  cases h with
  | nil => cases hout
  | string => exact absurd (List.cons.inj hout).1 (by decide)
  | @number lexeme rest out' hn hrest hp =>
    obtain ⟨hitem, rfl⟩ := (derives_taggedNumber hn).unique (Derives.array hd) rfl hout.symm
      (hp.closes hrest) hr
    cases hitem
    exact .inr ⟨lexeme, rest, hn, rfl, hp, rfl⟩
  | byte _ _ _ hp =>
    obtain ⟨rfl, rfl⟩ := List.cons.inj hout
    refine .inl ⟨_, rfl, ?_⟩
    simpa using hp

/-- Where a rewritten text begins with the text of this part, the text before it began with a part
that is tagged to this one. -/
def Restores (item' : Item) (text' : Bytes) : Prop :=
  ∀ ⦃raw out : Bytes⦄, Protected raw (text' ++ out) → item'.kind.Closes out →
    ∃ item text rest, raw = text ++ rest ∧ Protected rest out ∧ Derives item text ∧
      item' = tagItem item ∧ Untagged item

namespace Restores

/-- A literal is not rewritten. -/
private theorem literal {doc : Doc} {text : Bytes} (h : Derives (.value doc) text)
    (hplain : ∀ c ∈ text, c ≠ 0x22 ∧ c ≠ 0x5B) (hsame : doc.substitute taggedDoc = doc)
    (hu : ¬doc.Mentions (ascii "#number")) : Restores (.value doc) text := by
  intro raw out hp _
  obtain ⟨rest, rfl, hp'⟩ := hp.of_plain hplain
  exact ⟨.value doc, text, rest, rfl, hp', h, congrArg Item.value hsame.symm, hu⟩

/-- No number is left in the text of the parser. -/
private theorem number {lexeme : Bytes} (hn : NumberText lexeme) :
    Restores (.value (.number lexeme)) lexeme := by
  intro raw out hp _
  obtain ⟨c, tail, rfl, hc⟩ := hn.lead
  have hother : c ≠ 0x22 ∧ c ≠ 0x5B := by
    constructor
    · rintro rfl
      rcases hc with hc | hc <;> cases hc
    · rintro rfl
      rcases hc with hc | hc <;> cases hc
  obtain ⟨rest, -, -, hm, hd⟩ := Protected.of_byte hp hother.1 hother.2
  rcases hc with hc | hc
  · exact absurd hc hm
  · rw [hd] at hc
    cases hc

private theorem string {text value : Bytes} (hc : CharsText text value) :
    Restores (.value (.string value)) (0x22 :: (text ++ [0x22])) := by
  intro raw out hp _
  simp only [List.cons_append, List.append_assoc, List.nil_append] at hp
  obtain ⟨rest, rfl, hp', hv⟩ := hp.of_string hc
  refine ⟨.value (.string value), 0x22 :: (text ++ [0x22]), rest, ?_, hp', .string hc, rfl, ?_⟩
  · simp
  · rintro ⟨⟩
    exact hv rfl

/-- An array comes from an array or from a number. -/
private theorem array {docs' : List Doc} {text' : Bytes} (hd : Derives (.elements docs') text')
    (ih : Restores (.elements docs') text') :
    Restores (.value (.array docs')) (0x5B :: (text' ++ [0x5D])) := by
  intro raw out hp hr
  rcases hp.of_array hd hr with ⟨rest, rfl, hp1⟩ | ⟨lexeme, rest, hn, rfl, hp1, hdoc⟩
  · have hclose : Kind.elements.Closes (0x5D :: out) := rfl
    obtain ⟨item, text, rest, rfl, hp2, ht, hitem, hu⟩ := ih hp1 hclose
    obtain ⟨rest, rfl, hp3, -⟩ := hp2.of_byte (by decide) (by decide)
    cases item with
    | elements docs =>
      cases hitem
      refine ⟨.value (.array docs), 0x5B :: (text ++ [0x5D]), rest, ?_, hp3, .array ht, rfl, ?_⟩
      · simp
      · rintro (_ | ⟨hi, hm⟩)
        exact hu _ hi hm
    | _ => cases hitem
  · exact ⟨.value (.number lexeme), lexeme, rest, rfl, hp1, .number hn, congrArg Item.value hdoc,
      nofun⟩

private theorem object {fields' : List (Bytes × Doc)} {text' : Bytes}
    (ih : Restores (.members fields') text') :
    Restores (.value (.object fields')) (0x7B :: (text' ++ [0x7D])) := by
  intro raw out hp _
  simp only [List.cons_append, List.append_assoc, List.nil_append] at hp
  obtain ⟨rest, rfl, hp1, -⟩ := hp.of_byte (by decide) (by decide)
  have hclose : Kind.members.Closes (0x7D :: out) := rfl
  obtain ⟨item, text, rest, rfl, hp2, ht, hitem, hu⟩ := ih hp1 hclose
  obtain ⟨rest, rfl, hp3, -⟩ := hp2.of_byte (by decide) (by decide)
  cases item with
  | members fields =>
    cases hitem
    refine ⟨.value (.object fields), 0x7B :: (text ++ [0x7D]), rest, ?_, hp3, .object ht, rfl, ?_⟩
    · simp
    · rintro (_ | _ | hi | ⟨hi, hm⟩)
      · exact (hu _ hi).1 rfl
      · exact (hu _ hi).2 hm
  | _ => cases hitem

private theorem element {doc' : Doc} {before text' after : Bytes} (hb : IsBlank before)
    (ha : IsBlank after) (ih : Restores (.value doc') text') :
    Restores (.element doc') (before ++ (text' ++ after)) := by
  intro raw out hp hr
  simp only [List.append_assoc] at hp
  obtain ⟨rest, rfl, hp1⟩ := hp.of_blank hb
  obtain ⟨item, text, rest, rfl, hp2, ht, hitem, hu⟩ := ih hp1 (closes_value ha hr)
  obtain ⟨rest, rfl, hp3⟩ := hp2.of_blank ha
  cases item with
  | value doc =>
    cases hitem
    refine ⟨.element doc, before ++ (text ++ after), rest, ?_, hp3, .element hb ht ha, rfl, hu⟩
    simp
  | _ => cases hitem

private theorem member {key : Bytes} {doc' : Doc} {before name after text' : Bytes}
    (hb : IsBlank before) (hn : CharsText name key) (ha : IsBlank after)
    (ih : Restores (.element doc') text') :
    Restores (.member key doc')
      (before ++ 0x22 :: (name ++ 0x22 :: (after ++ 0x3A :: text'))) := by
  intro raw out hp hr
  simp only [List.cons_append, List.append_assoc] at hp
  obtain ⟨rest, rfl, hp1⟩ := hp.of_blank hb
  obtain ⟨rest, rfl, hp2, hkey⟩ := hp1.of_string hn
  obtain ⟨rest, rfl, hp3⟩ := hp2.of_blank ha
  obtain ⟨rest, rfl, hp4, -⟩ := hp3.of_byte (by decide) (by decide)
  obtain ⟨item, text, rest, rfl, hp5, ht, hitem, hu⟩ := ih hp4 hr
  cases item with
  | element doc =>
    cases hitem
    refine ⟨.member key doc, before ++ 0x22 :: (name ++ 0x22 :: (after ++ 0x3A :: text)), rest, ?_,
      hp5, .member hb hn ha ht, rfl, hkey, hu⟩
    simp
  | _ => cases hitem

/-! Elements and members, one behind the other. -/

section Elements

variable {doc' : Doc} {docs' : List Doc} {text' more' : Bytes}

/-- One element and those behind it. -/
private theorem element_more (hm : Derives (.moreElements docs') more')
    (ihe : Restores (.element doc') text') (ihm : Restores (.moreElements docs') more')
    {raw out : Bytes} (hp : Protected raw (text' ++ (more' ++ out)))
    (hr : Kind.moreElements.Closes out) :
    ∃ doc docs text more rest, raw = text ++ (more ++ rest) ∧ Protected rest out ∧
      Derives (.element doc) text ∧ Derives (.moreElements docs) more ∧
      doc' = doc.substitute taggedDoc ∧ docs' = Doc.substituteItems taggedDoc docs ∧
      Untagged (.elements (doc :: docs)) := by
  obtain ⟨item, text, rest, rfl, hp1, ht, hitem, hu⟩ := ihe hp (hm.closes_element hr)
  obtain ⟨items, more, rest, rfl, hp2, hts, hitems, hus⟩ := ihm hp1 hr
  cases item with
  | element doc =>
    cases items with
    | moreElements docs =>
      cases hitem
      cases hitems
      exact ⟨doc, docs, text, more, rest, rfl, hp2, ht, hts, rfl, rfl,
        List.forall_mem_cons.mpr ⟨hu, hus⟩⟩
    | _ => cases hitems
  | _ => cases hitem

private theorem noElements {blank : Bytes} (hb : IsBlank blank) :
    Restores (.elements []) blank := by
  intro raw out hp _
  obtain ⟨rest, rfl, hp'⟩ := hp.of_blank hb
  exact ⟨.elements [], _, rest, rfl, hp', .noElements hb, rfl, nofun⟩

private theorem elements (hm : Derives (.moreElements docs') more')
    (ihe : Restores (.element doc') text') (ihm : Restores (.moreElements docs') more') :
    Restores (.elements (doc' :: docs')) (text' ++ more') := by
  intro raw out hp hr
  rw [List.append_assoc] at hp
  obtain ⟨doc, docs, text, more, rest, rfl, hp', ht, hts, rfl, rfl, hu⟩ :=
    element_more hm ihe ihm hp hr
  refine ⟨.elements (doc :: docs), text ++ more, rest, ?_, hp', .elements ht hts, rfl, hu⟩
  rw [List.append_assoc]

private theorem lastElement : Restores (.moreElements []) [] :=
  fun raw _ hp _ ↦ ⟨.moreElements [], [], raw, rfl, hp, .lastElement, rfl, nofun⟩

private theorem moreElements (hm : Derives (.moreElements docs') more')
    (ihe : Restores (.element doc') text') (ihm : Restores (.moreElements docs') more') :
    Restores (.moreElements (doc' :: docs')) (0x2C :: (text' ++ more')) := by
  intro raw out hp hr
  simp only [List.cons_append, List.append_assoc] at hp
  obtain ⟨rest, rfl, hp1, -⟩ := hp.of_byte (by decide) (by decide)
  obtain ⟨doc, docs, text, more, rest, rfl, hp2, ht, hts, rfl, rfl, hu⟩ :=
    element_more hm ihe ihm hp1 hr
  refine ⟨.moreElements (doc :: docs), 0x2C :: (text ++ more), rest, ?_, hp2,
    .moreElements ht hts, rfl, hu⟩
  rw [List.cons_append, List.append_assoc]

end Elements

section Members

variable {key : Bytes} {doc' : Doc} {fields' : List (Bytes × Doc)} {text' more' : Bytes}

/-- One member and those behind it. -/
private theorem member_more (hm : Derives (.moreMembers fields') more')
    (ihe : Restores (.member key doc') text') (ihm : Restores (.moreMembers fields') more')
    {raw out : Bytes} (hp : Protected raw (text' ++ (more' ++ out)))
    (hr : Kind.moreMembers.Closes out) :
    ∃ doc fields text more rest, raw = text ++ (more ++ rest) ∧ Protected rest out ∧
      Derives (.member key doc) text ∧ Derives (.moreMembers fields) more ∧
      doc' = doc.substitute taggedDoc ∧ fields' = Doc.substituteMembers taggedDoc fields ∧
      Untagged (.members ((key, doc) :: fields)) := by
  obtain ⟨item, text, rest, rfl, hp1, ht, hitem, hu⟩ := ihe hp (hm.closes_member hr)
  obtain ⟨items, more, rest, rfl, hp2, hts, hitems, hus⟩ := ihm hp1 hr
  cases item with
  | member key doc =>
    cases items with
    | moreMembers fields =>
      cases hitem
      cases hitems
      exact ⟨doc, fields, text, more, rest, rfl, hp2, ht, hts, rfl, rfl,
        List.forall_mem_cons.mpr ⟨hu, hus⟩⟩
    | _ => cases hitems
  | _ => cases hitem

private theorem noMembers {blank : Bytes} (hb : IsBlank blank) : Restores (.members []) blank := by
  intro raw out hp _
  obtain ⟨rest, rfl, hp'⟩ := hp.of_blank hb
  exact ⟨.members [], _, rest, rfl, hp', .noMembers hb, rfl, nofun⟩

private theorem members (hm : Derives (.moreMembers fields') more')
    (ihe : Restores (.member key doc') text') (ihm : Restores (.moreMembers fields') more') :
    Restores (.members ((key, doc') :: fields')) (text' ++ more') := by
  intro raw out hp hr
  rw [List.append_assoc] at hp
  obtain ⟨doc, fields, text, more, rest, rfl, hp', ht, hts, rfl, rfl, hu⟩ :=
    member_more hm ihe ihm hp hr
  refine ⟨.members ((key, doc) :: fields), text ++ more, rest, ?_, hp', .members ht hts, rfl, hu⟩
  rw [List.append_assoc]

private theorem lastMember : Restores (.moreMembers []) [] :=
  fun raw _ hp _ ↦ ⟨.moreMembers [], [], raw, rfl, hp, .lastMember, rfl, nofun⟩

private theorem moreMembers (hm : Derives (.moreMembers fields') more')
    (ihe : Restores (.member key doc') text') (ihm : Restores (.moreMembers fields') more') :
    Restores (.moreMembers ((key, doc') :: fields')) (0x2C :: (text' ++ more')) := by
  intro raw out hp hr
  simp only [List.cons_append, List.append_assoc] at hp
  obtain ⟨rest, rfl, hp1, -⟩ := hp.of_byte (by decide) (by decide)
  obtain ⟨doc, fields, text, more, rest, rfl, hp2, ht, hts, rfl, rfl, hu⟩ :=
    member_more hm ihe ihm hp1 hr
  refine ⟨.moreMembers ((key, doc) :: fields), 0x2C :: (text ++ more), rest, ?_, hp2,
    .moreMembers ht hts, rfl, hu⟩
  rw [List.cons_append, List.append_assoc]

end Members

end Restores

/-- What the parser reads is the rewriting of a text of the grammar. -/
theorem derives_of_protected {item' : Item} {text' : Bytes} (h : Derives item' text') :
    Restores item' text' := by
  induction h with
  | literalNull => exact Restores.literal .literalNull (by decide +kernel) rfl nofun
  | literalTrue => exact Restores.literal .literalTrue (by decide +kernel) rfl nofun
  | literalFalse => exact Restores.literal .literalFalse (by decide +kernel) rfl nofun
  | number hn => exact Restores.number hn
  | string hc => exact Restores.string hc
  | array hd ih => exact Restores.array hd ih
  | object _ ih => exact Restores.object ih
  | element hb _ ha ih => exact Restores.element hb ha ih
  | noElements hb => exact Restores.noElements hb
  | elements _ hm ihe ihm => exact Restores.elements hm ihe ihm
  | lastElement => exact Restores.lastElement
  | moreElements _ hm ihe ihm => exact Restores.moreElements hm ihe ihm
  | member hb hn ha _ ih => exact Restores.member hb hn ha ih
  | noMembers hb => exact Restores.noMembers hb
  | members _ hm ihe ihm => exact Restores.members hm ihe ihm
  | lastMember => exact Restores.lastMember
  | moreMembers _ hm ihe ihm => exact Restores.moreMembers hm ihe ihm

/-! ### `exact_json` and `number` -/

private theorem closes_nil : Kind.element.Closes [] := by
  intro c hc
  cases hc

private theorem Conforms.exactJson_iff {parse : Bytes → Except Failure Value} {num : Bytes → Value}
    (h : Conforms parse num) (raw : Bytes) (value : Value) :
    exactJsonWith parse raw = .ok value ↔
      ∃ doc, Text raw doc ∧ ¬doc.Mentions (ascii "#number") ∧ value = doc.dom tagged := by
  have hdom : ∀ doc : Doc, (doc.substitute taggedDoc).dom num = doc.dom tagged :=
    Doc.dom_substitute taggedDoc num
  constructor
  · intro hexact
    obtain ⟨out, hout, hvalue⟩ := bind_ok hexact
    obtain ⟨doc', hdoc', rfl⟩ := (h _ _).mp hvalue
    have hp := h.protected_of_ok le_rfl hout
    rw [← List.append_nil out] at hp
    obtain ⟨item, text, rest, rfl, hrest, ht, hitem, hu⟩ := derives_of_protected hdoc' hp closes_nil
    cases hrest
    cases item with
    | element doc =>
      cases hitem
      rw [List.append_nil]
      exact ⟨doc, ht, hu, hdom doc⟩
    | _ => cases hitem
  · rintro ⟨doc, htext, hu, rfl⟩
    obtain ⟨out, hp, ht⟩ := protected_of_derives htext hu closes_nil .nil
    rw [List.append_nil, List.append_nil] at hp
    have hparse := (h out _).mpr ⟨_, ht, rfl⟩
    rw [hdom] at hparse
    rw [exactJsonWith, h.ok_of_protected hp le_rfl]
    exact hparse

/-- Only strings become strings. -/
theorem eq_string_of_dom {doc : Doc} {text : Bytes} (h : doc.dom tagged = .string text) :
    doc = .string text := by
  cases doc with
  | string value =>
    cases h
    rfl
  | _ => cases h

/-- The tag at the head of an array marks a number. -/
theorem eq_number_of_tag {doc : Doc} {items : List Value}
    (hu : ¬doc.Mentions (ascii "#number"))
    (h : doc.dom tagged = .array (.string (ascii "#number") :: items)) :
    ∃ lexeme, doc = .number lexeme := by
  cases doc with
  | number lexeme => exact ⟨lexeme, rfl⟩
  | array docs =>
    cases docs with
    | nil => cases h
    | cons first docs =>
      have hfirst : first.dom tagged = .string (ascii "#number") := by
        rw [Doc.dom, Doc.domItems] at h
        exact (List.cons.inj (Value.array.inj h)).1
      obtain rfl := eq_string_of_dom hfirst
      exact absurd (.item List.mem_cons_self .string) hu
  | _ => cases h

/-- The parts of a tagged number are itself and two strings. -/
theorem eq_of_within_tagged {lexeme : Bytes} {items : List Value}
    (h : Value.Within (.array items) (tagged lexeme)) : Value.array items = tagged lexeme := by
  generalize hvalue : tagged lexeme = value at h
  cases h with
  | self => rfl
  | item hi hw =>
    cases hvalue
    rcases List.mem_pair.mp hi with rfl | rfl <;> cases hw
  | field => cases hvalue

private theorem number_ok {value : Value} {token : Bytes} (h : number value = .ok token) :
    value = tagged token := by
  unfold number at h
  split at h
  · next tag found =>
    split at h
    · next htag =>
      cases h
      cases tag with
      | string text =>
        rw [Value.equalsText, decide_eq_true_eq] at htag
        rw [htag]
        rfl
      | _ => cases htag
    · cases h
  · cases h

/-- If the parser accepts the texts of the grammar, `exact_json` returns for exactly those in
which no string or key is the tag. It returns their value with a tagged lexeme in the place of
every number, and the tag is nowhere else at the head of an array. So `number` succeeds where a
number was written, and returns it as it was written. -/
theorem exactJson_exact {parse : Bytes → Except Failure Value} {num : Bytes → Value}
    (h : Conforms parse num) (raw : Bytes) :
    (∀ value, exactJsonWith parse raw = .ok value ↔
      ∃ doc, Text raw doc ∧ ¬doc.Mentions (ascii "#number") ∧ value = doc.dom tagged) ∧
    ∀ doc, Text raw doc → ¬doc.Mentions (ascii "#number") →
      (∀ inner items, inner.Within (doc.dom tagged) →
        inner = .array (.string (ascii "#number") :: items) →
        ∃ lexeme, (Doc.number lexeme).Within doc ∧ inner = tagged lexeme) ∧
      ∀ part : Doc, part.Within doc → ∀ token,
        number (part.dom tagged) = .ok token ↔ part = .number token := by
  refine ⟨h.exactJson_iff raw, fun doc _ hu ↦ ⟨?_, ?_⟩⟩
  · rintro inner items hinner rfl
    rcases Doc.within_dom hinner with ⟨part, hpart, heq⟩ | ⟨lexeme, hlexeme, hwithin⟩
    · obtain ⟨lexeme, rfl⟩ := eq_number_of_tag (fun hm ↦ hu (hpart.mentions hm)) heq.symm
      exact ⟨lexeme, hpart, heq⟩
    · exact ⟨lexeme, hlexeme, eq_of_within_tagged hwithin⟩
  · intro part hpart token
    constructor
    · intro hnumber
      have hvalue := number_ok hnumber
      obtain ⟨lexeme, rfl⟩ := eq_number_of_tag (fun hm ↦ hu (hpart.mentions hm)) hvalue
      cases hvalue
      rfl
    · rintro rfl
      rfl

/-- There is such a parser, whatever the values of the numbers are. -/
theorem exists_conforms (num : Bytes → Value) :
    ∃ parse : Bytes → Except Failure Value, Conforms parse num := by
  classical
  refine ⟨fun text ↦ if h : ∃ doc, Text text doc then .ok (h.choose.dom num)
    else .error (jsonFailure "parse_error" 101 []), fun text value ↦ ?_⟩
  dsimp only
  by_cases h : ∃ doc, Text text doc
  · rw [dif_pos h, Except.ok.injEq]
    constructor
    · rintro rfl
      exact ⟨_, h.choose_spec, rfl⟩
    · rintro ⟨doc, hdoc, rfl⟩
      rw [hdoc.unique h.choose_spec]
  · rw [dif_neg h]
    constructor
    · intro hvalue
      cases hvalue
    · rintro ⟨doc, hdoc, -⟩
      exact absurd ⟨doc, hdoc⟩ h

/-- The zero at the end of a price stays. -/
theorem exactJson_exact_price :
    ∃ parse, Conforms parse (fun _ ↦ .null) ∧
      exactJsonWith parse (ascii "[1.50]") = .ok (.array [tagged (ascii "1.50")]) ∧
      number (tagged (ascii "1.50")) = .ok (ascii "1.50") := by
  obtain ⟨parse, hparse⟩ := exists_conforms fun _ ↦ .null
  have hnumber : NumberText (ascii "1.50") := matchesNumber_iff.mp (by decide +kernel)
  have hitem : Derives (.element (.number (ascii "1.50"))) (ascii "1.50") :=
    Derives.element (List.forall_mem_nil _) (.number hnumber) (List.forall_mem_nil _)
  have htext : Text (ascii "[1.50]") (.array [.number (ascii "1.50")]) := by
    have harray := Derives.array (.elements hitem .lastElement)
    exact Derives.element (List.forall_mem_nil _) harray (List.forall_mem_nil _)
  have huntagged : ¬(Doc.array [.number (ascii "1.50")]).Mentions (ascii "#number") := by
    rintro (_ | ⟨hi, hm⟩)
    rw [List.mem_singleton.mp hi] at hm
    cases hm
  obtain ⟨hexact, hparts⟩ := exactJson_exact hparse (ascii "[1.50]")
  refine ⟨parse, hparse, (hexact _).mpr ⟨_, htext, huntagged, rfl⟩, ?_⟩
  exact ((hparts _ htext huntagged).2 (.number (ascii "1.50")) (.item List.mem_cons_self .self)
    (ascii "1.50")).mpr rfl

end ArbitrageEngine.Kraken
