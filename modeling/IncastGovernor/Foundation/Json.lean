import Mathlib.Data.List.TakeWhile
import Mathlib.Data.UInt

/-! JSON texts over bytes. The grammar relates a text to the value it begins with and to what is left
of it; the parser is a scanner with fuel, and what it accepts is a text of the grammar. Nothing
requires the bytes of a string to be UTF-8. -/

namespace IncastGovernor.Foundation

/-- A string is the bytes its text stands for, and a number is `mantissa * 10 ^ exponent`. -/
inductive Json where
  | null
  | bool (value : Bool)
  | number (mantissa exponent : ℤ)
  | string (value : List UInt8)
  | array (items : List Json)
  | object (members : List (List UInt8 × Json))

namespace Json

def byte (c : Char) : UInt8 := c.toNat.toUInt8

def bytes (s : String) : List UInt8 := s.toList.map byte

/-! ### Lexical classes -/

def isSpace (b : UInt8) : Bool := b = 0x20 ∨ b = 0x09 ∨ b = 0x0A ∨ b = 0x0D

def isDigit (b : UInt8) : Bool := 48 ≤ b ∧ b ≤ 57

def decimal (digits : List UInt8) : ℕ := digits.foldl (fun n d => 10 * n + (d.toNat - 48)) 0

/-- A byte that stands for itself in a string. -/
def isPlain (b : UInt8) : Bool := 0x20 ≤ b ∧ b ≠ byte '"' ∧ b ≠ byte '\\'

/-- The byte that a backslash and a letter stand for. -/
def escaped (c : UInt8) : Option UInt8 :=
  if c = byte '"' ∨ c = byte '\\' ∨ c = byte '/' then some c
  else if c = byte 'b' then some 0x08
  else if c = byte 'f' then some 0x0C
  else if c = byte 'n' then some 0x0A
  else if c = byte 'r' then some 0x0D
  else if c = byte 't' then some 0x09
  else none

def hexDigit (b : UInt8) : Option ℕ :=
  if 48 ≤ b ∧ b ≤ 57 then some (b.toNat - 48)
  else if 97 ≤ b ∧ b ≤ 102 then some (b.toNat - 87)
  else if 65 ≤ b ∧ b ≤ 70 then some (b.toNat - 55)
  else none

def hexUnit (a b c d : UInt8) : Option ℕ := do
  return 4096 * (← hexDigit a) + 256 * (← hexDigit b) + 16 * (← hexDigit c) + (← hexDigit d)

/-- The bytes of a code unit; the two halves of a surrogate pair are encoded one by one. -/
def encodeUnit (unit : ℕ) : List UInt8 :=
  if unit < 0x80 then [unit.toUInt8]
  else if unit < 0x800 then [(0xC0 + unit / 64).toUInt8, (0x80 + unit % 64).toUInt8]
  else [(0xE0 + unit / 4096).toUInt8, (0x80 + unit / 64 % 64).toUInt8, (0x80 + unit % 64).toUInt8]

/-! ### The grammar -/

inductive Spaces : List UInt8 → List UInt8 → Prop
  | nil {rest} : Spaces rest rest
  | cons {b text rest} (h : isSpace b) (ht : Spaces text rest) : Spaces (b :: text) rest

/-- A string behind its opening quote. -/
inductive Body : List UInt8 → List UInt8 → List UInt8 → Prop
  | close {rest} : Body (byte '"' :: rest) [] rest
  | plain {b text value rest} (h : isPlain b) (ht : Body text value rest) :
      Body (b :: text) (b :: value) rest
  | escape {c b text value rest} (h : escaped c = some b) (ht : Body text value rest) :
      Body (byte '\\' :: c :: text) (b :: value) rest
  | unit {a b c d unit text value rest} (h : hexUnit a b c d = some unit)
      (ht : Body text value rest) :
      Body (byte '\\' :: byte 'u' :: a :: b :: c :: d :: text) (encodeUnit unit ++ value) rest

def IsDigits (text : List UInt8) : Prop := text ≠ [] ∧ ∀ d ∈ text, isDigit d

/-- The whole part of a number has no leading zero. -/
def IsWhole (text : List UInt8) : Prop :=
  IsDigits text ∧ (text.head? = some (byte '0') → text.length = 1)

inductive Sign : List UInt8 → ℤ → Prop
  | plus : Sign [] 1
  | minus : Sign [byte '-'] (-1)

inductive Fraction : List UInt8 → List UInt8 → Prop
  | none : Fraction [] []
  | some {digits} (h : IsDigits digits) : Fraction (byte '.' :: digits) digits

inductive ShiftSign : List UInt8 → ℤ → Prop
  | plus : ShiftSign [byte '+'] 1
  | sign {sign unit} (h : Sign sign unit) : ShiftSign sign unit

inductive Exponent : List UInt8 → ℤ → Prop
  | none : Exponent [] 0
  | some {e sign unit digits} (he : e = byte 'e' ∨ e = byte 'E') (hs : ShiftSign sign unit)
      (h : IsDigits digits) : Exponent (e :: (sign ++ digits)) (unit * decimal digits)

inductive Scalar : List UInt8 → Json → List UInt8 → Prop
  | null {rest} : Scalar (bytes "null" ++ rest) .null rest
  | true {rest} : Scalar (bytes "true" ++ rest) (.bool true) rest
  | false {rest} : Scalar (bytes "false" ++ rest) (.bool false) rest
  | string {text value rest} (h : Body text value rest) :
      Scalar (byte '"' :: text) (.string value) rest
  | number {sign unit whole fraction digits exponent shift rest} (hs : Sign sign unit)
      (hw : IsWhole whole) (hf : Fraction fraction digits) (he : Exponent exponent shift) :
      Scalar (sign ++ (whole ++ (fraction ++ (exponent ++ rest))))
        (.number (unit * decimal (whole ++ digits)) (shift - digits.length)) rest

/-- The name of a member with its colon. -/
inductive Name : List UInt8 → List UInt8 → List UInt8 → Prop
  | mk {text inner name after rest} (hbefore : Spaces text (byte '"' :: inner))
      (hn : Body inner name after) (hafter : Spaces after (byte ':' :: rest)) : Name text name rest

mutual

/-- A value with the space around it. -/
inductive Value : List UInt8 → Json → List UInt8 → Prop
  | mk {text inner value after rest} (hbefore : Spaces text inner) (hv : Element inner value after)
      (hafter : Spaces after rest) : Value text value rest

inductive Element : List UInt8 → Json → List UInt8 → Prop
  | scalar {text value rest} (h : Scalar text value rest) : Element text value rest
  | empty_array {text rest} (h : Spaces text (byte ']' :: rest)) :
      Element (byte '[' :: text) (.array []) rest
  | array {text items rest} (h : Items text items rest) :
      Element (byte '[' :: text) (.array items) rest
  | empty_object {text rest} (h : Spaces text (byte '}' :: rest)) :
      Element (byte '{' :: text) (.object []) rest
  | object {text members rest} (h : Members text members rest) :
      Element (byte '{' :: text) (.object members) rest

/-- The items of an array up to its closing bracket. -/
inductive Items : List UInt8 → List Json → List UInt8 → Prop
  | last {text value rest} (h : Value text value (byte ']' :: rest)) : Items text [value] rest
  | cons {text value next values rest} (h : Value text value (byte ',' :: next))
      (ht : Items next values rest) : Items text (value :: values) rest

/-- The members of an object up to its closing brace. -/
inductive Members : List UInt8 → List (List UInt8 × Json) → List UInt8 → Prop
  | last {text name value after rest} (hn : Name text name after)
      (h : Value after value (byte '}' :: rest)) : Members text [(name, value)] rest
  | cons {text name value after next members rest} (hn : Name text name after)
      (h : Value after value (byte ',' :: next)) (ht : Members next members rest) :
      Members text ((name, value) :: members) rest

end

/-! ### Shapes -/

mutual

/-- The structure of a value: its nesting and its names, with every scalar emptied. -/
def shape : Json → Json
  | .null => .null
  | .bool _ => .bool false
  | .number _ _ => .number 0 0
  | .string _ => .string []
  | .array items => .array (shapeItems items)
  | .object members => .object (shapeMembers members)

def shapeItems : List Json → List Json
  | [] => []
  | item :: items => shape item :: shapeItems items

def shapeMembers : List (List UInt8 × Json) → List (List UInt8 × Json)
  | [] => []
  | (name, value) :: members => (name, shape value) :: shapeMembers members

end

theorem shapeItems_eq_map (items : List Json) : shapeItems items = items.map shape := by
  induction items with
  | nil => rfl
  | cons item items ih => rw [shapeItems, ih, List.map_cons]

theorem shapeMembers_eq_map (members : List (List UInt8 × Json)) :
    shapeMembers members = members.map fun m => (m.1, shape m.2) := by
  induction members with
  | nil => rfl
  | cons member members ih => rw [shapeMembers, ih, List.map_cons]

theorem shape_array (items : List Json) : (array items).shape = .array (items.map shape) := by
  rw [shape, shapeItems_eq_map]

theorem shape_object (members : List (List UInt8 × Json)) :
    (object members).shape = .object (members.map fun m => (m.1, m.2.shape)) := by
  rw [shape, shapeMembers_eq_map]

/-- The whole text is one value. -/
def IsText (text : List UInt8) (value : Json) : Prop := Value text value []

/-! ### The parser -/

def skipSpaces (text : List UInt8) : List UInt8 := text.dropWhile isSpace

def expect (b : UInt8) : List UInt8 → Option (List UInt8)
  | [] => none
  | c :: rest => if c = b then some rest else none

def expectAll : List UInt8 → List UInt8 → Option (List UInt8)
  | [], text => some text
  | b :: word, text => (expect b text).bind (expectAll word)

def parseBody : List UInt8 → Option (List UInt8 × List UInt8)
  | [] => none
  | b :: text =>
    if b = byte '"' then some ([], text)
    else if b = byte '\\' then
      match text with
      | [] => none
      | c :: after =>
        if c = byte 'u' then
          match after with
          | d :: e :: f :: g :: text =>
            (hexUnit d e f g).bind fun unit =>
              (parseBody text).map fun p => (encodeUnit unit ++ p.1, p.2)
          | _ => none
        else
          (escaped c).bind fun b => (parseBody after).map fun p => (b :: p.1, p.2)
    else if isPlain b then (parseBody text).map fun p => (b :: p.1, p.2)
    else none

/-- The digits a text begins with, at least one. -/
def parseDigits (text : List UInt8) : Option (List UInt8 × List UInt8) :=
  if text.takeWhile isDigit = [] then none
  else some (text.takeWhile isDigit, text.dropWhile isDigit)

def parseWhole (text : List UInt8) : Option (List UInt8 × List UInt8) :=
  (parseDigits text).filter fun p => p.1.head? ≠ some (byte '0') ∨ p.1.length = 1

def parseSign (text : List UInt8) : ℤ × List UInt8 :=
  match expect (byte '-') text with
  | some rest => (-1, rest)
  | none => (1, text)

def parseFraction (text : List UInt8) : Option (List UInt8 × List UInt8) :=
  match expect (byte '.') text with
  | some rest => parseDigits rest
  | none => some ([], text)

def parseShiftSign (text : List UInt8) : ℤ × List UInt8 :=
  match expect (byte '+') text with
  | some rest => (1, rest)
  | none => parseSign text

/-- The signed digits of an exponent behind its letter. -/
def parseShift (text : List UInt8) : Option (ℤ × List UInt8) :=
  (parseDigits (parseShiftSign text).2).map fun p => ((parseShiftSign text).1 * decimal p.1, p.2)

def parseExponent (text : List UInt8) : Option (ℤ × List UInt8) :=
  match expect (byte 'e') text with
  | some rest => parseShift rest
  | none =>
    match expect (byte 'E') text with
    | some rest => parseShift rest
    | none => some (0, text)

def parseNumber (text : List UInt8) : Option (Json × List UInt8) := do
  let (whole, after) ← parseWhole (parseSign text).2
  let (digits, after) ← parseFraction after
  let (shift, after) ← parseExponent after
  return (.number ((parseSign text).1 * decimal (whole ++ digits)) (shift - digits.length), after)

def parseScalar (text : List UInt8) : Option (Json × List UInt8) :=
  match expect (byte '"') text with
  | some rest => (parseBody rest).map fun p => (.string p.1, p.2)
  | none =>
    match expectAll (bytes "null") text with
    | some rest => some (.null, rest)
    | none =>
      match expectAll (bytes "true") text with
      | some rest => some (.bool true, rest)
      | none =>
        match expectAll (bytes "false") text with
        | some rest => some (.bool false, rest)
        | none => parseNumber text

def parseName (text : List UInt8) : Option (List UInt8 × List UInt8) := do
  let text ← expect (byte '"') (skipSpaces text)
  let (name, text) ← parseBody text
  let text ← expect (byte ':') (skipSpaces text)
  return (name, text)

mutual

def parseValue : ℕ → List UInt8 → Option (Json × List UInt8)
  | 0, _ => none
  | fuel + 1, text => (parseElement fuel (skipSpaces text)).map fun p => (p.1, skipSpaces p.2)

def parseElement : ℕ → List UInt8 → Option (Json × List UInt8)
  | 0, _ => none
  | fuel + 1, text =>
    match expect (byte '[') text with
    | some rest =>
      match expect (byte ']') (skipSpaces rest) with
      | some rest => some (.array [], rest)
      | none => (parseItems fuel rest).map fun p => (.array p.1, p.2)
    | none =>
      match expect (byte '{') text with
      | some rest =>
        match expect (byte '}') (skipSpaces rest) with
        | some rest => some (.object [], rest)
        | none => (parseMembers fuel rest).map fun p => (.object p.1, p.2)
      | none => parseScalar text

def parseItems : ℕ → List UInt8 → Option (List Json × List UInt8)
  | 0, _ => none
  | fuel + 1, text => do
    let (value, text) ← parseValue fuel text
    match expect (byte ']') text with
    | some rest => return ([value], rest)
    | none =>
      let (values, rest) ← parseItems fuel (← expect (byte ',') text)
      return (value :: values, rest)

def parseMembers : ℕ → List UInt8 → Option (List (List UInt8 × Json) × List UInt8)
  | 0, _ => none
  | fuel + 1, text => do
    let (name, text) ← parseName text
    let (value, text) ← parseValue fuel text
    match expect (byte '}') text with
    | some rest => return ([(name, value)], rest)
    | none =>
      let (members, rest) ← parseMembers fuel (← expect (byte ',') text)
      return ((name, value) :: members, rest)

end

def parse (text : List UInt8) : Option Json := do
  let (value, rest) ← parseValue (2 * text.length + 2) text
  if rest = [] then some value else none

/-! ### What the parser accepts -/

section Sound

variable {text rest : List UInt8}

theorem map_fst_eq_some {α β : Type} {f : α → β} {parsed : Option (α × List UInt8)} {b : β} :
    (parsed.map fun p => (f p.1, p.2)) = some (b, rest) ↔ ∃ a, parsed = some (a, rest) ∧ f a = b := by
  cases parsed with
  | none => simp
  | some p =>
    obtain ⟨a, after⟩ := p
    simp only [Option.map_some, Option.some.injEq, Prod.mk.injEq]
    exact ⟨fun ⟨hf, hr⟩ => ⟨a, ⟨rfl, hr⟩, hf⟩, fun ⟨_, ⟨ha, hr⟩, hf⟩ => ⟨ha ▸ hf, hr⟩⟩

theorem expect_eq_some {b : UInt8} : expect b text = some rest ↔ text = b :: rest := by
  cases text with
  | nil => simp [expect]
  | cons c text => simp [expect]

theorem expectAll_eq_some {word : List UInt8} :
    expectAll word text = some rest ↔ text = word ++ rest := by
  induction word generalizing text with
  | nil => simp [expectAll]
  | cons b word ih =>
    simp only [expectAll, Option.bind_eq_some_iff, expect_eq_some, ih, List.cons_append]
    exact ⟨fun ⟨after, hb, ha⟩ => ha ▸ hb, fun h => ⟨word ++ rest, h, rfl⟩⟩

theorem spaces_skipSpaces (text : List UInt8) : Spaces text (skipSpaces text) := by
  induction text with
  | nil => exact .nil
  | cons b text ih =>
    by_cases h : isSpace b
    · rw [skipSpaces, List.dropWhile_cons_of_pos h]
      exact .cons h ih
    · rw [skipSpaces, List.dropWhile_cons_of_neg h]
      exact .nil

theorem spaces_of_skipSpaces (h : skipSpaces text = rest) : Spaces text rest :=
  h ▸ spaces_skipSpaces text

theorem body_of_parseBody {value : List UInt8} (h : parseBody text = some (value, rest)) :
    Body text value rest := by
  fun_induction parseBody text generalizing value with
  | case2 =>
    obtain ⟨rfl, rfl⟩ := Prod.mk.inj (Option.some.inj h)
    exact .close
  | case4 _ _ _ _ _ _ ih =>
    obtain ⟨unit, hunit, h⟩ := Option.bind_eq_some_iff.mp h
    obtain ⟨tail, htail, rfl⟩ := map_fst_eq_some.mp h
    exact .unit hunit (ih htail)
  | case6 _ _ _ _ ih =>
    obtain ⟨b, hb, h⟩ := Option.bind_eq_some_iff.mp h
    obtain ⟨tail, htail, rfl⟩ := map_fst_eq_some.mp h
    exact .escape hb (ih htail)
  | case7 _ _ _ _ hplain ih =>
    obtain ⟨tail, htail, rfl⟩ := map_fst_eq_some.mp h
    exact .plain hplain (ih htail)
  | case1 => cases h
  | case3 => cases h
  | case5 => cases h
  | case8 => cases h

theorem of_parseDigits {digits : List UInt8} (h : parseDigits text = some (digits, rest)) :
    text = digits ++ rest ∧ IsDigits digits := by
  unfold parseDigits at h
  split_ifs at h with hne
  obtain ⟨rfl, rfl⟩ := Prod.mk.inj (Option.some.inj h)
  exact ⟨List.takeWhile_append_dropWhile.symm, hne, fun d hd => List.mem_takeWhile_imp hd⟩

theorem of_parseWhole {whole : List UInt8} (h : parseWhole text = some (whole, rest)) :
    text = whole ++ rest ∧ IsWhole whole := by
  obtain ⟨hdigits, hzero⟩ := Option.filter_eq_some_iff.mp h
  obtain ⟨htext, hwhole⟩ := of_parseDigits hdigits
  refine ⟨htext, hwhole, fun hhead => ?_⟩
  exact (of_decide_eq_true hzero).resolve_left fun hne => hne hhead

theorem sign_parseSign (text : List UInt8) :
    ∃ sign, text = sign ++ (parseSign text).2 ∧ Sign sign (parseSign text).1 := by
  unfold parseSign
  split
  · rename_i after hexpect
    exact ⟨[byte '-'], expect_eq_some.mp hexpect, .minus⟩
  · exact ⟨[], rfl, .plus⟩

theorem sign_parseShiftSign (text : List UInt8) :
    ∃ sign, text = sign ++ (parseShiftSign text).2 ∧ ShiftSign sign (parseShiftSign text).1 := by
  unfold parseShiftSign
  split
  · rename_i after hexpect
    exact ⟨[byte '+'], expect_eq_some.mp hexpect, .plus⟩
  · obtain ⟨sign, htext, hsign⟩ := sign_parseSign text
    exact ⟨sign, htext, .sign hsign⟩

theorem of_parseFraction {digits : List UInt8} (h : parseFraction text = some (digits, rest)) :
    ∃ fraction, text = fraction ++ rest ∧ Fraction fraction digits := by
  unfold parseFraction at h
  split at h
  · rename_i after hexpect
    obtain ⟨hafter, hdigits⟩ := of_parseDigits h
    refine ⟨byte '.' :: digits, ?_, .some hdigits⟩
    rw [expect_eq_some.mp hexpect, hafter, List.cons_append]
  · obtain ⟨rfl, rfl⟩ := Prod.mk.inj (Option.some.inj h)
    exact ⟨[], rfl, .none⟩

theorem of_parseShift {e : UInt8} (he : e = byte 'e' ∨ e = byte 'E') {shift : ℤ}
    (h : parseShift text = some (shift, rest)) :
    ∃ exponent, e :: text = exponent ++ rest ∧ Exponent exponent shift := by
  unfold parseShift at h
  obtain ⟨digits, hparse, rfl⟩ :=
    (map_fst_eq_some (f := fun digits => (parseShiftSign text).1 * (decimal digits : ℤ))).mp h
  obtain ⟨sign, htext, hsign⟩ := sign_parseShiftSign text
  obtain ⟨hafter, hdigits⟩ := of_parseDigits hparse
  refine ⟨e :: (sign ++ digits), ?_, .some he hsign hdigits⟩
  rw [List.cons_append, List.append_assoc, ← hafter, ← htext]

theorem of_parseExponent {shift : ℤ} (h : parseExponent text = some (shift, rest)) :
    ∃ exponent, text = exponent ++ rest ∧ Exponent exponent shift := by
  unfold parseExponent at h
  split at h
  · rename_i after hexpect
    rw [expect_eq_some.mp hexpect]
    exact of_parseShift (.inl rfl) h
  · split at h
    · rename_i after hexpect
      rw [expect_eq_some.mp hexpect]
      exact of_parseShift (.inr rfl) h
    · obtain ⟨rfl, rfl⟩ := Prod.mk.inj (Option.some.inj h)
      exact ⟨[], rfl, .none⟩

theorem scalar_of_parseNumber {value : Json} (h : parseNumber text = some (value, rest)) :
    Scalar text value rest := by
  obtain ⟨⟨whole, afterWhole⟩, hwhole, h⟩ := Option.bind_eq_some_iff.mp h
  obtain ⟨⟨digits, afterFraction⟩, hfraction, h⟩ := Option.bind_eq_some_iff.mp h
  obtain ⟨⟨shift, afterExponent⟩, hexponent, h⟩ := Option.bind_eq_some_iff.mp h
  obtain ⟨rfl, rfl⟩ := Prod.mk.inj (Option.some.inj h)
  obtain ⟨sign, hsignText, hsign⟩ := sign_parseSign text
  obtain ⟨hwholeText, hwhole⟩ := of_parseWhole hwhole
  obtain ⟨fraction, hfractionText, hfraction⟩ := of_parseFraction hfraction
  obtain ⟨exponent, hexponentText, hexponent⟩ := of_parseExponent hexponent
  have htext : text = sign ++ (whole ++ (fraction ++ (exponent ++ afterExponent))) := by
    rw [← hexponentText, ← hfractionText, ← hwholeText, ← hsignText]
  rw [htext] at hsign ⊢
  exact .number hsign hwhole hfraction hexponent

theorem scalar_of_parseScalar {value : Json} (h : parseScalar text = some (value, rest)) :
    Scalar text value rest := by
  unfold parseScalar at h
  split at h
  · rename_i after hexpect
    obtain ⟨bytes, hbody, rfl⟩ := map_fst_eq_some.mp h
    rw [expect_eq_some.mp hexpect]
    exact .string (body_of_parseBody hbody)
  split at h
  · rename_i after hexpect
    obtain ⟨rfl, rfl⟩ := Prod.mk.inj (Option.some.inj h)
    exact expectAll_eq_some.mp hexpect ▸ .null
  split at h
  · rename_i after hexpect
    obtain ⟨rfl, rfl⟩ := Prod.mk.inj (Option.some.inj h)
    exact expectAll_eq_some.mp hexpect ▸ .true
  split at h
  · rename_i after hexpect
    obtain ⟨rfl, rfl⟩ := Prod.mk.inj (Option.some.inj h)
    exact expectAll_eq_some.mp hexpect ▸ .false
  · exact scalar_of_parseNumber h

theorem name_of_parseName {name : List UInt8} (h : parseName text = some (name, rest)) :
    Name text name rest := by
  obtain ⟨inner, hquote, h⟩ := Option.bind_eq_some_iff.mp h
  obtain ⟨⟨name, after⟩, hbody, h⟩ := Option.bind_eq_some_iff.mp h
  obtain ⟨final, hcolon, h⟩ := Option.bind_eq_some_iff.mp h
  obtain ⟨rfl, rfl⟩ := Prod.mk.inj (Option.some.inj h)
  exact .mk (spaces_of_skipSpaces (expect_eq_some.mp hquote)) (body_of_parseBody hbody)
    (spaces_of_skipSpaces (expect_eq_some.mp hcolon))

/-- What a parser with some fuel returns is in the grammar. -/
structure SoundAt (fuel : ℕ) : Prop where
  value : ∀ {text value rest}, parseValue fuel text = some (value, rest) → Value text value rest
  element : ∀ {text value rest}, parseElement fuel text = some (value, rest) →
    Element text value rest
  items : ∀ {text items rest}, parseItems fuel text = some (items, rest) → Items text items rest
  members : ∀ {text members rest}, parseMembers fuel text = some (members, rest) →
    Members text members rest

theorem value_of_parseValue {fuel : ℕ} (ih : SoundAt fuel) {value : Json}
    (h : parseValue (fuel + 1) text = some (value, rest)) : Value text value rest := by
  rw [parseValue] at h
  obtain ⟨⟨inner, after⟩, helement, h⟩ := Option.map_eq_some_iff.mp h
  obtain ⟨rfl, hrest⟩ := Prod.mk.inj h
  exact .mk (spaces_skipSpaces text) (ih.element helement) (spaces_of_skipSpaces hrest)

theorem element_of_parseElement {fuel : ℕ} (ih : SoundAt fuel) {value : Json}
    (h : parseElement (fuel + 1) text = some (value, rest)) : Element text value rest := by
  rw [parseElement] at h
  split at h
  · rename_i after hopen
    rw [expect_eq_some.mp hopen]
    split at h
    · rename_i close hclose
      obtain ⟨rfl, rfl⟩ := Prod.mk.inj (Option.some.inj h)
      exact .empty_array (spaces_of_skipSpaces (expect_eq_some.mp hclose))
    · obtain ⟨items, hitems, rfl⟩ := map_fst_eq_some.mp h
      exact .array (ih.items hitems)
  split at h
  · rename_i after hopen
    rw [expect_eq_some.mp hopen]
    split at h
    · rename_i close hclose
      obtain ⟨rfl, rfl⟩ := Prod.mk.inj (Option.some.inj h)
      exact .empty_object (spaces_of_skipSpaces (expect_eq_some.mp hclose))
    · obtain ⟨members, hmembers, rfl⟩ := map_fst_eq_some.mp h
      exact .object (ih.members hmembers)
  · exact .scalar (scalar_of_parseScalar h)

theorem items_of_parseItems {fuel : ℕ} (ih : SoundAt fuel) {items : List Json}
    (h : parseItems (fuel + 1) text = some (items, rest)) : Items text items rest := by
  rw [parseItems] at h
  obtain ⟨⟨value, after⟩, hvalue, h⟩ := Option.bind_eq_some_iff.mp h
  simp only at h
  split at h
  · rename_i close hclose
    obtain ⟨rfl, rfl⟩ := Prod.mk.inj (Option.some.inj h)
    exact .last (expect_eq_some.mp hclose ▸ ih.value hvalue)
  · obtain ⟨next, hcomma, h⟩ := Option.bind_eq_some_iff.mp h
    obtain ⟨⟨values, final⟩, hvalues, h⟩ := Option.bind_eq_some_iff.mp h
    obtain ⟨rfl, rfl⟩ := Prod.mk.inj (Option.some.inj h)
    exact .cons (expect_eq_some.mp hcomma ▸ ih.value hvalue) (ih.items hvalues)

theorem members_of_parseMembers {fuel : ℕ} (ih : SoundAt fuel) {members : List (List UInt8 × Json)}
    (h : parseMembers (fuel + 1) text = some (members, rest)) : Members text members rest := by
  rw [parseMembers] at h
  obtain ⟨⟨name, colon⟩, hname, h⟩ := Option.bind_eq_some_iff.mp h
  obtain ⟨⟨value, after⟩, hvalue, h⟩ := Option.bind_eq_some_iff.mp h
  simp only at h
  split at h
  · rename_i close hclose
    obtain ⟨rfl, rfl⟩ := Prod.mk.inj (Option.some.inj h)
    exact .last (name_of_parseName hname) (expect_eq_some.mp hclose ▸ ih.value hvalue)
  · obtain ⟨next, hcomma, h⟩ := Option.bind_eq_some_iff.mp h
    obtain ⟨⟨members, final⟩, hmembers, h⟩ := Option.bind_eq_some_iff.mp h
    obtain ⟨rfl, rfl⟩ := Prod.mk.inj (Option.some.inj h)
    exact .cons (name_of_parseName hname) (expect_eq_some.mp hcomma ▸ ih.value hvalue)
      (ih.members hmembers)

/-- By induction on the fuel: every parser spends one unit and calls the others with the rest. -/
theorem soundAt (fuel : ℕ) : SoundAt fuel := by
  induction fuel with
  | zero =>
    constructor <;> intro _ _ _ h
    · rw [parseValue] at h
      cases h
    · rw [parseElement] at h
      cases h
    · rw [parseItems] at h
      cases h
    · rw [parseMembers] at h
      cases h
  | succ fuel ih =>
    exact ⟨value_of_parseValue ih, element_of_parseElement ih, items_of_parseItems ih,
      members_of_parseMembers ih⟩

/-- An accepted text is one of the grammar. -/
theorem isText_of_parse {value : Json} (h : parse text = some value) : IsText text value := by
  obtain ⟨⟨v, rest⟩, hvalue, h⟩ := Option.bind_eq_some_iff.mp h
  simp only at h
  split_ifs at h with hrest
  obtain rfl := Option.some.inj h
  subst hrest
  exact (soundAt _).value hvalue

end Sound

end Json

end IncastGovernor.Foundation
