import IncastGovernor.Foundation.Json

/-! The compact text of a JSON value, and the parser as its inverse. A text is followed by the end or
by a separator, which no number takes for its own. -/

namespace IncastGovernor.Foundation.Json

/-! ### Writing -/

def hexByte (digit : ℕ) : UInt8 := if digit < 10 then (48 + digit).toUInt8 else (87 + digit).toUInt8

def escapeByte (b : UInt8) : List UInt8 :=
  if b = byte '"' then [byte '\\', byte '"']
  else if b = byte '\\' then [byte '\\', byte '\\']
  else if b = 0x0A then [byte '\\', byte 'n']
  else if b = 0x0D then [byte '\\', byte 'r']
  else if b = 0x09 then [byte '\\', byte 't']
  else if b < 0x20 then bytes "\\u00" ++ [hexByte (b.toNat / 16), hexByte (b.toNat % 16)]
  else [b]

def writeString (value : List UInt8) : List UInt8 :=
  byte '"' :: (value.flatMap escapeByte ++ [byte '"'])

def writeNat (n : ℕ) : List UInt8 := (Nat.toDigits 10 n).map byte

def writeInt (n : ℤ) : List UInt8 := (if n < 0 then [byte '-'] else []) ++ writeNat n.natAbs

def writeNumber (mantissa exponent : ℤ) : List UInt8 :=
  writeInt mantissa ++ if exponent = 0 then [] else byte 'e' :: writeInt exponent

/-- Texts one behind the other with a comma between them. -/
def joined : List (List UInt8) → List UInt8
  | [] => []
  | [text] => text
  | text :: next :: texts => text ++ byte ',' :: joined (next :: texts)

mutual

def write : Json → List UInt8
  | .null => bytes "null"
  | .bool value => if value then bytes "true" else bytes "false"
  | .number mantissa exponent => writeNumber mantissa exponent
  | .string value => writeString value
  | .array items => byte '[' :: (joined (writeItems items) ++ [byte ']'])
  | .object members => byte '{' :: (joined (writeMembers members) ++ [byte '}'])

def writeItems : List Json → List (List UInt8)
  | [] => []
  | item :: items => write item :: writeItems items

def writeMembers : List (List UInt8 × Json) → List (List UInt8)
  | [] => []
  | (name, value) :: members => (writeString name ++ byte ':' :: write value) :: writeMembers members

end

theorem writeItems_eq_map (items : List Json) : writeItems items = items.map write := by
  induction items with
  | nil => rfl
  | cons item items ih => rw [writeItems, ih, List.map_cons]

theorem writeMembers_eq_map (members : List (List UInt8 × Json)) :
    writeMembers members = members.map fun m => writeString m.1 ++ byte ':' :: write m.2 := by
  induction members with
  | nil => rfl
  | cons member members ih => rw [writeMembers, ih, List.map_cons]

theorem write_object (members : List (List UInt8 × Json)) :
    write (.object members) = byte '{' :: (joined
      (members.map fun m => writeString m.1 ++ byte ':' :: write m.2) ++ [byte '}']) := by
  rw [write, writeMembers_eq_map]

theorem joined_cons (text : List UInt8) (texts : List (List UInt8)) :
    joined (text :: texts) = text ++ texts.flatMap fun next => byte ',' :: next := by
  induction texts generalizing text with
  | nil => exact (List.append_nil text).symm
  | cons next texts ih => rw [joined, ih, List.flatMap_cons, List.cons_append]

theorem joined_append_singleton (texts : List (List UInt8)) (text : List UInt8) :
    joined (texts ++ [text]) = if texts = [] then text else joined texts ++ byte ',' :: text := by
  cases texts with
  | nil => rfl
  | cons first texts =>
    rw [if_neg (List.cons_ne_nil first texts), List.cons_append, joined_cons, joined_cons,
      List.flatMap_append, List.append_assoc, List.flatMap_singleton]

/-! ### Strings -/

section Strings

variable {text : List UInt8}

theorem parseBody_plain {b : UInt8} (h : isPlain b) :
    parseBody (b :: text) = (parseBody text).map fun p => (b :: p.1, p.2) := by
  simp only [isPlain, decide_eq_true_eq] at h
  rw [parseBody.eq_def]
  simp only
  rw [if_neg h.2.1, if_neg h.2.2, if_pos (by simpa [isPlain] using h)]

theorem parseBody_escape {b c : UInt8} (hc : c ≠ byte 'u') (h : escaped c = some b) :
    parseBody (byte '\\' :: c :: text) = (parseBody text).map fun p => (b :: p.1, p.2) := by
  rw [parseBody.eq_def]
  simp only
  rw [if_neg (by decide), if_pos trivial, if_neg hc, h]
  rfl

theorem hexUnit_control : ∀ n < 32,
    hexUnit (byte '0') (byte '0') (hexByte (n / 16)) (hexByte (n % 16)) = some n := by
  decide

theorem parseBody_control {b : UInt8} (h : b < 0x20) :
    parseBody (bytes "\\u00" ++ [hexByte (b.toNat / 16), hexByte (b.toNat % 16)] ++ text) =
      (parseBody text).map fun p => (b :: p.1, p.2) := by
  have hlt : b.toNat < 32 := UInt8.lt_iff_toNat_lt.mp h
  have hunit : encodeUnit b.toNat = [b] := by
    rw [encodeUnit, if_pos (by omega)]
    simp
  show parseBody (byte '\\' :: byte 'u' :: byte '0' :: byte '0' :: hexByte (b.toNat / 16) ::
    hexByte (b.toNat % 16) :: text) = _
  rw [parseBody.eq_def]
  simp only
  rw [if_neg (by decide), if_pos trivial, if_pos trivial, hexUnit_control _ hlt, Option.bind_some, hunit]
  rfl

theorem parseBody_escapeByte (b : UInt8) :
    parseBody (escapeByte b ++ text) = (parseBody text).map fun p => (b :: p.1, p.2) := by
  unfold escapeByte
  split_ifs with hquote hslash hnewline hreturn htab hcontrol
  · exact parseBody_escape (by decide) (by rw [hquote]; rfl)
  · exact parseBody_escape (by decide) (by rw [hslash]; rfl)
  · exact parseBody_escape (by decide) (by rw [hnewline]; rfl)
  · exact parseBody_escape (by decide) (by rw [hreturn]; rfl)
  · exact parseBody_escape (by decide) (by rw [htab]; rfl)
  · exact parseBody_control hcontrol
  · refine parseBody_plain ?_
    simp only [isPlain, decide_eq_true_eq]
    exact ⟨UInt8.not_lt.mp hcontrol, hquote, hslash⟩

theorem parseBody_flatMap (value rest : List UInt8) :
    parseBody (value.flatMap escapeByte ++ byte '"' :: rest) = some (value, rest) := by
  induction value with
  | nil =>
    rw [List.flatMap_nil, List.nil_append, parseBody.eq_def]
    exact if_pos rfl
  | cons b value ih =>
    rw [List.flatMap_cons, List.append_assoc, parseBody_escapeByte, ih]
    rfl

end Strings

/-! ### Numbers -/

section Numbers

variable {rest : List UInt8}

theorem byte_toNat {c : Char} (h : c.isDigit) :
    (byte c).toNat = c.toNat ∧ 48 ≤ c.toNat ∧ c.toNat ≤ 57 := by
  simp only [Char.isDigit, Bool.and_eq_true, decide_eq_true_eq, ge_iff_le,
    UInt32.le_iff_toNat_le] at h
  have hlow : 48 ≤ c.toNat := h.1
  have hhigh : c.toNat ≤ 57 := h.2
  refine ⟨?_, hlow, hhigh⟩
  rw [byte, UInt8.toNat_ofNat']
  omega

theorem isDigit_byte {c : Char} (h : c.isDigit) : isDigit (byte c) := by
  obtain ⟨hbyte, hlow, hhigh⟩ := byte_toNat h
  simp only [isDigit, decide_eq_true_eq, UInt8.le_iff_toNat_le, hbyte]
  exact ⟨hlow, hhigh⟩

theorem isDigit_writeNat {n : ℕ} {d : UInt8} (h : d ∈ writeNat n) : isDigit d := by
  obtain ⟨c, hc, rfl⟩ := List.mem_map.mp h
  exact isDigit_byte (Nat.isDigit_of_mem_toDigits (by decide) (by decide) hc)

/-- The bytes of decimal digits have the value of the digits. -/
theorem decimal_map {digits : List Char} (h : ∀ c ∈ digits, c.isDigit) (init : ℕ) :
    (digits.map byte).foldl (fun n d => 10 * n + (d.toNat - 48)) init =
      Nat.ofDigitChars 10 digits init := by
  induction digits generalizing init with
  | nil => rfl
  | cons c digits ih =>
    have hc := byte_toNat (h c List.mem_cons_self)
    rw [List.map_cons, List.foldl_cons, ih fun d hd => h d (List.mem_cons_of_mem c hd), hc.1,
      Nat.ofDigitChars_cons]
    rfl

theorem decimal_writeNat (n : ℕ) : decimal (writeNat n) = n := by
  have hdigits : ∀ c ∈ Nat.toDigits 10 n, c.isDigit :=
    fun c hc => Nat.isDigit_of_mem_toDigits (by decide) (by decide) hc
  exact (decimal_map hdigits 0).trans Nat.ofDigitChars_ten_toDigits

/-- A positive number begins with no zero: by dropping its last digit. -/
theorem head_toDigits {n : ℕ} (h : 0 < n) : (Nat.toDigits 10 n).head? ≠ some '0' := by
  induction n using Nat.strong_induction_on with
  | _ n ih =>
    by_cases hlt : n < 10
    · have hdigit : ∀ n < 10, 0 < n → [Nat.digitChar n].head? ≠ some '0' := by decide
      rw [Nat.toDigits_of_lt_base hlt]
      exact hdigit n hlt h
    · rw [Nat.toDigits_of_base_le (by decide) (by omega), List.head?_append_of_ne_nil _ Nat.toDigits_ne_nil]
      exact ih (n / 10) (by omega) (by omega)

theorem isWhole_writeNat (n : ℕ) : IsWhole (writeNat n) := by
  refine ⟨⟨?_, fun d hd => isDigit_writeNat hd⟩, fun hhead => ?_⟩
  · exact fun hnil => Nat.toDigits_ne_nil (List.map_eq_nil_iff.mp hnil)
  · rcases Nat.eq_zero_or_pos n with hzero | hpos
    · rw [hzero]
      rfl
    · rw [writeNat, List.head?_map, Option.map_eq_some_iff] at hhead
      obtain ⟨c, hc, hbyte⟩ := hhead
      have hdigit := byte_toNat
        (Nat.isDigit_of_mem_toDigits (by decide) (by decide) (List.mem_of_mem_head? hc))
      have hzero : c = '0' := by
        rw [← Char.toNat_inj, ← hdigit.1, hbyte]
        rfl
      exact absurd (hzero ▸ hc) (head_toDigits hpos)

/-- The text goes on with nothing that a number could take for its own. -/
def Ends (rest : List UInt8) : Prop :=
  ∀ b ∈ rest.head?, b = byte ',' ∨ b = byte ']' ∨ b = byte '}'

theorem Ends.expect_eq_none (h : Ends rest) {b : UInt8}
    (hb : b ≠ byte ',' ∧ b ≠ byte ']' ∧ b ≠ byte '}') : expect b rest = none := by
  cases rest with
  | nil => rfl
  | cons c rest =>
    have hc := h c rfl
    refine if_neg fun he => ?_
    rw [he] at hc
    tauto

theorem Ends.not_digit (h : Ends rest) : ∀ b ∈ rest.head?, ¬isDigit b := by
  intro b hb
  rcases h b hb with rfl | rfl | rfl <;> decide

theorem parseDigits_writeNat (n : ℕ) (h : ∀ b ∈ rest.head?, ¬isDigit b) :
    parseDigits (writeNat n ++ rest) = some (writeNat n, rest) := by
  have hdigits : ∀ d ∈ writeNat n, isDigit d := fun d hd => isDigit_writeNat hd
  have hnone : rest.takeWhile isDigit = [] ∧ rest.dropWhile isDigit = rest := by
    cases rest with
    | nil => exact ⟨rfl, rfl⟩
    | cons b rest =>
      exact ⟨List.takeWhile_cons_of_neg (h b rfl), List.dropWhile_cons_of_neg (h b rfl)⟩
  unfold parseDigits
  rw [List.takeWhile_append_of_pos hdigits, List.dropWhile_append_of_pos hdigits, hnone.1, hnone.2,
    List.append_nil, if_neg (isWhole_writeNat n).1.1]

/-- A number begins with a digit. -/
theorem expect_writeNat (n : ℕ) {b : UInt8} (h : ¬isDigit b) : expect b (writeNat n ++ rest) = none := by
  cases hn : writeNat n with
  | nil => exact absurd hn (isWhole_writeNat n).1.1
  | cons d digits =>
    have hd : isDigit d := isDigit_writeNat (n := n) (hn ▸ List.mem_cons_self)
    exact if_neg fun he : d = b => h (he ▸ hd)

def unitOf (n : ℤ) : ℤ := if n < 0 then -1 else 1

theorem unitOf_mul (n : ℤ) : unitOf n * n.natAbs = n := by
  unfold unitOf
  split_ifs <;> omega

theorem parseSign_writeInt (n : ℤ) :
    parseSign (writeInt n ++ rest) = (unitOf n, writeNat n.natAbs ++ rest) := by
  unfold writeInt unitOf parseSign
  split_ifs
  · rfl
  · rw [List.nil_append, expect_writeNat _ (by decide)]

theorem parseShift_writeInt (n : ℤ) (h : Ends rest) :
    parseShift (writeInt n ++ rest) = some (n, rest) := by
  have hplus : expect (byte '+') (writeInt n ++ rest) = none := by
    unfold writeInt
    split_ifs
    · rfl
    · exact expect_writeNat _ (by decide)
  have hsign : parseShiftSign (writeInt n ++ rest) = (unitOf n, writeNat n.natAbs ++ rest) := by
    rw [parseShiftSign, hplus]
    exact parseSign_writeInt n
  rw [parseShift, hsign, parseDigits_writeNat _ h.not_digit, Option.map_some, decimal_writeNat,
    unitOf_mul]

theorem parseNumber_writeNumber (mantissa exponent : ℤ) (h : Ends rest) :
    parseNumber (writeNumber mantissa exponent ++ rest) =
      some (.number mantissa exponent, rest) := by
  have hexponent : ∃ after, (if exponent = 0 then [] else byte 'e' :: writeInt exponent) ++ rest =
      after ∧ expect (byte '.') after = none ∧ parseExponent after = some (exponent, rest) ∧
        ∀ b ∈ after.head?, ¬isDigit b := by
    refine ⟨_, rfl, ?_⟩
    split_ifs with hzero
    · refine ⟨h.expect_eq_none (by decide), ?_, h.not_digit⟩
      rw [List.nil_append, parseExponent, h.expect_eq_none (by decide),
        h.expect_eq_none (by decide), hzero]
    · refine ⟨rfl, parseShift_writeInt exponent h, fun b hb => ?_⟩
      obtain rfl := Option.some.inj hb
      decide
  obtain ⟨after, htext, hpoint, hparse, hdigit⟩ := hexponent
  have hwhole : parseWhole (writeNat mantissa.natAbs ++ after) =
      some (writeNat mantissa.natAbs, after) := by
    rw [parseWhole, parseDigits_writeNat _ hdigit, Option.filter_some, if_pos]
    rw [decide_eq_true_iff, or_iff_not_imp_left, not_not]
    exact (isWhole_writeNat _).2
  have hfraction : parseFraction after = some ([], after) := by
    rw [parseFraction, hpoint]
  rw [writeNumber, List.append_assoc, htext, parseNumber, parseSign_writeInt, hwhole]
  simp only [Option.bind_eq_bind, Option.bind_some, hfraction, hparse, List.append_nil,
    decimal_writeNat, unitOf_mul, List.length_nil, Nat.cast_zero, sub_zero]
  rfl

end Numbers

/-! ### Values -/

section Values

variable {rest : List UInt8}

theorem skipSpaces_cons {b : UInt8} {text : List UInt8} (h : ¬isSpace b) :
    skipSpaces (b :: text) = b :: text := List.dropWhile_cons_of_neg h

theorem Ends.skipSpaces (h : Ends rest) : skipSpaces rest = rest := by
  cases rest with
  | nil => rfl
  | cons b rest =>
    refine skipSpaces_cons ?_
    rcases h b rfl with rfl | rfl | rfl <;> decide

/-- A number begins with its sign or with its digits. -/
theorem writeNumber_eq (mantissa exponent : ℤ) :
    (∃ text, writeNumber mantissa exponent = byte '-' :: text) ∨
      ∃ text, writeNumber mantissa exponent = writeNat mantissa.natAbs ++ text := by
  unfold writeNumber
  by_cases h : mantissa < 0
  · rw [writeInt, if_pos h]
    exact .inl ⟨_, rfl⟩
  · rw [writeInt, if_neg h]
    exact .inr ⟨_, rfl⟩

theorem expect_writeNumber (mantissa exponent : ℤ) {b : UInt8} (hb : b ≠ byte '-')
    (h : ¬isDigit b) : expect b (writeNumber mantissa exponent ++ rest) = none := by
  rcases writeNumber_eq mantissa exponent with ⟨text, heq⟩ | ⟨text, heq⟩
  · rw [heq]
    exact if_neg fun he => hb he.symm
  · rw [heq, List.append_assoc]
    exact expect_writeNat _ h

/-- A written value begins with no space and with no bracket that closes. -/
structure Opens (text : List UInt8) : Prop where
  length : 0 < text.length
  skip : ∀ rest, Json.skipSpaces (text ++ rest) = text ++ rest
  array : ∀ rest, expect (byte ']') (text ++ rest) = none

theorem opens_cons {b : UInt8} (text : List UInt8) (hspace : ¬isSpace b) (hb : b ≠ byte ']') :
    Opens (b :: text) :=
  ⟨Nat.succ_pos _, fun _ => skipSpaces_cons hspace, fun _ => if_neg hb⟩

theorem opens_writeNat (n : ℕ) (text : List UInt8) : Opens (writeNat n ++ text) := by
  cases hn : writeNat n with
  | nil => exact absurd hn (isWhole_writeNat n).1.1
  | cons d digits =>
    have hd : isDigit d := isDigit_writeNat (n := n) (hn ▸ List.mem_cons_self)
    refine opens_cons _ (fun hspace => ?_) fun hb => ?_
    · simp only [isSpace, decide_eq_true_eq] at hspace
      rcases hspace with rfl | rfl | rfl | rfl <;> exact absurd hd (by decide)
    · rw [hb] at hd
      exact absurd hd (by decide)

theorem opens_write (value : Json) : Opens (write value) := by
  cases value with
  | null => exact opens_cons _ (by decide) (by decide)
  | bool value => cases value <;> exact opens_cons _ (by decide) (by decide)
  | number mantissa exponent =>
    unfold write
    rcases writeNumber_eq mantissa exponent with ⟨text, heq⟩ | ⟨text, heq⟩
    · exact heq ▸ opens_cons _ (by decide) (by decide)
    · exact heq ▸ opens_writeNat _ _
  | string value => exact opens_cons _ (by decide) (by decide)
  | array items => exact opens_cons _ (by decide) (by decide)
  | object members => exact opens_cons _ (by decide) (by decide)

theorem parseScalar_string (value : List UInt8) :
    parseScalar (writeString value ++ rest) = some (.string value, rest) := by
  have hbody : parseBody (value.flatMap escapeByte ++ [byte '"'] ++ rest) = some (value, rest) := by
    rw [List.append_assoc]
    exact parseBody_flatMap value rest
  show (parseBody (value.flatMap escapeByte ++ [byte '"'] ++ rest)).map _ = _
  rw [hbody]
  rfl

theorem expectAll_eq_none {b : UInt8} {word text : List UInt8} (h : expect b text = none) :
    expectAll (b :: word) text = none := by
  rw [expectAll, h]
  rfl

theorem parseScalar_number (mantissa exponent : ℤ) (h : Ends rest) :
    parseScalar (writeNumber mantissa exponent ++ rest) = some (.number mantissa exponent, rest) := by
  have hnone : ∀ b, b ≠ byte '-' → ¬isDigit b →
      expect b (writeNumber mantissa exponent ++ rest) = none :=
    fun b hb hd => expect_writeNumber mantissa exponent hb hd
  have hnull : expectAll (bytes "null") (writeNumber mantissa exponent ++ rest) = none :=
    expectAll_eq_none (hnone (byte 'n') (by decide) (by decide))
  have htrue : expectAll (bytes "true") (writeNumber mantissa exponent ++ rest) = none :=
    expectAll_eq_none (hnone (byte 't') (by decide) (by decide))
  have hfalse : expectAll (bytes "false") (writeNumber mantissa exponent ++ rest) = none :=
    expectAll_eq_none (hnone (byte 'f') (by decide) (by decide))
  rw [parseScalar, hnone _ (by decide) (by decide), hnull, htrue, hfalse]
  exact parseNumber_writeNumber mantissa exponent h

theorem parseName_write (name : List UInt8) :
    parseName (writeString name ++ byte ':' :: rest) = some (name, rest) := by
  have hbody : parseBody (name.flatMap escapeByte ++ [byte '"'] ++ byte ':' :: rest) =
      some (name, byte ':' :: rest) := by
    rw [List.append_assoc]
    exact parseBody_flatMap name _
  show (parseBody (name.flatMap escapeByte ++ [byte '"'] ++ byte ':' :: rest)).bind _ = _
  rw [hbody]
  rfl

end Values

/-! ### The round trip -/

/-- A parser with some fuel takes back every written text it has the fuel for. -/
structure TakesBack (fuel : ℕ) : Prop where
  value : ∀ {value rest}, Ends rest → 2 * (write value).length + 1 ≤ fuel →
    parseValue fuel (write value ++ rest) = some (value, rest)
  element : ∀ {value rest}, Ends rest → 2 * (write value).length ≤ fuel →
    parseElement fuel (write value ++ rest) = some (value, rest)
  items : ∀ {item items rest}, 2 * (joined (writeItems (item :: items))).length + 2 ≤ fuel →
    parseItems fuel (joined (writeItems (item :: items)) ++ byte ']' :: rest) =
      some (item :: items, rest)
  members : ∀ {member members rest},
    2 * (joined (writeMembers (member :: members))).length + 2 ≤ fuel →
      parseMembers fuel (joined (writeMembers (member :: members)) ++ byte '}' :: rest) =
        some (member :: members, rest)

section Step

variable {fuel : ℕ} {rest : List UInt8}

theorem ends_cons {b : UInt8} (h : b = byte ',' ∨ b = byte ']' ∨ b = byte '}') : Ends (b :: rest) :=
  fun _ hc => Option.some.inj hc ▸ h

theorem parseValue_write (ih : TakesBack fuel) {value : Json} (h : Ends rest)
    (hf : 2 * (write value).length ≤ fuel) :
    parseValue (fuel + 1) (write value ++ rest) = some (value, rest) := by
  rw [parseValue, (opens_write value).skip, ih.element h hf, Option.map_some, h.skipSpaces]

theorem parseElement_array (ih : TakesBack fuel) (items : List Json)
    (hf : 2 * (joined (writeItems items)).length + 2 ≤ fuel) :
    parseElement (fuel + 1) (write (.array items) ++ rest) = some (.array items, rest) := by
  have htext : write (.array items) ++ rest =
      byte '[' :: (joined (writeItems items) ++ byte ']' :: rest) := by
    rw [write, List.cons_append, List.append_assoc]
    rfl
  rw [htext, parseElement]
  simp only [expect_eq_some.mpr rfl]
  cases items with
  | nil => rfl
  | cons item items =>
    have hopens : ∃ text, joined (writeItems (item :: items)) = write item ++ text := by
      rw [writeItems]
      cases writeItems items with
      | nil => exact ⟨[], (List.append_nil _).symm⟩
      | cons next texts => exact ⟨_, rfl⟩
    obtain ⟨text, hjoined⟩ := hopens
    have hclose : expect (byte ']') (skipSpaces
        (joined (writeItems (item :: items)) ++ byte ']' :: rest)) = none := by
      rw [hjoined, List.append_assoc, (opens_write item).skip, (opens_write item).array]
    rw [hclose, ih.items hf]
    rfl

theorem parseElement_object (ih : TakesBack fuel) (members : List (List UInt8 × Json))
    (hf : 2 * (joined (writeMembers members)).length + 2 ≤ fuel) :
    parseElement (fuel + 1) (write (.object members) ++ rest) = some (.object members, rest) := by
  have htext : write (.object members) ++ rest =
      byte '{' :: (joined (writeMembers members) ++ byte '}' :: rest) := by
    rw [write, List.cons_append, List.append_assoc]
    rfl
  have hbracket : expect (byte '[') (write (.object members) ++ rest) = none := by
    rw [htext]
    rfl
  rw [parseElement, hbracket, htext]
  simp only [expect_eq_some.mpr rfl]
  cases members with
  | nil => rfl
  | cons member members =>
    have hopens : ∃ text, joined (writeMembers (member :: members)) = byte '"' :: text := by
      rw [writeMembers]
      cases writeMembers members with
      | nil => exact ⟨_, rfl⟩
      | cons next texts => exact ⟨_, rfl⟩
    obtain ⟨text, hjoined⟩ := hopens
    have hclose : expect (byte '}') (skipSpaces
        (joined (writeMembers (member :: members)) ++ byte '}' :: rest)) = none := by
      rw [hjoined]
      rfl
    rw [hclose, ih.members hf]
    rfl

theorem parseElement_write (ih : TakesBack fuel) {value : Json} (h : Ends rest)
    (hf : 2 * (write value).length ≤ fuel + 1) :
    parseElement (fuel + 1) (write value ++ rest) = some (value, rest) := by
  cases value with
  | null => rfl
  | bool value => cases value <;> rfl
  | number mantissa exponent =>
    have hnone : ∀ b, b ≠ byte '-' → ¬isDigit b → expect b (write (.number mantissa exponent) ++ rest) = none :=
      fun b hb hd => expect_writeNumber mantissa exponent hb hd
    rw [parseElement, hnone _ (by decide) (by decide), hnone _ (by decide) (by decide)]
    exact parseScalar_number mantissa exponent h
  | string value => exact parseScalar_string value
  | array items =>
    refine parseElement_array ih items ?_
    rw [write, List.length_cons, List.length_append, List.length_singleton] at hf
    omega
  | object members =>
    refine parseElement_object ih members ?_
    rw [write, List.length_cons, List.length_append, List.length_singleton] at hf
    omega

theorem parseItems_write (ih : TakesBack fuel) {item : Json} {items : List Json}
    (hf : 2 * (joined (writeItems (item :: items))).length + 2 ≤ fuel + 1) :
    parseItems (fuel + 1) (joined (writeItems (item :: items)) ++ byte ']' :: rest) =
      some (item :: items, rest) := by
  cases items with
  | nil =>
    have hlength : 2 * (write item).length + 2 ≤ fuel + 1 := hf
    show parseItems (fuel + 1) (write item ++ byte ']' :: rest) = _
    rw [parseItems, ih.value (ends_cons (.inr (.inl rfl))) (by omega)]
    rfl
  | cons next items =>
    have htext : joined (writeItems (item :: next :: items)) =
        write item ++ byte ',' :: joined (writeItems (next :: items)) := rfl
    rw [htext, List.length_append, List.length_cons] at hf
    rw [htext, List.append_assoc, List.cons_append, parseItems,
      ih.value (ends_cons (.inl rfl)) (by omega)]
    show (parseItems fuel (joined (writeItems (next :: items)) ++ byte ']' :: rest)).bind _ = _
    rw [ih.items (by omega)]
    rfl

theorem parseMembers_write (ih : TakesBack fuel) {member : List UInt8 × Json}
    {members : List (List UInt8 × Json)}
    (hf : 2 * (joined (writeMembers (member :: members))).length + 2 ≤ fuel + 1) :
    parseMembers (fuel + 1) (joined (writeMembers (member :: members)) ++ byte '}' :: rest) =
      some (member :: members, rest) := by
  obtain ⟨name, value⟩ := member
  cases members with
  | nil =>
    have htext : joined (writeMembers [(name, value)]) =
        writeString name ++ byte ':' :: write value := rfl
    rw [htext, List.length_append, List.length_cons] at hf
    rw [htext, List.append_assoc, List.cons_append, parseMembers, parseName_write]
    show (parseValue fuel (write value ++ byte '}' :: rest)).bind _ = _
    rw [ih.value (ends_cons (.inr (.inr rfl))) (by omega)]
    rfl
  | cons next members =>
    have htext : joined (writeMembers ((name, value) :: next :: members)) =
        writeString name ++ byte ':' :: write value ++
          byte ',' :: joined (writeMembers (next :: members)) := rfl
    rw [htext, List.length_append, List.length_append, List.length_cons, List.length_cons] at hf
    rw [htext, List.append_assoc, List.append_assoc, List.cons_append, List.cons_append,
      parseMembers, parseName_write]
    show (parseValue fuel (write value ++ byte ',' :: _)).bind _ = _
    rw [ih.value (ends_cons (.inl rfl)) (by omega)]
    show (parseMembers fuel (joined (writeMembers (next :: members)) ++ byte '}' :: rest)).bind _ = _
    rw [ih.members (by omega)]
    rfl

end Step

/-- By induction on the fuel; one unit is spent on every value, element, item and member, and each
of them has a byte of its own. -/
theorem takesBack (fuel : ℕ) : TakesBack fuel := by
  induction fuel with
  | zero =>
    refine ⟨fun _ hf => absurd hf (by omega), fun {value} _ _ hf => ?_, fun hf => absurd hf (by omega),
      fun hf => absurd hf (by omega)⟩
    have hpos := (opens_write value).length
    omega
  | succ fuel ih =>
    exact ⟨fun h hf => parseValue_write ih h (by omega), fun h hf => parseElement_write ih h hf,
      fun hf => parseItems_write ih hf, fun hf => parseMembers_write ih hf⟩

/-- The parser takes a written value back. -/
theorem parse_write (value : Json) : parse (write value) = some value := by
  have hends : Ends [] := fun _ hb => absurd hb (by simp)
  have hvalue := @TakesBack.value _ (takesBack (2 * (write value).length + 2)) value [] hends (by omega)
  rw [List.append_nil] at hvalue
  rw [parse, hvalue]
  rfl

end IncastGovernor.Foundation.Json
