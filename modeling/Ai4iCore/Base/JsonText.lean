import Ai4iCore.Base.DecimalText

/-!
# JSON texts

A JSON value of natural numbers, texts, arrays and objects, written as `json.dumps` writes it: in
ASCII, with `, ` and `: ` between the parts and a character outside of ASCII escaped by its UTF-16
code units. `loads` reads it back and allows white space between the parts.

* `loads_dumps` — what is written is read back.
* `dumps_injective` — so equality of values is equality of their texts.
-/

/-- A JSON value, without floats, signs and constants. -/
inductive Json
  | num (n : Nat)
  | str (s : List Char)
  | arr (items : List Json)
  | obj (fields : List (List Char × Json))
deriving Repr

namespace Json

/-! ## Texts -/

/-- The digit of a number below 16. -/
def hexDigit (d : Nat) : Char := Char.ofNat (if d < 10 then 48 + d else 87 + d)

/-- The number of a digit, in either case. -/
def hexValue (c : Char) : Option Nat :=
  if '0' ≤ c ∧ c ≤ '9' then some (c.toNat - 48)
  else if 'a' ≤ c ∧ c ≤ 'f' then some (c.toNat - 87)
  else if 'A' ≤ c ∧ c ≤ 'F' then some (c.toNat - 55)
  else none

/-- The four digits of a UTF-16 code unit. -/
def unitDigits (unit : Nat) : List Char :=
  [hexDigit (unit / 4096), hexDigit (unit / 256 % 16), hexDigit (unit / 16 % 16),
    hexDigit (unit % 16)]

/-- One code unit, escaped. -/
def unitText (unit : Nat) : List Char := '\\' :: 'u' :: unitDigits unit

/-- The escapes of one letter. -/
def shortEscapes : List (Char × Char) :=
  [('"', '"'), ('\\', '\\'), ('n', '\n'), ('r', '\r'), ('t', '\t'), ('b', '\x08'), ('f', '\x0c')]

/-- A character inside quotes. -/
def escape (c : Char) : List Char :=
  match shortEscapes.find? fun e => e.2 = c with
  | some e => ['\\', e.1]
  | none =>
    if ' ' ≤ c ∧ c ≤ '~' then [c]
    else if c.toNat < 0x10000 then unitText c.toNat
    else unitText (0xD800 + (c.toNat - 0x10000) / 1024) ++
      unitText (0xDC00 + (c.toNat - 0x10000) % 1024)

/-- A text in quotes. -/
def quote (s : List Char) : List Char := '"' :: s.flatMap escape ++ ['"']

/-- The code unit of four digits. -/
def scanUnit : List Char → Option (Nat × List Char)
  | a :: b :: c :: d :: rest => do
    let a ← hexValue a
    let b ← hexValue b
    let c ← hexValue c
    let d ← hexValue d
    return (4096 * a + 256 * b + 16 * c + d, rest)
  | _ => none

/-- The character of a surrogate pair. -/
def ofPair (high low : Nat) (rest : List Char) : Option (Char × List Char) :=
  if 0xDC00 ≤ low ∧ low ≤ 0xDFFF then
    some (Char.ofNat (0x10000 + 1024 * (high - 0xD800) + (low - 0xDC00)), rest)
  else none

/-- The second half of a surrogate pair. -/
def scanLow (high : Nat) : List Char → Option (Char × List Char)
  | '\\' :: 'u' :: rest => (scanUnit rest).bind fun p => ofPair high p.1 p.2
  | _ => none

/-- The character of a code unit; a lone surrogate is none. -/
def ofUnit (unit : Nat) (rest : List Char) : Option (Char × List Char) :=
  if unit < 0xD800 ∨ 0xDFFF < unit then some (Char.ofNat unit, rest)
  else if unit ≤ 0xDBFF then scanLow unit rest
  else none

/-- What follows a backslash. -/
def scanEscape : List Char → Option (Char × List Char)
  | 'u' :: rest => (scanUnit rest).bind fun p => ofUnit p.1 p.2
  | '/' :: rest => some ('/', rest)
  | c :: rest => (shortEscapes.lookup c).map fun e => (e, rest)
  | [] => none

/-- What follows the opening quote, with its end. -/
def scanString : Nat → List Char → Option (List Char × List Char)
  | 0, _ => none
  | _ + 1, [] => none
  | fuel + 1, c :: rest =>
    if c = '"' then some ([], rest)
    else if c = '\\' then
      (scanEscape rest).bind fun e => (scanString fuel e.2).map fun p => (e.1 :: p.1, p.2)
    else if c < ' ' then none
    else (scanString fuel rest).map fun p => (c :: p.1, p.2)

section Strings

theorem hexValue_hexDigit : ∀ d < 16, hexValue (hexDigit d) = some d := by decide

theorem scanUnit_unitDigits {unit : Nat} (h : unit < 0x10000) (rest : List Char) :
    scanUnit (unitDigits unit ++ rest) = some (unit, rest) := by
  rw [unitDigits, List.cons_append, List.cons_append, List.cons_append, List.cons_append,
    List.nil_append, scanUnit, hexValue_hexDigit _ (by omega), hexValue_hexDigit _ (by omega),
    hexValue_hexDigit _ (by omega), hexValue_hexDigit _ (by omega)]
  show some (4096 * (unit / 4096) + 256 * (unit / 256 % 16) + 16 * (unit / 16 % 16) + unit % 16,
    rest) = _
  congr 2
  omega

theorem scanEscape_short : ∀ e ∈ shortEscapes, ∀ rest, scanEscape (e.1 :: rest) = some (e.2, rest) := by
  intro e he rest
  simp only [shortEscapes, List.mem_cons, List.not_mem_nil, or_false] at he
  rcases he with rfl | rfl | rfl | rfl | rfl | rfl | rfl <;> rfl

/-- A character of the basic plane by its code unit. -/
theorem scanEscape_unit {c : Char} (h : c.toNat < 0x10000) (rest : List Char) :
    scanEscape ('u' :: unitDigits c.toNat ++ rest) = some (c, rest) := by
  have hvalid : c.toNat < 0xD800 ∨ 0xDFFF < c.toNat := by
    rcases c.valid with h | h
    · exact .inl h
    · exact .inr h.1
  rw [List.cons_append, scanEscape, scanUnit_unitDigits h, Option.bind_some, ofUnit, if_pos hvalid,
    Char.ofNat_toNat]

/-- A character beyond it by its surrogate pair. -/
theorem scanEscape_pair {c : Char} (h : 0x10000 ≤ c.toNat) (rest : List Char) :
    scanEscape ('u' :: unitDigits (0xD800 + (c.toNat - 0x10000) / 1024) ++
      (unitText (0xDC00 + (c.toNat - 0x10000) % 1024) ++ rest)) = some (c, rest) := by
  have hmax : c.toNat < 0x110000 := by
    rcases c.valid with h | h
    · exact Nat.lt_trans h (by decide)
    · exact h.2
  generalize hn : c.toNat - 0x10000 = n
  have hback : 0x10000 + 1024 * (0xD800 + n / 1024 - 0xD800) + (0xDC00 + n % 1024 - 0xDC00) =
      c.toNat := by omega
  rw [List.cons_append, scanEscape, scanUnit_unitDigits (by omega), Option.bind_some, ofUnit,
    if_neg (by omega), if_pos (by omega), unitText, List.cons_append, List.cons_append, scanLow,
    scanUnit_unitDigits (by omega), Option.bind_some, ofPair, if_pos (by omega), hback,
    Char.ofNat_toNat]

/-- A character is read back. -/
theorem scanString_escape (c : Char) (fuel : Nat) (rest : List Char) :
    scanString (fuel + 1) (escape c ++ rest) =
      (scanString fuel rest).map fun p => (c :: p.1, p.2) := by
  have hescape : ∀ text, scanEscape (text ++ rest) = some (c, rest) →
      scanString (fuel + 1) ('\\' :: text ++ rest) =
        (scanString fuel rest).map fun p => (c :: p.1, p.2) := by
    intro text htext
    rw [List.cons_append, scanString, if_neg (by decide), if_pos rfl, htext, Option.bind_some]
  unfold escape
  split
  · rename_i e he
    obtain rfl : e.2 = c := by simpa using List.find?_some he
    exact hescape [e.1] (scanEscape_short e (List.mem_of_find?_eq_some he) rest)
  · rename_i hshort
    have hne : ∀ e ∈ shortEscapes, e.2 ≠ c := by simpa using hshort
    split
    · rename_i hplain
      rw [List.singleton_append, scanString, if_neg (hne ('"', '"') (by decide)).symm,
        if_neg (hne ('\\', '\\') (by decide)).symm, if_neg (Char.not_lt.mpr hplain.1)]
    · split
      · rename_i hunit
        exact hescape _ (scanEscape_unit hunit rest)
      · rename_i hpair
        have hrest := scanEscape_pair (Nat.le_of_not_lt hpair) rest
        rw [← List.append_assoc] at hrest
        exact hescape _ hrest

theorem length_escape_pos (c : Char) : 0 < (escape c).length := by
  unfold escape
  split
  · exact Nat.succ_pos _
  · split
    · exact Nat.succ_pos _
    · split
      · exact Nat.succ_pos _
      · exact Nat.succ_pos _

/-- A text is read back. -/
theorem scanString_quote (s : List Char) {fuel : Nat} (rest : List Char)
    (hfuel : (s.flatMap escape).length < fuel) :
    scanString fuel (s.flatMap escape ++ '"' :: rest) = some (s, rest) := by
  induction s generalizing fuel with
  | nil =>
    obtain ⟨fuel, rfl⟩ := Nat.exists_eq_succ_of_ne_zero (Nat.ne_of_gt hfuel)
    rfl
  | cons c s ih =>
    have hpos := length_escape_pos c
    rw [List.flatMap_cons, List.length_append] at hfuel
    obtain ⟨fuel, rfl⟩ := Nat.exists_eq_succ_of_ne_zero (Nat.ne_zero_of_lt hfuel)
    rw [List.flatMap_cons, List.append_assoc, scanString_escape, ih (by omega)]
    rfl

end Strings

/-! ## Values -/

mutual

/-- `json.dumps(value)`. -/
def dumps : Json → List Char
  | .num n => Nat.toDigits 10 n
  | .str s => quote s
  | .arr [] => ['[', ']']
  | .arr (item :: items) => '[' :: (dumps item ++ dumpsItems items)
  | .obj [] => ['\x7b', '\x7d']
  | .obj (field :: fields) => '\x7b' :: (dumpsField field ++ dumpsFields fields)

/-- What follows an item of an array. -/
def dumpsItems : List Json → List Char
  | [] => [']']
  | item :: items => ',' :: ' ' :: (dumps item ++ dumpsItems items)

/-- A key and its value. -/
def dumpsField : List Char × Json → List Char
  | (key, value) => quote key ++ ':' :: ' ' :: dumps value

/-- What follows a value of an object. -/
def dumpsFields : List (List Char × Json) → List Char
  | [] => ['\x7d']
  | field :: fields => ',' :: ' ' :: (dumpsField field ++ dumpsFields fields)

end

/-- White space between the parts. -/
def isSpace (c : Char) : Bool := c = ' ' || c = '\n' || c = '\r' || c = '\t'

def skip (text : List Char) : List Char := text.dropWhile isSpace

/-- A key up to its value. -/
def scanKey (fuel : Nat) (text : List Char) : Option (List Char × List Char) :=
  match skip text with
  | '"' :: rest => (scanString fuel rest).bind fun p =>
    match skip p.2 with
    | ':' :: rest => some (p.1, skip rest)
    | _ => none
  | _ => none

mutual

/-- The value that a text begins with, and what follows it. -/
def scan : Nat → List Char → Option (Json × List Char)
  | 0, _ => none
  | _ + 1, [] => none
  | fuel + 1, c :: rest =>
    if c = '"' then (scanString fuel rest).map fun p => (.str p.1, p.2)
    else if c = '[' then
      match skip rest with
      | ']' :: rest => some (.arr [], rest)
      | rest => (scan fuel rest).bind fun p =>
        (scanItems fuel (skip p.2)).map fun q => (.arr (p.1 :: q.1), q.2)
    else if c = '\x7b' then
      match skip rest with
      | '\x7d' :: rest => some (.obj [], rest)
      | rest => (scanField fuel rest).bind fun p =>
        (scanFields fuel (skip p.2)).map fun q => (.obj (p.1 :: q.1), q.2)
    else if c.isDigit then
      some (.num (Nat.ofDigitChars 10 ((c :: rest).takeWhile Char.isDigit) 0),
        (c :: rest).dropWhile Char.isDigit)
    else none

/-- The items that follow one, up to the closing bracket. -/
def scanItems : Nat → List Char → Option (List Json × List Char)
  | fuel + 1, c :: rest =>
    if c = ']' then some ([], rest)
    else if c = ',' then (scan fuel (skip rest)).bind fun p =>
      (scanItems fuel (skip p.2)).map fun q => (p.1 :: q.1, q.2)
    else none
  | _, _ => none

/-- A key with its value. -/
def scanField : Nat → List Char → Option ((List Char × Json) × List Char)
  | fuel + 1, text => (scanKey fuel text).bind fun k =>
    (scan fuel k.2).map fun p => ((k.1, p.1), p.2)
  | 0, _ => none

/-- The fields that follow one, up to the closing brace. -/
def scanFields : Nat → List Char → Option (List (List Char × Json) × List Char)
  | fuel + 1, c :: rest =>
    if c = '\x7d' then some ([], rest)
    else if c = ',' then (scanField fuel (skip rest)).bind fun p =>
      (scanFields fuel (skip p.2)).map fun q => (p.1 :: q.1, q.2)
    else none
  | _, _ => none

end

/-- `json.loads(text)`; `none` when it raises. -/
def loads (text : List Char) : Option Json :=
  match scan (text.length + 1) (skip text) with
  | some (value, rest) => if skip rest = [] then some value else none
  | none => none

/-! ## The round trip -/

section RoundTrip

theorem skip_cons {c : Char} (h : isSpace c = false) (rest : List Char) :
    skip (c :: rest) = c :: rest :=
  List.dropWhile_cons_of_neg (by simp [h])

theorem quote_append (s rest : List Char) :
    quote s ++ rest = '"' :: (s.flatMap escape ++ '"' :: rest) := by
  rw [quote, List.append_assoc, List.cons_append, List.singleton_append]

/-- A value begins with a character that is neither white space nor a closing one. -/
theorem dumps_head (v : Json) : ∃ c rest, dumps v = c :: rest ∧ isSpace c = false ∧ c ≠ ']' := by
  cases v with
  | num n =>
    obtain ⟨c, rest, hdigits⟩ := List.exists_cons_of_ne_nil (Nat.toDigits_ne_nil (b := 10) (n := n))
    have hc : c.isDigit = true :=
      List.all_eq_true.mp (Decimal.all_isDigit_toDigits n) c (hdigits ▸ List.mem_cons_self)
    refine ⟨c, rest, by rw [dumps, hdigits], ?_, ?_⟩
    · rw [Bool.eq_false_iff]
      rintro hspace
      simp only [isSpace, Bool.or_eq_true, decide_eq_true_eq] at hspace
      rcases hspace with ((rfl | rfl) | rfl) | rfl <;> revert hc <;> decide
    · rintro rfl
      revert hc
      decide
  | str s => exact ⟨'"', _, rfl, by decide, by decide⟩
  | arr items => cases items <;> exact ⟨'[', _, rfl, by decide, by decide⟩
  | obj fields => cases fields <;> exact ⟨'\x7b', _, rfl, by decide, by decide⟩

theorem skip_dumps (v : Json) (rest : List Char) : skip (dumps v ++ rest) = dumps v ++ rest := by
  obtain ⟨c, tail, hv, hspace, -⟩ := dumps_head v
  rw [hv, List.cons_append, skip_cons hspace]

/-- What follows an item ends a number and is no white space. -/
theorem dumpsItems_head (items : List Json) (rest : List Char) :
    Decimal.NoDigitHead (dumpsItems items ++ rest) ∧
      skip (dumpsItems items ++ rest) = dumpsItems items ++ rest := by
  cases items with
  | nil => exact ⟨by rintro c hc; obtain rfl := Option.some.inj hc; rfl, skip_cons rfl _⟩
  | cons item items => exact ⟨by rintro c hc; obtain rfl := Option.some.inj hc; rfl, skip_cons rfl _⟩

theorem dumpsFields_head (fields : List (List Char × Json)) (rest : List Char) :
    Decimal.NoDigitHead (dumpsFields fields ++ rest) ∧
      skip (dumpsFields fields ++ rest) = dumpsFields fields ++ rest := by
  cases fields with
  | nil => exact ⟨by rintro c hc; obtain rfl := Option.some.inj hc; rfl, skip_cons rfl _⟩
  | cons field fields =>
    exact ⟨by rintro c hc; obtain rfl := Option.some.inj hc; rfl, skip_cons rfl _⟩

theorem dumpsField_append (field : List Char × Json) (rest : List Char) :
    dumpsField field ++ rest = '"' :: (field.1.flatMap escape ++
      '"' :: ':' :: ' ' :: (dumps field.2 ++ rest)) := by
  rw [dumpsField, List.append_assoc, quote_append]
  rfl

theorem length_quote (s : List Char) : (quote s).length = (s.flatMap escape).length + 2 := by
  simp [quote]

theorem scanKey_quote (key : List Char) {fuel : Nat} (value : Json) (rest : List Char)
    (hfuel : (key.flatMap escape).length < fuel) :
    scanKey fuel (dumpsField (key, value) ++ rest) = some (key, dumps value ++ rest) := by
  rw [dumpsField_append, scanKey, skip_cons rfl]
  show ((scanString fuel _).bind _) = _
  rw [scanString_quote key _ hfuel, Option.bind_some, skip_cons rfl]
  show some (key, skip (' ' :: (dumps value ++ rest))) = _
  rw [skip, List.dropWhile_cons_of_pos rfl, ← skip, skip_dumps]

theorem scan_num (n : Nat) {fuel : Nat} {rest : List Char} (hrest : Decimal.NoDigitHead rest) :
    scan (fuel + 1) (dumps (.num n) ++ rest) = some (.num n, rest) := by
  have hdigits := List.all_eq_true.mp (Decimal.all_isDigit_toDigits n)
  have hparse : (Nat.ofDigitChars 10 (Nat.toDigits 10 n) 0) = n := Nat.ofDigitChars_ten_toDigits
  have htake := Decimal.takeWhile_digits hdigits hrest
  have hdrop := Decimal.dropWhile_digits hdigits hrest
  obtain ⟨c, tail, hcons⟩ := List.exists_cons_of_ne_nil (Nat.toDigits_ne_nil (b := 10) (n := n))
  have hc : c.isDigit = true := hdigits c (hcons ▸ List.mem_cons_self)
  have hne : ∀ d : Char, d.isDigit = false → c ≠ d := by
    rintro d hd rfl
    rw [hc] at hd
    cases hd
  rw [dumps, hcons, List.cons_append, scan, if_neg (hne _ rfl), if_neg (hne _ rfl),
    if_neg (hne _ rfl), if_pos hc, ← List.cons_append, ← hcons, htake, hdrop, hparse]

/-- An array with an item. -/
theorem scan_arr {fuel : Nat} {item : Json} {text : List Char} :
    scan (fuel + 1) ('[' :: (dumps item ++ text)) =
      (scan fuel (dumps item ++ text)).bind fun p =>
        (scanItems fuel (skip p.2)).map fun q => (.arr (p.1 :: q.1), q.2) := by
  rw [scan, if_neg (by decide), if_pos rfl, skip_dumps]
  split
  · rename_i heq
    obtain ⟨c, tail, hv, -, hc⟩ := dumps_head item
    rw [hv, List.cons_append] at heq
    exact absurd (List.cons.inj heq).1 hc
  · rfl

/-- An object with a field. -/
theorem scan_obj {fuel : Nat} {field : List Char × Json} {text : List Char} :
    scan (fuel + 1) ('\x7b' :: (dumpsField field ++ text)) =
      (scanField fuel (dumpsField field ++ text)).bind fun p =>
        (scanFields fuel (skip p.2)).map fun q => (.obj (p.1 :: q.1), q.2) := by
  rw [scan, if_neg (by decide), if_neg (by decide), if_pos rfl, dumpsField_append, skip_cons rfl]
  rfl

mutual

theorem scan_dumps : ∀ (v : Json) {fuel : Nat} {rest : List Char}, (dumps v).length ≤ fuel →
    Decimal.NoDigitHead rest → scan fuel (dumps v ++ rest) = some (v, rest)
  | .num n, fuel, rest, hfuel, hrest => by
    have hpos : 0 < (dumps (.num n)).length := List.length_pos_iff.mpr Nat.toDigits_ne_nil
    obtain ⟨fuel, rfl⟩ := Nat.exists_eq_succ_of_ne_zero (Nat.ne_zero_of_lt (hpos.trans_le hfuel))
    exact scan_num n hrest
  | .str s, fuel, rest, hfuel, _ => by
    rw [dumps, length_quote] at hfuel
    obtain ⟨fuel, rfl⟩ := Nat.exists_eq_succ_of_ne_zero (n := fuel) (by omega)
    rw [dumps, quote_append, scan, if_pos rfl, scanString_quote s rest (by omega)]
    rfl
  | .arr [], fuel, rest, hfuel, _ => by
    obtain ⟨fuel, rfl⟩ := Nat.exists_eq_succ_of_ne_zero (Nat.ne_zero_of_lt hfuel)
    rfl
  | .arr (item :: items), fuel, rest, hfuel, _ => by
    rw [dumps, List.length_cons, List.length_append] at hfuel
    obtain ⟨fuel, rfl⟩ := Nat.exists_eq_succ_of_ne_zero (n := fuel) (by omega)
    obtain ⟨hend, hskip⟩ := dumpsItems_head items rest
    rw [dumps, List.cons_append, List.append_assoc, scan_arr, scan_dumps item (by omega) hend,
      Option.bind_some, hskip, scanItems_dumps items (by omega)]
    rfl
  | .obj [], fuel, rest, hfuel, _ => by
    obtain ⟨fuel, rfl⟩ := Nat.exists_eq_succ_of_ne_zero (Nat.ne_zero_of_lt hfuel)
    rfl
  | .obj (field :: fields), fuel, rest, hfuel, _ => by
    rw [dumps, List.length_cons, List.length_append] at hfuel
    obtain ⟨fuel, rfl⟩ := Nat.exists_eq_succ_of_ne_zero (n := fuel) (by omega)
    obtain ⟨hend, hskip⟩ := dumpsFields_head fields rest
    rw [dumps, List.cons_append, List.append_assoc, scan_obj, scanField_dumps field (by omega) hend,
      Option.bind_some, hskip, scanFields_dumps fields (by omega)]
    rfl

theorem scanItems_dumps : ∀ (items : List Json) {fuel : Nat} {rest : List Char},
    (dumpsItems items).length ≤ fuel →
    scanItems fuel (dumpsItems items ++ rest) = some (items, rest)
  | [], fuel, rest, hfuel => by
    obtain ⟨fuel, rfl⟩ := Nat.exists_eq_succ_of_ne_zero (Nat.ne_zero_of_lt hfuel)
    rfl
  | item :: items, fuel, rest, hfuel => by
    rw [dumpsItems, List.length_cons, List.length_cons, List.length_append] at hfuel
    obtain ⟨fuel, rfl⟩ := Nat.exists_eq_succ_of_ne_zero (n := fuel) (by omega)
    obtain ⟨hend, hskip⟩ := dumpsItems_head items rest
    rw [dumpsItems, List.cons_append, List.cons_append, List.append_assoc, scanItems,
      if_neg (by decide), if_pos rfl, skip, List.dropWhile_cons_of_pos rfl, ← skip, skip_dumps,
      scan_dumps item (by omega) hend, Option.bind_some, hskip, scanItems_dumps items (by omega)]
    rfl

theorem scanField_dumps : ∀ (field : List Char × Json) {fuel : Nat} {rest : List Char},
    (dumpsField field).length ≤ fuel → Decimal.NoDigitHead rest →
    scanField fuel (dumpsField field ++ rest) = some (field, rest)
  | (key, value), fuel, rest, hfuel, hrest => by
    rw [dumpsField, List.length_append, length_quote, List.length_cons, List.length_cons] at hfuel
    obtain ⟨fuel, rfl⟩ := Nat.exists_eq_succ_of_ne_zero (n := fuel) (by omega)
    rw [scanField, scanKey_quote key value rest (by omega), Option.bind_some,
      scan_dumps value (by omega) hrest]
    rfl

theorem scanFields_dumps : ∀ (fields : List (List Char × Json)) {fuel : Nat} {rest : List Char},
    (dumpsFields fields).length ≤ fuel →
    scanFields fuel (dumpsFields fields ++ rest) = some (fields, rest)
  | [], fuel, rest, hfuel => by
    obtain ⟨fuel, rfl⟩ := Nat.exists_eq_succ_of_ne_zero (Nat.ne_zero_of_lt hfuel)
    rfl
  | field :: fields, fuel, rest, hfuel => by
    rw [dumpsFields, List.length_cons, List.length_cons, List.length_append] at hfuel
    obtain ⟨fuel, rfl⟩ := Nat.exists_eq_succ_of_ne_zero (n := fuel) (by omega)
    obtain ⟨hend, hskip⟩ := dumpsFields_head fields rest
    have hfield : skip (' ' :: (dumpsField field ++ (dumpsFields fields ++ rest))) =
        dumpsField field ++ (dumpsFields fields ++ rest) := by
      rw [skip, List.dropWhile_cons_of_pos rfl, ← skip, dumpsField_append, skip_cons rfl]
    rw [dumpsFields, List.cons_append, List.cons_append, List.append_assoc, scanFields,
      if_neg (by decide), if_pos rfl, hfield, scanField_dumps field (by omega) hend,
      Option.bind_some, hskip, scanFields_dumps fields (by omega)]
    rfl

end

/-- **The round trip.** -/
theorem loads_dumps (v : Json) : loads (dumps v) = some v := by
  have hskip := skip_dumps v []
  have hscan : scan ((dumps v).length + 1) (dumps v ++ []) = some (v, []) :=
    scan_dumps v (Nat.le_succ _) fun _ h => by cases h
  rw [List.append_nil] at hskip hscan
  rw [loads, hskip, hscan]
  rfl

/-- A character beyond the basic plane, and one that has an escape of its own. -/
example : dumps (.str ['𝕏', '\n']) = "\"\\ud835\\udd4f\\n\"".toList := by decide

theorem dumps_injective {v w : Json} (h : dumps v = dumps w) : v = w := by
  have hv := loads_dumps v
  rw [h, loads_dumps w] at hv
  exact (Option.some.inj hv).symm

end RoundTrip

/-- Values are compared by their texts. -/
instance : DecidableEq Json := fun _ _ =>
  decidable_of_iff _ ⟨dumps_injective, congrArg dumps⟩

end Json
