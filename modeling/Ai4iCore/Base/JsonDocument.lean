import Ai4iCore.Base.JsonText
import Mathlib

/-!
# JSON documents

JSON values with all that Python's `json` writes: constants, signed integers and floats beside
texts, arrays and objects. A float is its `repr`. Texts, keys and white space are those of
`JsonText`.

A constant or a number is a token, a run of characters that no other part of a document starts or
ends with; what tokens there are is left to a `Scalars`, and `Scalar` is the one of Python. Items of
arrays and fields of objects are read by the same loop (`scanSeq`).

* `loads_dumps` — a document is read back from its text.
-/

abbrev JsonText := List Char

/-! ## Scalars -/

/-- The characters of constants and numbers. -/
def JsonText.isTokenChar (c : Char) : Bool := c.isAlphanum || c = '+' || c = '-' || c = '.'

open JsonText (isTokenChar)

/-- Constants and numbers, each with a token that is read back. -/
structure Scalars (σ : Type) where
  write : σ → JsonText
  read : JsonText → Option σ
  read_write : ∀ s, read (write s) = some s
  write_ne_nil : ∀ s, write s ≠ []
  isTokenChar_of_mem : ∀ s, ∀ c ∈ write s, isTokenChar c = true

namespace PyScalar

/-- Digits without a leading zero. -/
def isWhole (digits : JsonText) : Bool :=
  digits ≠ [] && digits.all Char.isDigit && (digits.head? ≠ some '0' || digits.length = 1)

def dropSign : JsonText → JsonText
  | '-' :: text => text
  | text => text

def isExponent : JsonText → Bool
  | [] => true
  | c :: text =>
    (c = 'e' || c = 'E') &&
      let digits := match text with
        | '+' :: digits => digits
        | '-' :: digits => digits
        | digits => digits
      digits ≠ [] && digits.all Char.isDigit

/-- A fraction or an exponent, or one behind the other. -/
def isFractional : JsonText → Bool
  | [] => false
  | '.' :: text =>
    text.takeWhile Char.isDigit ≠ [] && isExponent (text.dropWhile Char.isDigit)
  | text => isExponent text

/-- What `float.__repr__` writes, with the names that `json` has for what is no number. -/
def isFloat (text : JsonText) : Bool :=
  text.all isTokenChar &&
    (text = "NaN".toList || dropSign text = "Infinity".toList ||
      isWhole ((dropSign text).takeWhile Char.isDigit) &&
        isFractional ((dropSign text).dropWhile Char.isDigit))

end PyScalar

/-- `None`, a bool, an int or a float, the last by its `repr`. -/
inductive PyScalar
  | null
  | bool (b : Bool)
  | int (n : Int)
  | float (repr : JsonText) (isFloat : PyScalar.isFloat repr = true)
deriving DecidableEq

namespace PyScalar

def write : PyScalar → JsonText
  | .null => "null".toList
  | .bool true => "true".toList
  | .bool false => "false".toList
  | .int n => (if n < 0 then ['-'] else []) ++ Nat.toDigits 10 n.natAbs
  | .float repr _ => repr

def readInt (text : JsonText) : Option PyScalar :=
  if isWhole (dropSign text) then
    let n : Int := Nat.ofDigitChars 10 (dropSign text) 0
    some (.int (if text.head? = some '-' then -n else n))
  else none

def read (text : JsonText) : Option PyScalar :=
  if text = "null".toList then some .null
  else if text = "true".toList then some (.bool true)
  else if text = "false".toList then some (.bool false)
  else if h : isFloat text = true then some (.float text h)
  else readInt text

/-! ### Reading a scalar -/

/-- Numbers do not start with a zero. -/
theorem head?_toDigits {n : Nat} (h : n ≠ 0) : (Nat.toDigits 10 n).head? ≠ some '0' := by
  induction n using Nat.strongRecOn with
  | ind n ih =>
    by_cases hsmall : n < 10
    · rw [Nat.toDigits_of_lt_base hsmall]
      revert h
      interval_cases n <;> decide
    · rw [Nat.toDigits_of_base_le (by decide) (by omega),
        List.head?_append_of_ne_nil _ Nat.toDigits_ne_nil]
      exact ih (n / 10) (by omega) (by omega)

theorem isWhole_toDigits (n : Nat) : isWhole (Nat.toDigits 10 n) = true := by
  have hdigits := Decimal.all_isDigit_toDigits n
  have hzero : (Nat.toDigits 10 n).head? ≠ some '0' ∨ (Nat.toDigits 10 n).length = 1 := by
    rcases eq_or_ne n 0 with rfl | hne
    · exact .inr rfl
    · exact .inl (head?_toDigits hne)
  have hne : Nat.toDigits 10 n ≠ [] := Nat.toDigits_ne_nil
  rw [isWhole, hdigits]
  obtain hzero | hzero := hzero <;> simp [hzero, hne]

/-- The digits of an integer, and its sign. -/
theorem write_int (n : Int) : dropSign (write (.int n)) = Nat.toDigits 10 n.natAbs ∧
    ((write (.int n)).head? = some '-' ↔ n < 0) := by
  have hdigits := List.all_eq_true.mp (Decimal.all_isDigit_toDigits n.natAbs)
  obtain ⟨d, digits, hd⟩ :=
    List.exists_cons_of_ne_nil (Nat.toDigits_ne_nil (b := 10) (n := n.natAbs))
  have hne : d ≠ '-' := by
    rintro rfl
    exact absurd (hdigits '-' (hd ▸ List.mem_cons_self)) (by decide)
  rw [write, hd]
  by_cases hneg : n < 0
  · rw [if_pos hneg]
    exact ⟨rfl, by simp [hneg]⟩
  · rw [if_neg hneg, List.nil_append]
    refine ⟨?_, by simp [hne, hneg]⟩
    unfold dropSign
    split
    · rename_i heq
      exact absurd (List.cons.inj heq).1 hne
    · rfl

theorem not_isFloat_int (n : Int) : isFloat (write (.int n)) = false := by
  obtain ⟨hdrop, -⟩ := write_int n
  have hdigits := List.all_eq_true.mp (Decimal.all_isDigit_toDigits n.natAbs)
  have hnan : write (.int n) ≠ "NaN".toList := by
    intro h
    rw [h] at hdrop
    have hmem : 'N' ∈ Nat.toDigits 10 n.natAbs := by
      rw [← hdrop]
      decide
    exact absurd (hdigits 'N' hmem) (by decide)
  have hinfinity : dropSign (write (.int n)) ≠ "Infinity".toList := by
    intro h
    rw [h] at hdrop
    have hmem : 'I' ∈ Nat.toDigits 10 n.natAbs := by
      rw [← hdrop]
      decide
    exact absurd (hdigits 'I' hmem) (by decide)
  have hrest : (dropSign (write (.int n))).dropWhile Char.isDigit = [] := by
    rw [hdrop]
    exact List.dropWhile_eq_nil_iff.mpr hdigits
  have hfraction : isFractional [] = false := rfl
  rw [isFloat, hrest, hfraction, decide_eq_false hnan, decide_eq_false hinfinity, Bool.and_false,
    Bool.or_false, Bool.or_false, Bool.and_false]

theorem readInt_write (n : Int) : readInt (write (.int n)) = some (.int n) := by
  obtain ⟨hdrop, hsign⟩ := write_int n
  have hvalue : (Nat.ofDigitChars 10 (Nat.toDigits 10 n.natAbs) 0) = n.natAbs :=
    Nat.ofDigitChars_ten_toDigits
  rw [readInt, hdrop, if_pos (isWhole_toDigits _), hvalue]
  dsimp only
  congr 2
  by_cases hneg : n < 0
  · rw [if_pos (hsign.mpr hneg)]
    omega
  · rw [if_neg fun h => hneg (hsign.mp h)]
    omega

theorem read_write (s : PyScalar) : read (write s) = some s := by
  cases s with
  | null => rfl
  | bool b => cases b <;> rfl
  | int n =>
    have hconstant : ∀ word : JsonText, isFloat word = false → readInt word = none →
        write (.int n) ≠ word := by
      intro word _ hread heq
      have hint := readInt_write n
      rw [heq, hread] at hint
      cases hint
    rw [read, if_neg (hconstant _ (by decide +kernel) (by decide +kernel)),
      if_neg (hconstant _ (by decide +kernel) (by decide +kernel)),
      if_neg (hconstant _ (by decide +kernel) (by decide +kernel)),
      dif_neg (by rw [not_isFloat_int]; exact Bool.false_ne_true), readInt_write]
  | float repr hfloat =>
    have hconstant : ∀ word : JsonText, isFloat word = false → repr ≠ word := by
      rintro word hword rfl
      rw [hfloat] at hword
      cases hword
    rw [write, read, if_neg (hconstant _ (by decide +kernel)),
      if_neg (hconstant _ (by decide +kernel)), if_neg (hconstant _ (by decide +kernel)),
      dif_pos hfloat]

theorem isTokenChar_of_isDigit {c : Char} (h : c.isDigit = true) : isTokenChar c = true := by
  simp [isTokenChar, Char.isAlphanum, h]

theorem isTokenChar_write (s : PyScalar) : ∀ c ∈ write s, isTokenChar c = true := by
  cases s with
  | null => exact List.all_eq_true.mp (by decide +kernel)
  | bool b => cases b <;> exact List.all_eq_true.mp (by decide +kernel)
  | int n =>
    intro c hc
    rw [write] at hc
    obtain hc | hc := List.mem_append.mp hc
    · split at hc
      · obtain rfl := List.mem_singleton.mp hc
        rfl
      · cases hc
    · exact isTokenChar_of_isDigit (List.all_eq_true.mp (Decimal.all_isDigit_toDigits _) c hc)
  | float repr hfloat => exact List.all_eq_true.mp (Bool.and_eq_true_iff.mp hfloat).1

end PyScalar

namespace PyScalar

theorem write_ne_nil (s : PyScalar) : write s ≠ [] := by
  cases s with
  | null => decide +kernel
  | bool b => cases b <;> decide +kernel
  | int n => exact List.append_ne_nil_of_right_ne_nil _ Nat.toDigits_ne_nil
  | float repr hfloat =>
    intro hnil
    rw [write] at hnil
    subst hnil
    exact absurd hfloat (by decide +kernel)

def scalars : Scalars PyScalar := ⟨write, read, read_write, write_ne_nil, isTokenChar_write⟩

end PyScalar

/-! ## Documents -/

inductive JsonDoc (σ : Type)
  | scalar (s : σ)
  | str (s : JsonText)
  | arr (items : List (JsonDoc σ))
  | obj (fields : List (JsonText × JsonDoc σ))

namespace JsonDoc

open Json (quote isSpace skip scanKey scanString)

/-- The parts with `, ` between them. -/
def joined (texts : List JsonText) : JsonText := [',', ' '].intercalate texts

section

variable {σ α : Type} (sc : Scalars σ)

mutual

/-- `json.dumps(doc)`. -/
def dumps : JsonDoc σ → JsonText
  | .scalar s => sc.write s
  | .str s => quote s
  | .arr items => '[' :: (joined (dumpsItems items) ++ [']'])
  | .obj fields => '\x7b' :: (joined (dumpsFields fields) ++ ['\x7d'])

def dumpsItems : List (JsonDoc σ) → List JsonText
  | [] => []
  | item :: items => dumps item :: dumpsItems items

def dumpsFields : List (JsonText × JsonDoc σ) → List JsonText
  | [] => []
  | (key, value) :: fields => (quote key ++ ':' :: ' ' :: dumps value) :: dumpsFields fields

end

/-- The items that follow one, up to the closing character. -/
def scanRest (close : Char) (item : JsonText → Option (α × JsonText)) :
    Nat → JsonText → Option (List α × JsonText)
  | fuel + 1, c :: rest =>
    if c = close then some ([], rest)
    else if c = ',' then
      (item (skip rest)).bind fun p =>
        (scanRest close item fuel (skip p.2)).map fun q => (p.1 :: q.1, q.2)
    else none
  | _, _ => none

/-- Items with commas between them, up to the closing character. -/
def scanSeq (close : Char) (item : JsonText → Option (α × JsonText)) (text : JsonText) :
    Option (List α × JsonText) :=
  match skip text with
  | [] => none
  | c :: rest =>
    if c = close then some ([], rest)
    else
      (item (c :: rest)).bind fun p =>
        (scanRest close item (text.length + 1) (skip p.2)).map fun q => (p.1 :: q.1, q.2)

/-- A key with its value. -/
def scanField (value : JsonText → Option (α × JsonText)) (text : JsonText) :
    Option ((JsonText × α) × JsonText) :=
  (scanKey (text.length + 1) text).bind fun k => (value k.2).map fun p => ((k.1, p.1), p.2)

/-- The value that a text begins with, and what follows it. -/
def scan : Nat → JsonText → Option (JsonDoc σ × JsonText)
  | 0, _ => none
  | _ + 1, [] => none
  | fuel + 1, c :: rest =>
    if c = '"' then (scanString (rest.length + 1) rest).map fun p => (.str p.1, p.2)
    else if c = '[' then (scanSeq ']' (scan fuel) rest).map fun p => (.arr p.1, p.2)
    else if c = '\x7b' then
      (scanSeq '\x7d' (scanField (scan fuel)) rest).map fun p => (.obj p.1, p.2)
    else
      (sc.read ((c :: rest).takeWhile isTokenChar)).map fun s =>
        (.scalar s, (c :: rest).dropWhile isTokenChar)

/-- `json.loads(text)`; `none` when it raises. -/
def loads (text : JsonText) : Option (JsonDoc σ) :=
  match scan sc (text.length + 1) (skip text) with
  | some (doc, rest) => if skip rest = [] then some doc else none
  | none => none

end

/-! ## The round trip -/

section RoundTrip

variable {σ α : Type} {sc : Scalars σ}

/-- Nothing of a token, and no white space. -/
def Stops (rest : JsonText) : Prop := ∀ c ∈ rest.head?, isTokenChar c = false ∧ isSpace c = false

/-- The text is read as a value, whatever stops it. -/
structure Reads (item : JsonText → Option (α × JsonText)) (v : α) (text : JsonText) : Prop where
  read : ∀ rest, Stops rest → item (text ++ rest) = some (v, rest)
  start : ∃ c tail, text = c :: tail ∧ isSpace c = false ∧ c ≠ ']' ∧ c ≠ '\x7d'

/-- The closing characters. -/
def Closes (close : Char) : Prop := close = ']' ∨ close = '\x7d'

theorem stops_comma (rest : JsonText) : Stops (',' :: rest) := by
  intro c hc
  obtain rfl := Option.some.inj hc
  decide

theorem stops_close {close : Char} (h : Closes close) (rest : JsonText) :
    Stops (close :: rest) := by
  intro c hc
  obtain rfl := Option.some.inj hc
  obtain rfl | rfl := h <;> decide

theorem skip_of_stops {rest : JsonText} (h : Stops rest) : skip rest = rest := by
  cases rest with
  | nil => rfl
  | cons c rest => exact Json.skip_cons (h c rfl).2 rest

theorem Reads.skip_append {item : JsonText → Option (α × JsonText)} {v : α} {text : JsonText}
    (h : Reads item v text) (rest : JsonText) : skip (text ++ rest) = text ++ rest := by
  obtain ⟨c, tail, rfl, hspace, -⟩ := h.start
  exact Json.skip_cons hspace _

/-- What follows the first of some joined parts. -/
def following (texts : List JsonText) : JsonText := texts.flatMap fun text => ',' :: ' ' :: text

theorem joined_cons (text : JsonText) (texts : List JsonText) :
    joined (text :: texts) = text ++ following texts := by
  induction texts generalizing text with
  | nil => simp [joined, following]
  | cons next texts ih =>
    have hnext := ih next
    rw [joined] at hnext ⊢
    rw [List.intercalate_cons_cons, hnext, following, following, List.flatMap_cons]
    simp

theorem stops_following {close : Char} (h : Closes close) (texts : List JsonText)
    (rest : JsonText) : Stops (following texts ++ close :: rest) := by
  cases texts with
  | nil => exact stops_close h rest
  | cons text texts => exact stops_comma _

theorem length_following (texts : List JsonText) : texts.length ≤ (following texts).length := by
  induction texts with
  | nil => exact le_rfl
  | cons text texts ih =>
    rw [following] at ih ⊢
    rw [List.flatMap_cons, List.length_append, List.length_cons, List.length_cons, List.length_cons]
    omega

theorem scanRest_following {close : Char} (hclose : Closes close)
    {item : JsonText → Option (α × JsonText)} {values : List α} {texts : List JsonText}
    (h : List.Forall₂ (Reads item) values texts) {fuel : Nat} (hfuel : texts.length < fuel)
    (rest : JsonText) :
    scanRest close item fuel (following texts ++ close :: rest) = some (values, rest) := by
  induction h generalizing fuel with
  | nil =>
    obtain ⟨fuel, rfl⟩ := Nat.exists_eq_succ_of_ne_zero (Nat.ne_zero_of_lt hfuel)
    exact if_pos rfl
  | @cons v text values texts hread _ ih =>
    obtain ⟨fuel, rfl⟩ := Nat.exists_eq_succ_of_ne_zero (Nat.ne_zero_of_lt hfuel)
    have hstops := stops_following hclose texts rest
    have hne : ',' ≠ close := by
      rintro rfl
      obtain h | h := hclose <;> exact absurd h (by decide)
    have hsplit : following (text :: texts) ++ close :: rest =
        ',' :: ' ' :: (text ++ (following texts ++ close :: rest)) := by
      simp [following]
    have hskip : skip (' ' :: (text ++ (following texts ++ close :: rest))) =
        text ++ (following texts ++ close :: rest) := by
      rw [skip, List.dropWhile_cons_of_pos rfl, ← skip, hread.skip_append]
    rw [hsplit, scanRest, if_neg hne, if_pos rfl, hskip, hread.read _ hstops, Option.bind_some,
      skip_of_stops hstops, ih (by simpa using hfuel)]
    rfl

/-- Joined parts are read up to the closing character. -/
theorem scanSeq_joined {close : Char} (hclose : Closes close)
    {item : JsonText → Option (α × JsonText)} {values : List α} {texts : List JsonText}
    (h : List.Forall₂ (Reads item) values texts) (rest : JsonText) :
    scanSeq close item (joined texts ++ close :: rest) = some (values, rest) := by
  cases h with
  | nil =>
    have hskip := skip_of_stops (stops_close hclose rest)
    show scanSeq close item (close :: rest) = _
    rw [scanSeq, hskip]
    exact if_pos rfl
  | @cons v text values texts hread hrest =>
    have hstops := stops_following hclose texts rest
    have hlength := length_following texts
    rw [joined_cons, List.append_assoc, scanSeq, hread.skip_append]
    obtain ⟨c, tail, rfl, -, hne, hne'⟩ := hread.start
    have hopen : c ≠ close := by
      obtain rfl | rfl := hclose
      · exact hne
      · exact hne'
    have hread' := hread.read _ hstops
    rw [List.cons_append] at hread' ⊢
    dsimp only
    rw [if_neg hopen, hread', Option.bind_some, skip_of_stops hstops,
      scanRest_following hclose hrest (by
        rw [List.length_cons, List.length_append, List.length_append]
        omega)]
    rfl

/-- A field is read where its value is. -/
theorem Reads.field {value : JsonText → Option (α × JsonText)} {v : α} {text : JsonText}
    (h : Reads value v text) (key : JsonText) :
    Reads (scanField value) (key, v) (quote key ++ ':' :: ' ' :: text) where
  read rest hstops := by
    have hsplit : quote key ++ ':' :: ' ' :: text ++ rest =
        '"' :: (key.flatMap Json.escape ++ '"' :: ':' :: ' ' :: (text ++ rest)) := by
      rw [List.append_assoc, Json.quote_append]
      rfl
    have hlength : (key.flatMap Json.escape).length <
        (quote key ++ ':' :: ' ' :: text ++ rest).length + 1 := by
      rw [hsplit, List.length_cons, List.length_append]
      omega
    have hkey : scanKey ((quote key ++ ':' :: ' ' :: text ++ rest).length + 1)
        (quote key ++ ':' :: ' ' :: text ++ rest) = some (key, text ++ rest) := by
      generalize (quote key ++ ':' :: ' ' :: text ++ rest).length + 1 = fuel at hlength ⊢
      rw [hsplit, scanKey, Json.skip_cons rfl]
      show ((scanString fuel _).bind _) = _
      rw [Json.scanString_quote key _ hlength, Option.bind_some, Json.skip_cons rfl]
      show some (key, skip (' ' :: (text ++ rest))) = _
      rw [skip, List.dropWhile_cons_of_pos rfl, ← skip, h.skip_append]
    rw [scanField, hkey, Option.bind_some, h.read rest hstops]
    rfl
  start := ⟨'"', _, rfl, by decide, by decide, by decide⟩

theorem not_isTokenChar_of_stops {rest : JsonText} (h : Stops rest) :
    rest.takeWhile isTokenChar = [] ∧ rest.dropWhile isTokenChar = rest := by
  cases rest with
  | nil => exact ⟨rfl, rfl⟩
  | cons c rest =>
    have hc : ¬isTokenChar c = true := by
      rw [(h c rfl).1]
      exact Bool.false_ne_true
    exact ⟨List.takeWhile_cons_of_neg hc, List.dropWhile_cons_of_neg hc⟩

/-- A token is not the start of anything else. -/
theorem ne_of_isTokenChar {c d : Char} (hc : isTokenChar c = true) (hd : isTokenChar d = false) :
    c ≠ d := by
  rintro rfl
  rw [hc] at hd
  cases hd

theorem start_write (s : σ) : ∃ c tail, sc.write s = c :: tail ∧ isTokenChar c = true := by
  obtain ⟨c, tail, heq⟩ := List.exists_cons_of_ne_nil (sc.write_ne_nil s)
  exact ⟨c, tail, heq, sc.isTokenChar_of_mem s c (heq ▸ List.mem_cons_self)⟩

theorem reads_scalar (s : σ) (fuel : Nat) :
    Reads (scan sc (fuel + 1)) (.scalar s) (sc.write s) where
  read rest hstops := by
    obtain ⟨htake, hdrop⟩ := not_isTokenChar_of_stops hstops
    have hall := sc.isTokenChar_of_mem s
    have htoken : (sc.write s ++ rest).takeWhile isTokenChar = sc.write s := by
      rw [List.takeWhile_append_of_pos hall, htake, List.append_nil]
    have htail : (sc.write s ++ rest).dropWhile isTokenChar = rest := by
      rw [List.dropWhile_append_of_pos hall, hdrop]
    obtain ⟨c, tail, heq, hc⟩ := @start_write σ sc s
    rw [heq, List.cons_append] at htoken htail
    rw [heq, List.cons_append, scan, if_neg (ne_of_isTokenChar hc (by decide)),
      if_neg (ne_of_isTokenChar hc (by decide)), if_neg (ne_of_isTokenChar hc (by decide)), htoken,
      htail, ← heq, sc.read_write]
    rfl
  start := by
    obtain ⟨c, tail, heq, hc⟩ := @start_write σ sc s
    refine ⟨c, tail, heq, ?_, ne_of_isTokenChar hc (by decide), ne_of_isTokenChar hc (by decide)⟩
    rw [isSpace]
    simp [ne_of_isTokenChar hc (show isTokenChar ' ' = false by decide),
      ne_of_isTokenChar hc (show isTokenChar '\n' = false by decide),
      ne_of_isTokenChar hc (show isTokenChar '\r' = false by decide),
      ne_of_isTokenChar hc (show isTokenChar '\t' = false by decide)]

theorem length_le_following {text : JsonText} {texts : List JsonText} (h : text ∈ texts) :
    text.length ≤ (following texts).length := by
  induction texts with
  | nil => cases h
  | cons next texts ih =>
    rw [following, List.flatMap_cons, List.length_append, List.length_cons, List.length_cons]
    obtain rfl | h := List.mem_cons.mp h
    · omega
    · have hle := ih h
      rw [following] at hle
      omega

/-- No part is longer than all of them joined. -/
theorem length_le_joined {text : JsonText} {texts : List JsonText} (h : text ∈ texts) :
    text.length ≤ (joined texts).length := by
  cases texts with
  | nil => cases h
  | cons next texts =>
    rw [joined_cons, List.length_append]
    obtain rfl | h := List.mem_cons.mp h
    · omega
    · have hle := length_le_following h
      omega

mutual

theorem reads_dumps : ∀ (doc : JsonDoc σ) {fuel : Nat}, (dumps sc doc).length ≤ fuel →
    Reads (scan sc fuel) doc (dumps sc doc)
  | .scalar s, fuel, hfuel => by
    have hpos := List.length_pos_iff.mpr (sc.write_ne_nil s)
    obtain ⟨fuel, rfl⟩ := Nat.exists_eq_succ_of_ne_zero (Nat.ne_zero_of_lt (hpos.trans_le hfuel))
    exact reads_scalar s fuel
  | .str s, fuel, hfuel => by
    rw [dumps, Json.length_quote] at hfuel
    obtain ⟨fuel, rfl⟩ := Nat.exists_eq_succ_of_ne_zero (n := fuel) (by omega)
    refine ⟨fun rest _ => ?_, ⟨'"', _, rfl, by decide, by decide, by decide⟩⟩
    rw [dumps, Json.quote_append, scan, if_pos rfl, Json.scanString_quote s rest (by
      rw [List.length_append]
      omega)]
    rfl
  | .arr items, fuel, hfuel => by
    rw [dumps, List.length_cons, List.length_append] at hfuel
    obtain ⟨fuel, rfl⟩ := Nat.exists_eq_succ_of_ne_zero (n := fuel) (by omega)
    refine ⟨fun rest _ => ?_, ⟨'[', _, rfl, by decide, by decide, by decide⟩⟩
    have hitems : List.Forall₂ (Reads (scan sc fuel)) items (dumpsItems sc items) :=
      reads_dumpsItems items fun text htext => by
        have hle := length_le_joined htext
        omega
    have hsplit : dumps sc (.arr items) ++ rest =
        '[' :: (joined (dumpsItems sc items) ++ ']' :: rest) := by
      simp [dumps]
    rw [hsplit, scan, if_neg (by decide), if_pos rfl, scanSeq_joined (.inl rfl) hitems]
    rfl
  | .obj fields, fuel, hfuel => by
    rw [dumps, List.length_cons, List.length_append] at hfuel
    obtain ⟨fuel, rfl⟩ := Nat.exists_eq_succ_of_ne_zero (n := fuel) (by omega)
    refine ⟨fun rest _ => ?_, ⟨'\x7b', _, rfl, by decide, by decide, by decide⟩⟩
    have hfields : List.Forall₂ (Reads (scanField (scan sc fuel))) fields
        (dumpsFields sc fields) :=
      reads_dumpsFields fields fun text htext => by
        have hle := length_le_joined htext
        omega
    have hsplit : dumps sc (.obj fields) ++ rest =
        '\x7b' :: (joined (dumpsFields sc fields) ++ '\x7d' :: rest) := by
      simp [dumps]
    rw [hsplit, scan, if_neg (by decide), if_neg (by decide), if_pos rfl,
      scanSeq_joined (.inr rfl) hfields]
    rfl

theorem reads_dumpsItems : ∀ (items : List (JsonDoc σ)) {fuel : Nat},
    (∀ text ∈ dumpsItems sc items, text.length ≤ fuel) →
    List.Forall₂ (Reads (scan sc fuel)) items (dumpsItems sc items)
  | [], _, _ => .nil
  | item :: items, _, hfuel =>
    .cons (reads_dumps item (hfuel _ List.mem_cons_self))
      (reads_dumpsItems items fun text htext => hfuel text (List.mem_cons_of_mem _ htext))

theorem reads_dumpsFields : ∀ (fields : List (JsonText × JsonDoc σ)) {fuel : Nat},
    (∀ text ∈ dumpsFields sc fields, text.length ≤ fuel) →
    List.Forall₂ (Reads (scanField (scan sc fuel))) fields (dumpsFields sc fields)
  | [], _, _ => .nil
  | (key, value) :: fields, fuel, hfuel => by
    have hlength := hfuel _ List.mem_cons_self
    rw [List.length_append, List.length_cons, List.length_cons] at hlength
    exact .cons ((reads_dumps value (by omega)).field key)
      (reads_dumpsFields fields fun text htext => hfuel text (List.mem_cons_of_mem _ htext))

end

/-- **The round trip.** -/
theorem loads_dumps (doc : JsonDoc σ) : loads sc (dumps sc doc) = some doc := by
  have hreads : Reads (scan sc ((dumps sc doc).length + 1)) doc (dumps sc doc) :=
    reads_dumps doc (Nat.le_succ _)
  have hskip := hreads.skip_append []
  have hscan := hreads.read [] fun _ h => by cases h
  rw [List.append_nil] at hskip hscan
  rw [loads, hskip, hscan]
  rfl

end RoundTrip

/-- Constants, a negative number and a text beyond ASCII. -/
example : dumps PyScalar.scalars
    (.arr [.scalar .null, .obj [(['é'], .scalar (.int (-12)))], .scalar (.bool false)]) =
      "[null, \x7b\"\\u00e9\": -12\x7d, false]".toList := by
  decide +kernel

end JsonDoc
