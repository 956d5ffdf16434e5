import Mathlib.Data.List.Forall2

/-!
# Label matchers of a PromQL selector

What Prometheus reads between the braces of a selector: names, operators and string literals with
their escapes (`parseSelector`). A literal is taken apart character by character, so a text that is
put between the quotes is read as the value it stands for (`Body`) whatever follows, and matchers
that are written so and joined by commas are read back (`parseSelector_join`).

Quoted names and comments are not read, nor are escapes of single bytes that are not ASCII.
-/

namespace PromqlSelector

abbrev Text := List Char

inductive Op
  | equal
  | notEqual
  | regex
  | notRegex
  deriving DecidableEq, Repr

structure Matcher where
  label : Text
  op : Op
  value : Text
  deriving DecidableEq, Repr

/-! ## String literals -/

/-- The characters of one letter after a backslash. -/
def simpleEscape (quote c : Char) : Option Char :=
  if c = quote ∨ c = '\\' then some c
  else ([('a', 7), ('b', 8), ('f', 12), ('n', 10), ('r', 13), ('t', 9), ('v', 11)].lookup c).map
    Char.ofNat

/-- A digit in some base. -/
def digitValue (base : Nat) (c : Char) : Option Nat :=
  let value :=
    if '0' ≤ c ∧ c ≤ '9' then c.toNat - 48
    else if 'a' ≤ c ∧ c ≤ 'f' then c.toNat - 87
    else if 'A' ≤ c ∧ c ≤ 'F' then c.toNat - 55
    else base
  if value < base then some value else none

/-- Where the scanner is in a literal: in an escape by number some digits are left. -/
inductive Scan
  | plain
  | escape
  | digits (base left value limit : Nat)
  deriving DecidableEq, Repr

/-- The escapes by number, with the bound of their values. -/
def numericEscape (c : Char) : Option Scan :=
  if c = 'x' then some (.digits 16 2 0 128)
  else if c = 'u' then some (.digits 16 4 0 0x110000)
  else if c = 'U' then some (.digits 16 8 0 0x110000)
  else (digitValue 8 c).map fun d => .digits 8 2 d 128

/-- A read character before what is read after it. -/
def push (c : Char) (read : Text × Text) : Text × Text := (c :: read.1, read.2)

/-- The value of a literal after its opening quote, and what follows the closing one. -/
def scanString (quote : Char) : Scan → Text → Option (Text × Text)
  | _, [] => none
  | .plain, c :: cs =>
    if c = quote then some ([], cs)
    else if c = '\n' then none
    else if c = '\\' then scanString quote .escape cs
    else (scanString quote .plain cs).map (push c)
  | .escape, c :: cs =>
    match simpleEscape quote c with
    | some value => (scanString quote .plain cs).map (push value)
    | none =>
      match numericEscape c with
      | some scan => scanString quote scan cs
      | none => none
  | .digits base left value limit, c :: cs =>
    match digitValue base c with
    | none => none
    | some d =>
      if left ≠ 1 then scanString quote (.digits base (left - 1) (value * base + d) limit) cs
      else if (value * base + d).isValidChar ∧ value * base + d < limit then
        (scanString quote .plain cs).map (push (Char.ofNat (value * base + d)))
      else none

/-- A literal in backquotes has no escapes. -/
def scanRaw (t : Text) : Option (Text × Text) :=
  match t.dropWhile (· ≠ Char.ofNat 96) with
  | _ :: rest => some (t.takeWhile (· ≠ Char.ofNat 96), rest)
  | [] => none

def parseString : Text → Option (Text × Text)
  | c :: rest =>
    if c = '"' ∨ c = '\'' then scanString c .plain rest
    else if c = Char.ofNat 96 then scanRaw rest
    else none
  | [] => none

/-! ## Matchers -/

def isSpace (c : Char) : Bool := c ∈ [' ', '\t', '\n', '\r']

def isAlpha (c : Char) : Bool := c = '_' || 'a' ≤ c && c ≤ 'z' || 'A' ≤ c && c ≤ 'Z'

def isNameChar (c : Char) : Bool := isAlpha c || '0' ≤ c && c ≤ '9'

/-- The name of a label. -/
def isName : Text → Bool
  | [] => false
  | c :: cs => isAlpha c && cs.all isNameChar

def skipSpaces (t : Text) : Text := t.dropWhile isSpace

def parseOp : Text → Option (Op × Text)
  | '=' :: '~' :: rest => some (.regex, rest)
  | '=' :: rest => some (.equal, rest)
  | '!' :: '=' :: rest => some (.notEqual, rest)
  | '!' :: '~' :: rest => some (.notRegex, rest)
  | _ => none

def parseMatcher (t : Text) : Option (Matcher × Text) := do
  let label := (skipSpaces t).takeWhile isNameChar
  let rest := (skipSpaces t).dropWhile isNameChar
  guard (isName label)
  let (op, rest) ← parseOp (skipSpaces rest)
  let (value, rest) ← parseString (skipSpaces rest)
  return (⟨label, op, value⟩, rest)

/-- The matchers up to the closing brace, at most `fuel` of them. -/
def parseMatchers : Nat → Text → Option (List Matcher × Text)
  | 0, _ => none
  | fuel + 1, t =>
    match skipSpaces t with
    | '\x7d' :: rest => some ([], rest)
    | _ =>
      match parseMatcher t with
      | none => none
      | some (m, rest) =>
        match skipSpaces rest with
        | ',' :: rest => (parseMatchers fuel rest).map fun read => (m :: read.1, read.2)
        | '\x7d' :: rest => some ([m], rest)
        | _ => none

/-- The matchers of a text that is a selector without a metric. -/
def parseSelector : Text → Option (List Matcher)
  | '\x7b' :: t =>
    match parseMatchers (t.length + 1) t with
    | some (ms, rest) => if rest.all isSpace then some ms else none
    | none => none
  | _ => none

/-! ## What is put between the quotes -/

/-- A text that is read as `value` between double quotes, whatever follows. -/
def Body (body value : Text) : Prop :=
  ∀ tail, scanString '"' .plain (body ++ tail) =
    (scanString '"' .plain tail).map fun read => (value ++ read.1, read.2)

theorem body_nil : Body [] [] := by
  intro tail
  rw [List.nil_append]
  cases scanString '"' .plain tail <;> rfl

theorem Body.append {body value body' value' : Text} (h : Body body value)
    (h' : Body body' value') : Body (body ++ body') (value ++ value') := by
  intro tail
  rw [List.append_assoc, h, h']
  cases scanString '"' .plain tail with
  | none => rfl
  | some read => simp

/-- A character that needs no escape. -/
def Plain (c : Char) : Prop := c ≠ '"' ∧ c ≠ '\\' ∧ c ≠ '\n'

instance : DecidablePred Plain := fun _ => inferInstanceAs (Decidable (_ ∧ _ ∧ _))

theorem Plain.body {c : Char} (h : Plain c) : Body [c] [c] := by
  intro tail
  rw [List.singleton_append, scanString, if_neg h.1, if_neg h.2.2, if_neg h.2.1]
  rfl

theorem body_escaped {c : Char} (h : c = '"' ∨ c = '\\') : Body ['\\', c] [c] := by
  intro tail
  have hescape : simpleEscape '"' c = some c := if_pos h
  rw [List.cons_append, List.singleton_append, scanString, if_neg (by decide),
    if_neg (by decide), if_pos rfl, scanString, hescape]
  rfl

theorem body_flatMap {escape : Char → Text} {value : Text} (h : ∀ c ∈ value, Body (escape c) [c]) :
    Body (value.flatMap escape) value := by
  induction value with
  | nil => exact body_nil
  | cons c cs ih =>
    rw [List.flatMap_cons]
    exact (h c List.mem_cons_self).append (ih fun c' hc' => h c' (List.mem_cons_of_mem c hc'))

/-- A text without quotes, backslashes and newlines is read as it is. -/
theorem body_plain {value : Text} (h : ∀ c ∈ value, Plain c) : Body value value := by
  have hbody : Body (value.flatMap fun c => [c]) value := body_flatMap fun c hc => (h c hc).body
  rwa [List.flatMap_singleton'] at hbody

/-! ## Reading matchers back -/

def Op.text : Op → Text
  | .equal => ['=']
  | .notEqual => ['!', '=']
  | .regex => ['=', '~']
  | .notRegex => ['!', '~']

/-- A text that is one matcher: its name, its operator and its value in double quotes. -/
def Renders (text : Text) (m : Matcher) : Prop :=
  isName m.label = true ∧ ∃ body, Body body m.value ∧
    text = m.label ++ (m.op.text ++ '"' :: (body ++ ['"']))

theorem isNameChar_of_isName {name : Text} (h : isName name = true) :
    ∀ c ∈ name, isNameChar c = true := by
  cases name with
  | nil => cases h
  | cons c cs =>
    simp only [isName, Bool.and_eq_true, List.all_eq_true] at h
    intro c' hc'
    rcases List.mem_cons.mp hc' with rfl | hc'
    · rw [isNameChar, h.1, Bool.true_or]
    · exact h.2 c' hc'

theorem not_isSpace_of_isNameChar {c : Char} (h : isNameChar c = true) : isSpace c = false := by
  cases hspace : isSpace c with
  | false => rfl
  | true =>
    simp only [isSpace, List.mem_cons, List.not_mem_nil, or_false, decide_eq_true_eq] at hspace
    rcases hspace with rfl | rfl | rfl | rfl <;> exact absurd h (by decide)

theorem skipSpaces_cons {c : Char} (h : isSpace c = false) (t : Text) :
    skipSpaces (c :: t) = c :: t := List.dropWhile_cons_of_neg (by simp [h])

theorem skipSpaces_op (op : Op) (t : Text) : skipSpaces (op.text ++ t) = op.text ++ t := by
  cases op <;> exact skipSpaces_cons (by decide) _

theorem parseOp_text (op : Op) (t : Text) : parseOp (op.text ++ '"' :: t) = some (op, '"' :: t) := by
  cases op <;> rfl

theorem takeWhile_op (name : Text) (op : Op) (t : Text)
    (h : ∀ c ∈ name, isNameChar c = true) :
    (name ++ (op.text ++ t)).takeWhile isNameChar = name ∧
      (name ++ (op.text ++ t)).dropWhile isNameChar = op.text ++ t := by
  induction name with
  | nil => cases op <;> exact ⟨rfl, rfl⟩
  | cons c cs ih =>
    have hc := h c List.mem_cons_self
    obtain ⟨htake, hdrop⟩ := ih fun c' hc' => h c' (List.mem_cons_of_mem c hc')
    rw [List.cons_append, List.takeWhile_cons_of_pos hc, List.dropWhile_cons_of_pos hc, htake, hdrop]
    exact ⟨rfl, rfl⟩

/-- A matcher that is written is read back, whatever follows. -/
theorem Renders.parse {text : Text} {m : Matcher} (h : Renders text m) (tail : Text) :
    parseMatcher (text ++ tail) = some (m, tail) := by
  obtain ⟨hname, body, hbody, rfl⟩ := h
  obtain ⟨label, op, value⟩ := m
  dsimp only at hname hbody ⊢
  have hchars := isNameChar_of_isName hname
  have hskip : ∀ t, skipSpaces (label ++ t) = label ++ t := by
    intro t
    cases label with
    | nil => cases hname
    | cons c cs => exact skipSpaces_cons (not_isSpace_of_isNameChar (hchars c List.mem_cons_self)) _
  have hread : scanString '"' .plain (body ++ ('"' :: tail)) = some (value, tail) := by
    rw [hbody]
    simp [scanString]
  obtain ⟨htake, hdrop⟩ := takeWhile_op label op ('"' :: (body ++ '"' :: tail)) hchars
  have htext : label ++ (op.text ++ '"' :: (body ++ ['"'])) ++ tail =
      label ++ (op.text ++ '"' :: (body ++ '"' :: tail)) := by simp
  rw [htext]
  unfold parseMatcher
  rw [hskip, htake, hdrop]
  dsimp only
  rw [skipSpaces_op, parseOp_text]
  have hquote : skipSpaces ('"' :: (body ++ '"' :: tail)) = '"' :: (body ++ '"' :: tail) :=
    skipSpaces_cons (by decide) _
  simp [hname, hquote, parseString, hread, guard]

theorem Renders.skipSpaces {text : Text} {m : Matcher} (h : Renders text m) (tail : Text) :
    ∃ c rest, PromqlSelector.skipSpaces (text ++ tail) = c :: rest ∧ c ≠ '\x7d' := by
  obtain ⟨hname, body, -, rfl⟩ := h
  obtain ⟨label, op, value⟩ := m
  dsimp only at hname ⊢
  cases label with
  | nil => cases hname
  | cons c cs =>
    have hc := isNameChar_of_isName hname c List.mem_cons_self
    refine ⟨c, _, skipSpaces_cons (not_isSpace_of_isNameChar hc) _, ?_⟩
    rintro rfl
    exact absurd hc (by decide)

/-- One turn of the reader. -/
theorem Renders.parseMatchers_succ {text : Text} {m : Matcher} (h : Renders text m) (fuel : Nat)
    (c : Char) (rest : Text) (hc : isSpace c = false) :
    parseMatchers (fuel + 1) (text ++ c :: rest) =
      if c = ',' then (parseMatchers fuel rest).map fun read => (m :: read.1, read.2)
      else if c = '\x7d' then some ([m], rest)
      else none := by
  obtain ⟨d, rest', hskip, hd⟩ := h.skipSpaces (c :: rest)
  rw [parseMatchers, hskip]
  split
  · rename_i heq
    exact absurd (List.cons.inj heq).1 hd
  · rw [h.parse]
    dsimp only
    rw [skipSpaces_cons hc]
    split
    · rename_i heq
      obtain ⟨rfl, rfl⟩ := List.cons.inj heq
      rw [if_pos rfl]
    · rename_i heq
      obtain ⟨rfl, rfl⟩ := List.cons.inj heq
      rw [if_neg (by decide), if_pos rfl]
    · rename_i hcomma hbrace
      rw [if_neg fun h => hcomma rest (by rw [h]), if_neg fun h => hbrace rest (by rw [h])]

/-- Matchers joined by commas are read back in their order. -/
theorem parseMatchers_join {text : Text} {m : Matcher} {texts : List Text} {ms : List Matcher}
    (hfirst : Renders text m) (hrest : List.Forall₂ Renders texts ms) {fuel : Nat}
    (hfuel : texts.length < fuel) (tail : Text) :
    parseMatchers fuel (List.intercalate [','] (text :: texts) ++ '\x7d' :: tail) =
      some (m :: ms, tail) := by
  induction hrest generalizing text m fuel with
  | nil =>
    obtain ⟨fuel, rfl⟩ := Nat.exists_eq_succ_of_ne_zero (Nat.ne_of_gt (Nat.zero_lt_of_lt hfuel))
    have hone : List.intercalate [','] [text] = text := by simp [List.intercalate]
    rw [hone, Nat.succ_eq_add_one, hfirst.parseMatchers_succ fuel _ _ (by decide),
      if_neg (by decide), if_pos rfl]
  | @cons text' m' texts ms hnext hrest ih =>
    obtain ⟨fuel, rfl⟩ := Nat.exists_eq_succ_of_ne_zero (Nat.ne_of_gt (Nat.zero_lt_of_lt hfuel))
    have hjoin : List.intercalate [','] (text :: text' :: texts) ++ '\x7d' :: tail =
        text ++ ',' :: (List.intercalate [','] (text' :: texts) ++ '\x7d' :: tail) := by
      simp [List.intercalate, List.intersperse]
    rw [hjoin, Nat.succ_eq_add_one, hfirst.parseMatchers_succ fuel _ _ (by decide), if_pos rfl,
      ih hnext (by rw [List.length_cons] at hfuel; omega)]
    rfl

theorem length_le_intercalate (text : Text) (texts : List Text) :
    texts.length ≤ (List.intercalate [','] (text :: texts)).length := by
  induction texts generalizing text with
  | nil => exact Nat.zero_le _
  | cons text' texts ih =>
    have hjoin : List.intercalate [','] (text :: text' :: texts) =
        text ++ ',' :: List.intercalate [','] (text' :: texts) := by
      simp [List.intercalate, List.intersperse]
    have := ih text'
    rw [hjoin, List.length_append, List.length_cons, List.length_cons]
    omega

/-- **A selector of written matchers is read back.** -/
theorem parseSelector_join {text : Text} {m : Matcher} {texts : List Text} {ms : List Matcher}
    (hfirst : Renders text m) (hrest : List.Forall₂ Renders texts ms) :
    parseSelector ('\x7b' :: (List.intercalate [','] (text :: texts) ++ ['\x7d'])) =
      some (m :: ms) := by
  have hlength := length_le_intercalate text texts
  have hread : parseMatchers ((List.intercalate [','] (text :: texts) ++ ['\x7d']).length + 1)
      (List.intercalate [','] (text :: texts) ++ ['\x7d']) = some (m :: ms, []) :=
    parseMatchers_join hfirst hrest (by rw [List.length_append]; omega) []
  simp only [parseSelector, hread, List.all_nil, if_true]

end PromqlSelector
