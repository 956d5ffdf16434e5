import Mathlib

/-!
# Percent-encoding

`quote` writes the UTF-8 bytes of every character that is not unreserved as `%XX`, and `unquote`
reads them back (`unquote_quote`). Bytes that are no UTF-8 are left to `replace`, which stands for
what a decoder puts in their place.
-/

namespace PercentCoding

/-! ## Bytes -/

/-- The characters that are never encoded. -/
def unreserved (c : Char) : Bool := c.isAlphanum || c ∈ ['_', '.', '-', '~']

def hexDigit (n : Nat) : Char := Char.ofNat (if n < 10 then 48 + n else 55 + n)

def hexValue? (c : Char) : Option Nat :=
  if '0' ≤ c ∧ c ≤ '9' then some (c.toNat - 48)
  else if 'A' ≤ c ∧ c ≤ 'F' then some (c.toNat - 55)
  else if 'a' ≤ c ∧ c ≤ 'f' then some (c.toNat - 87)
  else none

def encodeByte (b : UInt8) : List Char :=
  ['%', hexDigit (b.toNat / 16), hexDigit (b.toNat % 16)]

def encodeChar (c : Char) : List Char :=
  if unreserved c then [c] else (String.utf8EncodeChar c).flatMap encodeByte

def quote (t : List Char) : List Char := t.flatMap encodeChar

/-- The bytes of a text without its percent signs that introduce a byte. -/
def unquoteToBytes : List Char → List UInt8
  | '%' :: a :: b :: rest =>
    match hexValue? a, hexValue? b with
    | some high, some low => UInt8.ofNat (16 * high + low) :: unquoteToBytes rest
    | _, _ => 37 :: unquoteToBytes (a :: b :: rest)
  | c :: rest => String.utf8EncodeChar c ++ unquoteToBytes rest
  | [] => []

/-! ## Reading back -/

def isAscii (c : Char) : Bool := c.toNat < 128

/-- ASCII, and neither white space nor a control character. -/
def isVisible (c : Char) : Bool := 33 ≤ c.toNat && c.toNat < 128

def decodeUtf8 (replace : List UInt8 → List Char) (bytes : List UInt8) : List Char :=
  match bytes.toByteArray.utf8Decode? with
  | some cs => cs.toList
  | none => replace bytes

/-- Runs of ASCII are read as bytes; the rest stays. -/
def unquote (replace : List UInt8 → List Char) (t : List Char) : List Char :=
  if '%' ∉ t then t
  else (t.splitBy fun a b => isAscii a == isAscii b).flatMap fun run =>
    if run.all isAscii then decodeUtf8 replace (unquoteToBytes run) else run

theorem hexDigit_spec : ∀ n < 16, hexValue? (hexDigit n) = some n ∧
    isVisible (hexDigit n) = true := by
  decide

theorem unquoteToBytes_encodeByte (b : UInt8) (rest : List Char) :
    unquoteToBytes (encodeByte b ++ rest) = b :: unquoteToBytes rest := by
  have hb : b.toNat < 256 := b.toNat_lt
  have hhigh := (hexDigit_spec (b.toNat / 16) (by omega)).1
  have hlow := (hexDigit_spec (b.toNat % 16) (by omega)).1
  show unquoteToBytes ('%' :: hexDigit _ :: hexDigit _ :: rest) = _
  rw [unquoteToBytes, hhigh, hlow]
  show UInt8.ofNat (16 * (b.toNat / 16) + b.toNat % 16) :: _ = _
  rw [Nat.div_add_mod, UInt8.ofNat_toNat]

theorem unquoteToBytes_encodeBytes (bytes : List UInt8) (rest : List Char) :
    unquoteToBytes (bytes.flatMap encodeByte ++ rest) = bytes ++ unquoteToBytes rest := by
  induction bytes with
  | nil => rfl
  | cons b bytes ih =>
    rw [List.flatMap_cons, List.append_assoc, unquoteToBytes_encodeByte, ih]
    rfl

theorem unquoteToBytes_cons {c : Char} (hc : c ≠ '%') (rest : List Char) :
    unquoteToBytes (c :: rest) = String.utf8EncodeChar c ++ unquoteToBytes rest := by
  rw [unquoteToBytes]
  rintro a b rest' rfl
  exact absurd rfl hc

theorem unreserved_visible {c : Char} (h : unreserved c = true) : isVisible c = true := by
  simp only [unreserved, Char.isAlphanum, Char.isAlpha, Char.isUpper, Char.isLower,
    Char.isDigit, Bool.or_eq_true, Bool.and_eq_true, decide_eq_true_eq, List.mem_cons,
    List.not_mem_nil, or_false, UInt32.le_iff_toNat_le] at h
  simp only [isVisible, Bool.and_eq_true, decide_eq_true_eq]
  show 33 ≤ c.val.toNat ∧ c.val.toNat < 128
  rcases h with ((⟨hlow, h⟩ | ⟨hlow, h⟩) | ⟨hlow, h⟩) | rfl | rfl | rfl | rfl
  · exact ⟨Nat.le_trans (by decide) hlow, Nat.lt_of_le_of_lt h (by decide)⟩
  · exact ⟨Nat.le_trans (by decide) hlow, Nat.lt_of_le_of_lt h (by decide)⟩
  · exact ⟨Nat.le_trans (by decide) hlow, Nat.lt_of_le_of_lt h (by decide)⟩
  · decide
  · decide
  · decide
  · decide

theorem unreserved_ne_percent {c : Char} (h : unreserved c = true) : c ≠ '%' := by
  rintro rfl
  exact absurd h (by decide)

theorem unquoteToBytes_quote (t : List Char) :
    unquoteToBytes (quote t) = t.flatMap String.utf8EncodeChar := by
  induction t with
  | nil => rfl
  | cons c t ih =>
    have hstep : unquoteToBytes (encodeChar c ++ quote t) =
        String.utf8EncodeChar c ++ unquoteToBytes (quote t) := by
      unfold encodeChar
      split
      · rename_i hc
        exact unquoteToBytes_cons (unreserved_ne_percent hc) _
      · exact unquoteToBytes_encodeBytes _ _
    rw [List.flatMap_cons, ← ih]
    exact hstep

theorem quote_isVisible (t : List Char) : ∀ c ∈ quote t, isVisible c = true := by
  intro c hc
  obtain ⟨d, -, hc⟩ := List.mem_flatMap.mp hc
  unfold encodeChar at hc
  split at hc
  · rename_i hd
    rw [List.mem_singleton.mp hc]
    exact unreserved_visible hd
  · obtain ⟨b, -, hc⟩ := List.mem_flatMap.mp hc
    have hb : b.toNat < 256 := b.toNat_lt
    rcases List.mem_cons.mp hc with rfl | hc
    · rfl
    rcases List.mem_cons.mp hc with rfl | hc
    · exact (hexDigit_spec _ (by omega)).2
    · rw [List.mem_singleton.mp hc]
      exact (hexDigit_spec _ (by omega)).2

theorem quote_isAscii (t : List Char) : ∀ c ∈ quote t, isAscii c = true := by
  intro c hc
  exact (Bool.and_eq_true_iff.mp (quote_isVisible t c hc)).2

/-- A text in which nothing is encoded. -/
theorem quote_eq_self {t : List Char} (h : '%' ∉ quote t) : quote t = t := by
  induction t with
  | nil => rfl
  | cons c t ih =>
    have hsplit : quote (c :: t) = encodeChar c ++ quote t := List.flatMap_cons
    rw [hsplit, List.mem_append, not_or] at h
    rw [hsplit, ih h.2]
    unfold encodeChar at h ⊢
    split
    · rfl
    · rename_i hc
      rw [if_neg hc] at h
      obtain ⟨b, bytes, hbytes⟩ := List.exists_cons_of_ne_nil (@String.utf8EncodeChar_ne_nil c)
      rw [hbytes] at h
      exact absurd List.mem_cons_self h.1

theorem unquote_of_not_mem {replace : List UInt8 → List Char} {t : List Char} (h : '%' ∉ t) :
    unquote replace t = t :=
  if_pos h

theorem unquote_quote (replace : List UInt8 → List Char) (t : List Char) :
    unquote replace (quote t) = t := by
  by_cases h : '%' ∉ quote t
  · rw [unquote_of_not_mem h, quote_eq_self h]
  · have hne : quote t ≠ [] := by
      intro hnil
      rw [hnil] at h
      exact h List.not_mem_nil
    have hrun : (quote t).splitBy (fun a b => isAscii a == isAscii b) = [quote t] := by
      refine List.splitBy_of_isChain hne (List.Pairwise.isChain ?_)
      refine List.pairwise_of_forall_mem_list fun a ha b hb => ?_
      rw [quote_isAscii t a ha, quote_isAscii t b hb]
      rfl
    unfold unquote
    rw [if_neg h, hrun, List.flatMap_singleton,
      if_pos (List.all_eq_true.mpr (quote_isAscii t)), unquoteToBytes_quote]
    show decodeUtf8 replace _ = t
    unfold decodeUtf8
    have hdecode : (t.flatMap String.utf8EncodeChar).toByteArray.utf8Decode? = some t.toArray :=
      List.utf8Decode?_utf8Encode
    rw [hdecode]

end PercentCoding
