import Mathlib.Algebra.Group.Nat.Defs
import Mathlib.Tactic.SplitIfs
import Sessions.Text.Quoted

/-!
# Sessions.Proofs.Text.Quoted

A quoted text can be read back, and it ends where it says: `readChar` reads the form of one character
back, whatever follows it, and no form starts with the quote that ends the text. So a quoted text
followed by anything tells both parts (`quoted_append_inj`).
-/

namespace Sessions.Text

/-! ## Hexadecimal numbers -/

def digitValue (c : Char) : Nat :=
  if c.isDigit then c.toNat - '0'.toNat else c.toNat - 'a'.toNat + 10

def hexValue (cs : List Char) : Nat :=
  cs.foldl (fun n c => 16 * n + digitValue c) 0

theorem digitValue_digitChar {n : Nat} (h : n < 16) : digitValue (Nat.digitChar n) = n := by
  have hall : ∀ n < 16, digitValue (Nat.digitChar n) = n := by decide
  exact hall n h

theorem hexValue_concat (cs : List Char) (c : Char) :
    hexValue (cs ++ [c]) = 16 * hexValue cs + digitValue c := by
  rw [hexValue, List.foldl_append]
  rfl

theorem hexValue_toDigits (n : Nat) : hexValue (Nat.toDigits 16 n) = n := by
  induction n using Nat.strongRecOn with
  | _ n ih =>
    rw [Nat.toDigits_eq_if (by decide)]
    split_ifs with hn
    · simp [hexValue, digitValue_digitChar hn]
    · rw [hexValue_concat, ih (n / 16) (by omega), digitValue_digitChar (by omega)]
      omega

theorem hexValue_zeros (k : Nat) (cs : List Char) :
    hexValue (List.replicate k '0' ++ cs) = hexValue cs := by
  induction k with
  | zero => rfl
  | succ k ih => exact ih

theorem hexValue_hex (width n : Nat) : hexValue (hex width n) = n := by
  rw [hex, hexValue_zeros, hexValue_toDigits]

theorem length_hex {width n : Nat} (hw : 0 < width) (hn : n < 16 ^ width) :
    (hex width n).length = width := by
  have h := (Nat.length_toDigits_le_iff (by decide) hw).2 hn
  rw [hex, List.length_append, List.length_replicate]
  omega

/-! ## Characters -/

/-- The character with so many hexadecimal digits, and what follows them. -/
def readHex (width : Nat) (cs : List Char) : Char × List Char :=
  (Char.ofNat (hexValue (cs.take width)), cs.drop width)

/-- The character with two hexadecimal digits, which may be a stray byte, and what follows them. -/
def readByte (cs : List Char) : Char × List Char :=
  let n := hexValue (cs.take 2)
  (if n < 0x80 then Char.ofNat n else strayChar (UInt8.ofNat n), cs.drop 2)

/-- Reads what follows a backslash and this character. -/
def readEscape (kind : Char) (rest : List Char) : Char × List Char :=
  if kind = 'x' then readByte rest
  else if kind = 'u' then readHex 4 rest
  else if kind = 'U' then readHex 8 rest
  else if kind = 'a' then ('\x07', rest)
  else if kind = 'b' then ('\x08', rest)
  else if kind = 'f' then ('\x0c', rest)
  else if kind = 'n' then ('\n', rest)
  else if kind = 'r' then ('\r', rest)
  else if kind = 't' then ('\t', rest)
  else if kind = 'v' then ('\x0b', rest)
  else (kind, rest)

/-- Reads the form that one character has between the quotes. -/
def readChar : List Char → Option (Char × List Char)
  | [] => none
  | c :: rest => if c = '\\' then rest.head?.map fun kind => readEscape kind rest.tail else some (c, rest)

theorem readHex_hex {width : Nat} (hw : 0 < width) {c : Char} (hc : c.toNat < 16 ^ width)
    (x : List Char) : readHex width (hex width c.toNat ++ x) = (c, x) := by
  have hlength := length_hex hw hc
  rw [readHex, List.take_left' hlength, List.drop_left' hlength, hexValue_hex, Char.ofNat_toNat]

theorem toNat_lt_hex (c : Char) : c.toNat < 16 ^ 8 := by
  have hvalid := c.valid
  simp only [UInt32.isValidChar, Nat.isValidChar] at hvalid
  change c.val.toNat < 16 ^ 8
  omega

theorem readByte_hex {n : Nat} (hn : n < 256) (x : List Char) :
    readByte (hex 2 n ++ x) =
      (if n < 0x80 then Char.ofNat n else strayChar (UInt8.ofNat n), x) := by
  have hlength := length_hex (by decide : 0 < 2) hn
  rw [readByte, List.take_left' hlength, List.drop_left' hlength, hexValue_hex]

/-- A stray character is read back from the digits of its byte. -/
theorem strayChar_of_isStray {c : Char} (h : isStray c = true) :
    ∃ n, c.toNat - 0x10FF00 = n ∧ 0x80 ≤ n ∧ n < 256 ∧ strayChar (UInt8.ofNat n) = c := by
  rw [isStray, decide_eq_true_eq] at h
  have hvalid := c.valid
  simp only [UInt32.isValidChar, Nat.isValidChar] at hvalid
  change _ ≤ c.val.toNat at h
  have hbyte : c.val.toNat - 0x10FF00 < 256 := by omega
  refine ⟨c.val.toNat - 0x10FF00, rfl, by omega, hbyte, ?_⟩
  rw [strayChar, UInt8.toNat_ofNat_of_lt' hbyte, Nat.add_sub_cancel' (by omega)]
  exact Char.ofNat_toNat c

theorem readChar_ite {P : Prop} [Decidable P] {c : Char} {form other x : List Char}
    (h : P → readChar (form ++ x) = some (c, x)) (h' : ¬ P → readChar (other ++ x) = some (c, x)) :
    readChar ((if P then form else other) ++ x) = some (c, x) := by
  by_cases hP : P
  · rw [if_pos hP]
    exact h hP
  · rw [if_neg hP]
    exact h' hP

theorem readChar_quotedChar (c : Char) (x : List Char) :
    readChar (quotedChar c ++ x) = some (c, x) := by
  rw [quotedChar]
  refine readChar_ite (fun hself => ?_) fun hself => readChar_ite (fun _ => ?_) fun _ => ?_
  · rw [Bool.or_eq_true, decide_eq_true_eq, decide_eq_true_eq] at hself
    rcases hself with rfl | rfl <;> rfl
  · rw [Bool.or_eq_true, decide_eq_true_eq, decide_eq_true_eq, not_or] at hself
    exact if_neg hself.2
  -- The seven characters that have a letter of their own.
  iterate 7 refine readChar_ite (by rintro rfl; rfl) fun _ => ?_
  refine readChar_ite (fun hx => ?_) fun _ => readChar_ite (fun hstray => ?_) fun _ =>
    readChar_ite (fun hu => ?_) fun _ => ?_
  · refine congrArg some ((readByte_hex (by omega) x).trans ?_)
    rw [if_pos hx, Char.ofNat_toNat]
  · obtain ⟨n, hn, hlow, hhigh, hc⟩ := strayChar_of_isStray hstray
    rw [hn]
    refine congrArg some ((readByte_hex hhigh x).trans ?_)
    rw [if_neg (Nat.not_lt.2 hlow), hc]
  · have hc : c.toNat < 16 ^ 4 := by omega
    exact congrArg some (readHex_hex (by decide) hc x)
  · exact congrArg some (readHex_hex (by decide) (toNat_lt_hex c) x)

theorem quotedChar_append_inj {c d : Char} {x y : List Char}
    (h : quotedChar c ++ x = quotedChar d ++ y) : c = d ∧ x = y := by
  have hread := congrArg readChar h
  rw [readChar_quotedChar, readChar_quotedChar] at hread
  cases hread
  exact ⟨rfl, rfl⟩

/-- No form of a character starts with the quote that ends the text. -/
theorem quote_ne_quotedChar_append (c : Char) (x y : List Char) :
    '"' :: x ≠ quotedChar c ++ y := by
  intro h
  have hread := congrArg readChar h
  rw [readChar_quotedChar] at hread
  -- Only the quote itself could be read here, and its form starts with a backslash.
  cases hread
  cases h

/-! ## Texts -/

theorem toList_quoted (s : String) :
    (quoted s).toList = '"' :: (s.toList.flatMap quotedChar ++ ['"']) := by
  rw [quoted, String.toList_ofList]

theorem flatMap_quotedChar_inj {s t x y : List Char}
    (h : s.flatMap quotedChar ++ '"' :: x = t.flatMap quotedChar ++ '"' :: y) :
    s = t ∧ x = y := by
  induction s generalizing t with
  | nil =>
    cases t with
    | nil => exact ⟨rfl, (List.cons.inj h).2⟩
    | cons d t =>
      rw [List.flatMap_cons, List.append_assoc] at h
      exact absurd h (quote_ne_quotedChar_append _ _ _)
  | cons c s ih =>
    cases t with
    | nil =>
      rw [List.flatMap_cons, List.append_assoc] at h
      exact absurd h.symm (quote_ne_quotedChar_append _ _ _)
    | cons d t =>
      rw [List.flatMap_cons, List.flatMap_cons, List.append_assoc, List.append_assoc] at h
      obtain ⟨rfl, hrest⟩ := quotedChar_append_inj h
      obtain ⟨rfl, hxy⟩ := ih hrest
      exact ⟨rfl, hxy⟩

/-- A quoted text tells where it ends and what it quotes. -/
theorem quoted_append_inj {s t : String} {x y : List Char}
    (h : (quoted s).toList ++ x = (quoted t).toList ++ y) : s = t ∧ x = y := by
  rw [toList_quoted, toList_quoted, List.cons_append, List.cons_append, List.append_assoc,
    List.append_assoc] at h
  obtain ⟨hst, hxy⟩ := flatMap_quotedChar_inj ((List.cons.inj h).2)
  exact ⟨String.toList_injective hst, hxy⟩

end Sessions.Text
