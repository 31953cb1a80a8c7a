import Mathlib.Algebra.Group.Nat.Defs
import Mathlib.Tactic.SplitIfs
import Sessions.Time.Instant

/-!
# Sessions.Proofs.Text.Order

The order of texts. Texts are compared character by character, which is the order of their bytes
(`lt_iff_bytesOf`). Numbers that are written with one count of digits sort as texts the way they sort
as numbers, whatever follows them (`padded_append_lt`).
-/

namespace Sessions.Text

theorem append_lt_append_iff {α : Type} [LT α] [Std.Irrefl (α := α) (· < ·)] (l : List α)
    {x y : List α} : l ++ x < l ++ y ↔ x < y := by
  induction l with
  | nil => rfl
  | cons a l ih => simp [ih]

/-- Of two beginnings of one length the smaller one decides. -/
theorem append_lt_of_lt {α : Type} [LT α] {a b : List α} (hlen : a.length = b.length) (h : a < b)
    (x y : List α) : a ++ x < b ++ y := by
  induction a generalizing b with
  | nil =>
    rw [List.length_nil, eq_comm, List.length_eq_zero_iff] at hlen
    subst hlen
    cases h
  | cons c a ih =>
    cases b with
    | nil => cases hlen
    | cons d b =>
      rcases List.cons_lt_cons_iff.1 h with hhead | ⟨rfl, htail⟩
      · exact List.cons_lt_cons_iff.2 (.inl hhead)
      · exact List.cons_lt_cons_iff.2 (.inr ⟨rfl, ih (by simpa using hlen) htail⟩)

/-! ## Bytes -/

/-- The bytes of the characters of a text, also of those that stand for stray bytes. -/
def bytesOf (s : String) : List UInt8 :=
  s.toUTF8.data.toList

theorem bytesOf_eq (s : String) : bytesOf s = s.toList.flatMap String.utf8EncodeChar := by
  have h : s.toUTF8 = (s.toList.flatMap String.utf8EncodeChar).toByteArray := by
    conv => lhs; rw [← String.ofList_toList (s := s)]
    rfl
  rw [bytesOf, h]
  simp

theorem byte_lt_iff {m n : Nat} (hm : m < 256) (hn : n < 256) :
    UInt8.ofNat m < UInt8.ofNat n ↔ m < n := by
  rw [UInt8.lt_iff_toNat_lt, UInt8.toNat_ofNat_of_lt' hm, UInt8.toNat_ofNat_of_lt' hn]

theorem byte_eq_iff {m n : Nat} (hm : m < 256) (hn : n < 256) :
    UInt8.ofNat m = UInt8.ofNat n ↔ m = n := by
  rw [← UInt8.toNat_inj, UInt8.toNat_ofNat_of_lt' hm, UInt8.toNat_ofNat_of_lt' hn]

/-- The bytes of the smaller character come first, whatever follows. -/
theorem encode_append_lt {c d : Char} (h : c < d) (x y : List UInt8) :
    String.utf8EncodeChar c ++ x < String.utf8EncodeChar d ++ y := by
  have hlt : c.val.toNat < d.val.toNat := h
  have hd : d.val.toNat < 0x110000 := by
    have := d.valid
    simp only [UInt32.isValidChar, Nat.isValidChar] at this
    omega
  unfold String.utf8EncodeChar
  generalize c.val.toNat = m at *
  generalize d.val.toNat = n at *
  -- The bytes are digits to the base 64; the first that differs decides.
  have hm₁ : m / 64 / 64 = m / 4096 := Nat.div_div_eq_div_mul m 64 64
  have hm₂ : m / 4096 / 64 = m / 262144 := Nat.div_div_eq_div_mul m 4096 64
  have hn₁ : n / 64 / 64 = n / 4096 := Nat.div_div_eq_div_mul n 64 64
  have hn₂ : n / 4096 / 64 = n / 262144 := Nat.div_div_eq_div_mul n 4096 64
  have hm₃ : m / 262144 % 8 = m / 262144 := by omega
  have hn₃ : n / 262144 % 8 = n / 262144 := by omega
  have h₁ : m / 64 < n / 64 ∨ m / 64 = n / 64 ∧ m % 64 < n % 64 := by omega
  have h₂ : m / 64 < n / 64 →
      m / 4096 < n / 4096 ∨ m / 4096 = n / 4096 ∧ m / 64 % 64 < n / 64 % 64 := by omega
  have h₃ : m / 4096 < n / 4096 →
      m / 262144 < n / 262144 ∨ m / 262144 = n / 262144 ∧ m / 4096 % 64 < n / 4096 % 64 := by omega
  dsimp only
  split_ifs <;>
    simp (disch := omega) only [List.cons_append, List.nil_append, List.cons_lt_cons_iff,
      byte_lt_iff, byte_eq_iff] <;>
    omega

theorem flatMap_encode_lt_iff (l m : List Char) :
    l.flatMap String.utf8EncodeChar < m.flatMap String.utf8EncodeChar ↔ l < m := by
  induction l generalizing m with
  | nil =>
    cases m with
    | nil => simp
    | cons d m =>
      cases h : String.utf8EncodeChar d with
      | nil => exact absurd h String.utf8EncodeChar_ne_nil
      | cons x xs => simp [h]
  | cons c l ih =>
    cases m with
    | nil => simp
    | cons d m =>
      rw [List.flatMap_cons, List.flatMap_cons, List.cons_lt_cons_iff]
      rcases Nat.lt_trichotomy c.toNat d.toNat with h | h | h
      · exact ⟨fun _ => .inl h, fun _ => encode_append_lt h _ _⟩
      · obtain rfl := Char.toNat_inj.1 h
        rw [append_lt_append_iff, ih]
        simp
      · have hlt : String.utf8EncodeChar d ++ m.flatMap String.utf8EncodeChar <
            String.utf8EncodeChar c ++ l.flatMap String.utf8EncodeChar := encode_append_lt h _ _
        refine ⟨fun h' => absurd h' (List.lt_asymm hlt), ?_⟩
        rintro (h' | ⟨rfl, -⟩)
        · exact absurd h' (Nat.lt_asymm h)
        · exact absurd h (Nat.lt_irrefl _)

/-- Texts sort as their bytes do. -/
theorem lt_iff_bytesOf (s t : String) : s < t ↔ bytesOf s < bytesOf t := by
  rw [bytesOf_eq, bytesOf_eq, flatMap_encode_lt_iff, String.lt_iff]

/-- Sorting by a text puts the smaller texts first. -/
theorem pairwise_mergeSort {α : Type} (key : α → String) (l : List α) :
    (l.mergeSort fun a b => !(key b < key a)).Pairwise fun a b => key a ≤ key b := by
  have htrans : ∀ a b c : α, (!decide (key b < key a)) = true → (!decide (key c < key b)) = true →
      (!decide (key c < key a)) = true := by
    intro a b c hab hbc
    simp only [Bool.not_eq_true', decide_eq_false_iff_not, String.not_lt] at *
    exact String.le_trans hab hbc
  have htotal : ∀ a b : α, (!decide (key b < key a) || !decide (key a < key b)) = true := by
    intro a b
    simp only [Bool.or_eq_true, Bool.not_eq_true', decide_eq_false_iff_not, String.not_lt]
    exact String.le_total (key a) (key b)
  refine (List.pairwise_mergeSort htrans htotal l).imp fun h => ?_
  simpa only [Bool.not_eq_true', decide_eq_false_iff_not, String.not_lt] using h

/-! ## Numbers of fixed width -/

open Time.Instant (padded)

/-- The last digits of a number, so many of them. -/
def lastDigits : (width n : Nat) → List Char
  | 0, _ => []
  | width + 1, n => lastDigits width (n / 10) ++ [Nat.digitChar (n % 10)]

theorem length_lastDigits (w n : Nat) : (lastDigits w n).length = w := by
  induction w generalizing n with
  | zero => rfl
  | succ w ih => simp [lastDigits, ih]

theorem lastDigits_zero (w : Nat) : lastDigits w 0 = List.replicate w '0' := by
  induction w with
  | zero => rfl
  | succ w ih =>
    rw [lastDigits, Nat.zero_div, ih, List.replicate_succ']
    rfl

theorem digitChar_lt {m n : Nat} (h : m < n) (hn : n < 10) : Nat.digitChar m < Nat.digitChar n := by
  have hall : ∀ n < 10, ∀ m < n, Nat.digitChar m < Nat.digitChar n := by decide
  exact hall n hn m h

theorem lastDigits_lt {w m n : Nat} (h : m < n) (hn : n < 10 ^ w) :
    lastDigits w m < lastDigits w n := by
  induction w generalizing m n with
  | zero => omega
  | succ w ih =>
    rw [Nat.pow_succ] at hn
    rw [lastDigits, lastDigits]
    rcases Nat.lt_or_ge (m / 10) (n / 10) with hdiv | hdiv
    · have hlen : (lastDigits w (m / 10)).length = (lastDigits w (n / 10)).length := by
        rw [length_lastDigits, length_lastDigits]
      exact append_lt_of_lt hlen (ih hdiv (by omega)) _ _
    · have hdiv : m / 10 = n / 10 := by omega
      rw [hdiv]
      refine List.append_left_lt (List.cons_lt_cons_iff.2 (.inl ?_))
      exact digitChar_lt (by omega) (by omega)

theorem toList_padded {w n : Nat} (hw : 0 < w) (hn : n < 10 ^ w) :
    (padded w n).toList = lastDigits w n := by
  have hdigits : List.replicate (w - (Nat.toDigits 10 n).length) '0' ++ Nat.toDigits 10 n =
      lastDigits w n := by
    induction w generalizing n with
    | zero => omega
    | succ w ih =>
      rcases Nat.lt_or_ge n 10 with hlt | hge
      · rw [Nat.toDigits_of_lt_base hlt, lastDigits, Nat.div_eq_of_lt hlt, lastDigits_zero,
          Nat.mod_eq_of_lt hlt]
        rfl
      · have hsplit : Nat.toDigits 10 n =
            Nat.toDigits 10 (n / 10) ++ [Nat.digitChar (n % 10)] := by
          have h := Nat.toDigits_append_toDigits (b := 10) (n := n / 10) (d := n % 10) (by decide)
            (by omega) (by omega)
          rw [Nat.toDigits_of_lt_base (by omega : n % 10 < 10), Nat.div_add_mod] at h
          exact h.symm
        have hw : 0 < w := by
          rcases Nat.eq_zero_or_pos w with rfl | hw
          · omega
          · exact hw
        rw [Nat.pow_succ] at hn
        rw [hsplit, lastDigits, ← ih hw (by omega), ← List.append_assoc]
        simp
  have hlen : (toString n).length = (Nat.toDigits 10 n).length := by
    rw [← String.length_toList, Nat.toString_eq_repr, Nat.toList_repr]
  rw [padded, hlen, String.toList_append, String.toList_ofList, Nat.toString_eq_repr,
    Nat.toList_repr, hdigits]

/-- A smaller number comes first, whatever follows. -/
theorem padded_append_lt {w m n : Nat} (hw : 0 < w) (h : m < n) (hn : n < 10 ^ w)
    (x y : List Char) : (padded w m).toList ++ x < (padded w n).toList ++ y := by
  rw [toList_padded hw (Nat.lt_trans h hn), toList_padded hw hn]
  refine append_lt_of_lt ?_ (lastDigits_lt h hn) x y
  rw [length_lastDigits, length_lastDigits]

end Sessions.Text
