import Mathlib.Data.List.Lex
import Mathlib.Data.String.Basic

/-!
# Zero-padded decimals

Numbers written with one number of digits sort as strings the way they sort as
numbers. Past that width the padding is gone and the order with it.
-/

namespace Crisp.Lib

/-- Lists of one length that differ keep their order whatever follows them. -/
theorem lt_append_of_lt {α : Type} [LT α] : ∀ {xs ys : List α} (us vs : List α),
    xs.length = ys.length → xs < ys → xs ++ us < ys ++ vs
  | [], [], _, _, _, h => by cases h
  | [], _ :: _, _, _, hlen, _ => by cases hlen
  | x :: xs, [], _, _, hlen, _ => by cases hlen
  | x :: xs, y :: ys, us, vs, hlen, h => by
      rcases h with _ | h | h
      · exact List.Lex.rel h
      · exact List.Lex.cons (lt_append_of_lt us vs (Nat.succ.inj hlen) h)

/-- The digits of a number, filled up with zeros on the left. -/
def zeroPadded (width n : Nat) : List Char :=
  List.replicate (width - (Nat.toDigits 10 n).length) '0' ++ Nat.toDigits 10 n

theorem zeroPadded_succ {width : Nat} (h : 1 ≤ width) (n : Nat) :
    zeroPadded (width + 1) n = zeroPadded width (n / 10) ++ [Nat.digitChar (n % 10)] := by
  unfold zeroPadded
  rw [Nat.toDigits_eq_if (by omega)]
  split
  · next hsmall =>
      obtain ⟨w, rfl⟩ : ∃ w, width = w + 1 := ⟨width - 1, by omega⟩
      rw [Nat.div_eq_of_lt hsmall, Nat.mod_eq_of_lt hsmall, Nat.toDigits_zero]
      simp only [List.length_singleton, Nat.add_sub_cancel]
      rw [← List.replicate_succ']
  · rw [List.length_append, List.length_singleton, Nat.add_sub_add_right, List.append_assoc]

theorem length_zeroPadded {width : Nat} (h : 1 ≤ width) :
    ∀ {n : Nat}, n < 10 ^ width → (zeroPadded width n).length = width := by
  induction width, h using Nat.le_induction with
  | base =>
      intro n hn
      unfold zeroPadded
      rw [Nat.toDigits_of_lt_base (by omega)]
      rfl
  | succ width h ih =>
      intro n hn
      rw [zeroPadded_succ h, List.length_append, ih (by rw [Nat.pow_succ] at hn; omega)]
      rfl

theorem digitChar_lt {a b : Nat} (hab : a < b) (hb : b < 10) :
    Nat.digitChar a < Nat.digitChar b := by
  have hall : ∀ b, b < 10 → ∀ a, a < b → Nat.digitChar a < Nat.digitChar b := by decide
  exact hall b hb a hab

theorem zeroPadded_lt {width : Nat} (h : 1 ≤ width) :
    ∀ {a b : Nat}, a < b → b < 10 ^ width → zeroPadded width a < zeroPadded width b := by
  induction width, h using Nat.le_induction with
  | base =>
      intro a b hab hb
      unfold zeroPadded
      rw [Nat.toDigits_of_lt_base (by omega), Nat.toDigits_of_lt_base (by omega)]
      exact List.Lex.rel (digitChar_lt hab (by omega))
  | succ width h ih =>
      intro a b hab hb
      rw [Nat.pow_succ] at hb
      rw [zeroPadded_succ h, zeroPadded_succ h]
      rcases Nat.lt_or_ge (a / 10) (b / 10) with hlt | hge
      · refine lt_append_of_lt _ _ ?_ (ih hlt (by omega))
        rw [length_zeroPadded h (by omega), length_zeroPadded h (by omega)]
      · rw [show a / 10 = b / 10 by omega]
        exact List.append_left_lt
          (List.Lex.rel (digitChar_lt (show a % 10 < b % 10 by omega) (by omega)))

/-- The padding can be read off: the number is what the digits say. -/
theorem zeroPadded_injective {width m n : Nat} (h : zeroPadded width m = zeroPadded width n) :
    m = n := by
  have hread : ∀ k, Nat.ofDigitChars 10 (zeroPadded width k) 0 = k := by
    intro k
    unfold zeroPadded
    rw [Nat.ofDigitChars_append, Nat.ofDigitChars_replicate_zero, Nat.mul_zero,
      Nat.ofDigitChars_ten_toDigits]
  rw [← hread m, ← hread n, h]

end Crisp.Lib
