import Mathlib.Data.List.Lex
import TagTemplate.Registry

/-!
# The order of texts by their bytes

Texts are compared by their characters. The bytes of a character grow with its number, and those of
one character are never the beginning of those of another, so texts compare as their bytes do
(`textBytes_lt`).
-/

namespace TagTemplate

/-- The bytes of a text. -/
def textBytes (s : String) : List UInt8 :=
  s.toUTF8.data.toList

/-- The bytes of a text are those of its characters, one after the other. -/
theorem textBytes_eq_flatMap (s : String) :
    textBytes s = s.toList.flatMap String.utf8EncodeChar := by
  conv => lhs; rw [← String.ofList_toList (s := s)]
  rw [textBytes, String.toUTF8_eq_toByteArray, String.toByteArray_ofList, List.utf8Encode,
    List.data_toByteArray]

/-- A byte after the first one of a character holds six binary places. -/
def laterByte (n : Nat) : UInt8 :=
  .ofNat (n % 64 + 128)

/-- A smaller byte decides, whatever follows it. -/
theorem ofNat_cons_lt {a b : Nat} (hab : a < b) (hb : b < 256) (xs ys : List UInt8) :
    UInt8.ofNat a :: xs < UInt8.ofNat b :: ys := by
  refine List.cons_lt_cons_iff.2 (.inl ?_)
  rw [UInt8.lt_iff_toNat_lt, UInt8.toNat_ofNat', UInt8.toNat_ofNat']
  omega

/-- If the bytes before compare as the places above do, then with one more byte the bytes compare as
the numbers do. -/
theorem append_laterByte_lt {m n : Nat} (hmn : m < n) {p q : List UInt8}
    (hlt : m / 64 < n / 64 → ∀ xs ys, p ++ xs < q ++ ys) (heq : m / 64 = n / 64 → p = q)
    (xs ys : List UInt8) : p ++ [laterByte m] ++ xs < q ++ [laterByte n] ++ ys := by
  rw [List.append_assoc, List.append_assoc]
  rcases Nat.lt_or_ge (m / 64) (n / 64) with h | h
  · exact hlt h _ _
  · have hsame : m / 64 = n / 64 := by omega
    obtain rfl := heq hsame
    exact List.append_left_lt (ofNat_cons_lt (by omega) (by omega) xs ys)

/-- The bytes of a greater character are greater, whatever follows them. -/
theorem utf8EncodeChar_lt {c d : Char} (h : c < d) (xs ys : List UInt8) :
    String.utf8EncodeChar c ++ xs < String.utf8EncodeChar d ++ ys := by
  have hlt : c.val.toNat < d.val.toNat := UInt32.lt_iff_toNat_lt.1 h
  have hd : d.val.toNat < 1114112 := by
    have := d.valid
    simp only [UInt32.isValidChar, Nat.isValidChar] at this
    omega
  have hdiv (n : Nat) : n / 4096 = n / 64 / 64 ∧ n / 262144 = n / 64 / 64 / 64 := by omega
  unfold String.utf8EncodeChar
  simp only [hdiv]
  generalize c.val.toNat = m at hlt
  generalize d.val.toNat = n at hlt hd
  -- the first byte tells how many follow, and more follow for greater numbers
  rcases Nat.lt_or_ge 127 m with h₁ | h₁
  · rw [if_neg (by omega), if_neg (c := n ≤ 127) (by omega)]
    rcases Nat.lt_or_ge 2047 m with h₂ | h₂
    · rw [if_neg (by omega), if_neg (c := n ≤ 2047) (by omega)]
      rcases Nat.lt_or_ge 65535 m with h₃ | h₃
      · rw [if_neg (by omega), if_neg (c := n ≤ 65535) (by omega)]
        refine append_laterByte_lt hlt (fun h => append_laterByte_lt h (fun h =>
          append_laterByte_lt h (p := [_]) (q := [_]) (fun h => ofNat_cons_lt ?_ ?_) ?_) ?_) ?_ _ _
        · omega
        · omega
        all_goals intro h; rw [h]
      · rw [if_pos (by omega)]
        split_ifs
        · refine append_laterByte_lt hlt (fun h => append_laterByte_lt h (p := [_]) (q := [_])
            (fun h => ofNat_cons_lt ?_ ?_) ?_) ?_ _ _
          · omega
          · omega
          all_goals intro h; rw [h]
        · exact ofNat_cons_lt (by omega) (by omega) _ _
    · rw [if_pos (by omega)]
      split_ifs
      · refine append_laterByte_lt hlt (p := [_]) (q := [_]) (fun h => ofNat_cons_lt ?_ ?_) ?_ _ _
        · omega
        · omega
        · exact fun h => by rw [h]
      all_goals exact ofNat_cons_lt (by omega) (by omega) _ _
  · rw [if_pos h₁]
    split_ifs <;> exact ofNat_cons_lt (by omega) (by omega) _ _

/-- Greater texts have greater bytes. -/
theorem flatMap_utf8EncodeChar_lt {cs ds : List Char} (h : cs < ds) :
    cs.flatMap String.utf8EncodeChar < ds.flatMap String.utf8EncodeChar := by
  induction cs generalizing ds with
  | nil =>
    cases ds with
    | nil => exact absurd h (List.lt_irrefl _)
    | cons d ds =>
      cases hbytes : String.utf8EncodeChar d with
      | nil => exact absurd hbytes String.utf8EncodeChar_ne_nil
      | cons b bytes =>
        rw [List.flatMap_cons, hbytes]
        exact List.nil_lt_cons b _
  | cons c cs ih =>
    cases ds with
    | nil => exact absurd h (List.not_lt_nil _)
    | cons d ds =>
      rw [List.flatMap_cons, List.flatMap_cons]
      rcases List.cons_lt_cons_iff.1 h with hcd | ⟨rfl, hrest⟩
      · exact utf8EncodeChar_lt hcd _ _
      · exact List.append_left_lt (ih hrest)

/-- A text that comes before another in the order of characters does so in the order of bytes. -/
theorem textBytes_lt {s t : String} (h : s < t) : textBytes s < textBytes t := by
  rw [textBytes_eq_flatMap, textBytes_eq_flatMap]
  exact flatMap_utf8EncodeChar_lt h

end TagTemplate
