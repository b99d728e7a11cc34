import Mathlib.Data.List.Basic
import Mathlib.Data.List.Induction
import WebComponents.Exports.NameCounts

/-!
# Numbered names and where they meet

A numbered name is the name itself or the name with a decimal numeral after it.  Under one name
different numbers give different texts (`numbered_inj`).  Two names can meet, as in

```text
Size  with 1        Size1
Size1 with 0        Size1
Size  with 12       Size12
Size1 with 2        Size12
```

but only if one of them is a numbered form of the other (`numbered_meet`).  The reason is that a
numeral which ends with another numeral begins with a numeral as well, and a smaller one
(`exists_numeral_of_append`): numerals have no leading zero.  Without that, they are all the digit
strings there are (`isNumeral_iff`).
-/

namespace WebComponents.Exports.NameCounts

/-! ## Numerals -/

theorem toDigits_inj {i j : Nat} (h : Nat.toDigits 10 i = Nat.toDigits 10 j) : i = j := by
  have hread := congrArg (fun digits => Nat.ofDigitChars 10 digits 0) h
  simpa using hread

theorem toDigits_ge {i : Nat} {s : List Char} {c : Char} (hs : s ≠ [])
    (h : Nat.toDigits 10 i = s ++ [c]) : 10 ≤ i := by
  by_contra hlt
  rw [Nat.toDigits_of_lt_base (by omega)] at h
  have hlength := congrArg List.length h
  have hpos := List.length_pos_iff.mpr hs
  simp only [List.length_append, List.length_cons, List.length_nil] at hlength
  omega

/-- What stands before a numeral in a longer numeral is a numeral. -/
theorem exists_numeral_of_append {i j : Nat} {s : List Char} (hs : s ≠ [])
    (h : Nat.toDigits 10 i = s ++ Nat.toDigits 10 j) :
    ∃ k, 0 < k ∧ k < i ∧ s = Nat.toDigits 10 k := by
  induction j using Nat.strongRecOn generalizing i with
  | ind j ih =>
      rcases Nat.lt_or_ge j 10 with hj | hj
      · -- the last numeral is a single digit
        rw [Nat.toDigits_of_lt_base hj] at h
        have hi : 10 ≤ i := toDigits_ge hs h
        rw [Nat.toDigits_of_base_le (by omega) hi] at h
        exact ⟨i / 10, by omega, by omega, (List.append_inj' h rfl).1.symm⟩
      · -- both numerals lose their last digit
        rw [Nat.toDigits_of_base_le (by omega) hj, ← List.append_assoc] at h
        have hi : 10 ≤ i := toDigits_ge (by simp [hs]) h
        rw [Nat.toDigits_of_base_le (by omega) hi] at h
        obtain ⟨k, hpos, hlt, hk⟩ := ih (j / 10) (by omega) (List.append_inj' h rfl).1
        exact ⟨k, hpos, by omega, hk⟩

/-- Decimal digits, at least one, of which the first is not zero. -/
def IsNumeral (s : List Char) : Prop :=
  s ≠ [] ∧ (∀ c ∈ s, c.isDigit = true) ∧ s.head? ≠ some '0'

theorem head?_toDigits {k : Nat} (hk : 0 < k) : (Nat.toDigits 10 k).head? ≠ some '0' := by
  induction k using Nat.strongRecOn with
  | ind k ih =>
      rcases Nat.lt_or_ge k 10 with hlt | hge
      · rw [Nat.toDigits_of_lt_base hlt, List.head?_singleton, Ne, Option.some_inj]
        intro hzero
        have hcode := congrArg Char.toNat hzero
        rw [Nat.toNat_digitChar_of_lt_ten hlt] at hcode
        have hfirst : '0'.toNat = 48 := rfl
        omega
      · rw [Nat.toDigits_of_base_le (by omega) hge,
          List.head?_append_of_ne_nil _ Nat.toDigits_ne_nil]
        exact ih (k / 10) (by omega) (by omega)

theorem digitChar_of_isDigit {c : Char} (h : c.isDigit = true) :
    c.toNat - 48 < 10 ∧ Nat.digitChar (c.toNat - 48) = c := by
  have hbounds : 48 ≤ c.toNat ∧ c.toNat ≤ 57 := by
    simpa [Char.isDigit, UInt32.le_iff_toNat_le] using h
  refine ⟨by omega, Char.toNat_inj.mp ?_⟩
  rw [Nat.toNat_digitChar_of_lt_ten (by omega)]
  omega

/-- The numerals are what the positive numbers are written with. -/
theorem isNumeral_iff {s : List Char} : IsNumeral s ↔ ∃ k, 0 < k ∧ s = Nat.toDigits 10 k := by
  constructor
  · rintro ⟨hne, hdigits, hzero⟩
    -- the last digit counts one, and what stands before it is nothing or a numeral
    induction s using List.reverseRecOn with
    | nil => exact absurd rfl hne
    | append_singleton s c ih =>
        obtain ⟨hlt, hc⟩ := digitChar_of_isDigit (hdigits c (by simp))
        by_cases hs : s = []
        · refine ⟨c.toNat - 48, Nat.pos_of_ne_zero fun hdigit => ?_, ?_⟩
          · rw [hdigit] at hc
            rw [hs, ← hc] at hzero
            exact hzero rfl
          · rw [Nat.toDigits_of_lt_base hlt, hc, hs, List.nil_append]
        · rw [List.head?_append_of_ne_nil s hs] at hzero
          obtain ⟨k, hk, heq⟩ := ih hs (fun d hd => hdigits d (List.mem_append_left _ hd)) hzero
          have hlonger := Nat.toDigits_append_toDigits (b := 10) (by omega) hk hlt
          rw [Nat.toDigits_of_lt_base hlt, hc] at hlonger
          exact ⟨10 * k + (c.toNat - 48), by omega, by rw [heq, hlonger]⟩
  · rintro ⟨k, hk, rfl⟩
    exact ⟨Nat.toDigits_ne_nil,
      fun c hc => Nat.isDigit_of_mem_toDigits (by omega) (by omega) hc, head?_toDigits hk⟩

/-! ## Numbered names -/

theorem numbered_zero (name : String) : numbered name 0 = name := rfl

theorem toList_numbered {n : Nat} (name : String) (hn : n ≠ 0) :
    (numbered name n).toList = name.toList ++ Nat.toDigits 10 n := by
  unfold numbered
  rw [if_neg hn, String.toList_append, Nat.toString_eq_repr, Nat.toList_repr]

theorem numbered_eq_self_iff {name : String} {n : Nat} : numbered name n = name ↔ n = 0 := by
  constructor
  · intro h
    by_contra hn
    have hlist := congrArg String.toList h
    rw [toList_numbered name hn] at hlist
    exact Nat.toDigits_ne_nil (List.append_right_eq_self.mp hlist)
  · rintro rfl
    exact numbered_zero name

/-- A numbered name begins with the name. -/
theorem toList_prefix_numbered (name : String) (n : Nat) :
    name.toList <+: (numbered name n).toList := by
  by_cases hn : n = 0
  · have hname : numbered name n = name := by rw [hn, numbered_zero]
    exact hname.symm ▸ List.prefix_rfl
  · rw [toList_numbered name hn]
    exact List.prefix_append _ _

theorem length_lt_numbered {name : String} {n : Nat} (h : numbered name n ≠ name) :
    name.toList.length < (numbered name n).toList.length := by
  rw [Ne, numbered_eq_self_iff] at h
  rw [toList_numbered name h, List.length_append]
  exact Nat.lt_add_of_pos_right Nat.length_toDigits_pos

theorem numbered_inj {name : String} {i j : Nat} : numbered name i = numbered name j ↔ i = j := by
  refine ⟨fun h => ?_, fun h => h ▸ rfl⟩
  by_cases hi : i = 0
  · rw [hi, numbered_zero] at h
    rw [hi, numbered_eq_self_iff.mp h.symm]
  by_cases hj : j = 0
  · rw [hj, numbered_zero] at h
    rw [hj, numbered_eq_self_iff.mp h]
  have hlist := congrArg String.toList h
  rw [toList_numbered name hi, toList_numbered name hj] at hlist
  exact toDigits_inj (List.append_cancel_left hlist)

theorem numbered_ne_empty {name : String} (hname : name ≠ "") (n : Nat) :
    numbered name n ≠ "" := by
  intro hempty
  have hstarts := toList_prefix_numbered name n
  rw [hempty, String.toList_empty, List.prefix_nil, String.toList_eq_nil_iff] at hstarts
  exact hname hstarts

/-- The longer of two names that meet is a numbered form of the shorter. -/
theorem eq_numbered_of_append {name other : String} {i j : Nat} {s : List Char} (hs : s ≠ [])
    (hother : other.toList = name.toList ++ s) (h : numbered name i = numbered other j) :
    ∃ k, 0 < k ∧ k ≤ i ∧ other = numbered name k := by
  have hlist := congrArg String.toList h
  have hi : i ≠ 0 := by
    rintro rfl
    have hle := (toList_prefix_numbered other j).length_le
    have hpos := List.length_pos_iff.mpr hs
    rw [← hlist, numbered_zero, hother, List.length_append] at hle
    omega
  by_cases hj : j = 0
  · rw [hj, numbered_zero] at h
    exact ⟨i, by omega, Nat.le_refl i, h.symm⟩
  · rw [toList_numbered name hi, toList_numbered other hj, hother, List.append_assoc] at hlist
    obtain ⟨k, hpos, hlt, hk⟩ := exists_numeral_of_append hs (List.append_cancel_left hlist)
    refine ⟨k, hpos, Nat.le_of_lt hlt, String.toList_inj.mp ?_⟩
    rw [toList_numbered name (by omega), hother, hk]

/-- Two names meet only if one is a numbered form of the other, with a number that was handed out
no later. -/
theorem numbered_meet {name other : String} {i j : Nat} (hne : name ≠ other)
    (h : numbered name i = numbered other j) :
    (∃ k, 0 < k ∧ k ≤ i ∧ other = numbered name k) ∨
      ∃ k, 0 < k ∧ k ≤ j ∧ name = numbered other k := by
  have hname : name.toList <+: (numbered name i).toList := toList_prefix_numbered name i
  have hother : other.toList <+: (numbered name i).toList := h ▸ toList_prefix_numbered other j
  have hlists : name.toList ≠ other.toList := fun heq => hne (String.toList_inj.mp heq)
  rcases List.prefix_or_prefix_of_prefix hname hother with ⟨s, hs⟩ | ⟨s, hs⟩
  · refine Or.inl (eq_numbered_of_append ?_ hs.symm h)
    rintro rfl
    exact hlists (by rw [← hs, List.append_nil])
  · refine Or.inr (eq_numbered_of_append ?_ hs.symm h.symm)
    rintro rfl
    exact hlists (by rw [← hs, List.append_nil])

end WebComponents.Exports.NameCounts
