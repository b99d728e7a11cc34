import WebComponents.Text.Case

/-!
# Letters of ASCII texts

The tables of the Unicode database are not reached below 128: there each character has one small and
one capital form, and a text is put in small letters character by character (`lower_of_isAscii`).
What is left are finitely many codes, so that a fact about one character is decided
(`forall_ascii`).
-/

namespace WebComponents.Text

variable {s : List Char} {c : Char}

/-! ## Single characters -/

/-- A fact about all codes below 128 is one about all ASCII characters. -/
@[elab_as_elim]
theorem forall_ascii {motive : Char → Prop} (c : Char) (hc : c.toNat < 128)
    (h : ∀ code < 128, motive (Char.ofNat code)) : motive c := by
  have hcode := h c.toNat hc
  rwa [Char.ofNat_toNat] at hcode

theorem upperChar_of_ascii (h : c.toNat < 128) : upperChar c = [c.toUpper] :=
  if_pos h

theorem lowerChar_of_ascii (h : c.toNat < 128) : lowerChar c = [c.toLower] :=
  if_pos h

theorem toNat_toLower_lt (h : c.toNat < 128) : c.toLower.toNat < 128 :=
  forall_ascii c h (by decide)

theorem toUpper_toLower (h : c.toNat < 128) : c.toLower.toUpper = c.toUpper :=
  forall_ascii c h (by decide)

theorem toLower_toUpper (h : c.toNat < 128) : c.toUpper.toLower = c.toLower :=
  forall_ascii c h (by decide)

theorem isAlphanum_toUpper (h : c.toNat < 128) : c.toUpper.isAlphanum = c.isAlphanum :=
  forall_ascii c h (by decide)

theorem isAlphanum_iff :
    c.isAlphanum = true ↔ (c.isUpper = true ∨ c.isLower = true) ∨ c.isDigit = true := by
  have hparts : c.isAlphanum = (c.isUpper || c.isLower || c.isDigit) := rfl
  rw [hparts, Bool.or_eq_true, Bool.or_eq_true]

theorem toNat_lt_of_isAlphanum (h : c.isAlphanum = true) : c.toNat < 128 := by
  have hbelow {last : Char} (hc : c.val ≤ last.val) (hlast : last.toNat < 128) : c.toNat < 128 :=
    Nat.lt_of_le_of_lt hc hlast
  rcases isAlphanum_iff.mp h with (hupper | hlower) | hdigit
  · have hc : 'A'.val ≤ c.val ∧ c.val ≤ 'Z'.val := of_decide_eq_true hupper
    exact hbelow hc.2 (by decide)
  · have hc : c.val ≤ 'z'.val := of_decide_eq_true (Bool.and_eq_true_iff.mp hlower).2
    exact hbelow hc (by decide)
  · have hc : c.val ≤ '9'.val := of_decide_eq_true (Bool.and_eq_true_iff.mp hdigit).2
    exact hbelow hc (by decide)

/-! ## Small letters -/

/-- All characters are ASCII. -/
def IsAscii (s : List Char) : Prop :=
  ∀ c ∈ s, c.toNat < 128

instance : DecidablePred IsAscii := fun s =>
  List.decidableBAll (fun c : Char => c.toNat < 128) s

theorem lower_of_isAscii (h : IsAscii s) : lower s = s.map Char.toLower := by
  suffices hafter : ∀ before, lowerAfter before s = s.map Char.toLower from hafter []
  induction s with
  | nil => exact fun _ => rfl
  | cons c s ih =>
      intro before
      obtain ⟨hc, hs⟩ := List.forall_mem_cons.mp h
      -- the only small form that depends on the place in the text is that of sigma
      have hsigma : c ≠ 'Σ' := by
        rintro rfl
        exact absurd hc (by decide)
      rw [lowerAfter, if_neg hsigma, lowerChar_of_ascii hc, ih hs, List.map_cons]
      rfl

theorem lower_eq_self_iff (h : IsAscii s) : lower s = s ↔ ∀ c ∈ s, c.toLower = c := by
  calc lower s = s
      ↔ s.map Char.toLower = s.map id := by rw [lower_of_isAscii h, List.map_id]
    _ ↔ ∀ c ∈ s, c.toLower = c := List.map_inj_left

theorem isAscii_map_toLower (h : IsAscii s) : IsAscii (s.map Char.toLower) := by
  intro c hc
  obtain ⟨d, hd, rfl⟩ := List.mem_map.mp hc
  exact toNat_toLower_lt (h d hd)

end WebComponents.Text
