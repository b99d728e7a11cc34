import Mathlib.Data.List.Basic
import WebComponents.Json.Reader
import WebComponents.Proofs.Outcome

/-!
# Values that nobody refuses

A part of a text that is not asked for is passed over or kept for later.  Passing over refuses
faults only; keeping also refuses a string without a text, a number without a value and too many
levels of brackets.  `Node.IsSound` says that the tree has none of these but the last, and
`Node.depth` counts its levels, so that a sound tree is passed over anywhere (`IsSound.skip`) and
kept wherever its levels may be entered (`IsSound.keep`).
-/

namespace WebComponents.Json

/-! ## Levels of brackets -/

mutual

/-- The number of nested brackets. -/
def Node.depth : Node → Nat
  | .scalar _ => 0
  | .array items _ => itemsDepth items + 1
  | .object members _ => membersDepth members + 1

/-- The largest depth of an item. -/
def itemsDepth : List Node → Nat
  | [] => 0
  | item :: items => max item.depth (itemsDepth items)

/-- The largest depth of a value. -/
def membersDepth : List (StringLiteral × Node) → Nat
  | [] => 0
  | (_, value) :: members => max value.depth (membersDepth members)

end

theorem depth_le_itemsDepth {item : Node} {items : List Node} (h : item ∈ items) :
    item.depth ≤ itemsDepth items := by
  induction items with
  | nil => cases h
  | cons first items ih =>
      rw [itemsDepth]
      cases h with
      | head => exact Nat.le_max_left _ _
      | tail _ hlater => exact Nat.le_trans (ih hlater) (Nat.le_max_right _ _)

theorem depth_le_membersDepth {member : StringLiteral × Node}
    {members : List (StringLiteral × Node)} (h : member ∈ members) :
    member.2.depth ≤ membersDepth members := by
  induction members with
  | nil => cases h
  | cons first members ih =>
      rw [membersDepth]
      cases h with
      | head => exact Nat.le_max_left _ _
      | tail _ hlater => exact Nat.le_trans (ih hlater) (Nat.le_max_right _ _)

theorem enter_eq_ok_iff {levels inner : Nat} :
    enter levels = .ok inner ↔ 1 < levels ∧ inner = levels - 1 := by
  rw [enter]
  split
  · constructor
    · intro h
      cases h
    · rintro ⟨hlevels, _⟩
      omega
  · constructor
    · intro h
      cases h
      exact ⟨by omega, rfl⟩
    · rintro ⟨_, rfl⟩
      rfl

/-- The levels that suffice for an array suffice inside it. -/
theorem depth_lt_of_mem_items {levels inner : Nat} {items : List Node} {ending : Ending}
    (hdepth : (Node.array items ending).depth < levels) (hinner : enter levels = .ok inner)
    {item : Node} (h : item ∈ items) : item.depth < inner := by
  rw [Node.depth] at hdepth
  have hitem := depth_le_itemsDepth h
  obtain ⟨_, rfl⟩ := enter_eq_ok_iff.mp hinner
  omega

/-- The levels that suffice for an object suffice inside it. -/
theorem depth_lt_of_mem_members {levels inner : Nat} {members : List (StringLiteral × Node)}
    {ending : Ending} (hdepth : (Node.object members ending).depth < levels)
    (hinner : enter levels = .ok inner) {member : StringLiteral × Node} (h : member ∈ members) :
    member.2.depth < inner := by
  rw [Node.depth] at hdepth
  have hmember := depth_le_membersDepth h
  obtain ⟨_, rfl⟩ := enter_eq_ok_iff.mp hinner
  omega

/-! ## Sound values -/

/-- The string has a text: it is closed and no half of a pair of code units stands alone. -/
def StringLiteral.IsSound (literal : StringLiteral) : Prop :=
  ∃ text, literal.read = .ok text

/-- The scalar has a value. -/
def Scalar.IsSound : Scalar → Prop
  | .number numeral => ∃ number, numeral.read = .ok number
  | .string literal => literal.IsSound
  | .broken _ => False
  | _ => True

/-- All parts of the tree have values and are closed. -/
inductive Node.IsSound : Node → Prop
  | scalar {scalar : Scalar} (h : scalar.IsSound) : IsSound (.scalar scalar)
  | array {items : List Node} (h : ∀ item ∈ items, IsSound item) : IsSound (.array items .closed)
  | object {members : List (StringLiteral × Node)} (hkeys : ∀ member ∈ members, member.1.IsSound)
      (hvalues : ∀ member ∈ members, IsSound member.2) : IsSound (.object members .closed)

/-- The characters of a string are asked for up to its end, so that a fault there is met. -/
theorem fault?_eq_none_of_glyphChars {final? : Option Fault} {glyphs : List Glyph}
    {chars : List Char} (h : glyphChars final? glyphs = .ok chars) : final? = none := by
  fun_induction glyphChars final? glyphs generalizing chars with
  | case1 hfinal => exact hfinal
  | case2 => cases h
  | case3 c rest ih =>
      obtain ⟨_, hrest, _⟩ := bind_eq_ok_iff.mp h
      exact ih hrest
  | case4 => cases h
  | case5 code _ _ trail rest _ ih =>
      obtain ⟨_, hrest, _⟩ := bind_eq_ok_iff.mp h
      exact ih hrest
  | case6 => cases h
  | case7 => cases h
  | case8 => cases h
  | case9 code rest _ _ ih =>
      obtain ⟨_, hrest, _⟩ := bind_eq_ok_iff.mp h
      exact ih hrest

theorem StringLiteral.IsSound.fault?_eq_none {literal : StringLiteral} (h : literal.IsSound) :
    literal.fault? = none := by
  obtain ⟨text, h⟩ := h
  rw [StringLiteral.read] at h
  cases htext : literal.text with
  | error fault =>
      rw [htext] at h
      cases h
  | ok text =>
      obtain ⟨_, hchars, _⟩ := bind_eq_ok_iff.mp htext
      exact fault?_eq_none_of_glyphChars hchars

theorem Scalar.IsSound.fault?_eq_none {scalar : Scalar} (h : scalar.IsSound) :
    scalar.fault? = none := by
  cases scalar with
  | string literal => exact StringLiteral.IsSound.fault?_eq_none h
  | broken fault => exact h.elim
  | null => rfl
  | boolean value => rfl
  | number numeral => rfl

/-! ## Passing over -/

theorem itemsFault?_eq_none {items : List Node} (h : ∀ item ∈ items, item.fault? = none) :
    itemsFault? items = none := by
  induction items with
  | nil => rfl
  | cons item items ih =>
      rw [List.forall_mem_cons] at h
      rw [itemsFault?, h.1, Option.none_or]
      exact ih h.2

theorem membersFault?_eq_none {members : List (StringLiteral × Node)}
    (hkeys : ∀ member ∈ members, member.1.fault? = none)
    (hvalues : ∀ member ∈ members, member.2.fault? = none) : membersFault? members = none := by
  induction members with
  | nil => rfl
  | cons member members ih =>
      rw [List.forall_mem_cons] at hkeys hvalues
      rw [membersFault?, hkeys.1, hvalues.1, Option.none_or, Option.none_or]
      exact ih hkeys.2 hvalues.2

theorem Node.IsSound.fault?_eq_none {node : Node} (h : node.IsSound) : node.fault? = none := by
  induction h with
  | scalar h => exact h.fault?_eq_none
  | array _ ih =>
      -- no item has a fault, and the array is closed
      rw [Node.fault?, itemsFault?_eq_none ih]
      rfl
  | object hkeys _ ih =>
      rw [Node.fault?, membersFault?_eq_none (fun member h => (hkeys member h).fault?_eq_none) ih]
      rfl

/-- A sound value is passed over. -/
theorem Node.IsSound.skip {node : Node} (h : node.IsSound) : node.skip = .ok () := by
  rw [Node.skip, h.fault?_eq_none]

/-! ## Keeping -/

theorem Scalar.IsSound.exists_found {scalar : Scalar} (h : scalar.IsSound) :
    ∃ found, Node.found (.scalar scalar) = .ok found := by
  cases scalar with
  | null => exact ⟨_, rfl⟩
  | boolean value => exact ⟨_, rfl⟩
  | broken fault => exact h.elim
  | number numeral =>
      obtain ⟨number, h⟩ := h
      exact ⟨.number number, bind_eq_ok_iff.mpr ⟨number, h, rfl⟩⟩
  | string literal =>
      obtain ⟨text, h⟩ := h
      exact ⟨.string text, bind_eq_ok_iff.mpr ⟨text, h, rfl⟩⟩

theorem keepItems_eq_ok {levels : Nat} {items : List Node}
    (h : ∀ item ∈ items, item.keep levels = .ok ()) : keepItems levels items = .ok () := by
  induction items with
  | nil => rfl
  | cons item items ih =>
      rw [List.forall_mem_cons] at h
      rw [keepItems, h.1, ok_bind]
      exact ih h.2

theorem keepMembers_eq_ok {levels : Nat} {members : List (StringLiteral × Node)}
    (hkeys : ∀ member ∈ members, member.1.IsSound)
    (hvalues : ∀ member ∈ members, member.2.keep levels = .ok ()) :
    keepMembers levels members = .ok () := by
  induction members with
  | nil => rfl
  | cons member members ih =>
      rw [List.forall_mem_cons] at hkeys hvalues
      obtain ⟨name, hname⟩ := hkeys.1
      rw [keepMembers, hname, ok_bind, hvalues.1, ok_bind]
      exact ih hkeys.2 hvalues.2

/-- A sound value is kept where all its levels may be entered. -/
theorem Node.IsSound.keep {node : Node} (h : node.IsSound) {levels : Nat}
    (hdepth : node.depth < levels) : node.keep levels = .ok () := by
  induction h generalizing levels with
  | scalar h =>
      obtain ⟨found, h⟩ := h.exists_found
      rw [Node.keep, h]
      rfl
  | @array items _ ih =>
      have hlevels : 1 < levels := by
        rw [Node.depth] at hdepth
        omega
      have hitems : keepItems (levels - 1) items = .ok () := by
        refine keepItems_eq_ok fun item hitem => ih item hitem ?_
        exact depth_lt_of_mem_items hdepth (enter_eq_ok_iff.mpr ⟨hlevels, rfl⟩) hitem
      rw [Node.keep, if_neg (by omega), hitems]
      rfl
  | @object members hkeys _ ih =>
      have hlevels : 1 < levels := by
        rw [Node.depth] at hdepth
        omega
      have hmembers : keepMembers (levels - 1) members = .ok () := by
        refine keepMembers_eq_ok hkeys fun member hmember => ih member hmember ?_
        exact depth_lt_of_mem_members hdepth (enter_eq_ok_iff.mpr ⟨hlevels, rfl⟩) hmember
      rw [Node.keep, if_neg (by omega), hmembers]
      rfl

end WebComponents.Json
