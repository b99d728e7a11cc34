import Mathlib.Data.List.Basic
import WebComponents.Proofs.Json.Spelling

/-!
# The tree of a written value

A value is written as text, the text is cut into tokens, and the tokens are read into a tree.  The
tree of a written value can be told without any text (`Value.node`).  Two facts about one value in
any surroundings lead there:

* its text is cut into its own tokens, whatever follows (`tokens_compactChars`);
* the machine, where a value is due, takes these tokens and places the tree (`foldl_step_tokens`).

Inside an array or an object the parts after the first one are each led by a comma, for the tokens
as for the machine, so the induction over them starts in the state after a part.  The document of a
written value is its tree, with nothing behind it (`ofText_compact`).
-/

namespace WebComponents.Json

/-! ## Tokens and trees of values -/

mutual

/-- The tokens of a value. -/
def Value.tokens : Value → List Token
  | .null => [.scalar .null]
  | .boolean value => [.scalar (.boolean value)]
  | .string text => [.scalar (.string (.ofText text))]
  | .array items => .openArray :: itemTokens items ++ [.closeArray]
  | .object members => .openObject :: memberTokens members ++ [.closeObject]

/-- The tokens of the items of an array. -/
def itemTokens : List Value → List Token
  | [] => []
  | item :: items => item.tokens ++ laterItemTokens items

/-- The tokens of the items after the first one. -/
def laterItemTokens : List Value → List Token
  | [] => []
  | item :: items => .comma :: item.tokens ++ laterItemTokens items

/-- The tokens of the members of an object. -/
def memberTokens : List (String × Value) → List Token
  | [] => []
  | (key, value) :: members =>
    .scalar (.string (.ofText key)) :: .colon :: value.tokens ++ laterMemberTokens members

/-- The tokens of the members after the first one. -/
def laterMemberTokens : List (String × Value) → List Token
  | [] => []
  | (key, value) :: members =>
    .comma :: .scalar (.string (.ofText key)) :: .colon :: value.tokens ++
      laterMemberTokens members

end

mutual

/-- The tree of a value. -/
def Value.node : Value → Node
  | .null => .scalar .null
  | .boolean value => .scalar (.boolean value)
  | .string text => .scalar (.string (.ofText text))
  | .array items => .array (itemNodes items) .closed
  | .object members => .object (memberNodes members) .closed

/-- The trees of the items of an array. -/
def itemNodes : List Value → List Node
  | [] => []
  | item :: items => item.node :: itemNodes items

/-- The members of an object with their trees. -/
def memberNodes : List (String × Value) → List (StringLiteral × Node)
  | [] => []
  | (key, value) :: members => (.ofText key, value.node) :: memberNodes members

end

/-! ## From text to tokens -/

/-- A character that is neither a blank nor a mark begins a scalar. -/
theorem tokens_scalar {c : Char} {s rest : List Char} {scalar : Scalar}
    (hspace : isSpace c = false) (hmark : markToken? c = none)
    (hscan : scanScalar c s = (scalar, rest)) (hwhole : scalar.isWhole = true) :
    tokens (c :: s) = .scalar scalar :: tokens rest := by
  rw [tokens, hspace, hmark, hscan]
  simp only [Bool.false_eq_true, if_false, hwhole, if_true]

theorem tokens_mark {c : Char} {token : Token} (hspace : isSpace c = false)
    (hmark : markToken? c = some token) (rest : List Char) :
    tokens (c :: rest) = token :: tokens rest := by
  rw [tokens, hspace, hmark]
  rfl

theorem tokens_stringChars (text : String) (rest : List Char) :
    tokens (stringChars text ++ rest) = .scalar (.string (.ofText text)) :: tokens rest := by
  have hscan := scanScalar_stringChars text rest
  rw [stringChars, List.cons_append, List.cons_append, List.append_assoc]
  exact tokens_scalar rfl rfl hscan rfl

theorem tokens_booleanChars (value : Bool) (rest : List Char) :
    tokens (booleanChars value ++ rest) = .scalar (.boolean value) :: tokens rest := by
  cases value <;> exact tokens_scalar rfl rfl rfl rfl

theorem tokens_nullChars (rest : List Char) :
    tokens (['n', 'u', 'l', 'l'] ++ rest) = .scalar .null :: tokens rest :=
  tokens_scalar rfl rfl rfl rfl

mutual

/-- The text of a value is cut into its tokens, whatever follows. -/
theorem tokens_compactChars (value : Value) (rest : List Char) :
    tokens (value.compactChars ++ rest) = value.tokens ++ tokens rest := by
  match value with
  | .null => exact tokens_nullChars rest
  | .boolean value => exact tokens_booleanChars value rest
  | .string text => exact tokens_stringChars text rest
  | .array items =>
      simp only [Value.compactChars, Value.tokens, List.cons_append, List.append_assoc,
        List.nil_append]
      rw [tokens_mark rfl rfl, tokens_compactItems, tokens_mark rfl rfl]
  | .object members =>
      simp only [Value.compactChars, Value.tokens, List.cons_append, List.append_assoc,
        List.nil_append]
      rw [tokens_mark rfl rfl, tokens_compactMembers, tokens_mark rfl rfl]

theorem tokens_compactItems (items : List Value) (rest : List Char) :
    tokens (compactItems items ++ rest) = itemTokens items ++ tokens rest := by
  match items with
  | [] => rfl
  | [item] =>
      rw [compactItems, tokens_compactChars, itemTokens, laterItemTokens, List.append_nil]
  | item :: next :: items =>
      have hlater := tokens_compactItems (next :: items) rest
      simp only [compactItems, itemTokens, laterItemTokens, List.cons_append,
        List.append_assoc] at hlater ⊢
      rw [tokens_compactChars, tokens_mark rfl rfl, hlater]

theorem tokens_compactMembers (members : List (String × Value)) (rest : List Char) :
    tokens (compactMembers members ++ rest) = memberTokens members ++ tokens rest := by
  match members with
  | [] => rfl
  | [(key, value)] =>
      simp only [compactMembers, memberTokens, laterMemberTokens, List.cons_append,
        List.append_assoc, List.nil_append]
      rw [tokens_stringChars, tokens_mark rfl rfl, tokens_compactChars]
  | (key, value) :: next :: members =>
      have hlater := tokens_compactMembers (next :: members) rest
      simp only [compactMembers, memberTokens, laterMemberTokens, List.cons_append,
        List.append_assoc] at hlater ⊢
      rw [tokens_stringChars, tokens_mark rfl rfl, tokens_compactChars, tokens_mark rfl rfl, hlater]

end

/-! ## From tokens to a tree -/

open Reading (step place)

/-- The first token of a value closes nothing, so the first item of an array is read like any
other. -/
theorem foldl_step_firstItem (value : Value) (rest : List Token) (outer : List Frame) :
    (value.tokens ++ rest).foldl step (.firstItem outer) =
      (value.tokens ++ rest).foldl step (.value (.array [] :: outer)) := by
  cases value <;> rfl

mutual

/-- Where a value is due, its tokens place its tree. -/
theorem foldl_step_tokens (value : Value) (rest : List Token) (outer : List Frame) :
    (value.tokens ++ rest).foldl step (.value outer) =
      rest.foldl step (place value.node outer) := by
  match value with
  | .null | .boolean _ | .string _ | .array [] | .object [] => rfl
  | .array (item :: items) =>
      have hlater := foldl_step_laterItemTokens items rest [item.node] outer
      simp only [Value.tokens, itemTokens, List.cons_append, List.append_assoc, List.foldl_cons]
      exact (foldl_step_firstItem item _ outer).trans ((foldl_step_tokens item _ _).trans hlater)
  | .object ((key, value) :: members) =>
      have hlater := foldl_step_laterMemberTokens members rest [(.ofText key, value.node)] outer
      simp only [Value.tokens, memberTokens, List.cons_append, List.append_assoc, List.foldl_cons]
      exact (foldl_step_tokens value _ _).trans hlater

/-- After an item, the tokens up to the end of the array place all its items. -/
theorem foldl_step_laterItemTokens (items : List Value) (rest : List Token) (before : List Node)
    (outer : List Frame) :
    (laterItemTokens items ++ ([Token.closeArray] ++ rest)).foldl step (.afterItem before outer) =
      rest.foldl step (place (.array (before.reverse ++ itemNodes items) .closed) outer) := by
  match items with
  | [] =>
      rw [itemNodes, List.append_nil]
      rfl
  | item :: items =>
      have hlater := foldl_step_laterItemTokens items rest (item.node :: before) outer
      rw [List.reverse_cons, List.append_assoc, List.singleton_append] at hlater
      simp only [laterItemTokens, List.cons_append, List.append_assoc, List.foldl_cons]
      exact (foldl_step_tokens item _ _).trans hlater

/-- After a member, the tokens up to the end of the object place all its members. -/
theorem foldl_step_laterMemberTokens (members : List (String × Value)) (rest : List Token)
    (before : List (StringLiteral × Node)) (outer : List Frame) :
    (laterMemberTokens members ++ ([Token.closeObject] ++ rest)).foldl step
        (.afterMember before outer) =
      rest.foldl step (place (.object (before.reverse ++ memberNodes members) .closed) outer) := by
  match members with
  | [] =>
      rw [memberNodes, List.append_nil]
      rfl
  | (key, value) :: members =>
      have hlater :=
        foldl_step_laterMemberTokens members rest ((.ofText key, value.node) :: before) outer
      rw [List.reverse_cons, List.append_assoc, List.singleton_append] at hlater
      simp only [laterMemberTokens, List.cons_append, List.append_assoc, List.foldl_cons]
      exact (foldl_step_tokens value _ _).trans hlater

end

/-! ## The document -/

/-- A written value is read as its tree, and the text ends there. -/
theorem ofText_compact (value : Value) : Document.ofText value.compact = ⟨value.node, false⟩ := by
  have htokens := tokens_compactChars value []
  rw [List.append_nil, tokens] at htokens
  rw [Document.ofText, Value.compact, String.toList_ofList, htokens, foldl_step_tokens]
  rfl

end WebComponents.Json
