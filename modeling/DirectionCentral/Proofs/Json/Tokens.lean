import DirectionCentral.Json.Reader

/-!
# The tokens of a value

A value has one list of tokens, and reading them gives the value (`ofTokens?_tokens`). The induction
follows the value; what is proved of its tokens holds before any other tokens and inside any arrays
and objects that are still open.
-/

namespace DirectionCentral.Json

/-- Lists of tokens with commas between neighbours. -/
def commaSeparated : List (List Token) → List Token
  | [] => []
  | first :: rest => first ++ rest.flatMap (Token.comma :: ·)

/-- The tokens of a value. -/
def tokens : Json → List Token
  | .array items => .openArray :: (commaSeparated (items.map tokens) ++ [.closeArray])
  | .object members =>
    .openObject ::
      (commaSeparated (members.map fun m => .string m.1 :: .colon :: tokens m.2) ++ [.closeObject])
  | .string text => [.string text]
  | value => [.literal value]
termination_by value => sizeOf value
decreasing_by
  · decreasing_trivial
  · have := List.sizeOf_lt_of_mem ‹_ ∈ members›
    cases m
    simp_all
    omega

/-- Wherever a value is expected its tokens are read as the value. -/
def Readable (value : Json) : Prop :=
  ∀ (stack : List Frame) (rest : List Token),
    ofTokensFrom? .value stack (tokens value ++ rest) = ofTokensFrom? (.after value) stack rest

/-- The tokens of a value do not begin with a bracket that closes, so that after the bracket that
opens an array they are those of its first item. -/
theorem ofTokensFrom?_firstItem (value : Json) (stack : List Frame) (rest : List Token) :
    ofTokensFrom? .firstItem stack (tokens value ++ rest) =
      ofTokensFrom? .value (.array [] :: stack) (tokens value ++ rest) := by
  cases value <;> rw [tokens] <;> first | rfl | (intros; contradiction)

/-- The items after the first one are read to the end of their array. -/
theorem ofTokensFrom?_items {items : List Json} (readable : ∀ item ∈ items, Readable item)
    (value : Json) (before : List Json) (stack : List Frame) (rest : List Token) :
    ofTokensFrom? (.after value) (.array before :: stack)
        ((items.map tokens).flatMap (Token.comma :: ·) ++ .closeArray :: rest) =
      ofTokensFrom? (.after (.array ((value :: before).reverse ++ items))) stack rest := by
  induction items generalizing value before with
  | nil => simp [ofTokensFrom?, advance?, continue?]
  | cons item items ih =>
    obtain ⟨first, others⟩ := List.forall_mem_cons.1 readable
    have later := ih others item (value :: before)
    rw [List.map_cons, List.flatMap_cons, List.append_assoc, List.cons_append]
    change ofTokensFrom? .value (.array (value :: before) :: stack) (tokens item ++ _) = _
    rw [first, later]
    simp

/-- The members after the first one are read to the end of their object. -/
theorem ofTokensFrom?_members {members : List (Option String × Json)}
    (readable : ∀ m ∈ members, Readable m.2) (value : Json) (name : Option String)
    (before : List (Option String × Json)) (stack : List Frame) (rest : List Token) :
    ofTokensFrom? (.after value) (.object before name :: stack)
        ((members.map fun m => .string m.1 :: .colon :: tokens m.2).flatMap (Token.comma :: ·) ++
          .closeObject :: rest) =
      ofTokensFrom? (.after (.object (((name, value) :: before).reverse ++ members)))
        stack rest := by
  induction members generalizing value name before with
  | nil => simp [ofTokensFrom?, advance?, continue?]
  | cons m members ih =>
    obtain ⟨first, others⟩ := List.forall_mem_cons.1 readable
    have later := ih others m.2 m.1 ((name, value) :: before)
    rw [List.map_cons, List.flatMap_cons, List.append_assoc, List.cons_append, List.cons_append,
      List.cons_append]
    change ofTokensFrom? .value (.object ((name, value) :: before) m.1 :: stack)
      (tokens m.2 ++ _) = _
    rw [first, later]
    simp

/-- Every value is read from its tokens. -/
theorem readable (value : Json) : Readable value := by
  induction value using tokens.induct with
  | case1 items ih =>
    intro stack rest
    rw [tokens]
    cases items with
    | nil => rfl
    | cons item items =>
      obtain ⟨first, others⟩ := List.forall_mem_cons.1 ih
      have later := ofTokensFrom?_items others item [] stack rest
      rw [List.map_cons, commaSeparated, List.cons_append, List.append_assoc, List.append_assoc,
        List.singleton_append]
      change ofTokensFrom? .firstItem stack (tokens item ++ _) = _
      rw [ofTokensFrom?_firstItem, first, later]
      rfl
  | case2 members ih =>
    intro stack rest
    rw [tokens]
    cases members with
    | nil => rfl
    | cons m members =>
      obtain ⟨first, others⟩ := List.forall_mem_cons.1 ih
      have later := ofTokensFrom?_members others m.2 m.1 [] stack rest
      rw [List.map_cons, commaSeparated, List.cons_append, List.append_assoc, List.append_assoc,
        List.singleton_append, List.cons_append, List.cons_append]
      change ofTokensFrom? .value (.object [] m.1 :: stack) (tokens m.2 ++ _) = _
      rw [first, later]
      rfl
  | case3 text =>
    intro stack rest
    rw [tokens]
    rfl
  | case4 value noArray noObject noString =>
    intro stack rest
    rw [tokens]
    · rfl
    all_goals assumption

/-- The tokens of a value are read as that value and nothing else. -/
theorem ofTokens?_tokens (value : Json) : ofTokens? (tokens value) = some value := by
  have read := readable value [] []
  rwa [List.append_nil] at read

end DirectionCentral.Json
